import SipEcho.Map.Invariant

/-!
Runs of calls on a container.

* `MapInv.search`: a search in an index finds a stored item that compares equal, if there is one;
* `MapInv.popBackWhen`, `MapInv.dropLoop`: the calls that walk the list;
* `MapInv.step`: every call keeps the invariant;
* `map_run`: **every run from a new map** leaves a map that `Represents` a list of nodes;
* `map_run_pairs`, `update_breaks_index`: runs on pairs with two indexes; a copy over a stored item
  that changes it under a second comparator leaves an index out of order.
-/

namespace SipEcho

open Lib

variable {α : Type} {cmps : List (α → α → ℕ → ℤ)} {m : Map α} {l l₁ : List ℕ} {a : ℕ}

namespace MapInv

/-! ### Searches -/

/-- **`map_search`.** -/
lemma search (h : MapInv cmps m l) {i : ℕ} {c : α → α → ℕ → ℤ} (hc : cmps[i]? = some c)
    (x : α) :
    (∀ a, mapSearch m x i = some a → a ∈ l ∧ c x (m.heap a).item i = 0) ∧
      (mapSearch m x i = none → ∀ a ∈ l, c x (m.heap a).item i ≠ 0) := by
  obtain ⟨k, hk, rfl, hindex⟩ := h.index hc
  rw [mapSearch, hk]
  refine ⟨fun a ha => ?_, fun hnone a ha => ?_⟩
  · obtain ⟨h1, h2⟩ := tfind_eq_some ha
    exact ⟨hindex.keys.mem_iff.mp h1, h2⟩
  · exact tfind_eq_none (hindex.cut x) hnone a (hindex.keys.mem_iff.mpr ha)

/-- What a search finds is stored. -/
lemma search_mem (h : MapInv cmps m l) {x : α} {i a : ℕ} (hs : mapSearch m x i = some a) :
    a ∈ l := by
  by_cases hi : i < cmps.length
  · exact ((h.search (List.getElem?_eq_getElem hi) x).1 a hs).1
  · have : m.key[i]? = none := List.getElem?_eq_none (by rw [h.length_cmps]; omega)
    rw [mapSearch, this] at hs
    exact absurd hs (by simp)

/-- The nodes in their order, as `map_begin` and `map_next` give them. -/
lemma nth (h : MapInv cmps m l) (n : ℕ) : mapNth m n = l[n]? := by
  induction n with
  | zero => rw [mapNth, h.listed.root_eq, List.head?_eq_getElem?]
  | succ n ih =>
      rw [mapNth, ih]
      rcases hn : l[n]? with _ | a
      · rw [List.getElem?_eq_none (by rw [List.getElem?_eq_none_iff] at hn; omega)]
      · obtain ⟨hlt, rfl⟩ := List.getElem?_eq_some_iff.mp hn
        dsimp only
        rw [h.listed.down_eq (l.take n) l[n] (l.drop (n + 1)) (by simp), List.head?_drop]

/-- The list is what `map_begin` and `map_next` go through. -/
lemma nodes_eq (h : MapInv cmps m l) : (List.range m.size.toNat).filterMap (mapNth m) = l := by
  rw [h.size_eq, Int.toNat_natCast]
  simp only [h.nth]
  clear h
  induction l using List.reverseRecOn with
  | nil => rfl
  | append_singleton l a ih =>
      have hold : (List.range l.length).filterMap (fun n => (l ++ [a])[n]?) =
          (List.range l.length).filterMap fun n => l[n]? :=
        List.filterMap_congr fun n hn => by
          rw [List.getElem?_append_left (List.mem_range.mp hn)]
      rw [List.length_append, List.length_singleton, List.range_succ, List.filterMap_append, hold,
        ih]
      simp

/-! ### Calls that remove -/

/-- What a call that removes at most leaves. -/
def Shrinks (cmps : List (α → α → ℕ → ℤ)) (l : List ℕ) (m : Map α) : Prop :=
  ∃ l', MapInv cmps m l' ∧ l'.length ≤ l.length

/-- The removal of a node that is stored, if there is one. -/
lemma remove_option (h : MapInv cmps m l) {node : Option ℕ} (hmem : ∀ a, node = some a → a ∈ l) :
    Meets (2 ^ 49 ≤ l.length) (fun res => Shrinks cmps l res.2) (mapRemove m node) := by
  cases node with
  | none => exact ⟨l, h, le_rfl⟩
  | some a =>
      refine (h.remove_mem (hmem a rfl)).mono fun res hres => ?_
      obtain ⟨-, ⟨l', h1, h2, -⟩, -⟩ := hres
      exact ⟨l', h1, by omega⟩

lemma root_mem (h : MapInv cmps m l) : ∀ a, m.root = some a → a ∈ l := by
  intro a ha
  rw [h.listed.root_eq] at ha
  exact List.mem_of_mem_head? ha

lemma tail_mem (h : MapInv cmps m l) : ∀ a, m.tail = some a → a ∈ l := by
  intro a ha
  rw [h.listed.tail_eq] at ha
  exact List.mem_of_getLast? ha

/-- The loop of `map_pop_back_when`, at the last of the nodes `l₁`. -/
lemma popBackLoop (h : MapInv cmps m l) (yes : α → Bool) {fuel : ℕ} {node : Option ℕ}
    (l₁ l₂ : List ℕ) (hl : l = l₁ ++ l₂) (hnode : node = l₁.getLast?) (hfuel : l₁.length ≤ fuel) :
    Meets (2 ^ 49 ≤ l.length) (fun res => Shrinks cmps l res.2)
      (SipEcho.popBackLoop yes m fuel node) := by
  induction fuel generalizing node l₁ l₂ with
  | zero =>
      obtain rfl : l₁ = [] := List.eq_nil_of_length_eq_zero (by omega)
      subst hnode
      exact ⟨l, h, le_rfl⟩
  | succ fuel ih =>
      rcases l₁.eq_nil_or_concat' with rfl | ⟨l₁, a, rfl⟩
      · subst hnode
        exact ⟨l, h, le_rfl⟩
      · obtain rfl : node = some a := by rw [hnode, List.getLast?_concat]
        rw [SipEcho.popBackLoop]
        split
        · exact h.remove_option fun b hb => by
            obtain rfl : a = b := Option.some.inj hb
            simp [hl]
        · refine ih l₁ (a :: l₂) (by simpa using hl) ?_ (by simpa using hfuel)
          exact h.listed.up_eq l₁ a l₂ (by simpa using hl)

/-- **`map_pop_back_when`.** -/
lemma popBackWhen (h : MapInv cmps m l) (yes : α → Bool) :
    Meets (2 ^ 49 ≤ l.length) (fun res => Shrinks cmps l res.2) (mapPopBackWhen m yes) := by
  refine h.popBackLoop yes l [] (by simp) h.listed.tail_eq ?_
  rw [h.size_eq]
  simp

/-- **The loops of `map_erase` and `map_until`.** -/
lemma dropLoop (h : MapInv cmps m l) {last : Map α → Option ℕ} (yes : α → Bool) {fuel : ℕ}
    (hlast : ∀ m l, MapInv cmps m l → ∀ a, last m = some a → a ∈ l) (hfuel : l.length ≤ fuel) :
    Meets (2 ^ 49 ≤ l.length) (fun res => Shrinks cmps l res.2)
      (SipEcho.dropLoop last yes fuel m) := by
  induction fuel generalizing m l with
  | zero =>
      obtain rfl : l = [] := List.eq_nil_of_length_eq_zero (by omega)
      rw [SipEcho.dropLoop]
      rcases ha : last m with _ | a
      · exact ⟨[], h, le_rfl⟩
      · exact absurd (hlast m [] h a ha) (by simp)
  | succ fuel ih =>
      rw [SipEcho.dropLoop]
      rcases ha : last m with _ | a
      · exact ⟨l, h, le_rfl⟩
      · dsimp only
        split
        · refine (h.remove_mem (hlast m l h a ha)).bind ?_
          rintro ⟨item, m'⟩ ⟨-, ⟨l', h1, h2, -⟩, -⟩
          refine ((ih h1 (by omega)).excuse_mono fun hbig => by omega).bind ?_
          rintro ⟨items, m''⟩ ⟨l'', h3, h4⟩
          exact ⟨l'', h3, by omega⟩
        · exact ⟨l, h, le_rfl⟩

end MapInv

/-! ### The run -/

/-- The copy functions of a call are as they should be: what a new item becomes compares equal
to it, and an update leaves a stored item equal to what it was. -/
def MapOp.Copies (cmps : List (α → α → ℕ → ℤ)) : MapOp α → Prop
  | .pushFind _ _ (some cpy) flag => cpy.Copies cmps ∧
      ∀ f, flag = some f → f &&& mapFlagUpdate ≠ 0 → cpy.Settles cmps
  | _ => True

/-- **Every call keeps the invariant**, and adds one node at most. -/
theorem MapInv.step (h : MapInv cmps m l)
    (hpre : ∀ (i : ℕ) (c : α → α → ℕ → ℤ), cmps[i]? = some c → TotalPreorder fun x y => c x y i)
    {op : MapOp α} (hop : op.Copies cmps) :
    Meets (2 ^ 49 ≤ l.length) (fun m' => ∃ l', MapInv cmps m' l' ∧ l'.length ≤ l.length + 1)
      (mapStep m op) := by
  have shrinks {m' : Map α} (hm : MapInv.Shrinks cmps l m') :
      ∃ l', MapInv cmps m' l' ∧ l'.length ≤ l.length + 1 := by
    obtain ⟨l', h1, h2⟩ := hm
    exact ⟨l', h1, by omega⟩
  cases op with
  | push alloc item =>
      cases item with
      | none => exact ⟨l, h, by omega⟩
      | some item =>
          refine (h.push alloc item).bind fun res hres => ?_
          rcases hres.2 with ⟨-, -, h1⟩ | ⟨-, h1⟩
          · exact ⟨_, h1, by simp⟩
          · exact ⟨l, h1, by omega⟩
  | pushBack alloc item =>
      cases item with
      | none => exact ⟨l, h, by omega⟩
      | some item =>
          refine (h.pushBack alloc item).bind fun res hres => ?_
          rcases hres.2 with ⟨-, -, h1⟩ | ⟨-, h1⟩
          · exact ⟨_, h1, by simp⟩
          · exact ⟨l, h1, by omega⟩
  | pushFind alloc item cpy flag =>
      cases item with
      | none => exact ⟨l, h, by omega⟩
      | some item =>
          have hcopies : ∀ c, cpy = some c → c.Copies cmps := by
            rintro c rfl
            exact hop.1
          have hsettles : ∀ f, flag = some f → f &&& mapFlagUpdate ≠ 0 →
              ∀ c, cpy = some c → c.Settles cmps := by
            rintro f hf hne c rfl
            exact hop.2 f hf hne
          refine (h.pushFind hpre alloc item hcopies hsettles).bind fun res hres => ?_
          obtain ⟨l', h1, h2 | rfl⟩ := hres
          · exact ⟨l', h1, by rw [h2.length_eq]; omega⟩
          · exact ⟨_, h1, by simp⟩
  | pop => exact (h.remove_option h.root_mem).bind fun res hres => shrinks hres
  | popBack => exact (h.remove_option h.tail_mem).bind fun res hres => shrinks hres
  | popBackWhen yes => exact (h.popBackWhen yes).bind fun res hres => shrinks hres
  | get item index =>
      exact (h.remove_option fun a ha => h.search_mem ha).bind fun res hres => shrinks hres
  | pure item index =>
      exact (h.remove_option fun a ha => h.search_mem ha).bind fun res hres => shrinks hres
  | delete nth =>
      refine (h.remove_option fun a ha => ?_).bind fun res hres => shrinks hres
      rw [h.nth] at ha
      exact List.mem_of_getElem? ha
  | «until» yes =>
      refine (h.dropLoop yes (fun _ _ h => h.tail_mem) ?_).bind fun res hres => shrinks hres
      rw [h.size_eq]
      simp
  | erase =>
      refine (h.dropLoop _ (fun _ _ h => h.root_mem) ?_).bind fun res hres => shrinks hres
      rw [h.size_eq]
      simp

/-- **A run keeps the invariant.** -/
theorem MapInv.run (h : MapInv cmps m l)
    (hpre : ∀ (i : ℕ) (c : α → α → ℕ → ℤ), cmps[i]? = some c → TotalPreorder fun x y => c x y i)
    {ops : List (MapOp α)} (hops : ∀ op ∈ ops, op.Copies cmps) :
    Meets (2 ^ 49 ≤ l.length + ops.length) (fun m' => ∃ l', MapInv cmps m' l') (mapRun m ops) := by
  induction ops generalizing m l with
  | nil => exact ⟨l, h⟩
  | cons op ops ih =>
      refine ((h.step hpre (hops op (by simp))).excuse_mono fun hbig => by omega).bind ?_
      rintro m' ⟨l', h1, h2⟩
      refine (ih h1 fun op hop => hops op (by simp [hop])).excuse_mono fun hbig => ?_
      rw [List.length_cons]
      omega

/-- The map holds the nodes `l`: its links are those of `l`, its indexes hold the nodes of `l` in
their order, no two items are equal under any comparator, and a search finds an item that
compares equal exactly when there is one. -/
structure Represents (cmps : List (α → α → ℕ → ℤ)) (m : Map α) (l : List ℕ) : Prop where
  inv : MapInv cmps m l
  distinct : ∀ (i : ℕ) (c : α → α → ℕ → ℤ), cmps[i]? = some c → ∀ a ∈ l, ∀ b ∈ l, a ≠ b →
    c (m.heap a).item (m.heap b).item i ≠ 0
  find : ∀ (i : ℕ) (c : α → α → ℕ → ℤ), cmps[i]? = some c → ∀ x,
    match mapFind m x i with
    | some y => (∃ a ∈ l, (m.heap a).item = y) ∧ c x y i = 0
    | none => ∀ a ∈ l, c x (m.heap a).item i ≠ 0

lemma MapInv.represents (h : MapInv cmps m l) : Represents cmps m l where
  inv := h
  distinct i c hc a ha b hb hab := h.distinct hc ha hb hab
  find i c hc x := by
    obtain ⟨h1, h2⟩ := h.search hc x
    rw [mapFind]
    rcases hs : mapSearch m x i with _ | a
    · exact h2 hs
    · exact ⟨⟨a, (h1 a hs).1, rfl⟩, (h1 a hs).2⟩

/-- **Every run from a new map**: whatever the calls, the map they leave represents a list of its
nodes, or a call has not returned, which takes `2 ^ 49` of them. -/
theorem map_run (heap : ℕ → MapNode α) (next : ℕ)
    (hpre : ∀ (i : ℕ) (c : α → α → ℕ → ℤ), cmps[i]? = some c → TotalPreorder fun x y => c x y i)
    (ops : List (MapOp α)) (hops : ∀ op ∈ ops, op.Copies cmps) :
    Meets (2 ^ 49 ≤ ops.length) (fun m => ∃ l, Represents cmps m l)
      (mapRun (mapNew heap next cmps) ops) := by
  have h := (MapInv.new heap next fun i c hc => (hpre i c hc).comparator).run hpre hops
  refine (h.mono fun m' hm => ?_).excuse_mono fun hbig => by simpa using hbig
  obtain ⟨l, hl⟩ := hm
  exact ⟨l, hl.represents⟩

/-! ### Two indexes over pairs -/

section Pairs

/-- By the first or the second component. -/
def cmpFst (x y : ℕ × ℕ) (_ : ℕ) : ℤ := x.1 - y.1

def cmpSnd (x y : ℕ × ℕ) (_ : ℕ) : ℤ := x.2 - y.2

lemma cmpFst_preorder (i : ℕ) : TotalPreorder fun x y => cmpFst x y i :=
  ⟨fun x y => by simp only [cmpFst]; omega, fun x y z => by simp only [cmpFst]; omega⟩

lemma cmpSnd_preorder (i : ℕ) : TotalPreorder fun x y => cmpSnd x y i :=
  ⟨fun x y => by simp only [cmpSnd]; omega, fun x y z => by simp only [cmpSnd]; omega⟩

/-- Two comparators that order the items are two indexes that order them. -/
lemma two_preorders {c d : ℕ × ℕ → ℕ × ℕ → ℕ → ℤ} (hc : ∀ i, TotalPreorder fun x y => c x y i)
    (hd : ∀ i, TotalPreorder fun x y => d x y i) (i : ℕ) (e : ℕ × ℕ → ℕ × ℕ → ℕ → ℤ)
    (he : [c, d][i]? = some e) : TotalPreorder fun x y => e x y i := by
  have he : e = c ∨ e = d := by simpa using List.mem_of_getElem? he
  rcases he with rfl | rfl
  · exact hc i
  · exact hd i

lemma cmpPairs_preorder (i : ℕ) (c : ℕ × ℕ → ℕ × ℕ → ℕ → ℤ) (hc : [cmpFst, cmpSnd][i]? = some c) :
    TotalPreorder fun x y => c x y i :=
  two_preorders cmpFst_preorder cmpSnd_preorder i c hc

def allAlloc : Alloc := ⟨true, fun _ => true⟩

/-- Two items, and a third pushed over the first of them by a copy function that keeps what is
stored. -/
def keepingCalls : List (MapOp (ℕ × ℕ)) :=
  [.push allAlloc (some (1, 5)), .push allAlloc (some (2, 7)),
    .pushFind allAlloc (some (1, 9)) (some ⟨some, fun y _ => y⟩) (some mapFlagUpdate)]

/-- Memory full of zeros. -/
def zeroHeap : ℕ → MapNode (ℕ × ℕ) := fun _ => ⟨none, none, (0, 0)⟩

/-- A new map over pairs. -/
lemma mapNew_pairs : MapInv [cmpFst, cmpSnd] (mapNew zeroHeap 0 [cmpFst, cmpSnd]) [] :=
  MapInv.new _ _ fun i c hc => (cmpPairs_preorder i c hc).comparator

/-- Three items. -/
def threePushes : List (MapOp (ℕ × ℕ)) :=
  [.push allAlloc (some (1, 7)), .push allAlloc (some (2, 5)), .push allAlloc (some (3, 6))]

/-- A map of three items, whose list has the order of neither index. -/
def threePairs : Map (ℕ × ℕ) :=
  (mapRun (mapNew zeroHeap 0 [cmpFst, cmpSnd]) threePushes).toOption.getD
    (mapNew zeroHeap 0 [cmpFst, cmpSnd])

lemma threePairs_inv : MapInv [cmpFst, cmpSnd] threePairs [2, 1, 0] := by
  have hops : ∀ op ∈ threePushes, op.Copies [cmpFst, cmpSnd] := by
    simp [threePushes, MapOp.Copies]
  obtain ⟨m, hm, l, hl⟩ := (mapNew_pairs.run cmpPairs_preorder hops).returns (by decide)
  have hpairs : threePairs = m := by
    rw [threePairs, hm]
    rfl
  rw [← hpairs] at hl
  have hl' : [2, 1, 0] = l := by
    rw [← hl.nodes_eq]
    decide +kernel
  rwa [hl']

theorem map_run_pairs : ∃ m, mapRun (mapNew zeroHeap 0 [cmpFst, cmpSnd]) keepingCalls = .ok m ∧
    ∃ l, Represents [cmpFst, cmpSnd] m l := by
  refine (map_run zeroHeap 0 cmpPairs_preorder keepingCalls ?_).returns (by decide)
  intro op hop
  simp only [keepingCalls, List.mem_cons, List.not_mem_nil, or_false] at hop
  rcases hop with rfl | rfl | rfl
  · trivial
  · trivial
  · have hrefl (i : ℕ) (c) (hc : [cmpFst, cmpSnd][i]? = some c) (x : ℕ × ℕ) : c x x i = 0 :=
      (cmpPairs_preorder i c hc).comparator.refl x
    exact ⟨fun x => ⟨x, rfl, fun i c hc => hrefl i c hc x⟩,
      fun _ _ _ x y _ i c hc => hrefl i c hc y⟩

/-- The copy function of a call returns, for a new and for a stored item, an item equal to its
template. -/
def MapOp.CopiesTemplate (cmps : List (α → α → ℕ → ℤ)) : MapOp α → Prop
  | .pushFind _ _ (some cpy) _ => cpy.Copies cmps ∧
      ∀ x y (i : ℕ) (c : α → α → ℕ → ℤ), cmps[i]? = some c → c (cpy.stored y x) x i = 0
  | _ => True

/-- The same calls, with a copy function that makes the stored item equal to its template. -/
def copyingCalls : List (MapOp (ℕ × ℕ)) :=
  [.push allAlloc (some (1, 5)), .push allAlloc (some (2, 7)),
    .pushFind allAlloc (some (1, 9)) (some ⟨some, fun _ x => x⟩) (some mapFlagUpdate)]

/-- What is left of a run: the result of a search by the second component, and the first item. -/
def foundAndFirst (run : Except Fault (Map (ℕ × ℕ))) (x : ℕ × ℕ) :
    Option (Option (ℕ × ℕ) × Option (ℕ × ℕ)) :=
  match run with
  | .ok m => some (mapFind m x 1, m.root.map fun node => (m.heap node).item)
  | .error _ => none

/-- **A copy breaks the second index**: the stored item is `(2, 7)`, and a search for 7 in the
second index finds nothing. -/
theorem update_breaks_index :
    (∀ (i : ℕ) (c : ℕ × ℕ → ℕ × ℕ → ℕ → ℤ), [cmpFst, cmpSnd][i]? = some c →
      TotalPreorder fun x y => c x y i) ∧
    (∀ op ∈ copyingCalls, op.CopiesTemplate [cmpFst, cmpSnd]) ∧
    foundAndFirst (mapRun (mapNew zeroHeap 0 [cmpFst, cmpSnd]) copyingCalls) (0, 7) =
      some (none, some (2, 7)) ∧
    ∃ m, mapRun (mapNew zeroHeap 0 [cmpFst, cmpSnd]) copyingCalls = .ok m ∧
      ¬ ∃ l, Represents [cmpFst, cmpSnd] m l := by
  have hrun : foundAndFirst (mapRun (mapNew zeroHeap 0 [cmpFst, cmpSnd]) copyingCalls) (0, 7) =
      some (none, some (2, 7)) := by decide +kernel
  refine ⟨cmpPairs_preorder, ?_, hrun, ?_⟩
  · intro op hop
    simp only [copyingCalls, List.mem_cons, List.not_mem_nil, or_false] at hop
    have hrefl (i : ℕ) (c) (hc : [cmpFst, cmpSnd][i]? = some c) (x : ℕ × ℕ) : c x x i = 0 :=
      (cmpPairs_preorder i c hc).comparator.refl x
    rcases hop with rfl | rfl | rfl
    · trivial
    · trivial
    · exact ⟨fun x => ⟨x, rfl, fun i c hc => hrefl i c hc x⟩, fun x _ i c hc => hrefl i c hc x⟩
  · rcases hm : mapRun (mapNew zeroHeap 0 [cmpFst, cmpSnd]) copyingCalls with e | m
    · rw [hm] at hrun
      exact absurd hrun (by simp [foundAndFirst])
    · rw [hm] at hrun
      simp only [foundAndFirst, Option.some.injEq, Prod.mk.injEq, Option.map_eq_some_iff] at hrun
      obtain ⟨hfind, node, hroot, hitem⟩ := hrun
      refine ⟨m, rfl, ?_⟩
      rintro ⟨l, hl⟩
      have h1 := hl.find 1 cmpSnd rfl (0, 7)
      rw [hfind] at h1
      refine h1 node (hl.inv.root_mem node hroot) ?_
      rw [hitem]
      rfl

end Pairs

end SipEcho
