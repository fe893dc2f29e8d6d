import SipEcho.Map.Items

/-!
`map_map`: the items of a container go over to a new one with other indexes.

* `trecurse`, `mapWalk`, `mapItemPush`: the walk over an index, and the push of an item on the way;
* `trecurse_eq`: the walk meets the nodes in the order of the index, and stops at the first failure;
* `mapMap`, `mapRelease`: the call, and the map it gives back, drained first;
* `Lists.pushAll`: all items go into the new map, or one of them is refused;
* `map_map_all_or_nothing`: the new map has the items and the old one is gone, or the old map is as
  it was; no item is freed.
-/

namespace SipEcho

open Lib

universe u

variable {α : Type} {σ : Type u}

/-! ### The walk -/

/-- `VISIT`. -/
inductive Visit where
  | preorder
  | postorder
  | endorder
  | leaf
  deriving DecidableEq, Repr

/-- `trecurse`, below a root that is there; an action on a state may stop the walk. -/
def trecurse (action : ℕ → Visit → σ → Except Fault (ℤ × σ)) :
    RBTree ℕ → σ → Except Fault (ℤ × σ)
  | .nil, s => return (0, s)
  | .node _ l k r, s =>
      if l.size = 0 ∧ r.size = 0 then action k .leaf s
      else do
        let (res, s) ← action k .preorder s
        if res ≠ 0 then return (res, s)
        else do
          let (res, s) ← trecurse action l s
          if res ≠ 0 then return (res, s)
          else do
            let (res, s) ← action k .postorder s
            if res ≠ 0 then return (res, s)
            else do
              let (res, s) ← trecurse action r s
              if res ≠ 0 then return (res, s) else action k .endorder s

/-- `map_internal_action`. -/
def mapInternalAction (exe : ℕ → σ → Except Fault (ℤ × σ)) (node : ℕ) (which : Visit) (s : σ) :
    Except Fault (ℤ × σ) :=
  match which with
  | .leaf | .postorder => exe node s
  | _ => return (0, s)

/-- `map_walk`; an index below zero reads in front of the array. -/
def mapWalk (m : Map α) (index : ℤ) (exe : ℕ → σ → Except Fault (ℤ × σ)) (s : σ) :
    Except Fault (ℤ × σ) :=
  if (m.key.length : ℤ) > index then
    if index < 0 then throw .crash
    else
      match m.key[index.toNat]? with
      | some k => trecurse (mapInternalAction exe) k.root s
      | none => throw .crash
  else return (-1, s)

/-! ### `map_map` -/

/-- `map_item_push` of a node of the map `old`; the new map may be null. -/
def mapItemPush (alloc : ℕ → Alloc) (old : Map α) (node : ℕ) (map : Option (Map α)) :
    Except Fault (ℤ × Option (Map α)) :=
  match map with
  | none => return (-1, none)
  | some m => do
      let (res, m) ← mapPush (alloc node) m (some (old.heap node).item)
      return (res, some m)

/-- `while (map_pop(old)) {}`. -/
def drainLoop : ℕ → Map α → Except Fault (Map α)
  | 0, m => do
      let (item, m) ← mapPop m
      if item.isSome then throw .fuel else return m
  | fuel + 1, m => do
      let (item, m) ← mapPop m
      if item.isSome then drainLoop fuel m else return m

/-- The loop, and `map_free` behind it: the items that are freed. -/
def mapRelease (map : Option (Map α)) : Except Fault (List α) :=
  match map with
  | none => return []
  | some m => do
      let m ← drainLoop m.size.toNat m
      let (items, _) ← mapErase m
      return items

/-- `map_map`: the map that is returned, the old map if it is still there, and the items freed.
`create` is whether the new map could be made, `alloc` what its pushes are given, `heap` and `next`
its memory. -/
def mapMap (create : Bool) (alloc : ℕ → Alloc) (heap : ℕ → MapNode α) (next : ℕ) (old : Map α)
    (index : ℤ) (cmps : List (α → α → ℕ → ℤ)) :
    Except Fault (Option (Map α) × Option (Map α) × List α) := do
  let map := if create then some (mapNew heap next cmps) else none
  let (fail, map) ← mapWalk old index (mapItemPush alloc old) map
  if fail ≠ 0 then do
    let items ← mapRelease map
    return (none, some old, items)
  else do
    let items ← mapRelease (some old)
    return (map, none, items)

/-! ### The order of the walk -/

/-- Nodes one after another, until one stops. -/
def walkNodes (exe : ℕ → σ → Except Fault (ℤ × σ)) : List ℕ → σ → Except Fault (ℤ × σ)
  | [], s => return (0, s)
  | a :: l, s => do
      let (res, s) ← exe a s
      if res ≠ 0 then return (res, s) else walkNodes exe l s

lemma walkNodes_append (exe : ℕ → σ → Except Fault (ℤ × σ)) (l₁ l₂ : List ℕ) (s : σ) :
    walkNodes exe (l₁ ++ l₂) s = walkNodes exe l₁ s >>= fun res =>
      if res.1 ≠ 0 then return res else walkNodes exe l₂ res.2 := by
  induction l₁ generalizing s with
  | nil => rfl
  | cons a l₁ ih =>
      rw [List.cons_append, walkNodes, walkNodes, bind_assoc]
      refine bind_congr ?_
      rintro ⟨res, s'⟩
      dsimp only
      by_cases hres : res ≠ 0
      · rw [if_pos hres, if_pos hres, pure_bind, if_pos hres]
      · rw [if_neg hres, if_neg hres, ih]

/-- **The walk over an index** meets its nodes in their order. -/
lemma trecurse_eq (exe : ℕ → σ → Except Fault (ℤ × σ)) (t : RBTree ℕ) (s : σ) :
    trecurse (mapInternalAction exe) t s = walkNodes exe t.inorder s := by
  -- a walk that ends behind a node ends there as it is
  have hend (x : Except Fault (ℤ × σ)) :
      (x >>= fun res => if res.1 ≠ 0 then pure res else pure (0, res.2)) = x := by
    rcases x with e | ⟨res, s'⟩
    · rfl
    · by_cases hres : res = 0
      · subst hres
        rfl
      · exact if_pos hres
  induction t generalizing s with
  | nil => rfl
  | node red l k r ihl ihr =>
      rw [trecurse, RBTree.inorder, walkNodes_append, ← ihl]
      split
      · next hleaf =>
        obtain rfl : l = .nil := by
          cases l with
          | nil => rfl
          | node => exact absurd hleaf.1 (by simp [RBTree.size])
        obtain rfl : r = .nil := by
          cases r with
          | nil => rfl
          | node => exact absurd hleaf.2 (by simp [RBTree.size])
        exact (hend (exe k s)).symm
      · show trecurse (mapInternalAction exe) l s >>= _ = _
        refine bind_congr ?_
        rintro ⟨res, s'⟩
        dsimp only
        by_cases hres : res ≠ 0
        · rw [if_pos hres, if_pos hres]
        · rw [if_neg hres, if_neg hres, walkNodes]
          refine bind_congr ?_
          rintro ⟨res, s'⟩
          dsimp only
          by_cases hres : res ≠ 0
          · rw [if_pos hres, if_pos hres]
          · rw [if_neg hres, if_neg hres, ← ihr]
            exact hend _

/-! ### The new map -/

section Pushes

variable {cmps : List (α → α → ℕ → ℤ)} {m old : Map α} {xs : List α} {alloc : ℕ → Alloc}

/-- There is memory for the nodes `l` of the map `old`, and no two items of them and of `xs` are
equal under any of the comparators. -/
def AllFit (cmps : List (α → α → ℕ → ℤ)) (alloc : ℕ → Alloc) (old : Map α) (l : List ℕ)
    (xs : List α) : Prop :=
  (∀ a ∈ l, (alloc a).calloc = true ∧ ∀ i < cmps.length, (alloc a).malloc i = true) ∧
    ∀ (i : ℕ) (c : α → α → ℕ → ℤ), cmps[i]? = some c →
      ((l.map fun a => (old.heap a).item).reverse ++ xs).Pairwise fun x y => c x y i ≠ 0

/-- The first of the nodes, and the rest behind it. -/
lemma allFit_cons {a : ℕ} {l : List ℕ} : AllFit cmps alloc old (a :: l) xs ↔
    Lists.Fits cmps (alloc a) xs (old.heap a).item ∧
      AllFit cmps alloc old l ((old.heap a).item :: xs) := by
  have hlist : ((a :: l).map fun a => (old.heap a).item).reverse ++ xs =
      (l.map fun a => (old.heap a).item).reverse ++ (old.heap a).item :: xs := by
    simp
  rw [AllFit, AllFit, hlist, List.forall_mem_cons]
  constructor
  · rintro ⟨⟨⟨hcalloc, hmalloc⟩, hrest⟩, hpair⟩
    refine ⟨⟨hcalloc, hmalloc, fun i c hc => ?_⟩, hrest, hpair⟩
    have := hpair i c hc
    rw [List.pairwise_append, List.pairwise_cons] at this
    exact this.2.1.1
  · rintro ⟨⟨hcalloc, hmalloc, -⟩, hrest, hpair⟩
    exact ⟨⟨⟨hcalloc, hmalloc⟩, hrest⟩, hpair⟩

/-- What the walk makes of the new map: all items are in it, the last one first, or one was
refused. -/
def Moved (cmps : List (α → α → ℕ → ℤ)) (alloc : ℕ → Alloc) (old : Map α) (l : List ℕ)
    (xs : List α) (res : ℤ × Option (Map α)) : Prop :=
  (res.1 = 0 ∧ AllFit cmps alloc old l xs ∧ ∃ m, res.2 = some m ∧
      Lists cmps m ((l.map fun a => (old.heap a).item).reverse ++ xs)) ∨
    (res.1 = -1 ∧ ¬ AllFit cmps alloc old l xs ∧ ∃ m ys, res.2 = some m ∧ Lists cmps m ys ∧
      ys.length ≤ l.length + xs.length)

/-- **The pushes**, one after another. -/
lemma Lists.pushAll (h : Lists cmps m xs) (alloc : ℕ → Alloc) (old : Map α) (l : List ℕ) :
    Meets (2 ^ 49 ≤ l.length + xs.length) (Moved cmps alloc old l xs)
      (walkNodes (mapItemPush alloc old) l (some m)) := by
  induction l generalizing m xs with
  | nil => exact Or.inl ⟨rfl, ⟨by simp, fun i c hc => h.pairwise hc⟩, m, rfl, h⟩
  | cons a l ih =>
      rw [walkNodes, mapItemPush, bind_assoc]
      have hpush := (h.push_ret (alloc a) (old.heap a).item).and (h.push (alloc a) _)
      refine (hpush.excuse_mono fun hbig => ?_).bind ?_
      · rw [List.length_cons]
        omega
      rintro ⟨res, m'⟩ ⟨hret, ⟨hzero, hnew⟩ | ⟨hfail, hold⟩⟩
      · dsimp only at hret hzero hnew
        subst hzero
        refine ((ih hnew).mono fun res hres => ?_).excuse_mono fun hbig => ?_
        · have hfits := hret.mp rfl
          rcases hres with ⟨h0, hall, m'', hm, hlists⟩ | ⟨h1, hno, m'', ys, hm, hlists, hlen⟩
          · exact Or.inl ⟨h0, allFit_cons.mpr ⟨hfits, hall⟩, m'', hm, by simpa using hlists⟩
          · refine Or.inr ⟨h1, fun hall => hno (allFit_cons.mp hall).2, m'', ys, hm, hlists, ?_⟩
            simp only [List.length_cons] at hlen ⊢
            omega
        · simp only [List.length_cons] at hbig ⊢
          omega
      · dsimp only at hret hfail hold
        subst hfail
        refine Or.inr ⟨rfl, fun hall => ?_, m', xs, rfl, hold, by omega⟩
        exact absurd (hret.mpr (allFit_cons.mp hall).1) (by simp)

/-! ### The map that is given back -/

/-- The loop leaves no node. -/
lemma MapInv.drainLoop {l : List ℕ} (h : MapInv cmps m l) {fuel : ℕ} (hfuel : l.length ≤ fuel) :
    Meets (2 ^ 49 ≤ l.length) (fun m' => MapInv cmps m' []) (SipEcho.drainLoop fuel m) := by
  induction fuel generalizing m l with
  | zero =>
      obtain rfl : l = [] := List.eq_nil_of_length_eq_zero (by omega)
      have hroot : m.root = none := h.listed.root_eq
      rw [SipEcho.drainLoop, mapPop, hroot]
      exact h
  | succ fuel ih =>
      rw [SipEcho.drainLoop, mapPop, h.listed.root_eq]
      cases l with
      | nil => exact h
      | cons a l =>
          refine (show MapInv cmps m ([] ++ a :: l) from h).remove.bind ?_
          rintro ⟨item, m'⟩ ⟨rfl, hinv, -⟩
          have hlen : l.length ≤ fuel := by simpa using hfuel
          exact (ih hinv hlen).excuse_mono fun hbig => hbig.trans (by simp)

/-- **A map is given back** without an item being freed. -/
lemma Lists.release (h : Lists cmps m xs) :
    Meets (2 ^ 49 ≤ xs.length) (fun items => items = []) (mapRelease (some m)) := by
  obtain ⟨l, hl, rfl⟩ := h
  have hdrain := hl.drainLoop (show l.length ≤ m.size.toNat by rw [hl.size_eq]; simp)
  refine (hdrain.excuse_mono fun hbig => ?_).bind fun m' hm' => ?_
  · rwa [List.length_map]
  · have herase := Lists.erase (show Lists cmps m' [] from ⟨[], hm', rfl⟩)
    refine (herase.excuse_mono fun hbig => absurd hbig (by simp)).bind ?_
    rintro ⟨items, m''⟩ ⟨hitems, -⟩
    exact hitems

end Pushes

/-! ### All or nothing -/

section Outcome

variable {cmps cmps' : List (α → α → ℕ → ℤ)} {old : Map α} {l : List ℕ} {create : Bool}
  {alloc : ℕ → Alloc} {index : ℕ}

/-- The index exists, no two items are equal under any of the new comparators, and there is
memory. -/
def Mappable (cmps : List (α → α → ℕ → ℤ)) (create : Bool) (alloc : ℕ → Alloc) (old : Map α)
    (l : List ℕ) (index : ℕ) : Prop :=
  index < old.key.length ∧ create = true ∧
    (∀ a ∈ l, (alloc a).calloc = true ∧ ∀ i < cmps.length, (alloc a).malloc i = true) ∧
    ∀ (i : ℕ) (c : α → α → ℕ → ℤ), cmps[i]? = some c →
      l.Pairwise fun a b => c (old.heap a).item (old.heap b).item i ≠ 0

/-- **What `map_map` does**: all items are in the new map, in the reverse order of the index, and
the old one is gone; or null is returned and the old map is as it was.  No item is freed.  About an
empty map for which there was no memory nothing is said. -/
structure MapsOrNot (cmps : List (α → α → ℕ → ℤ)) (create : Bool) (alloc : ℕ → Alloc) (old : Map α)
    (l : List ℕ) (index : ℕ) (res : Option (Map α) × Option (Map α) × List α) : Prop where
  maps : Mappable cmps create alloc old l index → ∃ m k, old.key[index]? = some k ∧
    res = (some m, none, []) ∧
    Lists cmps m (k.root.inorder.map fun a => (old.heap a).item).reverse
  refuses : ¬ Mappable cmps create alloc old l index →
    (create = false → l = [] → old.key.length ≤ index) → res = (none, some old, [])

/-- In the order of an index or in that of the list, it is the same items that are to fit. -/
lemma mappable_iff (alloc : ℕ → Alloc) (h : MapInv cmps' old l)
    (hpre : ∀ (i : ℕ) (c : α → α → ℕ → ℤ), cmps[i]? = some c → TotalPreorder fun x y => c x y i)
    {k : MapIndex α} (hk : old.key[index]? = some k) (hcreate : create = true) :
    Mappable cmps create alloc old l index ↔ AllFit cmps alloc old k.root.inorder [] := by
  obtain ⟨hlt, -⟩ := List.getElem?_eq_some_iff.mp hk
  have hperm : k.root.inorder.Perm l := (indexed_iff.mp h.indexed index k hk).keys
  have hpair (i : ℕ) (c : α → α → ℕ → ℤ) (hc : cmps[i]? = some c) :
      (l.Pairwise fun a b => c (old.heap a).item (old.heap b).item i ≠ 0) ↔
        ((k.root.inorder.map fun a => (old.heap a).item).reverse ++ []).Pairwise
          fun x y => c x y i ≠ 0 := by
    have hsymm {x y : α} (hne : c x y i ≠ 0) : c y x i ≠ 0 :=
      fun hzero => hne ((hpre i c hc).comparator.eq_symm hzero)
    rw [List.append_nil, List.pairwise_reverse, List.pairwise_map, hperm.pairwise_iff hsymm]
    exact ⟨fun hall => hall.imp hsymm, fun hall => hall.imp hsymm⟩
  constructor
  · rintro ⟨-, -, halloc, hne⟩
    exact ⟨fun a ha => halloc a (hperm.mem_iff.mp ha), fun i c hc => (hpair i c hc).mp (hne i c hc)⟩
  · rintro ⟨halloc, hne⟩
    exact ⟨hlt, hcreate, fun a ha => halloc a (hperm.mem_iff.mpr ha),
      fun i c hc => (hpair i c hc).mpr (hne i c hc)⟩

/-- Without a new map the walk stops at the first node. -/
lemma walkNodes_none (l : List ℕ) : walkNodes (mapItemPush alloc old) l none =
    .ok (if l = [] then 0 else -1, none) := by
  cases l <;> rfl

/-- The walk of the call. -/
lemma mapWalk_eq {σ : Type} (exe : ℕ → σ → Except Fault (ℤ × σ)) (s : σ) :
    mapWalk old index exe s = match old.key[index]? with
      | some k => walkNodes exe k.root.inorder s
      | none => .ok (-1, s) := by
  rw [mapWalk]
  by_cases hlt : index < old.key.length
  · rw [if_pos (by omega), if_neg (by omega), Int.toNat_natCast, List.getElem?_eq_getElem hlt]
    exact trecurse_eq exe _ s
  · rw [if_neg (by omega), List.getElem?_eq_none (by omega)]
    rfl

/-- **`map_map` is all or nothing.** -/
theorem map_map_all_or_nothing (h : MapInv cmps' old l)
    (hpre : ∀ (i : ℕ) (c : α → α → ℕ → ℤ), cmps[i]? = some c → TotalPreorder fun x y => c x y i)
    (create : Bool) (alloc : ℕ → Alloc) (heap : ℕ → MapNode α) (next index : ℕ) :
    Meets (2 ^ 49 ≤ l.length) (MapsOrNot cmps create alloc old l index)
      (mapMap create alloc heap next old index cmps) := by
  have hnew : Lists cmps (mapNew heap next cmps) [] :=
    ⟨[], MapInv.new _ _ fun i c hc => (hpre i c hc).comparator, rfl⟩
  have hold : Lists cmps' old (l.map fun a => (old.heap a).item) := ⟨l, h, rfl⟩
  -- whatever is given back, no item is freed
  have refused {m : Option (Map α)} (hno : ¬ Mappable cmps create alloc old l index)
      (hm : m = none ∨ ∃ m' ys, m = some m' ∧ Lists cmps m' ys ∧ ys.length ≤ l.length) :
      Meets (2 ^ 49 ≤ l.length) (MapsOrNot cmps create alloc old l index)
        (mapRelease m >>= fun items => pure (none, some old, items)) := by
    have hfreed : Meets (2 ^ 49 ≤ l.length) (fun items => items = []) (mapRelease m) := by
      rcases hm with rfl | ⟨m', ys, rfl, hys, hlen⟩
      · rfl
      · exact hys.release.excuse_mono fun hbig => hbig.trans hlen
    refine hfreed.bind ?_
    rintro items rfl
    exact ⟨fun hall => absurd hall hno, fun _ _ => rfl⟩
  rw [mapMap, mapWalk_eq]
  rcases hk : old.key[index]? with _ | k
  · have hno : ¬ Mappable cmps create alloc old l index := by
      rintro ⟨hlt, -⟩
      rw [List.getElem?_eq_none_iff] at hk
      omega
    refine refused hno ?_
    cases create with
    | true => exact Or.inr ⟨_, [], rfl, hnew, by simp⟩
    | false => exact Or.inl rfl
  · have hperm : k.root.inorder.Perm l := (indexed_iff.mp h.indexed index k hk).keys
    obtain ⟨hlt, -⟩ := List.getElem?_eq_some_iff.mp hk
    dsimp only
    cases create with
    | false =>
        have hno : ¬ Mappable cmps false alloc old l index := fun hall => absurd hall.2.1 (by simp)
        rw [if_neg (by simp), walkNodes_none]
        by_cases hl : l = []
        · -- the empty map is given back although there is no new one
          have hnil : k.root.inorder = [] := by
            rw [hl] at hperm
            exact hperm.eq_nil
          rw [if_pos hnil]
          refine (hold.release.excuse_mono fun hbig => by simpa using hbig).bind ?_
          rintro items rfl
          exact ⟨fun hall => absurd hall hno, fun _ hgone => by have := hgone rfl hl; omega⟩
        · have hne : k.root.inorder ≠ [] := by
            intro hnil
            rw [hnil] at hperm
            exact hl hperm.nil_eq.symm
          rw [if_neg hne]
          exact refused hno (Or.inl rfl)
    | true =>
        have hiff := mappable_iff alloc h hpre hk rfl
        rw [if_pos rfl]
        refine ((hnew.pushAll alloc old k.root.inorder).excuse_mono
          fun hbig => ?_).bind ?_
        · rw [hperm.length_eq] at hbig
          simpa using hbig
        rintro ⟨res, m⟩ (⟨rfl, hall, m', rfl, hlists⟩ | ⟨rfl, hno, m', ys, rfl, hys, hlen⟩)
        · refine (hold.release.excuse_mono fun hbig => by simpa using hbig).bind ?_
          rintro items rfl
          rw [List.append_nil] at hlists
          exact ⟨fun _ => ⟨m', k, hk, rfl, hlists⟩, fun hno => absurd (hiff.mpr hall) hno⟩
        · refine refused (fun hall => hno (hiff.mp hall)) (Or.inr ⟨m', ys, rfl, hys, ?_⟩)
          rw [hperm.length_eq] at hlen
          simpa using hlen

end Outcome

/-- By half the first component. -/
def cmpHalf (x y : ℕ × ℕ) (_ : ℕ) : ℤ := (x.1 / 2 : ℕ) - (y.1 / 2 : ℕ)

lemma cmpHalf_preorder (i : ℕ) : TotalPreorder fun x y => cmpHalf x y i :=
  ⟨fun x y => by simp only [cmpHalf]; omega, fun x y z => by simp only [cmpHalf]; omega⟩

/-- Three items go over to a map with the two indexes the other way round, in the reverse order of
the second; and under an index by halves, the second new one, two of them collide. -/
theorem map_map_pairs :
    (∃ m, mapMap true (fun _ => allAlloc) zeroHeap 0 threePairs (1 : ℕ) [cmpSnd, cmpFst] =
        .ok (some m, none, []) ∧ Lists [cmpSnd, cmpFst] m [(1, 7), (3, 6), (2, 5)]) ∧
      mapMap true (fun _ => allAlloc) zeroHeap 0 threePairs (0 : ℕ) [cmpFst, cmpHalf] =
        .ok (none, some threePairs, []) := by
  constructor
  · have hmappable : Mappable [cmpSnd, cmpFst] true (fun _ => allAlloc) threePairs [2, 1, 0] 1 := by
      refine ⟨by decide +kernel, rfl, fun _ _ => ⟨rfl, fun _ _ => rfl⟩, fun i c hc => ?_⟩
      have hc : c = cmpSnd ∨ c = cmpFst := by simpa using List.mem_of_getElem? hc
      rcases hc with rfl | rfl
      · show List.Pairwise
          (fun a b => cmpSnd (threePairs.heap a).item (threePairs.heap b).item 0 ≠ 0) _
        decide +kernel
      · show List.Pairwise
          (fun a b => cmpFst (threePairs.heap a).item (threePairs.heap b).item 0 ≠ 0) _
        decide +kernel
    obtain ⟨res, hok, hmaps⟩ := (map_map_all_or_nothing threePairs_inv
      (two_preorders cmpSnd_preorder cmpFst_preorder) true (fun _ => allAlloc) zeroHeap 0
      1).returns (by simp)
    obtain ⟨m, k, hk, rfl, hlists⟩ := hmaps.maps hmappable
    refine ⟨m, hok, ?_⟩
    have horder : (threePairs.key[1]?.map fun k =>
        (k.root.inorder.map fun a => (threePairs.heap a).item).reverse) =
        some [(1, 7), (3, 6), (2, 5)] := by decide +kernel
    rw [hk, Option.map_some] at horder
    rwa [← Option.some.inj horder]
  · have hno : ¬ Mappable [cmpFst, cmpHalf] true (fun _ => allAlloc) threePairs [2, 1, 0] 0 := by
      rintro ⟨-, -, -, hne⟩
      have hpair := hne 1 cmpHalf rfl
      exact List.rel_of_pairwise_cons hpair (show 1 ∈ [1, 0] by simp) (by decide +kernel)
    obtain ⟨res, hok, hmaps⟩ := (map_map_all_or_nothing threePairs_inv
      (two_preorders cmpFst_preorder cmpHalf_preorder) true (fun _ => allAlloc) zeroHeap 0
      0).returns (by simp)
    rw [hok, hmaps.refuses hno (by simp)]

/-- **Without memory for the new map** null is returned although the index exists and no two items
are equal: for a map of three items, which is as it was, and for an empty one, which is released;
and an index below zero is read in front of the array. -/
theorem unmade_map_refuses :
    (¬ ∀ (cmps cmps' : List (ℕ × ℕ → ℕ × ℕ → ℕ → ℤ)) (create : Bool) (old : Map (ℕ × ℕ))
      (l : List ℕ) (index : ℕ) (res : Option (Map (ℕ × ℕ)) × Option (Map (ℕ × ℕ)) × List (ℕ × ℕ)),
      MapInv cmps' old l →
      (∀ (i : ℕ) (c : ℕ × ℕ → ℕ × ℕ → ℕ → ℤ), cmps[i]? = some c →
        TotalPreorder fun x y => c x y i) →
      mapMap create (fun _ => allAlloc) zeroHeap 0 old index cmps = .ok res →
      (index < old.key.length → (∀ (i : ℕ) (c : ℕ × ℕ → ℕ × ℕ → ℕ → ℤ), cmps[i]? = some c →
        l.Pairwise fun a b => c (old.heap a).item (old.heap b).item i ≠ 0) →
      ∃ m, res = (some m, none, []))) ∧
    mapMap false (fun _ => allAlloc) zeroHeap 0 threePairs (0 : ℕ) [cmpFst, cmpSnd] =
      .ok (none, some threePairs, []) ∧
    mapMap false (fun _ => allAlloc) zeroHeap 0 (mapNew zeroHeap 0 [cmpFst, cmpSnd]) (0 : ℕ)
      [cmpFst, cmpSnd] = .ok (none, none, []) ∧
    mapMap true (fun _ => allAlloc) zeroHeap 0 threePairs (-1) [cmpFst, cmpSnd] =
      .error .crash := by
  have hkept : mapMap false (fun _ => allAlloc) zeroHeap 0 threePairs (0 : ℕ) [cmpFst, cmpSnd] =
      .ok (none, some threePairs, []) := rfl
  refine ⟨fun hall => ?_, hkept, rfl, rfl⟩
  obtain ⟨m, hm⟩ := hall _ _ _ _ [2, 1, 0] 0 _ threePairs_inv cmpPairs_preorder hkept
    (by decide +kernel) fun i c hc => threePairs_inv.listed.nodup.imp_of_mem fun ha hb hab =>
      threePairs_inv.distinct hc ha hb hab
  exact absurd hm (by simp)

end SipEcho
