import SipEcho.Map.Insertion

/-!
The items of a container with one index or none, as a list: what `map_push`, `map_get`,
`map_push_back`, `map_front` and `map_pop` do to it.

* `Map.items`, `Lists cmps m xs`: the map `m` with the indexes `cmps` holds the items `xs`, first to
  last; `Lists.push`, `Lists.remove`, `Lists.erase`, `Lists.setFront`: what can be said without
  knowing them;
* `Holds c m xs`: the same for one index; `Holds.unique`: it holds one list;
* `Holds.push`: an item is put in front when the allocations succeed and no item is equal to it;
* `Holds.get`: an item that is equal to the key is taken out, if there is one;
* `Queues m xs`: the map `m` without an index holds the items `xs`;
* `Queues.pushBack`, `Queues.front`, `Queues.pop`: such a map is a queue, and no call on it aborts.
-/

namespace SipEcho

open Lib

variable {α : Type} {c : α → α → ℕ → ℤ} {m : Map α} {xs ys : List α}

/-! ### Any indexes -/

/-- The items, first to last, as `map_begin` and `map_next` give them. -/
def Map.items (m : Map α) : List α :=
  (List.range m.size.toNat).filterMap fun n => (mapNth m n).map fun a => (m.heap a).item

/-- The map has the indexes `cmps`, and the items `xs`. -/
def Lists (cmps : List (α → α → ℕ → ℤ)) (m : Map α) (xs : List α) : Prop :=
  ∃ l, MapInv cmps m l ∧ l.map (fun a => (m.heap a).item) = xs

namespace Lists

variable {cmps : List (α → α → ℕ → ℤ)} {x : α}

lemma items_eq (h : Lists cmps m xs) : m.items = xs := by
  obtain ⟨l, hl, rfl⟩ := h
  rw [Map.items, ← List.map_filterMap, hl.nodes_eq]

lemma cmps_eq (h : Lists cmps m xs) : m.key.map MapIndex.cmp = cmps := by
  obtain ⟨l, hl, -⟩ := h
  exact hl.cmps_eq

/-- `map_push`: the item is put in front, or nothing changes. -/
lemma push (h : Lists cmps m xs) (alloc : Alloc) (x : α) :
    Meets (2 ^ 49 ≤ xs.length)
      (fun res => res.1 = 0 ∧ Lists cmps res.2 (x :: xs) ∨ res.1 = -1 ∧ Lists cmps res.2 xs)
      (mapPush alloc m (some x)) := by
  obtain ⟨l, hl, rfl⟩ := h
  have hlen : 2 ^ 49 ≤ l.length → 2 ^ 49 ≤ (l.map fun a => (m.heap a).item).length := by
    rw [List.length_map]
    exact id
  refine ((hl.push alloc x).mono fun res hres => ?_).excuse_mono hlen
  obtain ⟨hitems, ⟨h0, hx, hinv⟩ | ⟨h1, hinv⟩⟩ := hres
  · refine Or.inl ⟨h0, _, hinv, ?_⟩
    rw [List.map_cons, hx]
    exact congrArg _ (List.map_congr_left hitems)
  · exact Or.inr ⟨h1, _, hinv, List.map_congr_left hitems⟩

/-- When an item goes in: there is memory, and no item is equal under any index. -/
def Fits (cmps : List (α → α → ℕ → ℤ)) (alloc : Alloc) (xs : List α) (x : α) : Prop :=
  alloc.calloc = true ∧ (∀ i < cmps.length, alloc.malloc i = true) ∧
    ∀ (i : ℕ) (c : α → α → ℕ → ℤ), cmps[i]? = some c → ∀ y ∈ xs, c x y i ≠ 0

/-- What `map_push` returns. -/
lemma push_ret (h : Lists cmps m xs) (alloc : Alloc) (x : α) :
    Meets (2 ^ 49 ≤ xs.length) (fun res => res.1 = 0 ↔ Fits cmps alloc xs x)
      (mapPush alloc m (some x)) := by
  obtain ⟨l, hl, rfl⟩ := h
  refine ((hl.push_exact alloc (some x)).mono fun res hres => ?_).excuse_mono fun hbig => ?_
  · rw [hres.ret_eq]
    constructor
    · rintro ⟨y, hy, hcalloc, hmalloc, hne⟩
      obtain rfl := Option.some.inj hy
      exact ⟨hcalloc, hmalloc, fun i c hc => List.forall_mem_map.mpr (hne i c hc)⟩
    · rintro ⟨hcalloc, hmalloc, hne⟩
      exact ⟨x, rfl, hcalloc, hmalloc,
        fun i c hc a ha => hne i c hc _ (List.mem_map_of_mem ha)⟩
  · rwa [List.length_map]

/-- No two items are equal under an index. -/
lemma pairwise (h : Lists cmps m xs) {i : ℕ} {c : α → α → ℕ → ℤ} (hc : cmps[i]? = some c) :
    xs.Pairwise fun x y => c x y i ≠ 0 := by
  obtain ⟨l, hl, rfl⟩ := h
  rw [List.pairwise_map]
  exact hl.listed.nodup.imp_of_mem fun ha hb hab => hl.distinct hc ha hb hab

/-- `map_remove` of a node that a search found: its item is gone. -/
lemma remove {l : List ℕ} (hl : MapInv cmps m l) {a : ℕ} (ha : a ∈ l) :
    Meets (2 ^ 49 ≤ l.length)
      (fun res => res.1 = some (m.heap a).item ∧
        ∃ xs₁ xs₂, (l.map fun b => (m.heap b).item) = xs₁ ++ (m.heap a).item :: xs₂ ∧
          Lists cmps res.2 (xs₁ ++ xs₂))
      (mapRemove m (some a)) := by
  obtain ⟨l₁, l₂, rfl⟩ := List.append_of_mem ha
  refine hl.remove.mono fun res hres => ?_
  obtain ⟨hitem, hinv, hitems⟩ := hres
  refine ⟨hitem, _, _, by rw [List.map_append, List.map_cons], l₁ ++ l₂, hinv, ?_⟩
  rw [List.map_append]
  congr 1
  · exact List.map_congr_left fun b _ => hitems b
  · exact List.map_congr_left fun b _ => hitems b

/-- The loop of `map_erase`. -/
lemma dropAll {l : List ℕ} (hl : MapInv cmps m l) {fuel : ℕ} (hfuel : l.length ≤ fuel) :
    Meets (2 ^ 49 ≤ l.length)
      (fun res => res.1 = l.map (fun a => (m.heap a).item) ∧ MapInv cmps res.2 [])
      (dropLoop Map.root (fun _ => true) fuel m) := by
  induction fuel generalizing m l with
  | zero =>
      obtain rfl : l = [] := List.eq_nil_of_length_eq_zero (by omega)
      have hroot : m.root = none := hl.listed.root_eq
      rw [dropLoop, hroot]
      exact ⟨rfl, hl⟩
  | succ fuel ih =>
      rw [dropLoop]
      cases l with
      | nil =>
          have hroot : m.root = none := hl.listed.root_eq
          rw [hroot]
          exact ⟨rfl, hl⟩
      | cons a l =>
          have hroot : m.root = some a := hl.listed.root_eq
          rw [hroot]
          refine (show MapInv cmps m ([] ++ a :: l) from hl).remove.bind ?_
          rintro ⟨item, m'⟩ ⟨hitem, hinv, hitems⟩
          have hlen : (a :: l).length = l.length + 1 := List.length_cons
          have hrest : l.length ≤ fuel := by
            simp at hfuel
            omega
          refine ((ih hinv hrest).excuse_mono fun hbig => ?_).bind ?_
          · rw [List.nil_append, hlen]
            rw [List.nil_append] at hbig
            omega
          · rintro ⟨items, m''⟩ ⟨hrest, hres⟩
            dsimp only at hitem hrest
            refine ⟨?_, hres⟩
            rw [hitem, hrest, List.map_cons]
            exact congrArg _ (List.map_congr_left fun b _ => hitems b)

/-- **`map_erase`**: every item is freed, and nothing is left. -/
theorem erase (h : Lists cmps m xs) :
    Meets (2 ^ 49 ≤ xs.length) (fun res => res.1 = xs ∧ Lists cmps res.2 []) (mapErase m) := by
  obtain ⟨l, hl, rfl⟩ := h
  refine ((dropAll hl ?_).mono fun res hres => ?_).excuse_mono fun hbig => ?_
  · rw [hl.size_eq]
    simp
  · exact ⟨hres.1, [], hres.2, rfl⟩
  · rwa [List.length_map]

/-- The first item is replaced by one that stands in the same order to everything. -/
lemma setFront (h : Lists cmps m (x :: xs)) {y : α} (hy : ∀ (i : ℕ) (c : α → α → ℕ → ℤ),
    cmps[i]? = some c → Alike (fun x y => c x y i) y x) :
    ∃ node, m.root = some node ∧ Lists cmps (m.setItem node y) (y :: xs) := by
  obtain ⟨l, hl, hxs⟩ := h
  obtain ⟨a, l, rfl, rfl, rfl⟩ := List.map_eq_cons_iff.mp hxs
  have hnot : a ∉ l := (List.nodup_cons.mp hl.listed.nodup).1
  refine ⟨a, hl.listed.root_eq, a :: l, hl.setItem hy, ?_⟩
  rw [List.map_cons, Map.setItem_item, if_pos rfl]
  refine congrArg _ (List.map_congr_left fun b hb => ?_)
  rw [Map.setItem_item, if_neg]
  rintro rfl
  exact hnot hb

end Lists

/-! ### One index -/

/-- The map has the index `c`, and the items `xs`. -/
def Holds (c : α → α → ℕ → ℤ) (m : Map α) (xs : List α) : Prop :=
  ∃ l, MapInv [c] m l ∧ l.map (fun a => (m.heap a).item) = xs

namespace Holds

/-- A new map holds nothing. -/
lemma new (hc : Comparator fun x y => c x y 0) (heap : ℕ → MapNode α) (next : ℕ) :
    Holds c (mapNew heap next [c]) [] := by
  refine ⟨[], MapInv.new heap next fun i c' hc' => ?_, rfl⟩
  cases i with
  | zero =>
      obtain rfl : c = c' := by simpa using hc'
      exact hc
  | succ i => exact absurd hc' (by simp)

/-- A map holds one list of items. -/
lemma unique (h : Holds c m xs) (h' : Holds c m ys) : xs = ys := by
  obtain ⟨l, hl, rfl⟩ := h
  obtain ⟨l', hl', rfl⟩ := h'
  have : l = l' := by
    refine List.ext_getElem? fun n => ?_
    rw [← hl.nth n, hl'.nth n]
  rw [this]

/-- No two of its items are equal. -/
lemma pairwise (h : Holds c m xs) : xs.Pairwise fun x y => c x y 0 ≠ 0 :=
  Lists.pairwise (show Lists [c] m xs from h) (i := 0) rfl

/-! ### Insertion -/

/-- When an item goes in. -/
def Pushable (c : α → α → ℕ → ℤ) (alloc : Alloc) (xs : List α) (x : α) : Prop :=
  alloc.calloc = true ∧ alloc.malloc 0 = true ∧ ∀ y ∈ xs, c x y 0 ≠ 0

lemma fits_iff {alloc : Alloc} {x : α} : Lists.Fits [c] alloc xs x ↔ Pushable c alloc xs x := by
  have only {i : ℕ} {c' : α → α → ℕ → ℤ} (hc : [c][i]? = some c') : i = 0 ∧ c' = c := by
    obtain ⟨hi, hc⟩ := List.getElem?_eq_some_iff.mp hc
    obtain rfl : i = 0 := by simpa using hi
    exact ⟨rfl, hc.symm⟩
  constructor
  · rintro ⟨hcalloc, hmalloc, hne⟩
    exact ⟨hcalloc, hmalloc 0 (by simp), hne 0 c rfl⟩
  · rintro ⟨hcalloc, hmalloc, hne⟩
    refine ⟨hcalloc, fun i hi => ?_, fun i c' hc => ?_⟩
    · obtain rfl : i = 0 := by simpa using hi
      exact hmalloc
    · obtain ⟨rfl, rfl⟩ := only hc
      exact hne

/-- **`map_push`**: the item is put in front, or nothing changes. -/
theorem push (h : Holds c m xs) (alloc : Alloc) (x : α) :
    Meets (2 ^ 49 ≤ xs.length)
      (fun res => (res.1 = 0 ↔ Pushable c alloc xs x) ∧
        (res.1 = 0 ∧ Holds c res.2 (x :: xs) ∨ res.1 = -1 ∧ Holds c res.2 xs))
      (mapPush alloc m (some x)) := by
  refine Meets.and ?_ (Lists.push h alloc x)
  simpa only [fits_iff] using Lists.push_ret (show Lists [c] m xs from h) alloc x

/-! ### Search and removal -/

/-- **`map_get`**: the item that is equal to the key is taken out. -/
theorem get (h : Holds c m xs) (x : α) :
    Meets (2 ^ 49 ≤ xs.length)
      (fun res => match res.1 with
        | some y => ∃ xs₁ xs₂, xs = xs₁ ++ y :: xs₂ ∧ c x y 0 = 0 ∧ Holds c res.2 (xs₁ ++ xs₂)
        | none => (∀ y ∈ xs, c x y 0 ≠ 0) ∧ Holds c res.2 xs)
      (mapGet m x 0) := by
  obtain ⟨l, hl, rfl⟩ := h
  obtain ⟨hsome, hnone⟩ := hl.search (i := 0) (c := c) rfl x
  rw [mapGet]
  cases hs : mapSearch m x 0 with
  | none =>
      refine ⟨?_, l, hl, rfl⟩
      rw [List.forall_mem_map]
      exact hnone hs
  | some a =>
      obtain ⟨ha, hzero⟩ := hsome a hs
      refine ((Lists.remove hl ha).mono fun res hres => ?_).excuse_mono fun h => ?_
      · obtain ⟨hitem, xs₁, xs₂, hxs, hleft⟩ := hres
        rw [hitem]
        exact ⟨xs₁, xs₂, hxs, hzero, hleft⟩
      · rwa [List.length_map]

end Holds

/-! ### Containers without an index -/

/-- The map has no index, and the items `xs`. -/
def Queues (m : Map α) (xs : List α) : Prop :=
  ∃ l, MapInv [] m l ∧ l.map (fun a => (m.heap a).item) = xs

namespace Queues

lemma new (heap : ℕ → MapNode α) (next : ℕ) : Queues (mapNew heap next []) ([] : List α) :=
  ⟨[], MapInv.new heap next (by simp), rfl⟩

lemma items_eq (h : Queues m xs) : m.items = xs := Lists.items_eq h

lemma key_eq (h : Queues m xs) : m.key = [] := by
  obtain ⟨l, hl, -⟩ := h
  exact List.map_eq_nil_iff.mp hl.cmps_eq

/-- `map_front`. -/
lemma front (h : Queues m xs) : mapFront m = xs.head? := by
  obtain ⟨l, hl, rfl⟩ := h
  rw [mapFront, hl.listed.root_eq, List.head?_map]

/-- **`map_push_back`**: the item is put behind the others when there is memory for a node. -/
theorem pushBack (h : Queues m xs) (alloc : Alloc) (x : α) :
    ∃ m', mapPushBack alloc m (some x) = .ok (if alloc.calloc then 0 else -1, m') ∧
      Queues m' (if alloc.calloc then xs ++ [x] else xs) := by
  have hkey := h.key_eq
  obtain ⟨l, hl, rfl⟩ := h
  cases halloc : alloc.calloc with
  | false =>
      refine ⟨m, ?_, l, hl, rfl⟩
      rw [mapPushBack, halloc]
      rfl
  | true =>
      have hpush := hl.pushBack alloc x
      have hindex : mapIndex alloc.malloc (m.calloc ⟨m.tail, none, x⟩).2 m.next =
          .ok (.ok, (m.calloc ⟨m.tail, none, x⟩).2) := by
        have hkey' : (m.calloc ⟨m.tail, none, x⟩).2.key = [] := hkey
        rw [mapIndex, hkey']
        show Except.ok (Keyed.ok, { (m.calloc _).2 with key := [] }) = _
        rw [← hkey']
      have heq : ∃ m', mapPushBack alloc m (some x) = .ok (0, m') := by
        rw [mapPushBack, halloc, if_pos rfl]
        show ∃ m', (mapIndex alloc.malloc (m.calloc _).2 m.next >>= _) = _
        rw [hindex]
        exact ⟨_, rfl⟩
      obtain ⟨m', heq⟩ := heq
      obtain ⟨hitems, ⟨-, hx, hinv⟩ | ⟨hret, -⟩⟩ := hpush.ok heq
      · refine ⟨m', heq, _, hinv, ?_⟩
        rw [if_pos rfl, List.map_append, List.map_singleton, hx]
        exact congrArg (· ++ [x]) (List.map_congr_left hitems)
      · exact absurd hret (by simp)

/-- **`map_pop`**: the first item is gone. -/
theorem pop {x : α} (h : Queues m (x :: xs)) :
    ∃ m', mapPop m = .ok (some x, m') ∧ Queues m' xs := by
  have hkey := h.key_eq
  obtain ⟨l, hl, hxs⟩ := h
  obtain ⟨a, l, rfl, hx, rfl⟩ := List.map_eq_cons_iff.mp hxs
  have hroot : m.root = some a := hl.listed.root_eq
  have heq : ∃ res, mapPop m = Except.ok res := by
    rw [mapPop, hroot, mapRemove]
    show ∃ res, (removeKeys (m.unlink a).heap a 0 (m.unlink a).key >>= _) = _
    rw [(Map.heap_unlink (hl.up_ne (a := a) (by simp))).1.key_eq, hkey]
    exact ⟨_, rfl⟩
  obtain ⟨res, heq⟩ := heq
  rw [mapPop, hroot] at heq
  obtain ⟨h1, hinv, hitems⟩ := (show MapInv [] m ([] ++ a :: l) from hl).remove.ok heq
  refine ⟨res.2, ?_, l, hinv, List.map_congr_left fun b _ => hitems b⟩
  rw [mapPop, hroot, heq, ← hx, ← h1]

end Queues

end SipEcho
