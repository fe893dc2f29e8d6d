import SipEcho.Map.Run

/-!
What an insertion does when it succeeds, and what it leaves when it fails.

* `Intact m l m'`: the list, its items, the size and the nodes of every index in their order are
  as they were;
* `Insertable`: there is memory for the node and its tree nodes, and no stored item is equal under
  any index; `MapInv.mapIndex_exact`: exactly then `map_index` returns 0;
* `push_fails_intact`: `map_push` and `map_push_back` return 0 exactly then, and otherwise they
  return -1 and leave the map intact, whichever index reported the collision.
-/

namespace SipEcho

open Lib

variable {α : Type} {cmps : List (α → α → ℕ → ℤ)} {m m' : Map α} {l : List ℕ}

/-- The list `l` of the map, its items, the size, and the nodes of every index in their order are
as they were. -/
structure Intact (m : Map α) (l : List ℕ) (m' : Map α) : Prop where
  root_eq : m'.root = m.root
  tail_eq : m'.tail = m.tail
  nodes : ∀ a ∈ l, m'.heap a = m.heap a
  size_eq : m'.size = m.size
  cmps_eq : m'.key.map MapIndex.cmp = m.key.map MapIndex.cmp
  orders_eq : orders m'.key = orders m.key

/-- Every allocation succeeds, and no stored item equals `x` under any index. -/
def Insertable (cmps : List (α → α → ℕ → ℤ)) (alloc : Alloc) (m : Map α) (l : List ℕ) (x : α) :
    Prop :=
  alloc.calloc = true ∧ (∀ i < cmps.length, alloc.malloc i = true) ∧
    ∀ (i : ℕ) (c : α → α → ℕ → ℤ), cmps[i]? = some c → ∀ a ∈ l, c x (m.heap a).item i ≠ 0

lemma Intact.refl (m : Map α) (l : List ℕ) : Intact m l m :=
  ⟨rfl, rfl, fun _ _ => rfl, rfl, rfl, rfl⟩

namespace MapInv

/-- The indexes, with the new node in memory. -/
lemma indexed_calloc (h : MapInv cmps m l) (y : MapNode α) :
    Indexed (m.calloc y).2.heap l 0 m.key := by
  refine h.indexed.congr (.refl l) fun a ha => ?_
  show (Function.update m.heap m.next y a).item = _
  rw [Function.update_of_ne]
  rintro rfl
  exact h.next_notMem ha

lemma like_calloc (h : MapInv cmps m l) (y : MapNode α) (k : MapIndex α) (i : ℕ) {a : ℕ}
    (ha : a ∈ l) :
    k.like (m.calloc y).2.heap i m.next a = k.cmp y.item (m.heap a).item i := by
  show k.cmp (Function.update m.heap m.next y m.next).item
    (Function.update m.heap m.next y a).item i = _
  rw [Function.update_self, Function.update_of_ne]
  rintro rfl
  exact h.next_notMem ha

/-- **`map_index` returns 0** exactly when the new node goes into every index; otherwise it leaves
the order of every index; and it returns a node that is equal under the first. -/
lemma mapIndex_exact (h : MapInv cmps m l) (malloc : ℕ → Bool) (y : MapNode α) :
    Meets (2 ^ 49 ≤ l.length)
      (fun res => (res.1 = .ok ↔ (∀ i < cmps.length, malloc i = true) ∧
          ∀ (i : ℕ) (c : α → α → ℕ → ℤ), cmps[i]? = some c →
            ∀ a ∈ l, c y.item (m.heap a).item i ≠ 0) ∧
        (res.1 ≠ .ok → orders res.2.key = orders m.key) ∧
        ∀ c, cmps.head? = some c → (∃ a ∈ l, c y.item (m.heap a).item 0 = 0) →
          ∃ leaf, res.1 = .found leaf)
      (SipEcho.mapIndex malloc (m.calloc y).2 (m.calloc y).1) := by
  have hindexed := h.indexed_calloc y
  refine (mapKey_spec h.next_notMem hindexed).bind ?_
  rintro ⟨keyed, key⟩ ⟨hcmps, hleaves, hok, hhead⟩
  dsimp only at hcmps hleaves hok hhead
  refine ⟨hok.trans ⟨fun hall => ⟨fun i hi => ?_, fun i c hc a ha => ?_⟩, fun hall j k hk => ?_⟩,
    fun hne => ?_, fun c hc hzero => ?_⟩
  · obtain ⟨k, hk, -⟩ := h.index (List.getElem?_eq_getElem hi)
    have := (hall i k hk).1
    rwa [Nat.zero_add] at this
  · obtain ⟨k, hk, rfl, -⟩ := h.index hc
    have := (hall i k hk).2 a ha
    rwa [Nat.zero_add, h.like_calloc y k i ha] at this
  · have hc : cmps[j]? = some k.cmp := by
      rw [← h.cmps_eq, List.getElem?_map, hk]
      rfl
    obtain ⟨hj, -⟩ := List.getElem?_eq_some_iff.mp hc
    rw [Nat.zero_add]
    refine ⟨hall.1 j hj, fun a ha => ?_⟩
    rw [h.like_calloc y k j ha]
    exact hall.2 j _ hc a ha
  · refine hindexed.orders_eq ?_ hcmps
    cases keyed with
    | ok => exact absurd rfl hne
    | failure => exact hleaves
    | found leaf => exact hleaves.1
  · rw [← h.cmps_eq, List.head?_map, Option.map_eq_some_iff] at hc
    obtain ⟨k, hk, rfl⟩ := hc
    obtain ⟨a, ha, hzero⟩ := hzero
    exact hhead k hk ⟨a, ha, (h.like_calloc y k 0 ha).trans hzero⟩

end MapInv

/-- A node that did not go in leaves the map as it was. -/
lemma Indexing.intact {y : MapNode α} {keyed : Keyed} (hi : Indexing cmps m l y keyed m')
    (h : MapInv cmps m l) (horders : orders m'.key = orders m.key) : Intact m l m' where
  root_eq := hi.root_eq
  tail_eq := hi.tail_eq
  nodes := fun _ ha => hi.heap_of_mem h ha
  size_eq := hi.size_eq
  cmps_eq := hi.cmps_eq.trans h.cmps_eq.symm
  orders_eq := horders

/-! ### `map_push` and `map_push_back` -/

/-- What a push returns, and what it leaves when it fails. -/
structure PushesOrFails (cmps : List (α → α → ℕ → ℤ)) (alloc : Alloc) (m : Map α) (l : List ℕ)
    (item : Option α) (res : ℤ × Map α) : Prop where
  ret_eq : res.1 = 0 ↔ ∃ x, item = some x ∧ Insertable cmps alloc m l x
  fails : res.1 ≠ 0 → res.1 = -1 ∧ Intact m l res.2

namespace MapInv

/-- The part the two have in common: the node is indexed, and put into the list by `hook` if it
went into every index. -/
lemma index_exact (h : MapInv cmps m l) {alloc : Alloc} (halloc : alloc.calloc = true)
    (y : MapNode α) (hook : Map α → Map α) :
    Meets (2 ^ 49 ≤ l.length) (PushesOrFails cmps alloc m l (some y.item)) (do
      let (keyed, m) ← SipEcho.mapIndex alloc.malloc (m.calloc y).2 (m.calloc y).1
      if keyed = .ok then return (0, hook m) else return (-1, m)) := by
  refine ((h.mapIndex alloc.malloc y).and (h.mapIndex_exact alloc.malloc y)).bind ?_
  rintro ⟨keyed, m'⟩ ⟨hi, hok, horders, -⟩
  dsimp only at hi hok horders ⊢
  split
  · next hk =>
    exact ⟨iff_of_true rfl ⟨_, rfl, halloc, hok.mp hk⟩, fun hne => absurd rfl hne⟩
  · next hk =>
    refine ⟨iff_of_false (by simp) ?_, fun _ => ⟨rfl, hi.intact h (horders hk)⟩⟩
    rintro ⟨x, hx, -, hins⟩
    obtain rfl := Option.some.inj hx
    exact hk (hok.mpr hins)

/-- Without memory for the node nothing happens. -/
lemma calloc_fails {alloc : Alloc} (halloc : ¬ alloc.calloc = true) (item : Option α) :
    PushesOrFails cmps alloc m l item (-1, m) := by
  refine ⟨iff_of_false (by simp) ?_, fun _ => ⟨rfl, .refl m l⟩⟩
  rintro ⟨x, -, hcalloc, -⟩
  exact halloc hcalloc

/-- `map_push`. -/
lemma push_exact (h : MapInv cmps m l) (alloc : Alloc) (item : Option α) :
    Meets (2 ^ 49 ≤ l.length) (PushesOrFails cmps alloc m l item) (mapPush alloc m item) := by
  cases item with
  | none => exact ⟨iff_of_false (by simp) (by simp), fun _ => ⟨rfl, .refl m l⟩⟩
  | some x =>
      rw [mapPush]
      split
      · next halloc =>
        exact h.index_exact halloc ⟨none, m.root, x⟩ fun m' =>
          { m'.hookFront m.next with root := some m.next, size := m'.size + 1 }
      · next halloc => exact calloc_fails halloc _

/-- `map_push_back`. -/
lemma pushBack_exact (h : MapInv cmps m l) (alloc : Alloc) (item : Option α) :
    Meets (2 ^ 49 ≤ l.length) (PushesOrFails cmps alloc m l item) (mapPushBack alloc m item) := by
  cases item with
  | none => exact ⟨iff_of_false (by simp) (by simp), fun _ => ⟨rfl, .refl m l⟩⟩
  | some x =>
      rw [mapPushBack]
      split
      · next halloc =>
        exact h.index_exact halloc ⟨m.tail, none, x⟩ fun m' =>
          { m'.hookBack m.next with tail := some m.next, size := m'.size + 1 }
      · next halloc => exact calloc_fails halloc _

end MapInv

/-- **A failed insertion leaves the map intact**: both calls return 0 exactly when the item is not
null, the allocations succeed and no stored item is equal under any index. -/
theorem push_fails_intact (h : MapInv cmps m l) (alloc : Alloc) (item : Option α) :
    Meets (2 ^ 49 ≤ l.length) (PushesOrFails cmps alloc m l item) (mapPush alloc m item) ∧
      Meets (2 ^ 49 ≤ l.length) (PushesOrFails cmps alloc m l item) (mapPushBack alloc m item) :=
  ⟨h.push_exact alloc item, h.pushBack_exact alloc item⟩

/-- An item that is equal to a stored one under the second index alone: both calls return -1. -/
theorem push_fails_intact_collision :
    (∃ m, mapPush allAlloc threePairs (some (4, 5)) = .ok (-1, m) ∧
        Intact threePairs [2, 1, 0] m) ∧
      ∃ m, mapPushBack allAlloc threePairs (some (4, 5)) = .ok (-1, m) ∧
        Intact threePairs [2, 1, 0] m := by
  have hcollides : ¬ ∃ x, some (4, 5) = some x ∧
      Insertable [cmpFst, cmpSnd] allAlloc threePairs [2, 1, 0] x := by
    rintro ⟨x, hx, -, -, hne⟩
    obtain rfl := Option.some.inj hx
    exact hne 1 cmpSnd rfl 1 (by simp) (by decide +kernel)
  obtain ⟨hpush, hback⟩ := push_fails_intact threePairs_inv allAlloc (some (4, 5))
  obtain ⟨⟨ret, m⟩, hok, hres⟩ := hpush.returns (by simp)
  obtain ⟨⟨ret', m'⟩, hok', hres'⟩ := hback.returns (by simp)
  obtain ⟨hret, hintact⟩ := hres.fails (mt hres.ret_eq.mp hcollides)
  obtain ⟨hret', hintact'⟩ := hres'.fails (mt hres'.ret_eq.mp hcollides)
  dsimp only at hret hret'
  subst hret hret'
  exact ⟨⟨m, hok, hintact⟩, m', hok', hintact'⟩

end SipEcho
