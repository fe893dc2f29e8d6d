import SipEcho.Map.PushFind

/-!
`map_add_key`: one more index for a container with items in it.

The nodes of the list go into a new tree one after another.  When one of them does not, the tree
is to be given back by `tdestroy2`; the call for it has the address of the field `root` of the
index for the address of a tree, and no release function.

* `mapAddKey`, `tdestroyRecurse`, `tdestroy2`: the functions;
* `addKeyLoop_spec`: the loop takes every node exactly when there is memory for each and no two
  items are equal;
* `add_key_iff`: the call does all or nothing exactly when it does not come to the destroyer.
-/

namespace SipEcho

open Lib

variable {α : Type}

/-! ### The model -/

/-- What an address points to: a tree, or the field `root` of an index, which is no node of one. -/
inductive Pointee (α : Type) where
  | tree (t : RBTree ℕ)
  | field (k : MapIndex α)

/-- `tdestroy_recurse`, on the tree below an address that is not null: the keys given to `freefct`,
in their order; `freefct` is whether there is such a function. -/
def tdestroyRecurse (freefct : Bool) : RBTree ℕ → Except Fault (List ℕ)
  | .nil => return []
  | .node _ l k r => do
      let left ← tdestroyRecurse freefct l
      let right ← tdestroyRecurse freefct r
      if freefct then return left ++ right ++ [k] else throw .crash

/-- `tdestroy2`.  It takes what is at the address for a node: in a field `root` the left link would
be the comparator. -/
def tdestroy2 (proot : Pointee α) (free_fn : Bool) : Except Fault (List ℕ) :=
  match proot with
  | .tree t => tdestroyRecurse free_fn t
  | .field _ => throw .crash

/-- The loop of `map_add_key`, from `node` on: whether every node went into the index `k` with the
number `index`, and that index. -/
def addKeyLoop (malloc : ℕ → Bool) (m : Map α) (index : ℕ) :
    ℕ → Option ℕ → MapIndex α → Except Fault (Bool × MapIndex α)
  | _, none, k => return (true, k)
  | 0, some _, _ => throw .fuel
  | fuel + 1, some node, k => do
      let (keyed, keys) ← mapKey (fun _ => malloc node) m.heap node index [k]
      let k := keys.headD k
      if keyed = .ok then addKeyLoop malloc m index fuel (m.heap node).down k
      else return (false, k)

/-- `map_add_key`; `realloc` and `malloc` are which allocations succeed, that of the indexes and
that of the tree node for each node of the list. -/
def mapAddKey (realloc : Bool) (malloc : ℕ → Bool) (m : Map α) (cmp : Option (α → α → ℕ → ℤ)) :
    Except Fault (ℤ × Map α) :=
  match cmp with
  | none => return (-1, m)
  | some cmp =>
      if realloc then do
        let (done, k) ← addKeyLoop malloc m m.key.length m.size.toNat m.root ⟨.nil, cmp⟩
        if done then return (0, { m with key := m.key ++ [k] })
        else do
          let _ ← tdestroy2 (.field k) false
          return (-1, m)
      else return (-1, m)

/-! ### The loop -/

variable {cmps : List (α → α → ℕ → ℤ)} {m : Map α} {l l₁ l₂ : List ℕ} {heap : ℕ → MapNode α}
  {i node : ℕ} {k : MapIndex α}

/-- A new node in the last of the indexes. -/
lemma mapKey_last (h : k.Indexes heap i l) (hnode : node ∉ l) (malloc : ℕ → Bool) :
    ∃ keyed k', mapKey malloc heap node i [k] = .ok (keyed, [k']) ∧ k'.cmp = k.cmp ∧
      (keyed = .ok ↔ malloc i = true ∧ ∀ a ∈ l, k.like heap i node a ≠ 0) ∧
      (keyed = .ok → k'.Indexes heap i (node :: l)) := by
  obtain ⟨found, root, heq, hsearch⟩ := k.tsearch2_spec h node (malloc i)
  obtain ⟨hinserted, -⟩ := MapIndex.tsearch2_exact h heq
  rw [mapKey, heq]
  cases found with
  | failed =>
      exact ⟨.failure, { k with root := root }, rfl, rfl, by rw [← hinserted]; simp, by simp⟩
  | found leaf =>
      have hne : leaf ≠ node := fun h => hnode (h ▸ hsearch.1)
      exact ⟨.found leaf, { k with root := root }, if_pos hne, rfl, by rw [← hinserted]; simp,
        by simp⟩
  | inserted =>
      refine ⟨.ok, { k with root := root }, ?_, rfl, by rw [← hinserted]; simp, fun _ => hsearch.2⟩
      show (if node ≠ node then _ else _) = _
      rw [if_neg (by simp)]
      rfl

/-- No two of the nodes are equal. -/
abbrev Unequal (k : MapIndex α) (heap : ℕ → MapNode α) (i : ℕ) (l : List ℕ) : Prop :=
  l.Pairwise fun a b => k.like heap i a b ≠ 0

/-- **The loop**, with the nodes `l₁` behind it and `l₂` before it. -/
lemma addKeyLoop_spec (malloc : ℕ → Bool) {fuel : ℕ} {node : Option ℕ}
    (hlist : m.Listed (l₁ ++ l₂)) (hk : k.Indexes m.heap i l₁) (hnode : node = l₂.head?)
    (hfuel : l₂.length ≤ fuel) :
    ∃ done k', addKeyLoop malloc m i fuel node k = .ok (done, k') ∧ k'.cmp = k.cmp ∧
      (done = true ↔ (∀ a ∈ l₂, malloc a = true) ∧ Unequal k m.heap i (l₁ ++ l₂)) ∧
      (done = true → k'.Indexes m.heap i (l₁ ++ l₂)) := by
  induction l₂ generalizing l₁ fuel node k with
  | nil =>
      subst hnode
      have hpair : Unequal k m.heap i (l₁ ++ []) := by
        rw [List.append_nil] at hlist ⊢
        exact hlist.nodup.imp_of_mem fun ha hb hab => hk.ne ha hb hab
      refine ⟨true, k, ?_, rfl, iff_of_true rfl ⟨by simp, hpair⟩, fun _ => ?_⟩
      · cases fuel <;> rfl
      · rwa [List.append_nil]
  | cons a l₂ ih =>
      subst hnode
      obtain ⟨fuel, rfl⟩ : ∃ n, fuel = n + 1 := ⟨fuel - 1, by simp at hfuel; omega⟩
      have hnot : a ∉ l₁ := by
        have hnodup := hlist.nodup
        rw [List.nodup_middle, List.nodup_cons] at hnodup
        exact fun hmem => hnodup.1 (List.mem_append_left _ hmem)
      obtain ⟨keyed, k', heq, hcmp, hok, hindexes⟩ := mapKey_last hk hnot fun _ => malloc a
      rw [List.head?_cons, addKeyLoop, heq]
      show ∃ done k'', (if keyed = .ok then _ else _) = _ ∧ _
      split
      · next hkeyed =>
        have hnext : l₁ ++ a :: l₂ = (l₁ ++ [a]) ++ l₂ := by simp
        obtain ⟨hmalloc, -⟩ := hok.mp hkeyed
        have hstep := ih (hnext ▸ hlist)
          ((hindexes hkeyed).perm (List.perm_append_singleton a l₁).symm)
          (hlist.down_eq l₁ a l₂ rfl) (by simpa using hfuel)
        obtain ⟨done, k'', heq', hcmp', hdone, hleft⟩ := hstep
        refine ⟨done, k'', heq', hcmp'.trans hcmp, hdone.trans ?_, fun h => hnext ▸ hleft h⟩
        rw [← hnext]
        simp only [Unequal, MapIndex.like, hcmp, List.mem_cons, forall_eq_or_imp, hmalloc, true_and]
      · next hkeyed =>
        refine ⟨false, k', rfl, hcmp, iff_of_false (by simp) ?_, by simp⟩
        rintro ⟨hmalloc, hpair⟩
        refine hkeyed (hok.mpr ⟨hmalloc a (by simp), fun b hb hzero => ?_⟩)
        rw [Unequal, List.pairwise_append] at hpair
        exact hpair.2.2 b hb a (by simp) (hk.lawful.eq_symm hzero)

/-! ### All or nothing -/

/-- There is memory for the tree node of every item, and no two stored items are equal. -/
def Addable (malloc : ℕ → Bool) (m : Map α) (l : List ℕ) (cmp : α → α → ℕ → ℤ) : Prop :=
  (∀ a ∈ l, malloc a = true) ∧
    l.Pairwise fun a b => cmp (m.heap a).item (m.heap b).item m.key.length ≠ 0

/-- **What `map_add_key` promises**: it returns, with 0 and one more index that has exactly the
nodes of the list in their order; or, when memory is missing or two items are equal, with -1 and
the map as it was. -/
def AllOrNothing (cmps : List (α → α → ℕ → ℤ)) (realloc : Bool) (malloc : ℕ → Bool) (m : Map α)
    (l : List ℕ) (cmp : α → α → ℕ → ℤ) (res : Except Fault (ℤ × Map α)) : Prop :=
  (realloc = true ∧ Addable malloc m l cmp ∧ ∃ k, k.cmp = cmp ∧
      res = .ok (0, { m with key := m.key ++ [k] }) ∧
      MapInv (cmps ++ [cmp]) { m with key := m.key ++ [k] } l) ∨
    (¬ (realloc = true ∧ Addable malloc m l cmp) ∧ res = .ok (-1, m))

/-- One more index. -/
lemma MapInv.addIndex (h : MapInv cmps m l) {k : MapIndex α}
    (hk : k.Indexes m.heap m.key.length l) :
    MapInv (cmps ++ [k.cmp]) { m with key := m.key ++ [k] } l where
  cmps_eq := by
    show (m.key ++ [k]).map MapIndex.cmp = _
    rw [List.map_append, h.cmps_eq]
    rfl
  listed := h.listed
  size_eq := h.size_eq
  fresh := h.fresh
  indexed := by
    refine indexed_iff.mpr fun j k' hj => ?_
    have hj : (m.key ++ [k])[j]? = some k' := hj
    rcases Nat.lt_or_ge j m.key.length with hlt | hge
    · rw [List.getElem?_append_left hlt] at hj
      exact indexed_iff.mp h.indexed j k' hj
    · rw [List.getElem?_append_right hge] at hj
      obtain ⟨hlt, rfl⟩ := List.getElem?_eq_some_iff.mp hj
      obtain rfl : j = m.key.length := by
        simp only [List.length_singleton] at hlt
        omega
      simpa using hk

/-- **`map_add_key` is all or nothing** exactly when the call does not come to the destroyer: the
array of indexes cannot grow, or every node goes into the new index. -/
theorem add_key_iff (h : MapInv cmps m l) (realloc : Bool) (malloc : ℕ → Bool)
    {cmp : α → α → ℕ → ℤ} (hcmp : TotalPreorder fun x y => cmp x y m.key.length) :
    AllOrNothing cmps realloc malloc m l cmp (mapAddKey realloc malloc m (some cmp)) ↔
      realloc = false ∨ Addable malloc m l cmp := by
  rw [mapAddKey]
  cases realloc with
  | false => exact iff_of_true (Or.inr ⟨by simp, rfl⟩) (Or.inl rfl)
  | true =>
      have hnew : (⟨.nil, cmp⟩ : MapIndex α).Indexes m.heap m.key.length [] :=
        ⟨hcmp.comparator, ⟨false, 0, .nil⟩, by simp [RBTree.inorder], by simp [RBTree.inorder]⟩
      have hfuel : l.length ≤ m.size.toNat := by
        rw [h.size_eq]
        simp
      obtain ⟨done, k, heq, hkcmp, hdone, hindexes⟩ :=
        addKeyLoop_spec malloc (show m.Listed ([] ++ l) from h.listed) hnew h.listed.root_eq hfuel
      dsimp only at hkcmp
      subst hkcmp
      rw [if_pos rfl, heq]
      show AllOrNothing cmps true malloc m l k.cmp (if done = true then _ else _) ↔ _
      split
      · next hd =>
        refine iff_of_true (Or.inl ⟨rfl, hdone.mp hd, k, rfl, rfl, ?_⟩) (Or.inr (hdone.mp hd))
        exact h.addIndex (hindexes hd)
      · next hd =>
        have hno : ¬ Addable malloc m l k.cmp := fun hadd => hd (hdone.mpr hadd)
        refine iff_of_false ?_ (by simp [hno])
        rintro (⟨-, hadd, -⟩ | ⟨-, hcrash⟩)
        · exact hno hadd
        · -- the field is taken for a node
          exact absurd hcrash (by simp [tdestroy2, throw, throwThe, MonadExceptOf.throw, bind,
            Except.bind])

/-- By the sum of the components. -/
def cmpSum (x y : ℕ × ℕ) (_ : ℕ) : ℤ := (x.1 + x.2 : ℕ) - (y.1 + y.2 : ℕ)

lemma cmpSum_preorder (i : ℕ) : TotalPreorder fun x y => cmpSum x y i :=
  ⟨fun x y => by simp only [cmpSum]; omega, fun x y z => by simp only [cmpSum]; omega⟩

/-- A third index for a map of three items, by their sums. -/
theorem add_key_sums :
    AllOrNothing [cmpFst, cmpSnd] true (fun _ => true) threePairs [2, 1, 0] cmpSum
      (mapAddKey true (fun _ => true) threePairs (some cmpSum)) :=
  (add_key_iff threePairs_inv true (fun _ => true) (cmpSum_preorder threePairs.key.length)).mpr
    (Or.inr ⟨by simp, by decide +kernel⟩)

/-- Two items with the same second component. -/
def equalSeconds : List (MapOp (ℕ × ℕ)) :=
  [.push allAlloc (some (1, 5)), .push allAlloc (some (2, 5))]

/-- **A collision ends in the destroyer**: two items of a map are equal under the new comparator,
and the call does not return. -/
theorem collision_crashes : ¬ ∀ (cmps : List (ℕ × ℕ → ℕ × ℕ → ℕ → ℤ)) (m : Map (ℕ × ℕ))
    (l : List ℕ) (cmp : ℕ × ℕ → ℕ × ℕ → ℕ → ℤ), MapInv cmps m l →
    (TotalPreorder fun x y => cmp x y m.key.length) →
    AllOrNothing cmps true (fun _ => true) m l cmp
      (mapAddKey true (fun _ => true) m (some cmp)) := by
  intro hall
  have hpre (i : ℕ) (c : ℕ × ℕ → ℕ × ℕ → ℕ → ℤ) (hc : [cmpFst][i]? = some c) :
      TotalPreorder fun x y => c x y i := by
    obtain ⟨hi, rfl⟩ := List.getElem?_eq_some_iff.mp hc
    obtain rfl : i = 0 := by simpa using hi
    exact cmpFst_preorder 0
  have hnew : MapInv [cmpFst] (mapNew zeroHeap 0 [cmpFst]) [] :=
    MapInv.new _ _ fun i c hc => (hpre i c hc).comparator
  have hops : ∀ op ∈ equalSeconds, op.Copies [cmpFst] := by
    simp [equalSeconds, MapOp.Copies]
  obtain ⟨m, hm, l, hinv⟩ := (hnew.run hpre hops).returns (by decide)
  have hcrash : mapRun (mapNew zeroHeap 0 [cmpFst]) equalSeconds >>= (fun m =>
      mapAddKey true (fun _ => true) m (some cmpSnd)) = .error .crash := rfl
  rw [hm] at hcrash
  have hcrash : mapAddKey true (fun _ => true) m (some cmpSnd) = .error .crash := hcrash
  have h := hall [cmpFst] m l cmpSnd hinv (cmpSnd_preorder _)
  rw [hcrash] at h
  rcases h with ⟨-, -, k, -, h, -⟩ | ⟨-, h⟩
  · exact absurd h (by simp)
  · exact absurd h (by simp)

end SipEcho
