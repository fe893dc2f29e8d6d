import SipEcho.Map.Map

/-!
The indexes of a container: what `map_key` and `map_remove` do to the trees.

* `MapIndex.Indexes`: a tree holds exactly the nodes of a list, in the order of its comparator;
  `MapIndex.Indexes.order_eq`: there is one such order;
* `MapIndex.Indexes.tall`: a tree of more than 100 levels takes `2 ^ 49` nodes;
* `MapIndex.tsearch2_spec`, `MapIndex.tdelete2_spec`: search, insertion and deletion in an index;
* `mapKey_spec`, `removeKeys_spec`: the same for all indexes, one after another; `Keyed.Exact` says
  when a new node goes in.
-/

namespace SipEcho

open Lib

variable {α : Type} {heap heap' : ℕ → MapNode α} {i node : ℕ} {l l' : List ℕ}

/-- Index number `i` holds exactly the nodes `l`, in the order of its comparator. -/
structure MapIndex.Indexes (k : MapIndex α) (heap : ℕ → MapNode α) (i : ℕ) (l : List ℕ) :
    Prop where
  lawful : Comparator fun x y => k.cmp x y i
  balanced : ∃ c n, RB c n k.root
  keys : k.root.inorder.Perm l
  sorted : k.root.inorder.Pairwise fun a b => k.like heap i a b < 0

/-- All indexes from number `i` on hold the nodes `l`. -/
def Indexed (heap : ℕ → MapNode α) (l : List ℕ) : ℕ → List (MapIndex α) → Prop
  | _, [] => True
  | i, k :: keys => k.Indexes heap i l ∧ Indexed heap l (i + 1) keys

/-- A statement about every index, first and rest. -/
lemma forall_index_cons {P : ℕ → MapIndex α → Prop} {k : MapIndex α} {keys : List (MapIndex α)} :
    (∀ (j : ℕ) (k' : MapIndex α), (k :: keys)[j]? = some k' → P (i + j) k') ↔
      P i k ∧ ∀ (j : ℕ) (k' : MapIndex α), keys[j]? = some k' → P (i + 1 + j) k' := by
  constructor
  · intro h
    refine ⟨h 0 k rfl, fun j k' hj => ?_⟩
    have := h (j + 1) k' (by simpa using hj)
    rwa [show i + (j + 1) = i + 1 + j by omega] at this
  · rintro ⟨h1, h2⟩ j k' hj
    cases j with
    | zero =>
        obtain rfl : k = k' := by simpa using hj
        exact h1
    | succ j =>
        have := h2 j k' (by simpa using hj)
        rwa [show i + 1 + j = i + (j + 1) by omega] at this

lemma indexed_iff {keys : List (MapIndex α)} : Indexed heap l i keys ↔
    ∀ (j : ℕ) (k : MapIndex α), keys[j]? = some k → k.Indexes heap (i + j) l := by
  induction keys generalizing i with
  | nil => simp [Indexed]
  | cons k keys ih => rw [Indexed, ih, forall_index_cons (P := fun j k => k.Indexes heap j l)]

namespace MapIndex

variable {k : MapIndex α}

namespace Indexes

/-- A search for any item finds its way. -/
lemma cut (h : k.Indexes heap i l) (x : α) :
    Cut (fun a => k.cmp x (heap a).item i) k.root.inorder :=
  h.lawful.cut (f := fun a => (heap a).item) h.sorted x

/-- Different nodes do not compare equal. -/
lemma ne (h : k.Indexes heap i l) {a b : ℕ} (ha : a ∈ l) (hb : b ∈ l) (hab : a ≠ b) :
    k.like heap i a b ≠ 0 := by
  let R (a b : ℕ) : Prop := k.like heap i a b ≠ 0 ∧ k.like heap i b a ≠ 0
  have : Std.Symm R := ⟨fun _ _ h => ⟨h.2, h.1⟩⟩
  have hpair : k.root.inorder.Pairwise R := h.sorted.imp fun hlt => h.lawful.ne_of_lt hlt
  exact (hpair.forall (h.keys.mem_iff.mpr ha) (h.keys.mem_iff.mpr hb) hab).1

lemma perm (h : k.Indexes heap i l) (hl : l.Perm l') : k.Indexes heap i l' :=
  ⟨h.lawful, h.balanced, h.keys.trans hl, h.sorted⟩

/-- Only the order of the items of the list matters. -/
lemma congr (h : k.Indexes heap i l)
    (hlt : ∀ a ∈ l, ∀ b ∈ l, k.like heap i a b < 0 → k.like heap' i a b < 0) :
    k.Indexes heap' i l :=
  ⟨h.lawful, h.balanced, h.keys, h.sorted.imp_of_mem fun ha hb hab =>
    hlt _ (h.keys.mem_iff.mp ha) _ (h.keys.mem_iff.mp hb) hab⟩

/-- The order of the nodes in an index is that of its comparator. -/
lemma order_eq {k' : MapIndex α} (h : k.Indexes heap i l) (h' : k'.Indexes heap i l)
    (hcmp : k'.cmp = k.cmp) : k'.root.inorder = k.root.inorder := by
  have hsorted : k'.root.inorder.Pairwise fun a b => k.like heap i a b < 0 := by
    have := h'.sorted
    simpa only [MapIndex.like, hcmp] using this
  refine (h'.keys.trans h.keys.symm).eq_of_pairwise (fun a b _ _ hab hba => ?_) hsorted h.sorted
  have := (h.lawful.swap _ _).mpr hba
  simp only [MapIndex.like] at hab
  omega

/-- A tree of more than 100 levels takes `2 ^ 49` nodes. -/
lemma tall (h : k.Indexes heap i l) (htall : stacksize < k.root.height) :
    2 ^ 50 ≤ l.length + 1 := by
  obtain ⟨c, n, hrb⟩ := h.balanced
  have h1 := hrb.height_le
  have h2 := hrb.two_pow_le
  rw [← RBTree.length_inorder, h.keys.length_eq] at h2
  have h3 : 50 ≤ n := by
    rw [stacksize] at htall
    split at h1 <;> omega
  exact (Nat.pow_le_pow_right (by omega) h3).trans h2

/-- A node put between those below it and those above it. -/
lemma insert (h : k.Indexes heap i l) {root : RBTree ℕ} {l₁ l₂ : List ℕ}
    (hroot : ∃ c n, RB c n root) (hold : k.root.inorder = l₁ ++ l₂)
    (hnew : root.inorder = l₁ ++ node :: l₂) (h₁ : ∀ a ∈ l₁, 0 < k.like heap i node a)
    (h₂ : ∀ b ∈ l₂, k.like heap i node b < 0) :
    ({ k with root := root } : MapIndex α).Indexes heap i (node :: l) where
  lawful := h.lawful
  balanced := hroot
  keys := by
    show root.inorder.Perm (node :: l)
    rw [hnew]
    exact List.perm_middle.trans ((hold ▸ h.keys).cons node)
  sorted := by
    show root.inorder.Pairwise fun a b => k.like heap i a b < 0
    have hsorted := h.sorted
    rw [hold, List.pairwise_append] at hsorted
    rw [hnew, List.pairwise_append, List.pairwise_cons]
    refine ⟨hsorted.1, ⟨h₂, hsorted.2.1⟩, fun a ha b hb => ?_⟩
    rcases List.mem_cons.mp hb with rfl | hb
    · exact (h.lawful.swap _ _).mp (h₁ a ha)
    · exact hsorted.2.2 a ha b hb

/-- The key that compares equal to a node is the node. -/
lemma remove (h : k.Indexes heap i (node :: l)) {root : RBTree ℕ} (hroot : ∃ c n, RB c n root)
    (hdel : Deletes (k.like heap i node) k.root.inorder root.inorder) :
    ({ k with root := root } : MapIndex α).Indexes heap i l := by
  have hmem : node ∈ k.root.inorder := h.keys.mem_iff.mpr List.mem_cons_self
  rcases hdel with ⟨-, hne⟩ | ⟨l₁, a, l₂, hold, ha, hnew⟩
  · exact absurd (h.lawful.refl _) (hne node hmem)
  · obtain rfl : node = a := by
      by_contra hna
      exact h.ne (by simp) (h.keys.mem_iff.mp (by simp [hold])) hna ha
    refine ⟨h.lawful, hroot, ?_, ?_⟩
    · show root.inorder.Perm l
      have hperm := h.keys
      rw [hold] at hperm
      rw [hnew]
      exact (List.perm_middle.symm.trans hperm).cons_inv
    · show root.inorder.Pairwise fun a b => k.like heap i a b < 0
      rw [hnew]
      exact h.sorted.sublist (by simp [hold])

end Indexes

/-- **Deletion of a node** from an index. -/
lemma tdelete2_spec (h : k.Indexes heap i (node :: l)) :
    Meets (2 ^ 49 ≤ l.length)
      (fun root => ({ k with root := root } : MapIndex α).Indexes heap i l)
      (tdelete2 (k.like heap i node) k.root) := by
  obtain ⟨c, n, hrb⟩ := h.balanced
  refine ((SipEcho.tdelete2_spec hrb (h.cut _)).mono fun root hroot => ?_).excuse_mono fun ht => ?_
  · exact h.remove hroot.1 hroot.2
  · have := h.tall ht
    rw [List.length_cons] at this
    omega

/-- What the search for a new node makes of an index. -/
def Searches (k : MapIndex α) (heap : ℕ → MapNode α) (i : ℕ) (l : List ℕ) (node : ℕ)
    (malloc : Bool) (root : RBTree ℕ) : Found ℕ → Prop
  | .found leaf => leaf ∈ l ∧ k.like heap i node leaf = 0 ∧
      ({ k with root := root } : MapIndex α).Indexes heap i l
  | .inserted => (∀ a ∈ l, k.like heap i node a ≠ 0) ∧
      ({ k with root := root } : MapIndex α).Indexes heap i (node :: l)
  | .failed => malloc = false ∧ ({ k with root := root } : MapIndex α).Indexes heap i l

/-- **Search and insertion** in an index. -/
lemma tsearch2_spec (h : k.Indexes heap i l) (node : ℕ) (malloc : Bool) :
    ∃ found root, tsearch2 malloc (k.like heap i node) node k.root = some (found, root) ∧
      k.Searches heap i l node malloc root found := by
  obtain ⟨c, n, hrb⟩ := h.balanced
  have hspec : Searched (k.like heap i node) malloc node _ _ :=
    SipEcho.tsearch2_spec hrb (h.cut (heap node).item)
  obtain ⟨found, root, heq, hroot, hsought⟩ := hspec
  have same (hin : root.inorder = k.root.inorder) :
      ({ k with root := root } : MapIndex α).Indexes heap i l :=
    ⟨h.lawful, hroot, by show root.inorder.Perm l; rw [hin]; exact h.keys,
      by show root.inorder.Pairwise _; rw [hin]; exact h.sorted⟩
  refine ⟨found, root, heq, ?_⟩
  cases found with
  | found leaf =>
      obtain ⟨hin, hmem, heq⟩ := hsought
      exact ⟨h.keys.mem_iff.mp hmem, heq, same hin⟩
  | inserted =>
      obtain ⟨-, l₁, l₂, hold, hnew, h₁, h₂⟩ := hsought
      refine ⟨fun a ha => ?_, h.insert hroot hold hnew h₁ h₂⟩
      have hmem := h.keys.mem_iff.mpr ha
      rw [hold, List.mem_append] at hmem
      rcases hmem with hmem | hmem
      · exact (h₁ a hmem).ne'
      · exact (h₂ a hmem).ne
  | failed => exact ⟨hsought.1, same hsought.2.1⟩

/-- A new node goes in exactly when there is memory and no node is equal, and a node that is equal
is found. -/
lemma tsearch2_exact (h : k.Indexes heap i l) {node : ℕ} {malloc : Bool} {found : Found ℕ}
    {root : RBTree ℕ}
    (heq : tsearch2 malloc (k.like heap i node) node k.root = some (found, root)) :
    (found = .inserted ↔ malloc = true ∧ ∀ a ∈ l, k.like heap i node a ≠ 0) ∧
      ((∃ a ∈ l, k.like heap i node a = 0) → ∃ leaf, found = .found leaf) := by
  obtain ⟨c, n, hrb⟩ := h.balanced
  have hspec : Searched (k.like heap i node) malloc node _ _ :=
    SipEcho.tsearch2_spec hrb (h.cut (heap node).item)
  obtain ⟨found', root', heq', -, hsought⟩ := hspec
  obtain ⟨rfl, rfl⟩ := Prod.mk.inj (Option.some.inj (heq.symm.trans heq'))
  have hmem (a : ℕ) : a ∈ k.root.inorder ↔ a ∈ l := h.keys.mem_iff
  cases found with
  | found leaf =>
      obtain ⟨-, hleaf, hzero⟩ := hsought
      refine ⟨iff_of_false (by simp) fun h => ?_, fun _ => ⟨leaf, rfl⟩⟩
      exact h.2 leaf ((hmem leaf).mp hleaf) hzero
  | inserted =>
      obtain ⟨halloc, l₁, l₂, hold, -, h₁, h₂⟩ := hsought
      have hne : ∀ a ∈ l, k.like heap i node a ≠ 0 := by
        intro a ha
        have ha := (hmem a).mpr ha
        rw [hold, List.mem_append] at ha
        rcases ha with ha | ha
        · exact (h₁ a ha).ne'
        · exact (h₂ a ha).ne
      exact ⟨iff_of_true rfl ⟨halloc, hne⟩, fun ⟨a, ha, hzero⟩ => absurd hzero (hne a ha)⟩
  | failed =>
      obtain ⟨halloc, -, hne⟩ := hsought
      refine ⟨iff_of_false (by simp) fun h => ?_, fun ⟨a, ha, hzero⟩ => ?_⟩
      · rw [halloc] at h
        exact absurd h.1 (by simp)
      · exact absurd hzero (hne a ((hmem a).mpr ha))

end MapIndex

/-- The nodes of every index in their order. -/
def orders (keys : List (MapIndex α)) : List (List ℕ) := keys.map fun k => k.root.inorder

lemma Indexed.orders_eq {keys keys' : List (MapIndex α)} (h : Indexed heap l i keys)
    (h' : Indexed heap l i keys') (hcmp : keys'.map MapIndex.cmp = keys.map MapIndex.cmp) :
    orders keys' = orders keys := by
  induction keys generalizing i keys' with
  | nil => rw [List.map_eq_nil_iff.mp hcmp]
  | cons k keys ih =>
      obtain ⟨k', keys', rfl, hk, hkeys⟩ := List.map_eq_cons_iff.mp hcmp
      rw [orders, orders, List.map_cons, List.map_cons, h.1.order_eq h'.1 hk]
      exact congrArg _ (ih h.2 h'.2 hkeys)

/-- **`map_remove` on the indexes.** -/
lemma removeKeys_spec {keys : List (MapIndex α)} (h : Indexed heap (node :: l) i keys) :
    Meets (2 ^ 49 ≤ l.length)
      (fun keys' => keys'.map MapIndex.cmp = keys.map MapIndex.cmp ∧ Indexed heap l i keys')
      (removeKeys heap node i keys) := by
  induction keys generalizing i with
  | nil => exact ⟨rfl, trivial⟩
  | cons k keys ih =>
      refine (MapIndex.tdelete2_spec h.1).bind fun root hroot => ?_
      refine (ih h.2).bind fun keys' hkeys => ?_
      exact ⟨by simp [hkeys.1], hroot, hkeys.2⟩

/-- What `map_key` leaves of the indexes, by its result. -/
def Keyed.Leaves (heap : ℕ → MapNode α) (l : List ℕ) (node i : ℕ) (keys keys' : List (MapIndex α)) :
    Keyed → Prop
  | .ok => Indexed heap (node :: l) i keys'
  | .failure => Indexed heap l i keys'
  | .found leaf => Indexed heap l i keys' ∧ leaf ∈ l ∧
      ∃ k, keys.head? = some k ∧ k.like heap i node leaf = 0

/-- The indexes from number `i` on have memory for a new node, and no node that is equal. -/
def Admits (malloc : ℕ → Bool) (heap : ℕ → MapNode α) (l : List ℕ) (node i : ℕ)
    (keys : List (MapIndex α)) : Prop :=
  ∀ (j : ℕ) (k : MapIndex α), keys[j]? = some k →
    malloc (i + j) = true ∧ ∀ a ∈ l, k.like heap (i + j) node a ≠ 0

/-- When `map_key` returns 0, and when a node. -/
def Keyed.Exact (malloc : ℕ → Bool) (heap : ℕ → MapNode α) (l : List ℕ) (node i : ℕ)
    (keys : List (MapIndex α)) (keyed : Keyed) : Prop :=
  (keyed = .ok ↔ Admits malloc heap l node i keys) ∧
    ∀ k, keys.head? = some k → (∃ a ∈ l, k.like heap i node a = 0) → ∃ leaf, keyed = .found leaf

/-- **`map_key`**: the node is in every index or in none. -/
lemma mapKey_spec {malloc : ℕ → Bool} {keys : List (MapIndex α)} (hnode : node ∉ l)
    (h : Indexed heap l i keys) :
    Meets (2 ^ 49 ≤ l.length)
      (fun res => res.2.map MapIndex.cmp = keys.map MapIndex.cmp ∧
        res.1.Leaves heap l node i keys res.2 ∧ res.1.Exact malloc heap l node i keys)
      (mapKey malloc heap node i keys) := by
  induction keys generalizing i with
  | nil => exact ⟨rfl, trivial, iff_of_true rfl (by simp [Admits]), by simp⟩
  | cons k keys ih =>
      obtain ⟨found, root, heq, hsearch⟩ := k.tsearch2_spec h.1 node (malloc i)
      obtain ⟨hinserted, hfound⟩ := MapIndex.tsearch2_exact h.1 heq
      have hadmits : Admits malloc heap l node i (k :: keys) ↔
          found = .inserted ∧ Admits malloc heap l node (i + 1) keys := by
        rw [hinserted]
        exact forall_index_cons
          (P := fun j k => malloc j = true ∧ ∀ a ∈ l, k.like heap j node a ≠ 0)
      have hhead {keyed : Keyed} (hkeyed : ∀ leaf, found = .found leaf → keyed = .found leaf) :
          ∀ k', (k :: keys).head? = some k' → (∃ a ∈ l, k'.like heap i node a = 0) →
            ∃ leaf, keyed = .found leaf := by
        rintro k' hk' hzero
        obtain rfl : k = k' := by simpa using hk'
        obtain ⟨leaf, hleaf⟩ := hfound hzero
        exact ⟨leaf, hkeyed leaf hleaf⟩
      rw [mapKey, heq]
      dsimp only
      cases found with
      | failed =>
          exact ⟨rfl, ⟨hsearch.2, h.2⟩, iff_of_false (by simp) fun h => by simp [hadmits] at h,
            hhead (by simp)⟩
      | found leaf =>
          obtain ⟨hmem, hlike, hroot⟩ := hsearch
          have hne : leaf ≠ node := fun h => hnode (h ▸ hmem)
          show Meets _ _ (if leaf ≠ node then _ else _)
          rw [if_pos hne]
          exact ⟨rfl, ⟨⟨hroot, h.2⟩, hmem, k, rfl, hlike⟩,
            iff_of_false (by simp) fun h => by simp [hadmits] at h, hhead (by simp)⟩
      | inserted =>
          show Meets _ _ (if node ≠ node then _ else _)
          rw [if_neg (by simp)]
          refine (ih h.2).bind ?_
          rintro ⟨keyed, keys'⟩ ⟨hcmp, hleaves, hexact, -⟩
          dsimp only at hcmp hleaves hexact ⊢
          have hback (hrest : Indexed heap l (i + 1) keys') (hne : keyed ≠ .ok) :
              Meets (2 ^ 49 ≤ l.length)
                (fun res => res.2.map MapIndex.cmp = (k :: keys).map MapIndex.cmp ∧
                  res.1.Leaves heap l node i (k :: keys) res.2 ∧
                  res.1.Exact malloc heap l node i (k :: keys))
                (if keyed = .ok then
                  (return (.ok, { k with root := root } :: keys') :
                    Except Fault (Keyed × List (MapIndex α)))
                else do
                  let root ← tdelete2 (k.like heap i node) root
                  return (.failure, { k with root := root } :: keys')) := by
            rw [if_neg hne]
            refine (MapIndex.tdelete2_spec hsearch.2).bind fun root' hroot' => ?_
            refine ⟨by simp [hcmp], ⟨hroot', hrest⟩, iff_of_false (by simp) fun h => ?_,
              hhead (by simp)⟩
            exact hne (hexact.mpr (hadmits.mp h).2)
          cases keyed with
          | ok =>
              rw [if_pos rfl]
              exact ⟨by simp [hcmp], ⟨hsearch.2, hleaves⟩,
                iff_of_true rfl (hadmits.mpr ⟨rfl, hexact.mp rfl⟩), hhead (by simp)⟩
          | failure => exact hback hleaves (by simp)
          | found leaf => exact hback hleaves.1 (by simp)

end SipEcho
