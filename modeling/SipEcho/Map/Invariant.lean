import SipEcho.Lib.Chain
import SipEcho.Map.Index

/-!
The representation invariant of a container, and that every call keeps it.

* `MapInv cmps m l`: the list of `m` is the chain `l`, and every index holds the nodes `l` in the
  order of its comparator;
* `Map.heap_unlink`, `Map.heap_hookFront`: what the assignments to links do, field by field;
* `MapInv.remove`, `MapInv.push`, `MapInv.pushBack`, `MapInv.pushFind`, …: one lemma for each call;
* `MapInv.search`, `MapInv.find`: a search finds a stored item that compares equal if there is one.
-/

namespace SipEcho

open Lib

variable {α : Type}

/-! ### Links -/

namespace Map

variable {m : Map α} {a b : ℕ}

@[simp] lemma setUp_up (x : Option ℕ) :
    ((m.setUp a x).heap b).up = if b = a then x else (m.heap b).up := by
  simp only [setUp, Function.update_apply]
  split <;> rfl

@[simp] lemma setUp_down (x : Option ℕ) : ((m.setUp a x).heap b).down = (m.heap b).down := by
  simp only [setUp, Function.update_apply]
  split
  · next h => rw [h]
  · rfl

@[simp] lemma setUp_item (x : Option ℕ) : ((m.setUp a x).heap b).item = (m.heap b).item := by
  simp only [setUp, Function.update_apply]
  split
  · next h => rw [h]
  · rfl

@[simp] lemma setDown_up (x : Option ℕ) : ((m.setDown a x).heap b).up = (m.heap b).up := by
  simp only [setDown, Function.update_apply]
  split
  · next h => rw [h]
  · rfl

@[simp] lemma setDown_down (x : Option ℕ) :
    ((m.setDown a x).heap b).down = if b = a then x else (m.heap b).down := by
  simp only [setDown, Function.update_apply]
  split <;> rfl

@[simp] lemma setDown_item (x : Option ℕ) : ((m.setDown a x).heap b).item = (m.heap b).item := by
  simp only [setDown, Function.update_apply]
  split
  · next h => rw [h]
  · rfl

@[simp] lemma setItem_up (x : α) : ((m.setItem a x).heap b).up = (m.heap b).up := by
  simp only [setItem, Function.update_apply]
  split
  · next h => rw [h]
  · rfl

@[simp] lemma setItem_down (x : α) : ((m.setItem a x).heap b).down = (m.heap b).down := by
  simp only [setItem, Function.update_apply]
  split
  · next h => rw [h]
  · rfl

@[simp] lemma setItem_item (x : α) :
    ((m.setItem a x).heap b).item = if b = a then x else (m.heap b).item := by
  simp only [setItem, Function.update_apply]
  split <;> rfl

/-- Two maps with the same items and indexes: they differ in links and addresses at most. -/
structure SameIndexes (m m' : Map α) : Prop where
  next_eq : m'.next = m.next
  key_eq : m'.key = m.key
  size_eq : m'.size = m.size
  item_eq : ∀ b, (m'.heap b).item = (m.heap b).item

/-- **A node taken out**, when it is not its own neighbour. -/
lemma heap_unlink (hup : (m.heap a).up ≠ some a) :
    m.SameIndexes (m.unlink a) ∧
    (∀ b, ((m.unlink a).heap b).up =
      if (m.heap a).down = some b then (m.heap a).up else (m.heap b).up) ∧
    (∀ b, ((m.unlink a).heap b).down =
      if (m.heap a).up = some b then (m.heap a).down else (m.heap b).down) ∧
    (m.unlink a).root = (if (m.heap a).up = none then (m.heap a).down else m.root) ∧
    (m.unlink a).tail = (if (m.heap a).down = none then (m.heap a).up else m.tail) := by
  rw [unlink]
  rcases hu : (m.heap a).up with _ | u
  · rcases hd : (m.heap a).down with _ | d
    · exact ⟨⟨rfl, rfl, rfl, fun b => rfl⟩, by simp, by simp, by simp, by simp [hu]⟩
    · exact ⟨⟨rfl, rfl, rfl, fun b => by simp⟩, fun b => by simp [hu, eq_comm], fun b => by simp,
        by simp [setUp], by simp [setUp]⟩
  · have hua : a ≠ u := fun h => hup (by rw [hu, h])
    rcases hd : (m.heap a).down with _ | d
    · exact ⟨⟨by simp [hua, hd, setDown], by simp [hua, hd, setDown], by simp [hua, hd, setDown],
        fun b => by simp [hua, hd]⟩, fun b => by simp [hua, hd],
        fun b => by simp [hua, hd, eq_comm], by simp [hua, hd, setDown], by simp [hua, hd, hu]⟩
    · exact ⟨⟨by simp [hua, hd, setDown, setUp], by simp [hua, hd, setDown, setUp],
        by simp [hua, hd, setDown, setUp], fun b => by simp [hua, hd]⟩,
        fun b => by simp [hua, hd, hu, eq_comm], fun b => by simp [hua, hd, eq_comm],
        by simp [hua, hd, setDown, setUp], by simp [hua, hd, setDown, setUp]⟩

/-- **A node hooked in front.** -/
lemma heap_hookFront :
    m.SameIndexes (m.hookFront a) ∧
    (∀ b, ((m.hookFront a).heap b).up = if m.root = some b then some a else (m.heap b).up) ∧
    (∀ b, ((m.hookFront a).heap b).down = (m.heap b).down) ∧
    (m.hookFront a).root = m.root ∧
    (m.hookFront a).tail = (if m.root = none then some a else m.tail) := by
  rw [hookFront]
  rcases hr : m.root with _ | r
  · exact ⟨⟨rfl, rfl, rfl, fun b => rfl⟩, by simp, by simp, rfl, by simp⟩
  · exact ⟨⟨rfl, rfl, rfl, fun b => by simp⟩, fun b => by simp [eq_comm], by simp, hr,
      by simp [setUp]⟩

/-- **A node hooked behind.** -/
lemma heap_hookBack :
    m.SameIndexes (m.hookBack a) ∧
    (∀ b, ((m.hookBack a).heap b).up = (m.heap b).up) ∧
    (∀ b, ((m.hookBack a).heap b).down = if m.tail = some b then some a else (m.heap b).down) ∧
    (m.hookBack a).root = (if m.tail = none then some a else m.root) ∧
    (m.hookBack a).tail = m.tail := by
  rw [hookBack]
  rcases ht : m.tail with _ | t
  · exact ⟨⟨rfl, rfl, rfl, fun b => rfl⟩, by simp, by simp, by simp, rfl⟩
  · exact ⟨⟨rfl, rfl, rfl, fun b => by simp⟩, by simp, fun b => by simp [eq_comm],
      by simp [setDown], ht⟩

end Map

/-! ### The invariant -/

/-- The links of a map make the list `l`. -/
abbrev Map.Listed (m : Map α) (l : List ℕ) : Prop :=
  Chain (fun a => (m.heap a).up) (fun a => (m.heap a).down) m.root m.tail l

namespace Map

variable {m : Map α} {a : ℕ} {l₁ l₂ : List ℕ}

/-- No node is its own neighbour. -/
lemma Listed.up_ne (h : m.Listed (l₁ ++ a :: l₂)) : (m.heap a).up ≠ some a := by
  have hnodup := h.nodup
  rw [h.up_eq l₁ a l₂ rfl]
  intro hlast
  rw [List.nodup_append] at hnodup
  exact hnodup.2.2 a (List.mem_of_getLast? hlast) a (by simp) rfl

/-- The shift to the front changes links alone. -/
lemma Listed.same_shift (h : m.Listed (l₁ ++ a :: l₂)) : m.SameIndexes (m.shift a) := by
  obtain ⟨hsame, -⟩ := heap_unlink h.up_ne
  obtain ⟨hsame', -⟩ := heap_hookFront (m := m.unlink a) (a := a)
  refine ⟨?_, ?_, ?_, fun b => ?_⟩
  · show ((m.unlink a).hookFront a).next = _
    rw [hsame'.next_eq, hsame.next_eq]
  · show ((m.unlink a).hookFront a).key = _
    rw [hsame'.key_eq, hsame.key_eq]
  · show ((m.unlink a).hookFront a).size = _
    rw [hsame'.size_eq, hsame.size_eq]
  · show (((((m.unlink a).hookFront a).setDown a _).setUp a none).heap b).item = _
    rw [setUp_item, setDown_item, hsame'.item_eq, hsame.item_eq]

/-- **The shift to the front**, wherever the node stands. -/
lemma Listed.shift (h : m.Listed (l₁ ++ a :: l₂)) : (m.shift a).Listed (a :: (l₁ ++ l₂)) := by
  obtain ⟨-, hups, hdowns, hroot, htail⟩ := heap_unlink h.up_ne
  obtain ⟨-, hups', hdowns', hroot', htail'⟩ := heap_hookFront (m := m.unlink a) (a := a)
  have hlisted : (m.unlink a).Listed (l₁ ++ l₂) := by
    rw [Listed, hroot, htail]
    exact Chain.unlink h (fun b _ => hups b) (fun b _ => hdowns b)
  have hnot : a ∉ l₁ ++ l₂ := by
    have hnodup := h.nodup
    rw [List.nodup_middle, List.nodup_cons] at hnodup
    exact hnodup.1
  show Chain (fun b => (((((m.unlink a).hookFront a).setDown a _).setUp a none).heap b).up)
    (fun b => (((((m.unlink a).hookFront a).setDown a _).setUp a none).heap b).down)
    (some a) ((m.unlink a).hookFront a).tail _
  rw [htail']
  refine hlisted.pushFront hnot ?_ ?_ (fun b hb => ?_) (fun b hb => ?_)
  · simp
  · simp [hroot']
  · have hba : b ≠ a := fun h => hnot (h ▸ hb)
    simp [hba, hups']
  · have hba : b ≠ a := fun h => hnot (h ▸ hb)
    simp [hba, hdowns']

end Map

/-- **The representation invariant**: the nodes of the map are those of the list `l`, and every
index holds them in the order of its comparator. -/
structure MapInv (cmps : List (α → α → ℕ → ℤ)) (m : Map α) (l : List ℕ) : Prop where
  cmps_eq : m.key.map MapIndex.cmp = cmps
  listed : m.Listed l
  size_eq : m.size = l.length
  fresh : ∀ a ∈ l, a < m.next
  indexed : Indexed m.heap l 0 m.key

variable {cmps : List (α → α → ℕ → ℤ)} {m m' : Map α} {l l' l₁ l₂ : List ℕ} {a node : ℕ}

lemma Indexed.congr {heap heap' : ℕ → MapNode α} {i : ℕ} {keys : List (MapIndex α)}
    (h : Indexed heap l i keys) (hl : l.Perm l') (hitem : ∀ a ∈ l, (heap' a).item = (heap a).item) :
    Indexed heap' l' i keys := by
  rw [indexed_iff] at h ⊢
  intro j k hj
  refine ((h j k hj).congr fun a ha b hb hlt => ?_).perm hl
  rwa [MapIndex.like, hitem a ha, hitem b hb]

/-- A node gets an item that stands in the same order to everything. -/
lemma Indexed.setItem {i : ℕ} {keys : List (MapIndex α)} {y : α} (h : Indexed m.heap l i keys)
    (hy : ∀ (j : ℕ) (k : MapIndex α), keys[j]? = some k →
      Alike (fun x y => k.cmp x y (i + j)) y (m.heap a).item) :
    Indexed (m.setItem a y).heap l i keys := by
  rw [indexed_iff] at h ⊢
  intro j k hj
  have halike (b : ℕ) : Alike (fun x y => k.cmp x y (i + j)) ((m.setItem a y).heap b).item
      (m.heap b).item := by
    rw [Map.setItem_item]
    split
    · next h => rw [h]; exact hy j k hj
    · exact .refl _ _
  exact (h j k hj).congr fun b _ b' _ hlt =>
    ((halike b _).1.trans (halike b' _).2).mpr hlt

namespace MapInv

/-- A new map. -/
lemma new (heap : ℕ → MapNode α) (next : ℕ)
    (hcmps : ∀ (i : ℕ) (c : α → α → ℕ → ℤ), cmps[i]? = some c → Comparator fun x y => c x y i) :
    MapInv cmps (mapNew heap next cmps) [] where
  cmps_eq := by simp [mapNew, Function.comp_def]
  listed := Chain.nil
  size_eq := rfl
  fresh := by simp
  indexed := by
    rw [indexed_iff]
    intro j k hj
    simp only [mapNew, List.getElem?_map, Option.map_eq_some_iff] at hj
    obtain ⟨c, hc, rfl⟩ := hj
    rw [Nat.zero_add]
    exact ⟨hcmps j c hc, ⟨false, 0, .nil⟩, by simp [RBTree.inorder], by simp [RBTree.inorder]⟩

/-- The index of a comparator. -/
lemma index (h : MapInv cmps m l) {i : ℕ} {c : α → α → ℕ → ℤ} (hc : cmps[i]? = some c) :
    ∃ k, m.key[i]? = some k ∧ k.cmp = c ∧ k.Indexes m.heap i l := by
  rw [← h.cmps_eq, List.getElem?_map, Option.map_eq_some_iff] at hc
  obtain ⟨k, hk, hkc⟩ := hc
  have := indexed_iff.mp h.indexed i k hk
  rw [Nat.zero_add] at this
  exact ⟨k, hk, hkc, this⟩

lemma length_cmps (h : MapInv cmps m l) : m.key.length = cmps.length := by
  rw [← h.cmps_eq, List.length_map]

/-- **No two stored items are equal under any index.** -/
lemma distinct (h : MapInv cmps m l) {i : ℕ} {c : α → α → ℕ → ℤ} (hc : cmps[i]? = some c)
    {a b : ℕ} (ha : a ∈ l) (hb : b ∈ l) (hab : a ≠ b) :
    c (m.heap a).item (m.heap b).item i ≠ 0 := by
  obtain ⟨k, -, rfl, hk⟩ := h.index hc
  exact hk.ne ha hb hab

lemma up_ne (h : MapInv cmps m l) (ha : a ∈ l) : (m.heap a).up ≠ some a := by
  obtain ⟨l₁, l₂, rfl⟩ := List.append_of_mem ha
  exact h.listed.up_ne

/-! ### Removal -/

/-- **`map_remove`**: the node is gone, and the other nodes keep their items. -/
lemma remove (h : MapInv cmps m (l₁ ++ a :: l₂)) :
    Meets (2 ^ 49 ≤ (l₁ ++ a :: l₂).length)
      (fun res => res.1 = some (m.heap a).item ∧ MapInv cmps res.2 (l₁ ++ l₂) ∧
        ∀ b, (res.2.heap b).item = (m.heap b).item)
      (mapRemove m (some a)) := by
  obtain ⟨hsame, hups, hdowns, hroot, htail⟩ := Map.heap_unlink (h.up_ne (a := a) (by simp))
  have hindexed : Indexed (m.unlink a).heap (a :: (l₁ ++ l₂)) 0 (m.unlink a).key := by
    rw [hsame.key_eq]
    exact h.indexed.congr List.perm_middle fun b _ => hsame.item_eq b
  refine ((removeKeys_spec hindexed).excuse_mono fun hbig => ?_).bind fun key hkey => ?_
  · simp only [List.length_append, List.length_cons] at hbig ⊢
    omega
  · refine ⟨congrArg some (hsame.item_eq a), ⟨?_, ?_, ?_, ?_, hkey.2⟩, hsame.item_eq⟩
    · show key.map MapIndex.cmp = cmps
      rw [hkey.1, hsame.key_eq, h.cmps_eq]
    · show Chain (fun b => ((m.unlink a).heap b).up) (fun b => ((m.unlink a).heap b).down)
        (m.unlink a).root (m.unlink a).tail (l₁ ++ l₂)
      rw [hroot, htail]
      exact h.listed.unlink (fun b _ => hups b) (fun b _ => hdowns b)
    · show (m.unlink a).size - 1 = _
      rw [hsame.size_eq, h.size_eq]
      simp only [List.length_append, List.length_cons]
      omega
    · show ∀ b ∈ l₁ ++ l₂, b < (m.unlink a).next
      rw [hsame.next_eq]
      exact fun b hb => h.fresh b (by
        rw [List.mem_append] at hb
        rcases hb with hb | hb <;> simp [hb])

lemma remove_mem (h : MapInv cmps m l) (ha : a ∈ l) :
    Meets (2 ^ 49 ≤ l.length)
      (fun res => res.1 = some (m.heap a).item ∧
        (∃ l', MapInv cmps res.2 l' ∧ l'.length + 1 = l.length ∧ ∀ b, b ∈ l ↔ b = a ∨ b ∈ l') ∧
        ∀ b, (res.2.heap b).item = (m.heap b).item)
      (mapRemove m (some a)) := by
  obtain ⟨l₁, l₂, rfl⟩ := List.append_of_mem ha
  refine h.remove.mono fun res hres => ⟨hres.1, ⟨l₁ ++ l₂, hres.2.1, ?_, fun b => ?_⟩, hres.2.2⟩
  · simp only [List.length_append, List.length_cons]
    omega
  · simp only [List.mem_append, List.mem_cons]
    tauto

/-! ### Insertion -/

end MapInv

/-- What `map_index` leaves of a map with the nodes `l`, and of a node with the content `x` that
`calloc` has just given. -/
structure Indexing (cmps : List (α → α → ℕ → ℤ)) (m : Map α) (l : List ℕ) (x : MapNode α)
    (keyed : Keyed) (m' : Map α) : Prop where
  heap_eq : m'.heap = Function.update m.heap m.next x
  next_eq : m'.next = m.next + 1
  root_eq : m'.root = m.root
  tail_eq : m'.tail = m.tail
  size_eq : m'.size = m.size
  cmps_eq : m'.key.map MapIndex.cmp = cmps
  leaves : keyed.Leaves m'.heap l m.next 0 m.key m'.key

namespace MapInv

lemma next_notMem (h : MapInv cmps m l) : m.next ∉ l :=
  fun hmem => lt_irrefl _ (h.fresh _ hmem)

/-- **`map_index`** of a new node. -/
lemma mapIndex (h : MapInv cmps m l) (malloc : ℕ → Bool) (x : MapNode α) :
    Meets (2 ^ 49 ≤ l.length) (fun res => Indexing cmps m l x res.1 res.2)
      (SipEcho.mapIndex malloc (m.calloc x).2 (m.calloc x).1) := by
  have hindexed : Indexed (m.calloc x).2.heap l 0 (m.calloc x).2.key := by
    refine h.indexed.congr (.refl l) fun b hb => ?_
    show (Function.update m.heap m.next x b).item = _
    rw [Function.update_of_ne]
    rintro rfl
    exact h.next_notMem hb
  refine (mapKey_spec h.next_notMem hindexed).bind fun res hres => ?_
  exact ⟨rfl, rfl, rfl, rfl, rfl, hres.1.trans h.cmps_eq, hres.2.1⟩

end MapInv

namespace Indexing

variable {x : MapNode α} {keyed : Keyed}

lemma heap_of_mem (hi : Indexing cmps m l x keyed m') (h : MapInv cmps m l) (ha : a ∈ l) :
    m'.heap a = m.heap a := by
  rw [hi.heap_eq, Function.update_of_ne]
  rintro rfl
  exact h.next_notMem ha

lemma heap_next (hi : Indexing cmps m l x keyed m') : m'.heap m.next = x := by
  rw [hi.heap_eq, Function.update_self]

/-- The list is as it was. -/
lemma listed (hi : Indexing cmps m l x keyed m') (h : MapInv cmps m l) : m'.Listed l := by
  have hl := h.listed
  refine ⟨hl.nodup, hi.root_eq.trans hl.root_eq, hi.tail_eq.trans hl.tail_eq,
    fun l₁ b l₂ hb => ?_, fun l₁ b l₂ hb => ?_⟩
  · rw [hi.heap_of_mem h (by simp [hb])]
    exact hl.up_eq l₁ b l₂ hb
  · rw [hi.heap_of_mem h (by simp [hb])]
    exact hl.down_eq l₁ b l₂ hb

/-- A node that is not in the indexes is not in the map. -/
lemma inv (hi : Indexing cmps m l x keyed m') (h : MapInv cmps m l) (hne : keyed ≠ .ok) :
    MapInv cmps m' l where
  cmps_eq := hi.cmps_eq
  listed := hi.listed h
  size_eq := hi.size_eq.trans h.size_eq
  fresh := by
    intro b hb
    rw [hi.next_eq]
    exact Nat.lt_succ_of_lt (h.fresh b hb)
  indexed := by
    have := hi.leaves
    cases keyed with
    | ok => exact absurd rfl hne
    | failure => exact this
    | found leaf => exact this.1

/-- **A node that is in the indexes** is put in front, with an item that compares as the one it
was indexed by. -/
lemma front (hi : Indexing cmps m l ⟨none, m.root, x.item⟩ .ok m') (h : MapInv cmps m l)
    {m'' : Map α} (hkey : m''.key = m'.key) (hindexed : Indexed m''.heap (m.next :: l) 0 m'.key)
    (hup : ∀ b, (m''.heap b).up = ((m'.hookFront m.next).heap b).up)
    (hdown : ∀ b, (m''.heap b).down = (m'.heap b).down)
    (hroot : m''.root = some m.next) (htail : m''.tail = (m'.hookFront m.next).tail)
    (hsize : m''.size = m'.size + 1) (hnext : m''.next = m'.next) :
    MapInv cmps m'' (m.next :: l) where
  cmps_eq := by rw [hkey, hi.cmps_eq]
  listed := by
    obtain ⟨-, hups, -, -, htails⟩ := Map.heap_hookFront (m := m') (a := m.next)
    have hnot := h.next_notMem
    have hrootne : m'.root ≠ some m.next := by
      rw [hi.root_eq, h.listed.root_eq]
      exact Chain.head?_ne hnot
    show Chain _ _ m''.root m''.tail _
    rw [hroot, htail, htails]
    refine (hi.listed h).pushFront hnot ?_ ?_ (fun b hb => ?_) (fun b hb => ?_)
    · rw [hup, hups, if_neg hrootne, hi.heap_next]
    · rw [hdown, hi.heap_next, hi.root_eq]
    · rw [hup, hups]
    · rw [hdown]
  size_eq := by
    rw [hsize, hi.size_eq, h.size_eq]
    simp
  fresh := by
    intro b hb
    rw [hnext, hi.next_eq]
    rcases List.mem_cons.mp hb with rfl | hb
    · omega
    · exact Nat.lt_succ_of_lt (h.fresh b hb)
  indexed := by rw [hkey]; exact hindexed

end Indexing

/-- What an insertion leaves: the new node `node` in the list `added`, or the list as it was. -/
def Pushes (cmps : List (α → α → ℕ → ℤ)) (m : Map α) (l added : List ℕ) (node : ℕ) (item : α)
    (res : ℤ × Map α) : Prop :=
  (∀ a ∈ l, (res.2.heap a).item = (m.heap a).item) ∧
    (res.1 = 0 ∧ (res.2.heap node).item = item ∧ MapInv cmps res.2 added ∨
      res.1 = -1 ∧ MapInv cmps res.2 l)

namespace MapInv

/-- **`map_push`.** -/
lemma push (h : MapInv cmps m l) (alloc : Alloc) (item : α) :
    Meets (2 ^ 49 ≤ l.length) (Pushes cmps m l (m.next :: l) m.next item)
      (mapPush alloc m (some item)) := by
  rw [mapPush]
  split
  · refine (h.mapIndex alloc.malloc ⟨none, m.root, item⟩).bind ?_
    rintro ⟨keyed, m'⟩ hi
    dsimp only at hi ⊢
    by_cases hk : keyed = .ok
    · subst hk
      rw [if_pos rfl]
      obtain ⟨hsame, -, hdown, -, -⟩ := Map.heap_hookFront (m := m') (a := m.next)
      refine ⟨fun a ha => ?_, Or.inl ⟨rfl, ?_, ?_⟩⟩
      · show ((m'.hookFront m.next).heap a).item = _
        rw [hsame.item_eq, hi.heap_of_mem h ha]
      · show ((m'.hookFront m.next).heap m.next).item = _
        rw [hsame.item_eq, hi.heap_next]
      · refine hi.front (x := ⟨none, m.root, item⟩) h hsame.key_eq ?_ (fun b => rfl) hdown rfl rfl
          rfl hsame.next_eq
        exact hi.leaves.congr (.refl _) fun b _ => hsame.item_eq b
    · rw [if_neg hk]
      exact ⟨fun a ha => by rw [hi.heap_of_mem h ha], Or.inr ⟨rfl, hi.inv h hk⟩⟩
  · exact ⟨fun a ha => rfl, Or.inr ⟨rfl, h⟩⟩

/-- **`map_push_back`.** -/
lemma pushBack (h : MapInv cmps m l) (alloc : Alloc) (item : α) :
    Meets (2 ^ 49 ≤ l.length) (Pushes cmps m l (l ++ [m.next]) m.next item)
      (mapPushBack alloc m (some item)) := by
  rw [mapPushBack]
  split
  · refine (h.mapIndex alloc.malloc ⟨m.tail, none, item⟩).bind ?_
    rintro ⟨keyed, m'⟩ hi
    dsimp only at hi ⊢
    by_cases hk : keyed = .ok
    · subst hk
      rw [if_pos rfl]
      obtain ⟨hsame, hups, hdowns, hroots, -⟩ := Map.heap_hookBack (m := m') (a := m.next)
      have hnot := h.next_notMem
      refine ⟨fun a ha => ?_, Or.inl ⟨rfl, ?_, ?_, ?_, ?_, ?_, ?_⟩⟩
      · show ((m'.hookBack m.next).heap a).item = _
        rw [hsame.item_eq, hi.heap_of_mem h ha]
      · show ((m'.hookBack m.next).heap m.next).item = _
        rw [hsame.item_eq, hi.heap_next]
      · show (m'.hookBack m.next).key.map MapIndex.cmp = cmps
        rw [hsame.key_eq, hi.cmps_eq]
      · show Chain (fun b => ((m'.hookBack m.next).heap b).up)
          (fun b => ((m'.hookBack m.next).heap b).down) (m'.hookBack m.next).root (some m.next) _
        rw [hroots]
        have htailne : m'.tail ≠ some m.next := by
          rw [hi.tail_eq, h.listed.tail_eq]
          exact fun hlast => hnot (List.mem_of_getLast? hlast)
        refine (hi.listed h).pushBack hnot ?_ ?_ (fun b _ => hups b) (fun b _ => hdowns b)
        · rw [hups, hi.heap_next, hi.tail_eq]
        · rw [hdowns, if_neg htailne, hi.heap_next]
      · show m'.size + 1 = _
        rw [hi.size_eq, h.size_eq]
        simp
      · show ∀ b ∈ l ++ [m.next], b < (m'.hookBack m.next).next
        intro b hb
        rw [hsame.next_eq, hi.next_eq]
        rcases List.mem_append.mp hb with hb | hb
        · exact Nat.lt_succ_of_lt (h.fresh b hb)
        · rw [List.mem_singleton.mp hb]
          omega
      · show Indexed (m'.hookBack m.next).heap (l ++ [m.next]) 0 (m'.hookBack m.next).key
        rw [hsame.key_eq]
        exact hi.leaves.congr (List.perm_append_singleton _ _).symm fun b _ => hsame.item_eq b
    · rw [if_neg hk]
      exact ⟨fun a ha => by rw [hi.heap_of_mem h ha], Or.inr ⟨rfl, hi.inv h hk⟩⟩
  · exact ⟨fun a ha => rfl, Or.inr ⟨rfl, h⟩⟩

/-! ### Insertion or update -/

/-- A stored item is replaced by one that stands in the same order to everything. -/
lemma setItem (h : MapInv cmps m l) {y : α}
    (hy : ∀ (i : ℕ) (c : α → α → ℕ → ℤ), cmps[i]? = some c →
      Alike (fun x y => c x y i) y (m.heap a).item) :
    MapInv cmps (m.setItem a y) l where
  cmps_eq := h.cmps_eq
  listed := by
    show Chain (fun b => ((m.setItem a y).heap b).up) (fun b => ((m.setItem a y).heap b).down)
      m.root m.tail l
    simp only [Map.setItem_up, Map.setItem_down]
    exact h.listed
  size_eq := h.size_eq
  fresh := h.fresh
  indexed := h.indexed.setItem fun j k hj => hy _ _ (by
    rw [← h.cmps_eq, List.getElem?_map, Nat.zero_add, hj]
    rfl)

/-- **The shift to the front.** -/
lemma shift (h : MapInv cmps m (l₁ ++ a :: l₂)) : MapInv cmps (m.shift a) (a :: (l₁ ++ l₂)) := by
  have hsame := h.listed.same_shift
  refine ⟨?_, h.listed.shift, ?_, ?_, ?_⟩
  · rw [hsame.key_eq, h.cmps_eq]
  · rw [hsame.size_eq, h.size_eq]
    simp only [List.length_append, List.length_cons]
    omega
  · rw [hsame.next_eq]
    exact fun b hb => h.fresh b (List.perm_middle.mem_iff.mpr hb)
  · rw [hsame.key_eq]
    exact h.indexed.congr List.perm_middle fun b _ => hsame.item_eq b

end MapInv

/-- The copy function succeeds, and what it makes of a new item compares equal to the template. -/
def MapCpy.Copies (cmps : List (α → α → ℕ → ℤ)) (cpy : MapCpy α) : Prop :=
  ∀ x, ∃ y, cpy.fresh x = some y ∧
    ∀ (i : ℕ) (c : α → α → ℕ → ℤ), cmps[i]? = some c → c y x i = 0

/-- A stored item that equals the template under the first comparator stays, under every
comparator, equal to what it was when the template is copied over it. -/
def MapCpy.Settles (cmps : List (α → α → ℕ → ℤ)) (cpy : MapCpy α) : Prop :=
  ∀ x y, (∀ c, cmps.head? = some c → c x y 0 = 0) →
    ∀ (i : ℕ) (c : α → α → ℕ → ℤ), cmps[i]? = some c → c (cpy.stored y x) y i = 0

namespace MapInv

/-- The update of a stored node. -/
lemma update (h : MapInv cmps m l)
    (hpre : ∀ (i : ℕ) (c : α → α → ℕ → ℤ), cmps[i]? = some c → TotalPreorder fun x y => c x y i)
    {item : α} {cpy : Option (MapCpy α)} {flag : ℕ}
    (hhead : ∀ c, cmps.head? = some c → c item (m.heap a).item 0 = 0)
    (hcpy : flag &&& mapFlagUpdate ≠ 0 → ∀ c, cpy = some c → c.Settles cmps) :
    MapInv cmps (mapUpdate m a item cpy flag) l := by
  unfold mapUpdate
  split
  · next hflag =>
    cases cpy with
    | none => exact h
    | some cpy =>
        exact h.setItem fun i c hc => (hpre i c hc).alike (hcpy hflag cpy rfl item _ hhead i c hc)
  · exact h

/-- The shift of a stored node. -/
lemma mapShift (h : MapInv cmps m l) (flag : ℕ) (ha : a ∈ l) :
    ∃ l', MapInv cmps (SipEcho.mapShift m a flag) l' ∧ l'.Perm l := by
  unfold SipEcho.mapShift
  split
  · obtain ⟨l₁, l₂, rfl⟩ := List.append_of_mem ha
    exact ⟨_, h.shift, List.perm_middle.symm⟩
  · exact ⟨l, h, .refl l⟩

/-- **`map_push_find`.** -/
lemma pushFind (h : MapInv cmps m l)
    (hpre : ∀ (i : ℕ) (c : α → α → ℕ → ℤ), cmps[i]? = some c → TotalPreorder fun x y => c x y i)
    (alloc : Alloc) (item : α) {cpy : Option (MapCpy α)} {flag : Option ℕ}
    (hcopies : ∀ c, cpy = some c → c.Copies cmps)
    (hsettles : ∀ f, flag = some f → f &&& mapFlagUpdate ≠ 0 →
      ∀ c, cpy = some c → c.Settles cmps) :
    Meets (2 ^ 49 ≤ l.length)
      (fun res => ∃ l', MapInv cmps res.2.2 l' ∧ (l'.Perm l ∨ l' = m.next :: l))
      (mapPushFind alloc m (some item) cpy flag) := by
  unfold mapPushFind
  dsimp only
  split
  · refine (h.mapIndex alloc.malloc ⟨none, m.root, item⟩).bind ?_
    rintro ⟨keyed, m'⟩ hi
    dsimp only at hi ⊢
    cases keyed with
    | failure => exact ⟨l, hi.inv h (by simp), Or.inl (.refl l)⟩
    | found leaf =>
        obtain ⟨-, hmem, k, hk, hlike⟩ := hi.leaves
        have hinv := hi.inv h (by simp)
        cases flag with
        | none => exact ⟨l, hinv, Or.inl (.refl l)⟩
        | some flag =>
            have hhead (c) (hc : cmps.head? = some c) : c item (m'.heap leaf).item 0 = 0 := by
              rw [← h.cmps_eq, List.head?_map, hk] at hc
              obtain rfl : k.cmp = c := by simpa using hc
              rw [MapIndex.like, hi.heap_next] at hlike
              exact hlike
            obtain ⟨l', h1, h2⟩ :=
              (hinv.update hpre hhead (hsettles flag rfl)).mapShift flag hmem
            exact ⟨l', h1, Or.inl h2⟩
    | ok =>
        -- the copy compares as the template the node was indexed by
        obtain ⟨copy, hcopy, heq⟩ : ∃ copy, mapCopy cpy item = some copy ∧
            ∀ (i : ℕ) (c : α → α → ℕ → ℤ), cmps[i]? = some c → c copy item i = 0 := by
          cases cpy with
          | none => exact ⟨item, rfl, fun i c hc => (hpre i c hc).comparator.refl item⟩
          | some cpy => exact hcopies cpy rfl item
        dsimp only
        rw [hcopy]
        refine ⟨m.next :: l, ?_, Or.inr rfl⟩
        obtain ⟨hsame, hups, hdowns, hroots, htails⟩ :=
          Map.heap_hookFront (m := m'.setItem m.next copy) (a := m.next)
        obtain ⟨-, hups', -, -, htails'⟩ := Map.heap_hookFront (m := m') (a := m.next)
        refine hi.front (x := ⟨none, m.root, item⟩) h hsame.key_eq ?_ (fun b => ?_) (fun b => ?_)
          rfl ?_ (congrArg (· + 1) hsame.size_eq) hsame.next_eq
        · have hset : Indexed (m'.setItem m.next copy).heap (m.next :: l) 0 m'.key := by
            refine Indexed.setItem hi.leaves fun j k hj => ?_
            have hc : cmps[0 + j]? = some k.cmp := by
              rw [← hi.cmps_eq, List.getElem?_map, Nat.zero_add, hj]
              rfl
            rw [hi.heap_next]
            exact (hpre _ _ hc).alike (heq _ _ hc)
          exact hset.congr (.refl _) fun b _ => hsame.item_eq b
        · show (((m'.setItem m.next copy).hookFront m.next).heap b).up = _
          rw [hups, hups', Map.setItem_up]
          rfl
        · show (((m'.setItem m.next copy).hookFront m.next).heap b).down = _
          rw [hdowns, Map.setItem_down]
        · show ((m'.setItem m.next copy).hookFront m.next).tail = _
          rw [htails, htails']
          rfl
  · exact ⟨l, h, Or.inl (.refl l)⟩

end MapInv

end SipEcho
