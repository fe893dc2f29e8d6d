import SipEcho.Map.Insertion

/-!
`map_push_find`: insertion, or update and shift of the item that is there.

* `FindCase`, `MapInv.pushFind_cases`: the ways a call can go, each with what it leaves;
* `Map.Listed.update`: the update and the shift of a stored node, by the bits of the flag word;
* `push_find_null_iff`: a call that returns null leaves no trace exactly when it was not the copy
  function that failed, on an item that had gone into an index;
* `FindContract`, `push_find_contract_iff`: a new item is put in front, a stored one is returned and
  as the flags say updated and shifted; exactly when this is kept.
-/

namespace SipEcho

open Lib

variable {α : Type} {cmps : List (α → α → ℕ → ℤ)} {m m' : Map α} {l : List ℕ} {a : ℕ} {x : α}
  {alloc : Alloc} {cpy : Option (MapCpy α)} {flag : ℕ}

/-! ### The ways of a call -/

/-- Some stored item equals `x` under the first index. -/
def EqualFirst (cmps : List (α → α → ℕ → ℤ)) (m : Map α) (l : List ℕ) (x : α) : Prop :=
  ∃ c, cmps.head? = some c ∧ ∃ a ∈ l, c x (m.heap a).item 0 = 0

/-- What a call makes of a stored node, by the flag word if there is one. -/
def mapRefresh (m : Map α) (find : ℕ) (x : α) (cpy : Option (MapCpy α)) (flag : Option ℕ) : Map α :=
  match flag with
  | some flag => mapShift (mapUpdate m find x cpy flag) find flag
  | none => m

/-- What a call makes of an indexed node: its item is the copy, and it is put in front. -/
def Map.enter (m : Map α) (node : ℕ) (y : α) : Map α :=
  let m := (m.setItem node y).hookFront node
  { m with root := some node, size := m.size + 1 }

/-- **The ways of a call of `map_push_find`**: without memory, with a collision behind the first
index, with a copy that fails, and with a new or a stored item. -/
inductive FindCase (cmps : List (α → α → ℕ → ℤ)) (alloc : Alloc) (m : Map α) (l : List ℕ) (x : α)
    (cpy : Option (MapCpy α)) (flag : Option ℕ) : Option α × Option ℕ × Map α → Prop
  | noMemory : alloc.calloc = false → FindCase cmps alloc m l x cpy flag (none, flag, m)
  | refused {m' : Map α} : ¬ EqualFirst cmps m l x → ¬ Insertable cmps alloc m l x →
      Intact m l m' → FindCase cmps alloc m l x cpy flag (none, flag, m')
  | uncopied {m' : Map α} : Insertable cmps alloc m l x → mapCopy cpy x = none →
      Indexing cmps m l ⟨none, m.root, x⟩ .ok m' →
      FindCase cmps alloc m l x cpy flag (none, flag, m')
  | inserted {m' : Map α} {y : α} : Insertable cmps alloc m l x → mapCopy cpy x = some y →
      Indexing cmps m l ⟨none, m.root, x⟩ .ok m' →
      FindCase cmps alloc m l x cpy flag
        (some y, flag.map (· &&& mapFlagInsert), m'.enter m.next y)
  | found {m' : Map α} {c : α → α → ℕ → ℤ} {a : ℕ} : alloc.calloc = true →
      cmps.head? = some c → a ∈ l → c x (m.heap a).item 0 = 0 → Intact m l m' →
      FindCase cmps alloc m l x cpy flag
        (some ((mapRefresh m' a x cpy flag).heap a).item, flag, mapRefresh m' a x cpy flag)

lemma not_insertable (h : EqualFirst cmps m l x) : ¬ Insertable cmps alloc m l x := by
  obtain ⟨c, hc, a, ha, hzero⟩ := h
  rintro ⟨-, -, hne⟩
  refine hne 0 c ?_ a ha hzero
  rwa [← List.head?_eq_getElem?]

/-- **One of them it takes.** -/
lemma MapInv.pushFind_cases (h : MapInv cmps m l) (alloc : Alloc) (x : α)
    (cpy : Option (MapCpy α)) (flag : Option ℕ) :
    Meets (2 ^ 49 ≤ l.length) (FindCase cmps alloc m l x cpy flag)
      (mapPushFind alloc m (some x) cpy flag) := by
  rw [mapPushFind]
  split
  · next halloc =>
    refine ((h.mapIndex alloc.malloc ⟨none, m.root, x⟩).and
      (h.mapIndex_exact alloc.malloc ⟨none, m.root, x⟩)).bind ?_
    rintro ⟨keyed, m'⟩ ⟨hi, hok, horders, hhead⟩
    dsimp only at hi hok horders hhead ⊢
    cases keyed with
    | failure =>
        refine .refused ?_ (fun hins => ?_) (hi.intact h (horders (by simp)))
        · rintro ⟨c, hc, hzero⟩
          obtain ⟨leaf, hleaf⟩ := hhead c hc hzero
          exact absurd hleaf (by simp)
        · exact absurd (hok.mpr hins.2) (by simp)
    | found leaf =>
        obtain ⟨-, hmem, k, hk, hlike⟩ := hi.leaves
        have hc : cmps.head? = some k.cmp := by
          rw [← h.cmps_eq, List.head?_map, hk]
          rfl
        have hzero : k.cmp x (m.heap leaf).item 0 = 0 := by
          rw [MapIndex.like, hi.heap_next, hi.heap_of_mem h hmem] at hlike
          exact hlike
        have hintact := hi.intact h (horders (by simp))
        cases flag <;> exact FindCase.found halloc hc hmem hzero hintact
    | ok =>
        have hins : Insertable cmps alloc m l x := ⟨halloc, hok.mp rfl⟩
        dsimp only
        rcases hcopy : mapCopy cpy x with _ | y
        · exact .uncopied hins hcopy hi
        · exact .inserted hins hcopy hi
  · next halloc => exact .noMemory (by simpa using halloc)

/-! ### A call that returns null -/

/-- The indexes refer to nodes of the list. -/
lemma MapInv.mem_of_orders (h : MapInv cmps m l) {keys : List (MapIndex α)}
    (horders : orders keys = orders m.key) {k : MapIndex α} (hk : k ∈ keys)
    (ha : a ∈ k.root.inorder) : a ∈ l := by
  have hmem : k.root.inorder ∈ orders m.key := by
    rw [← horders]
    exact List.mem_map_of_mem hk
  obtain ⟨k', hk', heq⟩ := List.mem_map.mp hmem
  obtain ⟨j, hj⟩ := List.getElem?_of_mem hk'
  rw [← heq] at ha
  exact (indexed_iff.mp h.indexed j k' hj).keys.mem_iff.mp ha

/-- **Null without a trace.**  A call that returns null leaves the map intact, and its indexes refer
to nodes of the list alone; unless the copy function has failed on an item that had gone into an
index already. -/
theorem push_find_null_iff (h : MapInv cmps m l) (alloc : Alloc) (item : Option α)
    (cpy : Option (MapCpy α)) (flag : Option ℕ) :
    Meets (2 ^ 49 ≤ l.length)
      (fun res =>
        (res.1 = none → Intact m l res.2.2 ∧ ∀ k ∈ res.2.2.key, ∀ a ∈ k.root.inorder, a ∈ l) ↔
          ¬ ∃ x, item = some x ∧ cmps ≠ [] ∧ Insertable cmps alloc m l x ∧ mapCopy cpy x = none)
      (mapPushFind alloc m item cpy flag) := by
  cases item with
  | none =>
      refine iff_of_true (fun _ => ⟨.refl m l, ?_⟩) (by simp)
      exact fun k hk a ha => h.mem_of_orders rfl hk ha
  | some x =>
      refine (h.pushFind_cases alloc x cpy flag).mono fun res hres => ?_
      have hrefused (hno : ¬ Insertable cmps alloc m l x) : ¬ ∃ y, some x = some y ∧ cmps ≠ [] ∧
          Insertable cmps alloc m l y ∧ mapCopy cpy y = none := by
        rintro ⟨y, hy, -, hins, -⟩
        obtain rfl := Option.some.inj hy
        exact hno hins
      cases hres with
      | noMemory halloc =>
          refine iff_of_true (fun _ => ⟨.refl m l, ?_⟩) (hrefused fun hins => ?_)
          · exact fun k hk a ha => h.mem_of_orders rfl hk ha
          · rw [hins.1] at halloc
            exact absurd halloc (by simp)
      | refused hfirst hno hintact =>
          refine iff_of_true (fun _ => ⟨hintact, ?_⟩) (hrefused hno)
          exact fun k hk a ha => h.mem_of_orders hintact.orders_eq hk ha
      | found halloc hc ha hzero hintact =>
          exact iff_of_true (fun h => absurd h (by simp))
            (hrefused (not_insertable ⟨_, hc, _, ha, hzero⟩))
      | @inserted m' y hins hcopy hi =>
          refine iff_of_true (fun h => absurd h (by simp)) ?_
          rintro ⟨x', hx', -, -, hnone⟩
          obtain rfl := Option.some.inj hx'
          rw [hcopy] at hnone
          exact absurd hnone (by simp)
      | @uncopied m' hins hcopy hi =>
          -- the released node is in every index there is
          by_cases hcmps : cmps = []
          · have hkey : m.key = [] := List.map_eq_nil_iff.mp (h.cmps_eq.trans hcmps)
            have hkey' : m'.key = [] := List.map_eq_nil_iff.mp (hi.cmps_eq.trans hcmps)
            refine iff_of_true (fun _ => ⟨hi.intact h (by rw [hkey, hkey']), ?_⟩) ?_
            · simp [hkey']
            · rintro ⟨-, -, hne, -⟩
              exact hne hcmps
          · refine iff_of_false (fun hall => ?_) (not_not_intro ⟨x, rfl, hcmps, hins, hcopy⟩)
            obtain ⟨k, keys, hkey⟩ : ∃ k keys, m'.key = k :: keys := by
              refine List.exists_cons_of_ne_nil fun hnil => hcmps ?_
              rw [← hi.cmps_eq, hnil, List.map_nil]
            have hindexed : Indexed m'.heap (m.next :: l) 0 m'.key := hi.leaves
            rw [hkey] at hindexed
            refine h.next_notMem ((hall rfl).2 k (by simp [hkey]) m.next ?_)
            exact hindexed.1.keys.mem_iff.mpr List.mem_cons_self

/-- An item that is equal to a stored one under the second index alone: null is returned, and there
is no trace. -/
theorem push_find_null_collision :
    ∃ flag m, mapPushFind allAlloc threePairs (some (4, 5)) none none = .ok (none, flag, m) ∧
      Intact threePairs [2, 1, 0] m ∧ ∀ k ∈ m.key, ∀ a ∈ k.root.inorder, a ∈ [2, 1, 0] := by
  have hcollides : ¬ ∃ x, some (4, 5) = some x ∧ [cmpFst, cmpSnd] ≠ [] ∧
      Insertable [cmpFst, cmpSnd] allAlloc threePairs [2, 1, 0] x ∧ mapCopy none x = none := by
    rintro ⟨x, hx, -, ⟨-, -, hne⟩, -⟩
    obtain rfl := Option.some.inj hx
    exact hne 1 cmpSnd rfl 1 (by simp) (by decide +kernel)
  obtain ⟨⟨ret, flag, m⟩, hok, hres⟩ :=
    (push_find_null_iff threePairs_inv allAlloc (some (4, 5)) none none).returns (by simp)
  have hnull : (mapPushFind allAlloc threePairs (some (4, 5)) none none).toOption.map Prod.fst =
      some none := by decide +kernel
  rw [hok] at hnull
  obtain rfl : ret = none := Option.some.inj hnull
  exact ⟨flag, m, hok, hres.mpr hcollides rfl⟩

/-- A copy function that has no memory for a new item. -/
def failingCpy : MapCpy (ℕ × ℕ) := ⟨fun _ => none, fun y _ => y⟩

/-- **A failing copy leaves the node in the index**: null is returned, the node 0 is released, and
the index of the empty map has it. -/
theorem released_node_indexed : ¬ ∀ (cmps : List (ℕ × ℕ → ℕ × ℕ → ℕ → ℤ)) (m m' : Map (ℕ × ℕ))
    (l : List ℕ) (item : ℕ × ℕ) (cpy : MapCpy (ℕ × ℕ)), MapInv cmps m l →
    mapPushFind allAlloc m (some item) (some cpy) none = .ok (none, none, m') →
    Intact m l m' ∧ ∀ k ∈ m'.key, ∀ a ∈ k.root.inorder, a ∈ l := by
  intro hall
  have hinv : MapInv [cmpFst] (mapNew zeroHeap 0 [cmpFst]) [] :=
    MapInv.new _ _ fun i c hc => by
      obtain ⟨hi, rfl⟩ := List.getElem?_eq_some_iff.mp hc
      obtain rfl : i = 0 := by simpa using hi
      exact (cmpFst_preorder 0).comparator
  obtain ⟨-, h⟩ := hall [cmpFst] (mapNew zeroHeap 0 [cmpFst]) _ [] (1, 5) failingCpy hinv rfl
  exact absurd (h _ List.mem_cons_self 0 List.mem_cons_self) (by simp)

/-! ### The promise -/

/-- What the update makes of a stored item. -/
def refreshed (x : α) (cpy : Option (MapCpy α)) (flag : ℕ) (y : α) : α :=
  if flag &&& mapFlagUpdate ≠ 0 then cpy.elim y fun cpy => cpy.stored y x else y

/-- **What `map_push_find` promises** for the flag word `flag`.  A new item: its copy is put in
front, and the flag word has the insert bit.  An item equal under the first index: it is returned,
copied over if the update bit is set, in front if the shift bit is set, and nothing else happens.
In every case the update and shift bits of the flag word are kept. -/
structure FindContract (cmps : List (α → α → ℕ → ℤ)) (m : Map α) (l : List ℕ) (x : α)
    (cpy : Option (MapCpy α)) (flag : ℕ) (res : Option α × Option ℕ × Map α) : Prop where
  inserts : (∀ (i : ℕ) (c : α → α → ℕ → ℤ), cmps[i]? = some c →
      ∀ a ∈ l, c x (m.heap a).item i ≠ 0) →
    (∃ y node, mapCopy cpy x = some y ∧ res.1 = some y ∧ res.2.2.Listed (node :: l) ∧
      (res.2.2.heap node).item = y ∧ ∀ b ∈ l, (res.2.2.heap b).item = (m.heap b).item) ∧
    ∃ f, res.2.1 = some f ∧ f &&& mapFlagInsert ≠ 0
  finds : EqualFirst cmps m l x → ∃ c, cmps.head? = some c ∧ ∃ a ∈ l,
    c x (m.heap a).item 0 = 0 ∧ res.1 = some (res.2.2.heap a).item ∧
    (res.2.2.heap a).item = refreshed x cpy flag (m.heap a).item ∧
    (∀ b ∈ l, b ≠ a → (res.2.2.heap b).item = (m.heap b).item) ∧
    res.2.2.Listed (if flag &&& mapFlagShift ≠ 0 then a :: l.erase a else l) ∧
    res.2.2.size = m.size ∧ orders res.2.2.key = orders m.key
  keeps : ∃ f, res.2.1 = some f ∧ f &&& mapFlagUpdate = flag &&& mapFlagUpdate ∧
    f &&& mapFlagShift = flag &&& mapFlagShift

/-- There is memory where it is needed and the copy function makes an item; and before an insertion
the flag word has the insert bit, and neither the update nor the shift bit. -/
def FindPlain (cmps : List (α → α → ℕ → ℤ)) (alloc : Alloc) (m : Map α) (l : List ℕ) (x : α)
    (cpy : Option (MapCpy α)) (flag : ℕ) : Prop :=
  (EqualFirst cmps m l x → alloc.calloc = true) ∧
    ((∀ (i : ℕ) (c : α → α → ℕ → ℤ), cmps[i]? = some c → ∀ a ∈ l, c x (m.heap a).item i ≠ 0) →
      Insertable cmps alloc m l x ∧ mapCopy cpy x ≠ none ∧ flag &&& mapFlagInsert ≠ 0 ∧
        flag &&& mapFlagUpdate = 0 ∧ flag &&& mapFlagShift = 0)

/-- A map that is intact has its list. -/
lemma Intact.listed (h : Intact m l m') (hl : m.Listed l) : m'.Listed l := by
  refine ⟨hl.nodup, h.root_eq.trans hl.root_eq, h.tail_eq.trans hl.tail_eq,
    fun l₁ b l₂ hb => ?_, fun l₁ b l₂ hb => ?_⟩
  · rw [h.nodes b (by simp [hb])]
    exact hl.up_eq l₁ b l₂ hb
  · rw [h.nodes b (by simp [hb])]
    exact hl.down_eq l₁ b l₂ hb

/-- The update changes one item and no link. -/
lemma mapUpdate_spec (m : Map α) (a : ℕ) (x : α) (cpy : Option (MapCpy α)) (flag : ℕ) :
    (∀ l, m.Listed l → (mapUpdate m a x cpy flag).Listed l) ∧
      (mapUpdate m a x cpy flag).key = m.key ∧ (mapUpdate m a x cpy flag).size = m.size ∧
      ∀ b, ((mapUpdate m a x cpy flag).heap b).item =
        if b = a then refreshed x cpy flag (m.heap a).item else (m.heap b).item := by
  have hset (y : α) (l : List ℕ) (h : m.Listed l) : (m.setItem a y).Listed l := by
    show Chain (fun b => ((m.setItem a y).heap b).up) (fun b => ((m.setItem a y).heap b).down)
      m.root m.tail l
    simpa only [Map.setItem_up, Map.setItem_down] using h
  unfold mapUpdate refreshed
  split
  · cases cpy with
    | none => exact ⟨fun l h => h, rfl, rfl, fun b => by split <;> simp_all⟩
    | some cpy => exact ⟨hset _, rfl, rfl, fun b => m.setItem_item _⟩
  · exact ⟨fun l h => h, rfl, rfl, fun b => by split <;> simp_all⟩

/-- The shift changes no item, and puts the node in front if the flag word says so. -/
lemma mapShift_spec (h : m.Listed l) (ha : a ∈ l) (flag : ℕ) :
    (mapShift m a flag).Listed (if flag &&& mapFlagShift ≠ 0 then a :: l.erase a else l) ∧
      m.SameIndexes (mapShift m a flag) := by
  rw [mapShift]
  split
  · obtain ⟨l₁, l₂, rfl⟩ := List.append_of_mem ha
    have hnot : a ∉ l₁ := by
      have hnodup := h.nodup
      rw [List.nodup_middle, List.nodup_cons] at hnodup
      exact fun hmem => hnodup.1 (List.mem_append_left _ hmem)
    rw [List.erase_append_right _ hnot, List.erase_cons_head]
    exact ⟨Map.Listed.shift h, Map.Listed.same_shift h⟩
  · exact ⟨h, rfl, rfl, rfl, fun b => rfl⟩

/-- An insertion keeps the promise about the list. -/
lemma Indexing.enter (hi : Indexing cmps m l ⟨none, m.root, x⟩ .ok m') (h : MapInv cmps m l)
    (y : α) : (m'.enter m.next y).Listed (m.next :: l) ∧
      ((m'.enter m.next y).heap m.next).item = y ∧
      ∀ b ∈ l, ((m'.enter m.next y).heap b).item = (m.heap b).item := by
  obtain ⟨hsame, hups, hdowns, -, htail⟩ :=
    Map.heap_hookFront (m := m'.setItem m.next y) (a := m.next)
  have hitem (b : ℕ) : ((m'.enter m.next y).heap b).item = ((m'.setItem m.next y).heap b).item :=
    hsame.item_eq b
  have hnot := h.next_notMem
  have hroot : (m'.setItem m.next y).root = m.root := hi.root_eq
  refine ⟨?_, ?_, fun b hb => ?_⟩
  · show Chain (fun b => (((m'.setItem m.next y).hookFront m.next).heap b).up)
      (fun b => (((m'.setItem m.next y).hookFront m.next).heap b).down) (some m.next)
      ((m'.setItem m.next y).hookFront m.next).tail _
    have hlisted := hi.listed h
    rw [htail]
    refine hlisted.pushFront hnot ?_ ?_ (fun b hb => ?_) (fun b hb => ?_)
    · rw [hups, Map.setItem_up, hi.heap_next, hroot, h.listed.root_eq, if_neg (Chain.head?_ne hnot)]
    · rw [hdowns, Map.setItem_down, hi.heap_next, hi.root_eq]
    · rw [hups, Map.setItem_up]
      rfl
    · rw [hdowns, Map.setItem_down]
  · rw [hitem, Map.setItem_item, if_pos rfl]
  · have hne : b ≠ m.next := by
      rintro rfl
      exact hnot hb
    rw [hitem, Map.setItem_item, if_neg hne, hi.heap_of_mem h hb]

/-- A stored item is returned, and the promise about it is kept. -/
lemma Intact.finds (h : Intact m l m') (hl : m.Listed l) {c : α → α → ℕ → ℤ}
    (hc : cmps.head? = some c) (ha : a ∈ l) (hzero : c x (m.heap a).item 0 = 0)
    (cpy : Option (MapCpy α)) (flag : ℕ) :
    FindContract cmps m l x cpy flag (some ((mapRefresh m' a x cpy (some flag)).heap a).item,
      some flag, mapRefresh m' a x cpy (some flag)) where
  inserts hno := absurd hzero (hno 0 c (by rwa [← List.head?_eq_getElem?]) a ha)
  finds _ := by
    obtain ⟨hlisted, hkey, hsize, hitem⟩ := mapUpdate_spec m' a x cpy flag
    obtain ⟨hshift, hsame⟩ := mapShift_spec (hlisted l (h.listed hl)) ha flag
    have hall (b : ℕ) : ((mapRefresh m' a x cpy (some flag)).heap b).item =
        if b = a then refreshed x cpy flag (m'.heap a).item else (m'.heap b).item :=
      (hsame.item_eq b).trans (hitem b)
    refine ⟨c, hc, a, ha, hzero, rfl, ?_, fun b hb hba => ?_, hshift, ?_, ?_⟩
    · rw [hall, if_pos rfl, h.nodes a ha]
    · rw [hall, if_neg hba, h.nodes b hb]
    · exact hsame.size_eq.trans (hsize.trans h.size_eq)
    · show orders (mapShift (mapUpdate m' a x cpy flag) a flag).key = _
      rw [hsame.key_eq, hkey, h.orders_eq]
  keeps := ⟨flag, rfl, rfl, rfl⟩

/-- **The promise is kept** exactly when there is memory where it is needed, the copy function makes
an item, and the flag word of an insertion is as the insertion leaves it. -/
theorem push_find_contract_iff (h : MapInv cmps m l) (alloc : Alloc) (x : α)
    (cpy : Option (MapCpy α)) (flag : ℕ) :
    Meets (2 ^ 49 ≤ l.length)
      (fun res => FindContract cmps m l x cpy flag res ↔ FindPlain cmps alloc m l x cpy flag)
      (mapPushFind alloc m (some x) cpy (some flag)) := by
  refine (h.pushFind_cases alloc x cpy (some flag)).mono fun res hres => ?_
  -- without an insertion and a stored item found, it is about the two premises alone
  have refused (hfirst : EqualFirst cmps m l x → ¬ alloc.calloc = true)
      (hno : ¬ Insertable cmps alloc m l x) (m' : Map α) :
      FindContract cmps m l x cpy flag (none, some flag, m') ↔
        FindPlain cmps alloc m l x cpy flag := by
    constructor
    · rintro ⟨hinserts, hfinds, -⟩
      refine ⟨fun heq => ?_, fun hne => ?_⟩
      · obtain ⟨c, -, a, -, -, hres, -⟩ := hfinds heq
        exact absurd hres (by simp)
      · obtain ⟨⟨y, node, -, hres, -⟩, -⟩ := hinserts hne
        exact absurd hres (by simp)
    · rintro ⟨heq, hne⟩
      exact ⟨fun hall => absurd (hne hall).1 hno, fun hex => absurd (heq hex) (hfirst hex),
        flag, rfl, rfl, rfl⟩
  cases hres with
  | noMemory halloc =>
      have hcalloc : ¬ alloc.calloc = true := by simp [halloc]
      exact refused (fun _ => hcalloc) (fun hins => hcalloc hins.1) m
  | refused hfirst hno hintact => exact refused (fun hex => absurd hex hfirst) hno _
  | uncopied hins hcopy hi =>
      refine iff_of_false (fun hc => ?_) fun hp => (hp.2 hins.2.2).2.1 hcopy
      obtain ⟨⟨y, node, hy, -⟩, -⟩ := hc.inserts hins.2.2
      rw [hcopy] at hy
      exact absurd hy (by simp)
  | @inserted m' y hins hcopy hi =>
      have hfirst : ¬ EqualFirst cmps m l x := fun hex => not_insertable hex hins
      have hkeep (bit : ℕ) (hbit : mapFlagInsert &&& bit = 0) :
          flag &&& mapFlagInsert &&& bit = flag &&& bit ↔ flag &&& bit = 0 := by
        rw [Nat.and_assoc, hbit, Nat.and_zero, eq_comm]
      constructor
      · rintro ⟨hinserts, -, f, hf, hupdate, hshift⟩
        obtain ⟨-, f', hf', hinsert⟩ := hinserts hins.2.2
        obtain rfl := Option.some.inj hf
        obtain rfl := Option.some.inj hf'
        rw [Nat.and_assoc, Nat.and_self] at hinsert
        exact ⟨fun hex => absurd hex hfirst, fun _ => ⟨hins, by simp [hcopy], hinsert,
          (hkeep _ rfl).mp hupdate, (hkeep _ rfl).mp hshift⟩⟩
      · rintro ⟨-, hplain⟩
        obtain ⟨-, -, hinsert, hupdate, hshift⟩ := hplain hins.2.2
        obtain ⟨hlisted, hnode, hitems⟩ := hi.enter h y
        refine ⟨fun _ => ⟨⟨y, m.next, hcopy, rfl, hlisted, hnode, hitems⟩, _, rfl, ?_⟩,
          fun hex => absurd hex hfirst, _, rfl, (hkeep _ rfl).mpr hupdate,
          (hkeep _ rfl).mpr hshift⟩
        rwa [Nat.and_assoc, Nat.and_self]
  | @found m' c a halloc hc ha hzero hintact =>
      refine iff_of_true (hintact.finds h.listed hc ha hzero cpy flag) ⟨fun _ => halloc, ?_⟩
      exact fun hne => absurd hzero (hne 0 c (by rwa [← List.head?_eq_getElem?]) a ha)

/-- A copy function that replaces the second component of what is stored. -/
def secondCpy : MapCpy (ℕ × ℕ) := ⟨some, fun y x => (y.1, x.2)⟩

/-- An update and a shift of the middle item, which is equal under the first index. -/
theorem push_find_contract_shift :
    ∃ m, mapPushFind allAlloc threePairs (some (2, 4)) (some secondCpy)
        (some (mapFlagUpdate ||| mapFlagShift)) =
          .ok (some (2, 4), some (mapFlagUpdate ||| mapFlagShift), m) ∧
      FindContract [cmpFst, cmpSnd] threePairs [2, 1, 0] (2, 4) (some secondCpy)
        (mapFlagUpdate ||| mapFlagShift)
        (some (2, 4), some (mapFlagUpdate ||| mapFlagShift), m) ∧
      m.root = some 1 ∧ (m.heap 1).item = (2, 4) := by
  have hplain : FindPlain [cmpFst, cmpSnd] allAlloc threePairs [2, 1, 0] (2, 4) (some secondCpy)
      (mapFlagUpdate ||| mapFlagShift) :=
    ⟨fun _ => rfl, fun hne => absurd (by decide +kernel) (hne 0 cmpFst rfl 1 (by simp))⟩
  obtain ⟨⟨ret, flag, m⟩, hok, hres⟩ := (push_find_contract_iff threePairs_inv allAlloc (2, 4)
    (some secondCpy) (mapFlagUpdate ||| mapFlagShift)).returns (by simp)
  have hview : (mapPushFind allAlloc threePairs (some (2, 4)) (some secondCpy)
      (some (mapFlagUpdate ||| mapFlagShift))).toOption.map (fun res =>
        (res.1, res.2.1, res.2.2.root, (res.2.2.heap 1).item)) =
      some (some (2, 4), some (mapFlagUpdate ||| mapFlagShift), some 1, (2, 4)) := by
    decide +kernel
  rw [hok] at hview
  simp only [Except.toOption, Option.map_some, Option.some.injEq, Prod.mk.injEq] at hview
  obtain ⟨rfl, rfl, hroot, hitem⟩ := hview
  exact ⟨m, hok, hres.mpr hplain, hroot, hitem⟩

/-- **The request is lost**: after an insertion with the update bit the flag word is 0. -/
theorem update_request_lost : ¬ ∀ (cmps : List (ℕ × ℕ → ℕ × ℕ → ℕ → ℤ)) (m m' : Map (ℕ × ℕ))
    (l : List ℕ) (x y : ℕ × ℕ) (cpy : Option (MapCpy (ℕ × ℕ))) (flag flag' : ℕ), MapInv cmps m l →
    mapPushFind allAlloc m (some x) cpy (some flag) = .ok (some y, some flag', m') →
    FindContract cmps m l x cpy flag (some y, some flag', m') := by
  intro hall
  obtain ⟨-, -, f, hf, hupdate, -⟩ := hall _ _ _ [] (1, 5) (1, 5) none mapFlagUpdate 0
    mapNew_pairs rfl
  obtain rfl := Option.some.inj hf
  exact absurd hupdate (by decide)

end SipEcho
