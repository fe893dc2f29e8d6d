import SipEcho.Map.Items
import SipEcho.Sip.Aor

/-!
The contacts of an address of record, as the list of their records.

`aor_update` takes the contacts of a message from the last to the first; each turn removes the
record that equals the contact and stores a new one.

* `aorRecordCmp_comparator`, `aorRecordCmp_trans`: the order of the records; a wildcard equals
  every user name, so that "equal" is transitive over other records only;
* `aorRecordNew_eq_some`: what an accepted contact is stored as;
* `removeRecord_records`, `eraseContacts_records`: a removal compares what it removes with what is
  stored, itself among it, and so comes to a transport without a value wherever one is stored;
* `Bound`: what the turns made so far are to leave, a record that was stored or accepted and that
  no later turn overrides;
* `TurnOf.sound`, `TurnsOf.sound`: **the turns leave nothing else**;
* `NewOf.sound`: nor does `aor_new`;
* `allReadable_of_given`, `newReadable_of_given`: contacts that give their strings come to none that
  is missing.
-/

namespace SipEcho

open Lib

/-! ### The order of the records -/

lemma strcmp_preorder : TotalPreorder strcmp where
  swap a b := by
    have h : strcmp a b = -strcmp b a := strcmpBy_neg (f := id) (by simp) b a
    omega
  le_trans _ _ _ := strcmpBy_trans (f := id) (by simp)

/-- **The "less" of `aor_record_cmp` is transitive.** -/
theorem aorRecordCmp_comparator : Comparator fun a b => aorRecordCmp a b 0 := by
  have hcontact : Comparator fun a b : AorRecord => contactCompare a.contact b.contact :=
    ⟨fun a b => contactCompare_comparator.swap _ _,
      fun a b c => contactCompare_comparator.lt_trans _ _ _⟩
  exact Comparator.lex (strcmp_preorder.comap fun a : AorRecord => a.protocol.getD []) hcontact

lemma contactCompare_eq_zero {a b : From} :
    contactCompare a b = 0 ↔ SamePlace a b ∧ (a.Wild ∨ b.Wild ∨ strcasecmp a.user b.user = 0) := by
  rw [contactCompare_eq, SamePlace]
  split_ifs with h1 h2 h3 h4
  · simp only [h1, h2, true_and]
    refine iff_of_true trivial ⟨by omega, ?_⟩
    tauto
  · simp only [h1, h2, true_and]
    refine ⟨fun h => ⟨by omega, Or.inr (Or.inr h)⟩, fun h => ?_⟩
    tauto
  · refine iff_of_false h3 fun h => h3 ?_
    have := h.1.2.2
    omega
  · exact iff_of_false h2 fun h => h2 h.1.2.1
  · exact iff_of_false h1 fun h => h1 h.1.1

lemma SamePlace.trans {a b c : From} (hab : SamePlace a b) (hbc : SamePlace b c) :
    SamePlace a c :=
  ⟨strcasecmp_preorder.eq_trans hab.1 hbc.1, strcasecmp_preorder.eq_trans hab.2.1 hbc.2.1,
    hab.2.2.trans hbc.2.2⟩

lemma aorRecordCmp_eq_zero {a b : AorRecord} (i : ℕ) : aorRecordCmp a b i = 0 ↔
    strcmp (a.protocol.getD []) (b.protocol.getD []) = 0 ∧
      contactCompare a.contact b.contact = 0 := by
  simp only [aorRecordCmp]
  split
  · next h => simp [h]
  · next h => simp [h]

/-- Two records that equal a third, which is no wildcard, are equal. -/
lemma aorRecordCmp_trans {a b c : AorRecord} (hw : ¬ b.contact.Wild)
    (hab : aorRecordCmp a b 0 = 0) (hbc : aorRecordCmp b c 0 = 0) : aorRecordCmp a c 0 = 0 := by
  rw [aorRecordCmp_eq_zero, contactCompare_eq_zero] at hab hbc ⊢
  obtain ⟨hab1, hab2, hab3⟩ := hab
  obtain ⟨hbc1, hbc2, hbc3⟩ := hbc
  refine ⟨strcmp_preorder.eq_trans hab1 hbc1, hab2.trans hbc2, ?_⟩
  rcases hab3 with ha | hb | hab3
  · exact Or.inl ha
  · exact absurd hb hw
  · rcases hbc3 with hb | hc | hbc3
    · exact absurd hb hw
    · exact Or.inr (Or.inl hc)
    · exact Or.inr (Or.inr (strcasecmp_preorder.eq_trans hab3 hbc3))

lemma aorRecordCmp_symm {a b : AorRecord} (h : aorRecordCmp a b 0 = 0) :
    aorRecordCmp b a 0 = 0 :=
  aorRecordCmp_comparator.eq_symm h

/-- Records with one protocol and one contact stand in the same order to everything. -/
lemma aorRecordCmp_alike {a b : AorRecord} (hp : a.protocol = b.protocol)
    (hc : a.contact = b.contact) (i : ℕ) : Alike (fun x y => aorRecordCmp x y i) a b := by
  intro z
  simp only [aorRecordCmp, hp, hc, and_self]

lemma aorRecordCmp_congr {a b : AorRecord} (hp : a.protocol = b.protocol)
    (hc : a.contact = b.contact) (z : AorRecord) (i : ℕ) :
    aorRecordCmp a z i = aorRecordCmp b z i ∧ aorRecordCmp z a i = aorRecordCmp z b i := by
  simp only [aorRecordCmp, hp, hc, and_self]

/-! ### What is stored -/

section Calls

variable (lib : AorLib) (env : AorEnv)

lemma aorRecordLookup_eq (r : AorRecord) :
    (aorRecordLookup lib r).protocol = r.protocol ∧ (aorRecordLookup lib r).contact = r.contact ∧
      (aorRecordLookup lib r).id = r.id ∧ (aorRecordLookup lib r).expired = r.expired := by
  rw [aorRecordLookup]
  split
  · split <;> exact ⟨rfl, rfl, rfl, rfl⟩
  · exact ⟨rfl, rfl, rfl, rfl⟩

/-- The `transport` parameter of a contact. -/
def From.transport (c : From) : Option GenericParam :=
  c.url.bind fun url => lib.byname url.urlParams (str "transport")

/-- The record `aor_update` looks for, if the contact has a transport. -/
def AorLib.sought (c : From) : Option AorRecord :=
  (c.transport lib).map fun transport => { protocol := transport.gvalue, contact := c }

/-- The expiry of a contact, which its own parameter sets, if there is one. -/
def effective (c : From) (expired : ℤ) : ℤ :=
  if expired ≠ -1 then valueOr (lib.byname c.genParams (str "expires")) expired else expired

/-- **`aor_record_new`.** -/
lemma aorRecordNew_eq_some {n : ℕ} {c : From} {expired id : ℤ} {r : AorRecord} :
    aorRecordNew lib env n c expired id = some r ↔
      (c.scheme.isSome ∧ c.host.isSome ∧ ¬ c.Wild ∧ effective lib c expired ≠ 0 ∧
        env.recordNew n = true) ∧
      ∃ x, lib.sought c = some x ∧ r = { x with id, expired := effective lib c expired + env.time }
    := by
  rw [aorRecordNew, AorLib.sought, From.transport, From.scheme, From.host, From.Wild, effective]
  rcases c.url with _ | url
  · simp
  · dsimp only [Option.bind_some]
    rcases url.scheme with _ | scheme
    · simp
    · rcases url.host with _ | host
      · simp
      · by_cases hw : strcmp c.user (str "*") = 0
        · simp [hw]
        · generalize (if expired ≠ -1 then _ else expired) = e
          by_cases he : e = 0
          · simp [hw, he]
          · by_cases hn : env.recordNew n = true
            · rcases lib.byname url.urlParams (str "transport") with _ | t
              · simp [hw, he, hn]
              · simp [hw, he, hn, eq_comm]
            · simp [hw, he, hn]

end Calls

/-! ### Missing strings -/

/-- A record `aor_record_new` could have made, its transport without a value perhaps. -/
def AorRecord.Complete (y : AorRecord) : Prop :=
  y.contact.scheme.isSome = true ∧ y.contact.host.isSome = true ∧ ¬ y.contact.Wild

instance : DecidablePred AorRecord.Complete := fun y => inferInstanceAs
  (Decidable (y.contact.scheme.isSome = true ∧ y.contact.host.isSome = true ∧ ¬ y.contact.Wild))

lemma readsNull_protocol {x y : AorRecord} (h : x.readsNull y = false) :
    x.protocol.isSome = true ∧ y.protocol.isSome = true := by
  rw [AorRecord.readsNull, Bool.or_eq_false_iff, Bool.or_eq_false_iff] at h
  obtain ⟨⟨h1, h2⟩, -⟩ := h
  exact ⟨by simpa [Option.isSome_iff_ne_none] using h1, by
    simpa [Option.isSome_iff_ne_none] using h2⟩

lemma readsNull_of_isSome {x y : AorRecord} (hx : x.contact.scheme.isSome = true)
    (hx' : x.contact.host.isSome = true) (hy : y.Complete) (hxp : x.protocol.isSome = true)
    (hyp : y.protocol.isSome = true) : x.readsNull y = false := by
  obtain ⟨hy1, hy2, -⟩ := hy
  simp [AorRecord.readsNull, hxp, hyp, hx, hx', hy1, hy2]

lemma readsNull_of_complete {x y : AorRecord} (hx : x.Complete) (hy : y.Complete)
    (hxp : x.protocol.isSome = true) (hyp : y.protocol.isSome = true) : x.readsNull y = false :=
  readsNull_of_isSome hx.1 hx.2.1 hy hxp hyp

/-- The transports of the records have values, where the map has its index. -/
def Valued (indexed : Bool) (xs : List AorRecord) : Prop :=
  indexed = true → ∀ y ∈ xs, y.protocol.isSome = true

/-! ### Searches and removals -/

/-- The indexes of a map of contacts, for which `aor_new` may have had no memory. -/
def recordCmps (indexed : Bool) : List (AorRecord → AorRecord → ℕ → ℤ) :=
  if indexed then [aorRecordCmp] else []

section Searches

variable {indexed : Bool} {m : Map AorRecord} {xs : List AorRecord}

lemma recordCmps_get {i : ℕ} {c : AorRecord → AorRecord → ℕ → ℤ}
    (hc : (recordCmps indexed)[i]? = some c) : c = aorRecordCmp := by
  rw [recordCmps] at hc
  split at hc
  · have := List.mem_of_getElem? hc
    simpa using this
  · exact absurd hc (by simp)

lemma mem_of_compared {κ : Type} {cmp : κ → ℤ} {t : RBTree κ} {k : κ} (h : k ∈ compared cmp t) :
    k ∈ t.inorder := by
  induction t with
  | nil => exact absurd h (by simp [compared])
  | node _ l k' r ihl ihr =>
      rw [compared, List.mem_cons] at h
      rw [RBTree.inorder, List.mem_append, List.mem_cons]
      rcases h with rfl | h
      · exact Or.inr (Or.inl rfl)
      · split at h
        · exact absurd h (by simp)
        · split at h
          · exact Or.inl (ihl h)
          · exact Or.inr (Or.inr (ihr h))

/-- A search that comes to a missing string comes to it in the index, at a stored record. -/
lemma comparesNull_elim (h : Lists (recordCmps indexed) m xs) {x : AorRecord}
    (hx : comparesNull m x = true) : indexed = true ∧ ∃ y ∈ xs, x.readsNull y = true := by
  obtain ⟨l, hl, rfl⟩ := h
  rw [comparesNull] at hx
  split at hx
  · exact absurd hx (by simp)
  · next k hk =>
    cases indexed with
    | false =>
        have hlen := hl.length_cmps
        rw [List.length_eq_zero_iff.mp hlen] at hk
        exact absurd hk (by simp)
    | true =>
        refine ⟨rfl, ?_⟩
        obtain ⟨k', hk', -, hindex⟩ := hl.index (i := 0) (c := aorRecordCmp) rfl
        obtain rfl : k = k' := by
          rw [hk] at hk'
          exact Option.some.inj hk'
        obtain ⟨a, ha, hread⟩ := List.any_eq_true.mp hx
        exact ⟨_, List.mem_map_of_mem (hindex.keys.mem_iff.mp (mem_of_compared ha)), hread⟩

/-- A search among stored records comes to the first of its index at least. -/
lemma comparesNull_root (h : Lists (recordCmps true) m xs) {x : AorRecord}
    (hx : comparesNull m x = false) (hne : xs ≠ []) : ∃ y ∈ xs, x.readsNull y = false := by
  obtain ⟨l, hl, rfl⟩ := h
  obtain ⟨k, hk, -, hindex⟩ := hl.index (i := 0) (c := aorRecordCmp) rfl
  rw [comparesNull, hk] at hx
  dsimp only at hx
  cases hroot : k.root with
  | nil =>
      have hkeys := hindex.keys
      rw [hroot] at hkeys
      refine absurd ?_ hne
      rw [List.map_eq_nil_iff]
      exact hkeys.symm.eq_nil
  | node color l' a r' =>
      rw [hroot, compared, List.any_cons, Bool.or_eq_false_iff] at hx
      have ha : a ∈ l := by
        refine hindex.keys.mem_iff.mp ?_
        rw [hroot]
        simp [RBTree.inorder]
      exact ⟨_, List.mem_map_of_mem ha, hx.1⟩

/-- What `map_pure` leaves of the records: one that equals the key is gone, if there is one and
the map has its index. -/
def Pured (indexed : Bool) (x : AorRecord) (xs zs : List AorRecord) : Prop :=
  (indexed = true ∧ ∃ xs₁ y xs₂, xs = xs₁ ++ y :: xs₂ ∧ aorRecordCmp x y 0 = 0 ∧
    zs = xs₁ ++ xs₂) ∨ (zs = xs ∧ (indexed = true → ∀ y ∈ xs, aorRecordCmp x y 0 ≠ 0))

/-- **`map_remove` of a contact**: its record is gone, and came to no missing string. -/
lemma removeRecord_records {l : List ℕ} (hl : MapInv (recordCmps indexed) m l)
    (hxs : ∀ a ∈ l, (m.heap a).item.Complete) {a : ℕ} (ha : a ∈ l) :
    Meets (2 ^ 49 ≤ l.length ∨ ¬ Valued indexed (l.map fun b => (m.heap b).item))
      (fun m' => (indexed = true → (m.heap a).item.protocol.isSome = true) ∧
        ∃ xs₁ xs₂, (l.map fun b => (m.heap b).item) = xs₁ ++ (m.heap a).item :: xs₂ ∧
          Lists (recordCmps indexed) m' (xs₁ ++ xs₂))
      (removeRecord m a) := by
  have h : Lists (recordCmps indexed) m (l.map fun b => (m.heap b).item) := ⟨l, hl, rfl⟩
  have hmem : (m.heap a).item ∈ l.map fun b => (m.heap b).item := List.mem_map_of_mem ha
  rw [removeRecord]
  split
  · next hnull =>
    obtain ⟨hi, y, hy, hread⟩ := comparesNull_elim h hnull
    refine Or.inr fun hvalued => ?_
    have hcomplete : y.Complete := List.forall_mem_map.mpr hxs y hy
    rw [readsNull_of_complete (hxs a ha) hcomplete (hvalued hi _ hmem) (hvalued hi y hy)] at hread
    exact absurd hread (by simp)
  · next hnull =>
    refine ((Lists.remove hl ha).excuse_mono Or.inl).bind fun res hres => ⟨fun hi => ?_, hres.2⟩
    -- the record was compared with the first of the index at least
    subst hi
    obtain ⟨y, -, hread⟩ := comparesNull_root h (by simpa using hnull) (List.ne_nil_of_mem hmem)
    exact (readsNull_protocol hread).1

/-- **`map_pure`.** -/
lemma pureContact_records (h : Lists (recordCmps indexed) m xs) (hxs : ∀ y ∈ xs, y.Complete)
    (x : AorRecord) :
    Meets (2 ^ 49 ≤ xs.length ∨ indexed = true ∧ ∃ y ∈ xs, x.readsNull y = true)
      (fun m' => ∃ zs, Lists (recordCmps indexed) m' zs ∧ Pured indexed x xs zs)
      (pureContact m x) := by
  rw [pureContact]
  split
  · next hnull => exact Or.inr (comparesNull_elim h hnull)
  · obtain ⟨l, hl, rfl⟩ := h
    cases indexed with
    | false =>
        have hkey : m.key = [] := List.length_eq_zero_iff.mp hl.length_cmps
        have hs : mapSearch m x 0 = none := by rw [mapSearch, hkey]; rfl
        rw [hs]
        exact ⟨_, ⟨l, hl, rfl⟩, Or.inr ⟨rfl, fun hi => absurd hi (by simp)⟩⟩
    | true =>
        obtain ⟨hsome, hnone⟩ := hl.search (i := 0) (c := aorRecordCmp) rfl x
        cases hs : mapSearch m x 0 with
        | none =>
            refine ⟨_, ⟨l, hl, rfl⟩, Or.inr ⟨rfl, fun _ => ?_⟩⟩
            rw [List.forall_mem_map]
            exact hnone hs
        | some a =>
            obtain ⟨ha, hzero⟩ := hsome a hs
            have hremove := removeRecord_records hl (List.forall_mem_map.mp hxs) ha
            refine (hremove.mono ?_).excuse_mono ?_
            · rintro m' ⟨-, xs₁, xs₂, hsplit, hlists⟩
              exact ⟨_, hlists, Or.inl ⟨rfl, xs₁, _, xs₂, hsplit, hzero, rfl⟩⟩
            · rw [List.length_map]
              refine Or.imp_right fun hvalued => ⟨rfl, ?_⟩
              by_contra hread
              push Not at hread
              refine hvalued fun _ y hy => (readsNull_protocol (x := x) ?_).2
              simpa using hread y hy

/-- The loop of `map_erase`. -/
lemma eraseRecords_records (h : Lists (recordCmps indexed) m xs) (hxs : ∀ y ∈ xs, y.Complete)
    {fuel : ℕ} (hfuel : xs.length ≤ fuel) :
    Meets (2 ^ 49 ≤ xs.length ∨ ¬ Valued indexed xs)
      (fun m' => Lists (recordCmps indexed) m' [] ∧ Valued indexed xs) (eraseRecords fuel m) := by
  induction fuel generalizing m xs with
  | zero =>
      obtain rfl : xs = [] := List.eq_nil_of_length_eq_zero (by omega)
      have hroot : m.root = none := by
        obtain ⟨l, hl, hnil⟩ := h
        rw [hl.listed.root_eq, List.map_eq_nil_iff.mp hnil]
        rfl
      rw [eraseRecords, hroot]
      exact ⟨h, fun _ => by simp⟩
  | succ fuel ih =>
      have hlists := h
      obtain ⟨l, hl, rfl⟩ := h
      rw [eraseRecords, hl.listed.root_eq]
      rcases l with _ | ⟨a, l⟩
      · exact ⟨hlists, fun _ => by simp⟩
      · dsimp only [List.head?_cons]
        refine ((removeRecord_records hl (List.forall_mem_map.mp hxs)
          List.mem_cons_self).excuse_mono (Or.imp_left fun hbig => ?_)).bind ?_
        · rwa [List.length_map]
        · rintro m' ⟨hfirst, xs₁, xs₂, hsplit, hrest⟩
          rw [hsplit] at hxs hfuel ⊢
          have hsub (y : AorRecord) (hy : y ∈ xs₁ ++ xs₂) :
              y ∈ xs₁ ++ (m.heap a).item :: xs₂ := by
            simp only [List.mem_append, List.mem_cons] at hy ⊢
            tauto
          have hlen : (xs₁ ++ (m.heap a).item :: xs₂).length = (xs₁ ++ xs₂).length + 1 := by
            simp only [List.length_append, List.length_cons]
            omega
          refine ((ih hrest (fun y hy => hxs y (hsub y hy)) (by omega)).mono ?_).excuse_mono ?_
          · rintro m'' ⟨hnil, hvalued⟩
            refine ⟨hnil, fun hi y hy => ?_⟩
            rw [List.mem_append, List.mem_cons, or_left_comm, ← List.mem_append] at hy
            exact hy.elim (fun heq => heq ▸ hfirst hi) (hvalued hi y)
          · rintro (hbig | hvalued)
            · exact Or.inl (by omega)
            · exact Or.inr fun hall => hvalued fun hi y hy => hall hi y (hsub y hy)

/-- **`map_erase`**: nothing is left, when the transports of the records have values. -/
theorem eraseContacts_records (h : Lists (recordCmps indexed) m xs) (hxs : ∀ y ∈ xs, y.Complete) :
    Meets (2 ^ 49 ≤ xs.length ∨ ¬ Valued indexed xs)
      (fun m' => Lists (recordCmps indexed) m' [] ∧ Valued indexed xs) (eraseContacts m) := by
  refine eraseRecords_records h hxs ?_
  obtain ⟨l, hl, rfl⟩ := h
  rw [hl.size_eq]
  simp

/-- What `map_pure` leaves was there. -/
lemma Pured.subset {x : AorRecord} {zs : List AorRecord} (h : Pured indexed x xs zs) :
    ∀ y ∈ zs, y ∈ xs := by
  rcases h with ⟨-, xs₁, y, xs₂, rfl, -, rfl⟩ | ⟨rfl, -⟩
  · intro y hy
    simp only [List.mem_append, List.mem_cons] at hy ⊢
    tauto
  · exact fun y hy => hy

/-- No two records of a map with its index are equal. -/
lemma Lists.pairwise_records (h : Lists (recordCmps true) m xs) :
    xs.Pairwise fun x y => aorRecordCmp x y 0 ≠ 0 :=
  Holds.pairwise (c := aorRecordCmp) h

/-- **What a key that is no wildcard equals is gone.** -/
lemma Pured.gone {x : AorRecord} {zs : List AorRecord} (h : Pured true x xs zs)
    (hw : ¬ x.contact.Wild) (hxs : xs.Pairwise fun x y => aorRecordCmp x y 0 ≠ 0) :
    ∀ y, y ∈ zs ↔ y ∈ xs ∧ aorRecordCmp x y 0 ≠ 0 := by
  rcases h with ⟨-, xs₁, y, xs₂, rfl, hy, rfl⟩ | ⟨rfl, hne⟩
  · -- what equals the key equals the record that is gone
    have hother (z : AorRecord) (hz : z ∈ xs₁ ++ xs₂) : aorRecordCmp x z 0 ≠ 0 := fun hz0 => by
      rw [List.pairwise_append, List.pairwise_cons] at hxs
      obtain ⟨-, ⟨hafter, -⟩, hbefore⟩ := hxs
      rcases List.mem_append.mp hz with hz | hz
      · exact hbefore z hz y (by simp) (aorRecordCmp_trans hw (aorRecordCmp_symm hz0) hy)
      · exact hafter z hz (aorRecordCmp_trans hw (aorRecordCmp_symm hy) hz0)
    intro z
    refine ⟨fun hz => ⟨?_, hother z hz⟩, fun ⟨hz, hne⟩ => ?_⟩
    · simp only [List.mem_append, List.mem_cons] at hz ⊢
      tauto
    · simp only [List.mem_append, List.mem_cons] at hz ⊢
      rcases hz with hz | rfl | hz
      · exact Or.inl hz
      · exact absurd hy hne
      · exact Or.inr hz
  · exact fun z => ⟨fun hz => ⟨hz, hne rfl z hz⟩, fun hz => hz.1⟩

end Searches

/-! ### Turns -/

section Turns

/-- There is memory to store contact number `n`. -/
def AorEnv.Stores (env : AorEnv) (n : ℕ) : Prop :=
  (env.recordPush n).calloc = true ∧ (env.recordPush n).malloc 0 = true

variable (lib : AorLib) (env : AorEnv) (indexed : Bool) (expired id : ℤ)

/-- The turn of a contact erases the map. -/
def Erases (c : From) : Prop := (c.displayname.bind List.head?) = some 42 ∧ expired = 0

instance : DecidablePred (Erases expired) := fun c => inferInstanceAs
  (Decidable ((c.displayname.bind List.head?) = some 42 ∧ expired = 0))

/-- The turn of a contact removes a record. -/
def Overrides (c : From) (y : AorRecord) : Prop :=
  Erases expired c ∨ indexed = true ∧ expired ≠ -1 ∧ ¬ c.Wild ∧
    ∃ x, lib.sought c = some x ∧ aorRecordCmp x y 0 = 0

/-- What contact number `c.2` is stored as. -/
def StoredAs (c : From × ℕ) (y : AorRecord) : Prop :=
  ∃ r, aorRecordNew lib env c.2 c.1 expired id = some r ∧ (indexed = true → env.Stores c.2) ∧
    y = aorRecordLookup lib r

/-- The turn of a contact stores a record. -/
def Accepts (c : From × ℕ) (y : AorRecord) : Prop :=
  ¬ Erases expired c.1 ∧ StoredAs lib env indexed expired id c y

/-- **The records to be left** of the records `xs` when the contacts `cs` had their turns, the last
first: what a turn stored or found, and no later turn overrides. -/
def Bound (xs : List AorRecord) : List (From × ℕ) → AorRecord → Prop
  | [], y => y ∈ xs
  | c :: cs, y =>
      Bound xs cs y ∧ ¬ Overrides lib indexed expired c.1 y ∨ Accepts lib env indexed expired id c y

/-- The turn of a contact, with the records `P` stored, comes to no string that is missing. -/
structure Readable (P : AorRecord → Prop) (c : From × ℕ) : Prop where
  url : Erases expired c.1 ∨ c.1.url.isSome = true
  erase : Erases expired c.1 → indexed = true → ∀ y, P y → y.protocol.isSome = true
  pure : ¬ Erases expired c.1 → indexed = true → expired ≠ -1 →
    ∀ x, lib.sought c.1 = some x → ∀ y, P y → x.readsNull y = false
  push : ¬ Erases expired c.1 → indexed = true → (env.recordPush c.2).calloc = true →
    ∀ r, aorRecordNew lib env c.2 c.1 expired id = some r → ∀ y, P y → r.readsNull y = false

/-- A record to be stored was compared with one of the stored records `zs`, if there are any. -/
def Met (n : ℕ) (r : AorRecord) (zs : List AorRecord) : Prop :=
  indexed = true → (env.recordPush n).calloc = true → zs ≠ [] → ∃ y ∈ zs, r.readsNull y = false

/-- What `map_push` leaves of the records. -/
def Pushed (n : ℕ) (add : Option AorRecord) (zs ys : List AorRecord) : Prop :=
  (∀ r, add = some r → Met env indexed n r zs) ∧
    ((∃ r, add = some r ∧ (indexed = true → env.Stores n) ∧ ys = aorRecordLookup lib r :: zs) ∨
      (ys = zs ∧ (indexed = true → ∀ r, add = some r →
        ¬ Holds.Pushable aorRecordCmp (env.recordPush n) zs r)))

variable {lib env indexed expired id}

variable {m : Map AorRecord} {xs zs : List AorRecord}

/-- **`map_push`, and the lookup of what is stored.** -/
lemma pushRecord_records (h : Lists (recordCmps indexed) m zs) (n : ℕ) (add : Option AorRecord) :
    Meets (2 ^ 49 ≤ zs.length ∨ ∃ r, add = some r ∧ indexed = true ∧
        (env.recordPush n).calloc = true ∧ ∃ y ∈ zs, r.readsNull y = true)
      (fun m' => ∃ ys, Lists (recordCmps indexed) m' ys ∧ Pushed lib env indexed n add zs ys)
      (pushRecord lib env n m add) := by
  rw [pushRecord]
  cases add with
  | none =>
      rw [if_neg (by simp)]
      exact ⟨zs, h, fun r hr => absurd hr (by simp),
        Or.inr ⟨rfl, fun _ r hr => absurd hr (by simp)⟩⟩
  | some r =>
      split
      · next hnull =>
        rw [Bool.and_eq_true, Option.any_some] at hnull
        obtain ⟨hi, hread⟩ := comparesNull_elim h hnull.2
        exact Or.inr ⟨r, rfl, hi, hnull.1, hread⟩
      · next hnull =>
        have hmet : Met env indexed n r zs := fun hi halloc hne => by
          subst hi
          refine comparesNull_root h ?_ hne
          rw [halloc, Bool.true_and, Option.any_some] at hnull
          simpa using hnull
        have hmet' : ∀ r', some r = some r' → Met env indexed n r' zs := fun r' hr' =>
          Option.some.inj hr' ▸ hmet
        have hpush : Meets (2 ^ 49 ≤ zs.length)
            (fun res : ℤ × Map AorRecord =>
              res.1 = 0 ∧ Lists (recordCmps indexed) res.2 (r :: zs) ∧
                (indexed = true → env.Stores n) ∨
              res.1 = -1 ∧ Lists (recordCmps indexed) res.2 zs ∧
                (indexed = true → ¬ Holds.Pushable aorRecordCmp (env.recordPush n) zs r))
            (mapPush (env.recordPush n) m (some r)) := by
          cases indexed with
          | false =>
              refine (h.push (env.recordPush n) r).mono fun res hres => ?_
              rcases hres with hres | hres
              · exact Or.inl ⟨hres.1, hres.2, fun hi => absurd hi (by simp)⟩
              · exact Or.inr ⟨hres.1, hres.2, fun hi => absurd hi (by simp)⟩
          | true =>
              refine (Holds.push (c := aorRecordCmp) h (env.recordPush n) r).mono fun res hres => ?_
              obtain ⟨hiff, ⟨h0, h1⟩ | ⟨h0, h1⟩⟩ := hres
              · have hpushable := hiff.mp h0
                exact Or.inl ⟨h0, h1, fun _ => ⟨hpushable.1, hpushable.2.1⟩⟩
              · exact Or.inr ⟨h0, h1, fun _ hp => absurd (hiff.mpr hp) (by omega)⟩
        refine (hpush.excuse_mono Or.inl).bind ?_
        rintro ⟨res, m'⟩ hres
        rcases hres with ⟨h0, h1, h2⟩ | ⟨h0, h1, h2⟩
        · obtain ⟨hp, hc, -, -⟩ := aorRecordLookup_eq lib r
          obtain ⟨node, hroot, hset⟩ := h1.setFront (y := aorRecordLookup lib r) fun i c hc' => by
            rw [recordCmps_get hc']
            exact aorRecordCmp_alike hp hc i
          dsimp only at h0 hroot hset ⊢
          rw [hroot]
          dsimp only
          rw [if_neg (by omega)]
          exact ⟨_, hset, hmet', Or.inl ⟨r, rfl, h2, rfl⟩⟩
        · dsimp only at h0 h1 ⊢
          have hkept : Pushed lib env indexed n (some r) zs zs :=
            ⟨hmet', Or.inr ⟨rfl, fun hi r' hr' => Option.some.inj hr' ▸ h2 hi⟩⟩
          cases m'.root with
          | none => exact ⟨zs, h1, hkept⟩
          | some node =>
              dsimp only
              rw [if_pos h0]
              exact ⟨zs, h1, hkept⟩

variable (lib env indexed expired id) in
/-- What the turn of contact number `n` makes of the records. -/
def TurnOf (n : ℕ) (c : From) (xs ys : List AorRecord) : Prop :=
  (Erases expired c ∧ ys = []) ∨
    ¬ Erases expired c ∧ ((lib.sought c = none ∧ ys = xs) ∨ ∃ x zs, lib.sought c = some x ∧
      (if expired ≠ -1 then Pured indexed x xs zs else zs = xs) ∧
      Pushed lib env indexed n (aorRecordNew lib env n c expired id) zs ys)

lemma Pushed.length_le {n : ℕ} {add : Option AorRecord} {ys : List AorRecord}
    (h : Pushed lib env indexed n add zs ys) : ys.length ≤ zs.length + 1 := by
  rcases h.2 with ⟨r, -, -, rfl⟩ | ⟨rfl, -⟩
  · simp
  · omega

lemma Pured.length_le {x : AorRecord} (h : Pured indexed x xs zs) : zs.length ≤ xs.length := by
  rcases h with ⟨-, xs₁, y, xs₂, rfl, -, rfl⟩ | ⟨rfl, -⟩
  · simp only [List.length_append, List.length_cons]
    omega
  · exact le_rfl

/-- The part of a turn before `map_push`. -/
lemma pured_records (h : Lists (recordCmps indexed) m xs) (hxs : ∀ y ∈ xs, y.Complete)
    (x : AorRecord) :
    Meets (2 ^ 49 ≤ xs.length ∨ expired ≠ -1 ∧ indexed = true ∧ ∃ y ∈ xs, x.readsNull y = true)
      (fun m' => ∃ zs, Lists (recordCmps indexed) m' zs ∧
        if expired ≠ -1 then Pured indexed x xs zs else zs = xs)
      (if expired ≠ -1 then pureContact m x else pure m) := by
  by_cases he : expired ≠ -1
  · simp only [if_pos he]
    exact (pureContact_records h hxs x).excuse_mono (Or.imp_right fun hread => ⟨he, hread⟩)
  · simp only [if_neg he]
    exact ⟨xs, h, rfl⟩

/-- The turn of a contact with a transport: a record is removed, then one is stored. -/
lemma updateContact_eq {n : ℕ} {c : From} {x : AorRecord} (her : ¬ Erases expired c)
    (hx : lib.sought c = some x) : updateContact lib env expired id m n c =
      (if expired ≠ -1 then pureContact m x else pure m) >>= fun m' =>
        pushRecord lib env n m' (aorRecordNew lib env n c expired id) := by
  rw [Erases] at her
  rw [updateContact, if_neg her]
  rw [AorLib.sought, From.transport, Option.map_eq_some_iff] at hx
  obtain ⟨transport, ht, rfl⟩ := hx
  obtain ⟨url, hurl, ht⟩ := Option.bind_eq_some_iff.mp ht
  rw [hurl]
  dsimp only
  rw [ht]
  dsimp only
  split_ifs <;> rfl

/-- **The turn of a contact.** -/
theorem updateContact_records (h : Lists (recordCmps indexed) m xs) (hxs : ∀ y ∈ xs, y.Complete)
    (n : ℕ) (c : From) {P : AorRecord → Prop} (hP : ∀ y ∈ xs, P y) :
    Meets (2 ^ 49 ≤ xs.length ∨ ¬ Readable lib env indexed expired id P (c, n))
      (fun m' => ∃ ys, Lists (recordCmps indexed) m' ys ∧
        TurnOf lib env indexed expired id n c xs ys)
      (updateContact lib env expired id m n c) := by
  by_cases her : Erases expired c
  · have her' := her
    rw [Erases] at her'
    rw [updateContact, if_pos her']
    refine ((eraseContacts_records h hxs).mono fun m' hm' => ?_).excuse_mono ?_
    · exact ⟨[], hm'.1, Or.inl ⟨her, rfl⟩⟩
    · exact Or.imp_right fun hvalued hread => hvalued fun hi y hy => hread.erase her hi y (hP y hy)
  · rcases hx : lib.sought c with _ | x
    · have her' := her
      rw [Erases] at her'
      rw [updateContact, if_neg her']
      rw [AorLib.sought, From.transport, Option.map_eq_none_iff] at hx
      rcases hurl : c.url with _ | url
      · refine Or.inr fun hr => hr.url.elim her fun hsome => ?_
        rw [hurl] at hsome
        exact absurd hsome (by simp)
      · rw [hurl, Option.bind_some] at hx
        dsimp only
        rw [hx]
        refine ⟨xs, h, Or.inr ⟨her, Or.inl ⟨?_, rfl⟩⟩⟩
        rw [AorLib.sought, From.transport, hurl, Option.bind_some, hx, Option.map_none]
    · rw [updateContact_eq her hx]
      refine ((pured_records h hxs x).excuse_mono ?_).bind ?_
      · rintro (hbig | ⟨he, hi, y, hy, hread⟩)
        · exact Or.inl hbig
        · refine Or.inr fun hr => ?_
          rw [hr.pure her hi he x hx y (hP y hy)] at hread
          exact absurd hread (by simp)
      · rintro m' ⟨zs, hzs, hpured⟩
        have hsub : ∀ y ∈ zs, y ∈ xs := by
          split at hpured
          · exact hpured.subset
          · exact fun y hy => hpured ▸ hy
        have hlen : zs.length ≤ xs.length := by
          split at hpured
          · exact hpured.length_le
          · exact hpured ▸ le_rfl
        refine ((pushRecord_records hzs n (aorRecordNew lib env n c expired id)).mono
          fun m'' hm => ?_).excuse_mono ?_
        · obtain ⟨ys, hys, hpushed⟩ := hm
          exact ⟨ys, hys, Or.inr ⟨her, Or.inr ⟨x, zs, hx, hpured, hpushed⟩⟩⟩
        · rintro (hbig | ⟨r, hr, hi, halloc, y, hy, hread⟩)
          · exact Or.inl (hbig.trans hlen)
          · refine Or.inr fun hread' => ?_
            rw [hread'.push her hi halloc r hr y (hP y (hsub y hy))] at hread
            exact absurd hread (by simp)

lemma TurnOf.length_le {n : ℕ} {c : From} {ys : List AorRecord}
    (h : TurnOf lib env indexed expired id n c xs ys) : ys.length ≤ xs.length + 1 := by
  rcases h with ⟨-, rfl⟩ | ⟨-, ⟨-, rfl⟩ | ⟨x, zs, -, hpured, hpushed⟩⟩
  · simp
  · omega
  · have := hpushed.length_le
    split at hpured
    · have := hpured.length_le
      omega
    · subst hpured
      exact this

/-- **A turn leaves what it did not override and what it stores, and nothing else.** -/
lemma TurnOf.sound {n : ℕ} {c : From} {ys : List AorRecord}
    (h : TurnOf lib env indexed expired id n c xs ys)
    (hxs : indexed = true → xs.Pairwise fun x y => aorRecordCmp x y 0 ≠ 0) :
    ∀ y ∈ ys, (y ∈ xs ∧ ¬ Overrides lib indexed expired c y) ∨
      Accepts lib env indexed expired id (c, n) y := by
  intro y hy
  rcases h with ⟨-, rfl⟩ | ⟨her, ⟨hs, rfl⟩ | ⟨x, zs, hs, hpured, hpushed⟩⟩
  · exact absurd hy (by simp)
  · refine Or.inl ⟨hy, ?_⟩
    rintro (he | ⟨-, -, -, x, hx, -⟩)
    · exact her he
    · rw [hs] at hx
      exact absurd hx (by simp)
  · have hold (hz : y ∈ zs) : y ∈ xs ∧ ¬ Overrides lib indexed expired c y := by
      split at hpured
      · next he =>
        refine ⟨hpured.subset y hz, ?_⟩
        rintro (he | ⟨hi, -, hw, x', hx', h0⟩)
        · exact her he
        · obtain rfl : x = x' := by
            rw [hs] at hx'
            exact Option.some.inj hx'
          have hwx : ¬ x.contact.Wild := by
            obtain ⟨t, -, rfl⟩ := Option.map_eq_some_iff.mp hs
            exact hw
          subst hi
          exact ((hpured.gone hwx (hxs rfl) y).mp hz).2 h0
      · next he =>
        refine ⟨hpured ▸ hz, ?_⟩
        rintro (he' | ⟨-, he', -⟩)
        · exact her he'
        · exact he he'
    rcases hpushed.2 with ⟨r, hr, hstores, rfl⟩ | ⟨rfl, -⟩
    · rcases List.mem_cons.mp hy with rfl | hz
      · exact Or.inr ⟨her, r, hr, hstores, rfl⟩
      · exact Or.inl (hold hz)
    · exact Or.inl (hold hy)

/-! ### All turns of a message -/

variable (lib env indexed expired id) in
/-- What the turns of the contacts `cs`, the last first, make of the records `xs`. -/
def TurnsOf (xs : List AorRecord) : List (From × ℕ) → List AorRecord → Prop
  | [], ys => ys = xs
  | c :: cs, ys => ∃ zs, TurnsOf xs cs zs ∧
      (indexed = true → zs.Pairwise fun x y => aorRecordCmp x y 0 ≠ 0) ∧
      TurnOf lib env indexed expired id c.2 c.1 zs ys

variable (lib env indexed expired id) in
/-- No turn comes to a string that is missing. -/
def AllReadable (xs : List AorRecord) : List (From × ℕ) → Prop
  | [] => True
  | c :: cs => AllReadable xs cs ∧
      Readable lib env indexed expired id (Bound lib env indexed expired id xs cs) c

lemma TurnsOf.length_le {cs : List (From × ℕ)} {ys : List AorRecord}
    (h : TurnsOf lib env indexed expired id xs cs ys) : ys.length ≤ xs.length + cs.length := by
  induction cs generalizing ys with
  | nil => exact h ▸ le_rfl
  | cons c cs ih =>
      obtain ⟨zs, hzs, -, hturn⟩ := h
      have h1 := ih hzs
      have h2 := hturn.length_le
      rw [List.length_cons]
      omega

/-- **The turns leave the records that are to be left, and nothing else.** -/
theorem TurnsOf.sound {cs : List (From × ℕ)} {ys : List AorRecord}
    (h : TurnsOf lib env indexed expired id xs cs ys) :
    ∀ y ∈ ys, Bound lib env indexed expired id xs cs y := by
  induction cs generalizing ys with
  | nil => exact fun y hy => h ▸ hy
  | cons c cs ih =>
      obtain ⟨zs, hzs, hpair, hturn⟩ := h
      intro y hy
      exact (hturn.sound hpair y hy).imp_left fun hold => ⟨ih hzs y hold.1, hold.2⟩

variable (lib env indexed expired id) in
/-- A record that was there or that one of the contacts is stored as. -/
def Offered (xs : List AorRecord) (cs : List (From × ℕ)) (y : AorRecord) : Prop :=
  y ∈ xs ∨ ∃ c ∈ cs, StoredAs lib env indexed expired id c y

lemma StoredAs.complete {c : From × ℕ} {y : AorRecord}
    (h : StoredAs lib env indexed expired id c y) : y.Complete := by
  obtain ⟨r, hr, -, rfl⟩ := h
  obtain ⟨⟨h1, h2, h3, -⟩, x, hx, rfl⟩ := (aorRecordNew_eq_some lib env).mp hr
  obtain ⟨t, -, rfl⟩ := Option.map_eq_some_iff.mp hx
  rw [AorRecord.Complete, (aorRecordLookup_eq lib _).2.1]
  exact ⟨h1, h2, h3⟩

lemma StoredAs.expired_eq {c : From × ℕ} {y : AorRecord}
    (h : StoredAs lib env indexed expired id c y) :
    y.expired = effective lib c.1 expired + env.time := by
  obtain ⟨r, hr, -, rfl⟩ := h
  obtain ⟨-, x, -, rfl⟩ := (aorRecordNew_eq_some lib env).mp hr
  exact (aorRecordLookup_eq lib _).2.2.2

lemma Offered.cons {c : From × ℕ} {cs : List (From × ℕ)} {y : AorRecord}
    (h : Offered lib env indexed expired id xs cs y) :
    Offered lib env indexed expired id xs (c :: cs) y :=
  h.imp_right fun ⟨d, hd, hstored⟩ => ⟨d, List.mem_cons_of_mem _ hd, hstored⟩

/-- What is to be left was offered. -/
lemma Bound.offered {cs : List (From × ℕ)} {y : AorRecord}
    (h : Bound lib env indexed expired id xs cs y) :
    Offered lib env indexed expired id xs cs y := by
  induction cs with
  | nil => exact Or.inl h
  | cons c cs ih =>
      rcases h with ⟨h, -⟩ | ⟨-, hstored⟩
      · exact (ih h).cons
      · exact Or.inr ⟨c, List.mem_cons_self, hstored⟩

lemma Offered.complete {cs : List (From × ℕ)} {y : AorRecord} (hxs : ∀ y ∈ xs, y.Complete)
    (h : Offered lib env indexed expired id xs cs y) : y.Complete := by
  rcases h with h | ⟨c, -, hstored⟩
  · exact hxs y h
  · exact hstored.complete

/-- A contact gives all that a search reads: its scheme, its host and a transport with a value. -/
def From.Given (lib : AorLib) (c : From) : Prop :=
  c.scheme.isSome = true ∧ c.host.isSome = true ∧
    ((c.transport lib).bind GenericParam.gvalue).isSome = true

instance : DecidablePred (From.Given lib) := fun c => inferInstanceAs
  (Decidable (c.scheme.isSome = true ∧ c.host.isSome = true ∧
    ((c.transport lib).bind GenericParam.gvalue).isSome = true))

lemma From.Given.protocol {c : From} (h : c.Given lib) {x : AorRecord}
    (hx : lib.sought c = some x) : x.contact = c ∧ x.protocol.isSome = true := by
  obtain ⟨t, ht, rfl⟩ := Option.map_eq_some_iff.mp hx
  have hvalue := h.2.2
  rw [ht, Option.bind_some] at hvalue
  exact ⟨rfl, hvalue⟩

lemma From.Given.record {n : ℕ} {c : From} (h : c.Given lib) {r : AorRecord}
    (hr : aorRecordNew lib env n c expired id = some r) :
    r.contact = c ∧ r.protocol.isSome = true := by
  obtain ⟨-, x, hx, rfl⟩ := (aorRecordNew_eq_some lib env).mp hr
  obtain ⟨hc, hp⟩ := From.Given.protocol (x := x) h hx
  exact ⟨hc, hp⟩

/-- What is offered gives all that a search reads. -/
lemma Offered.given {cs : List (From × ℕ)} {y : AorRecord}
    (h : Offered lib env indexed expired id xs cs y)
    (hxs : ∀ y ∈ xs, y.Complete ∧ y.protocol.isSome = true) (hcs : ∀ c ∈ cs, c.1.Given lib) :
    y.Complete ∧ y.protocol.isSome = true := by
  refine ⟨h.complete fun y hy => (hxs y hy).1, ?_⟩
  rcases h with hy | ⟨d, hd, r, hr, -, rfl⟩
  · exact (hxs y hy).2
  · rw [(aorRecordLookup_eq lib r).1]
    exact ((hcs d hd).record hr).2

/-- **Contacts that give all come to no missing string.** -/
theorem allReadable_of_given {cs : List (From × ℕ)}
    (hxs : ∀ y ∈ xs, y.Complete ∧ y.protocol.isSome = true) (hcs : ∀ c ∈ cs, c.1.Given lib) :
    AllReadable lib env indexed expired id xs cs := by
  induction cs with
  | nil => trivial
  | cons c cs ih =>
      obtain ⟨hc, hcs⟩ := List.forall_mem_cons.mp hcs
      have hstored (y : AorRecord) (hy : Bound lib env indexed expired id xs cs y) :=
        hy.offered.given hxs hcs
      refine ⟨ih hcs, Or.inr ?_, fun _ _ y hy => (hstored y hy).2, fun _ _ _ x hx y hy => ?_,
        fun _ _ _ r hr y hy => ?_⟩
      · have hscheme := hc.1
        rw [From.scheme] at hscheme
        exact Option.isSome_of_isSome_bind hscheme
      · obtain ⟨hxc, hxp⟩ := hc.protocol hx
        exact readsNull_of_isSome (hxc ▸ hc.1) (hxc ▸ hc.2.1) (hstored y hy).1 hxp (hstored y hy).2
      · obtain ⟨hrc, hrp⟩ := hc.record hr
        exact readsNull_of_isSome (hrc ▸ hc.1) (hrc ▸ hc.2.1) (hstored y hy).1 hrp (hstored y hy).2

lemma Lists.pairwise_of_indexed (h : Lists (recordCmps indexed) m xs) :
    indexed = true → xs.Pairwise fun x y => aorRecordCmp x y 0 ≠ 0 := by
  rintro rfl
  exact h.pairwise_records

/-- **The loop of `aor_update`.** -/
theorem updateContacts_records (h : Lists (recordCmps indexed) m xs)
    (hxs : ∀ y ∈ xs, y.Complete) (cs : List (From × ℕ)) :
    Meets (2 ^ 49 ≤ xs.length + cs.length ∨ ¬ AllReadable lib env indexed expired id xs cs)
      (fun m' => ∃ ys, Lists (recordCmps indexed) m' ys ∧
        TurnsOf lib env indexed expired id xs cs ys)
      (cs.reverse.foldlM
        (fun contact c => updateContact lib env expired id contact c.2 c.1) m) := by
  refine Meets.foldlM_reverse
    (fun cs => 2 ^ 49 ≤ xs.length + cs.length ∨ ¬ AllReadable lib env indexed expired id xs cs)
    (fun cs m' => ∃ ys, Lists (recordCmps indexed) m' ys ∧
      TurnsOf lib env indexed expired id xs cs ys)
    ⟨xs, h, rfl⟩ (fun c cs hexcuse => ?_) (fun c cs m' hm' => ?_) cs
  · rw [List.length_cons]
    rcases hexcuse with hbig | hread
    · exact Or.inl (by omega)
    · exact Or.inr fun hr => hread hr.1
  · obtain ⟨zs, hzs, hturns⟩ := hm'
    have hlen := hturns.length_le
    rw [List.length_cons]
    have hcomplete : ∀ y ∈ zs, y.Complete := fun y hy =>
      (hturns.sound y hy).offered.complete hxs
    refine ((updateContact_records hzs hcomplete c.2 c.1 hturns.sound).excuse_mono ?_).mono ?_
    · rintro (hbig | hread)
      · exact Or.inl (by omega)
      · exact Or.inr fun hr => hread hr.2
    · rintro m'' ⟨ys, hys, hturn⟩
      exact ⟨ys, hys, zs, hturns, hzs.pairwise_of_indexed, hturn⟩

variable (lib env indexed expired id) in
/-- What insertions of the contacts `cs` alone, the last first, make of the records `xs`. -/
def NewOf (xs : List AorRecord) : List (From × ℕ) → List AorRecord → Prop
  | [], ys => ys = xs
  | c :: cs, ys => ∃ zs, NewOf xs cs zs ∧
      Pushed lib env indexed c.2 (aorRecordNew lib env c.2 c.1 expired id) zs ys

variable (lib env indexed expired id) in
/-- No insertion comes to a string that is missing. -/
def NewReadable (xs : List AorRecord) : List (From × ℕ) → Prop
  | [] => True
  | c :: cs => NewReadable xs cs ∧ (indexed = true → (env.recordPush c.2).calloc = true →
      ∀ r, aorRecordNew lib env c.2 c.1 expired id = some r →
        ∀ y, Offered lib env indexed expired id xs cs y → r.readsNull y = false)

lemma NewOf.length_le {cs : List (From × ℕ)} {ys : List AorRecord}
    (h : NewOf lib env indexed expired id xs cs ys) : ys.length ≤ xs.length + cs.length := by
  induction cs generalizing ys with
  | nil => exact h ▸ le_rfl
  | cons c cs ih =>
      obtain ⟨zs, hzs, hpushed⟩ := h
      have h1 := ih hzs
      have h2 := hpushed.length_le
      rw [List.length_cons]
      omega

/-- **Insertions store the contacts that are accepted, and nothing else.** -/
theorem NewOf.sound {cs : List (From × ℕ)} {ys : List AorRecord}
    (h : NewOf lib env indexed expired id xs cs ys) :
    ∀ y ∈ ys, Offered lib env indexed expired id xs cs y := by
  induction cs generalizing ys with
  | nil => exact fun y hy => Or.inl (h ▸ hy)
  | cons c cs ih =>
      obtain ⟨zs, hzs, hpushed⟩ := h
      intro y hy
      rcases hpushed.2 with ⟨r, hr, hstores, rfl⟩ | ⟨rfl, -⟩
      · rcases List.mem_cons.mp hy with rfl | hz
        · exact Or.inr ⟨c, List.mem_cons_self, r, hr, hstores, rfl⟩
        · exact (ih hzs y hz).cons
      · exact (ih hzs y hy).cons

/-- **Nor do they for a new address.** -/
theorem newReadable_of_given {cs : List (From × ℕ)} (hcs : ∀ c ∈ cs, c.1.Given lib) :
    NewReadable lib env indexed expired id [] cs := by
  induction cs with
  | nil => trivial
  | cons c cs ih =>
      obtain ⟨hc, hcs⟩ := List.forall_mem_cons.mp hcs
      refine ⟨ih hcs, fun _ _ r hr y hy => ?_⟩
      obtain ⟨hrc, hrp⟩ := hc.record hr
      obtain ⟨hyc, hyp⟩ := hy.given (by simp) hcs
      exact readsNull_of_isSome (hrc ▸ hc.1) (hrc ▸ hc.2.1) hyc hrp hyp

/-- **The loop of `aor_new`.** -/
theorem newContacts_records (cs : List (From × ℕ)) :
    Meets (2 ^ 49 ≤ cs.length ∨ ¬ NewReadable lib env indexed expired id [] cs)
      (fun m' => ∃ ys, Lists (recordCmps indexed) m' ys ∧
        NewOf lib env indexed expired id [] cs ys)
      (cs.reverse.foldlM
        (fun contact c => pushRecord lib env c.2 contact
          (aorRecordNew lib env c.2 c.1 expired id))
        (mapNew default 0 (recordCmps indexed))) := by
  have hempty : Lists (recordCmps indexed) (mapNew default 0 (recordCmps indexed)) [] := by
    refine ⟨[], MapInv.new _ _ fun i c hc => ?_, rfl⟩
    rw [recordCmps_get hc]
    exact ⟨fun x y => aorRecordCmp_comparator.swap x y,
      fun x y z => aorRecordCmp_comparator.lt_trans x y z⟩
  refine Meets.foldlM_reverse
    (fun cs => 2 ^ 49 ≤ cs.length ∨ ¬ NewReadable lib env indexed expired id [] cs)
    (fun cs m' => ∃ ys, Lists (recordCmps indexed) m' ys ∧
      NewOf lib env indexed expired id [] cs ys)
    ⟨[], hempty, rfl⟩ (fun c cs hexcuse => ?_) (fun c cs m' hm' => ?_) cs
  · rw [List.length_cons]
    rcases hexcuse with hbig | hread
    · exact Or.inl (by omega)
    · exact Or.inr fun hr => hread hr.1
  · obtain ⟨zs, hzs, hnew⟩ := hm'
    have hlen := hnew.length_le
    rw [List.length_nil] at hlen
    rw [List.length_cons]
    refine ((pushRecord_records hzs c.2 _).excuse_mono ?_).mono ?_
    · rintro (hbig | ⟨r, hr, hi, halloc, y, hy, hnull⟩)
      · exact Or.inl (by omega)
      · refine Or.inr fun hread => ?_
        rw [hread.2 hi halloc r hr y (hnew.sound y hy)] at hnull
        exact absurd hnull (by simp)
    · rintro m'' ⟨ys, hys, hpushed⟩
      exact ⟨ys, hys, zs, hnew, hpushed⟩

/-! ### What the records keep -/

/-- **The invariant of the records**: each is complete; and one without a transport value is
alone, since it was not compared with another. -/
structure RecordsInv (indexed : Bool) (xs : List AorRecord) : Prop where
  complete : ∀ y ∈ xs, y.Complete
  alone : indexed = true → ∀ y ∈ xs, y.protocol = none → xs = [y]

namespace RecordsInv

variable {ys : List AorRecord}

lemma nil (indexed : Bool) : RecordsInv indexed [] := ⟨by simp, by simp⟩

lemma pured (h : RecordsInv indexed xs) {x : AorRecord} (hp : Pured indexed x xs zs) :
    RecordsInv indexed zs := by
  rcases hp with ⟨hi, xs₁, y, xs₂, rfl, -, rfl⟩ | ⟨rfl, -⟩
  · have hsub (z : AorRecord) (hz : z ∈ xs₁ ++ xs₂) : z ∈ xs₁ ++ y :: xs₂ := by
      simp only [List.mem_append, List.mem_cons] at hz ⊢
      tauto
    refine ⟨fun z hz => h.complete z (hsub z hz), fun _ z hz hnone => ?_⟩
    have halone := congrArg List.length (h.alone hi z (hsub z hz) hnone)
    have hpos := List.length_pos_of_mem hz
    simp only [List.length_append, List.length_cons, List.length_nil] at halone hpos
    omega
  · exact h

lemma pushed (h : RecordsInv indexed zs) {n : ℕ} {c : From}
    (hp : Pushed lib env indexed n (aorRecordNew lib env n c expired id) zs ys) :
    RecordsInv indexed ys := by
  obtain ⟨hmet, ⟨r, hr, hstores, rfl⟩ | ⟨rfl, -⟩⟩ := hp
  · have hstored : StoredAs lib env indexed expired id (c, n) (aorRecordLookup lib r) :=
      ⟨r, hr, hstores, rfl⟩
    have hcomplete := hstored.complete
    refine ⟨List.forall_mem_cons.mpr ⟨hcomplete, h.complete⟩, fun hi y hy hnone => ?_⟩
    have hmet := hmet r hr hi (hstores hi).1
    rcases zs with _ | ⟨z, zs⟩
    · rw [List.mem_singleton] at hy
      rw [hy]
    · -- the new record was compared with a stored one, and both have a value
      obtain ⟨w, hw, hread⟩ := hmet (by simp)
      obtain ⟨hr1, hw1⟩ := readsNull_protocol hread
      refine absurd hnone (Option.isSome_iff_ne_none.mp ?_)
      rcases List.mem_cons.mp hy with rfl | hy
      · rwa [(aorRecordLookup_eq lib r).1]
      · by_contra hy1
        rw [Option.not_isSome_iff_eq_none] at hy1
        rw [h.alone hi y hy hy1, List.mem_singleton] at hw
        rw [hw, hy1] at hw1
        exact absurd hw1 (by simp)
  · exact h

/-- **A turn keeps the invariant.** -/
theorem turn (h : RecordsInv indexed xs) {n : ℕ} {c : From}
    (ht : TurnOf lib env indexed expired id n c xs ys) : RecordsInv indexed ys := by
  rcases ht with ⟨-, rfl⟩ | ⟨-, ⟨-, rfl⟩ | ⟨x, zs, -, hpured, hpushed⟩⟩
  · exact nil indexed
  · exact h
  · split at hpured
    · exact (h.pured hpured).pushed hpushed
    · exact pushed (hpured ▸ h) hpushed

lemma turns (h : RecordsInv indexed xs) {cs : List (From × ℕ)}
    (ht : TurnsOf lib env indexed expired id xs cs ys) : RecordsInv indexed ys := by
  induction cs generalizing ys with
  | nil => exact ht ▸ h
  | cons c cs ih =>
      obtain ⟨zs, hzs, -, hturn⟩ := ht
      exact (ih hzs).turn hturn

lemma new (h : RecordsInv indexed xs) {cs : List (From × ℕ)}
    (hn : NewOf lib env indexed expired id xs cs ys) : RecordsInv indexed ys := by
  induction cs generalizing ys with
  | nil => exact hn ▸ h
  | cons c cs ih =>
      obtain ⟨zs, hzs, hpushed⟩ := hn
      exact (ih hzs).pushed hpushed

end RecordsInv

end Turns

/-! ### The map of contacts -/

/-- A map of contacts has its index. -/
def Map.indexed {α : Type} (m : Map α) : Bool := !m.key.isEmpty

/-- **The invariant of a map of contacts.** -/
structure ContactsInv (m : Map AorRecord) : Prop where
  lists : Lists (recordCmps m.indexed) m m.items
  records : RecordsInv m.indexed m.items

lemma Lists.self {indexed : Bool} {m : Map AorRecord} {xs : List AorRecord}
    (h : Lists (recordCmps indexed) m xs) : m.indexed = indexed ∧ m.items = xs := by
  refine ⟨?_, h.items_eq⟩
  have hcmps := congrArg List.isEmpty h.cmps_eq
  rw [List.isEmpty_map] at hcmps
  rw [Map.indexed, hcmps]
  cases indexed <;> rfl

lemma ContactsInv.of_lists {indexed : Bool} {m : Map AorRecord} {xs : List AorRecord}
    (h : Lists (recordCmps indexed) m xs) (hxs : RecordsInv indexed xs) : ContactsInv m := by
  obtain ⟨rfl, rfl⟩ := h.self
  exact ⟨h, hxs⟩

end SipEcho
