import SipEcho.Sip.Contacts

/-!
The store of the addresses of record with their contacts, over everything that happens to it: the
addresses of the configuration, registrations and calls, and the answers of the name server.

* `aorRecordLookupCallback`, `AorEvent`, `aorEvent`, `aorEvents`: what happens;
* `aorUpdate_updates`, `aorUpdate_creates`, `aorUpdate_otherwise`: the three cases of `aor_update`;
* `Registrar`: **the invariant of the store**, and `Evolves`: what an event makes of the contacts
  of one address;
* `Registrar.step`, `Registrar.run`: every event keeps it.

Nothing takes an address out of the store, so that its node is what it is known by.
-/

namespace SipEcho

open Lib

/-! ### Events -/

/-- `aor_record_lookup_callback`, for a copy of the name and of the record. The protocol of the copy
points into the stored record, which may be freed by then, so that it may be any string. -/
def aorRecordLookupCallback (aors : Map Aor) (name : From) (preferred : AorRecord)
    (address : Option Str) : Except Fault (Map Aor) :=
  match address with
  | none => return aors
  | some address =>
      match mapSearch aors (Aor.key name) 0 with
      | none => return aors
      | some node =>
          let aor := (aors.heap node).item
          if comparesNull aor.contact preferred then throw .crash
          else
            match mapSearch aor.contact preferred 0 with
            | none => return aors
            | some record =>
                let r := (aor.contact.heap record).item
                let route := r.contact.url.map fun url => { url with host := some address }
                return aors.setItem node
                  { aor with contact := aor.contact.setItem record { r with route } }

/-- What happens to the store. -/
inductive AorEvent where
  | call (op : AorOp)
  /-- `aor_record_lookup_callback` -/
  | resolved (name : From) (preferred : AorRecord) (address : Option Str)

/-- What an event leaves of the store. -/
def aorEvent (lib : AorLib) (aors : Map Aor) : AorEvent → Except Fault (Map Aor)
  | .call op => aorStep lib aors op
  | .resolved name preferred address => aorRecordLookupCallback aors name preferred address

def aorEvents (lib : AorLib) (aors : Map Aor) : List AorEvent → Except Fault (Map Aor)
  | [] => return aors
  | ev :: evs => do aorEvents lib (← aorEvent lib aors ev) evs

/-- The contacts an event brings, and one. -/
def AorEvent.weight : AorEvent → ℕ
  | .call (.push ..) => 2
  | .call (.update _ m _ _) => m.contacts.length + 1
  | .resolved .. => 1

/-! ### The cases of `aor_update` -/

section Update

variable (lib : AorLib) (env : AorEnv)

/-- The expiry of a message, which the header sets, if there is one. -/
def AorLib.expiry (m : Message) (expired : ℤ) : ℤ :=
  if expired ≠ -1 then valueOr (lib.getExpires m) expired else expired

/-- `aor_update` finds the address of the sender, and it is no wildcard. -/
def Updates (aors : Map Aor) (m : Message) (a : ℕ) : Prop :=
  ∃ name, m.from_ = some name ∧ name.named = true ∧ mapSearch aors (Aor.key name) 0 = some a ∧
    ¬ (aors.heap a).item.name.Wild

/-- `aor_update` makes an address for the sender. -/
def Creates (aors : Map Aor) (m : Message) (name : From) : Prop :=
  m.from_ = some name ∧ name.named = true ∧ mapSearch aors (Aor.key name) 0 = none

variable {lib env} {aors : Map Aor} {m : Message}

lemma Updates.unique {a b : ℕ} (ha : Updates aors m a) (hb : Updates aors m b) : a = b := by
  obtain ⟨name, h1, -, h2, -⟩ := ha
  obtain ⟨name', h1', -, h2', -⟩ := hb
  obtain rfl := Option.some.inj (h1.symm.trans h1')
  exact Option.some.inj (h2.symm.trans h2')

lemma aorUpdate_updates {a : ℕ} (h : Updates aors m a) (expired id : ℤ) :
    aorUpdate lib env aors m expired id =
      m.contacts.zipIdx.reverse.foldlM
        (fun contact c => updateContact lib env (lib.expiry m expired) id contact c.2 c.1)
        (aors.heap a).item.contact >>= fun contact =>
      .ok (some a, aors.setItem a
        { name := (aors.heap a).item.name
          expired := if lib.expiry m expired ≠ -1 then lib.expiry m expired + env.time
            else (aors.heap a).item.expired
          contact }) := by
  obtain ⟨name, hfrom, hnamed, hsearch, hwild⟩ := h
  rw [From.Wild] at hwild
  have hexp : lib.expiry m expired =
      if expired ≠ -1 then valueOr (lib.getExpires m) expired else expired := rfl
  rw [aorUpdate, hfrom]
  dsimp only
  rw [if_pos hnamed, ← hexp, hsearch]
  dsimp only
  rw [if_neg hwild]
  refine bind_congr fun contact => ?_
  split <;> rfl

lemma aorUpdate_creates {name : From} (h : Creates aors m name) (expired id : ℤ) :
    aorUpdate lib env aors m expired id =
      aorNew lib env name m.contacts (lib.expiry m expired) id >>= fun aor =>
      mapPush env.push aors aor >>= fun res =>
      if res.1 = 0 then .ok (res.2.root, res.2)
      else aorDelete aor >>= fun _ => .ok (none, res.2) := by
  obtain ⟨hfrom, hnamed, hsearch⟩ := h
  have hexp : lib.expiry m expired =
      if expired ≠ -1 then valueOr (lib.getExpires m) expired else expired := rfl
  rw [aorUpdate, hfrom]
  dsimp only
  rw [if_pos hnamed, ← hexp, hsearch]
  refine bind_congr fun aor => bind_congr fun res => ?_
  split <;> rfl

lemma aorUpdate_otherwise (hu : ∀ a, ¬ Updates aors m a) (hc : ∀ name, ¬ Creates aors m name)
    (expired id : ℤ) : aorUpdate lib env aors m expired id = .ok (none, aors) := by
  rw [aorUpdate]
  cases hfrom : m.from_ with
  | none => rfl
  | some name =>
      dsimp only
      split
      · next hnamed =>
        cases hsearch : mapSearch aors (Aor.key name) 0 with
        | none => exact absurd ⟨hfrom, hnamed, hsearch⟩ (hc name)
        | some a =>
            dsimp only
            split
            · rfl
            · next hwild => exact absurd ⟨name, hfrom, hnamed, hsearch, hwild⟩ (hu a)
      · rfl

variable (lib env) in
/-- **`aor_new`.** -/
lemma aorNew_records (name : From) (contacts : List From) (expired id : ℤ) :
    Meets (2 ^ 49 ≤ contacts.length ∨ env.aorNew = true ∧
        ¬ NewReadable lib env env.addKey expired id [] contacts.zipIdx)
      (fun res => ∀ aor, res = some aor → env.aorNew = true ∧ aor.name = name ∧ name.named = true ∧
        aor.expired = expired + env.time ∧ ∃ ys, Lists (recordCmps env.addKey) aor.contact ys ∧
        NewOf lib env env.addKey expired id [] contacts.zipIdx ys)
      (aorNew lib env name contacts expired id) := by
  rw [aorNew]
  split
  · next h =>
    rw [Bool.and_eq_true] at h
    refine ((newContacts_records contacts.zipIdx).excuse_mono ?_).bind ?_
    · rw [List.length_zipIdx]
      exact Or.imp_right fun hread => ⟨h.2, hread⟩
    · rintro contact ⟨ys, hys, hnew⟩ aor haor
      obtain rfl := Option.some.inj haor
      exact ⟨h.2, rfl, h.1, rfl, ys, hys, hnew⟩
  · rintro aor haor
    exact absurd haor (by simp)

/-- **`aor_delete`**: the contacts are erased. -/
lemma aorDelete_records {aor : Aor} {indexed : Bool} {ys : List AorRecord}
    (h : Lists (recordCmps indexed) aor.contact ys) (hys : ∀ y ∈ ys, y.Complete) :
    Meets (2 ^ 49 ≤ ys.length ∨ ¬ Valued indexed ys) (fun _ => Valued indexed ys)
      (aorDelete (some aor)) :=
  (eraseContacts_records h hys).bind fun _ hres => hres.2

/-- There is memory to store a new address. -/
def AorEnv.Keeps (env : AorEnv) : Prop :=
  env.push.calloc = true ∧ env.push.malloc 0 = true

variable (lib env) in
/-- A new address with the contacts `cs` can be deleted again: the transports of the records that it
may have been made with have values. -/
def Deletable (expired id : ℤ) (cs : List (From × ℕ)) : Prop :=
  env.addKey = true → ∀ y, Offered lib env env.addKey expired id [] cs y →
    y.protocol.isSome = true

variable {expired id : ℤ} {cs : List (From × ℕ)} {ys : List AorRecord}

lemma Deletable.valued (h : Deletable lib env expired id cs)
    (hnew : NewOf lib env env.addKey expired id [] cs ys) : Valued env.addKey ys :=
  fun hi y hy => h hi y (hnew.sound y hy)

lemma NewOf.complete (hnew : NewOf lib env env.addKey expired id [] cs ys) :
    ∀ y ∈ ys, y.Complete :=
  ((RecordsInv.nil env.addKey).new hnew).complete

end Update

/-! ### The invariant -/

/-- **The invariant of the store**: a map of complete names over `aor_cmp`, each with a map of
contacts that keeps its own; `w` bounds how many there are. -/
structure Registrar (w : ℕ) (aors : Map Aor) (l : List ℕ) : Prop where
  store : AorInv aors l
  contacts : ∀ a ∈ l, ContactsInv (aors.heap a).item.contact
  names_le : l.length ≤ w
  records_le : ∀ a ∈ l, (aors.heap a).item.contact.items.length ≤ w

/-- A record without its route. -/
def AorRecord.unrouted (y : AorRecord) : AorRecord := { y with route := none }

/-- **What an event makes of the records of the address `a`**: nothing; the turns of a message from
that address; or new routes. -/
def Evolves (lib : AorLib) (aors : Map Aor) (a : ℕ) (ev : AorEvent) (xs ys : List AorRecord) :
    Prop :=
  ys = xs ∨
    (∃ env m expired id, ev = .call (.update env m expired id) ∧ Updates aors m a ∧
      TurnsOf lib env (aors.heap a).item.contact.indexed (lib.expiry m expired) id xs
        m.contacts.zipIdx ys) ∨
    ys.map AorRecord.unrouted = xs.map AorRecord.unrouted

/-- What an event leaves of the address `a`. -/
structure Continues (lib : AorLib) (aors : Map Aor) (ev : AorEvent) (aors' : Map Aor) (a : ℕ) :
    Prop where
  name_eq : (aors'.heap a).item.name = (aors.heap a).item.name
  indexed_eq : (aors'.heap a).item.contact.indexed = (aors.heap a).item.contact.indexed
  evolves : Evolves lib aors a ev (aors.heap a).item.contact.items
    (aors'.heap a).item.contact.items

/-- The event comes to no string that is missing; not even where a new address is deleted, since it
is not stored. -/
def AorEvent.Defined (lib : AorLib) (aors : Map Aor) : AorEvent → Prop
  | .call (.push env name route) => env.aorNew = true →
      (env.Keeps ∧ mapSearch aors (Aor.key (lib.parse name)) 0 = none) ∨
        Deletable lib env (3600 * 24 * 365) 0 [(lib.parse route, 0)]
  | .call (.update env m expired id) =>
      (∀ a, Updates aors m a →
        AllReadable lib env (aors.heap a).item.contact.indexed (lib.expiry m expired) id
          (aors.heap a).item.contact.items m.contacts.zipIdx) ∧
      ∀ name, Creates aors m name → env.aorNew = true →
        NewReadable lib env env.addKey (lib.expiry m expired) id [] m.contacts.zipIdx ∧
          (env.Keeps ∨ Deletable lib env (lib.expiry m expired) id m.contacts.zipIdx)
  | .resolved name preferred _ => ∀ a, mapSearch aors (Aor.key name) 0 = some a →
      ∀ y ∈ (aors.heap a).item.contact.items, preferred.readsNull y = false

/-- What `map_push` of a new address returns. -/
lemma AorInv.push_ret {aors : Map Aor} {l : List ℕ} (h : AorInv aors l) (alloc : Alloc) (x : Aor) :
    Meets (2 ^ 49 ≤ l.length)
      (fun res => res.1 = 0 ↔
        alloc.calloc = true ∧ alloc.malloc 0 = true ∧ mapSearch aors x 0 = none)
      (mapPush alloc aors (some x)) := by
  have hholds : Holds aorCmp aors (l.map fun a => (aors.heap a).item) := ⟨l, h.inv, rfl⟩
  obtain ⟨hsome, hnone⟩ := h.inv.search (i := 0) (c := aorCmp) rfl x
  refine ((hholds.push alloc x).mono fun res hres => ?_).excuse_mono fun hbig => ?_
  · rw [hres.1, Holds.Pushable, List.forall_mem_map]
    refine and_congr_right fun _ => and_congr_right fun _ => ⟨fun hne => ?_, hnone⟩
    cases hs : mapSearch aors x 0 with
    | none => rfl
    | some a => exact absurd (hsome a hs).2 (hne a (hsome a hs).1)
  · rwa [List.length_map] at hbig

namespace Registrar

variable {lib : AorLib} {env : AorEnv} {w : ℕ} {aors : Map Aor} {l : List ℕ}

/-- A search for an address is one for its name. -/
lemma search_key (h : Registrar w aors l) (x : Aor) :
    mapSearch aors x 0 = mapSearch aors (Aor.key x.name) 0 := by
  obtain ⟨k, hk, hcmp, -⟩ := h.store.inv.index (i := 0) (c := aorCmp) rfl
  rw [mapSearch, mapSearch, hk]
  dsimp only
  rw [hcmp]
  rfl

lemma init : Registrar 0 aorInit [] :=
  ⟨AorInv.init, by simp, by simp, by simp⟩

lemma mono (h : Registrar w aors l) {w' : ℕ} (hw : w ≤ w') : Registrar w' aors l :=
  ⟨h.store, h.contacts, h.names_le.trans hw, fun a ha => (h.records_le a ha).trans hw⟩

/-- The search for a name finds a node of the store. -/
lemma search_mem (h : Registrar w aors l) {name : From} {a : ℕ}
    (hs : mapSearch aors (Aor.key name) 0 = some a) : a ∈ l :=
  h.store.inv.search_mem hs

lemma updates_mem (h : Registrar w aors l) {m : Message} {a : ℕ} (hu : Updates aors m a) :
    a ∈ l := by
  obtain ⟨name, -, -, hs, -⟩ := hu
  exact h.search_mem hs

/-- The contacts of one address change. -/
lemma setItem (h : Registrar w aors l) {a : ℕ} {aor : Aor}
    (hname : aor.name = (aors.heap a).item.name) (hcontact : ContactsInv aor.contact)
    (hlen : aor.contact.items.length ≤ w) : Registrar w (aors.setItem a aor) l where
  store := h.store.setItem hname
  contacts := by
    intro b hb
    rw [Map.setItem_item]
    split
    · exact hcontact
    · exact h.contacts b hb
  names_le := h.names_le
  records_le := by
    intro b hb
    rw [Map.setItem_item]
    split
    · exact hlen
    · exact h.records_le b hb

/-- What a change of the contacts of one address leaves of every address. -/
lemma continues_setItem {ev : AorEvent} {a : ℕ} {aor : Aor}
    (hname : aor.name = (aors.heap a).item.name)
    (hindexed : aor.contact.indexed = (aors.heap a).item.contact.indexed)
    (hev : Evolves lib aors a ev (aors.heap a).item.contact.items aor.contact.items) (b : ℕ) :
    Continues lib aors ev (aors.setItem a aor) b := by
  by_cases hb : b = a
  · subst hb
    refine ⟨?_, ?_, ?_⟩
    · rw [Map.setItem_item, if_pos rfl, hname]
    · rw [Map.setItem_item, if_pos rfl, hindexed]
    · rw [Map.setItem_item, if_pos rfl]
      exact hev
  · refine ⟨?_, ?_, Or.inl ?_⟩
    · rw [Map.setItem_item, if_neg hb]
    · rw [Map.setItem_item, if_neg hb]
    · rw [Map.setItem_item, if_neg hb]

/-- A new address is put in front of the others. -/
lemma push (h : Registrar w aors l) (alloc : Alloc) {aor : Option Aor}
    (haor : ∀ a, aor = some a → a.name.named = true ∧ ContactsInv a.contact ∧
      a.contact.items.length ≤ w) :
    Meets (2 ^ 49 ≤ w)
      (fun res => (∀ a ∈ l, (res.2.heap a).item = (aors.heap a).item) ∧
        ((∃ x, aor = some x ∧ res.1 = 0 ∧ res.2.root = some aors.next ∧
          (res.2.heap aors.next).item = x ∧ Registrar (w + 1) res.2 (aors.next :: l)) ∨
          res.1 = -1 ∧ Registrar w res.2 l ∧ ∀ x, aor = some x →
            ¬ (alloc.calloc = true ∧ alloc.malloc 0 = true ∧ mapSearch aors x 0 = none)))
      (mapPush alloc aors aor) := by
  cases aor with
  | none => exact ⟨fun a _ => rfl, Or.inr ⟨rfl, h, fun x hx => absurd hx (by simp)⟩⟩
  | some x =>
      refine (((h.store.inv.push alloc x).and (h.store.push_ret alloc x)).mono ?_).excuse_mono
        fun hbig => hbig.trans h.names_le
      rintro ⟨res, aors'⟩ ⟨⟨hkeep, hres⟩, hret⟩
      obtain ⟨hnamed, hcontact, hlen⟩ := haor x rfl
      have hold : ∀ a ∈ l, (aors'.heap a).item.name.named = true := fun a ha => by
        rw [hkeep a ha]
        exact h.store.named a ha
      refine ⟨hkeep, ?_⟩
      rcases hres with ⟨h0, hitem, hinv⟩ | ⟨h1, hinv⟩
      · dsimp only at h0 hitem hinv ⊢
        refine Or.inl ⟨x, rfl, h0, hinv.listed.root_eq, hitem, ⟨hinv, ?_⟩, ?_, ?_, ?_⟩
        · refine List.forall_mem_cons.mpr ⟨?_, hold⟩
          rw [hitem, hnamed]
        · refine List.forall_mem_cons.mpr ⟨?_, fun a ha => ?_⟩
          · rw [hitem]
            exact hcontact
          · rw [hkeep a ha]
            exact h.contacts a ha
        · have := h.names_le
          rw [List.length_cons]
          omega
        · refine List.forall_mem_cons.mpr ⟨?_, fun a ha => ?_⟩
          · rw [hitem]
            omega
          · rw [hkeep a ha]
            exact (h.records_le a ha).trans (by omega)
      · refine Or.inr ⟨h1, ⟨⟨hinv, hold⟩, fun a ha => ?_, h.names_le, fun a ha => ?_⟩,
          fun y hy hfits => ?_⟩
        · rw [hkeep a ha]
          exact h.contacts a ha
        · rw [hkeep a ha]
          exact h.records_le a ha
        · obtain rfl := Option.some.inj hy
          have h0 := hret.mpr hfits
          omega

/-! ### Calls -/

variable {m : Message} {expired id : ℤ}

variable (lib env expired id) in
/-- **`aor_update` of an address that is known.** -/
theorem updates (h : Registrar w aors l) {a : ℕ} (hu : Updates aors m a) :
    Meets (2 ^ 49 ≤ w + m.contacts.length ∨
        ¬ AllReadable lib env (aors.heap a).item.contact.indexed (lib.expiry m expired) id
          (aors.heap a).item.contact.items m.contacts.zipIdx)
      (fun res => res.1 = some a ∧ ∃ contact,
        Lists (recordCmps (aors.heap a).item.contact.indexed) contact contact.items ∧
        TurnsOf lib env (aors.heap a).item.contact.indexed (lib.expiry m expired) id
          (aors.heap a).item.contact.items m.contacts.zipIdx contact.items ∧
        res.2 = aors.setItem a
          { name := (aors.heap a).item.name
            expired := if lib.expiry m expired ≠ -1 then lib.expiry m expired + env.time
              else (aors.heap a).item.expired
            contact })
      (aorUpdate lib env aors m expired id) := by
  have ha := h.updates_mem hu
  rw [aorUpdate_updates hu]
  have hinv := h.contacts a ha
  refine ((updateContacts_records hinv.lists hinv.records.complete
    m.contacts.zipIdx).excuse_mono ?_).bind ?_
  · rw [List.length_zipIdx]
    rintro (hbig | hread)
    · have := h.records_le a ha
      exact Or.inl (by omega)
    · exact Or.inr hread
  · rintro contact ⟨ys, hys, hturns⟩
    obtain rfl := hys.items_eq
    exact ⟨rfl, contact, hys, hturns, rfl⟩

variable (lib env expired id) in
/-- **`aor_update` of an address that is not.** -/
theorem creates (h : Registrar w aors l) {name : From} (hc : Creates aors m name) :
    Meets (2 ^ 49 ≤ w + m.contacts.length ∨ env.aorNew = true ∧
        ¬ (NewReadable lib env env.addKey (lib.expiry m expired) id [] m.contacts.zipIdx ∧
          (env.Keeps ∨ Deletable lib env (lib.expiry m expired) id m.contacts.zipIdx)))
      (fun res => (∀ a ∈ l, (res.2.heap a).item = (aors.heap a).item) ∧
        ((∃ x ys, res.1 = some aors.next ∧ (res.2.heap aors.next).item = x ∧ x.name = name ∧
          x.expired = lib.expiry m expired + env.time ∧
          Lists (recordCmps env.addKey) x.contact ys ∧
          NewOf lib env env.addKey (lib.expiry m expired) id [] m.contacts.zipIdx ys ∧
          Registrar (w + (m.contacts.length + 1)) res.2 (aors.next :: l)) ∨
          res.1 = none ∧ Registrar (w + (m.contacts.length + 1)) res.2 l))
      (aorUpdate lib env aors m expired id) := by
  rw [aorUpdate_creates hc]
  refine ((aorNew_records lib env name m.contacts (lib.expiry m expired) id).excuse_mono ?_).bind ?_
  · rintro (hbig | ⟨hnew, hread⟩)
    · exact Or.inl (by omega)
    · exact Or.inr ⟨hnew, fun hd => hread hd.1⟩
  · intro aor haor
    have hgood : ∀ x, aor = some x → x.name.named = true ∧ ContactsInv x.contact ∧
        x.contact.items.length ≤ w + m.contacts.length := fun x hx => by
      obtain ⟨-, hname, hnamed, -, ys, hys, hnew⟩ := haor x hx
      refine ⟨hname ▸ hnamed, .of_lists hys ((RecordsInv.nil _).new hnew), ?_⟩
      have hlen := hnew.length_le
      rw [List.length_zipIdx, List.length_nil] at hlen
      rw [hys.items_eq]
      omega
    refine (((h.mono (Nat.le_add_right w m.contacts.length)).push env.push hgood).excuse_mono
      Or.inl).bind ?_
    rintro ⟨pushed, aors'⟩ ⟨hkeep, hres⟩
    rcases hres with ⟨x, hx, h0, hroot, hitem, hreg⟩ | ⟨h1, hreg, hfits⟩
    · obtain ⟨-, hname, -, hexp, ys, hys, hnew⟩ := haor x hx
      dsimp only at h0 hroot hitem hreg ⊢
      rw [if_pos h0]
      exact ⟨hkeep, Or.inl ⟨x, ys, hroot, hitem, hname, hexp, hys, hnew, hreg⟩⟩
    · dsimp only at h1 hreg ⊢
      rw [if_neg (by omega)]
      refine Meets.bind (P := fun _ => True) ?_ fun _ _ =>
        ⟨hkeep, Or.inr ⟨rfl, hreg.mono (by omega)⟩⟩
      cases aor with
      | none => trivial
      | some x =>
          obtain ⟨hnewable, hname, -, -, ys, hys, hnew⟩ := haor x rfl
          have hlen := hnew.length_le
          rw [List.length_zipIdx, List.length_nil] at hlen
          refine ((aorDelete_records hys hnew.complete).mono fun _ _ => trivial).excuse_mono ?_
          rintro (hbig | hvalued)
          · exact Or.inl (by omega)
          · refine Or.inr ⟨hnewable, ?_⟩
            rintro ⟨-, ⟨hcalloc, hmalloc⟩ | hdeletable⟩
            · obtain ⟨-, -, hsearch⟩ := hc
              refine hfits x rfl ⟨hcalloc, hmalloc, ?_⟩
              rw [h.search_key, hname, hsearch]
            · exact hvalued (hdeletable.valued hnew)

/-- What a step leaves: the store with its addresses, each as the event makes it. -/
def Steps (lib : AorLib) (w : ℕ) (aors : Map Aor) (l : List ℕ) (ev : AorEvent) (aors' : Map Aor) :
    Prop :=
  ∃ l', Registrar (w + ev.weight) aors' l' ∧ ∀ a ∈ l, a ∈ l' ∧ Continues lib aors ev aors' a

lemma steps_of_items {ev : AorEvent} {aors' : Map Aor} {l' : List ℕ}
    (h : Registrar (w + ev.weight) aors' l') (hsub : ∀ a ∈ l, a ∈ l')
    (hkeep : ∀ a ∈ l, (aors'.heap a).item = (aors.heap a).item) : Steps lib w aors l ev aors' :=
  ⟨l', h, fun a ha => ⟨hsub a ha, by rw [hkeep a ha], by rw [hkeep a ha], Or.inl (by
    rw [hkeep a ha])⟩⟩

/-- **`aor_update`.** -/
theorem update (h : Registrar w aors l) :
    Meets (2 ^ 49 ≤ w + (m.contacts.length + 1) ∨
        ¬ (AorEvent.call (.update env m expired id)).Defined lib aors)
      (fun res => Steps lib w aors l (.call (.update env m expired id)) res.2)
      (aorUpdate lib env aors m expired id) := by
  by_cases hu : ∃ a, Updates aors m a
  · obtain ⟨a, hu⟩ := hu
    refine ((h.updates lib env expired id hu).mono ?_).excuse_mono ?_
    · rintro res ⟨-, contact, hlists, hturns, hres⟩
      have ha := h.updates_mem hu
      have hlen := hturns.length_le
      rw [List.length_zipIdx] at hlen
      have hle := h.records_le a ha
      rw [hres]
      refine ⟨l, (h.mono (Nat.le_add_right w _)).setItem rfl
        (.of_lists hlists ((h.contacts a ha).records.turns hturns)) ?_, fun b hb => ⟨hb, ?_⟩⟩
      · show contact.items.length ≤ w + (m.contacts.length + 1)
        omega
      · refine continues_setItem ?_ ?_ ?_ b
        · rfl
        · exact hlists.self.1
        · exact Or.inr (Or.inl ⟨env, m, expired, id, rfl, hu, hturns⟩)
    · rintro (hbig | hread)
      · exact Or.inl (by omega)
      · exact Or.inr fun hd => hread (hd.1 a hu)
  · by_cases hc : ∃ name, Creates aors m name
    · obtain ⟨name, hc⟩ := hc
      refine ((h.creates lib env expired id hc).mono ?_).excuse_mono ?_
      · rintro res ⟨hkeep, ⟨x, ys, -, -, -, -, -, -, hreg⟩ | ⟨-, hreg⟩⟩
        · exact steps_of_items hreg (fun a ha => List.mem_cons_of_mem _ ha) hkeep
        · exact steps_of_items hreg (fun a ha => ha) hkeep
      · rintro (hbig | ⟨hnew, hdefined⟩)
        · exact Or.inl (by omega)
        · exact Or.inr fun hd => hdefined (hd.2 name hc hnew)
    · rw [aorUpdate_otherwise (not_exists.mp hu) (not_exists.mp hc)]
      exact steps_of_items (h.mono (Nat.le_add_right w _)) (fun a ha => ha) fun a _ => rfl

/-- **`aor_push`.** -/
theorem pushName (h : Registrar w aors l) (name route : Str) :
    Meets (2 ^ 49 ≤ w + 2 ∨ ¬ (AorEvent.call (.push env name route)).Defined lib aors)
      (fun res => Steps lib w aors l (.call (.push env name route)) res.2)
      (aorPush lib env aors name route) := by
  have hnew := aorNew_records lib env (lib.parse name) [lib.parse route] (3600 * 24 * 365) 0
  refine (hnew.excuse_mono ?_).bind ?_
  · rintro (hbig | ⟨-, hread⟩)
    · rw [List.length_singleton] at hbig
      omega
    · exact absurd ⟨trivial, fun _ _ r _ y hy => absurd hy (by simp [Offered])⟩ hread
  · intro aor haor
    have hsame : Steps lib w aors l (.call (.push env name route)) aors :=
      steps_of_items (h.mono (Nat.le_add_right w _)) (fun a ha => ha) fun a _ => rfl
    rcases aor with _ | aor
    · exact hsame
    · obtain ⟨hnewable, hname, hnamed, -, ys, hys, hnew⟩ := haor aor rfl
      have hlen := hnew.length_le
      rw [List.length_zipIdx, List.length_singleton, List.length_nil] at hlen
      have hdelete := aorDelete_records hys hnew.complete
      dsimp only
      split
      · next hsize =>
        refine (hdelete.excuse_mono ?_).bind fun _ _ => hsame
        obtain ⟨k, hk, rfl⟩ := hys
        obtain rfl : k = [] := by
          rw [hk.size_eq] at hsize
          exact List.length_eq_zero_iff.mp (by exact_mod_cast hsize)
        rintro (hbig | hvalued)
        · exact absurd hbig (by simp)
        · exact absurd (fun _ y hy => absurd hy (by simp)) hvalued
      · have hgood : ∀ x, some aor = some x → x.name.named = true ∧ ContactsInv x.contact ∧
            x.contact.items.length ≤ w + 1 := fun x hx => by
          obtain rfl := Option.some.inj hx
          refine ⟨hname ▸ hnamed, .of_lists hys ((RecordsInv.nil _).new hnew), ?_⟩
          rw [hys.items_eq]
          omega
        refine (((h.mono (Nat.le_add_right w 1)).push env.push hgood).excuse_mono
          fun hbig => Or.inl (by omega)).bind ?_
        rintro ⟨pushed, aors'⟩ ⟨hkeep, hres⟩
        rcases hres with ⟨x, -, h0, -, -, hreg⟩ | ⟨h1, hreg, hfits⟩
        · dsimp only at h0 ⊢
          rw [if_pos h0]
          exact steps_of_items hreg (fun a ha => List.mem_cons_of_mem _ ha) hkeep
        · dsimp only at h1 ⊢
          rw [if_neg (by omega)]
          refine (hdelete.excuse_mono ?_).bind fun _ _ =>
            steps_of_items (hreg.mono (show w + 1 ≤ w + 2 by omega)) (fun a ha => ha) hkeep
          rintro (hbig | hvalued)
          · exact Or.inl (by omega)
          · refine Or.inr fun hd => ?_
            rcases hd hnewable with ⟨⟨hcalloc, hmalloc⟩, hsearch⟩ | hdeletable
            · refine hfits aor rfl ⟨hcalloc, hmalloc, ?_⟩
              rw [h.search_key, hname, hsearch]
            · exact hvalued (hdeletable.valued hnew)

end Registrar

/-! ### The answers of the name server -/

/-- The route of a stored record is written. -/
lemma lists_reroute {cmps : List (AorRecord → AorRecord → ℕ → ℤ)} {contact : Map AorRecord}
    {xs : List AorRecord} (h : Lists cmps contact xs)
    (hcmps : ∀ (i : ℕ) (c : AorRecord → AorRecord → ℕ → ℤ), cmps[i]? = some c → c = aorRecordCmp)
    (record : ℕ) (route : Option Uri) :
    ∃ ys, Lists cmps
        (contact.setItem record { (contact.heap record).item with route }) ys ∧
      ys.map AorRecord.unrouted = xs.map AorRecord.unrouted := by
  obtain ⟨k, hk, rfl⟩ := h
  refine ⟨_, ⟨k, hk.setItem fun i c hc => ?_, rfl⟩, ?_⟩
  · rw [hcmps i c hc]
    exact aorRecordCmp_alike rfl rfl i
  · rw [List.map_map, List.map_map]
    refine List.map_congr_left fun b _ => ?_
    simp only [Function.comp_apply, Map.setItem_item]
    split
    · next hb =>
      subst hb
      rfl
    · rfl

lemma RecordsInv.reroute {indexed : Bool} {xs ys : List AorRecord} (h : RecordsInv indexed xs)
    (hys : ys.map AorRecord.unrouted = xs.map AorRecord.unrouted) : RecordsInv indexed ys := by
  have hmem (y : AorRecord) (hy : y ∈ ys) : ∃ x ∈ xs, y.unrouted = x.unrouted := by
    have := List.mem_map_of_mem (f := AorRecord.unrouted) hy
    rw [hys] at this
    obtain ⟨x, hx, heq⟩ := List.mem_map.mp this
    exact ⟨x, hx, heq.symm⟩
  have hfields {x y : AorRecord} (heq : y.unrouted = x.unrouted) :
      y.contact = x.contact ∧ y.protocol = x.protocol :=
    ⟨(congrArg AorRecord.contact heq : _), (congrArg AorRecord.protocol heq : _)⟩
  refine ⟨fun y hy => ?_, fun hi y hy hnone => ?_⟩
  · obtain ⟨x, hx, heq⟩ := hmem y hy
    rw [AorRecord.Complete, (hfields heq).1]
    exact h.complete x hx
  · obtain ⟨x, hx, heq⟩ := hmem y hy
    have halone := h.alone hi x hx (by rw [← (hfields heq).2, hnone])
    have hlen := congrArg List.length hys
    rw [List.length_map, List.length_map, halone] at hlen
    obtain ⟨z, rfl⟩ := List.length_eq_one_iff.mp hlen
    rw [List.mem_singleton.mp hy]

namespace Registrar

variable {lib : AorLib} {w : ℕ} {aors : Map Aor} {l : List ℕ}

/-- **`aor_record_lookup_callback`.** -/
theorem resolved (h : Registrar w aors l) (name : From) (preferred : AorRecord)
    (address : Option Str) :
    Meets (¬ (AorEvent.resolved name preferred address).Defined lib aors)
      (fun aors' => Steps lib w aors l (.resolved name preferred address) aors')
      (aorRecordLookupCallback aors name preferred address) := by
  have hsame : Steps lib w aors l (.resolved name preferred address) aors :=
    steps_of_items (h.mono (Nat.le_add_right w _)) (fun a ha => ha) fun a _ => rfl
  cases address with
  | none => exact hsame
  | some address =>
      rw [aorRecordLookupCallback]
      cases hs : mapSearch aors (Aor.key name) 0 with
      | none => exact hsame
      | some a =>
          have ha := h.search_mem hs
          have hinv := h.contacts a ha
          dsimp only
          split
          · next hnull =>
            obtain ⟨-, y, hy, hread⟩ := comparesNull_elim hinv.lists hnull
            intro hd
            rw [hd a hs y hy] at hread
            exact absurd hread (by simp)
          · split
            · exact hsame
            · next record hrecord =>
              obtain ⟨ys, hys, hroutes⟩ :=
                lists_reroute hinv.lists (fun i c hc => recordCmps_get hc) record _
              have hlen := congrArg List.length hroutes
              rw [List.length_map, List.length_map] at hlen
              have hle := h.records_le a ha
              refine ⟨l, (h.mono (Nat.le_add_right w 1)).setItem rfl
                (.of_lists hys (hinv.records.reroute hroutes)) ?_, fun b hb => ⟨hb, ?_⟩⟩
              · show (Map.items _).length ≤ w + 1
                rw [hys.items_eq]
                omega
              · refine continues_setItem ?_ ?_ ?_ b
                · rfl
                · exact hys.self.1
                · exact Or.inr (Or.inr (by rw [hys.items_eq]; exact hroutes))

/-- **Every event keeps the invariant.** -/
theorem step (h : Registrar w aors l) (ev : AorEvent) :
    Meets (2 ^ 49 ≤ w + ev.weight ∨ ¬ ev.Defined lib aors)
      (fun aors' => Steps lib w aors l ev aors') (aorEvent lib aors ev) := by
  cases ev with
  | call op =>
      cases op with
      | push env name route =>
          exact (h.pushName name route).bind fun _ hr => hr
      | update env m expired id => exact h.update.bind fun _ hr => hr
  | resolved name preferred address =>
      exact (h.resolved name preferred address).excuse_mono Or.inr

end Registrar

/-! ### Runs -/

/-- Every event of a run meets `P` at the store it finds. -/
def Throughout (lib : AorLib) (P : Map Aor → AorEvent → Prop) (aors : Map Aor) :
    List AorEvent → Prop
  | [] => True
  | ev :: evs => P aors ev ∧ ∀ aors', aorEvent lib aors ev = .ok aors' →
      Throughout lib P aors' evs

/-- **A run keeps the invariant**, and comes to an end when its events are defined. -/
theorem Registrar.run {lib : AorLib} {w : ℕ} {aors : Map Aor} {l : List ℕ}
    (h : Registrar w aors l) (evs : List AorEvent) :
    Meets (2 ^ 49 ≤ w + (evs.map AorEvent.weight).sum ∨
        ¬ Throughout lib (fun aors ev => ev.Defined lib aors) aors evs)
      (fun aors' => ∃ l', Registrar (w + (evs.map AorEvent.weight).sum) aors' l')
      (aorEvents lib aors evs) := by
  induction evs generalizing w aors l with
  | nil => exact ⟨l, h⟩
  | cons ev evs ih =>
      rw [List.map_cons, List.sum_cons, aorEvents]
      cases hev : aorEvent lib aors ev with
      | error e =>
          have hstep : Meets _ (fun aors' => Steps lib w aors l ev aors') _ := h.step ev
          rw [hev] at hstep
          rcases hstep with hbig | hdef
          · exact Or.inl (by omega)
          · exact Or.inr fun hd => hdef hd.1
      | ok aors' =>
          obtain ⟨l', hl', -⟩ := (h.step ev).ok hev
          refine ((ih hl').mono ?_).excuse_mono ?_
          · rintro aors'' ⟨l'', hl''⟩
            exact ⟨l'', hl''.mono (by omega)⟩
          · rintro (hbig | hdef)
            · exact Or.inl (by omega)
            · exact Or.inr fun hd => hdef (hd.2 aors' hev)

/-- **Every store that a run leaves** keeps the invariant. -/
lemma registrar_of_run {lib : AorLib} {evs : List AorEvent} {aors : Map Aor}
    (hrun : aorEvents lib aorInit evs = .ok aors) :
    ∃ l, Registrar (evs.map AorEvent.weight).sum aors l := by
  obtain ⟨l, hl⟩ := (Registrar.init.run evs).ok hrun
  exact ⟨l, hl.mono (by omega)⟩

end SipEcho
