import SipEcho.Bridge.Types

/-!
`__ses`, the map of sessions: the id of a transaction and the uuid under which the bus knows it.

The map has two keys, the id and the uuid, and takes no session that agrees with one it holds in
either.  `created` and the count of the lookups are read nowhere and left out.

* `sessionGet_mem`, `sessionGet_keeps`: a session made for a transaction stays the session of it;
* `sessionAdd_eq_some`, `mem_sessionDestroy`: what `cmd_session_add` adds and
  `cmd_session_destroy` takes away.
-/

namespace SipEcho

/-- `session_t`. -/
structure Session where
  id : ℕ
  uuid : Uuid
  deriving DecidableEq, Repr

/-- Two sessions differ in both keys of the map. -/
def Session.Apart (x y : Session) : Prop := x.id ≠ y.id ∧ x.uuid ≠ y.uuid

instance (x y : Session) : Decidable (x.Apart y) := inferInstanceAs (Decidable (_ ∧ _))

/-- `__ses`. -/
structure Sessions where
  list : List Session
  apart : list.Pairwise Session.Apart

/-- `map_new`. -/
def Sessions.empty : Sessions := ⟨[], .nil⟩

/-- The session of a transaction: `map_find` by the first key. -/
def Sessions.byId (ses : Sessions) (id : ℕ) : Option Session :=
  ses.list.find? fun x => x.id = id

/-- `map_push`; `memory` tells whether the nodes of the map can be allocated. -/
def Sessions.push (ses : Sessions) (memory : Bool) (x : Session) : Option Sessions :=
  if h : memory = true ∧ ∀ y ∈ ses.list, x.Apart y then
    some ⟨x :: ses.list, List.pairwise_cons.mpr ⟨h.2, ses.apart⟩⟩
  else none

/-- `cmd_session_get`: the uuid of a transaction.  It makes a session, with the random `uuid`, if
there is none; `none` if the map does not take it. -/
def cmdSessionGet (ses : Sessions) (memory : Bool) (uuid : Uuid) (id : ℕ) :
    Option Uuid × Sessions :=
  match ses.byId id with
  | some x => (some x.uuid, ses)
  | none =>
      match ses.push memory ⟨id, uuid⟩ with
      | some ses' => (some uuid, ses')
      | none => (none, ses)

/-- `cmd_session_add`; `none` is a result other than `0`. -/
def cmdSessionAdd (ses : Sessions) (memory : Bool) (id : ℕ) (uuid : Uuid) : Option Sessions :=
  ses.push memory ⟨id, uuid⟩

/-- `cmd_session_find`; `none` is its `-1`. -/
def cmdSessionFind (ses : Sessions) (uuid : Uuid) : Option ℕ :=
  (ses.list.find? fun x => x.uuid = uuid).map (·.id)

/-- `cmd_session_destroy`: the uuid of the session removed; `none` is its `-1`. -/
def cmdSessionDestroy (ses : Sessions) (id : ℕ) : Option Uuid × Sessions :=
  ((ses.byId id).map (·.uuid),
    ⟨ses.list.filter fun x => x.id ≠ id, ses.apart.sublist List.filter_sublist⟩)

/-- A transaction has a session. -/
def Sessions.Has (ses : Sessions) (id : ℕ) : Prop := ∃ x ∈ ses.list, x.id = id

instance (ses : Sessions) (id : ℕ) : Decidable (ses.Has id) :=
  inferInstanceAs (Decidable (∃ x ∈ ses.list, x.id = id))

variable {ses ses' : Sessions} {memory : Bool} {id : ℕ} {uuid : Uuid} {x : Session}

lemma Sessions.byId_eq_none : ses.byId id = none ↔ ¬ ses.Has id := by
  simp [Sessions.byId, Sessions.Has]

lemma Sessions.byId_isSome : (ses.byId id).isSome ↔ ses.Has id := by
  simp [Sessions.byId, Sessions.Has]

/-- What `map_push` takes, and what it then holds. -/
lemma Sessions.push_eq_some : ses.push memory x = some ses' ↔
    memory = true ∧ (∀ y ∈ ses.list, x.Apart y) ∧ ses'.list = x :: ses.list := by
  rw [Sessions.push]
  split
  · rename_i h
    constructor
    · intro heq
      obtain rfl := Option.some.inj heq
      exact ⟨h.1, h.2, rfl⟩
    · rintro ⟨-, -, hl⟩
      obtain ⟨l, hap⟩ := ses'
      simp only at hl
      subst hl
      rfl
  · rename_i h
    constructor
    · intro heq
      cases heq
    · rintro ⟨hm, hap, -⟩
      exact absurd ⟨hm, hap⟩ h

lemma Sessions.push_has {ses' : Sessions} (h : ses.push memory x = some ses') {i : ℕ} :
    ses'.Has i ↔ i = x.id ∨ ses.Has i := by
  obtain ⟨-, -, hl⟩ := Sessions.push_eq_some.mp h
  simp [Sessions.Has, hl, eq_comm]

/-- `cmd_session_add` adds the one session. -/
lemma sessionAdd_eq_some (h : cmdSessionAdd ses memory id uuid = some ses') {i : ℕ} :
    ses'.Has i ↔ i = id ∨ ses.Has i :=
  Sessions.push_has h

/-- `cmd_session_destroy` takes the session of the transaction away and no other. -/
lemma mem_sessionDestroy {i : ℕ} :
    (cmdSessionDestroy ses id).2.Has i ↔ i ≠ id ∧ ses.Has i := by
  simp only [cmdSessionDestroy, Sessions.Has, List.mem_filter, decide_eq_true_eq]
  constructor
  · rintro ⟨x, ⟨hx, hne⟩, rfl⟩
    exact ⟨hne, x, hx, rfl⟩
  · rintro ⟨hne, x, hx, rfl⟩
    exact ⟨x, ⟨hx, hne⟩, rfl⟩

lemma sessionDestroy_eq_none : (cmdSessionDestroy ses id).1 = none ↔ ¬ ses.Has id := by
  rw [← Sessions.byId_eq_none, cmdSessionDestroy, Option.map_eq_none_iff]

/-- A session that is there is the answer of `cmd_session_get`, which then changes nothing. -/
lemma sessionGet_of_byId (h : ses.byId id = some x) :
    cmdSessionGet ses memory uuid id = (some x.uuid, ses) := by
  rw [cmdSessionGet, h]

/-- What `cmd_session_get` answers is the session of the transaction from then on. -/
lemma sessionGet_mem {u : Uuid} (h : cmdSessionGet ses memory uuid id = (some u, ses')) :
    ses'.byId id = some ⟨id, u⟩ := by
  rw [cmdSessionGet] at h
  split at h
  · rename_i y hy
    obtain ⟨hu, rfl⟩ := Prod.mk.inj h
    have hid : y.id = id := by simpa using List.find?_some hy
    rw [hy, ← Option.some.inj hu, ← hid]
  · split at h
    · rename_i hp
      obtain ⟨hu, rfl⟩ := Prod.mk.inj h
      obtain ⟨-, -, hl⟩ := Sessions.push_eq_some.mp hp
      obtain rfl := Option.some.inj hu
      simp [Sessions.byId, hl]
    · exact absurd (congrArg Prod.fst h) (by simp)

/-- `cmd_session_get` makes the session of its own transaction at most. -/
lemma sessionGet_has {i : ℕ} (h : (cmdSessionGet ses memory uuid id).2.Has i) :
    i = id ∨ ses.Has i := by
  rw [cmdSessionGet] at h
  split at h
  · exact .inr h
  · split at h
    · rename_i hp
      exact (Sessions.push_has hp).mp h
    · exact .inr h

/-- `cmd_session_get` keeps the sessions there are. -/
lemma sessionGet_keeps {i : ℕ} (h : ses.Has i) : (cmdSessionGet ses memory uuid id).2.Has i := by
  rw [cmdSessionGet]
  split
  · exact h
  · split
    · rename_i hp
      exact (Sessions.push_has hp).mpr (.inr h)
    · exact h

end SipEcho
