import SipEcho.Lib.Loop
import SipEcho.Notify.Run

/-!
What subscribers are told: the notes that `notify_update` and `notify_change` make.

* `notifyNote`: a note, from a contact, its signature and the presence; `SipQuery.Tells`: whom it
  tells of what;
* `notifyUpdateNote`: `notify_update` with the note it makes, and `notifyUpdate_of_note`, **what it
  does to the store**;
* `notifyChange`: one note for every signature of a presence;
* `NotifyCall.run`: a sequence of calls with all the notes they make.

The time, the address and the random number in a branch are given.  What `submit` does with a note
is not the store's.
-/

namespace SipEcho

open Lib

/-! ### A note -/

/-- `Sip__Query`, as far as it is filled. -/
structure SipQuery where
  request : Option SipUri
  head : SipHead
  pidf : SipPidf
  deriving DecidableEq

/-- `%s`. -/
def percentS (s : Option Str) : Str := s.getD (str "(null)")

/-- `%i` of an `unsigned`. -/
def percentI (n : ℕ) : Str :=
  if n % 2 ^ 32 < 2 ^ 31 then decimal (n % 2 ^ 32) else 45 :: decimal (2 ^ 32 - n % 2 ^ 32)

/-- The entity of a note, in a buffer of 512 bytes. -/
def notifyEntity (url : SipUri) : Str :=
  (percentS url.scheme ++ str ":" ++ percentS url.username ++ str "@" ++ percentS url.host).take 511

/-- Who is asked whether a presence is online, if anybody is. -/
abbrev NotifyStatus := Option (SipAddress → ℤ)

/-- What a note says of the presence. -/
def notifyBasic (status : NotifyStatus) (url : SipAddress) (online : ℤ) : Str :=
  if online = 1 ∨ (online = -1 ∧ (status.map fun f => f url).getD 0 ≠ 0) then str "open"
  else str "closed"

/-- How the caller of `notify_update` and `notify_change` has it, and what the branch of each note
is. -/
structure NotifyCaller where
  online : ℤ
  branch : ℕ → Str

/-- The note to a contact that has signed a presence, `number` notes into the sequence. -/
def notifyNote (status : NotifyStatus) (caller : NotifyCaller) (number : ℕ)
    (contact : NotifyContact) (signature : Signature) (presence : SipAddress) (url : SipUri) :
    SipQuery where
  request := contact.url.url
  head :=
    { version := some (str "SIP/2.0")
      via := [
        { host := some (str "127.0.0.1")
          version := some (str "2.0")
          protocol := some (str "INT")
          viaParams := [⟨some (str "branch"), some (caller.branch number)⟩] }]
      to_ := some signature.url
      from_ := some presence
      callId := some signature.id
      cseq := some ⟨some (str "NOTIFY"), some (percentI number)⟩
      other := [⟨some (str "Event"), some (str "presence")⟩,
        ⟨some (str "Subscription-State"), some (str "active")⟩]
      contentType := some { type := some (str "application"), subtype := some (str "pidf+xml") } }
  pidf :=
    { xmlns := str "urn:ietf:params:xml:ns:pidf"
      entity := notifyEntity url
      tuple := [
        { id := str "1"
          contact := some (notifyEntity url)
          basic := some (notifyBasic status presence caller.online) }] }

/-- The note tells a subscriber of a target, at one of its contacts and by a dialog. -/
def SipQuery.Tells (note : SipQuery) (status : NotifyStatus) (caller : NotifyCaller) (number : ℕ)
    (f c t : SipAddress) (id : SipCallId) : Prop :=
  ∃ contact signature presence url,
    note = notifyNote status caller number contact signature presence url ∧
      presence.url = some url ∧ sameUrl f signature.url ∧ sameUrl c contact.url ∧
      sameUrl t presence ∧ signature.id = id

/-! ### The calls -/

section Code

variable (status : NotifyStatus) (pick : Pick)

/-- `map_push_find(&presence->signature, ..)`, with the signature it returns. -/
def pushFindSignature (n : Notify) (presence : ℕ) (signature : Signature) (flag : Bool) :
    Except Fault (Signature × Notify) := do
  let p ← fetch n.presences presence
  let url ← n.signatureKey signature
  match ← findBy pick sameUrl n.signatureKey url p.signature with
  | some g =>
      let g' := { signature with contact := g.contact }
      if flag then
        return (g', n.setPresence presence { p with signature := p.signature.replace g g' })
      else return (g, n)
  | none =>
      return (signature, n.setPresence presence { p with signature := signature :: p.signature })

/-- The note to a contact, and the store with its number. -/
def makeNote (caller : NotifyCaller) (n : Notify) (presence : ℕ) (signature : Signature)
    (contact : ℕ) : Except Fault (SipQuery × Notify) := do
  let c ← fetch n.contacts contact
  let p ← fetch n.presences presence
  match p.url.url with
  | none => throw .crash
  | some url =>
      return (notifyNote status caller (n.sequence + 1) c signature p.url url,
        { n with sequence := n.sequence + 1 })

/-- `notify_update`, with the note it makes. -/
def notifyUpdateNote (caller : NotifyCaller) (n : Notify)
    (from_ contact to_ : Option SipAddress) (id : Option SipCallId) :
    Except Fault (ℤ × List SipQuery × Notify) := do
  match from_, contact, to_, id with
  | some from_, some contact, some to_, some id => do
      let (s, new₁, n) ← pushSubscribe pick n from_
      let (c, new₂, n) ← pushContact pick n s contact
      let (p, new₃, n) ← pushPresence pick n to_
      let (g, n) ← pushFindSignature pick n p ⟨from_, id, c⟩ (!new₁ && !new₂ && !new₃)
      let n ← pushBack pick n c p
      let (note, n) ← makeNote status caller n p g c
      return (0, [note], n)
  | _, _, _, _ => return (-1, [], n)

/-- The loop of `notify_change`, along the signatures from the first to the last. -/
def changeNotes (caller : NotifyCaller) (presence : ℕ) :
    List Signature → Notify → Except Fault (List SipQuery × Notify)
  | [], n => return ([], n)
  | g :: gs, n => do
      let (note, n) ← makeNote status caller n presence g g.contact
      let (notes, n) ← changeNotes caller presence gs n
      return (note :: notes, n)

/-- `notify_change`, with the notes it makes. -/
def notifyChange (caller : NotifyCaller) (n : Notify) (to_ : Option SipAddress) :
    Except Fault (ℤ × List SipQuery × Notify) := do
  match to_ with
  | none => return (-1, [], n)
  | some to_ =>
      match ← findBy pick sameUrl n.presenceKey to_ n.presence with
      | none => return (0, [], n)
      | some p => do
          let x ← fetch n.presences p
          let (notes, n) ← changeNotes status caller p x.signature n
          return (0, notes, n)

end Code

/-! ### Runs with notes -/

/-- A call, with how its searches pick. -/
inductive NotifyCall where
  | delete (pick : Pick) (from_ contact to_ : Option SipAddress)
  | update (pick : Pick) (caller : NotifyCaller) (from_ contact to_ : Option SipAddress)
      (id : Option SipCallId)
  | change (pick : Pick) (caller : NotifyCaller) (to_ : Option SipAddress)

namespace NotifyCall

variable (status : NotifyStatus)

/-- The notes of a call, and the store after it. -/
def step (n : Notify) : NotifyCall → Except Fault (List SipQuery × Notify)
  | delete pick from_ contact to_ => do
      return ([], (← notifyDelete pick n from_ contact to_).2)
  | update pick caller from_ contact to_ id => do
      return (← notifyUpdateNote status pick caller n from_ contact to_ id).2
  | change pick caller to_ => do
      return (← notifyChange status pick caller n to_).2

/-- The notes of each call of a sequence, and the store after it. -/
def run (n : Notify) : List NotifyCall → Except Fault (List (List SipQuery) × Notify)
  | [] => return ([], n)
  | call :: calls => do
      let (notes, n) ← call.step status n
      let (rest, n) ← run n calls
      return (notes :: rest, n)

end NotifyCall

/-! ### The store of a call with a note -/

variable {status : NotifyStatus} {pick : Pick} {caller : NotifyCaller} {n n' : Notify}

/-- What `map_push_find` does to the store. -/
lemma pushSignature_eq (p : ℕ) (g : Signature) (flag : Bool) :
    pushSignature pick n p g flag = Prod.snd <$> pushFindSignature pick n p g flag := by
  rw [pushSignature, pushFindSignature]
  cases fetch n.presences p with
  | error e => rfl
  | ok y =>
      cases n.signatureKey g with
      | error e => rfl
      | ok url =>
          simp only [bind, Except.bind]
          cases findBy pick sameUrl n.signatureKey url y.signature with
          | error e => rfl
          | ok found =>
              cases found with
              | none => rfl
              | some b => cases flag <;> rfl

lemma makeNote_eq {p c : ℕ} {g : Signature} {k : NotifyContact} {y : Presence} {url : SipUri}
    (hk : n.contacts c = some k) (hy : n.presences p = some y) (hurl : y.url.url = some url) :
    makeNote status caller n p g c = .ok (notifyNote status caller (n.sequence + 1) k g y.url url,
      { n with sequence := n.sequence + 1 }) := by
  rw [makeNote, fetch_eq hk]
  simp only [bind, Except.bind, fetch_eq hy, hurl]
  rfl

/-- **`notify_update` does to the store** what it does without the note. -/
lemma notifyUpdate_of_note {from_ contact to_ : Option SipAddress} {id : Option SipCallId} {r : ℤ}
    {notes : List SipQuery}
    (h : notifyUpdateNote status pick caller n from_ contact to_ id = .ok (r, notes, n')) :
    notifyUpdate pick n from_ contact to_ id = .ok (r, n') := by
  rcases from_ with _ | from_
  · cases h
    rfl
  rcases contact with _ | contact
  · cases h
    rfl
  rcases to_ with _ | to_
  · cases h
    rfl
  rcases id with _ | id
  · cases h
    rfl
  obtain ⟨⟨s, new₁, n₁⟩, h₁, h⟩ := ok_of_bind h
  obtain ⟨⟨c, new₂, n₂⟩, h₂, h⟩ := ok_of_bind h
  obtain ⟨⟨p, new₃, n₃⟩, h₃, h⟩ := ok_of_bind h
  obtain ⟨⟨g, n₄⟩, h₄, h⟩ := ok_of_bind h
  obtain ⟨n₅, h₅, h⟩ := ok_of_bind h
  obtain ⟨⟨note, n₆⟩, h₆, h⟩ := ok_of_bind h
  cases h
  obtain ⟨k, -, h₆⟩ := ok_of_bind h₆
  obtain ⟨y, hy, h₆⟩ := ok_of_bind h₆
  have hsign : pushSignature pick n₃ p ⟨from_, id, c⟩ (!new₁ && !new₂ && !new₃) = .ok n₄ := by
    rw [pushSignature_eq, h₄]
    rfl
  rw [notifyUpdate, h₁]
  simp only [bind, Except.bind] at h₂ h₃ h₅ ⊢
  simp only [h₂, h₃, hsign, h₅, hy]
  cases hu : y.url.url with
  | none =>
      rw [hu] at h₆
      cases h₆
  | some u =>
      rw [hu] at h₆
      cases h₆
      rfl

end SipEcho
