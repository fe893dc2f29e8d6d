import SipEcho.Bridge.Types
import SipEcho.Map.Delete
import SipEcho.Lib.Keyed

/-!
The subscriptions to presences, `notify.c`: subscribers with their contacts, and presences with
the signatures of the contacts that watch them.

A record is known by its address in memory, and a pointer to memory that is free stops the
program.  The maps are lists of such pointers, first to last; a search in one finds an item that
`url_compare` takes for equal to the key, if there is one, and which one is left to a `Pick`.
Memory does not run out, and the difference of two ports fits an `int`.

* `urlCompare`: the order of addresses, and `sameUrl`, its "equal";
* `contactFree`, `subscribeFree`, `presenceFree`: the destructors, which reach into the other map;
* `notifyDelete`, `notifyUpdate`: the calls; `NotifyOp.run`: a sequence of them.
-/

namespace SipEcho

open Lib

/-! ### Addresses -/

/-- `url_port_default`. -/
def urlPortDefault (scheme port : Option Str) : ℤ :=
  match port, scheme with
  | some port, _ => atoi port
  | none, none => 0
  | none, some scheme =>
      if strcasecmp (str "SIP") scheme ≠ 0 then 5060
      else if strcasecmp (str "SIPS") scheme ≠ 0 then 5061
      else 0

/-- `url_port`. -/
def urlPort (url : SipUri) : ℤ := urlPortDefault url.scheme url.port

/-- `url_compare`. -/
def urlCompare (a b : SipAddress) : ℤ :=
  match a.url, b.url with
  | some u, some v =>
      let cmp := strcasecmp (u.username.getD []) (v.username.getD [])
      let cmp := if cmp = 0 then strcasecmp (u.scheme.getD []) (v.scheme.getD []) else cmp
      let cmp := if cmp = 0 then strcasecmp (u.host.getD []) (v.host.getD []) else cmp
      if cmp = 0 then urlPort u - urlPort v else cmp
  | _, _ => 0

/-- The addresses compare as equal. -/
def sameUrl (a b : SipAddress) : Prop := urlCompare a b = 0

instance : DecidableRel sameUrl := fun a b => inferInstanceAs (Decidable (urlCompare a b = 0))

lemma urlCompare_neg (a b : SipAddress) : urlCompare a b = -urlCompare b a := by
  have hneg : ∀ s t : Str, strcasecmp s t = -strcasecmp t s :=
    fun s t => strcmpBy_neg (f := tolower) tolower_eq_zero t s
  unfold urlCompare
  cases ha : a.url with
  | none => cases b.url <;> rfl
  | some u =>
      cases hb : b.url with
      | none => rfl
      | some v =>
          simp only
          rw [hneg (u.username.getD []), hneg (u.scheme.getD []), hneg (u.host.getD [])]
          split_ifs <;> omega

lemma sameUrl_refl (a : SipAddress) : sameUrl a a := by
  have := urlCompare_neg a a
  show urlCompare a a = 0
  omega

lemma sameUrl_symm (a b : SipAddress) (h : sameUrl a b) : sameUrl b a := by
  have := urlCompare_neg a b
  have h0 : urlCompare a b = 0 := h
  show urlCompare b a = 0
  omega

/-! ### The store -/

/-- `struct subscribe`. -/
structure Subscribe where
  url : SipAddress
  contact : List ℕ := []
  deriving DecidableEq

/-- `struct contact`. -/
structure NotifyContact where
  url : SipAddress
  presence : List ℕ := []
  parent : ℕ
  deriving DecidableEq

/-- `struct signature`; the contact is its key. -/
structure Signature where
  url : SipAddress
  id : SipCallId
  contact : ℕ
  deriving DecidableEq

/-- `struct presence`. -/
structure Presence where
  url : SipAddress
  signature : List Signature := []
  deriving DecidableEq

/-- `struct notify`, with the memory its records are in; from `next` on all of it is free. -/
@[ext] structure Notify where
  subscribes : ℕ → Option Subscribe := fun _ => none
  contacts : ℕ → Option NotifyContact := fun _ => none
  presences : ℕ → Option Presence := fun _ => none
  next : ℕ := 0
  subscribe : List ℕ := []
  presence : List ℕ := []
  sequence : ℕ := 0

/-- What is at an address. -/
def fetch {α : Type} (memory : ℕ → Option α) (a : ℕ) : Except Fault α :=
  match memory a with
  | none => throw .crash
  | some x => return x

namespace Notify

variable (n : Notify)

def setSubscribe (s : ℕ) (x : Subscribe) : Notify :=
  { n with subscribes := Function.update n.subscribes s (some x) }

def setContact (c : ℕ) (x : NotifyContact) : Notify :=
  { n with contacts := Function.update n.contacts c (some x) }

def setPresence (p : ℕ) (x : Presence) : Notify :=
  { n with presences := Function.update n.presences p (some x) }

@[simp] lemma setSubscribe_self {s : ℕ} {x : Subscribe} :
    (n.setSubscribe s x).subscribes s = some x := Function.update_self ..

@[simp] lemma setContact_self {c : ℕ} {x : NotifyContact} :
    (n.setContact c x).contacts c = some x := Function.update_self ..

@[simp] lemma setPresence_self {p : ℕ} {x : Presence} :
    (n.setPresence p x).presences p = some x := Function.update_self ..

variable {n} in
lemma setSubscribe_ne {s t : ℕ} {x : Subscribe} (h : t ≠ s) :
    (n.setSubscribe s x).subscribes t = n.subscribes t := Function.update_of_ne h ..

variable {n} in
lemma setContact_ne {c d : ℕ} {x : NotifyContact} (h : d ≠ c) :
    (n.setContact c x).contacts d = n.contacts d := Function.update_of_ne h ..

variable {n} in
lemma setPresence_ne {p q : ℕ} {x : Presence} (h : q ≠ p) :
    (n.setPresence p x).presences q = n.presences q := Function.update_of_ne h ..

/-! What is read of a store is what was written last, or what was there before. -/

variable {n} in
lemma setSubscribe_cases {s t : ℕ} {x x' : Subscribe}
    (h : (n.setSubscribe s x).subscribes t = some x') :
    t = s ∧ x' = x ∨ t ≠ s ∧ n.subscribes t = some x' := by
  by_cases hts : t = s
  · subst hts
    exact .inl ⟨rfl, Option.some.inj (h.symm.trans (setSubscribe_self n))⟩
  · exact .inr ⟨hts, (setSubscribe_ne hts).symm.trans h⟩

variable {n} in
lemma setContact_cases {c d : ℕ} {x x' : NotifyContact}
    (h : (n.setContact c x).contacts d = some x') :
    d = c ∧ x' = x ∨ d ≠ c ∧ n.contacts d = some x' := by
  by_cases hdc : d = c
  · subst hdc
    exact .inl ⟨rfl, Option.some.inj (h.symm.trans (setContact_self n))⟩
  · exact .inr ⟨hdc, (setContact_ne hdc).symm.trans h⟩

variable {n} in
lemma setPresence_cases {p q : ℕ} {x x' : Presence}
    (h : (n.setPresence p x).presences q = some x') :
    q = p ∧ x' = x ∨ q ≠ p ∧ n.presences q = some x' := by
  by_cases hqp : q = p
  · subst hqp
    exact .inl ⟨rfl, Option.some.inj (h.symm.trans (setPresence_self n))⟩
  · exact .inr ⟨hqp, (setPresence_ne hqp).symm.trans h⟩

variable {n} in
lemma setContact_same {c : ℕ} {x : NotifyContact} (h : n.contacts c = some x) :
    n.setContact c x = n := by
  refine Notify.ext rfl ?_ rfl rfl rfl rfl rfl
  show Function.update n.contacts c (some x) = n.contacts
  rw [← h, Function.update_eq_self]

variable {n} in
lemma setPresence_same {p : ℕ} {x : Presence} (h : n.presences p = some x) :
    n.setPresence p x = n := by
  refine Notify.ext rfl rfl ?_ rfl rfl rfl rfl
  show Function.update n.presences p (some x) = n.presences
  rw [← h, Function.update_eq_self]

/-- What `subscribe_compare` reads. -/
def subscribeKey (s : ℕ) : Except Fault SipAddress := do
  let x ← fetch n.subscribes s
  return x.url

/-- What `contact_compare` reads. -/
def contactKey (c : ℕ) : Except Fault SipAddress := do
  let x ← fetch n.contacts c
  return x.url

/-- What `presence_compare` reads. -/
def presenceKey (p : ℕ) : Except Fault SipAddress := do
  let x ← fetch n.presences p
  return x.url

/-- What `signature_compare` reads. -/
def signatureKey (g : Signature) : Except Fault SipAddress := n.contactKey g.contact

end Notify

section Code

variable (pick : Pick) (n : Notify)

/-! ### The destructors -/

/-- `contact_unref`: the signature under the address of the contact is freed. -/
def contactUnref (contact : ℕ) (n : Notify) (presence : ℕ) : Except Fault Notify := do
  let p ← fetch n.presences presence
  let c ← fetch n.contacts contact
  match ← getBy pick sameUrl n.signatureKey c.url p.signature with
  | none => return n
  | some (_, signature) => return n.setPresence presence { p with signature }

/-- `contact_free`. -/
def contactFree (n : Notify) (contact : ℕ) : Except Fault Notify := do
  let c ← fetch n.contacts contact
  -- `map_until` takes the presences from the tail
  let n ← c.presence.reverse.foldlM (contactUnref pick contact) n
  return { n with contacts := Function.update n.contacts contact none }

/-- `subscribe_free`. -/
def subscribeFree (subscribe : ℕ) : Except Fault Notify := do
  let s ← fetch n.subscribes subscribe
  let n ← s.contact.foldlM (contactFree pick) n
  return { n with subscribes := Function.update n.subscribes subscribe none }

/-- `presence_unref`. -/
def presenceUnref (presence : ℕ) (n : Notify) (signature : Signature) : Except Fault Notify := do
  let c ← fetch n.contacts signature.contact
  let p ← fetch n.presences presence
  match ← getBy pick sameUrl n.presenceKey p.url c.presence with
  | none => return n
  | some (_, rest) => return n.setContact signature.contact { c with presence := rest }

/-- `presence_free`. -/
def presenceFree (presence : ℕ) : Except Fault Notify := do
  let p ← fetch n.presences presence
  let n ← p.signature.reverse.foldlM (presenceUnref pick presence) n
  return { n with presences := Function.update n.presences presence none }

/-- `map_pure(&notify->presence, presence, 0)`. -/
def purePresence (presence : ℕ) : Except Fault Notify := do
  let url ← n.presenceKey presence
  match ← getBy pick sameUrl n.presenceKey url n.presence with
  | none => return n
  | some (p, rest) => presenceFree pick { n with presence := rest } p

/-! ### `notify_delete` -/

/-- The subscriber at an address. -/
def findSubscribe (from_ : SipAddress) : Except Fault (Option ℕ) :=
  findBy pick sameUrl n.subscribeKey from_ n.subscribe

/-- The contact of a subscriber at an address. -/
def findContact (subscribe : ℕ) (contact : SipAddress) : Except Fault (Option ℕ) := do
  let s ← fetch n.subscribes subscribe
  findBy pick sameUrl n.contactKey contact s.contact

/-- The last lines of `notify_delete`: the subscriber goes. -/
def deleteSubscribe (from_ : SipAddress) : Except Fault Notify := do
  match ← getBy pick sameUrl n.subscribeKey from_ n.subscribe with
  | none => return n
  | some (s, rest) => subscribeFree pick { n with subscribe := rest } s

/-- The lines before: the contact goes, and with its last contact the subscriber. -/
def deleteContact (from_ : SipAddress) (subscribe : ℕ) (contact : SipAddress) :
    Except Fault Notify := do
  let s ← fetch n.subscribes subscribe
  match ← getBy pick sameUrl n.contactKey contact s.contact with
  | none => return n
  | some (c, rest) => do
      let n ← contactFree pick (n.setSubscribe subscribe { s with contact := rest }) c
      if rest = [] then deleteSubscribe pick n from_ else return n

/-- The block `if (to)`: the contact takes its signature off the presence, and a presence without
signatures goes.  Whether the contact is to go as well comes with the store. -/
def deletePresence (subscribe : ℕ) (contact to_ : SipAddress) :
    Except Fault (Bool × Notify) := do
  match ← findContact pick n subscribe contact with
  | none => return (false, n)
  | some c => do
      let x ← fetch n.contacts c
      match ← getBy pick sameUrl n.presenceKey to_ x.presence with
      | none => return (false, n)
      | some (p, rest) => do
          let n := n.setContact c { x with presence := rest }
          let y ← fetch n.presences p
          match ← getBy pick sameUrl n.signatureKey x.url y.signature with
          | none => return (decide (rest = []), n)
          | some (_, signature) => do
              let n := n.setPresence p { y with signature }
              let n ← if signature = [] then purePresence pick n p else pure n
              return (decide (rest = []), n)

/-- `notify_delete`, with what it returns. -/
def notifyDelete (from_ contact to_ : Option SipAddress) : Except Fault (ℤ × Notify) := do
  match from_, contact with
  | none, _ => return (-1, n)
  | some from_, none => return (0, ← deleteSubscribe pick n from_)
  | some from_, some contact => do
      match ← findSubscribe pick n from_ with
      | none => return (0, n)
      | some s =>
          match to_ with
          | none => return (0, ← deleteContact pick n from_ s contact)
          | some to_ => do
              let (go, n) ← deletePresence pick n s contact to_
              if go then return (0, ← deleteContact pick n from_ s contact) else return (0, n)

/-! ### `notify_update`

What `map_push_find` returns is the item and whether it was put in; a flag of `map_flag_update`
that went through an insertion is zero, and nothing else reads it. -/

/-- `map_push_find(&notify->subscribe, ..)`. -/
def pushSubscribe (from_ : SipAddress) : Except Fault (ℕ × Bool × Notify) := do
  match ← findSubscribe pick n from_ with
  | some s => return (s, false, n)
  | none =>
      return (n.next, true, { n.setSubscribe n.next { url := from_ } with
        next := n.next + 1, subscribe := n.next :: n.subscribe })

/-- `map_push_find(&subscribe->contact, ..)`. -/
def pushContact (subscribe : ℕ) (contact : SipAddress) : Except Fault (ℕ × Bool × Notify) := do
  match ← findContact pick n subscribe contact with
  | some c => return (c, false, n)
  | none => do
      let s ← fetch n.subscribes subscribe
      let n' := n.setContact n.next { url := contact, parent := subscribe }
      return (n.next, true,
        { n'.setSubscribe subscribe { s with contact := n.next :: s.contact } with
          next := n.next + 1 })

/-- `map_push_find(&notify->presence, ..)`. -/
def pushPresence (to_ : SipAddress) : Except Fault (ℕ × Bool × Notify) := do
  match ← findBy pick sameUrl n.presenceKey to_ n.presence with
  | some p => return (p, false, n)
  | none =>
      return (n.next, true, { n.setPresence n.next { url := to_ } with
        next := n.next + 1, presence := n.next :: n.presence })

/-- `map_push_find(&presence->signature, ..)`: a signature that is found gets the new address and
identifier when the flag says so, and keeps its contact. -/
def pushSignature (presence : ℕ) (signature : Signature) (flag : Bool) : Except Fault Notify := do
  let p ← fetch n.presences presence
  let url ← n.signatureKey signature
  match ← findBy pick sameUrl n.signatureKey url p.signature with
  | some g =>
      let g' := { signature with contact := g.contact }
      return if flag then
        n.setPresence presence { p with signature := p.signature.replace g g' } else n
  | none => return n.setPresence presence { p with signature := signature :: p.signature }

/-- `map_push_back(&contact->presence, presence)`. -/
def pushBack (contact presence : ℕ) : Except Fault Notify := do
  let c ← fetch n.contacts contact
  let url ← n.presenceKey presence
  match ← findBy pick sameUrl n.presenceKey url c.presence with
  | some _ => return n
  | none => return n.setContact contact { c with presence := c.presence ++ [presence] }

/-- `notify_update`, with what it returns.  The entity of the note is printed from the URL of the
presence; what `submit` does with the note is not the store's. -/
def notifyUpdate (from_ contact to_ : Option SipAddress) (id : Option SipCallId) :
    Except Fault (ℤ × Notify) := do
  match from_, contact, to_, id with
  | some from_, some contact, some to_, some id => do
      let (s, new₁, n) ← pushSubscribe pick n from_
      let (c, new₂, n) ← pushContact pick n s contact
      let (p, new₃, n) ← pushPresence pick n to_
      let n ← pushSignature pick n p ⟨from_, id, c⟩ (!new₁ && !new₂ && !new₃)
      let n ← pushBack pick n c p
      let x ← fetch n.presences p
      match x.url.url with
      | none => throw .crash
      | some _ => return (0, { n with sequence := n.sequence + 1 })
  | _, _, _, _ => return (-1, n)

end Code

/-! ### Runs -/

/-- A call, with how its searches pick. -/
inductive NotifyOp where
  | delete (pick : Pick) (from_ contact to_ : Option SipAddress)
  | update (pick : Pick) (from_ contact to_ : Option SipAddress) (id : Option SipCallId)

namespace NotifyOp

/-- The store after a call. -/
def step (n : Notify) : NotifyOp → Except Fault Notify
  | delete pick from_ contact to_ => do return (← notifyDelete pick n from_ contact to_).2
  | update pick from_ contact to_ id => do return (← notifyUpdate pick n from_ contact to_ id).2

/-- The store after a sequence of calls. -/
def run (n : Notify) (ops : List NotifyOp) : Except Fault Notify := ops.foldlM step n

end NotifyOp

end SipEcho
