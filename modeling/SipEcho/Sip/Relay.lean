import SipEcho.Sip.Answers
import SipEcho.Sip.Proxy

/-!
The forwarding of a request of the bus, `sip_relay`.

`Max-Forwards` is written first; the Via, the Route and the Record-Route follow when there is an
event to send on, then the request goes into a transaction, and the session is registered last.
Of all this only the Via is taken back when a later step fails.

* `sipRelay_refines`: the headers left out, it is the `sipRelay` of the transaction layer;
* `relay_sends`: a request that can be sent, and whose session can be registered, is;
* `relay_headers`: one that is not refused at once has lost its `Max-Forwards`;
* `relay_atomic_iff`: **a relay that fails leaves everything as it was** exactly when it is refused
  at once or does not fail;
* `session_in_use`: the session id is taken, and the transaction keeps the request and the closure.
-/

namespace SipEcho

open Lib
open Transactions hiding sipRelay sipProxy

/-- `net->net->name`, `net->app->hostname` and `net->app->port` of an event. -/
structure EventNames where
  transport : Str
  hostname : Option Str
  port : Option Str

/-- What `sip_relay` uses of the osip library. -/
structure RelayLib where
  /-- `osip_via_param_get_byname`. -/
  byname : List GenericParam → Str → Option GenericParam
  /-- `osip_message_get_max_forwards` of the first header. -/
  maxForwards : List GenericParam → Option GenericParam
  /-- `osip_message_replace_header`. -/
  replaceHeader : List GenericParam → Str → Str → List GenericParam
  /-- `osip_atoi`. -/
  osipAtoi : Option Str → ℤ

/-- What osip says of these: a header that is found is one of the message, a header is replaced by
taking the one that is found away and adding another, and a number that was printed is read. -/
structure RelayLib.Documented (lib : RelayLib) : Prop where
  found : ∀ headers h, lib.maxForwards headers = some h → h ∈ headers
  replaced : ∀ headers value, (lib.replaceHeader headers (str "Max-Forwards") value).Perm
    (⟨some (str "Max-Forwards"), some value⟩ ::
      (lib.maxForwards headers).elim headers headers.erase)
  atoi_decimal : ∀ n : ℕ, n < 2 ^ 31 → lib.osipAtoi (some (decimal n)) = n
  atoi_lt : ∀ value, lib.osipAtoi value < 2 ^ 31

/-- What a call meets: the listening event, if its transport makes no connections; whether a
connection can be opened; the names of the events; whether osip makes an event of the request; what
`sip_loop` meets; whether nothing is left to be sent; and the memory for a session. -/
structure RelayWorld where
  bound : Option ℕ
  connects : Bool
  names : ℕ → EventNames
  newEvent : Bool
  loop : LoopAnswer
  quiet : Bool
  memory : Bool

/-- Who is to free a request. -/
inductive Owner where
  | caller
  | transaction (id : ℕ)
  deriving DecidableEq

/-- What `sip_relay` works on beside the request. -/
structure RelayState where
  sip : Sip
  owner : Owner

/-- `uuid_is_null`. -/
def Uuid.IsNull (uuid : Uuid) : Prop := uuid.upper = 0 ∧ uuid.lower = 0

instance : DecidablePred Uuid.IsNull := fun uuid =>
  inferInstanceAs (Decidable (uuid.upper = 0 ∧ uuid.lower = 0))

/-- The new value of `Max-Forwards`; `none` if the request is not to be forwarded. -/
def maxForward (lib : RelayLib) (headers : List GenericParam) : Option Str :=
  match lib.maxForwards headers with
  | none => some (str "70")
  | some forward =>
      let n := lib.osipAtoi forward.gvalue
      if n > 1 then some (decimal (n - 1).toNat) else none

/-- The Via that is added. -/
def relayVia (names : EventNames) (branch : GenericParam) : Via where
  version := some (str "2.0")
  protocol := some names.transport
  host := names.hostname
  port := names.port
  viaParams := [⟨some (str "branch"), branch.gvalue⟩, ⟨some (str "rport"), none⟩]

/-- The address of a loose router. -/
def looseRouter (scheme host port : Option Str) (transport : Str) : From where
  url := some
    { scheme, host, port
      urlParams := [⟨some (str "transport"), some transport⟩, ⟨some (str "lr"), none⟩] }

/-- `sip_message_add_record_route`. -/
def sipMessageAddRecordRoute (m : Message) (names : EventNames) : Except Fault Message :=
  if m.statusCode = 0 then
    match m.reqUri with
    | none => throw .crash
    | some uri =>
        let route := looseRouter uri.scheme names.hostname names.port names.transport
        return { m with recordRoutes := route :: m.recordRoutes }
  else return m

/-- The request with a value of `Max-Forwards`. -/
def Message.forwarded (q : Message) (lib : RelayLib) (value : Str) : Message :=
  { q with headers := lib.replaceHeader q.headers (str "Max-Forwards") value }

/-- The request with the Via and the Route of this hop. -/
def Message.routed (q : Message) (names : EventNames) (branch : GenericParam) (route : Uri) :
    Message :=
  { q with
    vias := relayVia names branch :: q.vias
    routes := looseRouter route.scheme route.host route.port names.transport :: q.routes }

/-- The request with the headers of this hop; `none` if it has no Via. -/
def relayHeaders (lib : RelayLib) (names : EventNames) (route : Uri) (q : Message) :
    Except Fault (Option Message) :=
  match q.vias with
  | [] => return none
  | via :: _ =>
      match lib.byname via.viaParams (str "branch") with
      | none => throw .crash
      | some branch => do
          return some (← sipMessageAddRecordRoute (q.routed names branch route) names)

/-- What the transaction layer is told of a call. -/
def RelayWorld.answer (w : RelayWorld) (lib : RelayLib) (uuid : Uuid) (to_ : AorRecord)
    (q : Message) (s : Sip) : RelayAnswer where
  forwards := !decide uuid.IsNull && (maxForward lib q.headers).isSome
  net := if 0 ≤ to_.id ∧ (s.net to_.id.toNat).isSome = true then some to_.id.toNat else w.bound
  connects := w.connects
  prepared := !q.vias.isEmpty && w.newEvent
  invite := msgIsInvite q
  loop := w.loop
  quiet := w.quiet
  memory := w.memory

/-- `sip_relay`: what it returns, the request, and the rest. -/
def sipRelay (lib : RelayLib) (w : RelayWorld) (closure : Option ℕ) (uuid : Uuid) :
    Relay RelayState := fun to_ q st =>
  match closure with
  | none => return (-1, q, st)
  | some c =>
      if uuid.IsNull then return (-1, q, st)
      else
        match maxForward lib q.headers with
        | none => return (-1, q, st)
        | some value =>
            let forwarded := q.forwarded lib value
            match to_.route with
            | none => throw .crash
            | some route =>
                match (w.answer lib uuid to_ q st.sip).route st.sip with
                | (none, s) => return (-1, forwarded, { st with sip := s })
                | (some n, s) => do
                    match ← relayHeaders lib (w.names n) route forwarded with
                    | none => return (-1, forwarded, { st with sip := (← relayFailed n s).2 })
                    | some sent =>
                        if w.newEvent then do
                          let (a, s) ←
                            sipLoop { w.loop with found := none } (msgIsInvite q) n (some c) s
                          match a with
                          -- the event was freed, and the request with it: its Via is read
                          | none => throw .crash
                          | some id => do
                              let s ← netEventUpdate n w.quiet s
                              match cmdSessionAdd s.sessions w.memory id uuid with
                              | some sessions =>
                                  return (0, sent, ⟨{ s with sessions }, .transaction id⟩)
                              | none => return (-1, sent, ⟨s, .transaction id⟩)
                        else
                          return (-1, { sent with vias := sent.vias.tail },
                            { st with sip := (← relayFailed n s).2 })

/-! ### The transaction of the request -/

namespace Transactions

section Client

variable {s : Sip} {a : Transaction} {c n : ℕ}

lemma net_entities {m : ℕ} {f : List ℕ → List ℕ} :
    ((s.entities m f).net n).isSome = (s.net n).isSome := by
  rw [Sip.net, Sip.entities, List.find?_map, Option.isSome_map]
  congr 2
  funext e
  simp only [Function.comp]
  split <;> rfl

/-- A call of a client transaction without a session comes back. -/
lemma call_returns (hfind : s.find a.id = some a) (hc : a.closure = some c)
    (hno : ¬ s.sessions.Has a.id) (hnet : (s.net a.net).isSome = true) (o : Outcome) :
    ∃ ended s', sipCall a.id o s = .ok (ended, s') ∧ (s'.net a.net).isSome = true ∧
      (ended = false → s'.find a.id = some (o.execute a)) := by
  have hses : o.sessions a s.sessions = s.sessions := by simp [Outcome.sessions, hc]
  have hexec := execute_find (o := o) hfind
  rw [hses] at hexec
  set s₁ : Sip := { s.modify a.id o.execute with sessions := s.sessions } with hs₁
  have hnet₁ : (s₁.net a.net).isSome = true := hnet
  rw [sipCall]
  simp only [hfind, hses]
  cases hended : o.ended with
  | false => exact ⟨false, s₁, rfl, hnet₁, fun _ => hexec⟩
  | true =>
      -- it is deleted, and destroying it finds no session
      obtain ⟨e, he⟩ := Option.isSome_iff_exists.mp hnet₁
      have hdestroy : cmdSessionDestroy s.sessions a.id =
          (none, (cmdSessionDestroy s.sessions a.id).2) :=
        Prod.ext (sessionDestroy_eq_none.mpr hno) rfl
      obtain ⟨s₂, hdelete, hnet₂⟩ :
          ∃ s₂, sipDelete a.id s₁ = .ok s₂ ∧ (s₂.net a.net).isSome = true := by
        have hnet₂ : ((s₁.entities a.net (·.erase a.id)).net a.net).isSome = true :=
          net_entities.trans hnet₁
        refine ⟨{ s₁.entities a.net (·.erase a.id) with deleted := c :: s₁.deleted }, ?_, hnet₂⟩
        rw [sipDelete, hexec]
        simp only
        rw [show (o.execute a).net = a.net from rfl, he]
        simp only
        rw [sipDestroy, find_entities, hexec]
        simp only
        rw [show (o.execute a).closure = some c from hc]
        simp only
        rw [show (s₁.entities a.net (·.erase a.id)).sessions = s.sessions from rfl, hdestroy]
        rfl
      refine ⟨true, s₂, ?_, hnet₂, fun h => absurd h (by simp)⟩
      show (do return (true, ← sipDelete a.id s₁) : Except Fault (Bool × Sip)) = _
      rw [hdelete]
      rfl

lemma calls_return (hfind : s.find a.id = some a) (hc : a.closure = some c)
    (hno : ¬ s.sessions.Has a.id) (hnet : (s.net a.net).isSome = true) (os : List Outcome) :
    ∃ s', sipCalls a.id os s = .ok s' ∧ (s'.net a.net).isSome = true := by
  induction os generalizing s a with
  | nil => exact ⟨s, rfl, hnet⟩
  | cons o os ih =>
      obtain ⟨ended, s₁, hcall, hnet₁, hgo⟩ := call_returns hfind hc hno hnet o
      rw [sipCalls, hcall]
      cases ended with
      | true => exact ⟨s₁, rfl, hnet₁⟩
      | false =>
          have hses := (call_relayed hfind hc hno hcall).sessions
          exact ih (a := o.execute a) (hgo rfl) hc (by rw [hses]; exact hno) hnet₁

/-- **The transaction of a request**: `sip_loop` makes it, and comes back with it. -/
lemma loop_returns {w : LoopAnswer} (hnet : (s.net n).isSome = true)
    (hno : ¬ s.sessions.Has s.next) (hcreated : w.created = true) (invite : Bool) (c : ℕ) :
    ∃ s', sipLoop { w with found := none } invite n (some c) s = .ok (some s.next, s') ∧
      s'.sessions = s.sessions ∧ (s'.net n).isSome = true ∧
      ∃ b, s'.find s.next = some b ∧ b.closure = some c := by
  set a : Transaction := { id := s.next, invite, net := n, closure := some c } with ha
  obtain ⟨e, he⟩ := Option.isSome_iff_exists.mp hnet
  obtain ⟨s₁, hpush, hnet₁⟩ :
      ∃ s₁, pushEntity w.memory a (s.create a) = .ok s₁ ∧ (s₁.net n).isSome = true := by
    rw [pushEntity, show (s.create a).net a.net = some e from he]
    refine ⟨_, rfl, ?_⟩
    split
    · exact net_entities.trans hnet
    · exact hnet
  obtain ⟨hheld, hses, -⟩ := push_frame hpush
  have hfind : s₁.find a.id = some a := by
    rw [Sip.find, hheld]
    simp [Sip.create]
  have hno₁ : ¬ s₁.sessions.Has a.id := by
    rw [hses]
    exact hno
  obtain ⟨s₂, hcalls, hnet₂⟩ := calls_return hfind rfl hno₁ hnet₁ w.outcomes
  have hcalled := calls_relayed hfind rfl hno₁ hcalls
  obtain ⟨b, hb, -, hbc⟩ := hcalled.stays
  refine ⟨s₂, ?_, hcalled.sessions.trans hses, hnet₂, b, hb, hbc⟩
  rw [sipLoop]
  simp only [Option.bind_none, hcreated, if_true]
  rw [hpush]
  show (sipCalls a.id w.outcomes s₁ >>= _) = _
  rw [hcalls]
  rfl

/-- An event that is looked at is there, or is freed without transactions. -/
lemma update_returns (hnet : (s.net n).isSome = true) (quiet : Bool) :
    ∃ s', netEventUpdate n quiet s = .ok s' := by
  obtain ⟨e, he⟩ := Option.isSome_iff_exists.mp hnet
  rw [netEventUpdate, he]
  simp only
  split
  · rename_i hidle
    rw [netEventFree, he]
    simp only [hidle.2.2]
    exact ⟨_, rfl⟩
  · exact ⟨s, rfl⟩

lemma relayFailed_false {s' : Sip} {accepted : Bool} (h : relayFailed n s = .ok (accepted, s')) :
    accepted = false := by
  rw [relayFailed] at h
  split at h
  · cases h
  · split at h
    · obtain ⟨s₁, -, h⟩ := Lib.ok_of_bind h
      exact (Prod.mk.inj (Except.ok.inj h)).1.symm
    · exact (Prod.mk.inj (Except.ok.inj h)).1.symm

/-- The event that is chosen is there. -/
lemma route_net {r : RelayAnswer} {s₁ : Sip} (h : r.route s = (some n, s₁)) :
    (s₁.net n).isSome = true := by
  rw [RelayAnswer.route] at h
  split at h
  · rename_i e he
    obtain ⟨hn, rfl⟩ := Prod.mk.inj h
    obtain ⟨m, -, hm⟩ := Option.bind_eq_some_iff.mp he
    have hid : e.id = m := by simpa using List.find?_some hm
    rw [← Option.some.inj hn, hid, hm]
    rfl
  · split at h
    · obtain ⟨hn, rfl⟩ := Prod.mk.inj h
      rw [← Option.some.inj hn]
      simp [Sip.net]
    · exact absurd (congrArg Prod.fst h) (by simp)

end Client

end Transactions

/-! ### The layers -/

section Refinement

variable {lib : RelayLib} {w : RelayWorld} {c : ℕ} {uuid : Uuid} {to_ : AorRecord} {q q' : Message}
  {s : Sip} {st st' : RelayState} {ret : ℤ} {value : Str} {names : EventNames} {route : Uri}
  {sent : Message}

/-- The headers of the hop, and when there are any. -/
lemma relayHeaders_eq_some : relayHeaders lib names route q = .ok (some sent) ↔
    ∃ via vias branch, q.vias = via :: vias ∧
      lib.byname via.viaParams (str "branch") = some branch ∧
      sipMessageAddRecordRoute (q.routed names branch route) names = .ok sent := by
  rw [relayHeaders]
  constructor
  · intro h
    split at h
    · cases h
    · rename_i via vias hvias
      split at h
      · cases h
      · rename_i branch hbranch
        obtain ⟨m, hm, h⟩ := ok_of_bind h
        obtain rfl := Option.some.inj (Except.ok.inj h)
        exact ⟨via, vias, branch, hvias, hbranch, hm⟩
  · rintro ⟨via, vias, branch, hvias, hbranch, hm⟩
    simp only [hvias, hbranch]
    rw [hm]
    rfl

lemma relayHeaders_eq_none (h : relayHeaders lib names route q = .ok none) : q.vias = [] := by
  rw [relayHeaders] at h
  split at h
  · assumption
  · split at h
    · cases h
    · obtain ⟨m, -, h⟩ := ok_of_bind h
      cases h

/-- `sip_message_add_record_route` changes the Record-Route alone. -/
lemma addRecordRoute_frame {m m' : Message} (h : sipMessageAddRecordRoute m names = .ok m') :
    m' = { m with recordRoutes := m'.recordRoutes } ∧
      (m.statusCode = 0 → m.reqUri.isSome = true) := by
  rw [sipMessageAddRecordRoute] at h
  split at h
  · split at h
    · cases h
    · rename_i uri huri
      obtain rfl := Except.ok.inj h
      exact ⟨rfl, fun _ => by rw [huri]; rfl⟩
  · rename_i hstatus
    obtain rfl := Except.ok.inj h
    exact ⟨rfl, fun h => absurd h hstatus⟩

lemma addRecordRoute_returns (names : EventNames) {m : Message}
    (h : m.statusCode = 0 → m.reqUri.isSome = true) :
    ∃ m', sipMessageAddRecordRoute m names = .ok m' := by
  rw [sipMessageAddRecordRoute]
  split
  · rename_i hstatus
    obtain ⟨uri, huri⟩ := Option.isSome_iff_exists.mp (h hstatus)
    rw [huri]
    exact ⟨_, rfl⟩
  · exact ⟨m, rfl⟩

/-- **The headers left out, `sip_relay` is what the transaction layer takes it for.** -/
theorem sipRelay_refines
    (h : sipRelay lib w (some c) uuid to_ q ⟨s, .caller⟩ = .ok (ret, q', st')) :
    Transactions.sipRelay (w.answer lib uuid to_ q s) c uuid s =
      .ok (decide (ret = 0), st'.sip) := by
  rw [Transactions.sipRelay]
  rw [sipRelay] at h
  dsimp only at h
  split at h
  · rename_i hnull
    obtain ⟨rfl, -, rfl⟩ := by simpa using Except.ok.inj h
    rw [if_pos (by simp [RelayWorld.answer, hnull])]
    rfl
  · rename_i hnull
    split at h
    · rename_i hvalue
      obtain ⟨rfl, -, rfl⟩ := by simpa using Except.ok.inj h
      rw [if_pos (by simp [RelayWorld.answer, hvalue])]
      rfl
    · rename_i value hvalue
      rw [if_neg (by simp [RelayWorld.answer, hvalue, hnull])]
      split at h
      · cases h
      · rename_i route hto
        rcases hroute : (w.answer lib uuid to_ q s).route s with ⟨_ | n, s₁⟩
        · simp only [hroute] at h
          obtain ⟨rfl, -, rfl⟩ := by simpa using Except.ok.inj h
          rfl
        · simp only [hroute] at h
          dsimp only
          obtain ⟨headers, hheaders, h⟩ := ok_of_bind h
          cases headers with
          | none =>
              -- there is no Via
              have hvias : q.vias = [] := relayHeaders_eq_none (q := q.forwarded lib value) hheaders
              obtain ⟨⟨accepted, s₂⟩, hfailed, h⟩ := ok_of_bind h
              obtain rfl := relayFailed_false hfailed
              obtain ⟨rfl, -, rfl⟩ := by simpa using Except.ok.inj h
              rw [if_pos (by simp [RelayWorld.answer, hvias]), hfailed]
              rfl
          | some sent =>
              obtain ⟨via, vias, branch, hvias, -, -⟩ := relayHeaders_eq_some.mp hheaders
              have hvias' : q.vias = via :: vias := hvias
              dsimp only at h
              split at h
              · rename_i hevent
                rw [if_neg (by simp [RelayWorld.answer, hvias', hevent])]
                obtain ⟨⟨a, s₂⟩, hloop, h⟩ := ok_of_bind h
                rw [show sipLoop { (w.answer lib uuid to_ q s).loop with found := none }
                  (w.answer lib uuid to_ q s).invite n (some c) s₁ = .ok (a, s₂) from hloop]
                cases a with
                | none => cases h
                | some id =>
                    obtain ⟨s₃, hupdate, h⟩ := ok_of_bind h
                    show (netEventUpdate n w.quiet s₂ >>= _) = _
                    rw [hupdate]
                    show (match cmdSessionAdd s₃.sessions w.memory id uuid with
                      | some sessions => _
                      | none => _ : Except Fault (Bool × Sip)) = _
                    rcases hadd : cmdSessionAdd s₃.sessions w.memory id uuid with _ | sessions
                    · simp only [hadd] at h
                      obtain ⟨rfl, -, rfl⟩ := by simpa using Except.ok.inj h
                      rfl
                    · simp only [hadd] at h
                      obtain ⟨rfl, -, rfl⟩ := by simpa using Except.ok.inj h
                      rfl
              · rename_i hevent
                rw [if_pos (by simp [RelayWorld.answer, hevent])]
                obtain ⟨⟨accepted, s₂⟩, hfailed, h⟩ := ok_of_bind h
                obtain rfl := relayFailed_false hfailed
                obtain ⟨rfl, -, rfl⟩ := by simpa using Except.ok.inj h
                rw [hfailed]
                rfl

end Refinement

/-! ### Atomicity -/

/-- A call that is refused before anything is changed. -/
def Refused (lib : RelayLib) (closure : Option ℕ) (uuid : Uuid) (q : Message) : Prop :=
  closure = none ∨ uuid.IsNull ∨
    ∃ forward, lib.maxForwards q.headers = some forward ∧ lib.osipAtoi forward.gvalue ≤ 1

/-- The request can be sent on: the contact has a route and an event, the request a first Via with
a branch and, unless it is a response, a URI; and osip makes an event and a transaction. -/
structure Sendable (lib : RelayLib) (w : RelayWorld) (uuid : Uuid) (to_ : AorRecord) (q : Message)
    (s : Sip) : Prop where
  route : to_.route.isSome = true
  event : ((w.answer lib uuid to_ q s).route s).1.isSome = true
  branch : ∃ via, q.vias.head? = some via ∧
    (lib.byname via.viaParams (str "branch")).isSome = true
  uri : q.statusCode = 0 → q.reqUri.isSome = true
  newEvent : w.newEvent = true
  created : w.loop.created = true

/-- The map of sessions takes the session of the transaction that is made next. -/
def Registers (w : RelayWorld) (uuid : Uuid) (s : Sip) : Prop :=
  (cmdSessionAdd s.sessions w.memory s.next uuid).isSome = true

/-- **Nothing happened**: the request is as it was and belongs to the caller, no new transaction
has the closure, and no session was added. -/
structure Unaltered (closure : Option ℕ) (q q' : Message) (s : Sip) (st' : RelayState) : Prop where
  vias : q'.vias = q.vias
  routes : q'.routes = q.routes
  recordRoutes : q'.recordRoutes = q.recordRoutes
  headers : q'.headers = q.headers
  owner : st'.owner = .caller
  held : ∀ a ∈ st'.sip.held, s.next ≤ a.id → a.closure ≠ closure
  sessions : ∀ x ∈ st'.sip.sessions.list, x ∈ s.sessions.list

section Atomicity

variable {lib : RelayLib} {w : RelayWorld} {c : ℕ} {closure : Option ℕ} {uuid : Uuid}
  {to_ : AorRecord} {q q' : Message} {s : Sip} {st' : RelayState} {ret : ℤ} {value : Str}

lemma maxForward_eq_none : maxForward lib q.headers = none ↔
    ∃ forward, lib.maxForwards q.headers = some forward ∧ lib.osipAtoi forward.gvalue ≤ 1 := by
  rw [maxForward]
  cases lib.maxForwards q.headers with
  | none => simp
  | some forward => simp

/-- **A request that is forwarded has another `Max-Forwards`.** -/
lemma forwarded_ne (hlib : lib.Documented) (hvalue : maxForward lib q.headers = some value) :
    (q.forwarded lib value).headers ≠ q.headers := by
  intro heq
  have hperm := hlib.replaced q.headers value
  rw [show lib.replaceHeader q.headers (str "Max-Forwards") value = q.headers from heq] at hperm
  rw [maxForward] at hvalue
  cases hfound : lib.maxForwards q.headers with
  | none =>
      rw [hfound] at hperm
      have hlen := hperm.length_eq
      simp at hlen
  | some forward =>
      rw [hfound] at hperm hvalue
      simp only [gt_iff_lt, Option.ite_none_right_eq_some, Option.some.injEq] at hvalue
      obtain ⟨hone, rfl⟩ := hvalue
      -- the header that was added is the one that was taken away
      have hold := List.perm_cons_erase (hlib.found _ _ hfound)
      have hcount := (hold.symm.trans hperm).count_eq forward
      rw [Option.elim_some, List.count_cons_self, List.count_cons] at hcount
      have hsame : (⟨some (str "Max-Forwards"),
          some (decimal (lib.osipAtoi forward.gvalue - 1).toNat)⟩ : GenericParam) = forward := by
        by_contra hne
        rw [if_neg (by simpa using hne)] at hcount
        omega
      have hlt := hlib.atoi_lt forward.gvalue
      have hread := hlib.atoi_decimal (lib.osipAtoi forward.gvalue - 1).toNat (by omega)
      rw [show some (decimal (lib.osipAtoi forward.gvalue - 1).toNat) = forward.gvalue from
        congrArg GenericParam.gvalue hsame] at hread
      omega

/-- The event of the request is chosen without a change of the sessions. -/
lemma route_fresh (hlt : ∀ i, s.sessions.Has i → i < s.next) {r : RelayAnswer} {i : Option ℕ}
    {s₁ : Sip} (hroute : r.route s = (i, s₁)) :
    s₁.sessions = s.sessions ∧ s₁.next = s.next ∧ ¬ s₁.sessions.Has s₁.next := by
  obtain ⟨-, hses, -, hnext⟩ := route_frame hroute
  refine ⟨hses, hnext, fun hhas => ?_⟩
  rw [hses, hnext] at hhas
  exact lt_irrefl _ (hlt _ hhas)

/-- What happens to a request that is not refused: it loses its `Max-Forwards`; and where the call
returns `0`, it was sent and the session registered. -/
lemma relay_walk (hlt : ∀ i, s.sessions.Has i → i < s.next) (hnull : ¬ uuid.IsNull)
    (hvalue : maxForward lib q.headers = some value)
    (h : sipRelay lib w (some c) uuid to_ q ⟨s, .caller⟩ = .ok (ret, q', st')) :
    q'.headers = (q.forwarded lib value).headers ∧
      (ret = 0 → Sendable lib w uuid to_ q s ∧ Registers w uuid s) := by
  rw [sipRelay] at h
  simp only [if_neg hnull, hvalue] at h
  split at h
  · cases h
  · rename_i route hto
    split at h
    · obtain ⟨rfl, rfl, rfl⟩ := by simpa using Except.ok.inj h
      exact ⟨rfl, by simp⟩
    · rename_i n s₁ hroute
      obtain ⟨headers, hheaders, h⟩ := ok_of_bind h
      cases headers with
      | none =>
          obtain ⟨res, -, h⟩ := ok_of_bind h
          obtain ⟨rfl, rfl, rfl⟩ := by simpa using Except.ok.inj h
          exact ⟨rfl, by simp⟩
      | some sent =>
          obtain ⟨via, vias, branch, hvias, hbranch, hrecord⟩ := relayHeaders_eq_some.mp hheaders
          obtain ⟨hsent, huri⟩ := addRecordRoute_frame hrecord
          have hkept : sent.headers = (q.forwarded lib value).headers := by
            rw [hsent]
            rfl
          dsimp only at h
          split at h
          · rename_i hevent
            obtain ⟨⟨a, s₂⟩, hloop, h⟩ := ok_of_bind h
            cases hcreated : w.loop.created with
            | false =>
                rw [sipLoop] at hloop
                simp only [Option.bind_none, hcreated] at hloop
                obtain ⟨rfl, -⟩ := Prod.mk.inj (Except.ok.inj hloop)
                cases h
            | true =>
                -- the sessions are those from before until the new one is registered
                obtain ⟨hses, hnext, hno⟩ := route_fresh hlt hroute
                obtain ⟨s₃, hloop', hses₃, -, -⟩ :=
                  loop_returns (route_net hroute) hno hcreated (msgIsInvite q) c
                obtain ⟨rfl, rfl⟩ := Prod.mk.inj (Except.ok.inj (hloop.symm.trans hloop'))
                obtain ⟨s₄, hupdate, h⟩ := ok_of_bind h
                have hsessions : s₄.sessions = s.sessions :=
                  (update_frame hupdate).2.1.trans (hses₃.trans hses)
                split at h
                · rename_i sessions hadd
                  obtain ⟨rfl, rfl, rfl⟩ := by simpa using Except.ok.inj h
                  rw [hsessions, hnext] at hadd
                  have hfirst : q.vias.head? = some via := by
                    rw [show q.vias = via :: vias from hvias]
                    rfl
                  exact ⟨hkept, fun _ => ⟨⟨by rw [hto]; rfl, by rw [hroute]; rfl,
                    ⟨via, hfirst, by rw [hbranch]; rfl⟩, huri, hevent, hcreated⟩,
                    Option.isSome_iff_exists.mpr ⟨sessions, hadd⟩⟩⟩
                · obtain ⟨rfl, rfl, rfl⟩ := by simpa using Except.ok.inj h
                  exact ⟨hkept, by simp⟩
          · obtain ⟨res, -, h⟩ := ok_of_bind h
            obtain ⟨rfl, rfl, rfl⟩ := by simpa using Except.ok.inj h
            exact ⟨hkept, by simp⟩

/-- **A request that can be sent is**, in a transaction that has the closure; what is returned
depends on the session alone. -/
theorem relay_sends (hlt : ∀ i, s.sessions.Has i → i < s.next) (hnull : ¬ uuid.IsNull)
    (hvalue : maxForward lib q.headers = some value) (h : Sendable lib w uuid to_ q s) :
    ∃ sent s₁ b, s₁.find s.next = some b ∧ b.closure = some c ∧
      sipRelay lib w (some c) uuid to_ q ⟨s, .caller⟩ =
        match cmdSessionAdd s.sessions w.memory s.next uuid with
        | some sessions => .ok (0, sent, ⟨{ s₁ with sessions }, .transaction s.next⟩)
        | none => .ok (-1, sent, ⟨s₁, .transaction s.next⟩) := by
  obtain ⟨route, hto⟩ := Option.isSome_iff_exists.mp h.route
  obtain ⟨via, hfirst, hbranch⟩ := h.branch
  obtain ⟨branch, hbranch⟩ := Option.isSome_iff_exists.mp hbranch
  obtain ⟨n, hn⟩ := Option.isSome_iff_exists.mp h.event
  obtain ⟨s₁, hroute⟩ : ∃ s₁, (w.answer lib uuid to_ q s).route s = (some n, s₁) :=
    ⟨_, Prod.ext hn rfl⟩
  obtain ⟨hses, hnext, hno⟩ := route_fresh hlt hroute
  -- the headers
  obtain ⟨vias, hvias⟩ : ∃ vias, q.vias = via :: vias := by
    cases hq : q.vias with
    | nil =>
        rw [hq] at hfirst
        cases hfirst
    | cons v vias =>
        rw [hq] at hfirst
        exact ⟨vias, by rw [Option.some.inj hfirst]⟩
  obtain ⟨sent, hrecord⟩ := addRecordRoute_returns (w.names n)
    (m := (q.forwarded lib value).routed (w.names n) branch route) h.uri
  have hheaders : relayHeaders lib (w.names n) route (q.forwarded lib value) = .ok (some sent) :=
    relayHeaders_eq_some.mpr ⟨via, vias, branch, hvias, hbranch, hrecord⟩
  -- the transaction
  obtain ⟨s₂, hloop, hses₂, hnet₂, b, hb, hbc⟩ :=
    loop_returns (route_net hroute) hno h.created (msgIsInvite q) c
  obtain ⟨s₃, hupdate⟩ := update_returns hnet₂ w.quiet
  obtain ⟨hheld₃, hses₃, -⟩ := update_frame hupdate
  refine ⟨sent, s₃, b, ?_, hbc, ?_⟩
  · rw [Sip.find, hheld₃, ← hnext]
    exact hb
  · rw [sipRelay]
    simp only [if_neg hnull, hvalue, hto, hroute]
    rw [hheaders]
    show (if w.newEvent = true then _ else _ : Except Fault (ℤ × Message × RelayState)) = _
    rw [if_pos h.newEvent, hloop]
    show (netEventUpdate n w.quiet s₂ >>= _) = _
    rw [hupdate]
    show (match cmdSessionAdd s₃.sessions w.memory s₁.next uuid with
      | some sessions => _
      | none => _ : Except Fault (ℤ × Message × RelayState)) = _
    rw [hses₃, hses₂, hses, hnext]
    cases cmdSessionAdd s.sessions w.memory s.next uuid <;> rfl

/-- **A session that is not taken**: the call fails, and a transaction has the request and the
closure. -/
theorem relay_unregistered (hlt : ∀ i, s.sessions.Has i → i < s.next) (hnull : ¬ uuid.IsNull)
    (hvalue : maxForward lib q.headers = some value) (h : Sendable lib w uuid to_ q s)
    (hreg : ¬ Registers w uuid s) :
    ∃ q' s' b, sipRelay lib w (some c) uuid to_ q ⟨s, .caller⟩ =
        .ok (-1, q', ⟨s', .transaction s.next⟩) ∧
      s'.find s.next = some b ∧ b.closure = some c := by
  obtain ⟨sent, s₁, b, hb, hbc, heq⟩ := relay_sends (c := c) hlt hnull hvalue h
  rw [Registers, Option.not_isSome_iff_eq_none] at hreg
  rw [hreg] at heq
  exact ⟨sent, s₁, b, heq, hb, hbc⟩

end Atomicity

/-- **A relay that fails leaves everything as it was**, in every state of a run, exactly when it is
refused at once or does not fail. -/
theorem relay_atomic_iff (lib : RelayLib) (hlib : lib.Documented) (ops : List SipOp) {s : Sip}
    (hrun : sipRun sipInitial ops = .ok s) (w : RelayWorld) (closure : Option ℕ) (uuid : Uuid)
    (to_ : AorRecord) (q : Message) :
    (∃ ret q' st', sipRelay lib w closure uuid to_ q ⟨s, .caller⟩ = .ok (ret, q', st') ∧
        (ret ≠ 0 → Unaltered closure q q' s st')) ↔
      Refused lib closure uuid q ∨ Sendable lib w uuid to_ q s ∧ Registers w uuid s := by
  have hlt := ((Answers.initial (D := False)).run False.elim hrun).session_lt
  have hid := ((Answers.initial (D := False)).run False.elim hrun).id_lt
  have hsame : Unaltered closure q q s ⟨s, .caller⟩ :=
    ⟨rfl, rfl, rfl, rfl, rfl, fun a ha hle => absurd (hid a ha) (not_lt_of_ge hle), fun _ hx => hx⟩
  rcases closure with _ | c
  · exact ⟨fun _ => Or.inl (Or.inl rfl), fun _ => ⟨-1, q, ⟨s, .caller⟩, rfl, fun _ => hsame⟩⟩
  · by_cases hnull : uuid.IsNull
    · refine ⟨fun _ => Or.inl (Or.inr (Or.inl hnull)), fun _ => ⟨-1, q, ⟨s, .caller⟩, ?_,
        fun _ => hsame⟩⟩
      rw [sipRelay]
      simp only [if_pos hnull]
      rfl
    · cases hvalue : maxForward lib q.headers with
      | none =>
          refine ⟨fun _ => Or.inl (Or.inr (Or.inr (maxForward_eq_none.mp hvalue))),
            fun _ => ⟨-1, q, ⟨s, .caller⟩, ?_, fun _ => hsame⟩⟩
          rw [sipRelay]
          simp only [if_neg hnull, hvalue]
          rfl
      | some value =>
          constructor
          · rintro ⟨ret, q', st', h, hret⟩
            obtain ⟨hheaders, hsent⟩ := relay_walk hlt hnull hvalue h
            refine Or.inr (hsent ?_)
            by_contra hne
            exact forwarded_ne hlib hvalue (hheaders.symm.trans (hret hne).headers)
          · rintro ((hnone | hnull' | hrefused) | ⟨hsend, hreg⟩)
            · cases hnone
            · exact absurd hnull' hnull
            · rw [maxForward_eq_none.mpr hrefused] at hvalue
              cases hvalue
            · obtain ⟨sent, s₁, b, -, -, heq⟩ := relay_sends (c := c) hlt hnull hvalue hsend
              obtain ⟨sessions, hadd⟩ := Option.isSome_iff_exists.mp hreg
              rw [hadd] at heq
              exact ⟨0, sent, _, heq, fun h => absurd rfl h⟩

section Example

/-- The osip library, for headers that say a number. -/
def osipRelay : RelayLib where
  byname params name := params.find? fun p => p.gname = some name
  maxForwards headers := headers.find? fun h => h.gname = some (str "Max-Forwards")
  replaceHeader headers name value :=
    ((headers.find? fun h => h.gname = some name).elim headers headers.erase) ++
      [⟨some name, some value⟩]
  osipAtoi value :=
    let n := strtoulDigits 10 (value.getD [])
    if n < 2 ^ 31 then n else -1

lemma osipRelay_documented : osipRelay.Documented where
  found _ _ h := List.mem_of_find?_eq_some h
  replaced _ _ := List.perm_append_singleton _ _
  atoi_decimal n hn := by
    show (if strtoulDigits 10 (decimal n) < 2 ^ 31 then
      ((strtoulDigits 10 (decimal n) : ℕ) : ℤ) else -1) = n
    rw [strtoulDigits_decimal, if_pos hn]
  atoi_lt value := by
    show (if strtoulDigits 10 (value.getD []) < 2 ^ 31 then
      ((strtoulDigits 10 (value.getD []) : ℕ) : ℤ) else -1) < 2 ^ 31
    split
    · omega
    · decide

/-- Everything succeeds, over UDP. -/
def plainRelay : RelayWorld where
  bound := none
  connects := false
  names _ := ⟨str "UDP", some (str "h"), some (str "5060")⟩
  newEvent := true
  loop := ⟨none, true, true, [{ }]⟩
  quiet := false
  memory := true

/-- A contact that was registered over the event `1`. -/
def relayContact : AorRecord := { id := 1, route := some (sipUri "b" "g" []) }

/-- An INVITE of the bus. -/
def relayInvite : Message where
  sipMethod := some (str "INVITE")
  reqUri := some (sipUri "b" "h" [])
  vias := [{ viaParams := [⟨some (str "branch"), some (str "z9hG4bK1")⟩] }]

/-- A request whose session is new. -/
theorem relay_atomic_one :
    ∃ s ret q' st', sipRun sipInitial [.accept false] = .ok s ∧
      sipRelay osipRelay plainRelay (some 0) ⟨1, 2⟩ relayContact relayInvite ⟨s, .caller⟩ =
        .ok (ret, q', st') ∧ (ret ≠ 0 → Unaltered (some 0) relayInvite q' s st') := by
  obtain ⟨ret, q', st', h⟩ := (relay_atomic_iff osipRelay osipRelay_documented [.accept false] rfl
    plainRelay (some 0) ⟨1, 2⟩ relayContact relayInvite).mpr
      (Or.inr ⟨⟨rfl, rfl, ⟨_, rfl, rfl⟩, fun _ => rfl, rfl, rfl⟩, rfl⟩)
  exact ⟨_, ret, q', st', rfl, h⟩

/-- **A session id that is in use**: the call fails, and a transaction sends the request on and has
the closure. -/
theorem session_in_use :
    ∃ s q' st', sipRun sipInitial [.accept false, .request (relayed [{ }])] = .ok s ∧
      sipRelay osipRelay plainRelay (some 1) ⟨1, 2⟩ relayContact relayInvite ⟨s, .caller⟩ =
        .ok (-1, q', st') ∧
      st'.owner = .transaction 2 ∧ (∃ a ∈ st'.sip.held, a.id = 2 ∧ a.closure = some 1) ∧
      ¬ Unaltered (some 1) relayInvite q' s st' := by
  refine ⟨_, _, _, rfl, rfl, rfl, ⟨_, List.mem_cons_self, rfl, rfl⟩, fun h => ?_⟩
  exact absurd h.owner (by simp)

end Example

end SipEcho
