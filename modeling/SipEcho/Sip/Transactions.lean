import SipEcho.Lib.Loop
import SipEcho.Map.Delete
import SipEcho.Sip.Callback

/-!
The transactions of osip as the program sees them: how they are made, executed and destroyed,
with the events they belong to, the sessions under which the bus knows them and the closures with
which the bus waits for its answers.

osip is a parameter: an `Outcome` is what one `osip_transaction_execute` does, with the callbacks
and the sending inside it.  `sip_loop` attaches an event to every transaction it makes, and
`sip_relay`, which makes the client transactions, a closure too.  To read an event or a transaction
after it was freed is a crash; the memory of the messages is not modelled.

* `sipDestroy`, `sipDelete`, `sipCall`, `sipLoop`, `sipRelay`, `sipProxy`, `cmdMaintainRequest`,
  `sipFinalize`, `sipRedo`, `sipTimeout`: the functions of the source;
* `SipOp`, `sipStep`, `sipRun`: what can happen, in any order.
-/

namespace SipEcho.Transactions

/-- `osip_transaction_t`, with the data the program attaches to it: the id of the event, the
closure, given by the number of the request, and the count of the retries. -/
structure Transaction where
  id : ℕ
  invite : Bool
  net : ℕ
  closure : Option ℕ
  retry : ℕ := 0
  lastResponse : Option ℕ := none
  deriving DecidableEq, Repr

/-- `ctx_type`: the transactions with a closure are those of a client. -/
def Transaction.ctxType (a : Transaction) : FsmType :=
  match a.closure, a.invite with
  | some _, true => .ict
  | some _, false => .nict
  | none, true => .ist
  | none, false => .nist

/-- `net_event_t`: whether it is an outgoing connection, and its entities. -/
structure NetEvent where
  id : ℕ
  connect : Bool
  entities : List ℕ
  deriving DecidableEq, Repr

/-- What osip holds, the events, the sessions, and the requests of the bus: the calls of the
closures, each with the status code, `none` if there is no message; the requests that were
rejected; and those whose transaction was handed to `sip_destroy`. -/
structure Sip where
  held : List Transaction
  next : ℕ
  nets : List NetEvent
  netId : ℕ
  sessions : Sessions
  requests : ℕ
  answers : List (ℕ × Option ℕ)
  rejected : List ℕ
  deleted : List ℕ

/-- A call that may crash. -/
abbrev SipCall (α : Type) := Sip → Except Fault (α × Sip)

/-- How often the closure of a request was called. -/
def Sip.answered (s : Sip) (c : ℕ) : ℕ := s.answers.countP (·.1 = c)

/-- The transaction with an id. -/
def Sip.find (s : Sip) (id : ℕ) : Option Transaction := s.held.find? fun a => a.id = id

/-- The event with an id. -/
def Sip.net (s : Sip) (n : ℕ) : Option NetEvent := s.nets.find? fun e => e.id = n

/-- A transaction is written. -/
def Sip.modify (s : Sip) (id : ℕ) (f : Transaction → Transaction) : Sip :=
  { s with held := s.held.map fun a => if a.id = id then f a else a }

/-- `osip_remove_transaction`, `osip_transaction_free2`. -/
def Sip.remove (s : Sip) (id : ℕ) : Sip := { s with held := s.held.filter fun a => a.id ≠ id }

/-- The entities of an event are written. -/
def Sip.entities (s : Sip) (n : ℕ) (f : List ℕ → List ℕ) : Sip :=
  { s with nets := s.nets.map fun e => if e.id = n then { e with entities := f e.entities } else e }

/-- The entities of an event gain a transaction. -/
def enter (id : ℕ) (entities : List ℕ) : List ℕ :=
  if id ∈ entities then entities else id :: entities

/-- `map_free(__event)` for one event: it is gone. -/
def Sip.drop (s : Sip) (n : ℕ) : Sip := { s with nets := s.nets.filter fun e => e.id ≠ n }

/-- The closure of a request is called. -/
def Sip.answer (s : Sip) (c : ℕ) (code : Option ℕ) : Sip :=
  { s with answers := (c, code) :: s.answers }

/-! ### Destroying transactions -/

/-- The response `sip_destroy` answers with. -/
def Transaction.answerCode (a : Transaction) : ℕ :=
  match a.lastResponse with
  | some code => code
  | none => if a.retry ≠ sipRetry then 502 else 408

/-- `sip_destroy`. -/
def sipDestroy (id : ℕ) (s : Sip) : Except Fault Sip :=
  match s.find id with
  | none => .error .crash
  | some a =>
      match a.closure with
      | none => .ok (s.remove id)
      | some c =>
          let s := { s with deleted := c :: s.deleted }
          match cmdSessionDestroy s.sessions id with
          -- there is no session: nothing is answered, and the transaction stays
          | (none, _) => .ok s
          | (some _, sessions) =>
              .ok (({ s with sessions }.answer c (some a.answerCode)).remove id)

/-- `sip_delete`. -/
def sipDelete (id : ℕ) (s : Sip) : Except Fault Sip :=
  match s.find id with
  | none => .error .crash
  | some a =>
      match s.net a.net with
      | none => .error .crash
      | some _ => sipDestroy id (s.entities a.net (·.erase id))

/-- `map_free` for the entities of an event: each is handed to `sip_destroy`. -/
def destroyAll : List ℕ → Sip → Except Fault Sip
  | [], s => .ok s
  | id :: ids, s => do destroyAll ids (← sipDestroy id s)

/-- `net_event_free`. -/
def netEventFree (n : ℕ) (s : Sip) : Except Fault Sip :=
  match s.net n with
  | none => .error .crash
  | some e => destroyAll e.entities (s.drop n)

/-- `net_event_update`; `quiet` says that nothing is left to be sent. -/
def netEventUpdate (n : ℕ) (quiet : Bool) (s : Sip) : Except Fault Sip :=
  match s.net n with
  | none => .error .crash
  | some e =>
      if quiet = true ∧ e.connect = true ∧ e.entities = [] then netEventFree n s else .ok s

/-! ### Executing transactions -/

/-- What one `osip_transaction_execute` does: the query a callback of a server transaction makes,
with the memory for its session and the random uuid; the count of retries and the last response it
leaves, if it writes them; and whether `sip_call` finds a state it deletes the transaction in. -/
structure Outcome where
  query : Option (Bool × Uuid) := none
  retry : Option ℕ := none
  lastResponse : Option ℕ := none
  ended : Bool := false
  deriving DecidableEq, Repr

/-- The sessions after it: `cmd_session_get`. -/
def Outcome.sessions (o : Outcome) (a : Transaction) (ses : Sessions) : Sessions :=
  match a.closure, o.query with
  | none, some (memory, uuid) => (cmdSessionGet ses memory uuid a.id).2
  | _, _ => ses

/-- The transaction after it. -/
def Outcome.execute (o : Outcome) (a : Transaction) : Transaction :=
  { a with
    retry := o.retry.getD a.retry
    lastResponse := o.lastResponse.orElse fun _ => a.lastResponse }

/-- `sip_call`: whether the transaction was deleted. -/
def sipCall (id : ℕ) (o : Outcome) : SipCall Bool := fun s =>
  match s.find id with
  | none => .error .crash
  | some a =>
      let s := { s.modify id o.execute with sessions := o.sessions a s.sessions }
      if o.ended then do return (true, ← sipDelete id s) else return (false, s)

/-- The loop of `sip_loop`: the events in the queue of the transaction. -/
def sipCalls (id : ℕ) : List Outcome → Sip → Except Fault Sip
  | [], s => .ok s
  | o :: os, s => do
      let (ended, s) ← sipCall id o s
      if ended then return s else sipCalls id os s

/-- What `sip_loop` meets: the transaction osip finds for the event, whether it can make one,
whether the map of entities has memory, and what the calls do. -/
structure LoopAnswer where
  found : Option ℕ
  created : Bool
  memory : Bool
  outcomes : List Outcome

/-- `map_push(net->entities, a)`. -/
def pushEntity (memory : Bool) (a : Transaction) (s : Sip) : Except Fault Sip :=
  match s.net a.net with
  | none => .error .crash
  | some _ => .ok (if memory then s.entities a.net (enter a.id) else s)

/-- `osip_create_transaction`. -/
def Sip.create (s : Sip) (a : Transaction) : Sip :=
  { s with held := a :: s.held, next := s.next + 1 }

/-- `sip_loop`: the id of the transaction, if there is one. -/
def sipLoop (w : LoopAnswer) (invite : Bool) (net : ℕ) (closure : Option ℕ) :
    SipCall (Option ℕ) := fun s =>
  match w.found.bind s.find with
  | some a => do
      let s ← pushEntity w.memory a s
      return (some a.id, ← sipCalls a.id w.outcomes s)
  | none =>
      if w.created then do
        let a : Transaction := { id := s.next, invite, net, closure }
        let s ← pushEntity w.memory a (s.create a)
        return (some a.id, ← sipCalls a.id w.outcomes s)
      else return (none, s)

/-! ### Requests of the bus -/

/-- What `sip_relay` meets: the id of the event of the contact, or the event that is bound, or
whether a connection can be opened; whether the request can be forwarded and prepared; what the
loop meets; whether anything is left to be sent; and whether the map of sessions has memory. -/
structure RelayAnswer where
  forwards : Bool
  net : Option ℕ
  connects : Bool
  prepared : Bool
  invite : Bool
  loop : LoopAnswer
  quiet : Bool
  memory : Bool

/-- `net_event_find_by_id`, `net_event_connect`. -/
def RelayAnswer.route (r : RelayAnswer) (s : Sip) : Option ℕ × Sip :=
  match r.net.bind s.net with
  | some e => (some e.id, s)
  | none =>
      if r.connects then
        (some (s.netId + 1),
          { s with nets := ⟨s.netId + 1, true, []⟩ :: s.nets, netId := s.netId + 1 })
      else (none, s)

/-- The end of `sip_relay` without a transaction. -/
def relayFailed (n : ℕ) : SipCall Bool := fun s =>
  match s.net n with
  | none => .error .crash
  | some e => if e.connect then do return (false, ← netEventFree n s) else return (false, s)

/-- `sip_relay` for the request `c`; `true` stands for its `0`.  A request to be sent matches no
transaction that osip holds. -/
def sipRelay (r : RelayAnswer) (c : ℕ) (uuid : Uuid) : SipCall Bool := fun s =>
  if r.forwards = false then return (false, s)
  else
    match r.route s with
    | (none, s) => return (false, s)
    | (some n, s) =>
        if r.prepared = false then relayFailed n s
        else do
          let (a, s) ← sipLoop { r.loop with found := none } r.invite n (some c) s
          match a with
          | none => relayFailed n s
          | some id => do
              let s ← netEventUpdate n r.quiet s
              match cmdSessionAdd s.sessions r.memory id uuid with
              | some sessions => return (true, { s with sessions })
              | none => return (false, s)

/-- `cmd_maintain_request` and `sip_proxy` reject a request: the closure is called. -/
def Sip.reject (s : Sip) (c : ℕ) (code : Option ℕ) : Sip :=
  { s.answer c code with rejected := c :: s.rejected }

/-- `sip_proxy`: the first contact that can be used, if any, and the code of the rejection. -/
def sipProxy (relay : Option RelayAnswer) (code : ℕ) (c : ℕ) (uuid : Uuid) (s : Sip) :
    Except Fault Sip :=
  match relay with
  | none => .ok (s.reject c (some code))
  | some r => do
      let (accepted, s) ← sipRelay r c uuid s
      return if accepted then s else s.reject c (some code)

/-- A reply of the bus: the uuid it carries, its code, `0` if there is none or no message; whether
osip finds a server transaction for it; the memory for a response; and what follows. -/
structure BusReply where
  uuid : Uuid
  code : ℕ
  found : Bool
  build : Bool
  outcome : Outcome
  quiet : Bool

/-- `sip_finalize`. -/
def sipFinalize (r : BusReply) (s : Sip) : Except Fault Sip :=
  match (cmdSessionFind s.sessions r.uuid).bind s.find with
  | none => .ok s
  | some a =>
      if r.found = true ∧ a.closure = none then do
        let (_, s) ← sipCall a.id r.outcome s
        netEventUpdate a.net r.quiet s
      else .ok s

/-- `sip_finalize_failure`. -/
def sipFinalizeFailure (r : BusReply) (s : Sip) : Except Fault Sip :=
  match (cmdSessionFind s.sessions r.uuid).bind s.find with
  | none => .ok s
  | some a =>
      if r.build then do
        let (_, s) ← sipCall a.id r.outcome s
        netEventUpdate a.net r.quiet s
      else sipDelete a.id s

/-- `cmd_finalise_request`. -/
def cmdFinaliseRequest (r : BusReply) (s : Sip) : Except Fault Sip :=
  if r.code = 0 then sipFinalizeFailure r s else sipFinalize r s

/-- A call of the bus: whether there was memory for its token, the reply it carries, whether it is
a request with a head and a CSeq and can be converted, its uuid, and what `sip_proxy` meets. -/
structure BusRequest where
  token : Bool
  reply : Option BusReply
  converts : Bool
  uuid : Uuid
  relay : Option RelayAnswer
  code : ℕ

/-- `cmd_maintain_request`; the requests are numbered. -/
def cmdMaintainRequest (q : BusRequest) (s : Sip) : Except Fault Sip :=
  if q.token = false then .ok s
  else
    let c := s.requests
    let s := { s with requests := s.requests + 1 }
    match q.reply with
    | some r => do return (← cmdFinaliseRequest r s).reject c none
    | none =>
        if q.converts = false then .ok (s.reject c none)
        else sipProxy q.relay q.code c q.uuid s

/-! ### Other events -/

/-- `sip_redo`, the timer of a transaction. -/
def sipRedo (id : ℕ) (o : Outcome) (quiet : Bool) (s : Sip) : Except Fault Sip :=
  match s.find id with
  | none => .ok s
  | some a =>
      if a.ctxType = .nist then sipDelete id s
      else do
        let (ended, s) ← sipCall id o s
        let s := if ended then s else s.modify id fun a' => { a' with retry := a.retry + 1 }
        netEventUpdate a.net quiet s

/-- The loop of `sip_timeout`. -/
def deleteAll : List ℕ → Sip → Except Fault Sip
  | [], s => .ok s
  | id :: ids, s => do deleteAll ids (← sipDelete id s)

/-- `sip_timeout`; `old` tells which transactions are.  Those are put in front of a list of their
own, the newest first, and so the oldest goes first. -/
def sipTimeout (n : ℕ) (old : ℕ → Bool) (s : Sip) : Except Fault Sip :=
  match s.net n with
  | none => .ok s
  | some e => deleteAll (e.entities.filter old).reverse s

/-- What can happen. -/
inductive SipOp where
  /-- A new event, accepted, opened or bound. -/
  | accept (connect : Bool)
  /-- `cmd_maintain_request` -/
  | request (q : BusRequest)
  /-- `sip_execute` -/
  | receive (n : ℕ) (w : LoopAnswer) (invite : Bool)
  | redo (id : ℕ) (o : Outcome) (quiet : Bool)
  | timeout (n : ℕ) (old : ℕ → Bool)
  /-- `net_event_update` at the end of a callback -/
  | update (n : ℕ) (quiet : Bool)
  /-- `net_event_close` -/
  | lose (n : ℕ)

/-- One step; nothing happens on an event that is gone. -/
def sipStep (s : Sip) : SipOp → Except Fault Sip
  | .accept connect =>
      .ok { s with nets := ⟨s.netId + 1, connect, []⟩ :: s.nets, netId := s.netId + 1 }
  | .request q => cmdMaintainRequest q s
  | .receive n w invite =>
      match s.net n with
      | none => .ok s
      | some _ => do return (← sipLoop w invite n none s).2
  | .redo id o quiet => sipRedo id o quiet s
  | .timeout n old => sipTimeout n old s
  | .update n quiet => if (s.net n).isSome then netEventUpdate n quiet s else .ok s
  | .lose n => if (s.net n).isSome then netEventFree n s else .ok s

def sipRun (s : Sip) : List SipOp → Except Fault Sip
  | [] => .ok s
  | op :: ops => do sipRun (← sipStep s op) ops

/-- Before the first event. -/
def sipInitial : Sip where
  held := []
  next := 1
  nets := []
  netId := 0
  sessions := .empty
  requests := 0
  answers := []
  rejected := []
  deleted := []

end SipEcho.Transactions
