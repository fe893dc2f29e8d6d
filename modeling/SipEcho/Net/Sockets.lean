import SipEcho.Map.Delete
import SipEcho.Mqtt.Pack
import SipEcho.Net.Outgoing

/-!
The life of an event and of its descriptor: `net_event_new`, the ways to delete an event, and what
opens a connection.

Deleting an event of the bus application calls `cmd_release`, which opens the connection to the
broker again; `reopen` stands for that call, and `netEventConnect` closes the cycle.  `Setup` is
what the surroundings answer while one event is set up; a call takes the answers of all events it
sets up, and fails with `Fault.fuel` when it needs more of them.
-/

namespace SipEcho.Sockets

/-! ### The bus protocol begins -/

/-- What `cmd_new` and `cmd_open` know of the bus connection. -/
structure BusArgs where
  name : Str
  host : Str
  user : Option Str
  password : Option Str

/-- The client id `begin` makes: `port@host@name`. -/
def BusArgs.clientId (t : BusArgs) (port : ℕ) : Str :=
  portDigits port ++ str "@" ++ t.host ++ str "@" ++ t.name

/-- `begin`: the CONNECT packet is packed and relayed; `malloc` and `relay` say whether there is
memory for it, and whether `cmd_relay` takes it.  `ERROR` answers `-2`. -/
def transportBegin (t : BusArgs) (port : ℕ) (malloc relay : Bool) : ℤ :=
  if malloc then
    match mqttPackConnectionRequest 256 (t.clientId port) t.user t.password 2 60 with
    | .ok (some _) => if relay then 0 else -1
    | .ok none => -1
    | .error _ => -2
  else -1

/-! ### Events -/

/-- What the surroundings answer while an event is set up: a descriptor that is not open, memory
for the event, `event_new`, `net->init`, memory for the operands, `app->acquire` of the resolver,
memory for the protocol object, the local port, memory for its packet and for the chunk,
`net->assign`. -/
structure Setup where
  fd : List ℕ → Option ℕ
  calloc : Bool
  event : Bool
  init : Bool
  operand : Bool
  resolver : Bool
  transport : Bool
  port : ℕ
  malloc : Bool
  relay : Bool
  assign : Bool
  fd_new : ∀ opened fd', fd opened = some fd' → fd' ∉ opened

/-- `net_event_t`, as far as its descriptor depends on it; `addr` stands for its address. -/
structure SocketEvent where
  addr : ℕ
  id : ℕ
  fd : ℕ
  net : NetName
  app : App
  type : NetType
  deriving DecidableEq

/-- The map `__event`, `__id`, `__con`, the open descriptors, the closes of descriptors that were
not open, and the number of calls of `net->connect`. -/
structure NetState where
  events : List SocketEvent
  id : ℕ
  con : Option ℕ
  opened : List ℕ
  stray : List ℕ
  attempts : ℕ

/-- A call that may crash or not come back. -/
abbrev NetCall (α : Type) := NetState → Except Fault (α × NetState)

/-- `close`. -/
def NetState.close (s : NetState) (fd : ℕ) : NetState :=
  if fd ∈ s.opened then { s with opened := s.opened.erase fd }
  else { s with stray := fd :: s.stray }

/-- `net_event_find_by_bind`. -/
def netEventFindByBind (s : NetState) (net : NetName) (app : App) : Option SocketEvent :=
  s.events.find? fun e => e.net = net ∧ e.app = app ∧ e.type = .listen

/-- `net_event_find_by_id`. -/
def netEventFindById (s : NetState) (id : ℕ) : Option SocketEvent :=
  s.events.find? fun e => e.id = id

/-- `net_event_new`.  Without an `event` the half-made event is handed to `net_event_delete`,
which reads its descriptor.  `map_push` refuses a second listener of one network and application,
and its `assert` aborts; there is memory for its item. -/
def netEventNew (a : Setup) (fd : ℕ) (net : NetName) (app : App) (type : NetType) :
    NetCall (Option SocketEvent) := fun s =>
  if a.calloc then
    if a.event then
      if type = .listen ∧ (netEventFindByBind s net app).isSome then throw .crash
      else
        let e : SocketEvent := { addr := s.id + 1, id := s.id + 1, fd, net, app, type }
        return (some e, { s with id := s.id + 1, events := e :: s.events })
    else throw .crash
  else return (none, s)

section Delete

variable (reopen : NetCall ℤ)

/-- `cmd_release`; `reopen` is the `net_open` of `cmd_open`. -/
def cmdRelease (e : SocketEvent) : NetCall ℤ := fun s =>
  if s.con = some e.addr then
    let s := { s with con := none }
    if e.id ≠ 0 then reopen s else return (0, s)
  else return (0, s)

/-- `net_event_delete`: the descriptor that is left to close. -/
def netEventDelete (e : SocketEvent) : NetCall ℕ := fun s =>
  match e.app with
  | .cmd => do
      let (_, s) ← cmdRelease reopen e s
      return (e.fd, s)
  | .sip | .dns => return (e.fd, s)

/-- `net_event_delete_id`, of an event the map is rid of. -/
def netEventDeleteId (e : SocketEvent) : NetCall Unit := fun s => do
  let (fd, s) ← netEventDelete reopen { e with id := 0 } s
  return ((), if 0 < fd then s.close fd else s)

/-- `net_event_free`: the descriptor is left to the caller. -/
def netEventFree (e : SocketEvent) : NetCall ℕ := fun s =>
  netEventDelete reopen e { s with events := s.events.erase e }

/-- `net_event_close`, and `net_event_fail`, which logs and closes. -/
def netEventClose (e : SocketEvent) : NetCall Unit := fun s => do
  let (fd, s) ← netEventFree reopen e s
  return ((), if 0 < fd then s.close fd else s)

/-- `net_event_update`; `idle` says that the outgoing map is empty, and that the event has a map
of entities, which is empty too.  The bus application has no such map. -/
def netEventUpdate (e : SocketEvent) (idle : Bool) : NetCall Unit := fun s =>
  if e.type = .connect ∧ e.app ≠ .cmd ∧ idle then do
    let (_, s) ← netEventFree reopen e s
    return ((), s)
  else return ((), s)

end Delete

/-! ### New events -/

/-- `cmd_acquire`. -/
def cmdAcquire (t : BusArgs) (a : Setup) (e : SocketEvent) (s : NetState) : ℤ × NetState :=
  if e.type = .connect then
    let s := { s with con := some e.addr }
    if a.transport then (transportBegin t a.port a.malloc a.relay, s) else (-1, s)
  else (0, s)

/-- `app->acquire`: the SIP stack has none. -/
def netAcquire (t : BusArgs) (a : Setup) (e : SocketEvent) (s : NetState) : ℤ × NetState :=
  match e.app with
  | .cmd => cmdAcquire t a e s
  | .dns => (if a.resolver then 0 else -1, s)
  | .sip => (0, s)

/-- `app->operand`: only the bus has one. -/
def netOperand (a : Setup) (app : App) : ℤ := if app = .cmd ∧ a.operand = false then -1 else 0

/-- `net->init`: only TLS has one. -/
def netInit (a : Setup) (net : NetName) : ℤ := if net = .tls ∧ a.init = false then -1 else 0

/-- `net->assign`: only TLS has one. -/
def netAssign (a : Setup) (net : NetName) : ℤ := if net = .tls ∧ a.assign = false then -1 else 0

/-- What is asked of a new event, one after the other; `before` is the operand or the
initialisation. -/
def netSetUp (t : BusArgs) (a : Setup) (e : SocketEvent) (before : ℤ) (s : NetState) :
    Bool × NetState :=
  if before ≠ 0 then (false, s)
  else
    let (n, s) := netAcquire t a e s
    (n = 0 && netAssign a e.net = 0, s)

/-- An event over a new descriptor, which is closed again when something fails. -/
def netEventBegin (t : BusArgs) (reopen : NetCall ℤ) (a : Setup) (fd : ℕ) (net : NetName)
    (app : App) (type : NetType) (before : ℤ) : NetCall (Option SocketEvent) := fun s => do
  let (e, s) ← netEventNew a fd net app type s
  match e with
  | none => return (none, s)
  | some e => do
      let (ready, s) := netSetUp t a e before s
      if ready then return (some e, s)
      else do
        let (_, s) ← netEventClose reopen e s
        return (none, s)

/-- `net_event_connect_v`.  `udp` has no `connect`, and that of `tls` fails. -/
def netEventConnect (t : BusArgs) : List Setup → NetName → App → NetCall (Option SocketEvent)
  | [], _, _ => fun _ => throw .fuel
  | a :: as, net, app => fun s =>
      match netEventFindByBind s net app with
      | none => return (none, s)
      | some bound =>
          match bound.net with
          | .udp => return (some bound, s)
          | .tls => return (none, { s with attempts := s.attempts + 1 })
          | .tcp =>
              let s := { s with attempts := s.attempts + 1 }
              match a.fd s.opened with
              | none => return (none, s)
              | some fd =>
                  let reopen : NetCall ℤ := fun s => do
                    let (e, s) ← netEventConnect t as .tcp .cmd s
                    return (if e.isSome then 0 else -1, s)
                  netEventBegin t reopen a fd bound.net bound.app .connect (netOperand a bound.app)
                    { s with opened := fd :: s.opened }

/-- `net_open`, as `cmd_open` calls it. -/
def netOpen (t : BusArgs) (as : List Setup) : NetCall ℤ := fun s => do
  let (e, s) ← netEventConnect t as .tcp .cmd s
  return (if e.isSome then 0 else -1, s)

/-- `net_event_open`; the answers `as` are for connections to the broker. -/
def netEventOpen (t : BusArgs) (a : Setup) (as : List Setup) (net : NetName) (app : App) :
    NetCall (Option SocketEvent) := fun s =>
  match a.fd s.opened with
  | none => return (none, s)
  | some fd =>
      netEventBegin t (netOpen t as) a fd net app .listen (netInit a net)
        { s with opened := fd :: s.opened }

end SipEcho.Sockets
