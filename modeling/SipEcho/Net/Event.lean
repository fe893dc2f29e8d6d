import SipEcho.Lib.Loop
import SipEcho.Net.SipRead
import SipEcho.Proto.Transport

/-!
`net_event_t`, the three `execute` callbacks of the applications, and the receive loop of
`net_callback_inout`:

    while (!mem_empty(incoming) && !execute(event)) mem_align(incoming);

`Env` is everything outside: the osip library and what `sip_loop` makes of a message, the
surroundings of the bus protocol, the resolver library.  `handed` and `answered` record what an
event has given away: the frames `osip_parse` was called on, and the queries answered.
-/

namespace SipEcho

/-- The application of an event. -/
inductive App where
  | sip
  | cmd
  | dns
  deriving DecidableEq, Repr

/-- The type of an event. -/
inductive NetType where
  | listen
  | accept
  | connect
  deriving DecidableEq, Repr

/-- `dns_entity_t`; `opaqueVal` stands for the callback and its argument. -/
structure DnsEntity where
  id : ℕ
  opaqueVal : ℕ
  host : Str
  deriving DecidableEq, Repr

/-- `net_event_t`. -/
structure NetEvent where
  app : App
  type : NetType
  incoming : Mem
  outgoing : List Str := []
  foo : Option Transport := none
  queries : List DnsEntity := []
  handed : List Str := []
  answered : List (DnsEntity × Option Str) := []
  deriving DecidableEq, Repr

/-- The resolver library: the id and the address records of a packet, first to last. -/
structure Ldns where
  wire2pkt : Str → Option (ℕ × List Str)
  wild : Mem → Range → Option (ℕ × List Str)

/-- The surroundings of an event. -/
structure Env where
  osip : Osip
  /-- Whether `sip_loop` returns a transaction for the message of the frame with this number. -/
  loop : ℕ → Message → Bool
  bus : Bus
  ldns : Ldns

variable (env : Env)

/-- `sip_execute`.  What it adds to the message before `sip_loop` sees it changes no cursor. -/
def sipExecute (e : NetEvent) : NetEvent × ℤ :=
  let r := sipRead env.osip e.incoming
  let e' :=
    { e with
      incoming := r.mem
      outgoing := e.outgoing ++ r.output.toList
      handed := e.handed ++ (r.parsed.map e.incoming.slice).toList }
  match r.event with
  | none => (e', -1)
  | some sip => if env.loop e.handed.length sip then (e', 0) else (e', -1)

/-- `cmd_execute`. -/
def cmdExecute (e : NetEvent) : NetEvent × ℤ :=
  match e.foo with
  | none => (e, 0)
  | some t =>
      let (t, len) := command env.bus t e.incoming.unread
      let e := { e with foo := some t }
      if len < 0 then (e, -1)
      else
        let begin := u16 (e.incoming.begin + len)
        ({ e with incoming := { e.incoming with begin, done := begin } }, 0)

/-- `dns_execute`: the query with the id of the reply is answered with its last address. -/
def dnsExecute (e : NetEvent) : NetEvent × ℤ :=
  let m := e.incoming
  let r : Range := ⟨m.done, m.end_ - m.done⟩
  let pkt := if r.Inside m.length then env.ldns.wire2pkt (m.slice r) else env.ldns.wild m r
  let consumed := { m with begin := m.end_, done := m.end_ }
  match pkt with
  | none => ({ e with incoming := consumed }, -1)
  | some (id, addresses) =>
      match e.queries.find? (·.id = id) with
      | none => ({ e with incoming := consumed }, -1)
      | some query =>
          ({ e with
             incoming := consumed
             queries := e.queries.filter (·.id ≠ id)
             answered := e.answered ++ [(query, addresses.getLast?)] }, -1)

/-- `event->app->execute`. -/
def execute (e : NetEvent) : NetEvent × ℤ :=
  match e.app with
  | .sip => sipExecute env e
  | .cmd => cmdExecute env e
  | .dns => dnsExecute env e

/-- One turn of the receive loop. -/
def receiveTurn (e : NetEvent) : Lib.Turn NetEvent :=
  if memEmpty e.incoming then .stop e
  else
    match execute env e with
    | (e', ret) => if ret = 0 then .again { e' with incoming := memAlign e'.incoming } else .stop e'

/-! ### New events -/

/-- `cmd_acquire`: only an outgoing connection gets a protocol object. -/
def cmdAcquire (t : Transport) (e : NetEvent) : NetEvent :=
  if e.type = .connect then { e with foo := some t } else e

/-- The event `net_callback_accept` makes of a new connection, `buffer` being the block `malloc`
gave for it. -/
def netCallbackAccept (app : App) (t : Transport) (buffer : Str) (peer : SockAddr) : NetEvent :=
  let e : NetEvent := { app, type := .accept, incoming := memNew buffer peer }
  if app = .cmd then cmdAcquire t e else e

/-- Bytes arrive on a connection. -/
def NetEvent.tcpRead (d : Str) (e : NetEvent) : NetEvent :=
  { e with incoming := (SipEcho.tcpRead (some d) e.incoming).1 }

/-- Nobody attaches a protocol object to an accepted connection. -/
lemma netCallbackAccept_foo (app : App) (t : Transport) (buffer : Str) (peer : SockAddr) :
    (netCallbackAccept app t buffer peer).foo = none := by
  cases app <;> rfl

/-- A block of the size the sources allocate for an accepted connection. -/
@[irreducible] def acceptedBlock : Str := List.replicate 16384 0

lemma length_acceptedBlock : acceptedBlock.length = 16384 := by
  rw [acceptedBlock, List.length_replicate]

/-- An accepted connection. -/
def acceptedEvent (app : App) : NetEvent :=
  netCallbackAccept app { name := [], methods := [], host := [], port := 0 } acceptedBlock
    (.inet [49] 5060)

lemma acceptedEvent_sized (app : App) : (acceptedEvent app).incoming.Sized := by
  cases app <;> exact memNew_sized (by rw [length_acceptedBlock]; decide) _

lemma acceptedEvent_ordered (app : App) : (acceptedEvent app).incoming.Ordered := by
  cases app <;> exact memNew_ordered _ _

lemma acceptedEvent_app (app : App) : (acceptedEvent app).app = app := by
  cases app <;> rfl

lemma acceptedEvent_begin (app : App) : (acceptedEvent app).incoming.begin = 0 := by
  cases app <;> rfl

/-- Its first byte. -/
lemma acceptedEvent_tcpRead (app : App) (b : UInt8) :
    (acceptedEvent app).tcpRead [b] =
      { acceptedEvent app with incoming := recvInto [b] (acceptedEvent app).incoming } := by
  rw [NetEvent.tcpRead, tcpRead, if_pos (acceptedEvent_ordered app).end_le_length]

/-! ### What a call of `execute` does to the chunk -/

section Execute

variable {env} {e : NetEvent}

lemma execute_sip (h : e.app = .sip) : execute env e = sipExecute env e := by rw [execute, h]

lemma execute_cmd (h : e.app = .cmd) : execute env e = cmdExecute env e := by rw [execute, h]

lemma execute_dns (h : e.app = .dns) : execute env e = dnsExecute env e := by rw [execute, h]

@[simp] lemma sipExecute_incoming :
    (sipExecute env e).1.incoming = (sipRead env.osip e.incoming).mem := by
  rw [sipExecute]
  split
  · rfl
  · split <;> rfl

@[simp] lemma sipExecute_handed :
    (sipExecute env e).1.handed =
      e.handed ++ ((sipRead env.osip e.incoming).parsed.map e.incoming.slice).toList := by
  rw [sipExecute]
  split
  · rfl
  · split <;> rfl

@[simp] lemma sipExecute_app : (sipExecute env e).1.app = e.app := by
  rw [sipExecute]
  split
  · rfl
  · split <;> rfl

/-- A call that returns `0` has read an event that `sip_loop` kept. -/
lemma sipExecute_ret :
    (sipExecute env e).2 = 0 ↔
      ∃ sip, (sipRead env.osip e.incoming).event = some sip ∧
        env.loop e.handed.length sip = true := by
  rw [sipExecute]
  split
  · rename_i h
    simp [h]
  · rename_i sip h
    rw [h]
    split
    · rename_i hl
      simp [hl]
    · rename_i hl
      simp [hl]

@[simp] lemma dnsExecute_ret : (dnsExecute env e).2 = -1 := by
  simp only [dnsExecute]
  split
  · rfl
  · split <;> rfl

/-- Without a protocol object nothing is done, and that is a success. -/
lemma cmdExecute_none (h : e.foo = none) : cmdExecute env e = (e, 0) := by
  rw [cmdExecute, h]

/-- With one, a success has consumed at least two bytes. -/
lemma cmdExecute_some {t : Transport} (h : e.foo = some t) (hs : e.incoming.Sized)
    (ho : e.incoming.Ordered) (hret : (cmdExecute env e).2 = 0) :
    ∃ t' n, 2 ≤ n ∧ e.incoming.begin + n ≤ e.incoming.end_ ∧
      (cmdExecute env e).1 =
        { e with
          foo := some t'
          incoming :=
            { e.incoming with begin := e.incoming.begin + n, done := e.incoming.begin + n } } := by
  have h1 := ho.begin_le_end
  have h2 := ho.end_le_length
  have h3 := hs.length_lt
  have hunread := Mem.length_unread hs ho
  have hlen := command_ret env.bus t e.incoming.unread
  rw [cmdExecute, h] at hret ⊢
  dsimp only at hret ⊢
  split at hret
  · exact absurd hret (by simp)
  · rename_i hn
    obtain ⟨h4, h5⟩ := hlen.resolve_left hn
    rw [if_neg hn]
    rw [hunread] at h5
    obtain ⟨n, hn'⟩ := Int.eq_ofNat_of_zero_le (show 0 ≤ (command env.bus t
      e.incoming.unread).2 by omega)
    rw [hn'] at h4 h5 ⊢
    have hu : u16 (e.incoming.begin + n) = e.incoming.begin + n := by
      exact_mod_cast u16_natCast (n := e.incoming.begin + n) (by omega)
    refine ⟨(command env.bus t e.incoming.unread).1, n, by omega, by omega, ?_⟩
    rw [hu]

end Execute

end SipEcho
