import SipEcho.Mqtt.Unpack

/-!
`transport_t`, the protocol object of an outgoing bus connection, and `command`, which takes one
control packet from the front of the receive buffer and acts on it.

What `command` asks of the connection is kept in the object: the packets given to `relay`, the
methods called, the last error raised.  `Bus` decides what the connection and the protobuf
library answer.

* `command_ret`: what it returns is an error, or the length of a packet.
-/

namespace SipEcho

/-- A SUBSCRIBE packet, as `subscribe` packs it: one topic, quality of service zero. -/
structure SubscribeRequest where
  packetId : ℕ
  topic : Str
  deriving DecidableEq, Repr

/-- `transport_t`. -/
structure Transport where
  name : Str
  methods : List Str
  host : Str
  port : ℕ
  subscribes : ℕ := 0
  ready : Bool := false
  relayed : List SubscribeRequest := []
  invoked : List (ℕ × Str) := []
  err : Option MqttError := none
  deriving DecidableEq, Repr

/-- The surroundings of the protocol object: whether `relay` takes a packet, and whether the
bytes of a call unpack as the argument of the method. -/
structure Bus where
  relay : List SubscribeRequest → SubscribeRequest → Bool
  unpack : ℕ → Str → Bool

/-- `ERROR`: `cmd_error` keeps the error and answers `-2`. -/
def Transport.error (t : Transport) (e : MqttError) : Transport × ℤ :=
  ({ t with err := some e }, -2)

/-- The digits of a port number. -/
def portDigits (port : ℕ) : Str := str (toString port)

/-- The topic of a method: `name/method/host/port`. -/
def Transport.topic (t : Transport) (method : Str) : Str :=
  t.name ++ str "/" ++ method ++ str "/" ++ t.host ++ str "/" ++ portDigits t.port

/-- The loop of `subscribe`, from the method below `i` down.  A topic of fewer than 256 bytes
always fits the packet buffer. -/
def subscribeFrom (b : Bus) : ℕ → Transport → Transport × ℤ
  | 0, t => (t, 0)
  | i + 1, t =>
      let topic := t.topic (t.methods.getD i [])
      if 256 ≤ topic.length then t.error .subscribeFailed
      else
        let p : SubscribeRequest := ⟨i + 1, topic⟩
        if b.relay t.relayed p then subscribeFrom b i { t with relayed := t.relayed ++ [p] }
        else (t, -1)

/-- `subscribe`. -/
def subscribe (b : Bus) (t : Transport) : Transport × ℤ := subscribeFrom b t.methods.length t

/-- `memchr`. -/
def memchr (c : UInt8) (l : Str) : Option ℕ := l.findIdx? (· = c)

/-- `get_topic`: the second segment of a topic of at least four. -/
def getTopic (name : Str) : Option Str :=
  match memchr 47 name with
  | none => none
  | some i =>
      let method := name.drop (i + 1)
      match memchr 47 method with
      | none => none
      | some j =>
          let host := method.drop (j + 1)
          match memchr 47 host with
          | none => none
          | some _ => some (method.take j)

/-- The loop of `get_method`, from the method below `i` down. -/
def methodFrom (methods : List Str) (method : Str) : ℕ → ℕ
  | 0 => 0
  | i + 1 =>
      if strcmp method (methods.getD i []) = 0 then i + 1 else methodFrom methods method i

/-- `get_method`: one more than the index of the method a topic names, or `0`. -/
def getMethod (t : Transport) (name : Str) : ℕ :=
  match getTopic name with
  | none => 0
  | some method => methodFrom t.methods method t.methods.length

/-- `input`: a call arrives. -/
def input (b : Bus) (t : Transport) (p : Publish) : Transport :=
  match getMethod t p.topicName with
  | 0 => t
  | i + 1 =>
      if b.unpack i p.applicationMessage then
        { t with invoked := t.invoked ++ [(i, p.applicationMessage)] }
      else (t.error .nullptr).1

/-- The loop over the return codes of a SUBACK, given from the last to the first. -/
def suback : List ℕ → Transport → Transport × ℤ
  | [], t => (t, 0)
  | c :: cs, t =>
      if c ≤ 2 then
        let subscribes := t.subscribes + 1
        suback cs
          { t with
            subscribes
            ready := if subscribes = t.methods.length then true else t.ready }
      else t.error .subscribeFailed

/-- What `command` does with a packet; a negative result is an error. -/
def commandPacket (b : Bus) (t : Transport) (r : Response) : Transport × ℤ :=
  match r.decoded with
  | .connack _ 0 =>
      let (t, n) := subscribe b { t with subscribes := 0, ready := false }
      if n < 0 then t.error .subscribeFailed else (t, 0)
  | .connack _ _ => t.error .connectionRefused
  | .suback _ codes => suback codes.reverse t
  | .publish p => (input b t p, 0)
  | .pubxxx _ | .unsuback _ | .pingresp => (t, 0)

/-- `command`. -/
def command (b : Bus) (t : Transport) (buf : Str) : Transport × ℤ :=
  match mqttUnpackResponse buf with
  | .error e => t.error e
  | .incomplete => t.error .malformedRequest
  | .packet r len =>
      if 32767 < len then t.error .malformedRequest
      else
        let (t, n) := commandPacket b t r
        if n < 0 then (t, n) else (t, len)

/-- **What `command` returns** is an error, or the length of a packet at the front of the
buffer. -/
theorem command_ret (b : Bus) (t : Transport) (buf : Str) :
    (command b t buf).2 < 0 ∨
      2 ≤ (command b t buf).2 ∧ (command b t buf).2 ≤ buf.length := by
  rw [command]
  split
  · exact Or.inl (by simp [Transport.error])
  · exact Or.inl (by simp [Transport.error])
  · rename_i r len h
    split
    · exact Or.inl (by simp [Transport.error])
    · rename_i hlen
      obtain ⟨h1, h2⟩ := mqttUnpackResponse_length h
      by_cases hn : (commandPacket b t r).2 < 0
      · simp only [if_pos hn]
        exact Or.inl hn
      · simp only [if_neg hn]
        have h3 : len ≤ buf.length := h2.resolve_right hlen
        exact Or.inr ⟨by exact_mod_cast h1, by exact_mod_cast h3⟩

end SipEcho
