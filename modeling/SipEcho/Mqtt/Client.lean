import SipEcho.Mqtt.PacketId
import SipEcho.Mqtt.QueueRun

/-!
The client of `mqtt.c`: what it queues, what it sends and how it answers the broker.

The queue is a list of messages; that it is what the queue in the block of memory holds is
`client_queue_in_memory`.  What the record of a new message holds where nobody sets it, the time,
the answers of the socket and the bytes it delivers come from outside.
The client keeps a log of what happens, which the sources do not have; no function reads it.

* `mqttPublish`, `mqttSubscribe`, `mqttUnsubscribe`, `mqttPing`, `mqttDisconnect`, `mqttConnect`:
  the requests;
* `mqttSend`: the loop over the queue;
* `mqttHandle`, `mqttRecv`: the answers to the packets of the broker.
-/

namespace SipEcho

open Lib

/-- `enum MQTTErrors`, as the client sets it. -/
inductive ClientError where
  | response (e : MqttError)
  | request (e : RequestError)
  | socket
  | connectNotCalled
  | sendBufferIsFull
  | recvBufferTooSmall
  | ackOfUnknown
  | malformedRequest
  | malformedResponse
  | connectionRefused
  | connectClientIdRefused
  | subscribeFailed
  | reconnecting
  deriving DecidableEq, Repr

/-- What happens to a client. -/
inductive ClientEvent where
  /-- A message is queued. -/
  | queued (m : QueuedMessage)
  /-- Bytes are handed to the socket. -/
  | sent (bytes : Str)
  /-- The last byte of a message has been handed to the socket. -/
  | sentWhole (m : QueuedMessage)
  /-- A packet has been read. -/
  | received (r : Response)
  /-- A message is completed by an acknowledgement. -/
  | released (m : QueuedMessage)
  /-- `publish_response_callback` is called. -/
  | delivered (p : Publish)

/-- `struct mqtt_client`; `error` is `none` for `MQTT_OK`. -/
structure Client where
  error : Option ClientError
  pidLfsr : ℕ
  keepAlive : ℕ
  sendOffset : ℕ
  timeOfLastSend : ℕ
  responseTimeout : ℕ
  numberOfTimeouts : ℕ
  recvBuffer : Str
  recvSize : ℕ
  mqSize : ℕ
  mq : List QueuedMessage
  log : List ClientEvent

/-- What the memory of a new record holds. -/
structure Unset where
  timeSent : ℕ
  packetId : ℕ

/-- The result of a call, and the client behind it. -/
abbrev ClientResult := Option ClientError × Client

/-- `mqtt_init`, with buffers of these sizes; `time_of_last_send` is not set. -/
def mqttInit (sendbufsz recvbufsz timeOfLastSend keepAlive : ℕ) : Client where
  error := some .connectNotCalled
  pidLfsr := 0
  keepAlive
  sendOffset := 0
  timeOfLastSend
  responseTimeout := 30
  numberOfTimeouts := 0
  recvBuffer := []
  recvSize := recvbufsz
  mqSize := sendbufsz
  mq := []
  log := []

namespace Client

/-- `client->error = e; return e;` -/
def fail (c : Client) (e : ClientError) : ClientResult := (some e, { c with error := some e })

/-- `mqtt_mq_register`, and the members of the record that are set behind it. -/
def register (c : Client) (u : Unset) (packet : Str) (t : ControlType) (packetId : Option ℕ) :
    Client :=
  let m : QueuedMessage := ⟨packet, .unsent, u.timeSent, t.toNat, packetId.getD u.packetId⟩
  { c with mq := c.mq ++ [m], log := c.log ++ [.queued m] }

/-- `mqtt_mq_clean`. -/
def clean (c : Client) : Client :=
  { c with mq := c.mq.dropWhile QueuedMessage.isComplete }

/-- `MQTT_CLIENT_TRY_PACK`, with the packer as a function of the room. -/
def tryPack (c : Client) (u : Unset) (t : ControlType) (packetId : Option ℕ)
    (pack : ℕ → Except Fault Request) : Except Fault ClientResult :=
  match c.error with
  | some e => return (some e, c)
  | none => do
      match ← pack (queueRoom c.mqSize c.mq) with
      | .error e => return c.fail (.request e)
      | .ok (some packet) => return (none, c.register u packet t packetId)
      | .ok none =>
          let c := c.clean
          match ← pack (queueRoom c.mqSize c.mq) with
          | .error e => return c.fail (.request e)
          | .ok (some packet) => return (none, c.register u packet t packetId)
          | .ok none => return c.fail .sendBufferIsFull

/-- `mqtt_mq_find`. -/
def find (c : Client) (t : ControlType) (packetId : Option ℕ) : Option ℕ :=
  c.mq.findIdx? (QueuedMessage.matches t.toNat packetId)

/-- `msg->state = MQTT_QUEUED_COMPLETE` for the message that is found. -/
def release (c : Client) (t : ControlType) (packetId : Option ℕ) : Option Client := do
  let i ← c.find t packetId
  let m ← c.mq[i]?
  let mq := c.mq.set i { m with state := .complete }
  return { c with mq, log := c.log ++ [.released m] }

/-- An acknowledgement of a message, which must be known, and what is done then. -/
def acknowledge (c : Client) (t : ControlType) (packetId : Option ℕ)
    (go : Client → Except Fault ClientResult) : Except Fault ClientResult :=
  match c.release t packetId with
  | none => return c.fail .ackOfUnknown
  | some c => go c

/-- `client->publish_response_callback`. -/
def deliver (c : Client) (p : Publish) : Client := { c with log := c.log ++ [.delivered p] }

end Client

/-! ### The requests -/

/-- `__mqtt_next_pid` for a request. -/
def withPacketId (c : Client) (request : ℕ → Client → Except Fault ClientResult) :
    Except Fault ClientResult :=
  match mqttNextPid 65535 (c.mq.map QueuedMessage.packetId) c.pidLfsr with
  | none => throw .fuel
  | some packetId => request packetId { c with pidLfsr := packetId }

/-- `mqtt_connect`, without a will. -/
def mqttConnect (c : Client) (u : Unset) (clientId : Str) (userName password : Option Str)
    (connectFlags keepAlive : ℕ) : Except Fault ClientResult :=
  let c := { c with keepAlive }
  let c := if c.error = some .connectNotCalled then { c with error := none } else c
  c.tryPack u .connect none fun room => Request.ofPacking <$>
    packConnectionRequestAt room room clientId userName password connectFlags keepAlive

/-- `mqtt_publish`. -/
def mqttPublish (c : Client) (u : Unset) (topicName applicationMessage : Str)
    (publishFlags : ℕ) : Except Fault ClientResult :=
  withPacketId c fun packetId c => c.tryPack u .publish (some packetId) fun room =>
    mqttPackPublishAt room room topicName packetId applicationMessage publishFlags

/-- `mqtt_subscribe`. -/
def mqttSubscribe (c : Client) (u : Unset) (topicName : Str) (maxQosLevel : ℕ) :
    Except Fault ClientResult :=
  withPacketId c fun packetId c => c.tryPack u .subscribe (some packetId) fun room =>
    mqttPackSubscribeAt room room packetId [(topicName, maxQosLevel)]

/-- `mqtt_unsubscribe`. -/
def mqttUnsubscribe (c : Client) (u : Unset) (topicName : Str) : Except Fault ClientResult :=
  withPacketId c fun packetId c => c.tryPack u .unsubscribe (some packetId) fun room =>
    mqttPackUnsubscribeAt room room packetId [topicName]

/-- `__mqtt_ping`. -/
def mqttPing (c : Client) (u : Unset) : Except Fault ClientResult :=
  c.tryPack u .pingreq none fun room => mqttPackPingAt room room

/-- `mqtt_disconnect`. -/
def mqttDisconnect (c : Client) (u : Unset) : Except Fault ClientResult :=
  c.tryPack u .disconnect none fun room => mqttPackDisconnectAt room room

/-- `mqtt_reconnect`. -/
def mqttReconnect (c : Client) (u : Unset) : Except Fault ClientResult := do
  let (e, c) ← mqttDisconnect c u
  if e = none then return (none, { c with error := some .reconnecting }) else return (e, c)

/-- `__mqtt_puback`, `__mqtt_pubrec`, `__mqtt_pubrel` and `__mqtt_pubcomp`. -/
def mqttPubxxx (t : ControlType) (c : Client) (u : Unset) (packetId : ℕ) :
    Except Fault ClientResult :=
  c.tryPack u t (some packetId) fun room => mqttPackPubxxxAt room room t packetId

/-! ### Sending -/

/-- What the surroundings answer while `__mqtt_send` looks at its messages, by their indices. -/
structure SocketEnv where
  timeChecked : ℕ → ℕ
  timeSent : ℕ → ℕ
  sendall : ℕ → Except ClientError ℕ
  timeEnd : ℕ

/-- The quality of service in the first byte of a packet. -/
def packetQos (bytes : Str) : ℕ := 3 &&& ((bytes.headD 0).toNat >>> 1)

/-- What becomes of a message that has been sent, `none` for one that is no request. -/
def QueuedMessage.afterSending (m : QueuedMessage) : Option QueuedMessage :=
  match ControlType.ofNat? m.controlType with
  | some .puback | some .pubcomp | some .disconnect => some { m with state := .complete }
  | some .publish =>
      if packetQos m.bytes = 0 then some { m with state := .complete }
      else if packetQos m.bytes = 1 then
        some { m with state := .awaitingAck, bytes := dupBytes m.bytes }
      else some { m with state := .awaitingAck }
  | some .connect | some .pubrec | some .pubrel | some .subscribe | some .unsubscribe
  | some .pingreq => some { m with state := .awaitingAck }
  | _ => none

/-- How the loop of `__mqtt_send` is left: by an error, or to check for the keep-alive. -/
inductive Sending where
  | failed (e : ClientError) (c : Client)
  | rest (c : Client)

/-- The message has been sent, and has waited too long for its acknowledgement. -/
def Client.timesOut (c : Client) (env : SocketEnv) (i : ℕ) (m : QueuedMessage) : Bool :=
  m.state = .awaitingAck ∧ m.timeSent + c.responseTimeout < env.timeChecked i

/-- A PUBLISH message at quality of service 2 that is not complete. -/
def QueuedMessage.qos2 (m : QueuedMessage) : Bool :=
  m.controlType = ControlType.publish.toNat ∧ m.state ≠ .complete ∧ packetQos m.bytes = 2

/-- A message that has timed out is counted, and sent from its start. -/
def Client.rewound (c : Client) (timedOut : Bool) : Client :=
  if timedOut then { c with numberOfTimeouts := c.numberOfTimeouts + 1, sendOffset := 0 } else c

/-- The body of the loop for a message to be sent: the loop is left, or goes on. -/
def mqttSendMessage (env : SocketEnv) (i : ℕ) (m : QueuedMessage) (c : Client) :
    Except Fault (Sum Sending Client) :=
  -- `msg->size - client->send_offset` is unsigned
  if m.bytes.length < c.sendOffset then throw .crash
  else
    match env.sendall i with
    | .error e => return .inl (.failed e { c with error := some e })
    | .ok n =>
        let n := min n (m.bytes.length - c.sendOffset)
        let c : Client := { c with
          log := c.log ++ [.sent (stretch m.bytes c.sendOffset n)]
          sendOffset := c.sendOffset + n }
        if c.sendOffset < m.bytes.length then return .inl (.rest c)
        else
          let m := { m with timeSent := env.timeSent i }
          let c : Client := { c with
            sendOffset := 0
            timeOfLastSend := env.timeSent i
            log := c.log ++ [.sentWhole m] }
          match m.afterSending with
          | none =>
              let c : Client := { c with mq := c.mq.set i m, error := some .malformedRequest }
              return .inl (.failed .malformedRequest c)
          | some m => return .inr { c with mq := c.mq.set i m }

/-- The loop of `__mqtt_send`, over `count` messages from `i` on. -/
def mqttSendFrom (env : SocketEnv) : ℕ → ℕ → Bool → Client → Except Fault Sending
  | 0, _, _, c => return .rest c
  | count + 1, i, inflight, c =>
      match c.mq[i]? with
      | none => throw .crash
      | some m =>
          let timedOut := c.timesOut env i m
          let c := c.rewound timedOut
          -- only one message at quality of service 2 is on its way at a time
          if (m.state = .unsent ∨ timedOut) ∧ ¬ (m.qos2 ∧ inflight) then do
            match ← mqttSendMessage env i m c with
            | .inl s => return s
            | .inr c => mqttSendFrom env count (i + 1) (inflight || m.qos2) c
          else mqttSendFrom env count (i + 1) (inflight || m.qos2) c

/-- `__mqtt_send`. -/
def mqttSend (env : SocketEnv) (u : Unset) (c : Client) : Except Fault ClientResult := do
  match c.error with
  | some e => if e = .sendBufferIsFull then sending else return (some e, c)
  | none => sending
where
  sending : Except Fault ClientResult := do
    match ← mqttSendFrom env c.mq.length 0 false c with
    | .failed e c => return (some e, c)
    | .rest c =>
        if c.timeOfLastSend + c.keepAlive < env.timeEnd then
          let (e, c) ← mqttPing c u
          match e with
          | some e => return c.fail e
          | none => return (none, c)
        else return (none, c)

/-! ### Receiving -/

/-- An answer is queued: what the result of `__mqtt_puback` and its like leads to. -/
def answered (result : ClientResult) (c' : Client → Client) : ClientResult :=
  match result with
  | (some e, c) => c.fail e
  | (none, c) => (none, c' c)

/-- The `switch` of `__mqtt_recv`. -/
def mqttHandle (c : Client) (u : Unset) (r : Response) : Except Fault ClientResult :=
  match r.fixedHeader.controlType, r.decoded with
  | .connack, .connack _ returnCode =>
      c.acknowledge .connect none fun c =>
        if returnCode = 0 then return (none, c)
        else if returnCode = 2 then return c.fail .connectClientIdRefused
        else return c.fail .connectionRefused
  | .publish, .publish p =>
      if p.qosLevel = 1 then do
        let result ← mqttPubxxx .puback c u p.packetId
        return answered result fun c => c.deliver p
      else if p.qosLevel = 2 then
        if (c.find .pubrec (some p.packetId)).isSome then return (none, c)
        else do
          let result ← mqttPubxxx .pubrec c u p.packetId
          return answered result fun c => c.deliver p
      else return (none, c.deliver p)
  | .puback, .pubxxx packetId => c.acknowledge .publish (some packetId) fun c => return (none, c)
  | .pubrec, .pubxxx packetId =>
      if (c.find .pubrel (some packetId)).isSome then return (none, c)
      else c.acknowledge .publish (some packetId) fun c => do
        let result ← mqttPubxxx .pubrel c u packetId
        return answered result id
  | .pubrel, .pubxxx packetId =>
      c.acknowledge .pubrec (some packetId) fun c => do
        let result ← mqttPubxxx .pubcomp c u packetId
        return answered result id
  | .pubcomp, .pubxxx packetId => c.acknowledge .pubrel (some packetId) fun c => return (none, c)
  | .suback, .suback packetId returnCodes =>
      c.acknowledge .subscribe (some packetId) fun c =>
        if returnCodes.head? = some 128 then return c.fail .subscribeFailed
        else return (none, c)
  | .unsuback, .unsuback packetId =>
      c.acknowledge .unsubscribe (some packetId) fun c => return (none, c)
  | .pingresp, _ => c.acknowledge .pingreq none fun c => return (none, c)
  | _, _ => return c.fail .malformedResponse

/-- A turn of the loop of `__mqtt_recv`, with what `mqtt_pal_recvall` answers: whether the loop goes
on, and the result. -/
def mqttRecvTurn (u : Unset) (read : Except ClientError Str) (c : Client) :
    Except Fault (Bool × ClientResult) :=
  match read with
  | .error e => return (false, c.fail e)
  | .ok bytes =>
      let c := { c with
        recvBuffer := c.recvBuffer ++ bytes.take (c.recvSize - c.recvBuffer.length) }
      match mqttUnpackResponse c.recvBuffer with
      | .error e => return (false, c.fail (.response e))
      | .incomplete =>
          if c.recvBuffer.length = c.recvSize then return (false, c.fail .recvBufferTooSmall)
          else return (false, none, c)
      | .packet r consumed => do
          let (e, c) ← mqttHandle { c with log := c.log ++ [.received r] } u r
          -- the number of bytes behind the packet is unsigned
          if c.recvBuffer.length < consumed then throw .crash
          let c := { c with recvBuffer := c.recvBuffer.drop consumed }
          return (e.isNone, e, c)

/-- `__mqtt_recv`, with what each turn of its loop meets. -/
def mqttRecv : List (Unset × Except ClientError Str) → Client → Except Fault ClientResult
  | [], _ => throw .fuel
  | (u, read) :: turns, c => do
      let (again, e, c) ← mqttRecvTurn u read c
      if again then mqttRecv turns c else return (e, c)

/-- `mqtt_sync`, without callbacks. -/
def mqttSync (turns : List (Unset × Except ClientError Str)) (env : SocketEnv) (u : Unset)
    (c : Client) : Except Fault ClientResult := do
  let c := if c.error = some .reconnecting then { c with error := none } else c
  let (e, c) ← mqttRecv turns c
  if e = none then mqttSend env u c else return (e, c)

end SipEcho
