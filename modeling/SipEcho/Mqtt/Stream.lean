import SipEcho.Mqtt.Delivery

/-!
What the client hands to the socket, over any run of its calls.

The place in a packet that has been sent in part is kept for the client and not for the message, and
three things move the packet away from it: a message that times out, a message at quality of service
2 that need not wait any longer, and an acknowledgement of what has not been sent.

* `sentBytes`, `queuedBytes`: what the log tells of the two ends;
* `Unhindered`: none of the three has happened;
* `InStep`, `Moves.inStep`: what keeps the two ends in step;
* `socket_stream`: **the socket is handed the packets whole and in the order they were queued**.
-/

namespace SipEcho

open Lib Relation

/-- The bytes an event hands to the socket. -/
def ClientEvent.bytesSent : ClientEvent → Str
  | .sent bytes => bytes
  | _ => []

/-- The packet an event queues. -/
def ClientEvent.bytesQueued : ClientEvent → Str
  | .queued m => m.bytes
  | _ => []

/-- What has been handed to the socket. -/
def sentBytes (log : List ClientEvent) : Str := log.flatMap ClientEvent.bytesSent

/-- The packets that have been queued, one after the other. -/
def queuedBytes (log : List ClientEvent) : Str := log.flatMap ClientEvent.bytesQueued

@[simp] lemma sentBytes_snoc (log : List ClientEvent) (x : ClientEvent) :
    sentBytes (log ++ [x]) = sentBytes log ++ x.bytesSent := by
  rw [sentBytes, List.flatMap_append, List.flatMap_singleton, sentBytes]

@[simp] lemma queuedBytes_snoc (log : List ClientEvent) (x : ClientEvent) :
    queuedBytes (log ++ [x]) = queuedBytes log ++ x.bytesQueued := by
  rw [queuedBytes, List.flatMap_append, List.flatMap_singleton, queuedBytes]

/-- The message need not be sent for the first time. -/
def QueuedMessage.isSent (m : QueuedMessage) : Bool := m.state ≠ .unsent

/-- The packets in the queue that have not been sent. -/
def unsentPackets (mq : List QueuedMessage) : List Str :=
  openEntries QueuedMessage.isSent QueuedMessage.bytes mq

instance {m : QueuedMessage} : Decidable m.IsQos2 := inferInstanceAs (Decidable (_ ∧ _))

/-- The event moves no packet away: no message at quality of service 2 is queued, and only what has
been sent is released. -/
def ClientEvent.Harmless : ClientEvent → Prop
  | .queued m => ¬ m.IsQos2
  | .released m => m.state ≠ .unsent
  | _ => True

instance : DecidablePred ClientEvent.Harmless
  | .queued _ | .released _ => inferInstanceAs (Decidable (¬ _))
  | .sent _ | .sentWhole _ | .received _ | .delivered _ => inferInstanceAs (Decidable True)

/-- **Nothing has moved a packet away while it was sent.** -/
structure Unhindered (v : ClientView) : Prop where
  inTime : v.numberOfTimeouts = 0
  harmless : ∀ x ∈ v.log, x.Harmless

/-- **What has been queued has been handed to the socket or is still in the queue**, where only the
first packet may have been sent in part. -/
structure InStep (v : ClientView) : Prop where
  bytes : queuedBytes v.log =
    sentBytes v.log ++ (unsentPackets v.mq).flatten.drop v.sendOffset
  inside : v.sendOffset ≤ ((unsentPackets v.mq).headD []).length
  plain : ∀ m ∈ v.mq, ¬ m.IsQos2

section Lists

variable {packets : List Str} {packet : Str} {k n : ℕ}

lemma length_headD_le (packets : List Str) :
    (packets.headD []).length ≤ packets.flatten.length := by
  cases packets with
  | nil => exact le_rfl
  | cons packet packets =>
      rw [List.headD_cons, List.flatten_cons, List.length_append]
      exact Nat.le_add_right ..

lemma flatten_snoc_drop (h : k ≤ (packets.headD []).length) :
    (packets ++ [packet]).flatten.drop k = packets.flatten.drop k ++ packet := by
  rw [List.flatten_append, List.flatten_singleton,
    List.drop_append_of_le_length (h.trans (length_headD_le packets))]

lemma length_headD_snoc (h : k ≤ (packets.headD []).length) :
    k ≤ ((packets ++ [packet]).headD []).length := by
  cases packets with
  | nil => exact h.trans (Nat.zero_le _)
  | cons _ _ => exact h

/-- A packet is sent on from where it was left. -/
lemma stretch_append_drop (h : k + n ≤ packet.length) (rest : Str) :
    (packet ++ rest).drop k = stretch packet k n ++ (packet ++ rest).drop (k + n) := by
  rw [stretch, List.drop_append_of_le_length (by omega), List.drop_append_of_le_length h,
    ← List.append_assoc, ← List.drop_drop, List.take_append_drop]

end Lists

namespace InStep

variable {v : ClientView}

/-- A message is queued. -/
lemma queued {m : QueuedMessage} (hv : InStep v) (hm : MayQueue v.mq m)
    (hplain : ¬ m.IsQos2) :
    InStep { v with mq := v.mq ++ [m], log := v.log ++ [.queued m] } := by
  have hunsent : unsentPackets (v.mq ++ [m]) = unsentPackets v.mq ++ [m.bytes] := by
    rw [unsentPackets, openEntries_append,
      openEntries_cons_open (by simp [QueuedMessage.isSent, hm.unsent])]
    rfl
  refine ⟨?_, ?_, fun w hw => ?_⟩
  · rw [queuedBytes_snoc, sentBytes_snoc, hv.bytes, hunsent, flatten_snoc_drop hv.inside]
    simp [ClientEvent.bytesSent, ClientEvent.bytesQueued]
  · rw [hunsent]
    exact length_headD_snoc hv.inside
  · rcases List.mem_append.mp hw with hw | hw
    · exact hv.plain w hw
    · rwa [List.mem_singleton.mp hw]

/-- An event that neither queues nor sends. -/
lemma event {x : ClientEvent} (hv : InStep v) (hsent : x.bytesSent = [])
    (hqueued : x.bytesQueued = []) : InStep { v with log := v.log ++ [x] } := by
  refine ⟨?_, hv.inside, hv.plain⟩
  rw [queuedBytes_snoc, sentBytes_snoc, hsent, hqueued, List.append_nil, List.append_nil]
  exact hv.bytes

/-- The loop of `__mqtt_send` comes to the first packet that has not been sent. -/
lemma unsent {l₁ l₂ : List QueuedMessage} {m : QueuedMessage} (hv : InStep v)
    (htime : v.numberOfTimeouts = 0) (hreach : v.Reaches l₁ m l₂) :
    unsentPackets v.mq = m.bytes :: unsentPackets l₂ ∧ unsentPackets l₁ = [] := by
  have hstate : m.state = .unsent := by
    rcases hreach.due with h | ⟨-, h⟩
    · exact h
    · omega
  have hbefore : unsentPackets l₁ = [] := openEntries_eq_nil fun w hw => by
    have hne : w.state ≠ .unsent := fun h =>
      hv.plain w (by simp [hreach.split, hw]) (hreach.waiting w hw h)
    simpa [QueuedMessage.isSent] using hne
  refine ⟨?_, hbefore⟩
  rw [unsentPackets] at hbefore
  rw [hreach.split, unsentPackets, openEntries_append, hbefore,
    openEntries_cons_open (by simp [QueuedMessage.isSent, hstate])]
  rfl

end InStep

namespace ClientView

variable {P : QueuedMessage → Prop} {v v' : ClientView}

lemma Moves.unhindered (h : Moves P v v') (hv' : Unhindered v') : Unhindered v := by
  obtain ⟨htime, hlog⟩ := hv'
  cases h with
  | rewound => exact absurd htime (Nat.succ_ne_zero _)
  | cleaned => exact ⟨htime, hlog⟩
  | queued | sent | sentWhole | ignored | released | delivered | deliveredOnce =>
      exact ⟨htime, fun x hx => hlog x (by simp [hx])⟩

/-- **The two ends stay in step.** -/
lemma Moves.inStep (h : Moves P v v') (hv' : Unhindered v') (hv : InStep v) : InStep v' := by
  cases h with
  | rewound => exact absurd hv'.inTime (Nat.succ_ne_zero _)
  | @queued m hm => exact hv.queued hm (hv'.harmless (.queued m) (by simp))
  | @deliveredOnce p m hm =>
      exact (hv.queued hm (hv'.harmless (.queued m) (by simp))).event rfl rfl
  | ignored | delivered => exact hv.event rfl rfl
  | cleaned =>
      have hclean : unsentPackets (v.mq.dropWhile QueuedMessage.isComplete) = unsentPackets v.mq :=
        openEntries_dropWhile fun m hm => by
          simp [QueuedMessage.isSent, QueuedMessage.isComplete_iff.mp hm]
      exact ⟨hclean ▸ hv.bytes, hclean ▸ hv.inside,
        fun m hm => hv.plain m ((List.dropWhile_sublist _).subset hm)⟩
  | @sent l₁ l₂ m n hreach hn =>
      obtain ⟨hunsent, -⟩ := hv.unsent hv'.inTime hreach
      have hbytes := hv.bytes
      rw [hunsent, List.flatten_cons, stretch_append_drop hn.le, ← List.append_assoc] at hbytes
      refine ⟨?_, ?_, hv.plain⟩
      · rw [queuedBytes_snoc, sentBytes_snoc, hunsent, List.flatten_cons]
        exact (List.append_nil _).trans hbytes
      · rw [hunsent]
        exact hn.le
  | @sentWhole l₁ l₂ m m' n t hreach hn hm' =>
      obtain ⟨hunsent, hbefore⟩ := hv.unsent hv'.inTime hreach
      obtain ⟨hlasting, hstate⟩ := QueuedMessage.afterSending_eq hm'
      have hsent : m'.isSent = true := by
        rw [QueuedMessage.isSent, hstate]
        split <;> rfl
      have hrest : unsentPackets (l₁ ++ m' :: l₂) = unsentPackets l₂ := by
        rw [unsentPackets] at hbefore
        rw [unsentPackets, openEntries_append, openEntries_cons_done hsent, hbefore]
        rfl
      have hbytes := hv.bytes
      rw [hunsent, List.flatten_cons, stretch_append_drop hn.le, hn, List.drop_left,
        ← List.append_assoc] at hbytes
      refine ⟨?_, Nat.zero_le _, fun w hw => ?_⟩
      · rw [queuedBytes_snoc, sentBytes_snoc, queuedBytes_snoc, sentBytes_snoc, hrest,
          List.drop_zero]
        simpa [ClientEvent.bytesSent, ClientEvent.bytesQueued] using hbytes
      · rcases List.mem_append.mp hw with hw | hw
        · exact hv.plain w (by simp [hreach.split, hw])
        · rcases List.mem_cons.mp hw with rfl | hw
          · rw [QueuedMessage.isQos2_of_lasting hlasting]
            exact hv.plain m (by simp [hreach.split])
          · exact hv.plain w (by simp [hreach.split, hw])
  | @released l₁ l₂ m r hmq =>
      have hstate : m.state ≠ .unsent := hv'.harmless (.released m) (by simp)
      have hsent : m.isSent = true := by simpa [QueuedMessage.isSent] using hstate
      have hunsent : unsentPackets (l₁ ++ { m with state := .complete } :: l₂) =
          unsentPackets v.mq := by
        rw [hmq]
        exact openEntries_update hsent rfl
      have hplain : ∀ w ∈ l₁ ++ { m with state := .complete } :: l₂, ¬ w.IsQos2 := by
        intro w hw
        rcases List.mem_append.mp hw with hw | hw
        · exact hv.plain w (by simp [hmq, hw])
        · rcases List.mem_cons.mp hw with rfl | hw
          · exact hv.plain m (by simp [hmq])
          · exact hv.plain w (by simp [hmq, hw])
      have hreleased : InStep { v with mq := l₁ ++ { m with state := .complete } :: l₂ } :=
        ⟨hunsent ▸ hv.bytes, hunsent ▸ hv.inside, hplain⟩
      exact (hreleased.event (x := .received r) rfl rfl).event rfl rfl

lemma Evolves.inStep (h : Evolves P v v') (hv' : Unhindered v') (hv : InStep v) : InStep v' := by
  induction h with
  | refl => exact hv
  | tail _ hmove ih => exact hmove.inStep hv' (ih (hmove.unhindered hv'))

end ClientView

lemma Client.inStep_of_run {ops : List ClientOp}
    {sendbufsz recvbufsz timeOfLastSend keepAlive : ℕ} {c : Client}
    (h : (mqttInit sendbufsz recvbufsz timeOfLastSend keepAlive).run ops = .ok c)
    (htime : c.numberOfTimeouts = 0) (hlog : ∀ x ∈ c.log, x.Harmless) : InStep c.view :=
  ClientView.Evolves.inStep (Client.evolves_of_run .nil h) ⟨htime, hlog⟩
    ⟨rfl, le_rfl, by simp [mqttInit, Client.view]⟩

/-- **The socket is handed the packets whole and in the order they were queued**, as long as no
message times out, none is published at quality of service 2, and the broker acknowledges only what
has been sent: what it has not been handed yet is what the queue still has to send. -/
theorem socket_stream {ops : List ClientOp}
    {sendbufsz recvbufsz timeOfLastSend keepAlive : ℕ} {c : Client}
    (h : (mqttInit sendbufsz recvbufsz timeOfLastSend keepAlive).run ops = .ok c)
    (htime : c.numberOfTimeouts = 0) (hlog : ∀ x ∈ c.log, x.Harmless) :
    queuedBytes c.log = sentBytes c.log ++ (unsentPackets c.mq).flatten.drop c.sendOffset :=
  (Client.inStep_of_run h htime hlog).bytes

/-- Two requests to a socket that takes seven bytes at a time, and an answer between them. -/
def piecemeal : List ClientOp :=
  [.connect ⟨0, 0⟩ [97] none none 2 60, .publish ⟨0, 0⟩ [98] [1] 2,
    .sync [(⟨0, 0⟩, .ok [])] (.taking 7) ⟨0, 0⟩, .sync [(⟨0, 0⟩, .ok [])] (.taking 7) ⟨0, 0⟩,
    .sync [(⟨0, 0⟩, .ok [])] (.taking 7) ⟨0, 0⟩, .sync (oneRead [32, 2, 0, 0]) (.taking 7) ⟨0, 0⟩,
    .ping ⟨0, 0⟩, .sync [(⟨0, 0⟩, .ok [])] (.taking 1) ⟨0, 0⟩]

/-- What that makes of a client. -/
def piecemealClient : Client :=
  ((mqttInit 300 100 0 60).run piecemeal).toOption.getD (mqttInit 300 100 0 60)

set_option maxRecDepth 100000 in
lemma piecemeal_run : (mqttInit 300 100 0 60).run piecemeal = .ok piecemealClient := rfl

/-- The socket has been handed all but the second byte of the PINGREQ packet. -/
theorem socket_stream_piecemeal :
    queuedBytes piecemealClient.log = sentBytes piecemealClient.log ++
        (unsentPackets piecemealClient.mq).flatten.drop piecemealClient.sendOffset ∧
      (unsentPackets piecemealClient.mq).flatten.drop piecemealClient.sendOffset = [0] :=
  ⟨socket_stream piecemeal_run rfl (by decide +kernel), rfl⟩

end SipEcho
