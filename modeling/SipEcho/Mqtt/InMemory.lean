import SipEcho.Mqtt.Calls

/-!
The list of the client is the queue in the block of memory.

* `QueuedMessage.Agrees`: the record in memory says of a message what the list does, as far as it
  has been set;
* `InMemory`: the block holds such a queue; `Moves.inMemory`: **every small step of the client is a
  run of the queue in the memory**, with no access outside of the block;
* `client_queue_in_memory`: so is every run of its calls.
-/

namespace SipEcho

open Lib Relation

/-! ### A message and its record -/

/-- The types whose messages have a packet id. -/
def ControlType.hasPacketId : ControlType → Bool
  | .publish | .puback | .pubrec | .pubrel | .pubcomp | .subscribe | .unsubscribe => true
  | _ => false

/-- **The record `w` in memory says of a message what the list does**: the id of a type that has
one, and the time of a message that waits, in as many bytes as there are for them. -/
structure QueuedMessage.Agrees (w m : QueuedMessage) : Prop where
  bytes : w.bytes = m.bytes
  state : w.state = m.state
  controlType : w.controlType = m.controlType
  packetId : ∀ t : ControlType, m.Is t → t.hasPacketId = true → w.packetId = m.packetId % 2 ^ 16
  timeSent : m.state = .awaitingAck → w.timeSent = m.timeSent % 2 ^ 64

lemma QueuedMessage.Agrees.isComplete_eq {w m : QueuedMessage} (h : w.Agrees m) :
    w.isComplete = m.isComplete := by
  rw [isComplete, isComplete, h.state]

section Agrees

variable {msgs mq : List QueuedMessage} {m : QueuedMessage}

lemma packets_of_agrees (h : List.Forall₂ QueuedMessage.Agrees msgs mq) :
    packets msgs = packets mq := by
  induction h with
  | nil => rfl
  | cons hw _ ih => rw [packets_cons, packets_cons, hw.bytes, ih]

lemma queueRoom_of_agrees (size : ℕ) (h : List.Forall₂ QueuedMessage.Agrees msgs mq) :
    queueRoom size msgs = queueRoom size mq := by
  rw [queueRoom, queueRoom, h.length_eq, packets_of_agrees h]

/-- What is done for a new message. -/
def enqueueOp (t : ControlType) (m : QueuedMessage) : QueueOp :=
  .enqueue m.bytes t (if t.hasPacketId then some (UInt16.ofNat m.packetId) else none)

/-- **A message is queued.** -/
lemma agrees_enqueue {msgs' : List QueuedMessage} {size : ℕ} {t : ControlType}
    (h : List.Forall₂ QueuedMessage.Agrees msgs mq) (htype : m.Is t) (hstate : m.state = .unsent)
    (hne : m.bytes ≠ []) (hroom : m.bytes.length ≤ queueRoom size mq)
    (hfifo : Fifo size msgs (enqueueOp t m) msgs') :
    List.Forall₂ QueuedMessage.Agrees msgs' (mq ++ [m]) := by
  generalize hop : enqueueOp t m = op at hfifo
  rw [enqueueOp] at hop
  cases hfifo with
  | @enqueue packet t' packetId w _ _ hbytes hstate' htype' hid =>
      injection hop with hpacket htypes hids
      subst hpacket htypes hids
      refine List.rel_append h (.cons ⟨hbytes, hstate'.trans hstate.symm, htype'.trans htype.symm,
        fun t' hm ht => ?_, fun hawaits => ?_⟩ .nil)
      · obtain rfl := hm.unique htype
        rw [if_pos ht] at hid
        rw [hid _ rfl, UInt16.toNat_ofNat']
      · rw [hstate] at hawaits
        cases hawaits
  | full hfull =>
      injection hop with hpacket
      subst hpacket
      rw [queueRoom_of_agrees size h] at hfull
      rcases hfull with hempty | hlong
      · exact absurd hempty hne
      · omega
  | _ => cases hop

end Agrees

/-! ### What sending does to a record -/

/-- The message is sent again with the flag for another try. -/
def QueuedMessage.Flagged (m : QueuedMessage) : Prop := m.Is .publish ∧ packetQos m.bytes = 1

instance {m : QueuedMessage} : Decidable m.Flagged := inferInstanceAs (Decidable (_ ∧ _))

/-- What is done for a message that has been sent at a time, and is in a state then. -/
def sentOps (i t : ℕ) (m : QueuedMessage) (state : QueuedState) : List QueueOp :=
  [.setTimeSent i (UInt64.ofNat t), .setState i state] ++ if m.Flagged then [.setDup i] else []

namespace QueuedMessage

variable {w m m' : QueuedMessage}

/-- What sending changes besides the time: the state, and the flag for another try. -/
lemma afterSending_changes (h : m.afterSending = some m') :
    m' = { m with
      state := m'.state
      bytes := if m.Flagged then dupBytes m.bytes else m.bytes } := by
  have hplain (hm : ¬ m.Flagged) (s : QueuedState) : ({ m with state := s } : QueuedMessage) =
      { m with state := s, bytes := if m.Flagged then dupBytes m.bytes else m.bytes } := by
    rw [if_neg hm]
  rw [afterSending] at h
  split at h
  case h_4 htype =>
    have hpublish : m.Is .publish := ControlType.ofNat?_eq htype
    split_ifs at h with h0 h1 <;> cases h
    · exact hplain (fun hm => by rw [hm.2] at h0; cases h0) _
    · rw [if_pos ⟨hpublish, h1⟩]
    · exact hplain (fun hm => h1 hm.2) _
  case h_11 => cases h
  all_goals
    rename_i htype
    cases h
    refine hplain (fun hm => ?_) _
    rw [hm.1, ControlType.ofNat?_toNat] at htype
    cases htype

/-- The record of a message that has been sent. -/
lemma Agrees.sent {t : ℕ} (h : w.Agrees m)
    (hm' : ({ m with timeSent := t } : QueuedMessage).afterSending = some m') :
    Agrees { w with
      timeSent := t % 2 ^ 64
      state := m'.state
      bytes := if m.Flagged then dupBytes w.bytes else w.bytes } m' := by
  have hchanges := afterSending_changes hm'
  have htype : m'.controlType = m.controlType := by rw [hchanges]
  refine ⟨?_, rfl, h.controlType.trans htype.symm, fun t' ht' hid => ?_, fun _ => ?_⟩
  · rw [hchanges, h.bytes]
    rfl
  · rw [hchanges]
    exact h.packetId t' (htype.symm.trans ht') hid
  · rw [hchanges]

end QueuedMessage

/-! ### The queue in memory -/

/-- **The block of memory holds the queue of the client.** -/
structure InMemory (mq : MessageQueue) (v : ClientView) : Prop where
  size : mq.mem.length = v.mqSize
  stored : ∃ msgs, Stored mq msgs ∧ (∀ m ∈ msgs, m.bytes ≠ []) ∧
    List.Forall₂ QueuedMessage.Agrees msgs v.mq

namespace InMemory

variable {mq : MessageQueue} {v v' : ClientView}

/-- **A run of the queue** that makes of any messages that agree with the list messages that agree
with the list behind it. -/
lemma run (hv : InMemory mq v) {ops : List QueueOp} (hsize : v'.mqSize = v.mqSize)
    (hops : ∀ msgs msgs', List.Forall₂ QueuedMessage.Agrees msgs v.mq →
      Fifos v.mqSize msgs ops msgs' → List.Forall₂ QueuedMessage.Agrees msgs' v'.mq) :
    ∃ mq', mq.run ops = .ok mq' ∧ InMemory mq' v' := by
  obtain ⟨hmem, msgs, hstored, hne, hagrees⟩ := hv
  obtain ⟨mq', msgs', hrun, hlen, hfifos, hstored'⟩ := hstored.run hne ops
  rw [hmem] at hfifos
  exact ⟨mq', hrun, (hlen.trans hmem).trans hsize.symm, msgs', hstored', hfifos.bytes_ne hne,
    hops msgs msgs' hagrees hfifos⟩

/-- A run of one step. -/
lemma step (hv : InMemory mq v) (op : QueueOp) (hsize : v'.mqSize = v.mqSize)
    (hop : ∀ msgs msgs', List.Forall₂ QueuedMessage.Agrees msgs v.mq →
      Fifo v.mqSize msgs op msgs' → List.Forall₂ QueuedMessage.Agrees msgs' v'.mq) :
    ∃ ops mq', mq.run ops = .ok mq' ∧ InMemory mq' v' := by
  refine ⟨[op], hv.run hsize fun msgs msgs' hagrees hfifos => ?_⟩
  cases hfifos with
  | cons hfifo hrest =>
      cases hrest
      exact hop msgs _ hagrees hfifo

/-- The queue has not changed. -/
lemma same (hv : InMemory mq v) (hsize : v'.mqSize = v.mqSize) (hmq : v'.mq = v.mq) :
    ∃ ops mq', mq.run ops = .ok mq' ∧ InMemory mq' v' :=
  ⟨[], mq, rfl, hv.size.trans hsize.symm, hmq ▸ hv.stored⟩

/-- **A message is queued.** -/
lemma queued (hv : InMemory mq v) {m : QueuedMessage} (hm : MayQueue v.mq m)
    (hroom : v.HasRoom m) (hsize : v'.mqSize = v.mqSize) (hmq : v'.mq = v.mq ++ [m]) :
    ∃ ops mq', mq.run ops = .ok mq' ∧ InMemory mq' v' := by
  obtain ⟨t, htype, -⟩ := hm.sound.sendable
  refine hv.step (enqueueOp t m) hsize fun msgs msgs' hagrees hfifo => ?_
  rw [hmq]
  exact agrees_enqueue hagrees htype hm.unsent hroom.1 hroom.2 hfifo

end InMemory

/-- The steps for a message that has been sent, of any queue. -/
lemma Fifos.sent {size i t : ℕ} {m : QueuedMessage} {state : QueuedState}
    {msgs msgs' : List QueuedMessage} (h : Fifos size msgs (sentOps i t m state) msgs') :
    msgs' = msgs.modify i fun w => { w with
      timeSent := t % 2 ^ 64
      state
      bytes := if m.Flagged then dupBytes w.bytes else w.bytes } := by
  rw [sentOps] at h
  by_cases hm : m.Flagged
  · simp only [if_pos hm, List.cons_append, List.nil_append] at h ⊢
    cases h with
    | cons h1 h =>
        cases h1
        cases h with
        | cons h2 h =>
            cases h2
            cases h with
            | cons h3 h =>
                cases h3
                cases h
                rw [List.modify_modify_eq, List.modify_modify_eq]
                rfl
  · simp only [if_neg hm, List.append_nil] at h ⊢
    cases h with
    | cons h1 h =>
        cases h1
        cases h with
        | cons h2 h =>
            cases h2
            cases h
            rw [List.modify_modify_eq]
            rfl

namespace ClientView

variable {P : QueuedMessage → Prop} {v v' : ClientView} {mq : MessageQueue}

/-- **A small step of the client is a run of the queue in memory.** -/
lemma Moves.inMemory (h : Moves P v v') (hv : InMemory mq v) :
    ∃ ops mq', mq.run ops = .ok mq' ∧ InMemory mq' v' := by
  cases h with
  | rewound | sent | ignored | delivered => exact hv.same rfl rfl
  | queued hm _ hroom => exact hv.queued hm hroom rfl rfl
  | deliveredOnce hm _ _ _ hroom => exact hv.queued hm hroom rfl rfl
  | cleaned =>
      refine hv.step .clean rfl fun msgs msgs' hagrees hfifo => ?_
      cases hfifo
      exact forall₂_dropWhile (fun _ _ h => h.isComplete_eq) hagrees
  | @sentWhole l₁ l₂ m m' n t hreach _ hm' =>
      refine ⟨sentOps l₁.length t m m'.state, hv.run rfl fun msgs msgs' hagrees hfifos => ?_⟩
      rw [hreach.split] at hagrees
      rw [hfifos.sent]
      exact forall₂_modify hagrees fun w hw => hw.sent hm'
  | @released l₁ l₂ m r hmq =>
      refine hv.step (.setState l₁.length .complete) rfl fun msgs msgs' hagrees hfifo => ?_
      cases hfifo
      rw [hmq] at hagrees
      exact forall₂_modify hagrees fun w hw =>
        ⟨hw.bytes, rfl, hw.controlType, hw.packetId, fun h => by cases h⟩

lemma Evolves.mqSize_eq (h : Evolves P v v') : v'.mqSize = v.mqSize := by
  induction h with
  | refl => rfl
  | tail _ hmove ih => cases hmove <;> exact ih

lemma Evolves.inMemory (h : Evolves P v v') (hv : InMemory mq v) :
    ∃ ops mq', mq.run ops = .ok mq' ∧ InMemory mq' v' := by
  induction h with
  | refl => exact hv.same rfl rfl
  | tail _ hmove ih =>
      obtain ⟨ops, mq₁, hrun, hv₁⟩ := ih
      obtain ⟨ops', mq', hrun', hv'⟩ := hmove.inMemory hv₁
      refine ⟨ops ++ ops', mq', ?_, hv'⟩
      rw [MessageQueue.run, List.foldlM_append]
      rw [MessageQueue.run] at hrun
      rw [hrun]
      exact hrun'

end ClientView

/-! ### Runs -/

/-- **The list of the client is the queue in the block of memory**: over every run of its calls the
queue is changed by steps of `MessageQueue.step`, none of which leaves the block, and the messages
the block holds agree with the list, also in the room they leave. -/
theorem client_queue_in_memory {ops : List ClientOp}
    {sendbufsz recvbufsz timeOfLastSend keepAlive memStart : ℕ} {mem : List UInt8} {c : Client}
    (h : (mqttInit sendbufsz recvbufsz timeOfLastSend keepAlive).run ops = .ok c)
    (hpos : 0 < memStart) (hfits : memStart + mem.length < 2 ^ 64)
    (hsize : mem.length = sendbufsz) :
    ∃ queueOps mq msgs, (mqttMqInit memStart mem).run queueOps = .ok mq ∧
      mq.mem.length = sendbufsz ∧ Stored mq msgs ∧
      List.Forall₂ QueuedMessage.Agrees msgs c.mq ∧
      mq.currSz = queueRoom c.mqSize c.mq := by
  have hstart : InMemory (mqttMqInit memStart mem)
      (mqttInit sendbufsz recvbufsz timeOfLastSend keepAlive).view :=
    ⟨hsize, [], Stored.init hpos (hfits.trans_eq (by norm_num)), by simp, .nil⟩
  have hevolves := Client.evolves_of_run .nil h
  obtain ⟨queueOps, mq, hrun, hmem, msgs, hstored, -, hagrees⟩ := hevolves.inMemory hstart
  refine ⟨queueOps, mq, msgs, hrun, hmem.trans hevolves.mqSize_eq, hstored, hagrees, ?_⟩
  rw [hstored.currSz_eq, queueRoom_of_agrees _ hagrees, hmem]
  rfl

end SipEcho
