import SipEcho.Mqtt.Queue
import SipEcho.Mqtt.Requests

/-!
The message queue over runs: what the client does with it, in the memory and on a plain list.

A packer writes a packet at `curr` or gives up, having written some bytes there; the client then
registers the packet and fills in its record, changes the state, the time or the first byte of a
message, and cleans the queue.

* `MessageQueue.step`, `Fifo`: the two levels;
* `message_queue_refines`: **over every run** no access leaves the block of memory, packets and
  records never meet, and the queue is the list.
-/

namespace SipEcho

open Lib

/-- What the client does with the queue; a message is given by its index. -/
inductive QueueOp where
  | enqueue (packet : Str) (controlType : ControlType) (packetId : Option UInt16)
  | giveUp (written : Str)
  | setState (index : ℕ) (state : QueuedState)
  | setTimeSent (index : ℕ) (time : UInt64)
  | setDup (index : ℕ)
  | clean

namespace MessageQueue

/-- A packer's result is registered, and the record filled in: `MQTT_CLIENT_TRY_PACK` and what
stands behind it. -/
def enqueue (mq : MessageQueue) (packet : Str) (controlType : ControlType)
    (packetId : Option UInt16) : Except Fault MessageQueue := do
  let mem ← storeAll Fault.crash mq.mem mq.curr packet
  let mq ← mqttMqRegister { mq with mem } packet.length
  let mem ← storeMember mq.mem mq.queueTail .controlType controlType.toNat
  match packetId with
  | none => return { mq with mem }
  | some id => do
      let mem ← storeMember mem mq.queueTail .packetId id.toNat
      return { mq with mem }

/-- One step; an index beyond the queue is none of the loops of the client. -/
def step (mq : MessageQueue) : QueueOp → Except Fault MessageQueue
  | .enqueue packet controlType packetId =>
      if packet = [] ∨ mq.currSz < packet.length then return mq
      else mq.enqueue packet controlType packetId
  | .giveUp written =>
      if mq.currSz < written.length then return mq
      else do
        let mem ← storeAll Fault.crash mq.mem mq.curr written
        return { mq with mem }
  | .setState index state =>
      if mqttMqLength mq ≤ index then return mq
      else do
        let mem ← storeMember mq.mem (mqttMqGet mq.mem index) .state state.toNat
        return { mq with mem }
  | .setTimeSent index time =>
      if mqttMqLength mq ≤ index then return mq
      else do
        let mem ← storeMember mq.mem (mqttMqGet mq.mem index) .timeSent time.toNat
        return { mq with mem }
  | .setDup index =>
      if mqttMqLength mq ≤ index then return mq
      else mqttSetDup mq (mqttMqGet mq.mem index)
  | .clean => mqttMqClean mq

/-- A run of steps. -/
def run (mq : MessageQueue) (ops : List QueueOp) : Except Fault MessageQueue :=
  ops.foldlM step mq

end MessageQueue

/-- A packet with the flag `MQTT_PUBLISH_DUP`. -/
def dupBytes : Str → Str
  | [] => []
  | b :: bs => (b ||| 8) :: bs

/-- The bytes a packet may have in a block of `size` bytes behind some messages. -/
def queueRoom (size : ℕ) (msgs : List QueuedMessage) : ℕ :=
  size - sizeofQueuedMessage * (msgs.length + 1) - (packets msgs).length

/-- **A plain queue** in a block of `size` bytes: what a step makes of its messages.  The members of
a new message that nobody sets are arbitrary. -/
inductive Fifo (size : ℕ) : List QueuedMessage → QueueOp → List QueuedMessage → Prop
  | enqueue {msgs : List QueuedMessage} {packet : Str} {t : ControlType}
      {packetId : Option UInt16} {m : QueuedMessage} (hne : packet ≠ [])
      (hroom : packet.length ≤ queueRoom size msgs) (hbytes : m.bytes = packet)
      (hstate : m.state = .unsent) (htype : m.controlType = t.toNat)
      (hid : ∀ id ∈ packetId, m.packetId = id.toNat) :
      Fifo size msgs (.enqueue packet t packetId) (msgs ++ [m])
  | full {msgs : List QueuedMessage} {packet : Str} {t : ControlType}
      {packetId : Option UInt16} (h : packet = [] ∨ queueRoom size msgs < packet.length) :
      Fifo size msgs (.enqueue packet t packetId) msgs
  | giveUp {msgs : List QueuedMessage} {written : Str} : Fifo size msgs (.giveUp written) msgs
  | setState {msgs : List QueuedMessage} {i : ℕ} {s : QueuedState} :
      Fifo size msgs (.setState i s) (msgs.modify i fun m => { m with state := s })
  | setTimeSent {msgs : List QueuedMessage} {i : ℕ} {t : UInt64} :
      Fifo size msgs (.setTimeSent i t) (msgs.modify i fun m => { m with timeSent := t.toNat })
  | setDup {msgs : List QueuedMessage} {i : ℕ} :
      Fifo size msgs (.setDup i) (msgs.modify i fun m => { m with bytes := dupBytes m.bytes })
  | clean {msgs : List QueuedMessage} :
      Fifo size msgs .clean (msgs.dropWhile QueuedMessage.isComplete)

/-- A run of the plain queue. -/
inductive Fifos (size : ℕ) : List QueuedMessage → List QueueOp → List QueuedMessage → Prop
  | nil {msgs : List QueuedMessage} : Fifos size msgs [] msgs
  | cons {msgs msgs' msgs'' : List QueuedMessage} {op : QueueOp} {ops : List QueueOp} :
      Fifo size msgs op msgs' → Fifos size msgs' ops msgs'' → Fifos size msgs (op :: ops) msgs''

lemma set_eq_modify {msgs : List QueuedMessage} {k : ℕ} {m : QueuedMessage}
    (hm : msgs[k]? = some m) (f : QueuedMessage → QueuedMessage) :
    msgs.set k (f m) = msgs.modify k f := by
  have hk := (List.getElem?_eq_some_iff.mp hm).1
  refine List.ext_getElem? fun j => ?_
  rcases eq_or_ne k j with rfl | hne
  · rw [List.getElem?_set_self hk, List.getElem?_modify_eq, hm]
    rfl
  · rw [List.getElem?_set_ne hne, List.getElem?_modify_ne f msgs hne]

namespace Stored

variable {mq : MessageQueue} {msgs : List QueuedMessage} {m : QueuedMessage}

/-- The room there is for a packet. -/
lemma currSz_eq (h : Stored mq msgs) : mq.currSz = queueRoom mq.mem.length msgs := by
  have htail := h.tail
  have hcurr := h.curr
  rw [h.currSz, mqttMqCurrsz, queueRoom, Nat.mul_add]
  split <;> omega

/-- The tail is the record of the last message. -/
lemma queueTail_eq (h : Stored mq (msgs ++ [m])) : mq.queueTail = mqttMqGet mq.mem msgs.length := by
  have htail := h.tail
  rw [List.length_append, List.length_singleton] at htail
  rw [mqttMqGet]
  omega

/-- **A packet is queued.** -/
lemma enqueue (h : Stored mq msgs) {packet : Str} (t : ControlType) (packetId : Option UInt16)
    (hpos : packet ≠ []) (hle : packet.length ≤ mq.currSz) :
    ∃ mq' m, mq.enqueue packet t packetId = .ok mq' ∧ mq'.mem.length = mq.mem.length ∧
      m.bytes = packet ∧ m.state = .unsent ∧ m.controlType = t.toNat ∧
      (∀ id ∈ packetId, m.packetId = id.toNat) ∧ Stored mq' (msgs ++ [m]) := by
  have hlen := List.length_pos_iff.mpr hpos
  obtain ⟨mem, hstore, hmem, hfree, hstretch⟩ := h.pack hle
  obtain ⟨mq₁, m₁, hreg, hmem₁, hbytes, hstate, h₁⟩ := hfree.register hle (by dsimp only; omega)
  have hlast (m₂ : QueuedMessage) : (msgs ++ [m₂])[msgs.length]? = some m₂ := by
    rw [List.getElem?_append_right le_rfl, Nat.sub_self]
    rfl
  have hset (m₂ m₃ : QueuedMessage) : (msgs ++ [m₂]).set msgs.length m₃ = msgs ++ [m₃] := by
    rw [List.set_append_right (h := le_rfl), Nat.sub_self]
    rfl
  let m₂ : QueuedMessage := { m₁ with controlType := t.toNat }
  have hm₂ : m₂.bytes = m₁.bytes := rfl
  obtain ⟨mem₂, hstore₂, hmem₂, h₂⟩ := h₁.store .controlType t.toNat (hlast m₁) hm₂
    fun a r hr => hr.set .controlType (t.toNat_lt.trans (by decide)) rfl fun mb hmb => by
      cases mb <;> first | exact absurd rfl hmb | rfl
  rw [hset] at h₂
  rw [← h₁.queueTail_eq] at hstore₂
  cases packetId with
  | none =>
      refine ⟨{ mq₁ with mem := mem₂ }, m₂, ?_, by rw [← hmem, ← hmem₁, ← hmem₂],
        hbytes.trans hstretch, hstate, rfl, fun id hid => absurd hid (by simp), h₂⟩
      rw [MessageQueue.enqueue, hstore]
      simp only [bind, Except.bind]
      rw [hreg]
      dsimp only
      rw [hstore₂]
      rfl
  | some id =>
      let m₃ : QueuedMessage := { m₂ with packetId := id.toNat }
      have hm₃ : m₃.bytes = m₂.bytes := rfl
      obtain ⟨mem₃, hstore₃, hmem₃, h₃⟩ := h₂.store .packetId id.toNat (hlast m₂) hm₃
        fun a r hr => hr.set .packetId id.toNat_lt rfl fun mb hmb => by
          cases mb <;> first | exact absurd rfl hmb | rfl
      rw [hset] at h₃
      rw [← h₂.queueTail_eq] at hstore₃
      refine ⟨{ mq₁ with mem := mem₃ }, m₃, ?_,
        by rw [← hmem, ← hmem₁, ← hmem₂, ← hmem₃],
        hbytes.trans hstretch, hstate, rfl, fun id' hid => ?_, h₃⟩
      · rw [MessageQueue.enqueue, hstore]
        simp only [bind, Except.bind]
        rw [hreg]
        dsimp only
        rw [hstore₂]
        dsimp only
        rw [hstore₃]
        rfl
      · rw [← Option.mem_some_iff.mp hid]

/-- **A member of a message is set.** -/
lemma setMember (h : Stored mq msgs) {k : ℕ} (mb : Member) (v : ℕ)
    (f : QueuedMessage → QueuedMessage) (hm : msgs[k]? = some m) (hv : v < 256 ^ mb.width)
    (hbytes : (f m).bytes = m.bytes)
    (hself : ∀ a, (f m).value a mb = v)
    (hrest : ∀ a mb', mb' ≠ mb → (f m).value a mb' = m.value a mb') :
    ∃ mem, storeMember mq.mem (mqttMqGet mq.mem k) mb v = .ok mem ∧
      mem.length = mq.mem.length ∧ Stored { mq with mem } (msgs.modify k f) := by
  obtain ⟨mem, hstore, hlen, hholds⟩ := h.store mb v hm hbytes
    fun a r hr => hr.set mb hv (hself a) (hrest a)
  rw [set_eq_modify hm] at hholds
  exact ⟨mem, hstore, hlen, hholds⟩

/-- **One step** of the queue in the memory is one of the plain queue. -/
theorem step (h : Stored mq msgs) (hne : ∀ m ∈ msgs, m.bytes ≠ []) (op : QueueOp) :
    ∃ mq' msgs', mq.step op = .ok mq' ∧ mq'.mem.length = mq.mem.length ∧
      Fifo mq.mem.length msgs op msgs' ∧ Stored mq' msgs' := by
  have hbeyond {k : ℕ} (hk : mqttMqLength mq ≤ k) (f : QueuedMessage → QueuedMessage) :
      msgs.modify k f = msgs := by
    rw [h.length_eq] at hk
    exact List.modify_eq_self hk
  have hwithin {k : ℕ} (hk : ¬ mqttMqLength mq ≤ k) : ∃ m, msgs[k]? = some m := by
    rw [h.length_eq, not_le] at hk
    exact ⟨_, List.getElem?_eq_getElem hk⟩
  cases op with
  | enqueue packet t packetId =>
      rw [MessageQueue.step, h.currSz_eq]
      by_cases hfull : packet = [] ∨ queueRoom mq.mem.length msgs < packet.length
      · rw [if_pos hfull]
        exact ⟨mq, msgs, rfl, rfl, .full hfull, h⟩
      · rw [if_neg hfull]
        obtain ⟨hpos, hle⟩ := not_or.mp hfull
        rw [not_lt] at hle
        obtain ⟨mq', m, hrun, hmem, hbytes, hstate, htype, hid, hholds⟩ :=
          h.enqueue t packetId hpos (h.currSz_eq ▸ hle)
        exact ⟨mq', _, hrun, hmem, .enqueue hpos hle hbytes hstate htype hid, hholds⟩
  | giveUp written =>
      rw [MessageQueue.step]
      split
      · exact ⟨mq, msgs, rfl, rfl, .giveUp, h⟩
      · rename_i hle
        obtain ⟨mem, hstore, hmem, hholds, -⟩ := h.pack (not_lt.mp hle)
        refine ⟨_, msgs, ?_, hmem, .giveUp, hholds⟩
        rw [hstore]
        rfl
  | setState k s =>
      rw [MessageQueue.step]
      split
      · rename_i hk
        refine ⟨mq, _, rfl, rfl, .setState, ?_⟩
        rwa [hbeyond hk]
      · rename_i hk
        obtain ⟨m, hm⟩ := hwithin hk
        obtain ⟨mem, hstore, hmem, hholds⟩ := h.setMember .state s.toNat
          (fun m => { m with state := s }) hm (by cases s <;> decide) rfl (fun _ => rfl)
          fun a mb hmb => by cases mb <;> first | exact absurd rfl hmb | rfl
        refine ⟨_, _, ?_, hmem, .setState, hholds⟩
        rw [hstore]
        rfl
  | setTimeSent k t =>
      rw [MessageQueue.step]
      split
      · rename_i hk
        refine ⟨mq, _, rfl, rfl, .setTimeSent, ?_⟩
        rwa [hbeyond hk]
      · rename_i hk
        obtain ⟨m, hm⟩ := hwithin hk
        obtain ⟨mem, hstore, hmem, hholds⟩ := h.setMember .timeSent t.toNat
          (fun m => { m with timeSent := t.toNat }) hm t.toNat_lt rfl (fun _ => rfl)
          fun a mb hmb => by cases mb <;> first | exact absurd rfl hmb | rfl
        refine ⟨_, _, ?_, hmem, .setTimeSent, hholds⟩
        rw [hstore]
        rfl
  | setDup k =>
      rw [MessageQueue.step]
      split
      · rename_i hk
        refine ⟨mq, _, rfl, rfl, .setDup, ?_⟩
        rwa [hbeyond hk]
      · rename_i hk
        obtain ⟨m, hm⟩ := hwithin hk
        obtain ⟨b, bs, hb⟩ := List.exists_cons_of_ne_nil (hne m (List.mem_of_getElem? hm))
        obtain ⟨mq', hrun, hmem, hholds⟩ := h.setDup hm hb
        refine ⟨mq', _, hrun, hmem, .setDup, ?_⟩
        rw [← set_eq_modify hm, hb]
        exact hholds
  | clean =>
      obtain ⟨mq', hrun, hmem, hholds⟩ := h.clean
      exact ⟨mq', _, hrun, hmem, .clean, hholds⟩

end Stored

/-- A packet is never empty. -/
lemma Fifo.bytes_ne {size : ℕ} {msgs msgs' : List QueuedMessage} {op : QueueOp}
    (h : Fifo size msgs op msgs') (hne : ∀ m ∈ msgs, m.bytes ≠ []) :
    ∀ m ∈ msgs', m.bytes ≠ [] := by
  have hmodify {k : ℕ} {f : QueuedMessage → QueuedMessage}
      (hf : ∀ m : QueuedMessage, m.bytes ≠ [] → (f m).bytes ≠ []) :
      ∀ m ∈ msgs.modify k f, m.bytes ≠ [] := by
    intro m hm
    obtain ⟨j, hj⟩ := List.mem_iff_getElem?.mp hm
    rw [List.getElem?_modify] at hj
    obtain ⟨w, hw, rfl⟩ := Option.map_eq_some_iff.mp hj
    have := hne w (List.mem_of_getElem? hw)
    split
    · exact hf w this
    · exact this
  cases h with
  | enqueue hpos _ hbytes =>
      intro w hw
      rcases List.mem_append.mp hw with hw | hw
      · exact hne w hw
      · rw [List.mem_singleton.mp hw, hbytes]
        exact hpos
  | full | giveUp => exact hne
  | setState | setTimeSent => exact hmodify fun m hm => hm
  | setDup =>
      refine hmodify fun m hm => ?_
      obtain ⟨b, bs, hb⟩ := List.exists_cons_of_ne_nil hm
      rw [hb, dupBytes]
      exact List.cons_ne_nil _ _
  | clean => exact fun w hw => hne w ((List.dropWhile_sublist _).subset hw)

lemma Fifos.bytes_ne {size : ℕ} {msgs msgs' : List QueuedMessage} {ops : List QueueOp}
    (h : Fifos size msgs ops msgs') (hne : ∀ m ∈ msgs, m.bytes ≠ []) :
    ∀ m ∈ msgs', m.bytes ≠ [] := by
  induction h with
  | nil => exact hne
  | cons hfifo _ ih => exact ih (hfifo.bytes_ne hne)

/-- A run from any queue. -/
lemma Stored.run {mq : MessageQueue} {msgs : List QueuedMessage} (h : Stored mq msgs)
    (hne : ∀ m ∈ msgs, m.bytes ≠ []) (ops : List QueueOp) :
    ∃ mq' msgs', mq.run ops = .ok mq' ∧ mq'.mem.length = mq.mem.length ∧
      Fifos mq.mem.length msgs ops msgs' ∧ Stored mq' msgs' := by
  induction ops generalizing mq msgs with
  | nil => exact ⟨mq, msgs, rfl, rfl, .nil, h⟩
  | cons op ops ih =>
      obtain ⟨mq₁, msgs₁, hstep, hlen, hfifo, hholds⟩ := h.step hne op
      obtain ⟨mq', msgs', hrun, hlen', hfifos, hholds'⟩ := ih hholds (hfifo.bytes_ne hne)
      refine ⟨mq', msgs', ?_, hlen'.trans hlen, .cons hfifo (hlen ▸ hfifos), hholds'⟩
      rw [MessageQueue.run, List.foldlM_cons, hstep]
      exact hrun

/-- **The message queue is a queue**: over every run from `mqtt_mq_init` no access leaves the block
of memory, and what the block holds at the end is what a plain queue holds, which is what
`mqtt_mq_find`, `mqtt_mq_length` and the room for the next packet go by. -/
theorem message_queue_refines {memStart : ℕ} {mem : List UInt8} (hpos : 0 < memStart)
    (hfits : memStart + mem.length < 2 ^ 64) (ops : List QueueOp) :
    ∃ mq msgs, (mqttMqInit memStart mem).run ops = .ok mq ∧ mq.mem.length = mem.length ∧
      Fifos mem.length [] ops msgs ∧ Stored mq msgs ∧ mqttMqLength mq = msgs.length ∧
      mq.currSz = queueRoom mem.length msgs ∧
      ∀ controlType packetId, mqttMqFind mq controlType packetId =
        .ok (msgs.findIdx? (QueuedMessage.matches controlType packetId)) := by
  obtain ⟨mq, msgs, hrun, hlen, hfifos, hholds⟩ :=
    (Stored.init hpos (hfits.trans_eq (by norm_num))).run (by simp) ops
  exact ⟨mq, msgs, hrun, hlen, hfifos, hholds, hholds.length_eq, hlen ▸ hholds.currSz_eq,
    hholds.find⟩

/-- What two messages leave of a small block when the first of them is complete. -/
def cleanedRun : List QueueOp :=
  [.enqueue [192, 0] .pingreq none, .enqueue [64, 2, 0, 7] .puback (some 7),
    .setState 0 .complete, .clean, .setTimeSent 0 5]

/-- The run in a block of a hundred bytes. -/
theorem message_queue_refines_cleaned :
    ∃ mq msgs, (mqttMqInit 4096 (List.replicate 100 170)).run cleanedRun = .ok mq ∧
      mq.mem.length = (List.replicate 100 (170 : UInt8)).length ∧
      Fifos (List.replicate 100 (170 : UInt8)).length [] cleanedRun msgs ∧ Stored mq msgs ∧
      mqttMqLength mq = msgs.length ∧
      mq.currSz = queueRoom (List.replicate 100 (170 : UInt8)).length msgs ∧
      ∀ controlType packetId, mqttMqFind mq controlType packetId =
        .ok (msgs.findIdx? (QueuedMessage.matches controlType packetId)) :=
  message_queue_refines (by decide) (by rw [List.length_replicate]; norm_num) cleanedRun

/-- The second message is all that is left. -/
example : ((mqttMqInit 4096 (List.replicate 100 170)).run cleanedRun).toOption.map
    (fun mq => (mq.mem.take mq.curr, mq.currSz, mqttMqLength mq)) =
      some ([64, 2, 0, 7], 16, 1) := by
  decide +kernel

end SipEcho
