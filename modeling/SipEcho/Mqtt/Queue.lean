import SipEcho.Lib.Record
import SipEcho.Map.Delete
import SipEcho.Mqtt.Unpack

/-!
The message queue of `mqtt.c`, byte by byte: the packets grow from the start of a block of memory
and their records, of `sizeofQueuedMessage` bytes each, from its end.

A pointer into the block is the offset from `mem_start`, whose address is `memStart`; `start`
members hold addresses.  What a new record holds besides the members that are set is what was in
the memory.

* `QueuedMessage`, `Stored`: the messages a block of memory holds, in order;
* `Stored.pack`, `Stored.register`, `Stored.store`, `Stored.setDup`, `Stored.clean`, `Stored.find`:
  what each call makes of them.
-/

namespace SipEcho

open Lib

/-- `sizeof(struct mqtt_queued_message)`. -/
def sizeofQueuedMessage : ℕ := 40

/-- The members of the record. -/
inductive Member where
  | start
  | size
  | state
  | timeSent
  | controlType
  | packetId
  deriving DecidableEq, Repr

/-- Where a member stands, on a machine with 64-bit pointers. -/
def Member.offset : Member → ℕ
  | start => 0
  | size => 8
  | state => 16
  | timeSent => 24
  | controlType => 32
  | packetId => 36

/-- How many bytes a member has: a pointer, `size_t`, two enumerations, `time_t` and `uint16_t`. -/
def Member.width : Member → ℕ
  | start | size | timeSent => 8
  | state | controlType => 4
  | packetId => 2

/-- `enum MQTTQueuedMessageState`. -/
inductive QueuedState where
  | unsent
  | awaitingAck
  | complete
  deriving DecidableEq, Repr

/-- The value of the member. -/
def QueuedState.toNat : QueuedState → ℕ
  | unsent => 0
  | awaitingAck => 1
  | complete => 2

/-- `struct mqtt_message_queue`, with its block of memory. -/
structure MessageQueue where
  memStart : ℕ
  mem : List UInt8
  curr : ℕ
  currSz : ℕ
  queueTail : ℕ

/-- `mqtt_mq_get`. -/
def mqttMqGet (mem : List UInt8) (index : ℕ) : ℕ :=
  mem.length - sizeofQueuedMessage * (index + 1)

/-- `mqtt_mq_length`. -/
def mqttMqLength (mq : MessageQueue) : ℕ := (mq.mem.length - mq.queueTail) / sizeofQueuedMessage

/-- `mqtt_mq_currsz`. -/
def mqttMqCurrsz (curr queueTail : ℕ) : ℕ :=
  if queueTail - sizeofQueuedMessage ≤ curr then 0 else queueTail - sizeofQueuedMessage - curr

/-- `msg->member`. -/
def loadMember (mem : List UInt8) (msg : ℕ) (m : Member) : Except Fault ℕ := do
  let bytes ← loadAll Fault.crash mem (msg + m.offset) m.width
  return leValue bytes

/-- `msg->member = v`. -/
def storeMember (mem : List UInt8) (msg : ℕ) (m : Member) (v : ℕ) : Except Fault (List UInt8) :=
  storeAll Fault.crash mem (msg + m.offset) (leBytes m.width v)

/-- `mqtt_mq_init`. -/
def mqttMqInit (memStart : ℕ) (mem : List UInt8) : MessageQueue where
  memStart
  mem
  curr := 0
  currSz := if memStart = 0 then 0 else mqttMqCurrsz 0 mem.length
  queueTail := mem.length

/-- `mqtt_mq_register`. -/
def mqttMqRegister (mq : MessageQueue) (nbytes : ℕ) : Except Fault MessageQueue := do
  if mq.queueTail < sizeofQueuedMessage then throw .crash
  let queueTail := mq.queueTail - sizeofQueuedMessage
  let mem ← storeMember mq.mem queueTail .start (mq.memStart + mq.curr)
  let mem ← storeMember mem queueTail .size nbytes
  let mem ← storeMember mem queueTail .state QueuedState.unsent.toNat
  let curr := mq.curr + nbytes
  return { mq with mem, curr, currSz := mqttMqCurrsz curr queueTail, queueTail }

/-- The loop of `mqtt_mq_clean`: the first message from `index` on that is not complete. -/
def mqttMqNewHead (mq : MessageQueue) : ℕ → ℕ → Except Fault ℕ
  | 0, _ => throw .fuel
  | fuel + 1, index => do
      -- `new_head >= mq->queue_tail`
      if mq.queueTail + sizeofQueuedMessage * (index + 1) ≤ mq.mem.length then
        let state ← loadMember mq.mem (mqttMqGet mq.mem index) .state
        if state ≠ QueuedState.complete.toNat then return index
        else mqttMqNewHead mq fuel (index + 1)
      else return index

/-- The last loop of `mqtt_mq_clean`, over `count` messages from `index` on. -/
def mqttMqBump (removing : ℕ) : ℕ → ℕ → List UInt8 → Except Fault (List UInt8)
  | 0, _, mem => return mem
  | count + 1, index, mem => do
      let start ← loadMember mem (mqttMqGet mem index) .start
      let mem ← storeMember mem (mqttMqGet mem index) .start (start - removing)
      mqttMqBump removing count (index + 1) mem

/-- `mqtt_mq_clean`. -/
def mqttMqClean (mq : MessageQueue) : Except Fault MessageQueue := do
  let newHead ← mqttMqNewHead mq (mq.mem.length + 1) 0
  if mq.mem.length < mq.queueTail + sizeofQueuedMessage * (newHead + 1) then
    -- everything can be removed
    return { mq with
      curr := 0
      currSz := mqttMqCurrsz 0 mq.mem.length
      queueTail := mq.mem.length }
  else if newHead = 0 then return mq
  else
    let start ← loadMember mq.mem (mqttMqGet mq.mem newHead) .start
    let n := mq.memStart + mq.curr - start
    let removing := start - mq.memStart
    let buffered ← loadAll Fault.crash mq.mem removing n
    let mem ← storeAll Fault.crash mq.mem 0 buffered
    let newTailIdx := (mqttMqGet mem newHead - mq.queueTail) / sizeofQueuedMessage
    let queue ← loadAll Fault.crash mem mq.queueTail (sizeofQueuedMessage * (newTailIdx + 1))
    let mem ← storeAll Fault.crash mem (mqttMqGet mem newTailIdx) queue
    let queueTail := mqttMqGet mem newTailIdx
    let mem ← mqttMqBump removing (newTailIdx + 1) 0 mem
    return { mq with mem, curr := n, currSz := mqttMqCurrsz n queueTail, queueTail }

/-- The loop of `mqtt_mq_find`, from `index` on: the index of the message. -/
def mqttMqFindFrom (mq : MessageQueue) (controlType : ℕ) (packetId : Option ℕ) :
    ℕ → ℕ → Except Fault (Option ℕ)
  | 0, _ => throw .fuel
  | fuel + 1, index => do
      if mq.queueTail + sizeofQueuedMessage * (index + 1) ≤ mq.mem.length then
        let curr := mqttMqGet mq.mem index
        let type ← loadMember mq.mem curr .controlType
        let state ← loadMember mq.mem curr .state
        let id ← loadMember mq.mem curr .packetId
        if type = controlType ∧ (packetId = none ∧ state ≠ QueuedState.complete.toNat ∨
            packetId = some id) then return some index
        else mqttMqFindFrom mq controlType packetId fuel (index + 1)
      else return none

/-- `mqtt_mq_find`. -/
def mqttMqFind (mq : MessageQueue) (controlType : ℕ) (packetId : Option ℕ) :
    Except Fault (Option ℕ) :=
  mqttMqFindFrom mq controlType packetId (mq.mem.length + 1) 0

/-- `msg->start[0] |= MQTT_PUBLISH_DUP`. -/
def mqttSetDup (mq : MessageQueue) (msg : ℕ) : Except Fault MessageQueue := do
  let start ← loadMember mq.mem msg .start
  let first ← load Fault.crash mq.mem (start - mq.memStart)
  let mem ← store Fault.crash mq.mem (start - mq.memStart) (first ||| 8)
  return { mq with mem }

/-! ### The record of a message -/

/-- A member of a record. -/
def member (r : List UInt8) (m : Member) : ℕ := leValue (stretch r m.offset m.width)

/-- A record with another value of a member. -/
def setMember (r : List UInt8) (m : Member) (v : ℕ) : List UInt8 :=
  patch r m.offset (leBytes m.width v)

lemma Member.inside (m : Member) : m.offset + m.width ≤ sizeofQueuedMessage := by
  cases m <;> decide

/-- No two members overlap. -/
lemma Member.apart {m m' : Member} (h : m ≠ m') :
    m.offset + m.width ≤ m'.offset ∨ m'.offset + m'.width ≤ m.offset := by
  cases m <;> cases m' <;> first | exact absurd rfl h | decide

section Members

variable {r mem : List UInt8} {m m' : Member} {v msg : ℕ}

lemma offset_le (m : Member) (v : ℕ) (hr : r.length = sizeofQueuedMessage) :
    m.offset + (leBytes m.width v).length ≤ r.length := by
  rw [length_leBytes, hr]
  exact m.inside

lemma length_setMember (hr : r.length = sizeofQueuedMessage) :
    (setMember r m v).length = sizeofQueuedMessage := by
  rw [setMember, length_patch (offset_le m v hr), hr]

lemma member_setMember (hr : r.length = sizeofQueuedMessage) (hv : v < 256 ^ m.width) :
    member (setMember r m v) m = v := by
  have hself := stretch_patch_self (offset_le m v hr)
  rw [length_leBytes] at hself
  rw [member, setMember, hself, leValue_leBytes hv]

lemma member_setMember_ne (hr : r.length = sizeofQueuedMessage) (h : m' ≠ m) :
    member (setMember r m v) m' = member r m' := by
  have hlen := offset_le m v hr
  rw [member, member, setMember]
  rcases Member.apart h with h | h
  · rw [stretch_patch_before hlen h]
  · rw [stretch_patch_behind hlen (by rwa [length_leBytes]) (by rw [hr]; exact m'.inside)]

lemma loadMember_eq (m : Member) (h : msg + sizeofQueuedMessage ≤ mem.length) :
    loadMember mem msg m = .ok (member (stretch mem msg sizeofQueuedMessage) m) := by
  have hin := m.inside
  rw [loadMember, loadAll_eq (by omega), member, stretch_stretch hin]
  rfl

/-- **A member is written**: its record changes there, and no other memory does. -/
lemma storeMember_eq (m : Member) (v : ℕ) (h : msg + sizeofQueuedMessage ≤ mem.length) :
    ∃ mem', storeMember mem msg m v = .ok mem' ∧ mem'.length = mem.length ∧
      stretch mem' msg sizeofQueuedMessage =
        setMember (stretch mem msg sizeofQueuedMessage) m v ∧
      ∀ i n, i + n ≤ msg ∨ msg + sizeofQueuedMessage ≤ i ∧ i + n ≤ mem.length →
        stretch mem' i n = stretch mem i n := by
  have hin := m.inside
  have hlen : msg + m.offset + (leBytes m.width v).length ≤ mem.length := by
    rw [length_leBytes]
    omega
  refine ⟨_, storeAll_patch hlen, length_patch hlen, ?_, ?_⟩
  · exact stretch_patch_within h (by rw [length_leBytes]; exact hin)
  · rintro i n (hi | ⟨hi, hn⟩)
    · exact stretch_patch_before hlen (by omega)
    · refine stretch_patch_behind hlen ?_ hn
      rw [length_leBytes]
      omega

end Members

/-- A message in the queue: its packet, and what its record says of it. -/
structure QueuedMessage where
  bytes : Str
  state : QueuedState
  timeSent : ℕ
  controlType : ℕ
  packetId : ℕ
  deriving DecidableEq, Repr

/-- The message is in the state `MQTT_QUEUED_COMPLETE`. -/
def QueuedMessage.isComplete (msg : QueuedMessage) : Bool := msg.state = .complete

lemma QueuedMessage.isComplete_iff {msg : QueuedMessage} :
    msg.isComplete = true ↔ msg.state = .complete := decide_eq_true_iff

lemma QueuedState.toNat_injective {s s' : QueuedState} (h : s.toNat = s'.toNat) : s = s' := by
  cases s <;> cases s' <;> first | rfl | exact absurd h (by decide)

/-- What `mqtt_mq_find` asks of a message. -/
def QueuedMessage.matches (controlType : ℕ) (packetId : Option ℕ) (msg : QueuedMessage) : Bool :=
  msg.controlType = controlType ∧
    (packetId = none ∧ msg.state ≠ .complete ∨ packetId = some msg.packetId)

lemma matches_iff {controlType : ℕ} {packetId : Option ℕ} (msg : QueuedMessage) :
    msg.matches controlType packetId = true ↔ msg.controlType = controlType ∧
      (packetId = none ∧ msg.state.toNat ≠ QueuedState.complete.toNat ∨
        packetId = some msg.packetId) := by
  rw [QueuedMessage.matches, decide_eq_true_iff]
  have hstate : msg.state ≠ .complete ↔ msg.state.toNat ≠ QueuedState.complete.toNat :=
    not_congr ⟨congrArg _, QueuedState.toNat_injective⟩
  rw [hstate]

/-- What the record of a message says, whose packet stands at an address. -/
def QueuedMessage.value (address : ℕ) (msg : QueuedMessage) : Member → ℕ
  | .start => address
  | .size => msg.bytes.length
  | .state => msg.state.toNat
  | .timeSent => msg.timeSent
  | .controlType => msg.controlType
  | .packetId => msg.packetId

/-- The record of a message whose packet stands at an address. -/
structure Records (address : ℕ) (msg : QueuedMessage) (r : List UInt8) : Prop where
  length : r.length = sizeofQueuedMessage
  member_eq : ∀ mb, member r mb = msg.value address mb

/-- **One member is written.** -/
lemma Records.set {a a' v : ℕ} {m m' : QueuedMessage} {r : List UInt8} (h : Records a m r)
    (mb : Member) (hv : v < 256 ^ mb.width) (hself : m'.value a' mb = v)
    (hrest : ∀ mb', mb' ≠ mb → m'.value a' mb' = m.value a mb') :
    Records a' m' (setMember r mb v) := by
  refine ⟨length_setMember h.length, fun mb' => ?_⟩
  rcases eq_or_ne mb' mb with rfl | hne
  · rw [member_setMember h.length hv, hself]
  · rw [member_setMember_ne h.length hne, hrest mb' hne, h.member_eq]

/-- What the record of a new message says, of which three members are written. -/
lemma Records.new {a : ℕ} {bytes : Str} {r : List UInt8} (hr : r.length = sizeofQueuedMessage)
    (ha : a < 256 ^ 8) (hbytes : bytes.length < 256 ^ 8) :
    Records a
      ⟨bytes, .unsent, member r .timeSent, member r .controlType, member r .packetId⟩
      (setMember (setMember (setMember r .start a) .size bytes.length) .state
        QueuedState.unsent.toNat) := by
  have hr₁ := length_setMember (m := .start) (v := a) hr
  have hr₂ := length_setMember (m := .size) (v := bytes.length) hr₁
  refine ⟨length_setMember hr₂, fun mb => ?_⟩
  cases mb
  case start =>
    rw [member_setMember_ne hr₂ (by decide), member_setMember_ne hr₁ (by decide),
      member_setMember hr ha]
    rfl
  case size =>
    rw [member_setMember_ne hr₂ (by decide), member_setMember hr₁ hbytes]
    rfl
  case state =>
    rw [member_setMember hr₂ (by decide)]
    rfl
  all_goals
    rw [member_setMember_ne hr₂ (by decide), member_setMember_ne hr₁ (by decide),
      member_setMember_ne hr (by decide)]
    rfl

/-- The packets of the messages, one behind another. -/
def packets (msgs : List QueuedMessage) : Str := msgs.flatMap QueuedMessage.bytes

@[simp] lemma packets_nil : packets [] = [] := rfl

@[simp] lemma packets_cons (m : QueuedMessage) (msgs : List QueuedMessage) :
    packets (m :: msgs) = m.bytes ++ packets msgs := rfl

@[simp] lemma packets_append (msgs msgs' : List QueuedMessage) :
    packets (msgs ++ msgs') = packets msgs ++ packets msgs' := List.flatMap_append

/-- **The messages a queue holds**: their packets stand at the front, their records at the end, and
the two do not meet. -/
structure Stored (mq : MessageQueue) (msgs : List QueuedMessage) : Prop where
  fits : mq.memStart + mq.mem.length < 256 ^ 8
  curr : mq.curr = (packets msgs).length
  room : mq.curr ≤ mq.queueTail
  tail : mq.queueTail + sizeofQueuedMessage * msgs.length = mq.mem.length
  currSz : mq.currSz = mqttMqCurrsz mq.curr mq.queueTail
  bytes : stretch mq.mem 0 mq.curr = packets msgs
  records : ∀ k m, msgs[k]? = some m →
    Records (mq.memStart + (packets (msgs.take k)).length) m
      (stretch mq.mem (mqttMqGet mq.mem k) sizeofQueuedMessage)

lemma packets_eq (msgs : List QueuedMessage) :
    packets msgs = (msgs.map QueuedMessage.bytes).flatten := List.flatMap_def

namespace Stored

variable {mq : MessageQueue} {msgs : List QueuedMessage} {k n : ℕ} {m m' : QueuedMessage}

/-- The record of a message lies behind the tail. -/
lemma get_add (h : Stored mq msgs) (hk : k < msgs.length) :
    mqttMqGet mq.mem k + sizeofQueuedMessage * (k + 1) = mq.mem.length ∧
      mq.queueTail ≤ mqttMqGet mq.mem k := by
  have htail := h.tail
  rw [mqttMqGet]
  simp only [sizeofQueuedMessage] at htail ⊢
  omega

lemma get_le (h : Stored mq msgs) (hk : k < msgs.length) :
    mqttMqGet mq.mem k + sizeofQueuedMessage ≤ mq.mem.length := by
  have := (h.get_add hk).1
  simp only [sizeofQueuedMessage] at this ⊢
  omega

/-- `mqtt_mq_get(mq, k) >= mq->queue_tail`. -/
lemma inQueue_iff (h : Stored mq msgs) :
    mq.queueTail + sizeofQueuedMessage * (k + 1) ≤ mq.mem.length ↔ k < msgs.length := by
  have htail := h.tail
  simp only [sizeofQueuedMessage] at htail ⊢
  omega

lemma length_eq (h : Stored mq msgs) : mqttMqLength mq = msgs.length := by
  have htail := h.tail
  rw [mqttMqLength]
  simp only [sizeofQueuedMessage] at htail ⊢
  omega

/-- Packets and a header fit into what is left. -/
lemma room_of_le (h : Stored mq msgs) (hn : n ≤ mq.currSz) (hpos : 0 < mq.currSz) :
    mq.curr + n + sizeofQueuedMessage ≤ mq.queueTail := by
  have hsz := h.currSz
  rw [mqttMqCurrsz] at hsz
  split at hsz <;> omega

lemma packets_take_le (h : Stored mq msgs) (hm : msgs[k]? = some m) :
    (packets (msgs.take k)).length + m.bytes.length ≤ mq.curr := by
  obtain ⟨hk, rfl⟩ := List.getElem?_eq_some_iff.mp hm
  rw [h.curr]
  conv_rhs => rw [← List.take_append_drop k msgs, List.drop_eq_getElem_cons hk]
  rw [packets_append, packets_cons, List.length_append, List.length_append]
  omega

/-- `mqtt_mq_init` of a block of memory. -/
theorem init {memStart : ℕ} {mem : List UInt8} (hpos : 0 < memStart)
    (hfits : memStart + mem.length < 256 ^ 8) : Stored (mqttMqInit memStart mem) [] where
  fits := hfits
  curr := rfl
  room := Nat.zero_le _
  tail := rfl
  currSz := if_neg hpos.ne'
  bytes := rfl
  records k m hm := by simp at hm

/-- **What a packer writes into the free memory** changes no message. -/
theorem pack (h : Stored mq msgs) {cs : List UInt8} (hcs : cs.length ≤ mq.currSz) :
    ∃ mem, storeAll Fault.crash mq.mem mq.curr cs = .ok mem ∧ mem.length = mq.mem.length ∧
      Stored { mq with mem } msgs ∧ stretch mem mq.curr cs.length = cs := by
  rcases Nat.eq_zero_or_pos cs.length with h0 | hpos
  · obtain rfl : cs = [] := List.length_eq_zero_iff.mp h0
    exact ⟨mq.mem, rfl, rfl, h, by rw [stretch, List.length_nil, List.take_zero]⟩
  have htail := h.tail
  have hroom := h.room_of_le hcs (by omega)
  have hle : mq.curr + cs.length ≤ mq.mem.length := by omega
  refine ⟨_, storeAll_patch hle, length_patch hle, ?_, stretch_patch_self hle⟩
  refine ⟨by rw [length_patch hle]; exact h.fits, h.curr, h.room, by rw [length_patch hle, htail],
    h.currSz, ?_, fun k m hm => ?_⟩
  · exact (stretch_patch_before hle (Nat.zero_add _).le).trans h.bytes
  · have hk := (List.getElem?_eq_some_iff.mp hm).1
    have hget := h.get_add hk
    have hge := h.get_le hk
    rw [mqttMqGet, length_patch hle, ← mqttMqGet, stretch_patch_behind hle (by omega) hge]
    exact h.records k m hm

/-- **A record is changed**: what `storeMember` makes of the messages. -/
theorem store (h : Stored mq msgs) (mb : Member) (v : ℕ) (hm : msgs[k]? = some m)
    (hbytes : m'.bytes = m.bytes) (hrec : ∀ a r, Records a m r → Records a m' (setMember r mb v)) :
    ∃ mem, storeMember mq.mem (mqttMqGet mq.mem k) mb v = .ok mem ∧
      mem.length = mq.mem.length ∧ Stored { mq with mem } (msgs.set k m') := by
  have hk := (List.getElem?_eq_some_iff.mp hm).1
  have hget := h.get_add hk
  obtain ⟨mem, hstore, hlen, hself, hother⟩ := storeMember_eq mb v (h.get_le hk)
  have hmap : (msgs.set k m').map QueuedMessage.bytes = msgs.map QueuedMessage.bytes := by
    have hlt : k < (msgs.map QueuedMessage.bytes).length := by rwa [List.length_map]
    have hself : (msgs.map QueuedMessage.bytes)[k] = m.bytes := by
      rw [List.getElem_map, (List.getElem?_eq_some_iff.mp hm).2]
    rw [List.map_set, hbytes, ← hself, List.set_getElem_self]
  have htake : ∀ j, packets ((msgs.set k m').take j) = packets (msgs.take j) := by
    intro j
    rw [packets_eq, packets_eq, List.map_take, List.map_take, hmap]
  have hall : packets (msgs.set k m') = packets msgs := by
    rw [packets_eq, packets_eq, hmap]
  refine ⟨mem, hstore, hlen, ?_⟩
  refine ⟨by rw [hlen]; exact h.fits, by rw [hall]; exact h.curr, h.room,
    by rw [hlen, List.length_set]; exact h.tail, h.currSz, ?_, fun j w hw => ?_⟩
  · rw [hall, ← h.bytes]
    exact hother 0 mq.curr (.inl (by have := h.room; omega))
  · have hj : j < msgs.length := by
      have := (List.getElem?_eq_some_iff.mp hw).1
      rwa [List.length_set] at this
    rw [htake, mqttMqGet, hlen, ← mqttMqGet]
    rcases eq_or_ne k j with rfl | hne
    · rw [List.getElem?_set_self hk] at hw
      rw [hself, ← Option.some.inj hw]
      exact hrec _ _ (h.records k m hm)
    · rw [List.getElem?_set_ne hne] at hw
      have hgetj := h.get_add hj
      have hlej := h.get_le hj
      rw [hother _ _ ?_]
      · exact h.records j w hw
      · simp only [sizeofQueuedMessage] at hget hgetj hlej ⊢
        omega

/-- **A new message**: its packet is what stands at `curr`. -/
theorem register (h : Stored mq msgs) (hn : n ≤ mq.currSz) (hpos : 0 < mq.currSz) :
    ∃ mq' m, mqttMqRegister mq n = .ok mq' ∧ mq'.mem.length = mq.mem.length ∧
      m.bytes = stretch mq.mem mq.curr n ∧ m.state = .unsent ∧ Stored mq' (msgs ++ [m]) := by
  have htail := h.tail
  have hroom := h.room_of_le hn hpos
  have hfits := h.fits
  have htop : mq.queueTail ≤ mq.mem.length := by omega
  let tail := mq.queueTail - sizeofQueuedMessage
  have hsub : tail + sizeofQueuedMessage = mq.queueTail := by omega
  obtain ⟨mem₁, hstore₁, hlen₁, hself₁, hother₁⟩ := storeMember_eq .start
    (mq.memStart + mq.curr) (show tail + sizeofQueuedMessage ≤ mq.mem.length by omega)
  obtain ⟨mem₂, hstore₂, hlen₂, hself₂, hother₂⟩ := storeMember_eq .size n
    (show tail + sizeofQueuedMessage ≤ mem₁.length by omega)
  obtain ⟨mem₃, hstore₃, hlen₃, hself₃, hother₃⟩ := storeMember_eq .state
    QueuedState.unsent.toNat (show tail + sizeofQueuedMessage ≤ mem₂.length by omega)
  have hother : ∀ i j, i + j ≤ tail ∨ mq.queueTail ≤ i ∧ i + j ≤ mq.mem.length →
      stretch mem₃ i j = stretch mq.mem i j := by
    intro i j hij
    rw [hother₃ i j (by omega), hother₂ i j (by omega), hother₁ i j (by omega)]
  have hlen : mem₃.length = mq.mem.length := by rw [hlen₃, hlen₂, hlen₁]
  have hbytes : (stretch mq.mem mq.curr n).length = n := length_stretch (by omega)
  have hnew := Records.new
    (length_stretch (show tail + sizeofQueuedMessage ≤ mq.mem.length by omega))
    (show mq.memStart + mq.curr < 256 ^ 8 by omega)
    (show (stretch mq.mem mq.curr n).length < 256 ^ 8 by omega)
  rw [hbytes, ← hself₁, ← hself₂, ← hself₃] at hnew
  let r := stretch mq.mem tail sizeofQueuedMessage
  refine ⟨⟨mq.memStart, mem₃, mq.curr + n, mqttMqCurrsz (mq.curr + n) tail, tail⟩,
    ⟨stretch mq.mem mq.curr n, .unsent, member r .timeSent, member r .controlType,
      member r .packetId⟩, ?_, hlen, rfl, rfl, by dsimp only; rw [hlen]; exact hfits, ?_,
    by dsimp only; omega, ?_, rfl, ?_, fun k w hw => ?_⟩
  · rw [mqttMqRegister, if_neg (by omega)]
    simp only [bind, Except.bind, pure, Except.pure]
    rw [hstore₁]
    dsimp only
    rw [hstore₂]
    dsimp only
    rw [hstore₃]
  · rw [packets_append, packets_cons, packets_nil, List.append_nil, List.length_append, hbytes,
      ← h.curr]
  · rw [List.length_append, List.length_singleton, hlen]
    dsimp only
    rw [Nat.mul_add]
    omega
  · dsimp only
    rw [stretch_add, Nat.zero_add, hother 0 mq.curr (by omega), hother mq.curr n (by omega),
      h.bytes, packets_append, packets_cons, packets_nil, List.append_nil]
  · dsimp only
    rw [mqttMqGet, hlen, ← mqttMqGet]
    rcases lt_or_ge k msgs.length with hk | hk
    · rw [List.getElem?_append_left hk] at hw
      have hget := h.get_add hk
      have hle := h.get_le hk
      rw [List.take_append_of_le_length hk.le, hother _ _ (by omega)]
      exact h.records k w hw
    · obtain rfl : k = msgs.length := by
        have := (List.getElem?_eq_some_iff.mp hw).1
        rw [List.length_append, List.length_singleton] at this
        omega
      have hget : mqttMqGet mq.mem msgs.length = tail := by
        rw [mqttMqGet, Nat.mul_add]
        omega
      rw [List.getElem?_append_right le_rfl, Nat.sub_self, List.getElem?_cons_zero] at hw
      rw [hget, List.take_left' rfl, ← h.curr, ← Option.some.inj hw]
      exact hnew

/-- A message with another one of its length in its place. -/
lemma length_packets_take_set (hm : msgs[k]? = some m) (hlen : m'.bytes.length = m.bytes.length)
    (j : ℕ) : (packets ((msgs.set k m').take j)).length = (packets (msgs.take j)).length := by
  have hk := (List.getElem?_eq_some_iff.mp hm).1
  have hmap : (msgs.set k m').map (fun w => w.bytes.length) =
      msgs.map fun w => w.bytes.length := by
    have hlt : k < (msgs.map fun w => w.bytes.length).length := by rwa [List.length_map]
    have hself : (msgs.map fun w => w.bytes.length)[k] = m.bytes.length := by
      rw [List.getElem_map, (List.getElem?_eq_some_iff.mp hm).2]
    rw [List.map_set, hlen, ← hself, List.set_getElem_self]
  rw [packets, packets, List.length_flatMap, List.length_flatMap, List.map_take, List.map_take,
    hmap]

/-- **A packet is marked as sent before.** -/
theorem setDup (h : Stored mq msgs) {b : UInt8} {bs : Str} (hm : msgs[k]? = some m)
    (hb : m.bytes = b :: bs) :
    ∃ mq', mqttSetDup mq (mqttMqGet mq.mem k) = .ok mq' ∧ mq'.mem.length = mq.mem.length ∧
      Stored mq' (msgs.set k { m with bytes := (b ||| 8) :: bs }) := by
  have hk := (List.getElem?_eq_some_iff.mp hm).1
  have hsplit : msgs = msgs.take k ++ m :: msgs.drop (k + 1) := by
    rw [← (List.getElem?_eq_some_iff.mp hm).2, ← List.drop_eq_getElem_cons hk,
      List.take_append_drop]
  let i := (packets (msgs.take k)).length
  have hle := h.packets_take_le hm
  have hroom := h.room
  have htail := h.tail
  have hi : i < mq.curr := by
    rw [hb, List.length_cons] at hle
    omega
  have hdata : packets msgs =
      packets (msgs.take k) ++ [b] ++ (bs ++ packets (msgs.drop (k + 1))) := by
    conv_lhs => rw [hsplit]
    simp [hb]
  have hfirst : mq.mem[i]? = some b := by
    have hcell : (stretch mq.mem 0 mq.curr)[i]? = mq.mem[0 + i]? := getElem?_stretch hi
    rw [h.bytes, hdata, List.append_assoc, List.getElem?_append_right le_rfl, Nat.sub_self,
      Nat.zero_add] at hcell
    exact hcell.symm
  have hmem : i + [b ||| 8].length ≤ mq.mem.length := by
    rw [List.length_singleton]
    omega
  have hlen := length_patch hmem
  refine ⟨{ mq with mem := patch mq.mem i [b ||| 8] }, ?_, hlen, ?_⟩
  · rw [mqttSetDup, loadMember_eq _ (h.get_le hk), (h.records k m hm).member_eq]
    simp only [bind, Except.bind, pure, Except.pure]
    rw [QueuedMessage.value, Nat.add_sub_cancel_left, load_eq hfirst]
    dsimp only
    rw [store_patch (by omega)]
  · have hpackets := length_packets_take_set hm
      (show { m with bytes := (b ||| 8) :: bs }.bytes.length = m.bytes.length by rw [hb]; rfl)
    refine ⟨by dsimp only; rw [hlen]; exact h.fits, ?_, hroom,
      by dsimp only; rw [hlen, List.length_set]; exact htail, h.currSz, ?_, fun j w hw => ?_⟩
    · have hall := hpackets msgs.length
      rw [List.take_of_length_le (by rw [List.length_set]), List.take_length] at hall
      rw [hall, ← h.curr]
    · have hwithin : stretch (patch mq.mem (0 + i) [b ||| 8]) 0 mq.curr =
          patch (stretch mq.mem 0 mq.curr) i [b ||| 8] :=
        stretch_patch_within (by omega) (by rw [List.length_singleton]; omega)
      rw [Nat.zero_add] at hwithin
      have hpatch : patch (packets (msgs.take k) ++ [b] ++ (bs ++ packets (msgs.drop (k + 1)))) i
          [b ||| 8] = packets (msgs.take k) ++ [b ||| 8] ++
            (bs ++ packets (msgs.drop (k + 1))) := patch_append rfl
      rw [hwithin, h.bytes, hdata, hpatch, List.set_eq_take_append_cons_drop, if_pos hk]
      simp
    · have hj : j < msgs.length := by
        have := (List.getElem?_eq_some_iff.mp hw).1
        rwa [List.length_set] at this
      have hget := h.get_add hj
      rw [hpackets, mqttMqGet, hlen, ← mqttMqGet,
        stretch_patch_behind hmem (by rw [List.length_singleton]; omega) (h.get_le hj)]
      rcases eq_or_ne k j with rfl | hne
      · rw [List.getElem?_set_self hk] at hw
        have hrec := h.records k m hm
        rw [← Option.some.inj hw]
        refine ⟨hrec.length, fun mb => (hrec.member_eq mb).trans ?_⟩
        cases mb <;> simp [QueuedMessage.value, hb]
      · rw [List.getElem?_set_ne hne] at hw
        exact h.records j w hw

/-! ### The loops over the queue -/

/-- A member of a message is read. -/
lemma load_member (h : Stored mq msgs) (hm : msgs[k]? = some m) (mb : Member) :
    loadMember mq.mem (mqttMqGet mq.mem k) mb =
      .ok (m.value (mq.memStart + (packets (msgs.take k)).length) mb) := by
  rw [loadMember_eq _ (h.get_le (List.getElem?_eq_some_iff.mp hm).1), (h.records k m hm).member_eq]

lemma load_state (h : Stored mq msgs) (hm : msgs[k]? = some m) :
    loadMember mq.mem (mqttMqGet mq.mem k) .state = .ok m.state.toNat :=
  h.load_member hm .state

lemma load_controlType (h : Stored mq msgs) (hm : msgs[k]? = some m) :
    loadMember mq.mem (mqttMqGet mq.mem k) .controlType = .ok m.controlType :=
  h.load_member hm .controlType

lemma load_packetId (h : Stored mq msgs) (hm : msgs[k]? = some m) :
    loadMember mq.mem (mqttMqGet mq.mem k) .packetId = .ok m.packetId :=
  h.load_member hm .packetId

/-- **The first message that is not complete.** -/
lemma newHead (h : Stored mq msgs) (fuel index : ℕ) (hindex : index ≤ msgs.length)
    (hfuel : msgs.length < index + fuel) :
    mqttMqNewHead mq fuel index =
      .ok (index + ((msgs.drop index).takeWhile QueuedMessage.isComplete).length) := by
  induction fuel generalizing index with
  | zero => omega
  | succ fuel ih =>
      rw [mqttMqNewHead]
      by_cases hk : index < msgs.length
      · have hm : msgs[index]? = some msgs[index] := List.getElem?_eq_getElem hk
        rw [if_pos (h.inQueue_iff.mpr hk), h.load_state hm, List.drop_eq_getElem_cons hk,
          List.takeWhile_cons]
        simp only [bind, Except.bind]
        by_cases hc : msgs[index].isComplete
        · rw [if_pos hc, if_neg (by rw [QueuedMessage.isComplete_iff.mp hc]; simp),
            ih (index + 1) hk (by omega), List.length_cons]
          congr 1
          omega
        · rw [if_neg hc, if_pos fun heq =>
            hc (QueuedMessage.isComplete_iff.mpr (QueuedState.toNat_injective heq))]
          rfl
      · rw [if_neg (fun hle => hk (h.inQueue_iff.mp hle)), List.drop_of_length_le (by omega)]
        rfl

/-- **A message is looked for**: the first of its kind with the id, or the first that is not
complete. -/
theorem find (h : Stored mq msgs) (controlType : ℕ) (packetId : Option ℕ) :
    mqttMqFind mq controlType packetId =
      .ok (msgs.findIdx? (QueuedMessage.matches controlType packetId)) := by
  have hfrom : ∀ fuel index, index ≤ msgs.length → msgs.length < index + fuel →
      mqttMqFindFrom mq controlType packetId fuel index =
        .ok (((msgs.drop index).findIdx? (QueuedMessage.matches controlType packetId)).map
          (index + ·)) := by
    intro fuel
    induction fuel with
    | zero => exact fun index hle hlt => absurd hle (by omega)
    | succ fuel ih =>
        intro index hindex hfuel
        rw [mqttMqFindFrom]
        by_cases hk : index < msgs.length
        · have hm : msgs[index]? = some msgs[index] := List.getElem?_eq_getElem hk
          dsimp only
          rw [if_pos (h.inQueue_iff.mpr hk), h.load_state hm, h.load_controlType hm,
            h.load_packetId hm, List.drop_eq_getElem_cons hk, List.findIdx?_cons]
          simp only [bind, Except.bind]
          by_cases hc : QueuedMessage.matches controlType packetId msgs[index]
          · rw [if_pos hc, if_pos ((matches_iff _).mp hc)]
            rfl
          · rw [if_neg hc, if_neg (fun hm => hc ((matches_iff _).mpr hm)),
              ih (index + 1) hk (by omega), Option.map_map]
            congr 2
            funext i
            exact (Nat.add_assoc index 1 i).trans (congrArg _ (Nat.add_comm 1 i))
        · rw [if_neg (fun hle => hk (h.inQueue_iff.mp hle)), List.drop_of_length_le (by omega)]
          rfl
  have htail := h.tail
  rw [mqttMqFind, hfrom _ 0 (Nat.zero_le _) (by simp only [sizeofQueuedMessage] at htail; omega),
    List.drop_zero]
  simp

/-- **The starts are moved back**, one record after another. -/
lemma bump (removing count index : ℕ) (mem : List UInt8)
    (hlen : sizeofQueuedMessage * (index + count) ≤ mem.length) :
    ∃ mem', mqttMqBump removing count index mem = .ok mem' ∧ mem'.length = mem.length ∧
      (∀ i, index ≤ i → i < index + count →
        stretch mem' (mqttMqGet mem i) sizeofQueuedMessage =
          setMember (stretch mem (mqttMqGet mem i) sizeofQueuedMessage) .start
            (member (stretch mem (mqttMqGet mem i) sizeofQueuedMessage) .start - removing)) ∧
      ∀ i n, i + n + sizeofQueuedMessage * (index + count) ≤ mem.length ∨
          mem.length ≤ i + sizeofQueuedMessage * index ∧ i + n ≤ mem.length →
        stretch mem' i n = stretch mem i n := by
  induction count generalizing index mem with
  | zero => exact ⟨mem, rfl, rfl, fun i hi hlt => absurd hlt (by omega), fun _ _ _ => rfl⟩
  | succ count ih =>
      simp only [sizeofQueuedMessage] at hlen
      have hget : mqttMqGet mem index + 40 * (index + 1) = mem.length := by
        rw [mqttMqGet, sizeofQueuedMessage]
        omega
      have hin : mqttMqGet mem index + sizeofQueuedMessage ≤ mem.length := by
        rw [sizeofQueuedMessage]
        omega
      obtain ⟨mem₁, hstore, hlen₁, hself, hother⟩ := storeMember_eq .start
        (member (stretch mem (mqttMqGet mem index) sizeofQueuedMessage) .start - removing) hin
      obtain ⟨mem', hrun, hlen', hbumped, hrest⟩ := ih (index + 1) mem₁
        (by rw [hlen₁, sizeofQueuedMessage]; omega)
      refine ⟨mem', ?_, hlen'.trans hlen₁, fun i hi hlt => ?_, fun i n hin => ?_⟩
      · rw [mqttMqBump, loadMember_eq _ hin]
        simp only [bind, Except.bind]
        rw [hstore]
        exact hrun
      · have hgeti : mqttMqGet mem i + 40 * (i + 1) = mem.length := by
          rw [mqttMqGet, sizeofQueuedMessage]
          omega
        have hsame : mqttMqGet mem₁ i = mqttMqGet mem i := by rw [mqttMqGet, hlen₁, ← mqttMqGet]
        rcases hi.lt_or_eq with hgt | rfl
        · have hi' := hbumped i hgt (by omega)
          rw [hsame, hother _ _ (by simp only [sizeofQueuedMessage]; omega)] at hi'
          exact hi'
        · rw [hrest _ _ (by simp only [sizeofQueuedMessage]; omega), hself]
      · simp only [sizeofQueuedMessage] at hin hrest hother
        rw [hrest i n (by omega), hother i n (by omega)]

/-- The packets behind some messages. -/
lemma length_packets_take_drop (msgs : List QueuedMessage) (i k : ℕ) :
    (packets (msgs.take (i + k))).length =
      (packets (msgs.take i)).length + (packets ((msgs.drop i).take k)).length := by
  rw [List.take_add, packets_append, List.length_append]

/-- The course of a call that moves messages. -/
lemma clean_moves {start newHead : ℕ} {buffered queue mem₁ mem₂ mem₃ : List UInt8}
    (hhead : mqttMqNewHead mq (mq.mem.length + 1) 0 = .ok newHead) (hpos : newHead ≠ 0)
    (hin : mq.queueTail + sizeofQueuedMessage * (newHead + 1) ≤ mq.mem.length)
    (hstart : loadMember mq.mem (mqttMqGet mq.mem newHead) .start = .ok start)
    (hbuffered : loadAll Fault.crash mq.mem (start - mq.memStart)
      (mq.memStart + mq.curr - start) = .ok buffered)
    (hmem₁ : storeAll Fault.crash mq.mem 0 buffered = .ok mem₁) {newTailIdx : ℕ}
    (hidx : (mqttMqGet mem₁ newHead - mq.queueTail) / sizeofQueuedMessage = newTailIdx)
    (hqueue : loadAll Fault.crash mem₁ mq.queueTail (sizeofQueuedMessage * (newTailIdx + 1)) =
      .ok queue)
    (hmem₂ : storeAll Fault.crash mem₁ (mqttMqGet mem₁ newTailIdx) queue = .ok mem₂)
    (hmem₃ : mqttMqBump (start - mq.memStart) (newTailIdx + 1) 0 mem₂ = .ok mem₃) :
    mqttMqClean mq =
      .ok ⟨mq.memStart, mem₃, mq.memStart + mq.curr - start,
        mqttMqCurrsz (mq.memStart + mq.curr - start) (mqttMqGet mem₂ newTailIdx),
        mqttMqGet mem₂ newTailIdx⟩ := by
  rw [mqttMqClean, hhead]
  simp only [bind, Except.bind]
  rw [if_neg (by omega), if_neg hpos, hstart]
  dsimp only
  rw [hbuffered]
  dsimp only
  rw [hmem₁]
  dsimp only
  rw [hidx, hqueue]
  dsimp only
  rw [hmem₂]
  dsimp only
  rw [hmem₃]
  rfl

/-- The packets behind some messages, in the memory. -/
lemma bytes_drop (h : Stored mq msgs) (i : ℕ) :
    stretch mq.mem (packets (msgs.take i)).length (mq.curr - (packets (msgs.take i)).length) =
      packets (msgs.drop i) := by
  have hsplit : packets msgs = packets (msgs.take i) ++ packets (msgs.drop i) := by
    rw [← packets_append, List.take_append_drop]
  have hlen := congrArg List.length hsplit
  rw [List.length_append] at hlen
  have hcurr := h.curr
  have hinner : stretch (stretch mq.mem 0 mq.curr) (packets (msgs.take i)).length
      (mq.curr - (packets (msgs.take i)).length) = stretch mq.mem
        (0 + (packets (msgs.take i)).length) (mq.curr - (packets (msgs.take i)).length) :=
    stretch_stretch (by omega)
  rw [h.bytes, Nat.zero_add, hsplit, stretch, List.drop_left] at hinner
  rw [← hinner]
  exact List.take_of_length_le (by omega)

/-- Messages in front are removed: the packets behind them and their records are moved. -/
lemma moved (h : Stored mq msgs) {newHead : ℕ}
    (hhead : mqttMqNewHead mq (mq.mem.length + 1) 0 = .ok newHead) (hpos : 0 < newHead)
    (hall : newHead < msgs.length) :
    ∃ mq', mqttMqClean mq = .ok mq' ∧ mq'.mem.length = mq.mem.length ∧
      Stored mq' (msgs.drop newHead) := by
  have hfits := h.fits
  have hroom := h.room
  have htail := h.tail
  have hin := (h.get_add hall).1
  have hm : msgs[newHead]? = some msgs[newHead] := List.getElem?_eq_getElem hall
  have hoff := h.packets_take_le hm
  obtain ⟨off, hoffset⟩ : ∃ off, (packets (msgs.take newHead)).length = off := ⟨_, rfl⟩
  obtain ⟨idx, hidx⟩ : ∃ idx, msgs.length = newHead + idx + 1 := Nat.exists_eq_add_of_lt hall
  obtain ⟨mem, hmem⟩ : ∃ mem, mq.mem = mem := ⟨_, rfl⟩
  rw [hoffset] at hoff
  rw [hmem] at hfits htail hin
  simp only [sizeofQueuedMessage] at htail hin
  -- the packets
  have hbuffered : (stretch mem off (mq.curr - off)).length = mq.curr - off :=
    length_stretch (by omega)
  have hle₁ : 0 + (stretch mem off (mq.curr - off)).length ≤ mem.length := by omega
  obtain ⟨mem₁, hmem₁⟩ : ∃ mem₁, patch mem 0 (stretch mem off (mq.curr - off)) = mem₁ := ⟨_, rfl⟩
  have hlen₁ : mem₁.length = mem.length := by rw [← hmem₁, length_patch hle₁]
  -- the records
  have hget : mqttMqGet mem₁ idx + 40 * (idx + 1) = mem.length := by
    rw [mqttMqGet, hlen₁, sizeofQueuedMessage]
    omega
  have hqueue : (stretch mem₁ mq.queueTail (40 * (idx + 1))).length = 40 * (idx + 1) :=
    length_stretch (by omega)
  have hle₂ : mqttMqGet mem₁ idx + (stretch mem₁ mq.queueTail (40 * (idx + 1))).length ≤
      mem₁.length := by omega
  obtain ⟨mem₂, hmem₂⟩ : ∃ mem₂, patch mem₁ (mqttMqGet mem₁ idx)
    (stretch mem₁ mq.queueTail (40 * (idx + 1))) = mem₂ := ⟨_, rfl⟩
  have hlen₂ : mem₂.length = mem.length := by rw [← hmem₂, length_patch hle₂, hlen₁]
  obtain ⟨mem₃, hbump, hlen₃, hbumped, hrest⟩ := bump off (idx + 1) 0 mem₂
    (by rw [hlen₂, sizeofQueuedMessage]; omega)
  have hget₂ : mqttMqGet mem₂ idx = mqttMqGet mem₁ idx := by
    rw [mqttMqGet, hlen₂, ← hlen₁, ← mqttMqGet]
  have hstart : loadMember mem (mqttMqGet mem newHead) .start = .ok (mq.memStart + off) := by
    rw [← hmem, h.load_member hm .start, ← hoffset]
    rfl
  have hsub : mq.memStart + mq.curr - (mq.memStart + off) = mq.curr - off := by omega
  have hsub' : mq.memStart + off - mq.memStart = off := by omega
  have hload₁ : loadAll Fault.crash mq.mem (mq.memStart + off - mq.memStart)
      (mq.memStart + mq.curr - (mq.memStart + off)) = .ok (stretch mem off (mq.curr - off)) := by
    rw [hmem, hsub, hsub', loadAll_eq (by omega)]
  have hstore₁ : storeAll Fault.crash mq.mem 0 (stretch mem off (mq.curr - off)) = .ok mem₁ := by
    rw [hmem, storeAll_patch hle₁, hmem₁]
  have hnewTail : (mqttMqGet mem₁ newHead - mq.queueTail) / sizeofQueuedMessage = idx := by
    rw [mqttMqGet, hlen₁, sizeofQueuedMessage]
    omega
  have hload₂ : loadAll Fault.crash mem₁ mq.queueTail (sizeofQueuedMessage * (idx + 1)) =
      .ok (stretch mem₁ mq.queueTail (40 * (idx + 1))) :=
    loadAll_eq (by rw [sizeofQueuedMessage]; omega)
  have hstore₂ : storeAll Fault.crash mem₁ (mqttMqGet mem₁ idx)
      (stretch mem₁ mq.queueTail (40 * (idx + 1))) = .ok mem₂ := by
    rw [storeAll_patch hle₂, hmem₂]
  have hrun := clean_moves hhead hpos.ne' (h.inQueue_iff.mpr hall) (by rw [hmem]; exact hstart)
    hload₁ hstore₁ hnewTail hload₂ hstore₂ (by rw [hsub']; exact hbump)
  rw [hsub, hget₂] at hrun
  refine ⟨_, hrun, by rw [hmem]; exact hlen₃.trans hlen₂, ?_⟩
  have hparts : (packets msgs).length = off + (packets (msgs.drop newHead)).length := by
    conv_lhs => rw [← List.take_append_drop newHead msgs]
    rw [packets_append, List.length_append, hoffset]
  have hcurr := h.curr
  refine ⟨by dsimp only; rw [hlen₃, hlen₂]; exact hfits, by dsimp only; omega,
    by dsimp only; omega, ?_, rfl, ?_, fun k m hk => ?_⟩
  · rw [List.length_drop]
    simp only [sizeofQueuedMessage]
    omega
  · have hbytes := h.bytes_drop newHead
    rw [hoffset, hmem] at hbytes
    have hself := stretch_patch_self hle₁
    rw [hbuffered, hmem₁] at hself
    dsimp only
    rw [hrest _ _ (.inl (by rw [sizeofQueuedMessage]; omega)), ← hmem₂,
      stretch_patch_before hle₂ (by omega), hself, hbytes]
  · rw [List.getElem?_drop] at hk
    have hlt := (List.getElem?_eq_some_iff.mp hk).1
    have hrec := h.records _ _ hk
    have hgetk : mqttMqGet mem₂ k = mqttMqGet mem₁ idx + 40 * (idx - k) := by
      rw [mqttMqGet, hlen₂, sizeofQueuedMessage]
      omega
    have hgetk' : mqttMqGet mem (newHead + k) = mq.queueTail + 40 * (idx - k) := by
      rw [mqttMqGet, sizeofQueuedMessage]
      omega
    have hsame : stretch mem₂ (mqttMqGet mem₂ k) sizeofQueuedMessage =
        stretch mem (mqttMqGet mem (newHead + k)) sizeofQueuedMessage := by
      rw [hgetk, hgetk', sizeofQueuedMessage, ← hmem₂,
        stretch_patch_inside hle₂ (by omega), stretch_stretch (by omega), ← hmem₁,
        stretch_patch_behind hle₁ (by omega) (by omega)]
    have hthere : mqttMqGet mem₃ k = mqttMqGet mem₂ k := by rw [mqttMqGet, hlen₃, ← mqttMqGet]
    rw [hmem] at hrec
    dsimp only
    rw [hthere, hbumped k (Nat.zero_le _) (by omega), hsame]
    have hlen := length_packets_take_drop msgs newHead k
    rw [hrec.member_eq, QueuedMessage.value]
    refine hrec.set .start ?_ ?_ fun mb hmb => ?_
    · have hle := h.packets_take_le hk
      exact lt_of_le_of_lt (by omega) hfits
    · rw [QueuedMessage.value]
      omega
    · cases mb <;> first | exact absurd rfl hmb | rfl

/-- **The queue is cleaned**: the messages in front that are complete are gone, the others are
where they belong. -/
theorem clean (h : Stored mq msgs) :
    ∃ mq', mqttMqClean mq = .ok mq' ∧ mq'.mem.length = mq.mem.length ∧
      Stored mq' (msgs.dropWhile QueuedMessage.isComplete) := by
  have htail := h.tail
  have hroom := h.room
  have hfits := h.fits
  let newHead := (msgs.takeWhile QueuedMessage.isComplete).length
  have hhead : mqttMqNewHead mq (mq.mem.length + 1) 0 = .ok newHead := by
    rw [h.newHead _ 0 (Nat.zero_le _) (by simp only [sizeofQueuedMessage] at htail; omega),
      Nat.zero_add, List.drop_zero]
  have hdrop : msgs.dropWhile QueuedMessage.isComplete = msgs.drop newHead := by
    conv_rhs => rw [← List.takeWhile_append_dropWhile (p := QueuedMessage.isComplete) (l := msgs)]
    rw [List.drop_left]
  rw [hdrop]
  rcases lt_or_ge newHead msgs.length with hall | hall
  · rcases Nat.eq_zero_or_pos newHead with h0 | hpos
    · refine ⟨mq, ?_, rfl, by rw [h0]; exact h⟩
      rw [mqttMqClean, hhead]
      simp only [bind, Except.bind]
      rw [if_neg (by have := h.inQueue_iff.mpr hall; omega), if_pos h0]
      rfl
    · exact h.moved hhead hpos hall
  · refine ⟨⟨mq.memStart, mq.mem, 0, mqttMqCurrsz 0 mq.mem.length, mq.mem.length⟩, ?_, rfl, ?_⟩
    · rw [mqttMqClean, hhead]
      simp only [bind, Except.bind]
      rw [if_pos (by have := h.inQueue_iff.not.mpr hall.not_gt; omega)]
      rfl
    · rw [List.drop_of_length_le hall]
      exact ⟨hfits, rfl, Nat.zero_le _, rfl, rfl, rfl, fun k m hm => by simp at hm⟩

end Stored

end SipEcho
