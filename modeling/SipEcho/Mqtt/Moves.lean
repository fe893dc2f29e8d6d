import SipEcho.Lib.Ledger
import SipEcho.Mqtt.Client

/-!
What the calls of the client do to its queue and its log, in small steps.

* `QueuedMessage.lasting`: what of a message stays the same while it is in the queue;
* `SoundQueue`: what is true of the queue at any time, of each message and of each two of them;
* `ClientView.Moves`: **all that a call does**; `Moves.sound`: the queue stays sound.
-/

namespace SipEcho

open Lib Relation

/-! ### The messages -/

@[simp] lemma ControlType.ofNat?_toNat (t : ControlType) : ofNat? t.toNat = some t := by
  cases t <;> rfl

lemma ControlType.toNat_injective : Function.Injective toNat := by
  intro t t' h
  have h' := congrArg ofNat? h
  rwa [ofNat?_toNat, ofNat?_toNat, Option.some_inj] at h'

lemma ControlType.ofNat?_eq {t : ControlType} {n : ℕ} (h : ofNat? n = some t) : n = t.toNat := by
  unfold ofNat? at h
  split at h <;> cases h <;> rfl

/-- The types that `__mqtt_send` knows. -/
def ControlType.isSendable : ControlType → Bool
  | .connack | .suback | .unsuback | .pingresp => false
  | _ => true

/-- The types of the messages that are looked for by their ids. -/
def ControlType.isNumbered : ControlType → Bool
  | .publish | .pubrec | .pubrel | .subscribe | .unsubscribe => true
  | _ => false

namespace QueuedMessage

/-- The message is of a type. -/
def Is (t : ControlType) (m : QueuedMessage) : Prop := m.controlType = t.toNat

instance {t : ControlType} {m : QueuedMessage} : Decidable (m.Is t) :=
  inferInstanceAs (Decidable (_ = _))

lemma Is.unique {t t' : ControlType} {m : QueuedMessage} (h : m.Is t) (h' : m.Is t') : t = t' :=
  ControlType.toNat_injective (h.symm.trans h')

/-- The message stays in the queue, after it has been sent, until it is acknowledged. -/
def needsAck (m : QueuedMessage) : Bool :=
  match ControlType.ofNat? m.controlType with
  | some .puback | some .pubcomp | some .disconnect => false
  | some .publish => packetQos m.bytes ≠ 0
  | _ => true

/-- A PUBLISH message at quality of service 2. -/
def IsQos2 (m : QueuedMessage) : Prop := m.Is .publish ∧ packetQos m.bytes = 2

/-- **What of a message stays the same while it is in the queue**: all but its state, its time and
the flag for another try. -/
def lasting (m : QueuedMessage) : QueuedMessage where
  bytes := if m.controlType = ControlType.publish.toNat then dupBytes m.bytes else m.bytes
  state := .unsent
  timeSent := 0
  controlType := m.controlType
  packetId := m.packetId

end QueuedMessage

lemma packetQos_dupBytes (bytes : Str) : packetQos (dupBytes bytes) = packetQos bytes := by
  cases bytes with
  | nil => rfl
  | cons b bs =>
      rw [dupBytes, packetQos, packetQos, List.headD_cons, List.headD_cons, UInt8.toNat_or,
        Nat.shiftRight_or_distrib, Nat.and_or_distrib_left]
      exact Nat.or_zero _

lemma dupBytes_dupBytes (bytes : Str) : dupBytes (dupBytes bytes) = dupBytes bytes := by
  cases bytes with
  | nil => rfl
  | cons b bs => rw [dupBytes, dupBytes, UInt8.or_assoc, UInt8.or_self]

namespace QueuedMessage

variable {m m' : QueuedMessage} {t : ControlType}

@[simp] lemma lasting_controlType : m.lasting.controlType = m.controlType := rfl

@[simp] lemma lasting_packetId : m.lasting.packetId = m.packetId := rfl

lemma lasting_qos : packetQos m.lasting.bytes = packetQos m.bytes := by
  rw [lasting]
  split_ifs
  · exact packetQos_dupBytes m.bytes
  · rfl

lemma needsAck_lasting : m.lasting.needsAck = m.needsAck := by
  rw [needsAck, needsAck, lasting_qos, lasting_controlType]

lemma isQos2_lasting : m.lasting.IsQos2 ↔ m.IsQos2 := by
  rw [IsQos2, IsQos2, lasting_qos, Is, Is, lasting_controlType]

lemma controlType_of_lasting (h : m'.lasting = m.lasting) : m'.controlType = m.controlType := by
  rw [← lasting_controlType, h, lasting_controlType]

lemma packetId_of_lasting (h : m'.lasting = m.lasting) : m'.packetId = m.packetId := by
  rw [← lasting_packetId, h, lasting_packetId]

lemma qos2_iff : m.qos2 = true ↔ m.IsQos2 ∧ m.isComplete = false := by
  rw [qos2, decide_eq_true_iff, IsQos2, Is, isComplete, decide_eq_false_iff_not]
  tauto

lemma IsQos2.needsAck (h : m.IsQos2) : m.needsAck = true := by
  obtain ⟨htype, hqos⟩ := h
  rw [QueuedMessage.needsAck, htype, ControlType.ofNat?_toNat]
  simp [hqos]

lemma lasting_dup (h : m.Is .publish) (s : QueuedState) :
    lasting { m with state := s, bytes := dupBytes m.bytes } = m.lasting := by
  have htype : m.controlType = ControlType.publish.toNat := h
  simp [lasting, htype, dupBytes_dupBytes]

/-- **What sending makes of a message.** -/
lemma afterSending_eq (h : m.afterSending = some m') :
    m'.lasting = m.lasting ∧
      m'.state = if m.needsAck then QueuedState.awaitingAck else .complete := by
  rw [afterSending] at h
  rw [needsAck]
  split at h <;> rename_i htype
  -- a PUBLISH message, by its quality of service
  case h_4 =>
    have hpublish : m.Is .publish := ControlType.ofNat?_eq htype
    rw [htype]
    split_ifs at h with h0 h1 <;> cases h
    · exact ⟨rfl, by simp [h0]⟩
    · exact ⟨lasting_dup hpublish _, by simp [h1]⟩
    · exact ⟨rfl, by simp [h0]⟩
  case h_11 => cases h
  all_goals
    cases h
    rw [htype]
    exact ⟨rfl, rfl⟩

lemma isSome_afterSending (h : m.Is t) (ht : t.isSendable = true) :
    m.afterSending.isSome = true := by
  rw [afterSending, h, ControlType.ofNat?_toNat]
  cases t with
  | publish =>
      dsimp only
      split_ifs <;> rfl
  | _ => first | rfl | cases ht

lemma is_of_lasting (h : m'.lasting = m.lasting) : m'.Is t ↔ m.Is t := by
  rw [Is, Is, controlType_of_lasting h]

lemma isQos2_of_lasting (h : m'.lasting = m.lasting) : m'.IsQos2 ↔ m.IsQos2 := by
  rw [← isQos2_lasting, h, isQos2_lasting]

lemma needsAck_of_lasting (h : m'.lasting = m.lasting) : m'.needsAck = m.needsAck := by
  rw [← needsAck_lasting, h, needsAck_lasting]

/-- The message can be sent, and waits for an acknowledgement only if it needs one. -/
structure Sound (m : QueuedMessage) : Prop where
  sendable : ∃ t : ControlType, m.Is t ∧ t.isSendable = true
  unawaited : m.state = .awaitingAck → m.needsAck = true

/-- **A message `w` that is queued behind `m`.** -/
structure Behind (m w : QueuedMessage) : Prop where
  numbered : ∀ t : ControlType, t.isNumbered = true → m.Is t → w.Is t → m.packetId ≠ w.packetId
  unreleased : m.Is .pubrel → w.Is .publish → m.packetId ≠ w.packetId
  acknowledged : m.Is .publish → w.Is .pubrel → m.packetId = w.packetId → m.isComplete = true
  waits : m.qos2 = true → w.IsQos2 → w.state ≠ .awaitingAck

variable {w : QueuedMessage}

lemma Behind.left (h : Behind m w) (hlasting : m'.lasting = m.lasting)
    (hcomplete : m.isComplete = true → m'.isComplete = true) : Behind m' w where
  numbered t ht hm hw := by
    rw [packetId_of_lasting hlasting]
    exact h.numbered t ht ((is_of_lasting hlasting).mp hm) hw
  unreleased hm hw := by
    rw [packetId_of_lasting hlasting]
    exact h.unreleased ((is_of_lasting hlasting).mp hm) hw
  acknowledged hm hw hid := by
    rw [packetId_of_lasting hlasting] at hid
    exact hcomplete (h.acknowledged ((is_of_lasting hlasting).mp hm) hw hid)
  waits hm hw := by
    obtain ⟨hqos, hopen⟩ := qos2_iff.mp hm
    have hopen' : m.isComplete = false := by
      by_contra hne
      rw [hcomplete (by simpa using hne)] at hopen
      cases hopen
    exact h.waits (qos2_iff.mpr ⟨(isQos2_of_lasting hlasting).mp hqos, hopen'⟩) hw

lemma Behind.right (h : Behind w m) (hlasting : m'.lasting = m.lasting)
    (hwaits : w.qos2 = true → m'.IsQos2 → m'.state ≠ .awaitingAck) : Behind w m' where
  numbered t ht hw hm := by
    rw [packetId_of_lasting hlasting]
    exact h.numbered t ht hw ((is_of_lasting hlasting).mp hm)
  unreleased hw hm := by
    rw [packetId_of_lasting hlasting]
    exact h.unreleased hw ((is_of_lasting hlasting).mp hm)
  acknowledged hw hm hid := by
    rw [packetId_of_lasting hlasting] at hid
    exact h.acknowledged hw ((is_of_lasting hlasting).mp hm) hid
  waits := hwaits

end QueuedMessage

/-! ### What is true of the queue -/

/-- **What is true of the queue at any time.** -/
structure SoundQueue (mq : List QueuedMessage) : Prop where
  each : ∀ m ∈ mq, m.Sound
  two : mq.Pairwise QueuedMessage.Behind

/-- The message may be queued. -/
structure MayQueue (mq : List QueuedMessage) (m : QueuedMessage) : Prop where
  unsent : m.state = .unsent
  sound : m.Sound
  behind : ∀ w ∈ mq, w.Behind m

section SoundQueue

variable {mq mq' l₁ l₂ : List QueuedMessage} {m m' : QueuedMessage}

lemma MayQueue.sublist (h : MayQueue mq m) (hsub : mq'.Sublist mq) : MayQueue mq' m :=
  ⟨h.unsent, h.sound, fun w hw => h.behind w (hsub.subset hw)⟩

/-- A message of a type may be queued. -/
lemma mayQueue_of_type {t : ControlType} (hstate : m.state = .unsent) (htype : m.Is t)
    (ht : t.isSendable = true)
    (hid : t.isNumbered = true → ∀ w ∈ mq, w.Is t → w.packetId ≠ m.packetId)
    (hpublish : t = .publish → ∀ w ∈ mq, w.Is .pubrel → w.packetId ≠ m.packetId)
    (hpubrel : t = .pubrel → ∀ w ∈ mq, w.Is .publish → w.packetId = m.packetId →
      w.isComplete = true) : MayQueue mq m where
  unsent := hstate
  sound := ⟨⟨t, htype, ht⟩, fun h => by
    rw [hstate] at h
    cases h⟩
  behind w hw :=
    { numbered := fun t' ht' hwt hmt => by
        obtain rfl := hmt.unique htype
        exact hid ht' w hw hwt
      unreleased := fun hwt hmt => hpublish (htype.unique hmt) w hw hwt
      acknowledged := fun hwt hmt => hpubrel (htype.unique hmt) w hw hwt
      waits := fun _ _ h => by
        rw [hstate] at h
        cases h }

/-- A message with a new id may be queued. -/
lemma mayQueue_of_new {t : ControlType} (hstate : m.state = .unsent) (htype : m.Is t)
    (ht : t.isSendable = true) (hrel : t ≠ .pubrel)
    (hnew : m.packetId ∉ mq.map QueuedMessage.packetId) : MayQueue mq m := by
  have hne : ∀ w ∈ mq, w.packetId ≠ m.packetId := fun w hw hid =>
    hnew (List.mem_map.mpr ⟨w, hw, hid⟩)
  exact mayQueue_of_type hstate htype ht (fun _ w hw _ => hne w hw) (fun _ w hw _ => hne w hw)
    fun h => absurd h hrel

/-- A message that is not looked for by its id may be queued. -/
lemma mayQueue_of_plain {t : ControlType} (hstate : m.state = .unsent) (htype : m.Is t)
    (ht : t.isSendable = true) (hplain : t.isNumbered = false) : MayQueue mq m := by
  refine mayQueue_of_type hstate htype ht (fun h => ?_) (fun h => ?_) fun h => ?_
  · rw [hplain] at h
    cases h
  all_goals
    rw [h] at hplain
    cases hplain

lemma SoundQueue.nil : SoundQueue [] := ⟨by simp, .nil⟩

lemma SoundQueue.append (h : SoundQueue mq) (hm : MayQueue mq m) : SoundQueue (mq ++ [m]) where
  each w hw := by
    rcases List.mem_append.mp hw with hw | hw
    · exact h.each w hw
    · rw [List.mem_singleton.mp hw]
      exact hm.sound
  two := List.pairwise_append.mpr ⟨h.two, List.pairwise_singleton .., fun w hw x hx => by
    rw [List.mem_singleton.mp hx]
    exact hm.behind w hw⟩

lemma SoundQueue.sublist (h : SoundQueue mq) (hsub : mq'.Sublist mq) : SoundQueue mq' :=
  ⟨fun m hm => h.each m (hsub.subset hm), h.two.sublist hsub⟩

/-- A message changes where it stands. -/
lemma SoundQueue.replace (h : SoundQueue (l₁ ++ m :: l₂)) (hlasting : m'.lasting = m.lasting)
    (hawaits : m'.state = .awaitingAck → m'.needsAck = true)
    (hcomplete : m.isComplete = true → m'.isComplete = true)
    (hwaits : ∀ w ∈ l₁, w.qos2 = true → m'.IsQos2 → m'.state ≠ .awaitingAck) :
    SoundQueue (l₁ ++ m' :: l₂) where
  each w hw := by
    rcases List.mem_append.mp hw with hw | hw
    · exact h.each w (List.mem_append_left _ hw)
    · rcases List.mem_cons.mp hw with rfl | hw
      · obtain ⟨t, htype, ht⟩ := (h.each m (by simp)).sendable
        exact ⟨⟨t, (QueuedMessage.is_of_lasting hlasting).mpr htype, ht⟩, hawaits⟩
      · exact h.each w (List.mem_append_right _ (List.mem_cons_of_mem _ hw))
  two := pairwise_replace h.two (fun w hw hm => hm.right hlasting (hwaits w hw))
    fun w _ hm => hm.left hlasting hcomplete

end SoundQueue

/-! ### The small steps -/

/-- What a packet of the broker acknowledges: the kind of message, and its id if it has one. -/
def Response.acks (r : Response) : Option (ControlType × Option ℕ) :=
  match r.fixedHeader.controlType, r.decoded with
  | .connack, .connack .. => some (.connect, none)
  | .puback, .pubxxx packetId => some (.publish, some packetId)
  | .pubrec, .pubxxx packetId => some (.publish, some packetId)
  | .pubrel, .pubxxx packetId => some (.pubrec, some packetId)
  | .pubcomp, .pubxxx packetId => some (.pubrel, some packetId)
  | .suback, .suback packetId _ => some (.subscribe, some packetId)
  | .unsuback, .unsuback packetId => some (.unsubscribe, some packetId)
  | .pingresp, _ => some (.pingreq, none)
  | _, _ => none

/-- The message is acknowledged by the packet. -/
def Response.Acks (r : Response) (m : QueuedMessage) : Prop :=
  ∃ t packetId, r.acks = some (t, packetId) ∧ m.matches t.toNat packetId = true

lemma matches_some {t : ControlType} {packetId : ℕ} {m : QueuedMessage} :
    m.matches t.toNat (some packetId) = true ↔ m.Is t ∧ m.packetId = packetId := by
  rw [QueuedMessage.matches, decide_eq_true_iff, QueuedMessage.Is]
  simp [eq_comm]

lemma acks_iff {r : Response} {t : ControlType} {packetId : Option ℕ} {m : QueuedMessage}
    (h : r.acks = some (t, packetId)) : r.Acks m ↔ m.matches t.toNat packetId = true := by
  constructor
  · rintro ⟨t', packetId', h', hm⟩
    rw [h, Option.some_inj, Prod.mk.injEq] at h'
    obtain ⟨rfl, rfl⟩ := h'
    exact hm
  · exact fun hm => ⟨t, packetId, h, hm⟩

/-- What of a client its promises are about. -/
structure ClientView where
  mq : List QueuedMessage
  log : List ClientEvent
  sendOffset : ℕ
  numberOfTimeouts : ℕ
  mqSize : ℕ

/-- What of the client its promises are about. -/
def Client.view (c : Client) : ClientView :=
  ⟨c.mq, c.log, c.sendOffset, c.numberOfTimeouts, c.mqSize⟩

/-- **The loop of `__mqtt_send` comes to a message that is to be sent.** -/
structure ClientView.Reaches (v : ClientView) (l₁ : List QueuedMessage) (m : QueuedMessage)
    (l₂ : List QueuedMessage) : Prop where
  split : v.mq = l₁ ++ m :: l₂
  due : m.state = .unsent ∨ m.state = .awaitingAck ∧ 0 < v.numberOfTimeouts
  served : ∀ w ∈ l₁, w.isComplete = true ∨ w.needsAck = true
  waiting : ∀ w ∈ l₁, w.state = .unsent → w.IsQos2
  single : m.IsQos2 → ∀ w ∈ l₁, w.qos2 = false

namespace ClientView

variable {P : QueuedMessage → Prop} {v v' : ClientView}

/-- There is room in the memory of the queue for the message, which is not empty. -/
def HasRoom (v : ClientView) (m : QueuedMessage) : Prop :=
  m.bytes ≠ [] ∧ m.bytes.length ≤ queueRoom v.mqSize v.mq

/-- **The small steps of the client**, where what is queued has a property. -/
inductive Moves (P : QueuedMessage → Prop) : ClientView → ClientView → Prop
  | queued {v : ClientView} {m : QueuedMessage} (hm : MayQueue v.mq m) (hP : P m)
      (hroom : v.HasRoom m) :
      Moves P v { v with mq := v.mq ++ [m], log := v.log ++ [.queued m] }
  | cleaned {v : ClientView} :
      Moves P v { v with mq := v.mq.dropWhile QueuedMessage.isComplete }
  | rewound {v : ClientView} :
      Moves P v { v with sendOffset := 0, numberOfTimeouts := v.numberOfTimeouts + 1 }
  | sent {v : ClientView} {l₁ l₂ : List QueuedMessage} {m : QueuedMessage} {n : ℕ}
      (h : v.Reaches l₁ m l₂) (hn : v.sendOffset + n < m.bytes.length) :
      Moves P v { v with
        sendOffset := v.sendOffset + n
        log := v.log ++ [.sent (stretch m.bytes v.sendOffset n)] }
  | sentWhole {v : ClientView} {l₁ l₂ : List QueuedMessage} {m m' : QueuedMessage} {n t : ℕ}
      (h : v.Reaches l₁ m l₂) (hn : v.sendOffset + n = m.bytes.length)
      (hm' : ({ m with timeSent := t } : QueuedMessage).afterSending = some m') :
      Moves P v { v with
        mq := l₁ ++ m' :: l₂
        sendOffset := 0
        log := v.log ++ [.sent (stretch m.bytes v.sendOffset n)] ++
          [.sentWhole { m with timeSent := t }] }
  | ignored {v : ClientView} {r : Response}
      (h : ∀ m ∈ v.mq, r.Acks m → m.isComplete = true) :
      Moves P v { v with log := v.log ++ [.received r] }
  | released {v : ClientView} {l₁ l₂ : List QueuedMessage} {m : QueuedMessage} {r : Response}
      (hmq : v.mq = l₁ ++ m :: l₂) (hm : r.Acks m) (hbefore : ∀ w ∈ l₁, ¬ r.Acks w) :
      Moves P v { v with
        mq := l₁ ++ { m with state := .complete } :: l₂
        log := v.log ++ [.received r] ++ [.released m] }
  | delivered {v : ClientView} {p : Publish} (hp : p.qosLevel ≠ 2) :
      Moves P v { v with log := v.log ++ [.delivered p] }
  | deliveredOnce {v : ClientView} {p : Publish} {m : QueuedMessage} (hm : MayQueue v.mq m)
      (hP : P m) (htype : m.Is .pubrec) (hid : m.packetId = p.packetId) (hroom : v.HasRoom m) :
      Moves P v { v with mq := v.mq ++ [m], log := v.log ++ [.queued m] ++ [.delivered p] }

lemma isOpen_of_due {m : QueuedMessage} {k : ℕ}
    (h : m.state = .unsent ∨ m.state = .awaitingAck ∧ 0 < k) : m.isComplete = false := by
  rw [QueuedMessage.isComplete, decide_eq_false_iff_not]
  rcases h with hstate | ⟨hstate, -⟩ <;> simp [hstate]

lemma Reaches.isOpen {l₁ l₂ : List QueuedMessage} {m : QueuedMessage} (h : v.Reaches l₁ m l₂) :
    m.isComplete = false :=
  isOpen_of_due h.due

/-- **The queue stays sound.** -/
lemma Moves.sound (h : Moves P v v') (hv : SoundQueue v.mq) : SoundQueue v'.mq := by
  cases h with
  | rewound | sent | ignored | delivered => exact hv
  | queued hm => exact hv.append hm
  | deliveredOnce hm => exact hv.append hm
  | cleaned => exact hv.sublist (List.dropWhile_sublist _)
  | sentWhole hreach _ hm' =>
      obtain ⟨hlasting, hstate⟩ := QueuedMessage.afterSending_eq hm'
      rw [hreach.split] at hv
      refine hv.replace hlasting (fun h => ?_) (fun h => ?_) fun w hw hw2 hqos => ?_
      · rw [QueuedMessage.needsAck_of_lasting hlasting]
        by_contra hne
        rw [hstate, if_neg hne] at h
        cases h
      · rw [hreach.isOpen] at h
        cases h
      · rw [hreach.single ((QueuedMessage.isQos2_of_lasting hlasting).mp hqos) w hw] at hw2
        cases hw2
  | released hmq =>
      rw [hmq] at hv
      exact hv.replace rfl (fun h => by cases h) (fun _ => rfl) fun _ _ _ _ h => by cases h

/-- A call is a sequence of small steps. -/
abbrev Evolves (P : QueuedMessage → Prop) : ClientView → ClientView → Prop :=
  ReflTransGen (Moves P)

lemma Evolves.sound (h : Evolves P v v') (hv : SoundQueue v.mq) : SoundQueue v'.mq := by
  induction h with
  | refl => exact hv
  | tail _ hmove ih => exact hmove.sound ih

end ClientView

end SipEcho
