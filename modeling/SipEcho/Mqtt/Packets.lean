import SipEcho.Lib.Cut
import SipEcho.Mqtt.Stream

/-!
What the client queues are control packets, and what it hands to the socket can be cut into them
again.

* `packetLength`: how long the packet at the front of a stream is, by its fixed header;
* `QueuedMessage.IsPacket`: the bytes of a message are one packet of its type;
* `packs_packing`: what the packers write is one, for strings that a packet can hold;
* `queued_packets`: **everything a run queues is a packet**, and the queued bytes are cut into them;
* `socket_packets`: **the socket is handed the packets in their order**: a reader that goes by the
  fixed headers takes them off the stream, none is lost, repeated or broken.
-/

namespace SipEcho

open Lib Relation

/-- The length of the packet at the front of a stream, if all of it is there. -/
def packetLength (s : Str) : Option ℕ :=
  match mqttUnpackFixedHeader s with
  | .packet h n => some (n + h.remainingLength)
  | _ => none

lemma packetLength_eq_some {s : Str} {l : ℕ} (h : packetLength s = some l) :
    ∃ header n, mqttUnpackFixedHeader s = .packet header n ∧ n + header.remainingLength = l := by
  rw [packetLength] at h
  split at h
  · rename_i header n hs
    exact ⟨header, n, hs, Option.some.inj h⟩
  · cases h

lemma packetLength_of_header {s : Str} {header : FixedHeader} {n : ℕ}
    (h : mqttUnpackFixedHeader s = .packet header n) :
    packetLength s = some (n + header.remainingLength) := by
  rw [packetLength, h]

/-- **Fixed headers delimit packets.** -/
lemma packetLength_delimits : Delimits packetLength where
  pos h := by
    obtain ⟨header, n, hs, hl⟩ := packetLength_eq_some h
    have hlength := mqttUnpackFixedHeader_packet hs
    omega
  whole h := by
    obtain ⟨header, n, hs, hl⟩ := packetLength_eq_some h
    have hlength := mqttUnpackFixedHeader_packet hs
    omega
  extend h t := by
    obtain ⟨header, n, hs, hl⟩ := packetLength_eq_some h
    rw [packetLength_of_header (mqttUnpackFixedHeader_append hs t), hl]

/-- **The bytes of the message are one packet of its type.** -/
def QueuedMessage.IsPacket (m : QueuedMessage) : Prop :=
  ∃ header n, mqttUnpackFixedHeader m.bytes = .packet header n ∧ m.Is header.controlType ∧
    n + header.remainingLength = m.bytes.length

lemma QueuedMessage.IsPacket.delimited {m : QueuedMessage} (h : m.IsPacket) :
    packetLength m.bytes = some m.bytes.length := by
  obtain ⟨header, n, hs, -, hl⟩ := h
  rw [packetLength_of_header hs, hl]

/-! ### What the packers write -/

section Packers

variable {t : ControlType} {flags : ℕ} {r : Str} {pack : ℕ → Except Fault Request}

/-- **A packer that writes a body behind a fixed header packs a packet.** -/
lemma packs_packing (ht : mqttFixedHeaderRuleViolation t.toNat flags = .ok t) (hflags : flags < 16)
    (h : ∀ room, pack room = .ok (.ofPacking (packing room t.toNat flags r))) :
    Client.Packs QueuedMessage.IsPacket t pack := by
  intro room m htype hm
  rw [h] at hm
  obtain ⟨hbody, hbytes⟩ := packing_eq (ofPacking_eq (Except.ok.inj hm))
  have hread := mqttUnpackFixedHeader_packetBytes ht t.toNat_lt hflags hbody []
  rw [List.append_nil, ← hbytes] at hread
  exact ⟨_, _, hread, htype, by rw [hbytes, length_packetBytes]⟩

/-- So does one of the requests that are packed by `packAt`. -/
lemma packs_packAt {remaining : ℕ} {write : ℕ → Str → Except Fault Str}
    (ht : mqttFixedHeaderRuleViolation t.toNat flags = .ok t) (hflags : flags < 16)
    (hwrite : ∀ room, Writes (emit Fault.crash room) (write room) r)
    (hr : remaining = r.length) :
    Client.Packs QueuedMessage.IsPacket t fun room => Request.ofPacking <$>
      packAt room room t.toNat flags remaining (write room) :=
  packs_packing ht hflags fun room => by
    rw [packAt_eq le_rfl ht (hwrite room) hr]
    rfl

/-- A packet that is a fixed header only. -/
lemma packFixedHeaderAt_alone {room : ℕ}
    (ht : mqttFixedHeaderRuleViolation t.toNat flags = .ok t) :
    packFixedHeaderAt room room t.toNat flags 0 = .ok (packing room t.toNat flags []) := by
  rw [packFixedHeaderAt_eq le_rfl, mqttPackFixedHeader_eq ht, packing, length_packetBytes,
    packetBytes, List.length_nil, List.append_nil]

/-- What the client packs by itself. -/
lemma ownPackets : Client.OwnPackets QueuedMessage.IsPacket where
  pubxxx t packetId ht :=
    packs_packing t.ruleViolation (by rcases ht with rfl | rfl | rfl | rfl <;> decide)
      fun room => mqttPackPubxxxAt_eq le_rfl ht
  ping := packs_packing (t := .pingreq) rfl (by decide) fun _ =>
    congrArg (Request.ofPacking <$> ·) (packFixedHeaderAt_alone (t := .pingreq) rfl)
  disconnect := packs_packing (t := .disconnect) rfl (by decide) fun _ =>
    congrArg (Request.ofPacking <$> ·) (packFixedHeaderAt_alone (t := .disconnect) rfl)

end Packers

/-- The strings of the call are such as a packet can hold. -/
def ClientOp.Short : ClientOp → Prop
  | connect _ clientId userName password _ _ =>
      clientId.length < 65536 ∧ (∀ s ∈ userName, s.length < 65536) ∧
        ∀ s ∈ password, s.length < 65536
  | publish _ topicName applicationMessage _ =>
      topicName.length < 65536 ∧ topicName.length + applicationMessage.length < 4294967292
  | subscribe _ topicName _ | unsubscribe _ topicName => topicName.length < 65536
  | ping _ | disconnect _ | reconnect _ | sync .. => True

/-- The two counts of a string agree. -/
lemma packedCstrlen_eq {s : Str} (h : s.length < 65536) :
    packedCstrlen s = (packedStr s).length := by
  rw [length_packedStr, packedCstrlen, u32, u32]
  omega

lemma packedOptlen_eq {s : Option Str} (h : ∀ x ∈ s, x.length < 65536) :
    packedOptlen s = ((s.map packedStr).getD []).length := by
  cases s with
  | none => rfl
  | some s => exact packedCstrlen_eq (h s rfl)

lemma length_optStr_lt {s : Option Str} (h : ∀ x ∈ s, x.length < 65536) :
    ((s.map packedStr).getD []).length < 65538 := by
  cases s with
  | none => decide
  | some s =>
      have hs := h s rfl
      show (packedStr s).length < 65538
      rw [length_packedStr]
      omega

/-- What follows the fixed header of a CONNECT packet. -/
def connectBody (clientId : Str) (userName password : Option Str)
    (connectFlags keepAlive : ℕ) : Str :=
  let flags := connectFlags &&& 2 ||| (if userName.isSome then 128 else 0) |||
    if password.isSome then 64 else 0
  mqttPackStr (str "MQTT") ++ ([4, flags.toUInt8] ++ (mqttPackUint16 keepAlive ++
    (packedStr clientId ++ ((userName.map packedStr).getD [] ++
      (password.map packedStr).getD []))))

section Requests

variable {clientId topicName applicationMessage : Str} {userName password : Option Str}
  {connectFlags keepAlive publishFlags maxQosLevel packetId : ℕ}

variable (connectFlags keepAlive) in
lemma connectCount_eq (hid : clientId.length < 65536) (huser : ∀ s ∈ userName, s.length < 65536)
    (hpassword : ∀ s ∈ password, s.length < 65536) :
    connectCount clientId userName password =
      (connectBody clientId userName password connectFlags keepAlive).length := by
  have hname : (mqttPackStr (str "MQTT")).length = 6 := rfl
  have htime : (mqttPackUint16 keepAlive).length = 2 := rfl
  have hclient := length_packedStr clientId
  have huserLength := length_optStr_lt huser
  have hpasswordLength := length_optStr_lt hpassword
  rw [connectCount, packedCstrlen_eq hid, packedOptlen_eq huser, packedOptlen_eq hpassword, u32,
    connectBody]
  simp only [List.length_append, hname, htime, List.length_cons, List.length_nil]
  omega

lemma packs_connect (hid : clientId.length < 65536) (huser : ∀ s ∈ userName, s.length < 65536)
    (hpassword : ∀ s ∈ password, s.length < 65536) :
    Client.Packs QueuedMessage.IsPacket .connect fun room => Request.ofPacking <$>
      packConnectionRequestAt room room clientId userName password connectFlags keepAlive := by
  intro room m htype hm
  dsimp only at hm
  rw [packConnectionRequestAt] at hm
  by_cases hsession : clientId = [] ∧ connectFlags &&& 2 = 0
  · rw [if_pos hsession] at hm
    cases hm
  · rw [if_neg hsession] at hm
    exact packs_packAt (t := .connect) rfl (by decide)
      (fun _ => (Writes.block _).bind ((Writes.block _).bind ((Writes.block _).bind
        ((packStrAt_writes clientId).bind ((packStrOptAt_writes userName).bind
          (packStrOptAt_writes password))))))
      (connectCount_eq connectFlags keepAlive hid huser hpassword) room m htype hm

lemma packs_publish (htopic : topicName.length < 65536)
    (hmessage : topicName.length + applicationMessage.length < 4294967292) :
    Client.Packs QueuedMessage.IsPacket .publish fun room =>
      mqttPackPublishAt room room topicName packetId applicationMessage publishFlags := by
  intro room m htype hm
  dsimp only at hm
  rw [mqttPackPublishAt_eq le_rfl htopic hmessage] at hm
  split_ifs at hm with hqos
  · cases hm
  · have hflags : publishFlags &&& 7 < 16 := by
      have : publishFlags &&& 7 ≤ 7 := Nat.and_le_right
      omega
    exact packs_packing (t := .publish) (publish_ruleViolation _) hflags (fun _ => rfl) room m
      htype hm

lemma packs_subscribe (htopic : topicName.length < 65536) :
    Client.Packs QueuedMessage.IsPacket .subscribe fun room =>
      mqttPackSubscribeAt room room packetId [(topicName, maxQosLevel)] := by
  refine packs_packAt (t := .subscribe)
    (r := mqttPackUint16 packetId ++ (packedStr topicName ++ [maxQosLevel.toUInt8])) rfl
    (by decide) (fun _ => (Writes.block _).bind
      (((packStrAt_writes topicName).bind (Writes.block _)).congr (fun out => ?_) rfl)) ?_
  · simp only [List.foldlM_cons, List.foldlM_nil, bind_pure]
  · have hlength := length_packedStr topicName
    show u32 (2 + packedCstrlen topicName + 1) = _
    rw [packedCstrlen_eq htopic, u32, List.length_append, List.length_append, mqttPackUint16]
    simp only [List.length_cons, List.length_nil]
    omega

lemma packs_unsubscribe (htopic : topicName.length < 65536) :
    Client.Packs QueuedMessage.IsPacket .unsubscribe fun room =>
      mqttPackUnsubscribeAt room room packetId [topicName] := by
  refine packs_packAt (t := .unsubscribe) (r := mqttPackUint16 packetId ++ packedStr topicName)
    rfl (by decide) (fun _ => (Writes.block _).bind
      ((packStrAt_writes topicName).congr (fun out => ?_) rfl)) ?_
  · simp only [List.foldlM_cons, List.foldlM_nil, bind_pure]
  · have hlength := length_packedStr topicName
    show u32 (2 + packedCstrlen topicName) = _
    rw [packedCstrlen_eq htopic, u32, List.length_append, mqttPackUint16]
    simp only [List.length_cons, List.length_nil]
    omega

end Requests

/-- **Whatever a call packs is a packet.** -/
lemma packs_of_short {op : ClientOp} (h : op.Short) : op.Packs QueuedMessage.IsPacket := by
  cases op with
  | connect => exact packs_connect h.1 h.2.1 h.2.2
  | publish => exact fun _ => packs_publish h.1 h.2
  | subscribe => exact fun _ => packs_subscribe h
  | unsubscribe => exact fun _ => packs_unsubscribe h
  | ping | disconnect | reconnect | sync => trivial

/-! ### Runs -/

namespace ClientView

variable {P : QueuedMessage → Prop} {v v' : ClientView}

/-- What is in the log as queued has the property. -/
lemma Moves.logged (h : Moves P v v') (hv : ∀ m, .queued m ∈ v.log → P m) :
    ∀ m, .queued m ∈ v'.log → P m := by
  have hqueued {w : QueuedMessage} (hP : P w) : ∀ m, .queued m ∈ v.log ++ [.queued w] → P m := by
    intro m hm
    rcases List.mem_append.mp hm with hm | hm
    · exact hv m hm
    · cases List.mem_singleton.mp hm
      exact hP
  cases h with
  | rewound | cleaned => exact hv
  | queued hm hP => exact hqueued hP
  | deliveredOnce hm hP =>
      intro m hm
      rcases List.mem_append.mp hm with hm | hm
      · exact hqueued hP m hm
      · cases List.mem_singleton.mp hm
  | sent | sentWhole | ignored | released | delivered =>
      intro m hm
      exact hv m (by simpa using hm)

lemma Evolves.logged (h : Evolves P v v') (hv : ∀ m, .queued m ∈ v.log → P m) :
    ∀ m, .queued m ∈ v'.log → P m := by
  induction h with
  | refl => exact hv
  | tail _ hmove ih => exact hmove.logged ih

end ClientView

/-- The packet an event queues, if it does. -/
def ClientEvent.packet? : ClientEvent → Option Str
  | .queued m => some m.bytes
  | _ => none

/-- **The packets that have been queued.** -/
def queuedPackets (log : List ClientEvent) : List Str := log.filterMap ClientEvent.packet?

lemma flatten_queuedPackets (log : List ClientEvent) :
    (queuedPackets log).flatten = queuedBytes log := by
  induction log with
  | nil => rfl
  | cons x log ih =>
      rw [queuedPackets, queuedBytes] at ih ⊢
      cases x <;> simp [List.filterMap_cons, ClientEvent.packet?, ClientEvent.bytesQueued, ih]

lemma mem_queuedPackets {log : List ClientEvent} {p : Str} (h : p ∈ queuedPackets log) :
    ∃ m, .queued m ∈ log ∧ m.bytes = p := by
  obtain ⟨x, hx, hp⟩ := List.mem_filterMap.mp h
  cases x with
  | queued m => exact ⟨m, hx, Option.some.inj hp⟩
  | sent | sentWhole | received | released | delivered => cases hp

section Run

variable {ops : List ClientOp} {sendbufsz recvbufsz timeOfLastSend keepAlive : ℕ} {c : Client}

lemma Client.packets_of_run (hops : ∀ op ∈ ops, op.Short)
    (h : (mqttInit sendbufsz recvbufsz timeOfLastSend keepAlive).run ops = .ok c) :
    ∀ m, .queued m ∈ c.log → m.IsPacket :=
  ClientView.Evolves.logged
    (Client.evolves_run ownPackets (fun op hop => packs_of_short (hops op hop)) .nil h)
    fun _ hm => by cases hm

lemma Client.delimited_of_run (hops : ∀ op ∈ ops, op.Short)
    (h : (mqttInit sendbufsz recvbufsz timeOfLastSend keepAlive).run ops = .ok c) :
    ∀ p ∈ queuedPackets c.log, packetLength p = some p.length := by
  intro p hp
  obtain ⟨m, hm, rfl⟩ := mem_queuedPackets hp
  exact (Client.packets_of_run hops h m hm).delimited

/-- **Everything a run queues is one packet of its type**, requests, answers and keep-alives alike,
and the queued bytes are cut into these by their fixed headers. -/
theorem queued_packets (hops : ∀ op ∈ ops, op.Short)
    (h : (mqttInit sendbufsz recvbufsz timeOfLastSend keepAlive).run ops = .ok c) :
    (∀ m, .queued m ∈ c.log → m.IsPacket) ∧
      cut packetLength (queuedBytes c.log) = queuedPackets c.log := by
  refine ⟨Client.packets_of_run hops h, ?_⟩
  rw [← flatten_queuedPackets]
  exact packetLength_delimits.cut_flatten (Client.delimited_of_run hops h)

lemma piecemeal_short : ∀ op ∈ piecemeal, op.Short := by
  simp [piecemeal, ClientOp.Short]

/-- A CONNECT, a PUBLISH and a PINGREQ packet. -/
theorem queued_packets_piecemeal :
    ((∀ m, .queued m ∈ piecemealClient.log → m.IsPacket) ∧
        cut packetLength (queuedBytes piecemealClient.log) = queuedPackets piecemealClient.log) ∧
      (queuedPackets piecemealClient.log).map (·.headD 0) = [16, 50, 192] :=
  ⟨queued_packets piecemeal_short piecemeal_run, rfl⟩

/-- **The socket is handed the packets in their order**, as long as nothing moves one away: a reader
that goes by the fixed headers takes the first packets that were queued off the stream, and all
those whose last byte is there. -/
theorem socket_packets (hops : ∀ op ∈ ops, op.Short)
    (h : (mqttInit sendbufsz recvbufsz timeOfLastSend keepAlive).run ops = .ok c)
    (htime : c.numberOfTimeouts = 0) (hlog : ∀ x ∈ c.log, x.Harmless) :
    cut packetLength (sentBytes c.log) <+: queuedPackets c.log ∧
      ∀ ps, ps <+: queuedPackets c.log → ps.flatten <+: sentBytes c.log →
        ps <+: cut packetLength (sentBytes c.log) := by
  have hdelimited := Client.delimited_of_run hops h
  have hcut := packetLength_delimits.cut_flatten hdelimited
  have hsent : sentBytes c.log <+: (queuedPackets c.log).flatten := by
    have hbytes := (Client.inStep_of_run h htime hlog).bytes
    rw [flatten_queuedPackets]
    exact ⟨_, hbytes.symm⟩
  refine ⟨?_, fun ps hps hflat => ?_⟩
  · have hprefix := packetLength_delimits.cut_prefix hsent
    rwa [hcut] at hprefix
  · obtain ⟨rest, hrest⟩ := hflat
    have hframes := packetLength_delimits.cut_flatten_append
      (fun p hp => hdelimited p (hps.subset hp)) rest
    rw [← hrest, hframes]
    exact List.prefix_append _ _

/-- The first two packets are read off the socket, and not the half of the third. -/
theorem socket_packets_piecemeal :
    (cut packetLength (sentBytes piecemealClient.log) <+: queuedPackets piecemealClient.log ∧
        ∀ ps, ps <+: queuedPackets piecemealClient.log →
          ps.flatten <+: sentBytes piecemealClient.log →
            ps <+: cut packetLength (sentBytes piecemealClient.log)) ∧
      cut packetLength (sentBytes piecemealClient.log) =
        (queuedPackets piecemealClient.log).take 2 :=
  ⟨socket_packets piecemeal_short piecemeal_run rfl (by decide +kernel), rfl⟩

end Run

end SipEcho
