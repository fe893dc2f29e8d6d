import SipEcho.Mqtt.Requests

/-!
What the packers of `mqtt.c` write, read by its unpackers.

* `mqttPackPublishAt_eq`, `mqttPackPubxxxAt_eq`: the packets that are written, and when;
* `publish_round_trip`: topic, message, quality of service, identifier and RETAIN of a PUBLISH
  packet are read back, whatever follows it; a packet that is too short for the unpacker is an
  error;
* `pubxxx_round_trip`: so is the identifier of an acknowledgement.
-/

namespace SipEcho

open Lib

/-! ### PUBLISH -/

/-- What follows the fixed header of a PUBLISH packet. -/
def publishBody (topicName : Str) (packetId : ℕ) (applicationMessage : Str) (flags : ℕ) : Str :=
  mqttPackUint16 topicName.length ++ topicName ++ publishId packetId flags ++ applicationMessage

/-- The size of the identifier. -/
def publishIdSize (flags : ℕ) : ℕ := if 0 < publishQos flags then 2 else 0

lemma length_publishId (packetId flags : ℕ) :
    (publishId packetId flags).length = publishIdSize flags := by
  rw [publishId, publishIdSize]
  split <;> rfl

lemma length_publishBody (topicName : Str) (packetId : ℕ) (applicationMessage : Str)
    (flags : ℕ) :
    (publishBody topicName packetId applicationMessage flags).length =
      2 + topicName.length + publishIdSize flags + applicationMessage.length := by
  rw [publishBody, List.length_append, List.length_append, List.length_append, length_publishId]
  rfl

/-- A PUBLISH packet has any flags. -/
lemma publish_ruleViolation (flags : ℕ) :
    mqttFixedHeaderRuleViolation 3 flags = .ok .publish := by
  simp [mqttFixedHeaderRuleViolation, ControlType.ofNat?, ControlType.maskRequiredFlags]

section Publish

variable {cap bufsz packetId flags : ℕ} {topicName message : Str}

/-- **The PUBLISH packet**: it is written, whatever else the flags say, exactly when it fits. -/
lemma mqttPackPublishAt_eq (hcap : bufsz ≤ cap) (htopic : topicName.length < 65536)
    (hmessage : topicName.length + message.length < 4294967292) :
    mqttPackPublishAt cap bufsz topicName packetId message flags =
      .ok (if publishQos flags = 3 then .error .publishForbiddenQos
        else .ofPacking
          (packing bufsz 3 (flags &&& 7) (publishBody topicName packetId message flags))) := by
  rw [mqttPackPublishAt]
  by_cases hq : publishQos flags = 3
  · rw [if_pos hq, if_pos hq]
    rfl
  · rw [if_neg hq, if_neg hq]
    have hmask : (if publishQos flags = 0 then flags &&& 247 else flags) &&& 7 = flags &&& 7 := by
      split
      · exact Nat.and_assoc flags 247 7
      · rfl
    have hstr : packedStr topicName = mqttPackUint16 topicName.length ++ topicName := by
      rw [packedStr, Nat.mod_eq_of_lt htopic, List.take_length]
    have hwrites : Writes (emit Fault.crash cap)
        (fun out => packStrAt cap topicName out >>= fun out =>
          emit Fault.crash cap (publishId packetId flags) out >>= fun out =>
            emit Fault.crash cap message out)
        (publishBody topicName packetId message flags) :=
      ((packStrAt_writes topicName).bind ((Writes.block _).bind (Writes.block message))).congr
        (fun _ => rfl) (by rw [publishBody, hstr, List.append_assoc, List.append_assoc])
    rw [hmask, packAt_eq hcap (publish_ruleViolation _) hwrites]
    · rfl
    · have hsize : publishIdSize flags ≤ 2 := by
        rw [publishIdSize]
        split <;> omega
      have hif : (if 0 < publishQos flags then 2 else 0) = publishIdSize flags := rfl
      rw [hif, length_publishBody, packedCstrlen, u32, u32, u32, u32]
      omega

/-- What the flags of the packet say. -/
lemma publishQos_and (flags : ℕ) : (flags &&& 7 &&& 6) >>> 1 = publishQos flags := by
  exact congrArg (· >>> 1) (Nat.and_assoc flags 7 6)

variable (flags) in
/-- **A PUBLISH packet is read back**: its body. -/
lemma mqttUnpackPublishResponse_body (hid : packetId < 65536) (htopic : topicName.length < 65536)
    (hmessage : topicName.length + message.length < 4294967292) (s : Str) :
    mqttUnpackPublishResponse
        ⟨.publish, flags &&& 7, (publishBody topicName packetId message flags).length⟩
        (publishBody topicName packetId message flags ++ s) =
      if topicName.length + publishIdSize flags + message.length < 2 then
        .error .malformedResponse
      else
        .packet
          (.publish
            { dupFlag := 0
              qosLevel := publishQos flags
              retainFlag := flags &&& 1
              topicName
              packetId := if 0 < publishQos flags then packetId else 0
              applicationMessage := message })
          (publishBody topicName packetId message flags).length := by
  have hlen := length_publishBody topicName packetId message flags
  have hid' : (if 0 < publishQos flags then 2 else 0) = publishIdSize flags := rfl
  have hsize : publishIdSize flags ≤ 2 := by
    rw [publishIdSize]
    split <;> omega
  have hbody : publishBody topicName packetId message flags ++ s =
      mqttPackUint16 topicName.length ++
        (topicName ++ (publishId packetId flags ++ (message ++ s))) := by
    simp only [publishBody, List.append_assoc]
  rw [mqttUnpackPublishResponse]
  dsimp only
  by_cases hshort : topicName.length + publishIdSize flags + message.length < 2
  · rw [if_pos hshort, if_pos (by omega)]
  rw [if_neg hshort, if_neg (by omega), publishQos_and, hid', hlen]
  have htopicSize : mqttUnpackUint16 (publishBody topicName packetId message flags ++ s) 0 =
      topicName.length := by
    rw [hbody]
    exact mqttUnpackUint16_pack htopic [] _
  have hsub : subU32 (2 + topicName.length + publishIdSize flags + message.length)
      topicName.length (2 + publishIdSize flags) = message.length := by
    rw [subU32]
    push_cast
    omega
  have hdup : (flags &&& 7 &&& 8) >>> 3 = 0 := by
    rw [Nat.and_assoc]
    simp
  have hretain : flags &&& 7 &&& 1 = flags &&& 1 := Nat.and_assoc flags 7 1
  have hdrop : (publishBody topicName packetId message flags ++ s).drop 2 =
      topicName ++ (publishId packetId flags ++ (message ++ s)) := by
    rw [hbody]
    rfl
  have hdropId : (publishBody topicName packetId message flags ++ s).drop
      (2 + topicName.length + publishIdSize flags) = message ++ s := by
    rw [← length_publishId packetId flags, ← List.drop_drop, ← List.drop_drop, hdrop,
      List.drop_left, List.drop_left]
  have hpacketId : 0 < publishQos flags →
      mqttUnpackUint16 (publishBody topicName packetId message flags ++ s)
        (2 + topicName.length) = packetId := by
    intro hq
    have hpre : publishBody topicName packetId message flags ++ s =
        (mqttPackUint16 topicName.length ++ topicName) ++
          (mqttPackUint16 packetId ++ (message ++ s)) := by
      rw [hbody, publishId, if_pos hq, List.append_assoc]
    have hprelen : (mqttPackUint16 topicName.length ++ topicName).length =
        2 + topicName.length := by
      rw [List.length_append]
      rfl
    rw [hpre, ← hprelen]
    exact mqttUnpackUint16_pack hid _ _
  rw [htopicSize, hsub, hdup, hretain, hdrop, hdropId, List.take_left, List.take_left]
  congr 1
  · congr 2
    split
    · rename_i hq
      exact hpacketId hq
    · rfl

/-- **PUBLISH round trip.**  What `mqtt_pack_publish_request` writes is read back by
`mqtt_unpack_response`, whatever follows; topic and message are those that were packed, DUP is
never set, and the packet is an error for the unpacker exactly when topic, identifier and message
have less than two bytes together. -/
theorem publish_round_trip (hcap : bufsz ≤ cap) (hid : packetId < 65536)
    (htopic : topicName.length < 65536)
    (hmessage : topicName.length + message.length < 4294967292) {p : Str}
    (hp : mqttPackPublishAt cap bufsz topicName packetId message flags = .ok (.ok (some p)))
    (s : Str) :
    mqttUnpackResponse (p ++ s) =
      if topicName.length + publishIdSize flags + message.length < 2 then
        .error .malformedResponse
      else
        .packet
          ⟨⟨.publish, flags &&& 7, 2 + topicName.length + publishIdSize flags + message.length⟩,
            .publish
              { dupFlag := 0
                qosLevel := publishQos flags
                retainFlag := flags &&& 1
                topicName
                packetId := if 0 < publishQos flags then packetId else 0
                applicationMessage := message }⟩
          p.length := by
  rw [mqttPackPublishAt_eq hcap htopic hmessage] at hp
  have hbody := mqttUnpackPublishResponse_body flags hid htopic hmessage s
  have hflags : flags &&& 7 < 16 := by
    have : flags &&& 7 ≤ 7 := Nat.and_le_right
    omega
  split_ifs at hp with hqos
  · cases hp
  obtain ⟨hlarge, rfl⟩ := packing_eq (ofPacking_eq (Except.ok.inj hp))
  rw [length_packetBytes]
  by_cases hshort : topicName.length + publishIdSize flags + message.length < 2
  · rw [if_pos hshort] at hbody ⊢
    exact mqttUnpackResponse_packetBytes_error (publish_ruleViolation _) (by omega) hflags hlarge
      hbody
  · rw [if_neg hshort] at hbody ⊢
    rw [mqttUnpackResponse_packetBytes (publish_ruleViolation _) (by omega) hflags hlarge hbody,
      length_publishBody]

/-- A message at quality of service two, to be retained, and sent again: DUP is not packed. -/
theorem publish_round_trip_retained :
    mqttUnpackResponse ([53, 9, 0, 3, 97, 47, 98, 0, 7, 1, 2] ++ [208, 0]) =
      if (str "a/b").length + publishIdSize 13 + ([1, 2] : Str).length < 2 then
        .error .malformedResponse
      else
        .packet
          ⟨⟨.publish, 13 &&& 7, 2 + (str "a/b").length + publishIdSize 13 + ([1, 2] : Str).length⟩,
            .publish
              { dupFlag := 0
                qosLevel := publishQos 13
                retainFlag := 13 &&& 1
                topicName := str "a/b"
                packetId := if 0 < publishQos 13 then 7 else 0
                applicationMessage := [1, 2] }⟩
          ([53, 9, 0, 3, 97, 47, 98, 0, 7, 1, 2] : Str).length :=
  publish_round_trip (show 64 ≤ 64 by decide) (by decide) (by decide) (by decide) (by rfl) [208, 0]

end Publish

/-! ### Acknowledgements -/

/-- The four packets that acknowledge a PUBLISH packet. -/
def ControlType.Acknowledges (t : ControlType) : Prop :=
  t = puback ∨ t = pubrec ∨ t = pubrel ∨ t = pubcomp

section Pubxxx

variable {cap bufsz packetId : ℕ} {t : ControlType}

lemma mqttPackPubxxxAt_eq (hcap : bufsz ≤ cap) (ht : t.Acknowledges) :
    mqttPackPubxxxAt cap bufsz t packetId =
      .ok (.ofPacking (packing bufsz t.toNat t.requiredFlags (mqttPackUint16 packetId))) := by
  have hflags : (if t = .pubrel then 2 else 0) = t.requiredFlags := by
    rcases ht with rfl | rfl | rfl | rfl <;> rfl
  have hlen : 2 = (mqttPackUint16 packetId).length := rfl
  rw [mqttPackPubxxxAt, hflags, packAt_eq hcap t.ruleViolation (Writes.block _) hlen]
  rfl

/-- **The identifier of an acknowledgement** is read back, whatever follows. -/
theorem pubxxx_round_trip (hcap : bufsz ≤ cap) (ht : t.Acknowledges) (hid : packetId < 65536)
    {p : Str} (hp : mqttPackPubxxxAt cap bufsz t packetId = .ok (.ok (some p))) (s : Str) :
    mqttUnpackResponse (p ++ s) =
      .packet ⟨⟨t, t.requiredFlags, 2⟩, .pubxxx packetId⟩ p.length := by
  rw [mqttPackPubxxxAt_eq hcap ht] at hp
  obtain ⟨-, rfl⟩ := packing_eq (ofPacking_eq (Except.ok.inj hp))
  have hbody : mqttUnpackBody ⟨t, t.requiredFlags, (mqttPackUint16 packetId).length⟩
      (mqttPackUint16 packetId ++ s) = .packet (.pubxxx packetId) 2 := by
    have hread := mqttUnpackUint16_pack hid [] s
    rw [List.nil_append, List.length_nil] at hread
    have hpub : mqttUnpackPubxxxResponse ⟨t, t.requiredFlags, (mqttPackUint16 packetId).length⟩
        (mqttPackUint16 packetId ++ s) = .packet (.pubxxx packetId) 2 := by
      rw [mqttUnpackPubxxxResponse, hread]
      rfl
    rcases ht with rfl | rfl | rfl | rfl <;> exact hpub
  have hflags : t.requiredFlags < 16 := by
    rcases ht with rfl | rfl | rfl | rfl <;> decide
  rw [mqttUnpackResponse_packetBytes t.ruleViolation t.toNat_lt hflags (by simp [mqttPackUint16])
    hbody, length_packetBytes]
  rfl

/-- A PUBREL packet, with more behind it. -/
theorem pubxxx_round_trip_pubrel :
    mqttUnpackResponse ([98, 2, 1, 2] ++ [208, 0]) =
      .packet ⟨⟨.pubrel, ControlType.requiredFlags .pubrel, 2⟩, .pubxxx 258⟩
        ([98, 2, 1, 2] : Str).length :=
  pubxxx_round_trip (show 64 ≤ 64 by decide) (.inr (.inr (.inl rfl))) (by decide) (by rfl) [208, 0]

end Pubxxx

end SipEcho
