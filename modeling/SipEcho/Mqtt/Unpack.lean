import SipEcho.Common.Libc

/-!
`mqtt_unpack_response`: one control packet of the broker, read from the front of the receive
buffer.

A `ssize_t` result is an `Unpacked`: an error code, `0` for a packet that is not complete yet, or
the packet and the number of bytes consumed.  Reads behind the buffer, which a topic longer than
its packet causes, give `0`; such a packet is never acted upon, see `unpacked_publish_length`.

* `unpackFixedHeader_packet`: a header is at least two bytes, and the packet has arrived;
* `mqttUnpackResponse_length`: a packet consumes at least two bytes, and no more than have
  arrived unless its length is beyond `INT16_MAX`.
-/

namespace SipEcho

/-- `enum MQTTErrors`, the members the receive path sets. -/
inductive MqttError where
  | nullptr
  | controlForbiddenType
  | controlInvalidFlags
  | connackForbiddenFlags
  | connackForbiddenCode
  | malformedResponse
  | responseInvalidControlType
  | malformedRequest
  | connectionRefused
  | subscribeFailed
  | invalidRemainingLength
  deriving DecidableEq, Repr

/-- The value of the member; `MQTT_ERROR_UNKNOWN` is `INT_MIN`. -/
def MqttError.code : MqttError → ℤ
  | nullptr => -2147483648 + 1
  | controlForbiddenType => -2147483648 + 2
  | controlInvalidFlags => -2147483648 + 3
  | connackForbiddenFlags => -2147483648 + 8
  | connackForbiddenCode => -2147483648 + 9
  | malformedResponse => -2147483648 + 12
  | responseInvalidControlType => -2147483648 + 14
  | malformedRequest => -2147483648 + 18
  | connectionRefused => -2147483648 + 22
  | subscribeFailed => -2147483648 + 23
  | invalidRemainingLength => -2147483648 + 26

/-- `enum MQTTControlPacketType`. -/
inductive ControlType where
  | connect
  | connack
  | publish
  | puback
  | pubrec
  | pubrel
  | pubcomp
  | subscribe
  | suback
  | unsubscribe
  | unsuback
  | pingreq
  | pingresp
  | disconnect
  deriving DecidableEq, Repr

/-- The type with a number, `none` for the two reserved ones. -/
def ControlType.ofNat? : ℕ → Option ControlType
  | 1 => some connect
  | 2 => some connack
  | 3 => some publish
  | 4 => some puback
  | 5 => some pubrec
  | 6 => some pubrel
  | 7 => some pubcomp
  | 8 => some subscribe
  | 9 => some suback
  | 10 => some unsubscribe
  | 11 => some unsuback
  | 12 => some pingreq
  | 13 => some pingresp
  | 14 => some disconnect
  | _ => none

/-- `mqtt_fixed_header_rules.required_flags`. -/
def ControlType.requiredFlags : ControlType → ℕ
  | pubrel | subscribe | unsubscribe => 2
  | _ => 0

/-- `mqtt_fixed_header_rules.mask_required_flags`. -/
def ControlType.maskRequiredFlags : ControlType → ℕ
  | publish => 0
  | _ => 15

/-- `struct mqtt_fixed_header`. -/
structure FixedHeader where
  controlType : ControlType
  controlFlags : ℕ
  remainingLength : ℕ
  deriving DecidableEq, Repr

/-- `struct mqtt_response_publish`. -/
structure Publish where
  dupFlag : ℕ
  qosLevel : ℕ
  retainFlag : ℕ
  topicName : Str
  packetId : ℕ
  applicationMessage : Str
  deriving DecidableEq, Repr

/-- The member of `mqtt_response.decoded` a packet sets. -/
inductive Decoded where
  | connack (sessionPresentFlag returnCode : ℕ)
  | publish (p : Publish)
  | pubxxx (packetId : ℕ)
  | suback (packetId : ℕ) (returnCodes : List ℕ)
  | unsuback (packetId : ℕ)
  | pingresp
  deriving DecidableEq, Repr

/-- `struct mqtt_response`. -/
structure Response where
  fixedHeader : FixedHeader
  decoded : Decoded
  deriving DecidableEq, Repr

/-- A result of type `ssize_t`. -/
inductive Unpacked (β : Type) where
  | error (e : MqttError)
  | incomplete
  | packet (r : β) (len : ℕ)
  deriving DecidableEq, Repr

/-- The loop over the length bytes: `i` of them are read, `acc` is their value. -/
def unpackRemaining (i acc : ℕ) : Str → Unpacked ℕ
  | [] => if i = 4 then .error .invalidRemainingLength else .incomplete
  | b :: l =>
      if i = 4 then .error .invalidRemainingLength
      else
        let acc := acc + b.toNat % 128 * 128 ^ i
        if 128 ≤ b.toNat then unpackRemaining (i + 1) acc l
        else .packet acc (i + 1)

/-- `mqtt_fixed_header_rule_violation`, on the bits of the first byte. -/
def mqttFixedHeaderRuleViolation (controlType controlFlags : ℕ) :
    Except MqttError ControlType :=
  match ControlType.ofNat? controlType with
  | none => .error .controlForbiddenType
  | some t =>
      if (controlFlags ^^^ t.requiredFlags) &&& t.maskRequiredFlags ≠ 0 then
        .error .controlInvalidFlags
      else .ok t

/-- `mqtt_unpack_fixed_header`. -/
def mqttUnpackFixedHeader : Str → Unpacked FixedHeader
  | [] => .incomplete
  | b :: l =>
      match unpackRemaining 0 0 l with
      | .error e => .error e
      | .incomplete => .incomplete
      | .packet remaining n =>
          match mqttFixedHeaderRuleViolation (b.toNat / 16) (b.toNat % 16) with
          | .error e => .error e
          | .ok t =>
              if l.length - n < remaining then .incomplete
              else .packet ⟨t, b.toNat % 16, remaining⟩ (n + 1)

/-- A byte of the buffer. -/
def byteAt (l : Str) (i : ℕ) : ℕ := (l.getD i 0).toNat

/-- `__mqtt_unpack_uint16`. -/
def mqttUnpackUint16 (l : Str) (i : ℕ) : ℕ := 256 * byteAt l i + byteAt l (i + 1)

lemma mqttUnpackUint16_lt (l : Str) (i : ℕ) : mqttUnpackUint16 l i < 65536 := by
  have h1 := (l.getD i 0).toNat_lt
  have h2 := (l.getD (i + 1) 0).toNat_lt
  rw [mqttUnpackUint16, byteAt, byteAt]
  omega

/-- The difference of a `uint32_t` and two smaller numbers, in `uint32_t`. -/
def subU32 (a b c : ℕ) : ℕ := (((a : ℤ) - b - c) % 4294967296).toNat

/-- `mqtt_unpack_connack_response`. -/
def mqttUnpackConnackResponse (h : FixedHeader) (l : Str) : Unpacked Decoded :=
  if h.remainingLength ≠ 2 then .error .malformedResponse
  else if byteAt l 0 &&& 254 ≠ 0 then .error .connackForbiddenFlags
  else if 5 < byteAt l 1 then .error .connackForbiddenCode
  else .packet (.connack (byteAt l 0) (byteAt l 1)) 2

/-- `mqtt_unpack_publish_response`. -/
def mqttUnpackPublishResponse (h : FixedHeader) (l : Str) : Unpacked Decoded :=
  let qosLevel := (h.controlFlags &&& 6) >>> 1
  if h.remainingLength < 4 then .error .malformedResponse
  else
    let topicNameSize := mqttUnpackUint16 l 0
    let idSize := if 0 < qosLevel then 2 else 0
    let size := subU32 h.remainingLength topicNameSize (2 + idSize)
    .packet
      (.publish
        { dupFlag := (h.controlFlags &&& 8) >>> 3
          qosLevel
          retainFlag := h.controlFlags &&& 1
          topicName := (l.drop 2).take topicNameSize
          packetId := if 0 < qosLevel then mqttUnpackUint16 l (2 + topicNameSize) else 0
          applicationMessage := (l.drop (2 + topicNameSize + idSize)).take size })
      (2 + topicNameSize + idSize + size)

/-- `mqtt_unpack_pubxxx_response`. -/
def mqttUnpackPubxxxResponse (h : FixedHeader) (l : Str) : Unpacked Decoded :=
  if h.remainingLength ≠ 2 then .error .malformedResponse
  else .packet (.pubxxx (mqttUnpackUint16 l 0)) 2

/-- `mqtt_unpack_suback_response`. -/
def mqttUnpackSubackResponse (h : FixedHeader) (l : Str) : Unpacked Decoded :=
  if h.remainingLength < 3 then .error .malformedResponse
  else
    .packet
      (.suback (mqttUnpackUint16 l 0)
        (((l.drop 2).take (h.remainingLength - 2)).map UInt8.toNat))
      h.remainingLength

/-- `mqtt_unpack_unsuback_response`. -/
def mqttUnpackUnsubackResponse (h : FixedHeader) (l : Str) : Unpacked Decoded :=
  if h.remainingLength ≠ 2 then .error .malformedResponse
  else .packet (.unsuback (mqttUnpackUint16 l 0)) 2

/-- The unpacker of a control type, behind the fixed header. -/
def mqttUnpackBody (h : FixedHeader) (l : Str) : Unpacked Decoded :=
  match h.controlType with
  | .connack => mqttUnpackConnackResponse h l
  | .publish => mqttUnpackPublishResponse h l
  | .puback | .pubrec | .pubrel | .pubcomp => mqttUnpackPubxxxResponse h l
  | .suback => mqttUnpackSubackResponse h l
  | .unsuback => mqttUnpackUnsubackResponse h l
  | .pingresp => .packet .pingresp 0
  | _ => .error .responseInvalidControlType

/-- `mqtt_unpack_response`. -/
def mqttUnpackResponse (l : Str) : Unpacked Response :=
  match mqttUnpackFixedHeader l with
  | .error e => .error e
  | .incomplete => .incomplete
  | .packet h n =>
      match mqttUnpackBody h (l.drop n) with
      | .error e => .error e
      | .incomplete => .incomplete
      | .packet decoded k => .packet ⟨h, decoded⟩ (n + k)

/-! ### How much a packet consumes -/

lemma unpackRemaining_packet {i acc r n : ℕ} {l : Str}
    (h : unpackRemaining i acc l = .packet r n) : i < n ∧ n ≤ i + l.length := by
  induction l generalizing i acc with
  | nil =>
      rw [unpackRemaining] at h
      split at h <;> exact absurd h (by simp)
  | cons b l ih =>
      rw [unpackRemaining] at h
      split at h
      · exact absurd h (by simp)
      · dsimp only at h
        split at h
        · have := ih h
          rw [List.length_cons]
          omega
        · cases h
          rw [List.length_cons]
          omega

/-- What a fixed header is read from: a byte, and the length, which has arrived. -/
lemma mqttUnpackFixedHeader_parts {l : Str} {h : FixedHeader} {n : ℕ}
    (hl : mqttUnpackFixedHeader l = .packet h n) :
    ∃ b rest k, l = b :: rest ∧ unpackRemaining 0 0 rest = .packet h.remainingLength k ∧
      n = k + 1 ∧ h.remainingLength ≤ rest.length - k := by
  cases l with
  | nil => exact absurd hl (by simp [mqttUnpackFixedHeader])
  | cons b rest =>
      rw [mqttUnpackFixedHeader] at hl
      split at hl
      · exact absurd hl (by simp)
      · exact absurd hl (by simp)
      · rename_i remaining k hk
        split at hl
        · exact absurd hl (by simp)
        · split at hl
          · exact absurd hl (by simp)
          · rename_i hroom
            cases hl
            exact ⟨b, rest, k, rfl, hk, rfl, Nat.le_of_not_lt hroom⟩

/-- A header is at least two bytes long, and the bytes it announces have arrived. -/
lemma mqttUnpackFixedHeader_packet {l : Str} {h : FixedHeader} {n : ℕ}
    (hl : mqttUnpackFixedHeader l = .packet h n) :
    2 ≤ n ∧ n + h.remainingLength ≤ l.length := by
  obtain ⟨b, rest, k, rfl, hk, rfl, hle⟩ := mqttUnpackFixedHeader_parts hl
  obtain ⟨h1, h2⟩ := unpackRemaining_packet hk
  rw [List.length_cons]
  omega

/-- **A topic that does not fit its packet makes the packet longer than any buffer.** -/
lemma unpacked_publish_length {h : FixedHeader} {l : Str} {d : Decoded} {k : ℕ}
    (hd : mqttUnpackPublishResponse h l = .packet d k) :
    k ≤ h.remainingLength ∨ 32767 < k := by
  simp only [mqttUnpackPublishResponse] at hd
  split at hd
  · exact absurd hd (by simp)
  · have htopic := mqttUnpackUint16_lt l 0
    have hid : (if 0 < (h.controlFlags &&& 6) >>> 1 then 2 else 0) ≤ 2 := by
      split <;> omega
    generalize (if 0 < (h.controlFlags &&& 6) >>> 1 then 2 else 0) = idSize at hd hid
    cases hd
    rw [subU32]
    push_cast
    omega

/-- What a body consumes is what its header announces, or beyond `INT16_MAX`. -/
lemma mqttUnpackBody_length {h : FixedHeader} {l : Str} {d : Decoded} {k : ℕ}
    (hd : mqttUnpackBody h l = .packet d k) : k ≤ h.remainingLength ∨ 32767 < k := by
  have two (hr : ¬ h.remainingLength ≠ 2) : 2 ≤ h.remainingLength := by omega
  rw [mqttUnpackBody] at hd
  split at hd
  · rw [mqttUnpackConnackResponse] at hd
    split_ifs at hd with hr
    cases hd
    exact Or.inl (two hr)
  · exact unpacked_publish_length hd
  all_goals try
    rw [mqttUnpackPubxxxResponse] at hd
    split_ifs at hd with hr
    cases hd
    exact Or.inl (two hr)
  · rw [mqttUnpackSubackResponse] at hd
    split_ifs at hd
    cases hd
    exact Or.inl le_rfl
  · rw [mqttUnpackUnsubackResponse] at hd
    split_ifs at hd with hr
    cases hd
    exact Or.inl (two hr)
  · cases hd
    exact Or.inl (Nat.zero_le _)
  · exact absurd hd (by simp)

/-- **The length of a packet.** -/
theorem mqttUnpackResponse_length {l : Str} {r : Response} {n : ℕ}
    (h : mqttUnpackResponse l = .packet r n) : 2 ≤ n ∧ (n ≤ l.length ∨ 32767 < n) := by
  rw [mqttUnpackResponse] at h
  split at h
  · exact absurd h (by simp)
  · exact absurd h (by simp)
  · rename_i hdr k hk
    obtain ⟨h1, h2⟩ := mqttUnpackFixedHeader_packet hk
    split at h
    · exact absurd h (by simp)
    · exact absurd h (by simp)
    · rename_i d j hj
      cases h
      have := mqttUnpackBody_length hj
      omega

end SipEcho
