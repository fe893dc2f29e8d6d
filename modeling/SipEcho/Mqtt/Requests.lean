import SipEcho.Mqtt.Emit
import SipEcho.Mqtt.Prefix

/-!
The packers of `mqtt.c` as the message queue calls them: PUBLISH at any quality of service, the
acknowledgements, SUBSCRIBE, UNSUBSCRIBE, PINGREQ and DISCONNECT.

* `packetBytes`: the bytes of a packet, a fixed header and what it announces;
* `packAt_eq`: a packer whose body is as long as it announces writes exactly these, or gives up;
* `mqttUnpackFixedHeader_packetBytes`: the fixed header is read back.
-/

namespace SipEcho

open Lib

/-- The errors of the packers besides those of `PackError`. -/
inductive RequestError where
  | pack (e : PackError)
  | connectNullWillMessage
  | connectForbiddenWillQos
  | publishForbiddenQos
  | subscribeTooManyTopics
  | unsubscribeTooManyTopics
  deriving DecidableEq, Repr

/-- A result of type `ssize_t`, with the bytes written. -/
abbrev Request := Except RequestError (Option Str)

/-- The result of a packer that ends with that of another. -/
def Request.ofPacking : Packing → Request
  | .ok p => .ok p
  | .error e => .error (.pack e)

/-- The number of a control type. -/
def ControlType.toNat : ControlType → ℕ
  | connect => 1
  | connack => 2
  | publish => 3
  | puback => 4
  | pubrec => 5
  | pubrel => 6
  | pubcomp => 7
  | subscribe => 8
  | suback => 9
  | unsubscribe => 10
  | unsuback => 11
  | pingreq => 12
  | pingresp => 13
  | disconnect => 14

/-- `MQTT_SUBSCRIBE_REQUEST_MAX_NUM_TOPICS` and `MQTT_UNSUBSCRIBE_REQUEST_MAX_NUM_TOPICS`. -/
def maxNumTopics : ℕ := 8

/-- The quality of service in the flags of a PUBLISH packet. -/
def publishQos (flags : ℕ) : ℕ := (flags &&& 6) >>> 1

/-- What a PUBLISH packet has between topic and message. -/
def publishId (packetId flags : ℕ) : Str :=
  if 0 < publishQos flags then mqttPackUint16 packetId else []

/-- `mqtt_pack_publish_request`, into a block of `cap` bytes. -/
def mqttPackPublishAt (cap bufsz : ℕ) (topicName : Str) (packetId : ℕ) (applicationMessage : Str)
    (publishFlags : ℕ) : Except Fault Request :=
  let remaining := u32 (packedCstrlen topicName + (if 0 < publishQos publishFlags then 2 else 0) +
    u32 applicationMessage.length)
  -- `MQTT_PUBLISH_DUP` goes at quality of service zero, and is masked out at any
  let flags := if publishQos publishFlags = 0 then publishFlags &&& 247 else publishFlags
  if publishQos publishFlags = 3 then return .error .publishForbiddenQos
  else
    Request.ofPacking <$> packAt cap bufsz 3 (flags &&& 7) remaining fun out => do
      let out ← packStrAt cap topicName out
      let out ← emit Fault.crash cap (publishId packetId publishFlags) out
      emit Fault.crash cap applicationMessage out

/-- `mqtt_pack_pubxxx_request`. -/
def mqttPackPubxxxAt (cap bufsz : ℕ) (controlType : ControlType) (packetId : ℕ) :
    Except Fault Request :=
  Request.ofPacking <$> packAt cap bufsz controlType.toNat
    (if controlType = .pubrel then 2 else 0) 2 fun out =>
      emit Fault.crash cap (mqttPackUint16 packetId) out

/-- `mqtt_pack_subscribe_request`, of a list of topics with their qualities of service. -/
def mqttPackSubscribeAt (cap bufsz packetId : ℕ) (subs : List (Str × ℕ)) : Except Fault Request :=
  if maxNumTopics ≤ subs.length then return .error .subscribeTooManyTopics
  else
    let remaining := subs.foldl (fun n s => u32 (n + packedCstrlen s.1 + 1)) 2
    Request.ofPacking <$> packAt cap bufsz 8 2 remaining fun out => do
      let out ← emit Fault.crash cap (mqttPackUint16 packetId) out
      subs.foldlM (fun out s => do
        let out ← packStrAt cap s.1 out
        emit Fault.crash cap [s.2.toUInt8] out) out

/-- `mqtt_pack_unsubscribe_request`, of a list of topics. -/
def mqttPackUnsubscribeAt (cap bufsz packetId : ℕ) (topics : List Str) : Except Fault Request :=
  if maxNumTopics ≤ topics.length then return .error .unsubscribeTooManyTopics
  else
    let remaining := topics.foldl (fun n s => u32 (n + packedCstrlen s)) 2
    Request.ofPacking <$> packAt cap bufsz 10 2 remaining fun out => do
      let out ← emit Fault.crash cap (mqttPackUint16 packetId) out
      topics.foldlM (fun out s => packStrAt cap s out) out

/-- `mqtt_pack_ping_request`. -/
def mqttPackPingAt (cap bufsz : ℕ) : Except Fault Request :=
  Request.ofPacking <$> packFixedHeaderAt cap bufsz 12 0 0

/-- `mqtt_pack_disconnect`. -/
def mqttPackDisconnectAt (cap bufsz : ℕ) : Except Fault Request :=
  Request.ofPacking <$> packFixedHeaderAt cap bufsz 14 0 0

/-! ### The bytes of a packet -/

lemma ControlType.toNat_lt (t : ControlType) : t.toNat < 16 := by
  cases t <;> decide

/-- The flags a control type requires pass the rules. -/
lemma ControlType.ruleViolation (t : ControlType) :
    mqttFixedHeaderRuleViolation t.toNat t.requiredFlags = .ok t := by
  cases t <;> rfl

/-- A control packet: its fixed header and what follows. -/
def packetBytes (controlType controlFlags : ℕ) (body : Str) : Str :=
  (16 * controlType + controlFlags).toUInt8 :: (lengthBytes 4 body.length ++ body)

lemma length_lengthBytes_pos (n : ℕ) : 0 < (lengthBytes 4 n).length := by
  rcases lt_or_ge n 128 with h | h
  · rw [length_lengthBytes_of_lt h]
    omega
  · have := length_lengthBytes_of_le h
    omega

/-- How long the fixed header of a packet is. -/
def headerLength (remaining : ℕ) : ℕ := 1 + (lengthBytes 4 remaining).length

lemma length_packetBytes (controlType controlFlags : ℕ) (body : Str) :
    (packetBytes controlType controlFlags body).length =
      headerLength body.length + body.length := by
  rw [packetBytes, List.length_cons, List.length_append, headerLength]
  omega

/-- `mqtt_pack_fixed_header`, of flags the control type admits. -/
lemma mqttPackFixedHeader_eq {bufsz controlType controlFlags remaining : ℕ} {t : ControlType}
    (ht : mqttFixedHeaderRuleViolation controlType controlFlags = .ok t) :
    mqttPackFixedHeader bufsz controlType controlFlags remaining =
      if bufsz = 0 then .ok none
      else if 268435456 ≤ remaining then .error (.header .invalidRemainingLength)
      else if bufsz < headerLength remaining + remaining then .ok none
      else .ok (some ((16 * controlType + controlFlags).toUInt8 :: lengthBytes 4 remaining)) := by
  have hpos := length_lengthBytes_pos remaining
  rw [mqttPackFixedHeader, ht]
  dsimp only
  rw [headerLength]
  by_cases hb : bufsz = 0
  · rw [if_pos hb, if_pos hb]
  · rw [if_neg hb, if_neg hb]
    by_cases hr : 268435456 ≤ remaining
    · rw [if_pos hr, if_pos hr]
    · rw [if_neg hr, if_neg hr]
      by_cases hlen : bufsz ≤ (lengthBytes 4 remaining).length
      · rw [if_pos hlen, if_pos (by omega)]
      · rw [if_neg hlen]
        by_cases hroom : bufsz - (lengthBytes 4 remaining).length - 1 < remaining
        · rw [if_pos hroom, if_pos (by omega)]
        · rw [if_neg hroom, if_neg (by omega)]

/-- What a packer comes to whose body has the announced length. -/
def packing (bufsz controlType controlFlags : ℕ) (body : Str) : Packing :=
  if bufsz = 0 then .ok none
  else if 268435456 ≤ body.length then .error (.header .invalidRemainingLength)
  else if bufsz < (packetBytes controlType controlFlags body).length then .ok none
  else .ok (some (packetBytes controlType controlFlags body))

/-- What comes out of a packer that ends with that of another. -/
lemma ofPacking_eq {x : Packing} {p : Str} (h : Request.ofPacking x = .ok (some p)) :
    x = .ok (some p) := by
  cases x with
  | ok o =>
      cases h
      rfl
  | error e => cases h

/-- What is packed is the whole packet, and not longer than a fixed header can say. -/
lemma packing_eq {room controlType flags : ℕ} {body p : Str}
    (h : packing room controlType flags body = .ok (some p)) :
    body.length < 268435456 ∧ p = packetBytes controlType flags body := by
  rw [packing] at h
  split_ifs at h with hroom hlarge hfits
  · cases h
  · cases h
  · cases h
    exact ⟨Nat.lt_of_not_le hlarge, rfl⟩

variable {cap : ℕ}

/-- **A packer whose body is as long as it announces** writes the packet, or nothing. -/
lemma packAt_eq {bufsz controlType controlFlags remaining : ℕ} {t : ControlType}
    {body : Str → Except Fault Str} {r : Str} (hcap : bufsz ≤ cap)
    (ht : mqttFixedHeaderRuleViolation controlType controlFlags = .ok t)
    (hbody : Writes (emit Fault.crash cap) body r) (hr : remaining = r.length) :
    packAt cap bufsz controlType controlFlags remaining body =
      .ok (packing bufsz controlType controlFlags r) := by
  subst hr
  rw [packAt, packFixedHeaderAt_eq hcap, mqttPackFixedHeader_eq ht, packing, length_packetBytes]
  by_cases hb : bufsz = 0
  · rw [if_pos hb, if_pos hb]
    rfl
  · rw [if_neg hb, if_neg hb]
    by_cases hlarge : 268435456 ≤ r.length
    · rw [if_pos hlarge, if_pos hlarge]
      rfl
    · rw [if_neg hlarge, if_neg hlarge]
      by_cases hroom : bufsz < headerLength r.length + r.length
      · rw [if_pos hroom, if_pos hroom]
        rfl
      · rw [if_neg hroom, if_neg hroom]
        have hlen : ((16 * controlType + controlFlags).toUInt8 ::
            lengthBytes 4 r.length).length = headerLength r.length := by
          rw [List.length_cons, headerLength, add_comm]
        dsimp only [bind, Except.bind]
        rw [if_neg (by rw [hlen]; omega), hbody.emit_eq (by rw [hlen]; omega), emit,
          if_pos (by rw [hlen]; omega)]
        rfl

/-! ### The room for a packet -/

/-- What the packer writes is not empty, and fits into the room it is given. -/
def FitsRoom (pack : ℕ → Except Fault Request) : Prop :=
  ∀ room packet, pack room = .ok (.ok (some packet)) → packet ≠ [] ∧ packet.length ≤ room

/-- A packer without a body. -/
lemma fits_packFixedHeaderAt {controlType controlFlags : ℕ} :
    FitsRoom fun room =>
      Request.ofPacking <$> packFixedHeaderAt room room controlType controlFlags 0 := by
  intro room packet h
  dsimp only at h
  rw [packFixedHeaderAt_eq le_rfl] at h
  obtain ⟨htwo, hroom⟩ := mqttPackFixedHeader_room (ofPacking_eq (Except.ok.inj h))
  exact ⟨List.ne_nil_of_length_pos (by omega), hroom⟩

/-- **No packer writes more than there is room for**, whatever it counts. -/
lemma fits_packAt {controlType controlFlags remaining : ℕ} {write : ℕ → Str → Except Fault Str}
    {r : Str} (hwrite : ∀ room, Writes (emit Fault.crash room) (write room) r) :
    FitsRoom fun room => Request.ofPacking <$>
      packAt room room controlType controlFlags remaining (write room) := by
  intro room packet h
  dsimp only at h
  rw [packAt, packFixedHeaderAt_eq le_rfl] at h
  cases hheader : mqttPackFixedHeader room controlType controlFlags remaining with
  | error e =>
      rw [hheader] at h
      cases h
  | ok header =>
      rw [hheader] at h
      cases header with
      | none => cases h
      | some header =>
          obtain ⟨htwo, hroom⟩ := mqttPackFixedHeader_room hheader
          dsimp only [bind, Except.bind] at h
          rw [if_neg (by omega), (hwrite room).emit_eq (by omega), emit] at h
          split_ifs at h with hfits
          · cases h
            rw [← List.length_append] at hfits
            refine ⟨List.ne_nil_of_length_pos ?_, hfits⟩
            rw [List.length_append]
            omega
          · cases h

lemma fits_publish {topicName applicationMessage : Str} {packetId publishFlags : ℕ} :
    FitsRoom fun room =>
      mqttPackPublishAt room room topicName packetId applicationMessage publishFlags := by
  intro room packet h
  dsimp only [mqttPackPublishAt] at h
  by_cases hqos : publishQos publishFlags = 3
  · rw [if_pos hqos] at h
    cases h
  · rw [if_neg hqos] at h
    exact fits_packAt (fun _ => (packStrAt_writes topicName).bind
      ((Writes.block (publishId packetId publishFlags)).bind
        (Writes.block applicationMessage))) room packet h

lemma fits_pubxxx {t : ControlType} {packetId : ℕ} :
    FitsRoom fun room => mqttPackPubxxxAt room room t packetId :=
  fits_packAt fun _ => Writes.block _

lemma fits_subscribe {packetId : ℕ} {topicName : Str} {maxQosLevel : ℕ} :
    FitsRoom fun room => mqttPackSubscribeAt room room packetId [(topicName, maxQosLevel)] :=
  fits_packAt fun _ => (Writes.block _).bind
    (((packStrAt_writes topicName).bind (Writes.block [maxQosLevel.toUInt8])).congr
      (fun out => by simp only [List.foldlM_cons, List.foldlM_nil, bind_pure]) rfl)

lemma fits_unsubscribe {packetId : ℕ} {topicName : Str} :
    FitsRoom fun room => mqttPackUnsubscribeAt room room packetId [topicName] :=
  fits_packAt fun _ => (Writes.block _).bind ((packStrAt_writes topicName).congr
    (fun out => by simp only [List.foldlM_cons, List.foldlM_nil, bind_pure]) rfl)

lemma fits_connect {clientId : Str} {userName password : Option Str}
    {connectFlags keepAlive : ℕ} : FitsRoom fun room => Request.ofPacking <$>
      packConnectionRequestAt room room clientId userName password connectFlags keepAlive := by
  intro room packet h
  dsimp only at h
  rw [packConnectionRequestAt] at h
  by_cases hsession : clientId = [] ∧ connectFlags &&& 2 = 0
  · rw [if_pos hsession] at h
    cases h
  · rw [if_neg hsession] at h
    exact fits_packAt (fun _ => (Writes.block _).bind ((Writes.block _).bind ((Writes.block _).bind
      ((packStrAt_writes clientId).bind ((packStrOptAt_writes userName).bind
        (packStrOptAt_writes password)))))) room packet h

/-! ### The fixed header read back -/

lemma unpackRemaining_lengthBytes {fuel n i acc : ℕ} (hn : n < 128 ^ fuel) (hi : i + fuel ≤ 4)
    (hfuel : 0 < fuel) (l : Str) :
    unpackRemaining i acc (lengthBytes fuel n ++ l) =
      .packet (acc + n * 128 ^ i) (i + (lengthBytes fuel n).length) := by
  induction fuel generalizing n i acc with
  | zero => omega
  | succ fuel ih =>
      rw [lengthBytes]
      by_cases hsmall : n < 128
      · have hn' : n.toUInt8.toNat = n := by
          rw [Nat.toUInt8, UInt8.toNat_ofNat']
          omega
        rw [if_pos hsmall, List.singleton_append, unpackRemaining, if_neg (by omega), hn']
        dsimp only
        rw [if_neg (by omega), Nat.mod_eq_of_lt hsmall, List.length_singleton]
      · have hb : (128 + n % 128).toUInt8.toNat = 128 + n % 128 := by
          rw [Nat.toUInt8, UInt8.toNat_ofNat']
          omega
        have hpow : 128 ^ (fuel + 1) = 128 ^ fuel * 128 := pow_succ 128 fuel
        have hfuel' : 0 < fuel := by
          rcases Nat.eq_zero_or_pos fuel with rfl | h
          · omega
          · exact h
        rw [if_neg hsmall, List.cons_append, unpackRemaining, if_neg (by omega), hb]
        dsimp only
        rw [if_pos (by omega), ih (Nat.div_lt_of_lt_mul (by omega)) (by omega) hfuel',
          List.length_cons]
        have hsum : (128 + n % 128) % 128 * 128 ^ i + n / 128 * 128 ^ (i + 1) = n * 128 ^ i := by
          rw [pow_succ, Nat.add_mod_left, Nat.mod_mod, mul_comm (128 ^ i), ← mul_assoc,
            ← Nat.add_mul]
          congr 1
          omega
        rw [add_assoc, hsum]
        congr 1
        omega

/-- **The fixed header is read back**, whatever follows the packet. -/
lemma mqttUnpackFixedHeader_packetBytes {controlType controlFlags : ℕ} {t : ControlType}
    {body : Str} (ht : mqttFixedHeaderRuleViolation controlType controlFlags = .ok t)
    (htype : controlType < 16) (hflags : controlFlags < 16) (hbody : body.length < 268435456)
    (s : Str) :
    mqttUnpackFixedHeader (packetBytes controlType controlFlags body ++ s) =
      .packet ⟨t, controlFlags, body.length⟩ (headerLength body.length) := by
  have hfirst : (16 * controlType + controlFlags).toUInt8.toNat = 16 * controlType + controlFlags
      := by
    rw [Nat.toUInt8, UInt8.toNat_ofNat']
    omega
  rw [packetBytes, List.cons_append, List.append_assoc, mqttUnpackFixedHeader,
    unpackRemaining_lengthBytes (by omega) (by omega) (by omega), hfirst,
    show (16 * controlType + controlFlags) / 16 = controlType by omega,
    show (16 * controlType + controlFlags) % 16 = controlFlags by omega]
  dsimp only
  rw [ht, Nat.zero_add, Nat.zero_add, pow_zero, mul_one]
  dsimp only
  rw [if_neg (by simp only [List.length_append]; omega), headerLength, add_comm]

/-- The bytes behind the fixed header. -/
lemma drop_packetBytes (controlType controlFlags : ℕ) (body s : Str) :
    (packetBytes controlType controlFlags body ++ s).drop (headerLength body.length) =
      body ++ s := by
  rw [packetBytes, headerLength, add_comm, List.cons_append, List.drop_succ_cons,
    List.append_assoc, List.drop_left]

section Packet

variable {controlType controlFlags : ℕ} {t : ControlType} {body s : Str}
  (ht : mqttFixedHeaderRuleViolation controlType controlFlags = .ok t) (htype : controlType < 16)
  (hflags : controlFlags < 16) (hbody : body.length < 268435456)

include ht htype hflags hbody

/-- **A packet is its header and its body**: reading it is reading its body. -/
lemma mqttUnpackResponse_packetBytes {d : Decoded} {k : ℕ}
    (hd : mqttUnpackBody ⟨t, controlFlags, body.length⟩ (body ++ s) = .packet d k) :
    mqttUnpackResponse (packetBytes controlType controlFlags body ++ s) =
      .packet ⟨⟨t, controlFlags, body.length⟩, d⟩ (headerLength body.length + k) := by
  rw [mqttUnpackResponse, mqttUnpackFixedHeader_packetBytes ht htype hflags hbody]
  dsimp only
  rw [drop_packetBytes, hd]

/-- What is wrong with the body is wrong with the packet. -/
lemma mqttUnpackResponse_packetBytes_error {e : MqttError}
    (hd : mqttUnpackBody ⟨t, controlFlags, body.length⟩ (body ++ s) = .error e) :
    mqttUnpackResponse (packetBytes controlType controlFlags body ++ s) = .error e := by
  rw [mqttUnpackResponse, mqttUnpackFixedHeader_packetBytes ht htype hflags hbody]
  dsimp only
  rw [drop_packetBytes, hd]

end Packet

/-- A number of two bytes is read back. -/
lemma mqttUnpackUint16_pack {n : ℕ} (hn : n < 65536) (pre s : Str) :
    mqttUnpackUint16 (pre ++ (mqttPackUint16 n ++ s)) pre.length = n := by
  have h1 : (n / 256).toUInt8.toNat = n / 256 := by
    rw [Nat.toUInt8, UInt8.toNat_ofNat']
    omega
  have h2 : n.toUInt8.toNat = n % 256 := by
    rw [Nat.toUInt8, UInt8.toNat_ofNat']
  rw [mqttUnpackUint16, byteAt, byteAt, List.getD_eq_getElem?_getD, List.getD_eq_getElem?_getD,
    List.getElem?_append_right le_rfl, List.getElem?_append_right (Nat.le_succ _), mqttPackUint16,
    Nat.sub_self, show pre.length.succ - pre.length = 1 by omega]
  simp only [List.cons_append, List.getElem?_cons_zero, List.getElem?_cons_succ, Option.getD_some,
    h1, h2]
  omega

end SipEcho
