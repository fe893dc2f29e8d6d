import SipEcho.Lib.Writer
import SipEcho.Map.Delete
import SipEcho.Mqtt.Pack

/-!
The packers once more, with the memory they write: a byte behind the block is a `Fault`.

Lengths are counted as the sources count them, `strlen` in 32 bits for the remaining length and in
16 bits for the string that is written; a string of gigabytes makes the two differ.

* `packFixedHeaderAt_eq`: the fixed header stays in the block, whatever it is, and is the one of
  `mqttPackFixedHeader`;
* `packAt_returns`: a packet stays in the block exactly when it does not pass the check of its
  remaining length, or its body fits behind the header.
-/

namespace SipEcho

open Lib

/-- The conversion to `uint32_t`. -/
def u32 (n : ℕ) : ℕ := n % 4294967296

/-- A result of type `ssize_t`, with the bytes written. -/
abbrev Packing := Except PackError (Option Str)

/-- The loop over the bytes of the remaining length: how many bytes are left behind the last. -/
def packLengthAt (cap : ℕ) : ℕ → ℕ → ℕ → Str → Except Fault (Option (ℕ × Str))
  | 0, _, _, _ => throw .fuel
  | fuel + 1, bufsz, remaining, out =>
      let bufsz := bufsz - 1
      if bufsz = 0 then return none
      else if remaining < 128 then do
        let out ← emit Fault.crash cap [remaining.toUInt8] out
        return some (bufsz, out)
      else do
        let out ← emit Fault.crash cap [(128 + remaining % 128).toUInt8] out
        packLengthAt cap fuel bufsz (remaining / 128) out

/-- `mqtt_pack_fixed_header`, into a block of `cap` bytes. -/
def packFixedHeaderAt (cap bufsz controlType controlFlags remaining : ℕ) :
    Except Fault Packing :=
  match mqttFixedHeaderRuleViolation controlType controlFlags with
  | .error e => return .error (.header e)
  | .ok _ =>
      if bufsz = 0 then return .ok none
      else do
        let out ← emit Fault.crash cap [(16 * controlType + controlFlags).toUInt8] []
        if 268435456 ≤ remaining then return .error (.header .invalidRemainingLength)
        else
          match ← packLengthAt cap 4 bufsz remaining out with
          | none => return .ok none
          | some (bufsz, out) =>
              if bufsz - 1 < remaining then return .ok none else return .ok (some out)

/-- A packet: its fixed header, the check of the remaining length, and the body. -/
def packAt (cap bufsz controlType controlFlags remaining : ℕ) (body : Str → Except Fault Str) :
    Except Fault Packing := do
  match ← packFixedHeaderAt cap bufsz controlType controlFlags remaining with
  | .error e => return .error e
  | .ok none => return .ok none
  | .ok (some out) =>
      if bufsz - out.length < remaining then return .ok none
      else do
        let out ← body out
        return .ok (some out)

/-- `__mqtt_pack_str`. -/
def packStrAt (cap : ℕ) (s out : Str) : Except Fault Str := do
  let length := s.length % 65536
  let out ← emit Fault.crash cap (mqttPackUint16 length) out
  emit Fault.crash cap (s.take length) out

/-- `__mqtt_pack_str` of a string that may be `NULL`. -/
def packStrOptAt (cap : ℕ) (s : Option Str) (out : Str) : Except Fault Str :=
  match s with
  | some s => packStrAt cap s out
  | none => return out

/-- `__mqtt_packed_cstrlen`, an `unsigned int`. -/
def packedCstrlen (s : Str) : ℕ := u32 (2 + u32 s.length)

/-- The length of a string that may be `NULL`. -/
def packedOptlen : Option Str → ℕ
  | some s => packedCstrlen s
  | none => 0

/-- The remaining length of a CONNECT packet, as it is counted. -/
def connectCount (clientId : Str) (userName password : Option Str) : ℕ :=
  u32 (10 + packedCstrlen clientId + packedOptlen userName + packedOptlen password)

/-- `mqtt_pack_connection_request`, without a will. -/
def packConnectionRequestAt (cap bufsz : ℕ) (clientId : Str) (userName password : Option Str)
    (connectFlags keepAlive : ℕ) : Except Fault Packing :=
  if clientId = [] ∧ connectFlags &&& 2 = 0 then return .error .cleanSessionIsRequired
  else
    let flags := connectFlags &&& 2 ||| (if userName.isSome then 128 else 0) |||
      if password.isSome then 64 else 0
    packAt cap bufsz 1 0 (connectCount clientId userName password) fun out => do
      let out ← emit Fault.crash cap (mqttPackStr (str "MQTT")) out
      let out ← emit Fault.crash cap [4, flags.toUInt8] out
      let out ← emit Fault.crash cap (mqttPackUint16 keepAlive) out
      let out ← packStrAt cap clientId out
      let out ← packStrOptAt cap userName out
      packStrOptAt cap password out

/-- `mqtt_pack_publish_request`, at quality of service zero. -/
def packPublishRequestAt (cap bufsz : ℕ) (topicName applicationMessage : Str) :
    Except Fault Packing :=
  packAt cap bufsz 3 0 (u32 (packedCstrlen topicName + u32 applicationMessage.length)) fun out => do
    let out ← packStrAt cap topicName out
    emit Fault.crash cap applicationMessage out

/-- `mqtt_pack_subscribe_request`, of one topic at quality of service zero. -/
def packSubscribeRequestAt (cap bufsz packetId : ℕ) (topic : Str) : Except Fault Packing :=
  packAt cap bufsz 8 2 (u32 (2 + packedCstrlen topic + 1)) fun out => do
    let out ← emit Fault.crash cap (mqttPackUint16 packetId) out
    let out ← packStrAt cap topic out
    emit Fault.crash cap [0] out

/-! ### The fixed header -/

lemma packLengthAt_eq {cap fuel bufsz remaining : ℕ} {out : Str} (hfuel : 0 < fuel)
    (hremaining : remaining < 128 ^ fuel) (hcap : out.length + bufsz ≤ cap + 1) :
    packLengthAt cap fuel bufsz remaining out =
      .ok (if bufsz ≤ (lengthBytes fuel remaining).length then none
        else some (bufsz - (lengthBytes fuel remaining).length,
          out ++ lengthBytes fuel remaining)) := by
  induction fuel generalizing bufsz remaining out with
  | zero => omega
  | succ fuel ih =>
      have hemit (c : UInt8) (h : bufsz - 1 ≠ 0) :
          emit Fault.crash cap [c] out = .ok (out ++ [c]) := by
        rw [emit, if_pos (by rw [List.length_singleton]; omega)]
      rw [packLengthAt, lengthBytes]
      by_cases hsmall : remaining < 128
      · simp only [if_pos hsmall, List.length_singleton]
        by_cases hb : bufsz - 1 = 0
        · rw [if_pos hb, if_pos (by omega)]
          rfl
        · rw [if_neg hb, if_neg (by omega), hemit _ hb]
          rfl
      · simp only [if_neg hsmall, List.length_cons]
        have hpow : 128 ^ (fuel + 1) = 128 ^ fuel * 128 := pow_succ 128 fuel
        have hfuel' : 0 < fuel := by
          rcases Nat.eq_zero_or_pos fuel with rfl | h
          · omega
          · exact h
        by_cases hb : bufsz - 1 = 0
        · rw [if_pos hb, if_pos (by omega)]
          rfl
        · rw [if_neg hb, hemit _ hb]
          refine (ih hfuel' (Nat.div_lt_of_lt_mul (by omega)) ?_).trans ?_
          · rw [List.length_append, List.length_singleton]
            omega
          · split_ifs with h1 h2 h2
            · rfl
            · omega
            · omega
            · rw [List.append_assoc, List.singleton_append, Nat.sub_sub, add_comm 1]

/-- **The fixed header** stays in the block, and is the one computed without it. -/
lemma packFixedHeaderAt_eq {cap bufsz : ℕ} (hcap : bufsz ≤ cap)
    (controlType controlFlags remaining : ℕ) :
    packFixedHeaderAt cap bufsz controlType controlFlags remaining =
      .ok (mqttPackFixedHeader bufsz controlType controlFlags remaining) := by
  rw [packFixedHeaderAt, mqttPackFixedHeader]
  cases mqttFixedHeaderRuleViolation controlType controlFlags with
  | error e => rfl
  | ok t =>
      dsimp only
      by_cases hb : bufsz = 0
      · rw [if_pos hb, if_pos hb]
        rfl
      · rw [if_neg hb, if_neg hb, emit, if_pos (by simp; omega)]
        by_cases hlarge : 268435456 ≤ remaining
        · rw [if_pos hlarge]
          show (if 268435456 ≤ remaining then _ else _) = _
          rw [if_pos hlarge]
          rfl
        · rw [if_neg hlarge]
          show (if 268435456 ≤ remaining then _ else _) = _
          rw [if_neg hlarge, packLengthAt_eq (by omega) (by omega) (by simp; omega)]
          by_cases hlen : bufsz ≤ (lengthBytes 4 remaining).length
          · rw [if_pos hlen, if_pos hlen]
            rfl
          · rw [if_neg hlen, if_neg hlen]
            show (if bufsz - (lengthBytes 4 remaining).length - 1 < remaining then _ else _) = _
            split <;> rfl

/-- A fixed header is two bytes at least, and what follows it has room in the buffer. -/
lemma mqttPackFixedHeader_room {bufsz controlType controlFlags remaining : ℕ} {header : Str}
    (h : mqttPackFixedHeader bufsz controlType controlFlags remaining = .ok (some header)) :
    2 ≤ header.length ∧ header.length + remaining ≤ bufsz := by
  have hlen : 1 ≤ (lengthBytes 4 remaining).length := by
    rcases lt_or_ge remaining 128 with h | h
    · rw [length_lengthBytes_of_lt h]
    · have := length_lengthBytes_of_le h
      omega
  rw [mqttPackFixedHeader] at h
  split at h
  · exact absurd h (by simp)
  · dsimp only at h
    split_ifs at h <;> cases h
    rw [List.length_cons]
    omega

/-! ### Packets -/

/-- The bytes `__mqtt_pack_str` writes. -/
def packedStr (s : Str) : Str :=
  mqttPackUint16 (s.length % 65536) ++ s.take (s.length % 65536)

lemma length_packedStr (s : Str) : (packedStr s).length = 2 + s.length % 65536 := by
  have := Nat.mod_le s.length 65536
  rw [packedStr, List.length_append, List.length_take, Nat.min_eq_left this, mqttPackUint16]
  rfl

variable {cap : ℕ}

lemma packStrAt_writes (s : Str) :
    Writes (emit Fault.crash cap) (packStrAt cap s) (packedStr s) :=
  (Writes.block _).bind (Writes.block _)

lemma packStrOptAt_writes (s : Option Str) :
    Writes (emit Fault.crash cap) (packStrOptAt cap s) ((s.map packedStr).getD []) := by
  cases s with
  | none => exact .nothing
  | some s => exact packStrAt_writes s

section Pack

variable {bufsz controlType controlFlags remaining : ℕ} {body : Str → Except Fault Str} {r : Str}

/-- **A packet stays in its block** exactly when its body fits behind a fixed header that
is packed. -/
lemma packAt_returns (hcap : bufsz ≤ cap) (hbody : Writes (emit Fault.crash cap) body r) :
    (∃ p, packAt cap bufsz controlType controlFlags remaining body = .ok p) ↔
      ∀ header, mqttPackFixedHeader bufsz controlType controlFlags remaining = .ok (some header) →
        header.length + r.length ≤ cap := by
  rw [packAt, packFixedHeaderAt_eq hcap]
  cases hheader : mqttPackFixedHeader bufsz controlType controlFlags remaining with
  | error e => exact iff_of_true ⟨_, rfl⟩ (by simp)
  | ok header =>
      cases header with
      | none => exact iff_of_true ⟨_, rfl⟩ (by simp)
      | some header =>
          obtain ⟨-, hroom⟩ := mqttPackFixedHeader_room hheader
          have hall : (∀ h, (.ok (some header) : Packing) = .ok (some h) →
              h.length + r.length ≤ cap) ↔ header.length + r.length ≤ cap := by simp
          rw [hall]
          show (∃ p, (if bufsz - header.length < remaining then _ else
            body header >>= fun out => _) = _) ↔ _
          rw [if_neg (by omega), hbody.emit_eq (by omega), emit]
          by_cases hfits : header.length + r.length ≤ cap
          · rw [if_pos hfits]
            exact iff_of_true ⟨_, rfl⟩ hfits
          · rw [if_neg hfits]
            refine iff_of_false ?_ hfits
            rintro ⟨p, hp⟩
            exact absurd hp (by simp [bind, Except.bind])

/-- A body of the announced length stays in the block. -/
lemma packAt_ok (hcap : bufsz ≤ cap) (hbody : Writes (emit Fault.crash cap) body r)
    (hr : r.length ≤ remaining) :
    ∃ p, packAt cap bufsz controlType controlFlags remaining body = .ok p := by
  refine (packAt_returns hcap hbody).mpr fun header h => ?_
  obtain ⟨-, hroom⟩ := mqttPackFixedHeader_room h
  omega

end Pack

/-- A PUBLISH packet stays in its block, when topic and message are not beyond what is counted. -/
lemma packPublishRequestAt_ok (cap : ℕ) {topicName message : Str}
    (htopic : topicName.length < 65536) (hmessage : message.length < 65536) :
    ∃ p, packPublishRequestAt cap cap topicName message = .ok p := by
  refine packAt_ok le_rfl ((packStrAt_writes topicName).bind (Writes.block message)) ?_
  rw [List.length_append, length_packedStr, packedCstrlen, u32, u32, u32, u32]
  omega

/-- A SUBSCRIBE packet stays in its block. -/
lemma packSubscribeRequestAt_ok (cap packetId : ℕ) {topic : Str} (htopic : topic.length < 65536) :
    ∃ p, packSubscribeRequestAt cap cap packetId topic = .ok p := by
  refine packAt_ok le_rfl
    ((Writes.block _).bind ((packStrAt_writes topic).bind (Writes.block [0]))) ?_
  rw [List.length_append, List.length_append, length_packedStr, packedCstrlen, u32, u32, u32,
    mqttPackUint16]
  simp only [List.length_cons, List.length_nil]
  omega

/-- How much of a CONNECT packet is written behind the fixed header. -/
def connectWritten (clientId : Str) (userName password : Option Str) : ℕ :=
  10 + (packedStr clientId).length + ((userName.map packedStr).getD []).length +
    ((password.map packedStr).getD []).length

/-- The two counts agree in their lowest sixteen bits. -/
lemma connectCount_mod (clientId : Str) (userName password : Option Str) :
    connectCount clientId userName password % 65536 =
      connectWritten clientId userName password % 65536 := by
  have optlen (s : Option Str) :
      packedOptlen s % 65536 = ((s.map packedStr).getD []).length % 65536 := by
    cases s with
    | none => rfl
    | some s =>
        show packedCstrlen s % 65536 = (packedStr s).length % 65536
        rw [length_packedStr, packedCstrlen, u32, u32]
        omega
  have h1 := optlen userName
  have h2 := optlen password
  have h3 : packedCstrlen clientId % 65536 = (packedStr clientId).length % 65536 :=
    optlen (some clientId)
  rw [connectCount, connectWritten, u32]
  omega

/-- **A CONNECT packet stays in 256 bytes** exactly when, counted as short enough, it is. -/
lemma packConnectionRequestAt_returns {clientId : Str} {userName password : Option Str}
    (connectFlags keepAlive : ℕ) (hid : clientId ≠ []) :
    (∃ p, packConnectionRequestAt 256 256 clientId userName password connectFlags keepAlive =
      .ok p) ↔
      (connectCount clientId userName password ≤ 253 →
        connectWritten clientId userName password ≤ 253) := by
  rw [packConnectionRequestAt, if_neg (fun h => hid h.1)]
  refine (packAt_returns le_rfl ((Writes.block _).bind ((Writes.block _).bind
    ((Writes.block _).bind ((packStrAt_writes clientId).bind
      ((packStrOptAt_writes userName).bind (packStrOptAt_writes password))))))).trans ?_
  have hmod := connectCount_mod clientId userName password
  have hwritten (header : Str) : header.length + (mqttPackStr (str "MQTT") ++
      ([4, (connectFlags &&& 2 ||| (if userName.isSome then 128 else 0) |||
        if password.isSome then 64 else 0).toUInt8] ++ (mqttPackUint16 keepAlive ++
      (packedStr clientId ++ ((userName.map packedStr).getD [] ++
        (password.map packedStr).getD []))))).length =
      header.length + connectWritten clientId userName password := by
    simp only [List.length_append, connectWritten]
    have h1 : (mqttPackStr (str "MQTT")).length = 6 := rfl
    have h2 : (mqttPackUint16 keepAlive).length = 2 := rfl
    simp only [h1, h2, List.length_cons, List.length_nil]
    omega
  simp only [hwritten]
  obtain ⟨l, hl, -, hn⟩ | ⟨hl, hn⟩ :=
    mqttPackFixedHeader_connect (connectCount clientId userName password)
  · obtain ⟨htwo, hroom⟩ := mqttPackFixedHeader_room hl
    constructor
    · intro h _
      have := h l hl
      omega
    · intro h header hheader
      rw [hl] at hheader
      cases hheader
      have := h hn
      omega
  · exact iff_of_true (fun header h => absurd h (hl header)) (fun h => absurd h (by omega))

end SipEcho
