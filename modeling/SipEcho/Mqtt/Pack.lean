import SipEcho.Mqtt.Unpack

/-!
`mqtt_pack_connection_request`: the CONNECT packet, written into a buffer of a given size.

A `ssize_t` result is an error, `0` for a packet that does not fit, or the number of bytes written;
here the bytes themselves.

* `mqttPackConnectionRequest_fits`: a packet of the length `begin` packs fits exactly when what
  follows the fixed header is at most 253 bytes.
-/

namespace SipEcho

/-- The errors of the sending path. -/
inductive PackError where
  | header (e : MqttError)
  | cleanSessionIsRequired
  deriving DecidableEq, Repr

/-- The bytes of a remaining length, the lowest seven bits first; `n` of them at most. -/
def lengthBytes : ℕ → ℕ → Str
  | 0, _ => []
  | n + 1, remaining =>
      if remaining < 128 then [remaining.toUInt8]
      else (128 + remaining % 128).toUInt8 :: lengthBytes n (remaining / 128)

/-- `mqtt_pack_fixed_header`. -/
def mqttPackFixedHeader (bufsz controlType controlFlags remaining : ℕ) :
    Except PackError (Option Str) :=
  match mqttFixedHeaderRuleViolation controlType controlFlags with
  | .error e => .error (.header e)
  | .ok _ =>
      if bufsz = 0 then .ok none
      else if 268435456 ≤ remaining then .error (.header .invalidRemainingLength)
      else
        let length := lengthBytes 4 remaining
        if bufsz ≤ length.length then .ok none
        else if bufsz - length.length - 1 < remaining then .ok none
        else .ok (some ((16 * controlType + controlFlags).toUInt8 :: length))

/-- `__mqtt_pack_uint16`. -/
def mqttPackUint16 (n : ℕ) : Str := [(n / 256).toUInt8, n.toUInt8]

/-- `__mqtt_pack_str`. -/
def mqttPackStr (s : Str) : Str := mqttPackUint16 s.length ++ s

/-- `__mqtt_packed_cstrlen`, `0` for a string that is not there. -/
def mqttPackedCstrlen : Option Str → ℕ
  | some s => 2 + s.length
  | none => 0

/-- The length of what follows the fixed header of a CONNECT packet. -/
def connectRemaining (clientId : Str) (userName password : Option Str) : ℕ :=
  10 + mqttPackedCstrlen (some clientId) + mqttPackedCstrlen userName + mqttPackedCstrlen password

/-- `mqtt_pack_connection_request`, without a will. -/
def mqttPackConnectionRequest (bufsz : ℕ) (clientId : Str) (userName password : Option Str)
    (connectFlags keepAlive : ℕ) : Except PackError (Option Str) :=
  if clientId = [] ∧ connectFlags &&& 2 = 0 then .error .cleanSessionIsRequired
  else
    let remaining := connectRemaining clientId userName password
    let flags := connectFlags &&& 2 ||| (if userName.isSome then 128 else 0) |||
      if password.isSome then 64 else 0
    match mqttPackFixedHeader bufsz 1 0 remaining with
    | .error e => .error e
    | .ok none => .ok none
    | .ok (some header) =>
        if bufsz - header.length < remaining then .ok none
        else
          .ok (some (header ++ mqttPackStr (str "MQTT") ++ [4, flags.toUInt8] ++
            mqttPackUint16 keepAlive ++ mqttPackStr clientId ++
            (userName.map mqttPackStr).getD [] ++ (password.map mqttPackStr).getD []))

/-! ### What fits -/

lemma length_lengthBytes_of_lt {n : ℕ} (h : n < 128) : (lengthBytes 4 n).length = 1 := by
  rw [lengthBytes, if_pos h, List.length_singleton]

lemma length_lengthBytes_of_le {n : ℕ} (h : 128 ≤ n) : 2 ≤ (lengthBytes 4 n).length := by
  rw [lengthBytes, if_neg (by omega), List.length_cons, lengthBytes]
  split <;> simp

lemma length_lengthBytes_two {n : ℕ} (h : 128 ≤ n) (h' : n < 16384) :
    (lengthBytes 4 n).length = 2 := by
  rw [lengthBytes, if_neg (by omega), lengthBytes, if_pos (by omega)]
  rfl

/-- The fixed header of a CONNECT packet, in 256 bytes. -/
lemma mqttPackFixedHeader_connect (n : ℕ) :
    (∃ l, mqttPackFixedHeader 256 1 0 n = .ok (some l) ∧ n ≤ 256 - l.length ∧ n ≤ 253) ∨
      (∀ l, mqttPackFixedHeader 256 1 0 n ≠ .ok (some l)) ∧ 253 < n := by
  have heq : mqttPackFixedHeader 256 1 0 n =
      if 256 = 0 then .ok none
      else if 268435456 ≤ n then .error (.header .invalidRemainingLength)
      else if 256 ≤ (lengthBytes 4 n).length then .ok none
      else if 256 - (lengthBytes 4 n).length - 1 < n then .ok none
      else .ok (some ((16 * 1 + 0).toUInt8 :: lengthBytes 4 n)) := rfl
  by_cases hn : n ≤ 253
  · have hlen : (lengthBytes 4 n).length ≤ 2 ∧ n ≤ 256 - ((lengthBytes 4 n).length + 1) := by
      rcases lt_or_ge n 128 with h | h
      · rw [length_lengthBytes_of_lt h]
        omega
      · rw [length_lengthBytes_two h (by omega)]
        omega
    refine Or.inl ⟨(16 * 1 + 0).toUInt8 :: lengthBytes 4 n, ?_, ?_, hn⟩
    · rw [heq, if_neg (by omega), if_neg (by omega), if_neg (by omega), if_neg (by omega)]
    · rw [List.length_cons]
      exact hlen.2
  · refine Or.inr ⟨fun l => ?_, by omega⟩
    have hlen := length_lengthBytes_of_le (n := n) (by omega)
    rw [heq, if_neg (by omega)]
    split
    · simp
    · split
      · simp
      · rw [if_pos (by omega)]
        simp

/-- **A CONNECT packet fits into 256 bytes** exactly when what follows its fixed header is at most
253 bytes. -/
lemma mqttPackConnectionRequest_fits {clientId : Str} {userName password : Option Str}
    {connectFlags keepAlive : ℕ} (hid : clientId ≠ []) :
    (∃ p, mqttPackConnectionRequest 256 clientId userName password connectFlags keepAlive =
      .ok (some p)) ↔ connectRemaining clientId userName password ≤ 253 := by
  rw [mqttPackConnectionRequest, if_neg (fun h => hid h.1)]
  dsimp only
  obtain ⟨l, hl, hle, hn⟩ | ⟨hl, hn⟩ :=
    mqttPackFixedHeader_connect (connectRemaining clientId userName password)
  · rw [hl]
    dsimp only
    rw [if_neg (by omega)]
    exact iff_of_true ⟨_, rfl⟩ hn
  · refine iff_of_false ?_ (by omega)
    rintro ⟨p, hp⟩
    split at hp
    · exact absurd hp (by simp)
    · exact absurd hp (by simp)
    · rename_i l h
      exact hl l h

end SipEcho
