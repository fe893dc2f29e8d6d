import SipEcho.Mqtt.Unpack

/-!
A control packet in a stream: what `mqtt_unpack_response` makes of it with more bytes behind it,
and of a part of it.

`WellFormed p r` says that the bytes `p` are one whole packet, read as `r`.

* `WellFormed.append`: more bytes change nothing;
* `WellFormed.take`: a part is not complete yet.
-/

namespace SipEcho

/-- The bytes of one control packet, short enough for `command` to take it. -/
structure WellFormed (p : Str) (r : Response) : Prop where
  unpack : mqttUnpackResponse p = .packet r p.length
  short : p.length ≤ 32767

/-! ### The fixed header -/

section Header

variable {i acc r n : ℕ} {l s : Str} {h : FixedHeader}

lemma unpackRemaining_append (hl : unpackRemaining i acc l = .packet r n) (s : Str) :
    unpackRemaining i acc (l ++ s) = .packet r n := by
  induction l generalizing i acc with
  | nil =>
      rw [unpackRemaining] at hl
      split at hl <;> exact absurd hl (by simp)
  | cons b l ih =>
      rw [unpackRemaining] at hl
      rw [List.cons_append, unpackRemaining]
      split at hl
      · exact absurd hl (by simp)
      · rename_i hi
        rw [if_neg hi]
        dsimp only at hl ⊢
        split at hl
        · rename_i hb
          rw [if_pos hb]
          exact ih hl
        · rename_i hb
          rw [if_neg hb]
          exact hl

/-- Of the length bytes a part is not enough. -/
lemma unpackRemaining_take (hl : unpackRemaining i acc l = .packet r n) (k : ℕ) :
    unpackRemaining i acc (l.take k) = if i + k < n then .incomplete else .packet r n := by
  induction l generalizing i acc k with
  | nil =>
      rw [unpackRemaining] at hl
      split at hl <;> exact absurd hl (by simp)
  | cons b l ih =>
      have hn := (unpackRemaining_packet hl).1
      rw [unpackRemaining] at hl
      split at hl
      · exact absurd hl (by simp)
      · rename_i hi
        cases k with
        | zero => rw [List.take_zero, unpackRemaining, if_neg hi, if_pos (by omega)]
        | succ k =>
            rw [List.take_succ_cons, unpackRemaining, if_neg hi]
            dsimp only at hl ⊢
            split at hl
            · rename_i hb
              rw [if_pos hb, ih hl, Nat.add_right_comm, Nat.add_assoc]
            · rename_i hb
              cases hl
              rw [if_neg hb, if_neg (by omega)]

lemma mqttUnpackFixedHeader_append (hl : mqttUnpackFixedHeader l = .packet h n) (s : Str) :
    mqttUnpackFixedHeader (l ++ s) = .packet h n := by
  cases l with
  | nil => exact absurd hl (by simp [mqttUnpackFixedHeader])
  | cons b l =>
      rw [List.cons_append]
      rw [mqttUnpackFixedHeader] at hl ⊢
      cases hr : unpackRemaining 0 0 l with
      | error e => exact absurd hl (by simp [hr])
      | incomplete => exact absurd hl (by simp [hr])
      | packet remaining k =>
          have hk := (unpackRemaining_packet hr).2
          rw [hr] at hl
          rw [unpackRemaining_append hr]
          dsimp only at hl ⊢
          split at hl
          · exact absurd hl (by simp)
          · split at hl
            · exact absurd hl (by simp)
            · rw [if_neg (by rw [List.length_append]; omega)]
              exact hl

/-- A part that lacks some of the announced bytes is not complete. -/
lemma mqttUnpackFixedHeader_take (hl : mqttUnpackFixedHeader l = .packet h n) {k : ℕ}
    (hk : k < n + h.remainingLength) : mqttUnpackFixedHeader (l.take k) = .incomplete := by
  cases l with
  | nil => exact absurd hl (by simp [mqttUnpackFixedHeader])
  | cons b l =>
      cases k with
      | zero => rfl
      | succ k =>
          rw [List.take_succ_cons]
          rw [mqttUnpackFixedHeader] at hl ⊢
          cases hr : unpackRemaining 0 0 l with
          | error e => exact absurd hl (by simp [hr])
          | incomplete => exact absurd hl (by simp [hr])
          | packet remaining j =>
              rw [hr] at hl
              rw [unpackRemaining_take hr]
              dsimp only at hl
              split at hl
              · exact absurd hl (by simp)
              · rename_i t ht
                split at hl
                · exact absurd hl (by simp)
                · cases hl
                  dsimp only at hk
                  split_ifs with hj
                  · rfl
                  · dsimp only
                    rw [if_pos]
                    rw [List.length_take]
                    omega

end Header

/-! ### The body -/

section Body

variable {h : FixedHeader} {l s : Str} {d : Decoded}

lemma byteAt_append {i : ℕ} (hi : i < l.length) (s : Str) : byteAt (l ++ s) i = byteAt l i := by
  rw [byteAt, byteAt, List.getD_eq_getElem?_getD, List.getD_eq_getElem?_getD,
    List.getElem?_append_left hi]

lemma mqttUnpackUint16_append {i : ℕ} (hi : i + 1 < l.length) (s : Str) :
    mqttUnpackUint16 (l ++ s) i = mqttUnpackUint16 l i := by
  rw [mqttUnpackUint16, mqttUnpackUint16, byteAt_append (by omega), byteAt_append hi]

/-- A field that lies inside the packet. -/
lemma field_append {i n : ℕ} (hi : i + n ≤ l.length) (s : Str) :
    ((l ++ s).drop i).take n = (l.drop i).take n := by
  rw [List.drop_append_of_le_length (by omega), List.take_append_of_le_length]
  rw [List.length_drop]
  omega

/-- **A body reads nothing behind itself**: more bytes change nothing. -/
lemma mqttUnpackBody_append (hd : mqttUnpackBody h l = .packet d l.length)
    (hl : l.length = h.remainingLength) (s : Str) :
    mqttUnpackBody h (l ++ s) = .packet d l.length := by
  have two {f : Unpacked Decoded} (hd : (if h.remainingLength ≠ 2 then
      .error .malformedResponse else f) = Unpacked.packet d l.length) : 1 < l.length := by
    split_ifs at hd with hr
    omega
  have pubxxx (hd : mqttUnpackPubxxxResponse h l = .packet d l.length) :
      mqttUnpackPubxxxResponse h (l ++ s) = .packet d l.length := by
    rw [mqttUnpackPubxxxResponse] at hd ⊢
    rw [mqttUnpackUint16_append (two hd)]
    exact hd
  rw [mqttUnpackBody] at hd ⊢
  split at hd
  · rw [mqttUnpackConnackResponse] at hd ⊢
    rw [byteAt_append (by have := two hd; omega), byteAt_append (two hd)]
    exact hd
  · rw [mqttUnpackPublishResponse] at hd ⊢
    dsimp only at hd ⊢
    by_cases hr : h.remainingLength < 4
    · rw [if_pos hr] at hd
      exact absurd hd (by simp)
    · rw [if_neg hr] at hd ⊢
      rw [mqttUnpackUint16_append (by omega)]
      -- the fields lie one behind the other, up to the end
      simp only [Unpacked.packet.injEq] at hd ⊢
      obtain ⟨hd, hlen⟩ := hd
      refine ⟨hd ▸ ?_, hlen⟩
      by_cases hq : 0 < (h.controlFlags &&& 6) >>> 1
      · simp only [if_pos hq] at hlen ⊢
        rw [field_append (by omega), field_append (by omega), mqttUnpackUint16_append (by omega)]
      · simp only [if_neg hq] at hlen ⊢
        rw [field_append (by omega), field_append (by omega)]
  · exact pubxxx hd
  · exact pubxxx hd
  · exact pubxxx hd
  · exact pubxxx hd
  · rw [mqttUnpackSubackResponse] at hd ⊢
    split_ifs at hd with hr
    · rw [if_neg hr, mqttUnpackUint16_append (by omega), field_append (by omega)]
      exact hd
  · rw [mqttUnpackUnsubackResponse] at hd ⊢
    rw [mqttUnpackUint16_append (two hd)]
    exact hd
  · exact hd
  · exact absurd hd (by simp)

end Body

/-! ### The packet -/

namespace WellFormed

variable {p : Str} {r : Response}

/-- The two parts of a packet, and that it is as long as its header says. -/
lemma parts (hp : WellFormed p r) :
    ∃ n, mqttUnpackFixedHeader p = .packet r.fixedHeader n ∧
      n + r.fixedHeader.remainingLength = p.length ∧
      mqttUnpackBody r.fixedHeader (p.drop n) = .packet r.decoded (p.drop n).length := by
  have hu := hp.unpack
  have hshort := hp.short
  rw [mqttUnpackResponse] at hu
  split at hu
  · exact absurd hu (by simp)
  · exact absurd hu (by simp)
  · rename_i h n hn
    obtain ⟨-, hle⟩ := mqttUnpackFixedHeader_packet hn
    split at hu
    · exact absurd hu (by simp)
    · exact absurd hu (by simp)
    · rename_i d k hk
      have hlen := mqttUnpackBody_length hk
      simp only [Unpacked.packet.injEq] at hu
      obtain ⟨rfl, hnk⟩ := hu
      have hdrop : (p.drop n).length = k := by
        rw [List.length_drop]
        omega
      dsimp only at hle hlen ⊢
      exact ⟨n, hn, by omega, by rw [hdrop]; exact hk⟩

lemma length_pos (hp : WellFormed p r) : 0 < p.length := by
  have := (mqttUnpackResponse_length hp.unpack).1
  omega

/-- **A packet is read as it is**, whatever follows it. -/
theorem append (hp : WellFormed p r) (s : Str) :
    mqttUnpackResponse (p ++ s) = .packet r p.length := by
  obtain ⟨n, hhead, hlen, hbody⟩ := hp.parts
  have hdrop : (p.drop n).length = r.fixedHeader.remainingLength := by
    rw [List.length_drop]
    omega
  rw [mqttUnpackResponse, mqttUnpackFixedHeader_append hhead]
  dsimp only
  rw [List.drop_append_of_le_length (by omega), mqttUnpackBody_append hbody hdrop, hdrop]
  dsimp only
  rw [hlen]

/-- **A part of a packet is not complete.** -/
theorem take (hp : WellFormed p r) {k : ℕ} (hk : k < p.length) :
    mqttUnpackResponse (p.take k) = .incomplete := by
  obtain ⟨n, hhead, hlen, -⟩ := hp.parts
  rw [mqttUnpackResponse, mqttUnpackFixedHeader_take hhead (by omega)]

end WellFormed

end SipEcho
