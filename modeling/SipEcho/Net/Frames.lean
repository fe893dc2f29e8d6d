import SipEcho.Net.SipRead

/-!
The frames of a SIP byte stream.

`sip_read` looks for the end of a header in the bytes that happen to have arrived, so a stream
has frames of its own only where the answer does not depend on how many those are.

* `HeaderAt cap s t h`: the header of `s` ends at `t` and its terminator at `h`, and no prefix of
  up to `cap` bytes suggests another end;
* `Closed text`: the value of the `Content-Length` of a header is not blank, so `atoi` stops
  inside the header;
* `Delimited cap s n w`: the frame of `n` bytes at the front of `s`, recognised after `w` bytes;
* `headerEnd_take`, `contentLength_append`: what `sip_read` finds in a prefix of the stream, with
  any bytes behind it.
-/

namespace SipEcho

/-- The header at the front of a stream. -/
inductive HeaderAt (cap : ℕ) (s : Str) : ℕ → ℕ → Prop
  | crlf {t : ℕ} : memmem CRLFCRLF s = some t → memmem LFLF (s.take t) = none →
      HeaderAt cap s t (t + 4)
  | lf {t : ℕ} : memmem LFLF s = some t → memmem CRLFCRLF (s.take cap) = none →
      HeaderAt cap s t (t + 2)

/-- The value of `Content-Length`, if there is one, is not blank. -/
def Closed (text : Str) : Prop :=
  ∀ p, contentLengthValue (text.length + 1) text text.length = some p →
    ∃ b ∈ text.drop p, isspace b = false

/-- The frame at the front of a stream: `n` bytes, recognised when header and body are there. -/
structure Delimited (cap : ℕ) (s : Str) (n w : ℕ) : Prop where
  header : ∃ t h, HeaderAt cap s t h ∧ Closed (s.take t) ∧
    (n : ℤ) = h + contentLength (s.take t) (s.take t).length ∧ w = max h n
  pos : 0 < n
  fits : w ≤ cap

/-- No header ends in the stream. -/
def Headless (s : Str) : Prop := memmem CRLFCRLF s = none ∧ memmem LFLF s = none

/-! ### The end of the header -/

section Header

variable {cap : ℕ} {s : Str} {t h : ℕ}

/-- In front of a `CRLFCRLF` the first three bytes of it do not complete an `LFLF`. -/
lemma memmem_LFLF_take (hs : memmem CRLFCRLF s = some t) (hn : memmem LFLF (s.take t) = none)
    {k : ℕ} (hk : k < t + 4) : memmem LFLF (s.take k) = none := by
  obtain ⟨⟨r, hr⟩, -, -⟩ := memmem_eq_some.mp hs
  have hbyte (i : ℕ) (b : UInt8) (hb : (CRLFCRLF ++ r)[i]? = some b) : s[t + i]? = some b := by
    rw [hr, List.getElem?_drop] at hb
    exact hb
  have h0 : s[t]? = some 13 := hbyte 0 13 rfl
  have h2 : s[t + 2]? = some 13 := hbyte 2 13 rfl
  refine memmem_eq_none.mpr fun j hj hp => ?_
  have hlf (i : ℕ) (hi : i < 2) : s[j + i]? = some 10 ∧ j + i < k := by
    obtain ⟨q, hq⟩ := hp
    have hb : (LFLF ++ q)[i]? = some 10 := by
      interval_cases i <;> rfl
    rw [hq, List.getElem?_drop, List.getElem?_take] at hb
    split at hb
    · rename_i hlt
      exact ⟨hb, hlt⟩
    · exact absurd hb (by simp)
  obtain ⟨hj0, -⟩ := hlf 0 (by decide)
  obtain ⟨hj1, hj1'⟩ := hlf 1 (by decide)
  -- neither byte of the `LFLF` is one of the two carriage returns
  have hne : j ≠ t ∧ j + 1 ≠ t ∧ j ≠ t + 2 ∧ j + 1 ≠ t + 2 := by
    refine ⟨?_, ?_, ?_, ?_⟩ <;> intro he
    · rw [Nat.add_zero, he, h0] at hj0
      exact absurd hj0 (by decide)
    · rw [he, h0] at hj1
      exact absurd hj1 (by decide)
    · rw [Nat.add_zero, he, h2] at hj0
      exact absurd hj0 (by decide)
    · rw [he, h2] at hj1
      exact absurd hj1 (by decide)
  refine memmem_eq_none.mp hn j ?_ ?_
  · have := memmem_length hs
    rw [List.length_take]
    omega
  · rw [List.drop_take] at hp ⊢
    refine List.prefix_take_iff.mpr ⟨hp.trans (List.take_prefix _ _), ?_⟩
    show 2 ≤ t - j
    omega

/-- **What is found in a prefix**: the header, as soon as it has arrived. -/
lemma headerEnd_take (hs : HeaderAt cap s t h) {k : ℕ} (hk : k ≤ cap) :
    headerEnd (s.take k) = if h ≤ k then some (t, h) else none := by
  cases hs with
  | crlf h1 h2 =>
      split
      · rename_i hle
        rw [headerEnd, memmem_take_of_le h1 hle]
      · rename_i hlt
        rw [headerEnd, memmem_take_of_lt h1 (by show k < t + 4; omega),
          memmem_LFLF_take h1 h2 (by omega)]
        rfl
  | lf h1 h2 =>
      have hnone : memmem CRLFCRLF (s.take k) = none := by
        have : s.take k = (s.take cap).take k := by rw [List.take_take, Nat.min_eq_left hk]
        rw [this]
        exact memmem_take_eq_none h2 k
      split
      · rename_i hle
        rw [headerEnd, hnone, memmem_take_of_le h1 hle]
        rfl
      · rename_i hlt
        rw [headerEnd, hnone, memmem_take_of_lt h1 (by show k < t + 2; omega)]
        rfl

/-- The byte the header ends at is no part of a number, and no blank of a header line. -/
lemma headerAt_byte (hs : HeaderAt cap s t h) :
    t < h ∧ h ≤ s.length ∧ ∃ c r, s.drop t = c :: r ∧ (c = 13 ∨ c = 10) := by
  cases hs with
  | crlf h1 h2 =>
      have hlen := memmem_length h1
      obtain ⟨⟨r, hr⟩, -, -⟩ := memmem_eq_some.mp h1
      exact ⟨by omega, hlen, 13, [10, 13, 10] ++ r, hr.symm.trans rfl, Or.inl rfl⟩
  | lf h1 h2 =>
      have hlen := memmem_length h1
      obtain ⟨⟨r, hr⟩, -, -⟩ := memmem_eq_some.mp h1
      exact ⟨by omega, hlen, 10, [10] ++ r, hr.symm.trans rfl, Or.inr rfl⟩

lemma headerEnd_take_headless (hs : Headless s) (k : ℕ) : headerEnd (s.take k) = none := by
  rw [headerEnd, memmem_take_eq_none hs.1, memmem_take_eq_none hs.2]
  rfl

/-- A stream has one header end. -/
lemma headerAt_unique {t' h' : ℕ} (hs : HeaderAt cap s t h) (hs' : HeaderAt cap s t' h')
    (hh : h ≤ cap) (hh' : h' ≤ cap) : t = t' ∧ h = h' := by
  have h1 := headerEnd_take hs hh
  have h2 := headerEnd_take hs' hh'
  rcases le_total h h' with hle | hle
  · have h3 := headerEnd_take hs hh'
    rw [if_pos hle] at h3
    rw [if_pos le_rfl, h3] at h2
    simpa using h2
  · have h3 := headerEnd_take hs' hh
    rw [if_pos hle] at h3
    rw [if_pos le_rfl, h3] at h1
    have := Option.some.inj h1
    simp only [Prod.mk.injEq] at this
    exact ⟨this.1.symm, this.2.symm⟩

lemma HeaderAt.not_headless (hs : HeaderAt cap s t h) : ¬ Headless s := by
  rintro ⟨h1, h2⟩
  cases hs with
  | crlf h _ => exact absurd (h1.symm.trans h) (by simp)
  | lf h _ => exact absurd (h2.symm.trans h) (by simp)

end Header

/-! ### The declared length -/

section Length

variable {x y : Str} {c : UInt8}

lemma blanks_le (x : Str) : blanks x ≤ x.length := (List.takeWhile_sublist _).length_le

lemma blanks_append (hc : c = 13 ∨ c = 10) : blanks (x ++ c :: y) = blanks x := by
  have hc' : ¬ (c = 32 ∨ c = 9) := by rcases hc with rfl | rfl <;> decide
  rw [blanks, blanks]
  induction x with
  | nil => simp [hc']
  | cons b x ih =>
      rw [List.cons_append, List.takeWhile_cons, List.takeWhile_cons]
      split
      · rw [List.length_cons, List.length_cons, ih]
      · rfl

lemma contentLengthName_le {n p : ℕ} (h : contentLengthName x n = some p) : p ≤ n := by
  rw [contentLengthName] at h
  split at h
  · rename_i i hi
    cases h
    have := strncasestr_length hi
    have hlen : (str "content-length").length = 14 := by decide
    omega
  · obtain ⟨i, hi, rfl⟩ := Option.map_eq_some_iff.mp h
    have := strncasestr_length hi
    have hlen : (str "l").length = 1 := by decide
    omega

lemma contentLengthName_append (x y : Str) :
    contentLengthName (x ++ y) x.length = contentLengthName x x.length := by
  rw [contentLengthName, contentLengthName, strncasestr_append, strncasestr_append]

/-- The value begins inside the header. -/
lemma contentLengthValue_le {fuel p : ℕ} (h : contentLengthValue fuel x x.length = some p) :
    p ≤ x.length := by
  induction fuel generalizing x p with
  | zero => exact absurd h (by simp [contentLengthValue])
  | succ fuel ih =>
      rw [contentLengthValue] at h
      split at h
      · exact absurd h (by simp)
      · rename_i q hq
        have hqn := contentLengthName_le hq
        have hb := blanks_le (x.drop q)
        rw [List.length_drop] at hb
        dsimp only at h
        split at h
        · rename_i hcolon
          cases h
          have hb' := blanks_le (x.drop (q + blanks (x.drop q) + 1))
          rw [List.length_drop] at hb'
          have hlt : q + blanks (x.drop q) < x.length := by
            by_contra hge
            rw [List.drop_of_length_le (by omega)] at hcolon
            exact absurd hcolon (by simp)
          omega
        · obtain ⟨k, hk, rfl⟩ := Option.map_eq_some_iff.mp h
          have hlen : (x.drop (q + blanks (x.drop q))).length =
              x.length - (q + blanks (x.drop q)) := List.length_drop
          rw [← hlen] at hk
          have := ih hk
          rw [hlen] at this
          omega

/-- **The search stays inside the header**: what follows the line break behind it is not looked
at. -/
lemma contentLengthValue_append (hc : c = 13 ∨ c = 10) (fuel : ℕ) :
    contentLengthValue fuel (x ++ c :: y) x.length = contentLengthValue fuel x x.length := by
  induction fuel generalizing x with
  | zero => rfl
  | succ fuel ih =>
      rw [contentLengthValue, contentLengthValue, contentLengthName_append]
      cases hq : contentLengthName x x.length with
      | none => rfl
      | some q =>
          have hqn := contentLengthName_le hq
          have hdrop (i : ℕ) (hi : i ≤ x.length) :
              (x ++ c :: y).drop i = x.drop i ++ c :: y := List.drop_append_of_le_length hi
          dsimp only
          rw [hdrop q hqn, blanks_append hc]
          have hb := blanks_le (x.drop q)
          rw [List.length_drop] at hb
          have hpn : q + blanks (x.drop q) ≤ x.length := by omega
          generalize q + blanks (x.drop q) = p at hpn ⊢
          rw [hdrop p hpn]
          cases hx : x.drop p with
          | nil =>
              have hcolon : ¬ (([] ++ c :: y : Str).head? = some 58) := by
                rcases hc with rfl | rfl <;> simp
              have hlen : x.length - p = ([] : Str).length := by
                have := congrArg List.length hx
                rwa [List.length_drop] at this
              rw [if_neg hcolon, if_neg (by simp), hlen, ih]
          | cons b l =>
              have hlen : x.length - p = (b :: l).length := by
                rw [← hx, List.length_drop]
              have hdrop' : x.drop (p + 1) = l := by
                rw [← List.drop_drop, hx]
                rfl
              rw [hlen, ih, hdrop (p + 1) (by rw [List.length_cons] at hlen; omega), hdrop',
                blanks_append hc]
              rfl

/-- **The declared length is a matter of the header**, when its value is not blank. -/
theorem contentLength_append (hx : Closed x) (hc : c = 13 ∨ c = 10) (y : Str) :
    contentLength (x ++ c :: y) x.length = contentLength x x.length := by
  have hdigit : isdigit c = false := by rcases hc with rfl | rfl <;> decide
  rw [contentLength, contentLength, contentLengthValue_append hc]
  cases hp : contentLengthValue (x.length + 1) x x.length with
  | none => rfl
  | some p =>
      have hle := contentLengthValue_le hp
      dsimp only
      rw [List.drop_append_of_le_length hle, atoi_append (hx p hp) hdigit]

end Length

end SipEcho
