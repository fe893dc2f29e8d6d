import SipEcho.Bridge.Types

/-!
The DTMF relay body: `Signal=…` and `Duration=…`, read with `sscanf` and written with `sprintf`.

* `dtmfProto`, `dtmfText`: the reader and the writer;
* `dtmfProto_text`: an event whose signal is a key is read back;
* `dtmfProto_text_of_le`: any other signal ends the text before its duration, and nothing is
  read;
* `StableKey`, `dtmfSignal_lt_iff`: which keys, of up to three bytes, stand for a signal that has
  a byte.
-/

namespace SipEcho

/-! ### `sscanf` -/

/-- A blank in the format: any white space. -/
def scanBlanks (s : Str) : Str := s.dropWhile isspace

/-- A literal text in the format. -/
def scanText (text s : Str) : Option Str :=
  if text <+: s then some (s.drop text.length) else none

/-- `%max[…]`: at least one and at most `max` bytes of the set. -/
def scanSet (set : UInt8 → Bool) (max : ℕ) (s : Str) : Option (Str × Str) :=
  let key := (s.take max).takeWhile set
  if key = [] then none else some (key, s.drop key.length)

/-- A sign: whether it is a minus, and what follows it. -/
def scanSign : Str → Bool × Str
  | 45 :: rest => (true, rest)
  | 43 :: rest => (false, rest)
  | rest => (false, rest)

/-- `%u`: white space, a sign, digits, as `strtoul` reads them into 32 bits. -/
def scanUnsigned (s : Str) : Option UInt32 :=
  let (negative, s) := scanSign (scanBlanks s)
  if s.takeWhile (digitVal · < 10) = [] then none
  else
    let v := strtoulDigits 10 s
    some (UInt32.ofNat
      (if 2 ^ 64 ≤ v then 2 ^ 64 - 1 else if negative then 2 ^ 64 - v else v))

/-- `[0-9A-D*#]`. -/
def dtmfKey (c : UInt8) : Bool := (48 ≤ c ∧ c ≤ 57) ∨ (65 ≤ c ∧ c ≤ 68) ∨ c = 42 ∨ c = 35

/-- `sscanf(q, "Signal = %3[0-9A-D*#] Duration = %u", key, &duration)`, when it returns 2. -/
def dtmfScan (q : Str) : Option (Str × UInt32) := do
  let s ← scanText (str "Signal") q
  let s ← scanText (str "=") (scanBlanks s)
  let (key, s) ← scanSet dtmfKey 3 (scanBlanks s)
  let s ← scanText (str "Duration") (scanBlanks s)
  let s ← scanText (str "=") (scanBlanks s)
  let duration ← scanUnsigned (scanBlanks s)
  some (key, duration)

/-! ### The converters -/

/-- The signal of a key, by its first byte. -/
def dtmfSignal (key : Str) : UInt32 :=
  match key.headD 0 with
  | 42 => 0xA
  | 35 => 0xB
  | 65 | 66 | 67 | 68 => UInt32.ofNat (strtoulDigits 16 key) + 2
  | _ => UInt32.ofNat (strtoulDigits 10 key)

/-- `sip__type__dtmf__proto`. -/
def dtmfProto (q : Str) : Option SipDtmf := do
  let (key, duration) ← dtmfScan q
  some { signal := dtmfSignal key, duration }

/-- The byte `__content__unproto` writes for a signal. -/
def dtmfByte (signal : UInt32) : UInt8 :=
  if signal < 0xA then 48 + signal.toUInt8
  else if signal = 10 then 42
  else if signal = 11 then 35
  else if signal < 0x10 then 65 + signal.toUInt8 - 12
  else 0

/-- `sprintf(dtmf, "Signal=%c%sDuration=%u", …)`, the NUL it may contain included. -/
def dtmfText (p : SipDtmf) : Str :=
  str "Signal=" ++ [dtmfByte p.signal] ++ str "\r\n" ++ str "Duration=" ++
    decimal p.duration.toNat

/-! ### What is read back -/

lemma scanText_append (text rest : Str) : scanText text (text ++ rest) = some rest := by
  simp [scanText]

lemma scanBlanks_cons {c : UInt8} (h : isspace c = false) (rest : Str) :
    scanBlanks (c :: rest) = c :: rest := by
  simp [scanBlanks, h]

/-- A digit is no sign. -/
lemma scanSign_digit {c : UInt8} (h : 48 ≤ c) (rest : Str) :
    scanSign (c :: rest) = (false, c :: rest) := by
  rw [scanSign.eq_def]
  split
  · rename_i hc
    rw [(List.cons.inj hc).1] at h
    exact absurd h (by decide)
  · rename_i hc
    rw [(List.cons.inj hc).1] at h
    exact absurd h (by decide)
  · rfl

/-- A digit is no white space. -/
lemma isspace_digit {c : UInt8} (h : 48 ≤ c) : isspace c = false := by
  have h9 : (13 : UInt8).toNat = 13 := rfl
  have h32 : (32 : UInt8).toNat = 32 := rfl
  have h48 : (48 : UInt8).toNat = 48 := rfl
  simp only [isspace, decide_eq_false_iff_not, UInt8.le_iff_toNat_le, ← UInt8.toNat_inj] at h ⊢
  omega

/-- **A number that `%u` wrote, `%u` reads.** -/
lemma scanUnsigned_decimal (n : UInt32) : scanUnsigned (decimal n.toNat) = some n := by
  have hdigit : ∀ c ∈ decimal n.toNat, digitVal c < 10 := fun c hc => isdigit_of_mem_decimal hc
  have hvalue := strtoulDigits_decimal n.toNat
  have hlt := n.toNat_lt
  cases hd : decimal n.toNat with
  | nil => exact absurd hd (decimal_ne_nil _)
  | cons c l =>
      rw [hd] at hdigit hvalue
      have hc : digitVal c < 10 := hdigit c (by simp)
      have hlo := (digitVal_lt_ten hc).1
      have hsome : (c :: l).takeWhile (digitVal · < 10) ≠ [] := by simp [hc]
      simp only [scanUnsigned, scanBlanks_cons (isspace_digit hlo), scanSign_digit hlo,
        if_neg hsome, hvalue, Bool.false_eq_true, if_false]
      rw [if_neg (by omega)]
      simp

/-- The byte of a signal below 16 is a key, and the key gives the signal. -/
lemma dtmfSignal_byte {signal : UInt32} (h : signal < 0x10) :
    dtmfKey (dtmfByte signal) = true ∧ dtmfByte signal ≠ 0 ∧
      dtmfSignal [dtmfByte signal] = signal := by
  have hlt : signal.toNat < 16 := by simpa [UInt32.lt_iff_toNat_lt] using h
  obtain ⟨n, hn, rfl⟩ : ∃ n < 16, signal = UInt32.ofNat n :=
    ⟨signal.toNat, hlt, by simp⟩
  interval_cases n <;> decide

/-- A key is no white space. -/
lemma isspace_key {c : UInt8} (h : dtmfKey c = true) : isspace c = false := by
  have h9 : (9 : UInt8).toNat = 9 := rfl
  have h13 : (13 : UInt8).toNat = 13 := rfl
  have h32 : (32 : UInt8).toNat = 32 := rfl
  have h35 : (35 : UInt8).toNat = 35 := rfl
  have h42 : (42 : UInt8).toNat = 42 := rfl
  have h48 : (48 : UInt8).toNat = 48 := rfl
  have h65 : (65 : UInt8).toNat = 65 := rfl
  simp only [dtmfKey, isspace, decide_eq_true_eq, decide_eq_false_iff_not, UInt8.le_iff_toNat_le,
    ← UInt8.toNat_inj] at h ⊢
  omega

/-- `%3[…]` takes the one key there is. -/
lemma scanSet_key {c : UInt8} (h : dtmfKey c = true) (rest : Str) :
    scanSet dtmfKey 3 (c :: 13 :: rest) = some ([c], 13 :: rest) := by
  have hcr : dtmfKey 13 = false := by decide
  simp [scanSet, h, hcr]

/-- **A key is read back**, with its duration. -/
lemma dtmfProto_text {p : SipDtmf} (h : p.signal < 0x10) :
    dtmfProto (cstr (dtmfText p)) = some p := by
  obtain ⟨hkey, hne, hsignal⟩ := dtmfSignal_byte h
  have hnul : 0 ∉ dtmfText p := by
    simp only [dtmfText, List.mem_append, List.mem_singleton, not_or]
    refine ⟨⟨⟨⟨by decide, fun h => hne h.symm⟩, by decide⟩, by decide⟩, fun h0 => ?_⟩
    exact absurd (isdigit_of_mem_decimal h0) (by decide)
  have htext : dtmfText p = str "Signal" ++ (str "=" ++ (dtmfByte p.signal :: 13 :: 10 ::
      (str "Duration" ++ (str "=" ++ decimal p.duration.toNat)))) := by
    simp [dtmfText, str]
  have hblank : ∀ rest, scanBlanks (str "=" ++ rest) = str "=" ++ rest :=
    fun rest => scanBlanks_cons (by decide) rest
  have hcrlf : ∀ rest, scanBlanks (13 :: 10 :: (str "Duration" ++ rest)) = str "Duration" ++ rest :=
    fun rest => by simp [scanBlanks, str, isspace]
  have hduration : scanBlanks (decimal p.duration.toNat) = decimal p.duration.toNat := by
    obtain ⟨c, l, hd⟩ := List.exists_cons_of_ne_nil (decimal_ne_nil p.duration.toNat)
    have hc : digitVal c < 10 := isdigit_of_mem_decimal (by rw [hd]; simp)
    rw [hd]
    exact scanBlanks_cons (isspace_digit (digitVal_lt_ten hc).1) l
  have hscan : dtmfScan (dtmfText p) = some ([dtmfByte p.signal], p.duration) := by
    simp only [dtmfScan, htext, scanText_append, hblank, scanBlanks_cons (isspace_key hkey),
      scanSet_key hkey, hcrlf, hduration, scanUnsigned_decimal, Option.bind_eq_bind,
      Option.bind_some]
  rw [cstr_of_not_mem hnul, dtmfProto, hscan]
  simp [hsignal]

/-- **Any other signal is lost**: its byte is the NUL that ends the text. -/
lemma dtmfProto_text_of_le {p : SipDtmf} (h : 0x10 ≤ p.signal) :
    dtmfProto (cstr (dtmfText p)) = none := by
  have hbyte : dtmfByte p.signal = 0 := by
    simp only [dtmfByte, UInt32.lt_iff_toNat_lt, UInt32.le_iff_toNat_le, ← UInt32.toNat_inj] at h ⊢
    have h10 : (10 : UInt32).toNat = 10 := rfl
    have h11 : (11 : UInt32).toNat = 11 := rfl
    have h16 : (16 : UInt32).toNat = 16 := rfl
    split_ifs <;> first | omega | rfl
  have htext : cstr (dtmfText p) = str "Signal=" := by
    simp [cstr, dtmfText, hbyte, str]
  rw [htext]
  decide

/-- No NUL is written for a signal that has a byte. -/
lemma nul_not_mem_dtmfText {p : SipDtmf} (h : p.signal < 0x10) : 0 ∉ dtmfText p := by
  obtain ⟨-, hne, -⟩ := dtmfSignal_byte h
  simp only [dtmfText, List.mem_append, List.mem_singleton, not_or]
  refine ⟨⟨⟨⟨by decide, fun h => hne h.symm⟩, by decide⟩, by decide⟩, fun h0 => ?_⟩
  exact absurd (isdigit_of_mem_decimal h0) (by decide)

/-! ### Keys -/

/-- `*` or `#` first; or a letter with no digit or letter behind it; or digits first that make a
number below 16. -/
def StableKey : Str → Prop
  | [] => False
  | c :: rest =>
      c = 42 ∨ c = 35 ∨ (65 ≤ c ∧ c ≤ 68 ∧ ∀ d ∈ rest.head?, d = 42 ∨ d = 35) ∨
        (48 ≤ c ∧ c ≤ 57 ∧ strtoulDigits 10 (c :: rest) < 16)

instance : DecidablePred StableKey
  | [] => isFalse id
  | _ :: rest =>
      have := Option.decidableForallMem (p := fun d : UInt8 => d = 42 ∨ d = 35) rest.head?
      inferInstanceAs (Decidable (_ ∨ _ ∨ _ ∨ _))

/-- What `%3[…]` takes. -/
lemma scanSet_some {set : UInt8 → Bool} {max : ℕ} {s key rest : Str}
    (h : scanSet set max s = some (key, rest)) :
    key ≠ [] ∧ key.length ≤ max ∧ ∀ c ∈ key, set c = true := by
  rw [scanSet] at h
  split at h
  · exact absurd h (by simp)
  · rename_i hne
    obtain ⟨rfl, -⟩ := Prod.mk.inj (Option.some.inj h)
    refine ⟨hne, ?_, fun c hc => List.mem_takeWhile_imp hc⟩
    exact (List.takeWhile_prefix _).length_le.trans (by simp)

/-- The key of a body that is read. -/
lemma dtmfScan_key {q key : Str} {duration : UInt32} (h : dtmfScan q = some (key, duration)) :
    key ≠ [] ∧ key.length ≤ 3 ∧ ∀ c ∈ key, dtmfKey c = true := by
  simp only [dtmfScan, Option.bind_eq_bind, Option.bind_eq_some_iff, Option.some.injEq] at h
  obtain ⟨s₁, -, s₂, -, ⟨key', s₃⟩, hset, s₄, -, s₅, -, duration', -, hpair⟩ := h
  obtain ⟨rfl, -⟩ := Prod.mk.inj hpair
  exact scanSet_some hset

/-- More digits make no smaller number. -/
lemma le_strtoul_foldl (base n : ℕ) (l : Str) (hbase : 1 ≤ base) :
    n ≤ l.foldl (fun n c => base * n + digitVal c) n := by
  induction l generalizing n with
  | nil => exact le_rfl
  | cons c l ih =>
      refine le_trans ?_ (ih _)
      nlinarith

/-- So many digits make a number below that power of the base. -/
lemma strtoulDigits_lt (base : ℕ) (s : Str) (hbase : 1 ≤ base) :
    strtoulDigits base s < base ^ s.length := by
  have hfold : ∀ (l : Str) (n : ℕ), (∀ c ∈ l, digitVal c < base) →
      l.foldl (fun n c => base * n + digitVal c) n < (n + 1) * base ^ l.length := by
    intro l
    induction l with
    | nil => intro n _; simp
    | cons c l ih =>
        intro n hl
        have hc := hl c List.mem_cons_self
        refine (ih _ fun d hd => hl d (List.mem_cons_of_mem c hd)).trans_le ?_
        rw [List.length_cons, pow_succ', ← mul_assoc]
        exact Nat.mul_le_mul_right _ (by nlinarith)
  have hdigits := hfold (s.takeWhile (digitVal · < base)) 0 fun c hc => by
    simpa using List.mem_takeWhile_imp hc
  rw [zero_add, one_mul] at hdigits
  exact hdigits.trans_le (Nat.pow_le_pow_right hbase (List.takeWhile_prefix _).length_le)

/-- The bytes of a key. -/
lemma dtmfKey_cases {c : UInt8} (h : dtmfKey c = true) :
    c = 42 ∨ c = 35 ∨ (65 ≤ c ∧ c ≤ 68 ∧ 10 ≤ digitVal c ∧ digitVal c < 14) ∨
      (48 ≤ c ∧ c ≤ 57 ∧ digitVal c < 10) := by
  have h48 : (48 : UInt8).toNat = 48 := rfl
  have h57 : (57 : UInt8).toNat = 57 := rfl
  have h65 : (65 : UInt8).toNat = 65 := rfl
  have h68 : (68 : UInt8).toNat = 68 := rfl
  have h90 : (90 : UInt8).toNat = 90 := rfl
  simp only [dtmfKey, decide_eq_true_eq] at h
  rcases h with h | h | h | h
  · refine .inr (.inr (.inr ⟨h.1, h.2, ?_⟩))
    rw [digitVal, if_pos h]
    simp only [UInt8.le_iff_toNat_le] at h
    omega
  · refine .inr (.inr (.inl ⟨h.1, h.2, ?_⟩))
    simp only [UInt8.le_iff_toNat_le] at h
    have hnot : ¬ (48 ≤ c ∧ c ≤ 57) := by simp only [UInt8.le_iff_toNat_le]; omega
    have hletter : 65 ≤ c ∧ c ≤ 90 := by simp only [UInt8.le_iff_toNat_le]; omega
    rw [digitVal, if_neg hnot, if_pos hletter]
    omega
  · exact .inl h
  · exact .inr (.inl h)

/-- A key that begins with a letter: its number is small when no digit or letter follows. -/
lemma letter_lt_iff {c : UInt8} {rest : Str} (hc : 10 ≤ digitVal c ∧ digitVal c < 14)
    (hrest : ∀ d ∈ rest, dtmfKey d = true) :
    strtoulDigits 16 (c :: rest) < 14 ↔ ∀ d ∈ rest.head?, d = 42 ∨ d = 35 := by
  rw [strtoulDigits, List.takeWhile_cons_of_pos (by simpa using hc.2.trans (by omega)),
    List.foldl_cons]
  cases rest with
  | nil => simpa using hc.2
  | cons d tail =>
      simp only [List.head?_cons, Option.mem_some_iff, forall_eq']
      by_cases hd : d = 42 ∨ d = 35
      · have hstop : ¬ digitVal d < 16 := by rcases hd with rfl | rfl <;> decide
        rw [List.takeWhile_cons_of_neg (by simpa using hstop)]
        simpa [hd] using hc.2
      · have hdigit : digitVal d < 16 := by
          rcases dtmfKey_cases (hrest d List.mem_cons_self) with h | h | h | h
          · exact absurd (.inl h) hd
          · exact absurd (.inr h) hd
          · exact h.2.2.2.trans (by decide)
          · exact h.2.2.trans (by decide)
        rw [List.takeWhile_cons_of_pos (by simpa using hdigit), List.foldl_cons]
        refine iff_of_false ?_ hd
        have := le_strtoul_foldl 16 (16 * (16 * 0 + digitVal c) + digitVal d)
          (tail.takeWhile (digitVal · < 16)) (by omega)
        omega

lemma dtmfSignal_letter {c : UInt8} {rest : Str} (hlow : 65 ≤ c) (hhigh : c ≤ 68) :
    dtmfSignal (c :: rest) = UInt32.ofNat (strtoulDigits 16 (c :: rest)) + 2 := by
  obtain rfl | rfl | rfl | rfl : c = 65 ∨ c = 66 ∨ c = 67 ∨ c = 68 := by
    have h65 : (65 : UInt8).toNat = 65 := rfl
    have h66 : (66 : UInt8).toNat = 66 := rfl
    have h67 : (67 : UInt8).toNat = 67 := rfl
    have h68 : (68 : UInt8).toNat = 68 := rfl
    simp only [UInt8.le_iff_toNat_le, ← UInt8.toNat_inj] at *
    omega
  all_goals rfl

lemma dtmfSignal_digit {c : UInt8} {rest : Str} (hlow : 48 ≤ c) (hhigh : c ≤ 57) :
    dtmfSignal (c :: rest) = UInt32.ofNat (strtoulDigits 10 (c :: rest)) := by
  rw [dtmfSignal, List.headD_cons]
  split
  · exact absurd hlow (by decide)
  · exact absurd hlow (by decide)
  all_goals first | exact absurd hhigh (by decide) | rfl

/-- **The keys whose signal has a byte.** -/
lemma dtmfSignal_lt_iff {key : Str} (hne : key ≠ []) (hlength : key.length ≤ 3)
    (hkey : ∀ c ∈ key, dtmfKey c = true) : dtmfSignal key < 0x10 ↔ StableKey key := by
  cases key with
  | nil => exact absurd rfl hne
  | cons c rest =>
      have hrest : ∀ d ∈ rest, dtmfKey d = true := fun d hd => hkey d (List.mem_cons_of_mem c hd)
      have hbound (base : ℕ) (hbase : 1 ≤ base) : strtoulDigits base (c :: rest) < base ^ 3 :=
        (strtoulDigits_lt base _ hbase).trans_le (Nat.pow_le_pow_right hbase hlength)
      have hten : (0x10 : UInt32).toNat = 16 := rfl
      have htwo : (2 : UInt32).toNat = 2 := rfl
      have h10 := hbound 10 (by omega)
      have h16 := hbound 16 (by omega)
      rcases dtmfKey_cases (hkey c List.mem_cons_self) with rfl | rfl | ⟨hlow, hhigh, hc⟩ | hc
      · exact iff_of_true (show (0xA : UInt32) < 0x10 by decide) (.inl rfl)
      · exact iff_of_true (show (0xB : UInt32) < 0x10 by decide) (.inr (.inl rfl))
      · have hsmall : dtmfSignal (c :: rest) < 0x10 ↔ strtoulDigits 16 (c :: rest) < 14 := by
          rw [dtmfSignal_letter hlow hhigh, UInt32.lt_iff_toNat_lt, UInt32.toNat_add,
            UInt32.toNat_ofNat', hten, htwo]
          omega
        have h42 : c ≠ 42 := by rintro rfl; exact absurd hlow (by decide)
        have h35 : c ≠ 35 := by rintro rfl; exact absurd hlow (by decide)
        have hdigit : ¬ c ≤ 57 := fun h => absurd (UInt8.le_trans hlow h) (by decide)
        simp only [hsmall, letter_lt_iff hc hrest, StableKey, h42, h35, hlow, hhigh, hdigit,
          false_or, true_and, false_and, and_false, or_false]
      · have hsmall : dtmfSignal (c :: rest) < 0x10 ↔ strtoulDigits 10 (c :: rest) < 16 := by
          rw [dtmfSignal_digit hc.1 hc.2.1, UInt32.lt_iff_toNat_lt, UInt32.toNat_ofNat', hten]
          omega
        have h42 : c ≠ 42 := by rintro rfl; exact absurd hc.1 (by decide)
        have h35 : c ≠ 35 := by rintro rfl; exact absurd hc.1 (by decide)
        have hletter : ¬ 65 ≤ c := fun h => absurd (UInt8.le_trans h hc.2.1) (by decide)
        simp only [hsmall, StableKey, h42, h35, hc.1, hc.2.1, hletter, false_or, true_and,
          false_and]

end SipEcho
