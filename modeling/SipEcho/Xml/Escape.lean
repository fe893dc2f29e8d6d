import SipEcho.Lib.Block
import SipEcho.Map.Delete
import SipEcho.Xml.Feed

/-!
`xml_text_escape2` and `xml_text_unescape` in the memory of their callers.

* `xmlTextEscape2`, `xmlTextUnescape`: the code; `sprintf` writes a NUL behind each escape, and the
  two bytes behind a `%` are read wherever the text ends;
* `percentEncoded`, `percentDecoded`: what they make of a text;
* `EscapeFits`, `EscapesComplete`: where they stay in the buffer, and in the text;
* `percentDecoded_encoded`: a text is decoded as it was exactly when it has no `%` and no `+`;
* `escape_iff`: **each part of the round trip holds exactly there**; `escape_fails`: a blank, a `+`,
  and a `%` at the end.
-/

namespace SipEcho

open Lib

/-! ### The code -/

/-- `ispunct`. -/
def ispunct (c : UInt8) : Bool :=
  (33 ≤ c ∧ c ≤ 47) ∨ (58 ≤ c ∧ c ≤ 64) ∨ (91 ≤ c ∧ c ≤ 96) ∨ (123 ≤ c ∧ c ≤ 126)

/-- A byte that `xml_text_escape2` keeps. -/
def isLiteral (c : UInt8) : Bool := isalnum c || ispunct c

/-- A digit of `%X`. -/
def hexDigit (n : ℕ) : UInt8 := if n < 10 then (48 + n).toUInt8 else (55 + n).toUInt8

/-- `%%%02X`. -/
def escapeBytes (c : UInt8) : Str := [37, hexDigit (c.toNat / 16), hexDigit (c.toNat % 16)]

/-- The loop of `xml_text_escape2`: the buffer, and the length of the text in it. -/
def xmlTextEscapeLoop (size : ℕ) : Str → Str → ℕ → Except Fault (Str × ℕ)
  | [], buff, l => return (buff, l)
  | c :: text, buff, l =>
      if l < size then
        if isLiteral c then do
          let buff ← store .crash buff l c
          xmlTextEscapeLoop size text buff (l + 1)
        else do
          let buff ← storeAll .crash buff l (escapeBytes c ++ [0])
          xmlTextEscapeLoop size text buff (l + 3)
      else return (buff, l)

/-- `xml_text_escape2`. -/
def xmlTextEscape2 (text buff : Str) (size : ℕ) : Except Fault (Str × ℕ) :=
  xmlTextEscapeLoop size text buff 0

/-- `strtol` in base sixteen of two bytes, as a `char`. -/
def hexByte (a b : UInt8) : UInt8 := ((strtolBy hexDigits (cstr [a, b])) % 256).toNat.toUInt8

/-- The loop of `xml_text_unescape`, with what is in memory from here on, of which the first `n`
bytes belong to the text. -/
def xmlTextUnescapeLoop (length : ℕ) : Str → ℕ → Str → ℕ → Except Fault (Str × ℕ)
  | [], n, buff, l => if n ≠ 0 ∧ l < length then throw .crash else return (buff, l)
  | c :: block, n, buff, l =>
      if n ≠ 0 ∧ l < length then
        if c = 37 then
          match block with
          | a :: b :: rest => do
              let buff ← store .crash buff l (hexByte a b)
              xmlTextUnescapeLoop length rest (n - 3) buff (l + 1)
          | _ => throw .crash
        else do
          let buff ← store .crash buff l (if c = 43 then 32 else c)
          xmlTextUnescapeLoop length block (n - 1) buff (l + 1)
      else return (buff, l)

/-- `xml_text_unescape` of the first `n` bytes of a block. -/
def xmlTextUnescape (block : Str) (n : ℕ) (buff : Str) (length : ℕ) : Except Fault (Str × ℕ) :=
  xmlTextUnescapeLoop length block n buff 0

/-! ### Texts -/

/-- A byte as it is written. -/
def encodedByte (c : UInt8) : Str := if isLiteral c then [c] else escapeBytes c

/-- A text as it is written. -/
def percentEncoded (text : Str) : Str := text.flatMap encodedByte

/-- A text as it is read, when there are NULs behind it. -/
def percentDecoded : Str → Str
  | [] => []
  | c :: text =>
      if c = 37 then
        match text with
        | a :: b :: rest => hexByte a b :: percentDecoded rest
        | [a] => [hexByte a 0]
        | [] => [hexByte 0 0]
      else (if c = 43 then 32 else c) :: percentDecoded text

/-- Each of the first `k` characters that is an escape has both its digits in the text. -/
def EscapesComplete : ℕ → Str → Prop
  | 0, _ => True
  | _ + 1, [] => True
  | k + 1, c :: text =>
      if c = 37 then
        match text with
        | _ :: _ :: rest => EscapesComplete k rest
        | _ => False
      else EscapesComplete k text

/-- Each escape that begins in the buffer fits into it, with the NUL behind it. -/
def EscapeFits (size l : ℕ) (text : Str) : Prop :=
  ∀ before c after, text = before ++ c :: after → isLiteral c = false →
    l + (percentEncoded before).length < size → l + (percentEncoded before).length + 4 ≤ size

section Bytes

variable {c : UInt8} {s text : Str}

lemma isLiteral_hexDigit {n : ℕ} (hn : n < 16) :
    isLiteral (hexDigit n) = true ∧ hexDigit n ≠ 37 ∧ hexDigit n ≠ 43 := by
  interval_cases n <;> decide

/-- Two digits in base sixteen. -/
lemma strtol_hexDigits : ∀ m < 16, ∀ n < 16,
    strtolBy hexDigits (cstr [hexDigit m, hexDigit n]) = (16 * m + n : ℕ) := by
  decide +kernel

/-- **An escape is read as the byte it stands for.** -/
lemma hexByte_hexDigit (c : UInt8) :
    hexByte (hexDigit (c.toNat / 16)) (hexDigit (c.toNat % 16)) = c := by
  have hc := c.toNat_lt
  rw [hexByte, strtol_hexDigits _ (by omega) _ (by omega), Nat.div_add_mod,
    Int.emod_eq_of_lt (by omega) (by omega), Int.toNat_natCast]
  exact UInt8.ofNat_toNat

/-! ### Decoding what was encoded -/

lemma percentEncoded_cons (c : UInt8) (s : Str) :
    percentEncoded (c :: s) = encodedByte c ++ percentEncoded s := List.flatMap_cons

lemma encodedByte_literal (hc : isLiteral c = true) : encodedByte c = [c] := if_pos hc

lemma encodedByte_escape (hc : isLiteral c = false) : encodedByte c = escapeBytes c :=
  if_neg (by rw [hc]; decide)

/-- A mark takes two bytes. -/
lemma percentDecoded_take (a b : UInt8) :
    percentDecoded (37 :: a :: b :: text) = hexByte a b :: percentDecoded text := by
  rw [percentDecoded.eq_def]
  exact if_pos rfl

lemma percentDecoded_ne (h37 : c ≠ 37) :
    percentDecoded (c :: text) = (if c = 43 then 32 else c) :: percentDecoded text := by
  rw [percentDecoded.eq_def]
  exact if_neg h37

/-- A byte that is no mark is itself. -/
lemma percentDecoded_cons (h37 : c ≠ 37) (h43 : c ≠ 43) :
    percentDecoded (c :: text) = c :: percentDecoded text := by
  rw [percentDecoded_ne h37, if_neg h43]

lemma percentDecoded_escape (c : UInt8) :
    percentDecoded (escapeBytes c ++ text) = c :: percentDecoded text := by
  rw [escapeBytes]
  exact (percentDecoded_take _ _).trans (congrArg (· :: _) (hexByte_hexDigit c))

/-- The digit of an escape that was cut in front of it. -/
lemma percentDecoded_digit {n : ℕ} (hn : n < 16) :
    percentDecoded (hexDigit n :: text) = hexDigit n :: percentDecoded text :=
  percentDecoded_cons (isLiteral_hexDigit hn).2.1 (isLiteral_hexDigit hn).2.2

/-- What is read of a byte and what follows. -/
lemma percentDecoded_encoded_cons (hc : c ≠ 37) :
    percentDecoded (percentEncoded (c :: s)) =
      (if c = 43 then 32 else c) :: percentDecoded (percentEncoded s) := by
  rw [percentEncoded_cons]
  by_cases hliteral : isLiteral c = true
  · rw [encodedByte_literal hliteral, List.singleton_append, percentDecoded_ne hc]
  · have h43 : c ≠ 43 := by
      rintro rfl
      exact hliteral (by decide)
    rw [encodedByte_escape (Bool.not_eq_true _ ▸ hliteral), percentDecoded_escape, if_neg h43]

/-- What a `%` in front of two literal bytes leaves of them. -/
lemma percentDecoded_mark {d e : UInt8} (hd : isLiteral d = true) (he : isLiteral e = true) :
    percentDecoded (37 :: percentEncoded (d :: e :: s)) =
      hexByte d e :: percentDecoded (percentEncoded s) := by
  rw [percentEncoded_cons, percentEncoded_cons, encodedByte_literal hd, encodedByte_literal he,
    List.singleton_append, List.singleton_append, percentDecoded_take]

/-- In front of a literal byte and an escape, the digits are left. -/
lemma percentDecoded_mark_literal {d e : UInt8} (hd : isLiteral d = true)
    (he : isLiteral e = false) : percentDecoded (37 :: percentEncoded (d :: e :: s)) =
      hexByte d 37 :: hexDigit (e.toNat / 16) :: hexDigit (e.toNat % 16) ::
        percentDecoded (percentEncoded s) := by
  have he' := e.toNat_lt
  rw [percentEncoded_cons, percentEncoded_cons, encodedByte_literal hd, encodedByte_escape he,
    List.singleton_append, escapeBytes, List.cons_append, percentDecoded_take]
  exact congrArg _ ((percentDecoded_digit (by omega)).trans
    (congrArg _ (percentDecoded_digit (by omega))))

/-- In front of an escape, the second digit is left. -/
lemma percentDecoded_mark_escape {d : UInt8} (hd : isLiteral d = false) :
    percentDecoded (37 :: percentEncoded (d :: s)) =
      hexByte 37 (hexDigit (d.toNat / 16)) :: hexDigit (d.toNat % 16) ::
        percentDecoded (percentEncoded s) := by
  have hd' := d.toNat_lt
  rw [percentEncoded_cons, encodedByte_escape hd, escapeBytes, List.cons_append, List.cons_append,
    percentDecoded_take]
  exact congrArg _ (percentDecoded_digit (by omega))

/-- The text that is read is not longer. -/
lemma length_percentDecoded_encoded (n : ℕ) (hn : s.length ≤ n) :
    (percentDecoded (percentEncoded s)).length ≤ s.length := by
  induction n generalizing s with
  | zero =>
      rw [List.length_eq_zero_iff.mp (Nat.le_zero.mp hn)]
      exact le_rfl
  | succ n ih =>
      rcases s with _ | ⟨c, s⟩
      · exact le_rfl
      rw [List.length_cons] at hn ⊢
      by_cases hc : c = 37
      · subst hc
        rw [percentEncoded_cons, encodedByte_literal (by decide), List.singleton_append]
        rcases s with _ | ⟨d, s⟩
        · exact le_rfl
        rw [List.length_cons] at hn ⊢
        cases hd : isLiteral d with
        | false =>
            rw [percentDecoded_mark_escape hd, List.length_cons, List.length_cons]
            have := ih (s := s) (by omega)
            omega
        | true =>
            rcases s with _ | ⟨e, s⟩
            · rw [percentEncoded_cons, encodedByte_literal hd]
              exact Nat.le_succ 1
            rw [List.length_cons] at hn ⊢
            have := ih (s := s) (by omega)
            cases he : isLiteral e with
            | false =>
                rw [percentDecoded_mark_literal hd he]
                simp only [List.length_cons]
                omega
            | true =>
                rw [percentDecoded_mark hd he, List.length_cons]
                omega
      · rw [percentDecoded_encoded_cons hc, List.length_cons]
        have := ih (s := s) (by omega)
        omega

/-- A text behind a `%` is not read as it was. -/
lemma mark_not_kept : percentDecoded (37 :: percentEncoded s) ≠ 37 :: s := by
  intro h
  rcases s with _ | ⟨d, s⟩
  · exact absurd (List.head_eq_of_cons_eq h) (by decide)
  have h37 : ∀ n < 16, isLiteral (hexDigit n) = true := fun n hn => (isLiteral_hexDigit hn).1
  cases hd : isLiteral d with
  | false =>
      -- the second digit stands where the byte was, which is none
      rw [percentDecoded_mark_escape hd] at h
      have hhead := List.head_eq_of_cons_eq (List.tail_eq_of_cons_eq h)
      rw [← hhead, h37 _ (Nat.mod_lt _ (by decide))] at hd
      cases hd
  | true =>
      rcases s with _ | ⟨e, s⟩
      · rw [percentEncoded_cons, encodedByte_literal hd] at h
        cases List.tail_eq_of_cons_eq h
      cases he : isLiteral e with
      | false =>
          rw [percentDecoded_mark_literal hd he] at h
          have htail := List.tail_eq_of_cons_eq (List.tail_eq_of_cons_eq h)
          have hhead := List.head_eq_of_cons_eq htail
          rw [← hhead, h37 _ (Nat.mod_lt _ (by decide))] at he
          cases he
      | true =>
          -- two bytes are gone
          rw [percentDecoded_mark hd he] at h
          have hlen := length_percentDecoded_encoded s.length (le_refl s.length)
          rw [List.tail_eq_of_cons_eq h, List.length_cons, List.length_cons] at hlen
          omega

/-- **A text is decoded as it was exactly when it has no `%` and no `+`.** -/
lemma percentDecoded_encoded : percentDecoded (percentEncoded s) = s ↔
    ∀ c ∈ s, c ≠ 37 ∧ c ≠ 43 := by
  induction s with
  | nil => simp [percentEncoded, percentDecoded]
  | cons c s ih =>
      rw [List.forall_mem_cons]
      by_cases h37 : c = 37
      · refine iff_of_false (fun h => ?_) fun h => h.1.1 h37
        rw [h37, percentEncoded_cons, encodedByte_literal (by decide), List.singleton_append] at h
        exact mark_not_kept h
      by_cases h43 : c = 43
      · refine iff_of_false (fun h => ?_) fun h => h.1.2 h43
        rw [percentDecoded_encoded_cons h37, if_pos h43, h43] at h
        exact absurd (List.head_eq_of_cons_eq h) (by decide)
      · rw [percentDecoded_encoded_cons h37, if_neg h43, List.cons_inj_right, ih]
        exact (and_iff_right ⟨h37, h43⟩).symm

end Bytes

/-! ### The buffers -/

section Escape

variable {text buff : Str} {c : UInt8} {size l : ℕ}

lemma length_encodedByte_escape (hc : isLiteral c = false) : (encodedByte c).length = 3 := by
  rw [encodedByte_escape hc]
  rfl

lemma escapeFits_nil : EscapeFits size l [] := fun before c after h => by
  have := congrArg List.length h
  simp at this

lemma escapeFits_cons : EscapeFits size l (c :: text) ↔
    (isLiteral c = false → l < size → l + 4 ≤ size) ∧
      EscapeFits size (l + (encodedByte c).length) text := by
  constructor
  · intro h
    refine ⟨h [] c text rfl, fun before d after htext hd => ?_⟩
    have := h (c :: before) d after (by rw [htext]; rfl) hd
    rwa [percentEncoded_cons, List.length_append, ← Nat.add_assoc] at this
  · rintro ⟨hc, h⟩ before d after htext hd
    rcases before with _ | ⟨b, before⟩
    · obtain ⟨rfl, -⟩ := List.cons.inj htext
      exact hc hd
    · obtain ⟨rfl, htail⟩ := List.cons.inj htext
      rw [percentEncoded_cons, List.length_append, ← Nat.add_assoc]
      exact h before d after htail hd

/-- Behind the end of the buffer nothing is written. -/
lemma escapeFits_full (h : size ≤ l) (text : Str) : EscapeFits size l text :=
  fun before c after _ _ hlt => absurd hlt (by omega)

/-- **`xml_text_escape2` stays in its buffer** exactly when the escapes fit. -/
lemma xmlTextEscapeLoop_iff (hbuff : buff.length = size) :
    (∃ r, xmlTextEscapeLoop size text buff l = .ok r) ↔ EscapeFits size l text := by
  induction text generalizing buff l with
  | nil => exact iff_of_true ⟨_, rfl⟩ escapeFits_nil
  | cons c text ih =>
      rw [xmlTextEscapeLoop]
      by_cases hl : l < size
      · rw [if_pos hl, escapeFits_cons]
        cases hc : isLiteral c with
        | true =>
            rw [if_pos rfl, store_eq (by omega), encodedByte_literal hc,
              and_iff_right fun h => absurd h (by decide)]
            exact ih ((List.length_set ..).trans hbuff)
        | false =>
            rw [if_neg Bool.false_ne_true, length_encodedByte_escape hc]
            by_cases hfits : l + 4 ≤ size
            · have hroom : l + (escapeBytes c ++ [0]).length ≤ buff.length := by
                rw [hbuff]
                exact hfits
              rw [storeAll_eq hroom, and_iff_right fun _ _ => hfits]
              refine ih ?_
              simp [escapeBytes]
              omega
            · have hroom : buff.length < l + (escapeBytes c ++ [0]).length := by
                rw [hbuff]
                exact Nat.lt_of_not_le hfits
              rw [storeAll_eq_error (by simp) hroom]
              refine iff_of_false ?_ fun h => hfits (h.1 rfl hl)
              rintro ⟨r, hr⟩
              cases hr
      · rw [if_neg hl]
        exact iff_of_true ⟨_, rfl⟩ (escapeFits_full (Nat.le_of_not_lt hl) _)

/-- **Where there is room, the text is written**, and a buffer of NULs has only NULs behind it. -/
lemma xmlTextEscapeLoop_room (text out rest : Str) (hsize : size = (out ++ rest).length)
    (hroom : (percentEncoded text).length < rest.length) : ∃ rest' : Str,
      xmlTextEscapeLoop size text (out ++ rest) out.length =
        .ok (out ++ percentEncoded text ++ rest', (out ++ percentEncoded text).length) ∧
      (percentEncoded text).length + rest'.length = rest.length ∧
      ((∀ c ∈ rest, c = 0) → ∀ c ∈ rest', c = 0) := by
  induction text generalizing out rest with
  | nil =>
      refine ⟨rest, ?_, Nat.zero_add _, id⟩
      rw [percentEncoded, List.flatMap_nil, List.append_nil]
      rfl
  | cons c text ih =>
      rw [percentEncoded_cons, List.length_append] at hroom
      rw [List.length_append] at hsize
      rw [xmlTextEscapeLoop, if_pos (by omega), percentEncoded_cons]
      cases hc : isLiteral c with
      | true =>
          rw [encodedByte_literal hc] at hroom ⊢
          rw [List.length_singleton] at hroom
          obtain ⟨d, rest, rfl⟩ := List.exists_cons_of_length_pos (show 0 < rest.length by omega)
          rw [List.length_cons] at hroom hsize
          obtain ⟨rest', hloop, hlen, hzero⟩ := ih (out ++ [c]) rest
            (by simp; omega) (by omega)
          refine ⟨rest', ?_, ?_, fun h => hzero fun e he => h e (List.mem_cons_of_mem d he)⟩
          · rw [if_pos rfl, store_append]
            show xmlTextEscapeLoop size text (out ++ c :: rest) (out.length + 1) = _
            rw [List.append_assoc, List.length_append, List.singleton_append] at hloop
            rw [← List.append_assoc out]
            exact hloop
          · rw [List.length_append, List.length_singleton, List.length_cons]
            omega
      | false =>
          have hescape := encodedByte_escape hc
          rw [hescape] at hroom ⊢
          have hthree : (escapeBytes c).length = 3 := rfl
          rw [hthree] at hroom
          obtain ⟨rest', hloop, hlen, hzero⟩ := ih (out ++ escapeBytes c)
            (0 :: rest.drop 4) (by simp [hthree]; omega) (by simp; omega)
          refine ⟨rest', ?_, ?_, fun h => hzero fun e he => ?_⟩
          · rw [if_neg Bool.false_ne_true,
              storeAll_append (show (escapeBytes c ++ [0]).length ≤ rest.length by
                rw [List.length_append, hthree, List.length_singleton]; omega)]
            rw [List.length_append, hthree] at hloop
            show xmlTextEscapeLoop size text (out ++ (escapeBytes c ++ [0]) ++ rest.drop 4)
              (out.length + 3) = _
            rw [← List.append_assoc out, List.append_assoc _ [0], List.singleton_append, hloop,
              ← List.append_assoc out]
          · rw [List.length_append, hthree]
            simp only [List.length_cons, List.length_drop] at hlen
            omega
          · rcases List.mem_cons.mp he with rfl | he
            · rfl
            · exact h e (List.mem_of_mem_drop he)

end Escape

section Unescape

variable {text buff : Str} {c : UInt8} {n length l : ℕ}

/-- At the end of the text, and of the buffer. -/
lemma xmlTextUnescapeLoop_stop (block : Str) (h : n = 0 ∨ length ≤ l) :
    xmlTextUnescapeLoop length block n buff l = .ok (buff, l) := by
  have hstop : ¬ (n ≠ 0 ∧ l < length) := by omega
  rw [xmlTextUnescapeLoop.eq_def]
  cases block with
  | nil => exact if_neg hstop
  | cons c block => exact if_neg hstop

/-- One escape. -/
lemma xmlTextUnescapeLoop_mark (a b : UInt8) (rest : Str) (hn : n ≠ 0) (hl : l < length)
    (hbuff : l < buff.length) :
    xmlTextUnescapeLoop length (37 :: a :: b :: rest) n buff l =
      xmlTextUnescapeLoop length rest (n - 3) (buff.set l (hexByte a b)) (l + 1) := by
  rw [xmlTextUnescapeLoop.eq_def]
  dsimp only
  rw [if_pos ⟨hn, hl⟩, if_pos rfl, store_eq hbuff]
  rfl

/-- An escape at the end of memory. -/
lemma xmlTextUnescapeLoop_short {block : Str} (hblock : block.length < 2) (hn : n ≠ 0)
    (hl : l < length) :
    xmlTextUnescapeLoop length (37 :: block) n buff l = .error .crash := by
  rw [xmlTextUnescapeLoop.eq_def]
  dsimp only
  rw [if_pos ⟨hn, hl⟩, if_pos rfl]
  match block, hblock with
  | [], _ => rfl
  | [a], _ => rfl

/-- Another byte. -/
lemma xmlTextUnescapeLoop_other (block : Str) (hc : c ≠ 37) (hn : n ≠ 0) (hl : l < length)
    (hbuff : l < buff.length) :
    xmlTextUnescapeLoop length (c :: block) n buff l =
      xmlTextUnescapeLoop length block (n - 1) (buff.set l (if c = 43 then 32 else c)) (l + 1) := by
  rw [xmlTextUnescapeLoop.eq_def]
  dsimp only
  rw [if_pos ⟨hn, hl⟩, if_neg hc, store_eq hbuff]
  rfl

/-- **`xml_text_unescape` reads only its text** exactly when the escapes that it comes to are
complete. -/
lemma xmlTextUnescapeLoop_iff {k : ℕ} (hk : length = l + k) (hbuff : buff.length = length) :
    (∃ r, xmlTextUnescapeLoop length text text.length buff l = .ok r) ↔ EscapesComplete k text := by
  induction k generalizing text buff l with
  | zero => exact iff_of_true ⟨_, xmlTextUnescapeLoop_stop text (.inr (by omega))⟩ trivial
  | succ k ih =>
      rcases text with _ | ⟨c, text⟩
      · exact iff_of_true ⟨_, xmlTextUnescapeLoop_stop [] (.inl rfl)⟩ trivial
      have hset : ∀ d, (buff.set l d).length = length := fun d => (List.length_set ..).trans hbuff
      rw [EscapesComplete.eq_def]
      dsimp only
      by_cases hc : c = 37
      · subst hc
        rw [if_pos rfl]
        match text with
        | a :: b :: rest =>
            rw [xmlTextUnescapeLoop_mark a b rest (by simp) (by omega) (by omega)]
            exact ih (by omega) (hset _)
        | [] =>
            rw [xmlTextUnescapeLoop_short (by simp) (by simp) (by omega)]
            exact iff_of_false (fun ⟨r, hr⟩ => by cases hr) id
        | [a] =>
            rw [xmlTextUnescapeLoop_short (by simp) (by simp) (by omega)]
            exact iff_of_false (fun ⟨r, hr⟩ => by cases hr) id
      · rw [if_neg hc, xmlTextUnescapeLoop_other text hc (by simp) (by omega) (by omega)]
        exact ih (by omega) (hset _)

lemma escapesComplete_ne {k : ℕ} (hc : c ≠ 37) :
    EscapesComplete (k + 1) (c :: text) ↔ EscapesComplete k text := by
  rw [EscapesComplete.eq_def]
  exact iff_of_eq (if_neg hc)

lemma set_append_cons (out rest : Str) (d x : UInt8) :
    (out ++ d :: rest).set out.length x = out ++ [x] ++ rest := by
  rw [List.set_append_right (h := le_rfl), Nat.sub_self, List.set_cons_zero, List.append_assoc]
  rfl

lemma percentDecoded_ne_nil (c : UInt8) (text : Str) :
    0 < (percentDecoded (c :: text)).length := by
  rw [percentDecoded.eq_def]
  dsimp only
  split
  · split <;> exact Nat.succ_pos _
  · exact Nat.succ_pos _

/-- What is read is not longer than what was written. -/
lemma length_percentDecoded_le (k : ℕ) (text : Str) (hk : text.length ≤ k) :
    (percentDecoded text).length ≤ text.length := by
  induction k generalizing text with
  | zero =>
      rw [List.length_eq_zero_iff.mp (Nat.le_zero.mp hk)]
      exact le_rfl
  | succ k ih =>
      rcases text with _ | ⟨c, text⟩
      · exact le_rfl
      rw [List.length_cons] at hk ⊢
      by_cases hc : c = 37
      · subst hc
        match text with
        | a :: b :: text' =>
            rw [percentDecoded_take, List.length_cons]
            rw [List.length_cons, List.length_cons] at hk ⊢
            have := ih text' (by omega)
            omega
        | [] => exact Nat.le_refl 1
        | [a] => exact Nat.le_succ 1
      · rw [percentDecoded_ne hc, List.length_cons]
        have := ih text (by omega)
        omega

/-- **Where there is room, the text is read**; behind it there are NULs, or no escape goes on
there. -/
lemma xmlTextUnescapeLoop_room (pad text : Str) (k : ℕ) (out rest : Str) (hk : text.length ≤ k)
    (hroom : (percentDecoded text).length ≤ rest.length)
    (hlength : length = out.length + rest.length)
    (hpad : (∀ k, EscapesComplete k text) ∨ ∃ tail, pad = 0 :: 0 :: tail) : ∃ rest' : Str,
      xmlTextUnescapeLoop length (text ++ pad) text.length (out ++ rest) out.length =
        .ok (out ++ percentDecoded text ++ rest', (out ++ percentDecoded text).length) := by
  induction k generalizing text out rest with
  | zero =>
      rw [List.length_eq_zero_iff.mp (Nat.le_zero.mp hk)]
      refine ⟨rest, ?_⟩
      rw [percentDecoded, List.append_nil]
      exact xmlTextUnescapeLoop_stop (n := 0) pad (.inl rfl)
  | succ k ih =>
      rcases text with _ | ⟨c, text⟩
      · refine ⟨rest, ?_⟩
        rw [percentDecoded, List.append_nil]
        exact xmlTextUnescapeLoop_stop (n := 0) pad (.inl rfl)
      have hpos := percentDecoded_ne_nil c text
      obtain ⟨d, rest, rfl⟩ := List.exists_cons_of_length_pos (hpos.trans_le hroom)
      rw [List.length_cons] at hk hroom hlength
      have hone : ∀ x : UInt8, (out ++ [x]).length = out.length + 1 := fun x => List.length_append
      -- one character, and then the rest of the text
      have hnext : ∀ (x : UInt8) (text' : Str), text'.length ≤ k →
          percentDecoded (c :: text) = x :: percentDecoded text' →
          ((∀ k, EscapesComplete k text') ∨ ∃ tail, pad = 0 :: 0 :: tail) → ∃ rest' : Str,
          xmlTextUnescapeLoop length (text' ++ pad) text'.length (out ++ [x] ++ rest)
              (out.length + 1) =
            .ok (out ++ percentDecoded (c :: text) ++ rest',
              (out ++ percentDecoded (c :: text)).length) := fun x text' hk' hdec hpad' => by
        rw [hdec] at hroom ⊢
        have := ih text' (out ++ [x]) rest hk' (by simpa using hroom) (by rw [hone]; omega) hpad'
        rw [hone] at this
        rw [List.append_cons out x (percentDecoded text')]
        exact this
      by_cases hc : c = 37
      · subst hc
        match text with
        | a :: b :: text' =>
            rw [List.cons_append, List.cons_append, List.cons_append,
              xmlTextUnescapeLoop_mark a b _ (by simp) (by omega) (by simp), set_append_cons]
            rw [List.length_cons, List.length_cons] at hk
            refine hnext _ text' (by omega) (percentDecoded_take a b) (hpad.imp_left fun h k => ?_)
            exact h (k + 1)
        | [] =>
            obtain ⟨tail, rfl⟩ := hpad.resolve_left fun h => h 1
            refine ⟨rest, ?_⟩
            rw [List.cons_append, List.nil_append,
              xmlTextUnescapeLoop_mark 0 0 tail (by simp) (by omega) (by simp), set_append_cons]
            exact (xmlTextUnescapeLoop_stop (n := 0) tail (.inl rfl)).trans
              (congrArg Except.ok (Prod.ext rfl (hone _).symm))
        | [a] =>
            obtain ⟨tail, rfl⟩ := hpad.resolve_left fun h => h 1
            refine ⟨rest, ?_⟩
            rw [List.cons_append, List.cons_append, List.nil_append,
              xmlTextUnescapeLoop_mark a 0 (0 :: tail) (by simp) (by omega) (by simp),
              set_append_cons]
            exact (xmlTextUnescapeLoop_stop (n := 0) (0 :: tail) (.inl rfl)).trans
              (congrArg Except.ok (Prod.ext rfl (hone _).symm))
      · rw [List.cons_append, xmlTextUnescapeLoop_other _ hc (by simp) (by omega) (by simp),
          set_append_cons]
        refine hnext _ text (by omega) (percentDecoded_ne hc) (hpad.imp_left fun h k => ?_)
        exact (escapesComplete_ne hc).mp (h (k + 1))

end Unescape

/-! ### The round trip -/

/-- With buffers that are large enough a text comes back as it was. -/
def RoundTrips (s : Str) : Prop :=
  ∃ enough, ∀ buff buff' : Str, enough ≤ buff.length → enough ≤ buff'.length →
    ∃ buff₁ l buff₂ l', xmlTextEscape2 s buff buff.length = .ok (buff₁, l) ∧
      xmlTextUnescape buff₁ l buff' buff'.length = .ok (buff₂, l') ∧ buff₂.take l' = s

section RoundTrip

variable {s : Str}

/-- What is written of a text without `%` has only whole escapes. -/
lemma escapesComplete_encoded (hs : ∀ c ∈ s, c ≠ 37) (k : ℕ) :
    EscapesComplete k (percentEncoded s) := by
  induction s generalizing k with
  | nil => cases k <;> trivial
  | cons c s ih =>
      obtain ⟨hc, hs⟩ := List.forall_mem_cons.mp hs
      cases k with
      | zero => trivial
      | succ k =>
          rw [percentEncoded_cons]
          cases hliteral : isLiteral c with
          | true =>
              rw [encodedByte_literal hliteral]
              exact (escapesComplete_ne hc).mpr (ih hs k)
          | false =>
              rw [encodedByte_escape hliteral]
              exact ih hs k

lemma roundTrips_of (hs : ∀ c ∈ s, c ≠ 37 ∧ c ≠ 43) : RoundTrips s := by
  refine ⟨(percentEncoded s).length + s.length + 1, fun buff buff' hbuff hbuff' => ?_⟩
  obtain ⟨rest, hescape, -, -⟩ := xmlTextEscapeLoop_room s [] buff rfl (by omega)
  have hdecoded := percentDecoded_encoded.mpr hs
  obtain ⟨rest', hunescape⟩ := xmlTextUnescapeLoop_room rest (percentEncoded s) _ [] buff'
    le_rfl (by rw [hdecoded]; omega) (Nat.zero_add buff'.length).symm
    (.inl (escapesComplete_encoded fun c hc => (hs c hc).1))
  rw [hdecoded] at hunescape
  exact ⟨_, _, _, _, hescape, hunescape, List.take_left⟩

lemma of_roundTrips (h : RoundTrips s) : ∀ c ∈ s, c ≠ 37 ∧ c ≠ 43 := by
  obtain ⟨enough, h⟩ := h
  rw [← percentDecoded_encoded]
  set n := enough + (percentEncoded s).length + 2 with hn
  have hlength : (List.replicate n (0 : UInt8)).length = n := List.length_replicate ..
  obtain ⟨buff₁, l, buff₂, l', hescape, hunescape, htake⟩ :=
    h (List.replicate n 0) (List.replicate n 0) (by omega) (by omega)
  obtain ⟨rest, hroom, hrest, hzero⟩ :=
    xmlTextEscapeLoop_room s [] (List.replicate n 0) rfl (by omega)
  obtain ⟨rfl, rfl⟩ := Prod.mk.inj (Except.ok.inj (hescape.symm.trans hroom))
  -- behind the text there are NULs
  obtain ⟨tail, rfl⟩ : ∃ tail, rest = 0 :: 0 :: tail := by
    have hall := hzero fun c hc => List.eq_of_mem_replicate hc
    rw [hlength] at hrest
    rcases rest with _ | ⟨a, _ | ⟨b, tail⟩⟩
    · rw [List.length_nil] at hrest
      omega
    · rw [List.length_singleton] at hrest
      omega
    · exact ⟨tail, by rw [hall a (by simp), hall b (by simp)]⟩
  have hdecoded := length_percentDecoded_le (percentEncoded s).length (percentEncoded s) le_rfl
  obtain ⟨rest', hread⟩ := xmlTextUnescapeLoop_room (0 :: 0 :: tail) (percentEncoded s) _ []
    (List.replicate n 0) le_rfl (by omega) (Nat.zero_add _).symm (.inr ⟨tail, rfl⟩)
  obtain ⟨rfl, rfl⟩ := Prod.mk.inj (Except.ok.inj (hunescape.symm.trans hread))
  exact List.take_left.symm.trans htake

end RoundTrip

/-- **Each part of the round trip holds exactly where its condition does**: in a buffer of `size`
bytes each escape fits with its NUL; a text comes back exactly when it has no `%` and no `+`; and a
text is read within its bounds exactly when the escapes that fit into the buffer are complete. -/
theorem escape_iff (s : Str) (size : ℕ) (text : Str) (length : ℕ) :
    ((∀ buff : Str, buff.length = size → ∃ r, xmlTextEscape2 s buff size = .ok r) ↔
      EscapeFits size 0 s) ∧
    (RoundTrips s ↔ ∀ c ∈ s, c ≠ 37 ∧ c ≠ 43) ∧
    ((∀ buff : Str, buff.length = length →
        ∃ r, xmlTextUnescape text text.length buff length = .ok r) ↔
      EscapesComplete length text) := by
  refine ⟨⟨fun h => ?_, fun h buff hbuff => ?_⟩, ⟨of_roundTrips, roundTrips_of⟩,
    fun h => ?_, fun h buff hbuff => ?_⟩
  · have hbuff : (List.replicate size (0 : UInt8)).length = size := List.length_replicate ..
    exact (xmlTextEscapeLoop_iff hbuff).mp (h _ hbuff)
  · exact (xmlTextEscapeLoop_iff hbuff).mpr h
  · have hbuff : (List.replicate length (0 : UInt8)).length = length := List.length_replicate ..
    exact (xmlTextUnescapeLoop_iff (Nat.zero_add length).symm hbuff).mp (h _ hbuff)
  · exact (xmlTextUnescapeLoop_iff (Nat.zero_add length).symm hbuff).mpr h

/-- A blank in a buffer of one byte; a `+`; a `%` at the end of a text. -/
theorem escape_fails : (¬ ∃ r, xmlTextEscape2 (str " ") [0] 1 = .ok r) ∧ ¬ RoundTrips (str "+") ∧
    ¬ ∃ r, xmlTextUnescape (str "%") 1 [0] 1 = .ok r := by
  refine ⟨?_, fun h => ?_, ?_⟩
  · rintro ⟨r, hr⟩
    cases hr
  · exact (of_roundTrips h 43 (by decide)).2 rfl
  · rintro ⟨r, hr⟩
    cases hr

end SipEcho
