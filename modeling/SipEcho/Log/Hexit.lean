import SipEcho.Common.Libc
import SipEcho.Lib.Block
import SipEcho.Map.Delete

/-!
The hex dump of a packet, `hexit` in `log.c`: rows of `n` bytes, each with the digits of its bytes
in groups of four and then its printable characters, made in one buffer and given to `syslog`.

* `hexitByte`, `hexitFoot`, `hexitLoop`, `hexit`: the code, from any content of the buffer;
* `Dumps`: the rows show every byte once and in order, as digits and as characters;
* `dumpRow`, `dumpRows`: the rows; `dumps_dumpRows`, that they are a dump;
* `HexRow`: what the buffer holds when the bytes of a row so far are in it, kept by `hexitByte`;
* `hexitLoop_eq`: the loop makes the rows, unless a full row meets a buffer without a cell for its
  terminator.
-/

namespace SipEcho

open Lib

/-! ### The code -/

/-- `isprint`. -/
def isprint (c : UInt8) : Bool := 32 ≤ c ∧ c ≤ 126

/-- The characters `__hex`. -/
def hexChar (i : ℕ) : UInt8 := (str "0123456789ABCDEF .").getD i 0

/-- What `syslog` is given. -/
structure LogLine where
  pri : ℤ
  text : Str

/-- The turn for one byte, without the end of the row: the place behind the digits, and the
buffer. -/
def hexitByte (n i j : ℕ) (c : UInt8) (hex : Str) : Except Fault (ℕ × Str) := do
  let hex ← storeAll .crash hex j [hexChar (c.toNat / 16), hexChar (c.toNat % 16), hexChar 16]
  let hex ← store .crash hex (n * 3 + n / 4 + i % n) (if isprint c then c else hexChar 17)
  if (i + 1) % 4 = 0 then do
    let hex ← store .crash hex (j + 3) (hexChar 16)
    return (j + 4, hex)
  else return (j + 3, hex)

/-- The end of a row, from `foot` on. -/
def hexitFoot (pri : ℤ) (n i j : ℕ) (hex : Str) : Except Fault (LogLine × Str) := do
  let hex ← storeAll .crash hex j (List.replicate (n * 3 + n / 4 - j) (hexChar 16))
  let hex ← store .crash hex (n * 3 + n / 4 + (i - 1) % n + 1) 0
  return (⟨pri, str "[B] " ++ cstr hex⟩, hex)

/-- The loop, with the bytes from the `i`-th on. -/
def hexitLoop (pri : ℤ) (n : ℕ) : Str → ℕ → ℕ → Str → Except Fault (List LogLine)
  | [], i, j, hex =>
      if j = 0 then return []
      else do
        let (line, _) ← hexitFoot pri n i j hex
        return [line]
  | c :: bin, i, j, hex => do
      let (j, hex) ← hexitByte n i j c hex
      if (i + 1) % n = 0 then do
        let (line, hex) ← hexitFoot pri n (i + 1) j hex
        let lines ← hexitLoop pri n bin (i + 1) 0 hex
        return line :: lines
      else hexitLoop pri n bin (i + 1) j hex

/-- `hexit` of the bytes `bin`, with what happens to be in its buffer. -/
def hexit (pri : ℤ) (bin : Str) (n : ℕ) (hex : Str) : Except Fault (List LogLine) :=
  hexitLoop pri n bin 0 0 hex

/-! ### Rows -/

/-- The byte that two digits show. -/
def shownByte (a b : UInt8) : UInt8 :=
  ((str "0123456789ABCDEF").idxOf a * 16 + (str "0123456789ABCDEF").idxOf b).toUInt8

/-- The bytes that digits show. -/
def shownBytes : Str → Str
  | a :: b :: digits => shownByte a b :: shownBytes digits
  | _ => []

/-- The character that stands for a byte. -/
def shownChar (c : UInt8) : UInt8 := if isprint c then c else hexChar 17

/-- The digits of a row of sixteen. -/
def LogLine.digits (line : LogLine) : Str := ((line.text.drop 4).take 52).filter (· ≠ 32)

/-- The characters of a row of sixteen. -/
def LogLine.chars (line : LogLine) : Str := (line.text.drop 4).drop 52

/-- **The lines are a dump**: one for every sixteen bytes, and together they show every byte once
and in order, as digits and as characters. -/
structure Dumps (bin : Str) (lines : List LogLine) : Prop where
  length : lines.length = (bin.length + 15) / 16
  bytes : lines.flatMap (fun line => shownBytes line.digits) = bin
  chars : lines.flatMap LogLine.chars = bin.map shownChar

/-- The digits of a byte, with the blank behind them. -/
def byteDigits (c : UInt8) : Str := [hexChar (c.toNat / 16), hexChar (c.toNat % 16), 32]

/-- The cells of the `k`-th byte of a row. -/
def byteCells (k : ℕ) (c : UInt8) : Str := byteDigits c ++ if (k + 1) % 4 = 0 then [32] else []

/-- The digits of the bytes of a row. -/
def rowCells (k : ℕ) : Str → Str
  | [] => []
  | c :: row => byteCells k c ++ rowCells (k + 1) row

/-- The text of a row. -/
def dumpRow (row : Str) : Str :=
  rowCells 0 row ++ List.replicate (52 - (rowCells 0 row).length) 32 ++ row.map shownChar

/-- The lines for `row ++ bin`, where `row` is the part of a row that was begun. -/
def dumpRows (pri : ℤ) (row : Str) : Str → List LogLine
  | [] => if row = [] then [] else [⟨pri, str "[B] " ++ dumpRow row⟩]
  | c :: bin =>
      if row.length = 15 then ⟨pri, str "[B] " ++ dumpRow (row ++ [c])⟩ :: dumpRows pri [] bin
      else dumpRows pri (row ++ [c]) bin

section Rows

variable {c : UInt8} {row : Str}

lemma hexChar_spec : ∀ m < 16, hexChar m ≠ 32 ∧ hexChar m ≠ 0 ∧
    (str "0123456789ABCDEF").idxOf (hexChar m) = m := by
  decide

/-- **The digits of a byte show it.** -/
lemma shownByte_eq (c : UInt8) :
    shownByte (hexChar (c.toNat / 16)) (hexChar (c.toNat % 16)) = c := by
  have hc := c.toNat_lt
  rw [shownByte, (hexChar_spec _ (by omega)).2.2, (hexChar_spec _ (by omega)).2.2, Nat.mul_comm,
    Nat.div_add_mod]
  exact UInt8.ofNat_toNat

lemma shownChar_ne_zero (c : UInt8) : shownChar c ≠ 0 := by
  rw [shownChar]
  split
  · rintro rfl
    contradiction
  · decide

/-! ### The digits of a row -/

lemma rowCells_concat (k : ℕ) :
    rowCells k (row ++ [c]) = rowCells k row ++ byteCells (k + row.length) c := by
  induction row generalizing k with
  | nil => simp [rowCells]
  | cons d row ih =>
      rw [List.cons_append, rowCells, ih, rowCells, List.append_assoc, List.length_cons,
        Nat.add_right_comm, Nat.add_assoc]

lemma length_byteCells (c : UInt8) (k : ℕ) :
    (byteCells k c).length + k / 4 = 3 + (k + 1) / 4 := by
  rw [byteCells, List.length_append]
  split
  · show 3 + 1 + k / 4 = _
    omega
  · show 3 + 0 + k / 4 = _
    omega

/-- Three cells for each byte, and a blank behind every fourth. -/
lemma length_rowCells (row : Str) :
    (rowCells 0 row).length = 3 * row.length + row.length / 4 := by
  induction row using List.reverseRecOn with
  | nil => rfl
  | append_singleton row c ih =>
      have := length_byteCells c row.length
      rw [rowCells_concat, List.length_append, ih, Nat.zero_add, List.length_append,
        List.length_singleton]
      omega

lemma byteCells_filter (k : ℕ) (c : UInt8) : (byteCells k c).filter (· ≠ 32) =
    [hexChar (c.toNat / 16), hexChar (c.toNat % 16)] := by
  have hc := c.toNat_lt
  have h1 := (hexChar_spec (c.toNat / 16) (by omega)).1
  have h2 := (hexChar_spec (c.toNat % 16) (by omega)).1
  rw [byteCells, byteDigits]
  split <;> simp [h1, h2]

/-- **The digits of a row show its bytes.** -/
lemma shownBytes_rowCells (k : ℕ) (row : Str) :
    shownBytes ((rowCells k row).filter (· ≠ 32)) = row := by
  induction row generalizing k with
  | nil => rfl
  | cons c row ih =>
      rw [rowCells, List.filter_append, byteCells_filter, List.cons_append, List.cons_append,
        List.nil_append, shownBytes, shownByte_eq, ih]

lemma byteCells_ne_zero (k : ℕ) (c : UInt8) : 0 ∉ byteCells k c := by
  have hc := c.toNat_lt
  have h1 := (hexChar_spec (c.toNat / 16) (by omega)).2.1.symm
  have h2 := (hexChar_spec (c.toNat % 16) (by omega)).2.1.symm
  rw [byteCells, byteDigits]
  split <;> simp [h1, h2]

lemma rowCells_ne_zero (k : ℕ) (row : Str) : 0 ∉ rowCells k row := by
  induction row generalizing k with
  | nil => exact List.not_mem_nil
  | cons c row ih => exact List.not_mem_append (byteCells_ne_zero k c) (ih _)

/-! ### The text of a row -/

lemma dumpRow_ne_zero (row : Str) : 0 ∉ dumpRow row := by
  refine List.not_mem_append (List.not_mem_append (rowCells_ne_zero 0 row) fun h => ?_) fun h => ?_
  · exact absurd (List.eq_of_mem_replicate h) (by decide)
  · obtain ⟨c, -, hc⟩ := List.mem_map.mp h
    exact shownChar_ne_zero c hc

/-- The digits and the blanks behind them are as wide in every row. -/
lemma length_dumpRow_digits (hrow : row.length ≤ 16) :
    (rowCells 0 row ++ List.replicate (52 - (rowCells 0 row).length) 32).length = 52 := by
  have := length_rowCells row
  rw [List.length_append, List.length_replicate]
  omega

/-- The mark in front of a row. -/
lemma drop_mark (s : Str) : (str "[B] " ++ s).drop 4 = s := rfl

lemma digits_dumpRow (pri : ℤ) (hrow : row.length ≤ 16) :
    shownBytes (LogLine.mk pri (str "[B] " ++ dumpRow row)).digits = row := by
  have hwidth := length_dumpRow_digits hrow
  rw [LogLine.digits, drop_mark, dumpRow, List.take_left' hwidth, List.filter_append,
    List.filter_replicate_of_neg (by decide), List.append_nil, shownBytes_rowCells]

lemma chars_dumpRow (pri : ℤ) (hrow : row.length ≤ 16) :
    (LogLine.mk pri (str "[B] " ++ dumpRow row)).chars = row.map shownChar := by
  rw [LogLine.chars, drop_mark, dumpRow, List.drop_left' (length_dumpRow_digits hrow)]

end Rows

/-- The rows made of what was begun and what follows are a dump of both. -/
lemma dumps_dumpRows (pri : ℤ) (row : Str) (hrow : row.length < 16) (bin : Str) :
    Dumps (row ++ bin) (dumpRows pri row bin) := by
  induction bin generalizing row with
  | nil =>
      rw [dumpRows, List.append_nil]
      split
      · next h =>
        subst h
        exact ⟨rfl, rfl, rfl⟩
      · next h =>
        have hpos := List.length_pos_of_ne_nil h
        refine ⟨?_, ?_, ?_⟩
        · rw [List.length_singleton]
          omega
        · rw [List.flatMap_singleton, digits_dumpRow pri hrow.le]
        · rw [List.flatMap_singleton, chars_dumpRow pri hrow.le]
  | cons c bin ih =>
      have hc : (row ++ [c]).length = row.length + 1 := List.length_append
      rw [dumpRows, List.append_cons]
      split
      · next h =>
        obtain ⟨hlength, hbytes, hchars⟩ := ih [] (by decide)
        rw [List.nil_append] at hlength hbytes hchars
        refine ⟨?_, ?_, ?_⟩
        · rw [List.length_cons, hlength, List.length_append, hc]
          omega
        · rw [List.flatMap_cons, hbytes, digits_dumpRow pri (by omega)]
        · rw [List.flatMap_cons, hchars, chars_dumpRow pri (by omega), ← List.map_append]
      · exact ih _ (by omega)

/-! ### The buffer -/

/-- **The bytes of a row so far are in the buffer**: their digits at its beginning, and their
characters behind the place for the digits. -/
def HexRow (row hex : Str) : Prop :=
  ∃ mid rest, hex = rowCells 0 row ++ mid ++ row.map shownChar ++ rest ∧
    (rowCells 0 row).length + mid.length = 52

section Buffer

variable {c : UInt8} {row hex : Str} {i : ℕ}

lemma hexRow_nil (hhex : 52 ≤ hex.length) : HexRow [] hex := by
  refine ⟨hex.take 52, hex.drop 52, ?_, ?_⟩
  · rw [rowCells, List.map_nil, List.nil_append, List.append_nil, List.take_append_drop]
  · rw [List.length_take, rowCells, List.length_nil]
    omega

/-- The digits of a byte and its character are put into their places. -/
lemma hexitByte_stored {out three mid chars rest : Str} {d : UInt8} (hthree : three.length = 3)
    (hplace : (out ++ three ++ mid ++ chars).length = 52 + i % 16) :
    hexitByte 16 i out.length c (out ++ three ++ mid ++ chars ++ d :: rest) =
      if (i + 1) % 4 = 0 then do
        let hex ← store .crash (out ++ byteDigits c ++ mid ++ chars ++ shownChar c :: rest)
          (out.length + 3) 32
        return (out.length + 4, hex)
      else return (out.length + 3, out ++ byteDigits c ++ mid ++ chars ++ shownChar c :: rest) := by
  have hthree' : three.length = (byteDigits c).length := hthree
  have hdigits : storeAll Fault.crash (out ++ three ++ mid ++ chars ++ d :: rest) out.length
      (byteDigits c) = .ok (out ++ byteDigits c ++ mid ++ chars ++ d :: rest) := by
    have hstore : storeAll Fault.crash (out ++ three ++ _) _ (byteDigits c) = _ :=
      storeAll_replace hthree' (mid ++ chars ++ d :: rest)
    simpa only [List.append_assoc] using hstore
  have hchar : store Fault.crash (out ++ byteDigits c ++ mid ++ chars ++ d :: rest)
      (16 * 3 + 16 / 4 + i % 16) (shownChar c) =
        .ok (out ++ byteDigits c ++ mid ++ chars ++ shownChar c :: rest) := by
    have hlength : (out ++ byteDigits c ++ mid ++ chars).length = 52 + i % 16 := by
      simpa only [List.length_append, hthree'] using hplace
    rw [show 16 * 3 + 16 / 4 + i % 16 = (out ++ byteDigits c ++ mid ++ chars).length by omega]
    exact store_append d rest
  rw [hexitByte]
  show (storeAll _ _ _ (byteDigits c) >>= _) = _
  rw [hdigits]
  show (store _ _ _ (shownChar c) >>= _) = _
  rw [hchar]
  rfl

/-- **One byte more** is put into its place. -/
lemma hexitByte_row (hrow : HexRow row hex) (hlt : row.length < 16) (hi : i % 16 = row.length)
    (hhex : 68 ≤ hex.length) :
    ∃ hex', hexitByte 16 i (rowCells 0 row).length c hex =
      .ok ((rowCells 0 (row ++ [c])).length, hex') ∧
      HexRow (row ++ [c]) hex' ∧ hex'.length = hex.length := by
  obtain ⟨mid, rest, rfl, hmid⟩ := hrow
  have hcells := length_rowCells row
  have hchars : (row.map shownChar).length = row.length := List.length_map _
  have hlast : (row ++ [c]).map shownChar = row.map shownChar ++ [shownChar c] := List.map_append
  have hconcat : rowCells 0 (row ++ [c]) = rowCells 0 row ++ byteCells row.length c := by
    rw [rowCells_concat, Nat.zero_add]
  have hdigits : (byteDigits c).length = 3 := rfl
  simp only [List.length_append] at hhex
  -- the digits take the place of three of the cells in the middle
  obtain ⟨three, mid, rfl, hthree⟩ : ∃ three mid', mid = three ++ mid' ∧ three.length = 3 :=
    ⟨mid.take 3, mid.drop 3, (List.take_append_drop 3 mid).symm, by
      rw [List.length_take]
      omega⟩
  obtain ⟨d, rest, rfl⟩ := List.exists_cons_of_length_pos (l := rest) (by omega)
  rw [List.length_append] at hmid
  rw [← List.append_assoc, hexitByte_stored hthree (by simp only [List.length_append]; omega)]
  by_cases hgroup : (i + 1) % 4 = 0
  · obtain ⟨e, mid, rfl⟩ := List.exists_cons_of_length_pos (l := mid) (by omega)
    have hcell : byteCells row.length c = byteDigits c ++ [32] := by
      rw [byteCells, if_pos (by omega)]
    have hblank : store Fault.crash
        (rowCells 0 row ++ byteDigits c ++ e :: mid ++ row.map shownChar ++ shownChar c :: rest)
        ((rowCells 0 row).length + 3) 32 = .ok (rowCells 0 row ++ byteDigits c ++ 32 :: mid ++
          row.map shownChar ++ shownChar c :: rest) := by
      have hstore : store Fault.crash
          (rowCells 0 row ++ byteDigits c ++ e :: (mid ++ row.map shownChar ++ shownChar c :: rest))
          (rowCells 0 row ++ byteDigits c).length 32 = _ := store_append e _
      rw [List.length_append, hdigits] at hstore
      simpa only [List.append_assoc, List.cons_append] using hstore
    refine ⟨rowCells 0 row ++ byteDigits c ++ 32 :: mid ++ row.map shownChar ++
      shownChar c :: rest, ?_, ⟨mid, rest, ?_, ?_⟩, ?_⟩
    · rw [if_pos hgroup, hblank, hconcat, hcell, List.length_append, List.length_append, hdigits]
      rfl
    · rw [hconcat, hcell, hlast]
      simp
    · rw [hconcat, hcell]
      simp only [List.length_append, List.length_cons, List.length_nil] at hmid ⊢
      omega
    · simp only [List.length_append, List.length_cons, hthree, hdigits]
  · have hcell : byteCells row.length c = byteDigits c := by
      rw [byteCells, if_neg (by omega), List.append_nil]
    refine ⟨rowCells 0 row ++ byteDigits c ++ mid ++ row.map shownChar ++ shownChar c :: rest,
      ?_, ⟨mid, rest, ?_, ?_⟩, ?_⟩
    · rw [if_neg hgroup, hconcat, hcell, List.length_append, hdigits]
      rfl
    · rw [hconcat, hcell, hlast]
      simp
    · rw [hconcat, hcell, List.length_append]
      omega
    · simp only [List.length_append, List.length_cons, hthree, hdigits]

/-- The row is ended, if there is a cell behind its characters. -/
lemma hexitFoot_row (pri : ℤ) (hrow : HexRow row hex) (hi : (i - 1) % 16 + 1 = row.length)
    (hhex : 52 + row.length < hex.length) :
    ∃ hex', hexitFoot pri 16 i (rowCells 0 row).length hex =
      .ok (⟨pri, str "[B] " ++ dumpRow row⟩, hex') ∧ hex'.length = hex.length := by
  obtain ⟨mid, rest, rfl, hmid⟩ := hrow
  have hchars : (row.map shownChar).length = row.length := List.length_map _
  simp only [List.length_append] at hhex
  obtain ⟨e, rest, rfl⟩ := List.exists_cons_of_length_pos (l := rest) (by omega)
  have hwidth : 52 - (rowCells 0 row).length = mid.length := by omega
  have h1 : storeAll Fault.crash (rowCells 0 row ++ mid ++ row.map shownChar ++ e :: rest)
      (rowCells 0 row).length (List.replicate (16 * 3 + 16 / 4 - (rowCells 0 row).length)
        (hexChar 16)) = .ok (dumpRow row ++ e :: rest) := by
    have hstore : storeAll Fault.crash (rowCells 0 row ++ mid ++ _) _
        (List.replicate mid.length 32) = _ :=
      storeAll_replace List.length_replicate.symm (row.map shownChar ++ e :: rest)
    show storeAll _ _ _ (List.replicate (52 - _) 32) = _
    rw [dumpRow, hwidth]
    simpa only [List.append_assoc] using hstore
  have hdump : (dumpRow row).length = 52 + row.length := by
    rw [dumpRow, hwidth]
    simp only [List.length_append, List.length_replicate, hchars]
    omega
  have h2 : store Fault.crash (dumpRow row ++ e :: rest) (16 * 3 + 16 / 4 + (i - 1) % 16 + 1) 0 =
      .ok (dumpRow row ++ 0 :: rest) := by
    rw [show 16 * 3 + 16 / 4 + (i - 1) % 16 + 1 = (dumpRow row).length by omega]
    exact store_append e rest
  refine ⟨dumpRow row ++ 0 :: rest, ?_, ?_⟩
  · rw [hexitFoot, h1]
    show (store _ _ _ _ >>= _) = _
    rw [h2]
    show Except.ok _ = _
    rw [cstr_append_zero (dumpRow_ne_zero row)]
  · simp only [List.length_append, List.length_cons, hdump, hchars]
    omega

/-- There is none behind a full row in 68 bytes. -/
lemma hexitFoot_error (pri : ℤ) {j : ℕ} (hi : (i - 1) % 16 = 15) (hj : j ≤ 52)
    (hhex : hex.length = 68) :
    hexitFoot pri 16 i j hex = .error .crash := by
  rw [hexitFoot, storeAll_eq (by rw [List.length_replicate]; omega)]
  show (store _ _ _ _ >>= _) = _
  rw [store_eq_error]
  · rfl
  · simp only [List.length_append, List.length_take, List.length_drop, List.length_replicate]
    omega

/-- **The loop makes the rows**, unless a full row meets a buffer of 68 bytes. -/
lemma hexitLoop_eq (pri : ℤ) (bin : Str) (hrow : HexRow row hex) (hlt : row.length < 16)
    (hi : i % 16 = row.length) (hhex : 68 ≤ hex.length) :
    hexitLoop pri 16 bin i (rowCells 0 row).length hex =
      if hex.length = 68 ∧ 16 ≤ row.length + bin.length then .error .crash
      else .ok (dumpRows pri row bin) := by
  have hcells := length_rowCells row
  induction bin generalizing row hex i with
  | nil =>
      have hshort : ¬ (hex.length = 68 ∧ 16 ≤ row.length + ([] : Str).length) := by
        rw [List.length_nil]
        omega
      rw [hexitLoop, dumpRows, if_neg hshort]
      by_cases hempty : row = []
      · subst hempty
        rfl
      · have hpos := List.length_pos_of_ne_nil hempty
        obtain ⟨hex', hfoot, -⟩ := hexitFoot_row pri (i := i) hrow (by omega) (by omega)
        rw [if_neg (by omega), hfoot, if_neg hempty]
        rfl
  | cons c bin ih =>
      obtain ⟨hex', hbyte, hrow', hlength⟩ := hexitByte_row (c := c) hrow hlt hi hhex
      have hc : (row ++ [c]).length = row.length + 1 := List.length_append
      have hcells' := length_rowCells (row ++ [c])
      rw [hexitLoop, hbyte, dumpRows, List.length_cons]
      show (if (i + 1) % 16 = 0 then _ else _) = _
      by_cases hfull : row.length = 15
      · rw [if_pos (by omega), if_pos hfull]
        by_cases hsize : hex.length = 68
        · rw [if_pos (by omega), hexitFoot_error pri (by omega) (by omega) (by omega)]
          rfl
        · obtain ⟨hex₂, hfoot, hlength₂⟩ := hexitFoot_row pri (i := i + 1) hrow'
            (by omega) (by omega)
          rw [hfoot, if_neg (by omega)]
          show (hexitLoop _ _ _ _ (rowCells 0 []).length _ >>= _) = _
          rw [ih (hexRow_nil (by omega)) (by decide) (by rw [List.length_nil]; omega) (by omega)
            (length_rowCells []), if_neg (by omega)]
          rfl
      · rw [if_neg (by omega), if_neg hfull, ih hrow' (by omega) (by omega) (by omega) hcells',
          hlength, hc]
        congr 1
        exact propext (and_congr_right fun _ => by omega)

end Buffer

/-- With one byte more in the buffer, every packet is dumped. -/
theorem hexit_dumps (pri : ℤ) (bin hex : Str) (hhex : 68 < hex.length) :
    ∃ lines, hexit pri bin 16 hex = .ok lines ∧ Dumps bin lines := by
  refine ⟨dumpRows pri [] bin, ?_, dumps_dumpRows pri [] (by decide) bin⟩
  refine (hexitLoop_eq (i := 0) pri bin (hexRow_nil (by omega)) (by decide) rfl (by omega)).trans ?_
  rw [if_neg (by omega)]

/-- **The dump is made within its buffer exactly when there is no full row.** -/
theorem hexit_iff (pri : ℤ) (bin : Str) :
    (∀ hex : Str, hex.length = 16 * 4 + 16 / 4 →
      ∃ lines, hexit pri bin 16 hex = .ok lines ∧ Dumps bin lines) ↔ bin.length < 16 := by
  have hrun : ∀ hex : Str, hex.length = 68 → hexit pri bin 16 hex =
      if hex.length = 68 ∧ 16 ≤ ([] : Str).length + bin.length then .error .crash
      else .ok (dumpRows pri [] bin) := fun hex hhex =>
    hexitLoop_eq (i := 0) pri bin (hexRow_nil (by omega)) (by decide) rfl (by omega)
  constructor
  · intro h
    by_contra hfull
    have hhex : (List.replicate 68 (0 : UInt8)).length = 68 := List.length_replicate ..
    obtain ⟨lines, hlines, -⟩ := h _ hhex
    rw [hrun _ hhex, if_pos ⟨hhex, by rw [List.length_nil]; omega⟩] at hlines
    cases hlines
  · intro hlt hex hhex
    refine ⟨dumpRows pri [] bin, ?_, dumps_dumpRows pri [] (by decide) bin⟩
    rw [hrun hex hhex, if_neg (by rw [List.length_nil]; omega)]

/-- A packet of sixteen bytes. -/
theorem full_row_overflows : ¬ ∃ lines, hexit 7 (str "INVITE sip:1@h S") 16
    (List.replicate (16 * 4 + 16 / 4) 0) = .ok lines := by
  rintro ⟨lines, hlines⟩
  cases hlines

end SipEcho
