import SipEcho.Common.Libc
import SipEcho.Lib.Block
import SipEcho.Map.Delete

/-!
One line of a configuration file, as `ini_read` in `ini.c` takes it apart in its buffer, in which
the bytes of earlier lines may still stand behind the line.

* `iniScan`: the cut at a comment, the name and the value, by the steps of the code;
* `LineEffect`, `iniLine`: what the line is for the table that is read;
* `lineImage`, `lineMeaning`: the line as it stands in the buffer, and what it says by itself;
* `SelfContained`: the name and the value are found within the line;
* `iniScan_meaning`: a self-contained line means what it says, whatever stood in the buffer;
  `iniScan_crash`: any other line leaves the buffer, when the bytes behind it are separators;
* `iniLine_iff`: so a line means the same over every buffer exactly when it is self-contained.
-/

namespace SipEcho

open Lib

/-! ### The code -/

/-- `sizeof(buff)`. -/
def buffSize : ℕ := 1024

/-- What does not end the part of a line that is looked at: `strcspn(buff, "#;{\r\n")`. -/
def isKept (c : UInt8) : Bool := c ≠ 0 ∧ c ∉ [35, 59, 123, 13, 10]

/-- What stands in front of a name: `strchr(" \t", *name)` finds the NUL as well. -/
def isLead (c : UInt8) : Bool := c = 0 ∨ c ∈ [32, 9]

/-- What stands between a name and a value. -/
def isSeparator (c : UInt8) : Bool := c ∈ [32, 58, 61, 9]

/-- What does not end a name: `strcspn(name, " :=\t")`. -/
def isNameByte (c : UInt8) : Bool := c ≠ 0 ∧ !isSeparator c

/-- What `ini_read` finds in the buffer: nothing, a closing brace, or a name and a value, by their
places. -/
inductive LineScan where
  | skip
  | close
  | entry (name value : ℕ)

/-- The scan for a name and a value. -/
def iniScanName (buff : Str) : Except Fault (Str × LineScan) := do
  let name ← skipWhile .crash isLead buff 0
  let c ← load .crash buff name
  if c = 125 then return (buff, .close)
  let behind ← skipWhile .crash isNameByte buff name
  let buff ← store .crash buff behind 0
  let value ← skipWhile .crash isSeparator buff (behind + 1)
  return (buff, .entry name value)

/-- The scan of the line in the buffer, up to the search for its name in the table. -/
def iniScan (buff : Str) : Except Fault (Str × LineScan) := do
  let cut ← skipWhile .crash isKept buff 0
  let buff ← store .crash buff cut 0
  if buff.head? = some 0 then return (buff, .skip)
  else iniScanName buff

/-- The C string at a place in the buffer. -/
def cstrAt (buff : Str) (i : ℕ) : Except Fault Str :=
  if 0 ∈ buff.drop i then .ok (cstr (buff.drop i)) else .error .crash

/-- What a line is for the table that is read. -/
inductive LineEffect where
  | skip
  | close
  | entry (name value : Str)
  deriving DecidableEq

/-- What is found, by its texts. -/
def LineScan.effect (buff : Str) : LineScan → Except Fault LineEffect
  | .skip => .ok .skip
  | .close => .ok .close
  | .entry name value => do
      let name ← cstrAt buff name
      let value ← cstrAt buff value
      return .entry name value

/-- What the line in the buffer is. -/
def iniLine (buff : Str) : Except Fault LineEffect := do
  let (buff, scan) ← iniScan buff
  scan.effect buff

/-! ### What a line says -/

/-- The part of a line that is looked at. -/
def cutLine (line : Str) : Str := line.takeWhile isKept

/-- The line in the buffer, with its NUL, when it has been cut. -/
def lineImage (line : Str) : Str :=
  cutLine line ++ 0 :: (line ++ [0]).drop ((cutLine line).length + 1)

/-- The line from its name on. -/
def lineBody (line : Str) : Str := (lineImage line).dropWhile isLead

/-- The name. -/
def lineName (line : Str) : Str := (lineBody line).takeWhile isNameByte

/-- What stands behind the byte that ends the name. -/
def lineBehind (line : Str) : Str := (lineBody line).drop ((lineName line).length + 1)

/-- What a line says by itself. -/
def lineMeaning (line : Str) : LineEffect :=
  if cutLine line = [] then .skip
  else if (lineBody line).head? = some 125 then .close
  else .entry (lineName line) (cstr ((lineBehind line).dropWhile isSeparator))

/-- **The name and the value are within the line**: it is empty up to a comment, or it has a name,
and this is a closing brace or has something behind it. -/
def SelfContained (line : Str) : Prop :=
  cutLine line = [] ∨ ((lineBody line).head? = some 125 ∨ lineBehind line ≠ [])

instance (line : Str) : Decidable (SelfContained line) := inferInstanceAs (Decidable (_ ∨ _))

section Image

variable {line stale : Str}

/-- The byte at which the line is cut, and what stands behind it. -/
lemma lineImage_split (line : Str) : ∃ c rest, line ++ [0] = cutLine line ++ c :: rest ∧
    lineImage line = cutLine line ++ 0 :: rest := by
  have hcut : (line ++ [0]).takeWhile isKept = cutLine line :=
    takeWhile_append_stop (by decide) line []
  have hend : (line ++ [0]).all isKept = false := by
    rw [List.all_append, Bool.and_eq_false_iff]
    exact .inr rfl
  obtain ⟨c, rest, -, hsplit⟩ := exists_eq_takeWhile hend
  rw [hcut] at hsplit
  refine ⟨c, rest, hsplit, ?_⟩
  rw [lineImage, hsplit, ← List.drop_drop, List.drop_left]
  rfl

lemma length_lineImage (line : Str) : (lineImage line).length = line.length + 1 := by
  obtain ⟨c, rest, hline, himage⟩ := lineImage_split line
  have hlength := congrArg List.length hline
  rw [himage, List.length_append, List.length_cons]
  rw [List.length_append, List.length_append, List.length_cons] at hlength
  exact hlength.symm

/-- It ends with the NUL of the line. -/
lemma lineImage_ends (line : Str) : ∃ front, lineImage line = front ++ [0] := by
  obtain ⟨c, rest, hline, himage⟩ := lineImage_split line
  rcases List.eq_nil_or_concat rest with rfl | ⟨rest, d, rfl⟩
  · exact ⟨cutLine line, himage⟩
  · rw [List.concat_eq_append] at hline himage
    rw [← List.cons_append, ← List.append_assoc] at hline
    refine ⟨cutLine line ++ 0 :: rest, ?_⟩
    rw [himage, List.append_assoc, List.cons_append, (List.append_inj_right' hline rfl).symm]

/-- So does what is left of it. -/
lemma ends_of_suffix {s : Str} (h : s <:+ lineImage line) (hs : s ≠ []) :
    ∃ front, s = front ++ [0] := by
  obtain ⟨front, hfront⟩ := lineImage_ends line
  rw [hfront, List.suffix_concat_iff] at h
  obtain ⟨t, rfl, -⟩ := h.resolve_left hs
  exact ⟨t, rfl⟩

/-- **The line is cut** in the buffer. -/
lemma iniScan_cut (line stale : Str) :
    skipWhile Fault.crash isKept (line ++ 0 :: stale) 0 = .ok (cutLine line).length ∧
    store Fault.crash (line ++ 0 :: stale) (cutLine line).length 0 =
      .ok (lineImage line ++ stale) := by
  constructor
  · have hall : (line ++ 0 :: stale).all isKept = false := by
      rw [List.all_append, List.all_cons]
      exact Bool.and_eq_false_iff.mpr (.inr rfl)
    rw [skipWhile_zero, hall, takeWhile_append_stop (by decide)]
    rfl
  · obtain ⟨c, rest, hline, himage⟩ := lineImage_split line
    rw [List.append_cons, hline, himage, List.append_assoc, List.append_assoc, List.cons_append]
    exact store_append c _

/-- Up to a comment the line is empty. -/
lemma iniScan_skip (hcut : cutLine line = []) :
    iniScan (line ++ 0 :: stale) = .ok (lineImage line ++ stale, .skip) := by
  obtain ⟨c, rest, -, himage⟩ := lineImage_split line
  obtain ⟨hskip, hstore⟩ := iniScan_cut line stale
  rw [iniScan, hskip]
  show (store _ _ _ _ >>= _) = _
  rw [hstore]
  show (if (lineImage line ++ stale).head? = some 0 then _ else _) = _
  rw [if_pos (by rw [himage, hcut]; rfl)]
  rfl

/-- It is not: the name is looked for. -/
lemma iniScan_name (hcut : cutLine line ≠ []) :
    iniScan (line ++ 0 :: stale) = iniScanName (lineImage line ++ stale) := by
  obtain ⟨c, rest, -, himage⟩ := lineImage_split line
  obtain ⟨hskip, hstore⟩ := iniScan_cut line stale
  obtain ⟨d, cut, hd⟩ := List.exists_cons_of_ne_nil hcut
  have hkept : isKept d = true := List.mem_takeWhile_imp (hd ▸ List.mem_cons_self)
  have hne : d ≠ 0 := by
    rintro rfl
    contradiction
  rw [iniScan, hskip]
  show (store _ _ _ _ >>= _) = _
  rw [hstore]
  show (if (lineImage line ++ stale).head? = some 0 then _ else _) = _
  rw [if_neg]
  rw [himage, hd]
  exact fun h => hne (Option.some.inj h)

/-! ### The name -/

/-- What stands in front of the name. -/
def lineLead (line : Str) : Str := (lineImage line).takeWhile isLead

lemma lineImage_eq (line : Str) : lineImage line = lineLead line ++ lineBody line :=
  List.takeWhile_append_dropWhile.symm

lemma lineBody_suffix (line : Str) : lineBody line <:+ lineImage line :=
  List.dropWhile_suffix _

/-- The byte with which the name begins. -/
lemma lineBody_head (hbody : lineBody line ≠ []) : ∃ c rest, isLead c = false ∧
    lineBody line = c :: rest := by
  obtain ⟨c, rest, hrest⟩ := List.exists_cons_of_ne_nil hbody
  refine ⟨c, rest, ?_, hrest⟩
  have hhead := List.head?_dropWhile_not isLead (lineImage line)
  rw [← lineBody, hrest] at hhead
  simpa using hhead

/-- The name is found. -/
lemma skip_lead (hbody : lineBody line ≠ []) (stale : Str) :
    skipWhile Fault.crash isLead (lineImage line ++ stale) 0 = .ok (lineLead line).length := by
  obtain ⟨c, rest, hc, hrest⟩ := lineBody_head hbody
  have hall : (lineImage line).all isLead = false := by
    rw [lineImage_eq, hrest, List.all_append, List.all_cons, hc, Bool.false_and, Bool.and_false]
  rw [skipWhile_zero, takeWhile_append_left hall, List.all_append, hall, Bool.false_and]
  rfl

/-- The byte that ends the name. -/
lemma lineBody_split (hbody : lineBody line ≠ []) : ∃ c, isNameByte c = false ∧
    lineBody line = lineName line ++ c :: lineBehind line := by
  obtain ⟨front, hfront⟩ := ends_of_suffix (lineBody_suffix line) hbody
  have hall : (lineBody line).all isNameByte = false := by
    rw [hfront, List.all_append]
    exact Bool.and_eq_false_iff.mpr (.inr rfl)
  obtain ⟨c, rest, hc, hrest⟩ := exists_eq_takeWhile hall
  have hbehind : lineBehind line = rest := by
    rw [lineBehind, (congrArg (List.drop _) hrest : (lineBody line).drop _ = _), ← List.drop_drop]
    exact congrArg (List.drop 1) List.drop_left
  exact ⟨c, hc, hrest.trans (by rw [hbehind, lineName])⟩

lemma lineBehind_suffix (line : Str) : lineBehind line <:+ lineImage line :=
  (List.drop_suffix _ _).trans (lineBody_suffix line)

lemma lineName_ne_zero (line : Str) : 0 ∉ lineName line := fun h => by
  have := List.mem_takeWhile_imp h
  contradiction

lemma getElem?_lead {c : UInt8} {rest : Str} (hbody : lineBody line = c :: rest) (stale : Str) :
    (lineImage line ++ stale)[(lineLead line).length]? = some c := by
  rw [lineImage_eq, hbody, List.append_assoc, List.getElem?_append_right le_rfl, Nat.sub_self]
  rfl

/-- A closing brace. -/
lemma iniScanName_close (hbrace : (lineBody line).head? = some 125) (stale : Str) :
    iniScanName (lineImage line ++ stale) = .ok (lineImage line ++ stale, .close) := by
  have hbody : lineBody line ≠ [] := by
    intro h
    rw [h] at hbrace
    cases hbrace
  obtain ⟨c, rest, -, hrest⟩ := lineBody_head hbody
  rw [hrest] at hbrace
  obtain rfl : c = 125 := Option.some.inj hbrace
  rw [iniScanName, skip_lead hbody]
  show (load _ _ _ >>= _) = _
  rw [load_eq (getElem?_lead hrest stale)]
  rfl

/-- **A name**: it is ended by a NUL, and the value is looked for behind it. -/
lemma iniScanName_entry (hbody : lineBody line ≠ []) (hbrace : (lineBody line).head? ≠ some 125)
    (stale : Str) : iniScanName (lineImage line ++ stale) = (do
      let value ← skipWhile .crash isSeparator
        (lineLead line ++ lineName line ++ 0 :: (lineBehind line ++ stale))
        ((lineLead line).length + (lineName line).length + 1)
      return (lineLead line ++ lineName line ++ 0 :: (lineBehind line ++ stale),
        .entry (lineLead line).length value)) := by
  obtain ⟨c, rest, -, hrest⟩ := lineBody_head hbody
  obtain ⟨d, hd, hsplit⟩ := lineBody_split hbody
  have hc : c ≠ 125 := by
    rintro rfl
    exact hbrace (by rw [hrest]; rfl)
  have hskip : skipWhile Fault.crash isNameByte (lineImage line ++ stale) (lineLead line).length =
      .ok ((lineLead line).length + (lineName line).length) := by
    have hall : (lineBody line).all isNameByte = false := by
      rw [hsplit, List.all_append, List.all_cons, hd, Bool.false_and, Bool.and_false]
    rw [lineImage_eq, List.append_assoc, skipWhile_append, List.all_append, hall, Bool.false_and,
      takeWhile_append_left hall]
    rfl
  have hstore : store Fault.crash (lineImage line ++ stale)
      ((lineLead line).length + (lineName line).length) 0 =
        .ok (lineLead line ++ lineName line ++ 0 :: (lineBehind line ++ stale)) := by
    rw [lineImage_eq, hsplit, ← List.length_append, List.append_assoc, List.append_assoc,
      List.cons_append, ← List.append_assoc]
    exact store_append d _
  rw [iniScanName, skip_lead hbody]
  show (load _ _ _ >>= _) = _
  rw [load_eq (getElem?_lead hrest stale)]
  show (if c = 125 then _ else _) = _
  rw [if_neg hc, hskip]
  show (store _ _ _ _ >>= _) = _
  rw [hstore]
  rfl

/-! ### The effect -/

lemma cstrAt_append {front s : Str} (hs : 0 ∈ s) :
    cstrAt (front ++ s) front.length = .ok (cstr s) := by
  rw [cstrAt, List.drop_left, if_pos hs]

/-- **The value**, when there is something behind the name. -/
lemma skip_value (hbehind : lineBehind line ≠ []) (front stale : Str) :
    skipWhile Fault.crash isSeparator (front ++ (lineBehind line ++ stale)) front.length =
      .ok (front.length + ((lineBehind line).takeWhile isSeparator).length) ∧
    cstrAt (front ++ (lineBehind line ++ stale))
      (front.length + ((lineBehind line).takeWhile isSeparator).length) =
        .ok (cstr ((lineBehind line).dropWhile isSeparator)) := by
  obtain ⟨rest, hrest⟩ := ends_of_suffix (lineBehind_suffix line) hbehind
  have hall : (lineBehind line).all isSeparator = false := by
    rw [hrest, List.all_append]
    exact Bool.and_eq_false_iff.mpr (.inr rfl)
  constructor
  · rw [skipWhile_append, takeWhile_append_left hall, List.all_append, hall, Bool.false_and]
    rfl
  · have hsplit : front ++ (lineBehind line ++ stale) =
        front ++ (lineBehind line).takeWhile isSeparator ++
          ((lineBehind line).dropWhile isSeparator ++ stale) := by
      rw [List.append_assoc front, ← List.append_assoc (List.takeWhile ..),
        List.takeWhile_append_dropWhile]
    have hne : (lineBehind line).dropWhile isSeparator ≠ [] := fun h => by
      have := List.dropWhile_eq_nil_iff.mp h 0 (by rw [hrest]; simp)
      contradiction
    obtain ⟨value, hvalue⟩ := ends_of_suffix
      ((List.dropWhile_suffix _).trans (lineBehind_suffix line)) hne
    have hnul : ((lineBehind line).dropWhile isSeparator).all (· ≠ 0) = false := by
      rw [hvalue, List.all_append]
      exact Bool.and_eq_false_iff.mpr (.inr rfl)
    rw [hsplit, ← List.length_append, cstrAt_append (by rw [hvalue]; simp), cstr,
      takeWhile_append_left hnul]
    rfl

/-- **A self-contained line means what it says**, whatever stood in the buffer. -/
lemma iniScan_meaning (hline : SelfContained line) (stale : Str) :
    ∃ buff scan, iniScan (line ++ 0 :: stale) = .ok (buff, scan) ∧
      scan.effect buff = .ok (lineMeaning line) ∧ buff.length = line.length + 1 + stale.length := by
  by_cases hcut : cutLine line = []
  · refine ⟨_, _, iniScan_skip hcut, ?_, ?_⟩
    · rw [lineMeaning, if_pos hcut]
      rfl
    · rw [List.length_append, length_lineImage]
  rw [iniScan_name hcut, lineMeaning, if_neg hcut]
  by_cases hbrace : (lineBody line).head? = some 125
  · refine ⟨_, _, iniScanName_close hbrace stale, ?_, ?_⟩
    · rw [if_pos hbrace]
      rfl
    · rw [List.length_append, length_lineImage]
  have hbehind := (hline.resolve_left hcut).resolve_left hbrace
  have hbody : lineBody line ≠ [] := fun h => hbehind (by rw [lineBehind, h, List.drop_nil])
  obtain ⟨c, -, hsplit⟩ := lineBody_split hbody
  set front := lineLead line ++ lineName line ++ [0] with hfront
  have hbuff : lineLead line ++ lineName line ++ 0 :: (lineBehind line ++ stale) =
      front ++ (lineBehind line ++ stale) := List.append_cons ..
  have hlength : (lineLead line).length + (lineName line).length + 1 = front.length := by
    rw [hfront, List.length_append, List.length_append, List.length_singleton]
  obtain ⟨hskip, hvalue⟩ := skip_value hbehind front stale
  rw [iniScanName_entry hbody hbrace, hbuff, hlength, hskip]
  refine ⟨_, _, rfl, ?_, ?_⟩
  · have hname : cstrAt (front ++ (lineBehind line ++ stale)) (lineLead line).length =
        .ok (lineName line) := by
      rw [← hbuff, List.append_assoc, cstrAt_append (by simp),
        cstr_append_zero (lineName_ne_zero line)]
    rw [if_neg hbrace, LineScan.effect, hname]
    show (cstrAt _ _ >>= _) = _
    rw [hvalue]
    rfl
  · have himage := congrArg List.length (lineImage_eq line)
    rw [length_lineImage, hsplit] at himage
    simp only [List.length_append, List.length_cons] at himage hlength ⊢
    omega

/-- Behind a name there are separators up to the end of the buffer. -/
lemma skip_separators (front : Str) (n : ℕ) : skipWhile Fault.crash isSeparator
    (front ++ 0 :: List.replicate n 61) (front.length + 1) = .error .crash := by
  have hall : (List.replicate n (61 : UInt8)).all isSeparator = true := by
    rw [List.all_eq_true]
    intro c hc
    rw [List.eq_of_mem_replicate hc]
    rfl
  have hlength : (front ++ [0]).length = front.length + 1 := List.length_append
  rw [List.append_cons, ← hlength, skipWhile_append, if_pos hall]

/-- **Any other line** is read beyond its end: with separators up to the end of the buffer, the scan
leaves it. -/
lemma iniScan_crash (hline : ¬ SelfContained line) (n : ℕ) :
    iniScan (line ++ 0 :: List.replicate n 61) = .error .crash := by
  obtain ⟨hcut, hbrace, hbehind⟩ : cutLine line ≠ [] ∧ (lineBody line).head? ≠ some 125 ∧
      lineBehind line = [] := by
    rw [SelfContained, not_or, not_or, not_not] at hline
    exact hline
  rw [iniScan_name hcut]
  by_cases hbody : lineBody line = []
  · have himage : lineImage line = lineLead line := by
      rw [lineImage_eq, hbody, List.append_nil]
    have hlead : (lineImage line).all isLead = true :=
      List.all_eq_true.mpr (List.dropWhile_eq_nil_iff.mp hbody)
    cases n with
    | zero =>
        rw [iniScanName, List.replicate_zero, List.append_nil, skipWhile_zero, if_pos hlead]
        rfl
    | succ n =>
        set buff := lineImage line ++ List.replicate (n + 1) 61 with hbuff
        have hname : skipWhile Fault.crash isLead buff 0 = .ok (lineImage line).length := by
          have hlast : buff.all isLead = false := by
            rw [hbuff, List.replicate_succ, List.all_append, List.all_cons]
            exact Bool.and_eq_false_iff.mpr (.inr rfl)
          have hwhole : buff.takeWhile isLead = lineImage line := by
            rw [hbuff, List.replicate_succ, takeWhile_append_stop (by decide), ← lineLead, himage]
          rw [skipWhile_zero, hlast, hwhole]
          rfl
        have hload : buff[(lineImage line).length]? = some 61 := by
          rw [hbuff, List.getElem?_append_right le_rfl, Nat.sub_self]
          rfl
        have hskip : skipWhile Fault.crash isNameByte buff (lineImage line).length =
            .ok (lineImage line).length := by
          rw [hbuff, skipWhile_append]
          rfl
        have hstore : store Fault.crash buff (lineImage line).length 0 =
            .ok (lineImage line ++ 0 :: List.replicate n 61) := store_append 61 _
        rw [iniScanName, hname]
        show (load _ _ _ >>= _) = _
        rw [load_eq hload]
        show (skipWhile _ isNameByte _ _ >>= _) = _
        rw [hskip]
        show (store _ _ _ _ >>= _) = _
        rw [hstore]
        show (skipWhile _ isSeparator _ _ >>= _) = _
        rw [skip_separators]
        rfl
  · rw [iniScanName_entry hbody hbrace, hbehind, List.nil_append, ← List.length_append,
      skip_separators]
    rfl

end Image

/-- **A line means the same over every buffer exactly when it is self-contained.** -/
theorem iniLine_iff {line : Str} (hlength : line.length < buffSize) :
    (∃ effect, ∀ stale : Str, line.length + 1 + stale.length = buffSize →
      iniLine (line ++ 0 :: stale) = .ok effect) ↔ SelfContained line := by
  constructor
  · rintro ⟨effect, h⟩
    by_contra hline
    have hcrash := h (List.replicate (buffSize - (line.length + 1)) 61)
      (by rw [List.length_replicate]; omega)
    rw [iniLine, iniScan_crash hline] at hcrash
    cases hcrash
  · intro hline
    refine ⟨lineMeaning line, fun stale _ => ?_⟩
    obtain ⟨buff, scan, hscan, heffect, -⟩ := iniScan_meaning hline stale
    rw [iniLine, hscan]
    exact heffect

end SipEcho
