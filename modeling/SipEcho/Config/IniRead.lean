import SipEcho.Config.IniLine
import Mathlib.Logic.Function.Basic

/-!
The configuration reader `ini_read` in `ini.c`: line by line into one buffer, with a call of itself
for each subgroup, up to a closing brace or the end of the file.

* `IniElement`, `iniSetValue`, `fgets`, `iniRead`: the code; every call begins with whatever stands
  in its buffer;
* `fileLines`, `linesRun`: the lines of a file, and what they do when each means what it says, with
  the groups that are open as a stack;
* `LinesFit`: each line that is read fits into the buffer and is self-contained;
* `iniRead_lines`: on such a file the reader does what the lines say;
* `SameButIdle`: two files that differ only in lines that name no element, and `linesRun_same`.
-/

namespace SipEcho

open Lib

/-! ### The code -/

/-- `ini_type_t`. -/
inductive IniType where
  | invalid
  | int
  | int64
  | float
  | double
  | charBuf
  | charPtr
  | bool
  | inaddr
  | subgroup
  | last
  deriving DecidableEq

/-- `ini_t`, with the table a subgroup refers to by its `value`. -/
structure IniElement (τ : Type) where
  name : Str
  value : Option τ
  type : IniType
  offset : ℤ
  length : ℕ

/-- What an item of the configuration holds. -/
inductive Item (δ φ : Type) where
  | int (n : ℤ)
  | int64 (n : ℤ)
  | float (x : φ)
  | double (x : δ)
  | charBuf (bytes : Str)
  | charPtr (text : Str)
  | bool (b : UInt8)
  | inaddr (address : UInt32)

/-- The conversions of the library that `ini_set_value` calls. -/
structure Conversions (δ φ : Type) where
  strtod : Str → δ
  strtof : Str → φ
  inetAton : Str → Option UInt32

variable {τ δ φ : Type}

/-- `strncpy`: the text cut to `size` bytes, or filled up with NULs. -/
def strncpy (value : Str) (size : ℕ) : Str := (value ++ List.replicate size 0).take size

/-- `ini_set_value` of a text. -/
def iniSetValue (lib : Conversions δ φ) (items : ℤ → Item δ φ) (item : ℤ) (size : ℕ)
    (type : IniType) (value : Str) : ℤ → Item δ φ :=
  match type with
  | .bool =>
      if strcasecmp value (str "yes") ≠ 0 ∧ strcasecmp value (str "true") ≠ 0 then
        Function.update items item (.bool 0)
      else Function.update items item (.bool 1)
  | .charBuf => Function.update items item (.charBuf (strncpy value size))
  | .charPtr => Function.update items item (.charPtr value)
  | .double => Function.update items item (.double (lib.strtod value))
  | .float => Function.update items item (.float (lib.strtof value))
  | .inaddr =>
      match lib.inetAton value with
      | some address => Function.update items item (.inaddr address)
      | none => items
  | .int => Function.update items item (.int (toInt (strtolBy anyDigits value)))
  | .int64 => Function.update items item (.int64 (strtolBy anyDigits value))
  | .subgroup | .invalid | .last => items

/-- `ini_name_cmp`. -/
def iniNameCmp (a b : Str) : ℤ := strcasecmp (a.dropWhile (· = 95)) b

/-- The search for a name in a table. -/
def iniFind (element : List (IniElement τ)) (name : Str) : Option (IniElement τ) :=
  element.find? fun e => iniNameCmp e.name name = 0

/-- The characters up to a newline, `n` of them at most. -/
def fgetsLine : ℕ → Str → Str
  | 0, _ => []
  | _, [] => []
  | n + 1, c :: file => if c = 10 then [c] else c :: fgetsLine n file

/-- `fgets`: the buffer and what is left of the file. -/
def fgets (buff file : Str) : Option (Str × Str) :=
  if file = [] then none
  else
    let line := fgetsLine (buffSize - 1) file
    some (line ++ 0 :: buff.drop (line.length + 1), file.drop line.length)

/-- A buffer for a line, with what stands in it. -/
structure LineBuff where
  bytes : Str
  size : bytes.length = buffSize

/-- The first two arguments of a call of `ini_read`. -/
structure IniFrame (τ : Type) where
  base : ℤ
  element : τ

/-- The items, the rest of the file, and how many calls have been made. -/
structure IniState (δ φ : Type) where
  items : ℤ → Item δ φ
  file : Str
  calls : ℕ

/-- A call of `ini_read` at work. -/
structure IniRun (τ δ φ : Type) where
  frame : IniFrame τ
  buff : Str
  state : IniState δ φ

/-- A call begins, with what happens to be in its buffer. -/
def IniRun.call (fresh : ℕ → LineBuff) (frame : IniFrame τ) (state : IniState δ φ) :
    IniRun τ δ φ :=
  ⟨frame, (fresh state.calls).bytes, { state with calls := state.calls + 1 }⟩

section Reader

variable (lib : Conversions δ φ) (tables : τ → List (IniElement τ)) (fresh : ℕ → LineBuff)

/-- `ini_read`. -/
def iniRead : ℕ → IniRun τ δ φ → Except Fault (IniState δ φ)
  | 0, _ => throw .fuel
  | fuel + 1, run =>
      match fgets run.buff run.state.file with
      | none => return run.state
      | some (buff, file) => do
          let (buff, scan) ← iniScan buff
          let run := { run with buff, state := { run.state with file } }
          match scan with
          | .skip => iniRead fuel run
          | .close => return run.state
          | .entry name value => do
              let name ← cstrAt buff name
              match iniFind (tables run.frame.element) name with
              | none => iniRead fuel run
              | some e =>
                  let item := run.frame.base + e.offset
                  if e.type = .subgroup then
                    match e.value with
                    | none => iniRead fuel run
                    | some element => do
                        let state ← iniRead fuel (.call fresh ⟨item, element⟩ run.state)
                        iniRead fuel { run with state }
                  else do
                    let value ← cstrAt buff value
                    let items := iniSetValue lib run.state.items item e.length e.type value
                    iniRead fuel { run with state := { run.state with items } }

/-- `ini_read` comes to its end with these items, for some content of its buffers. -/
def IniReads (frame : IniFrame τ) (items : ℤ → Item δ φ) (file : Str)
    (items' : ℤ → Item δ φ) : Prop :=
  ∃ state, Ends (iniRead lib tables fresh) (.call fresh frame ⟨items, file, 0⟩) state ∧
    state.items = items'

end Reader

/-! ### Lines -/

/-- The lines of a file. -/
def fileLines : Str → List Str
  | [] => []
  | c :: file =>
      if c = 10 then [c] :: fileLines file
      else
        match fileLines file with
        | [] => [[c]]
        | line :: lines => (c :: line) :: lines

section Lines

variable (tables : τ → List (IniElement τ))

/-- The element that a line names. -/
def namedElement (frame : IniFrame τ) (line : Str) : Option (IniElement τ) :=
  match lineMeaning line with
  | .entry name _ => iniFind (tables frame.element) name
  | _ => none

/-- The groups that are open behind a line. -/
def nextFrames (line : Str) : List (IniFrame τ) → List (IniFrame τ)
  | [] => []
  | frame :: frames =>
      if lineMeaning line = .close then frames
      else
        match namedElement tables frame line with
        | none => frame :: frames
        | some e =>
            if e.type = .subgroup then
              match e.value with
              | none => frame :: frames
              | some element => ⟨frame.base + e.offset, element⟩ :: frame :: frames
            else frame :: frames

/-- The value in a line. -/
def lineValue (line : Str) : Str :=
  match lineMeaning line with
  | .entry _ value => value
  | _ => []

/-- The items behind a line. -/
def lineItems (lib : Conversions δ φ) (frame : IniFrame τ) (line : Str)
    (items : ℤ → Item δ φ) : ℤ → Item δ φ :=
  match namedElement tables frame line with
  | none => items
  | some e => iniSetValue lib items (frame.base + e.offset) e.length e.type (lineValue line)

/-- **What lines do** when each means what it says. -/
def linesRun (lib : Conversions δ φ) : List Str → List (IniFrame τ) → (ℤ → Item δ φ) →
    ℤ → Item δ φ
  | line :: lines, frame :: frames, items =>
      linesRun lib lines (nextFrames tables line (frame :: frames))
        (lineItems tables lib frame line items)
  | _, _, items => items

/-- The items that lines name. -/
def namedItems : List Str → List (IniFrame τ) → List ℤ
  | line :: lines, frame :: frames =>
      ((namedElement tables frame line).map (frame.base + ·.offset)).toList ++
        namedItems lines (nextFrames tables line (frame :: frames))
  | _, _ => []

/-- **Each line that is read fits into the buffer and is self-contained.** -/
def LinesFit : List Str → List (IniFrame τ) → Prop
  | line :: lines, frame :: frames => line.length < buffSize ∧ SelfContained line ∧
      LinesFit lines (nextFrames tables line (frame :: frames))
  | _, _ => True

/-- A line that matches no element, nor closes the group. -/
def NamesNone (frame : IniFrame τ) (line : Str) : Prop :=
  lineMeaning line ≠ .close ∧ namedElement tables frame line = none

/-- **Two files that differ only in lines that match no element.** Behind the last closing brace
nothing is read. -/
inductive SameButIdle : List (IniFrame τ) → List Str → List Str → Prop where
  | nil (frames : List (IniFrame τ)) : SameButIdle frames [] []
  | done (lines lines' : List Str) : SameButIdle [] lines lines'
  | same {frames : List (IniFrame τ)} (line : Str) {lines lines' : List Str}
      (h : SameButIdle (nextFrames tables line frames) lines lines') :
      SameButIdle frames (line :: lines) (line :: lines')
  | left {frame : IniFrame τ} {frames : List (IniFrame τ)} {line : Str} {lines lines' : List Str}
      (hline : NamesNone tables frame line)
      (h : SameButIdle (frame :: frames) lines lines') :
      SameButIdle (frame :: frames) (line :: lines) lines'
  | right {frame : IniFrame τ} {frames : List (IniFrame τ)} {line : Str} {lines lines' : List Str}
      (hline : NamesNone tables frame line)
      (h : SameButIdle (frame :: frames) lines lines') :
      SameButIdle (frame :: frames) lines (line :: lines')

end Lines

section Files

lemma fgetsLine_cons (n : ℕ) (c : UInt8) (file : Str) :
    fgetsLine (n + 1) (c :: file) = if c = 10 then [c] else c :: fgetsLine n file := rfl

/-- The first line of a file, and the rest. -/
lemma fileLines_split {file : Str} (hfile : file ≠ []) : ∃ line rest, line ≠ [] ∧
    file = line ++ rest ∧ fileLines file = line :: fileLines rest ∧
    ∀ n, line.length ≤ n → fgetsLine n file = line := by
  induction file with
  | nil => exact absurd rfl hfile
  | cons c file ih =>
      rw [fileLines]
      by_cases hc : c = 10
      · refine ⟨[c], file, List.cons_ne_nil _ _, rfl, if_pos hc, fun n hn => ?_⟩
        obtain ⟨n, rfl⟩ := Nat.exists_eq_succ_of_ne_zero (Nat.ne_of_gt hn)
        rw [fgetsLine_cons, if_pos hc]
      · rw [if_neg hc]
        by_cases hrest : file = []
        · subst hrest
          refine ⟨[c], [], List.cons_ne_nil _ _, rfl, rfl, fun n hn => ?_⟩
          obtain ⟨n, rfl⟩ := Nat.exists_eq_succ_of_ne_zero (Nat.ne_of_gt hn)
          rw [fgetsLine_cons, if_neg hc]
          cases n <;> rfl
        · obtain ⟨line, rest, -, hsplit, hlines, hget⟩ := ih hrest
          refine ⟨c :: line, rest, List.cons_ne_nil _ _, by rw [hsplit]; rfl, by rw [hlines],
            fun n hn => ?_⟩
          obtain ⟨n, rfl⟩ := Nat.exists_eq_add_of_le' (Nat.le_of_add_left_le hn)
          rw [fgetsLine_cons, if_neg hc, hget n (by rw [List.length_cons] at hn; omega)]

/-- A line that fits is read as a whole. -/
lemma fgets_line {file line rest : Str} (hline : line ≠ []) (hfile : file = line ++ rest)
    (hget : ∀ n, line.length ≤ n → fgetsLine n file = line) (hfit : line.length < buffSize)
    (buff : Str) : fgets buff file = some (line ++ 0 :: buff.drop (line.length + 1), rest) := by
  have hne : file ≠ [] := by
    rw [hfile]
    exact List.append_ne_nil_of_left_ne_nil hline rest
  rw [fgets, if_neg hne, hget _ (by omega), hfile]
  show some (_, (line ++ rest).drop line.length) = _
  rw [List.drop_left]

end Files

/-! ### The reader follows the lines -/

section Turns

variable {lib : Conversions δ φ} {tables : τ → List (IniElement τ)} {fresh : ℕ → LineBuff}

/-- Behind the end of the file there are no lines. -/
lemma linesRun_nil (frames : List (IniFrame τ)) (items : ℤ → Item δ φ) :
    linesRun tables lib [] frames items = items := by
  cases frames <;> rfl

/-- Behind the last closing brace nothing is read. -/
lemma linesRun_closed (lines : List Str) (items : ℤ → Item δ φ) :
    linesRun tables lib lines [] items = items := by
  cases lines <;> rfl

lemma linesFit_nil (frames : List (IniFrame τ)) : LinesFit tables [] frames := by
  cases frames <;> trivial

/-- What a line is tells what was found in it. -/
lemma effect_eq {buff : Str} {scan : LineScan} {effect : LineEffect}
    (h : scan.effect buff = .ok effect) :
    match effect with
    | .skip => scan = .skip
    | .close => scan = .close
    | .entry name value => ∃ i j, scan = .entry i j ∧ cstrAt buff i = .ok name ∧
        cstrAt buff j = .ok value := by
  cases scan with
  | skip =>
      cases h
      rfl
  | close =>
      cases h
      rfl
  | entry i j =>
      rw [LineScan.effect] at h
      cases hname : cstrAt buff i with
      | error e =>
          rw [hname] at h
          cases h
      | ok name =>
          cases hvalue : cstrAt buff j with
          | error e =>
              rw [hname, hvalue] at h
              cases h
          | ok value =>
              rw [hname, hvalue] at h
              cases h
              exact ⟨i, j, rfl, hname, hvalue⟩

section Steps

variable {frame : IniFrame τ} {state : IniState δ φ} {buff read buff' file name value : Str}
  {i j : ℕ} {e : IniElement τ}

/-- There is nothing in the line. -/
lemma iniRead_skip (hget : fgets buff state.file = some (read, file))
    (hscan : iniScan read = .ok (buff', .skip)) (fuel : ℕ) :
    iniRead lib tables fresh (fuel + 1) ⟨frame, buff, state⟩ =
      iniRead lib tables fresh fuel ⟨frame, buff', { state with file }⟩ := by
  rw [iniRead, hget]
  show (iniScan _ >>= _) = _
  rw [hscan]
  rfl

/-- The group is closed. -/
lemma iniRead_close (hget : fgets buff state.file = some (read, file))
    (hscan : iniScan read = .ok (buff', .close)) (fuel : ℕ) :
    iniRead lib tables fresh (fuel + 1) ⟨frame, buff, state⟩ = .ok { state with file } := by
  rw [iniRead, hget]
  show (iniScan _ >>= _) = _
  rw [hscan]
  rfl

variable (lib tables fresh frame) in
/-- The name is looked for in the table. -/
lemma iniRead_entry (hget : fgets buff state.file = some (read, file))
    (hscan : iniScan read = .ok (buff', .entry i j)) (hname : cstrAt buff' i = .ok name)
    (fuel : ℕ) : iniRead lib tables fresh (fuel + 1) ⟨frame, buff, state⟩ =
      (match iniFind (tables frame.element) name with
      | none => iniRead lib tables fresh fuel ⟨frame, buff', { state with file }⟩
      | some e =>
          if e.type = .subgroup then
            match e.value with
            | none => iniRead lib tables fresh fuel ⟨frame, buff', { state with file }⟩
            | some element => do
                let state ← iniRead lib tables fresh fuel
                  (.call fresh ⟨frame.base + e.offset, element⟩ { state with file })
                iniRead lib tables fresh fuel ⟨frame, buff', state⟩
          else do
            let value ← cstrAt buff' j
            let items := iniSetValue lib state.items (frame.base + e.offset) e.length e.type value
            iniRead lib tables fresh fuel ⟨frame, buff', { state with file, items }⟩) := by
  rw [iniRead, hget]
  show (iniScan _ >>= _) = _
  rw [hscan]
  show (cstrAt _ _ >>= _) = _
  rw [hname]
  rfl

end Steps

variable (lib tables fresh) in
/-- **A call does what the lines say** up to the end of its group, and leaves lines that fit. -/
def FollowsLines (frames : List (IniFrame τ)) (run : IniRun τ δ φ) : Prop :=
  ∃ state, Ends (iniRead lib tables fresh) run state ∧
    state.file.length ≤ run.state.file.length ∧ LinesFit tables (fileLines state.file) frames ∧
    linesRun tables lib (fileLines run.state.file) (run.frame :: frames) run.state.items =
      linesRun tables lib (fileLines state.file) frames state.items

section Frames

variable {frame : IniFrame τ} {line : Str} {e : IniElement τ}

/-- A line that names an element closes nothing. -/
lemma lineMeaning_ne_close (hnamed : namedElement tables frame line = some e) :
    lineMeaning line ≠ .close := by
  intro h
  rw [namedElement, h] at hnamed
  cases hnamed

lemma nextFrames_none (frames : List (IniFrame τ)) (hline : NamesNone tables frame line) :
    nextFrames tables line (frame :: frames) = frame :: frames := by
  rw [nextFrames, if_neg hline.1, hline.2]

lemma nextFrames_item (frames : List (IniFrame τ))
    (hnamed : namedElement tables frame line = some e) (h : e.type = .subgroup → e.value = none) :
    nextFrames tables line (frame :: frames) = frame :: frames := by
  rw [nextFrames, if_neg (lineMeaning_ne_close hnamed), hnamed]
  show (if e.type = .subgroup then _ else _) = _
  split
  · next htype => rw [h htype]
  · rfl

lemma nextFrames_group {element : τ} (frames : List (IniFrame τ))
    (hnamed : namedElement tables frame line = some e) (htype : e.type = .subgroup)
    (hgroup : e.value = some element) :
    nextFrames tables line (frame :: frames) =
      ⟨frame.base + e.offset, element⟩ :: frame :: frames := by
  rw [nextFrames, if_neg (lineMeaning_ne_close hnamed), hnamed]
  show (if e.type = .subgroup then _ else _) = _
  rw [if_pos htype, hgroup]

lemma lineItems_none (items : ℤ → Item δ φ) (hnamed : namedElement tables frame line = none) :
    lineItems tables lib frame line items = items := by
  rw [lineItems, hnamed]

variable (lib) in
/-- A line that begins a subgroup changes no item. -/
lemma lineItems_group (items : ℤ → Item δ φ) (hnamed : namedElement tables frame line = some e)
    (htype : e.type = .subgroup) : lineItems tables lib frame line items = items := by
  rw [lineItems, hnamed]
  show iniSetValue _ _ _ _ e.type _ = _
  rw [htype, iniSetValue]

end Frames

section Follows

variable {frame : IniFrame τ} {frames : List (IniFrame τ)} {buff buff' line rest : Str}
  {state : IniState δ φ}

/-- The end of the file. -/
lemma followsLines_nil (hfile : state.file = []) :
    FollowsLines lib tables fresh frames ⟨frame, buff, state⟩ := by
  refine ⟨state, .last fun fuel => ?_, le_rfl, ?_, ?_⟩
  · rw [iniRead, fgets, if_pos hfile]
    rfl
  · rw [hfile]
    exact linesFit_nil frames
  · rw [hfile, fileLines, linesRun_nil, linesRun_nil]

/-- The closing brace. -/
lemma followsLines_close (hlines : fileLines state.file = line :: fileLines rest)
    (hle : rest.length ≤ state.file.length)
    (hturn : ∀ fuel, iniRead lib tables fresh (fuel + 1) ⟨frame, buff, state⟩ =
      .ok { state with file := rest })
    (hclose : lineMeaning line = .close) (hfit : LinesFit tables (fileLines rest) frames) :
    FollowsLines lib tables fresh frames ⟨frame, buff, state⟩ := by
  refine ⟨_, .last hturn, hle, hfit, ?_⟩
  have hitems : lineItems tables lib frame line state.items = state.items := by
    rw [lineItems, namedElement, hclose]
  show linesRun tables lib (fileLines state.file) _ _ = _
  rw [hlines, linesRun, nextFrames, if_pos hclose, hitems]

/-- The reader goes on in its group, with other items. -/
lemma followsLines_turn (items : ℤ → Item δ φ)
    (h : FollowsLines lib tables fresh frames ⟨frame, buff', { state with file := rest, items }⟩)
    (hlines : fileLines state.file = line :: fileLines rest)
    (hle : rest.length ≤ state.file.length)
    (hturn : ∀ fuel, iniRead lib tables fresh (fuel + 1) ⟨frame, buff, state⟩ =
      iniRead lib tables fresh fuel ⟨frame, buff', { state with file := rest, items }⟩)
    (hnext : nextFrames tables line (frame :: frames) = frame :: frames)
    (hitems : lineItems tables lib frame line state.items = items) :
    FollowsLines lib tables fresh frames ⟨frame, buff, state⟩ := by
  obtain ⟨state', hends, hle', hfit, hrun⟩ := h
  refine ⟨state', hends.turn hturn, hle'.trans hle, hfit, ?_⟩
  show linesRun tables lib (fileLines state.file) _ _ = _
  rw [hlines, linesRun, hnext, hitems]
  exact hrun

/-- A subgroup is read, and then the reader goes on in its group. -/
lemma followsLines_call {group : IniFrame τ}
    (h : FollowsLines lib tables fresh (frame :: frames)
      (.call fresh group { state with file := rest }))
    (hlines : fileLines state.file = line :: fileLines rest)
    (hle : rest.length ≤ state.file.length)
    (hrest : ∀ state' : IniState δ φ, state'.file.length ≤ rest.length →
      LinesFit tables (fileLines state'.file) (frame :: frames) →
      FollowsLines lib tables fresh frames ⟨frame, buff', state'⟩)
    (hturn : ∀ fuel, iniRead lib tables fresh (fuel + 1) ⟨frame, buff, state⟩ = (do
      let state ← iniRead lib tables fresh fuel (.call fresh group { state with file := rest })
      iniRead lib tables fresh fuel ⟨frame, buff', state⟩))
    (hnext : nextFrames tables line (frame :: frames) = group :: frame :: frames)
    (hitems : lineItems tables lib frame line state.items = state.items) :
    FollowsLines lib tables fresh frames ⟨frame, buff, state⟩ := by
  obtain ⟨state₁, hends₁, hle₁, hfit₁, hrun₁⟩ := h
  obtain ⟨state₂, hends₂, hle₂, hfit₂, hrun₂⟩ := hrest state₁ hle₁ hfit₁
  refine ⟨state₂, hends₁.call hends₂ fun fuel hfuel => ?_, ?_, hfit₂, ?_⟩
  · rw [hturn, hfuel]
    rfl
  · exact hle₂.trans (hle₁.trans hle)
  · calc linesRun tables lib (fileLines state.file) (frame :: frames) state.items
        = linesRun tables lib (fileLines rest) (group :: frame :: frames) state.items := by
          rw [hlines, linesRun, hnext, hitems]
      _ = linesRun tables lib (fileLines state₁.file) (frame :: frames) state₁.items := hrun₁
      _ = linesRun tables lib (fileLines state₂.file) frames state₂.items := hrun₂

end Follows

/-- A line has been read into the buffer and scanned. -/
structure LineRead (buff file line rest buff' : Str) (scan : LineScan) : Prop where
  lines : fileLines file = line :: fileLines rest
  shorter : rest.length < file.length
  scanned : ∃ read, fgets buff file = some (read, rest) ∧ iniScan read = .ok (buff', scan)
  effect : scan.effect buff' = .ok (lineMeaning line)
  size : buff'.length = buffSize

/-- **A line that fits is read and scanned.** -/
lemma exists_lineRead {file buff : Str} {frame : IniFrame τ} {frames : List (IniFrame τ)}
    (hfile : file ≠ []) (hbuff : buff.length = buffSize)
    (hfit : LinesFit tables (fileLines file) (frame :: frames)) :
    ∃ line rest buff' scan, LineRead buff file line rest buff' scan ∧
      LinesFit tables (fileLines rest) (nextFrames tables line (frame :: frames)) := by
  obtain ⟨line, rest, hne, hsplit, hlines, hget⟩ := fileLines_split hfile
  rw [hlines, LinesFit] at hfit
  obtain ⟨hlength, hline, hfit⟩ := hfit
  have hfgets := fgets_line hne hsplit hget hlength buff
  obtain ⟨buff', scan, hscan, heffect, hbuff'⟩ :=
    iniScan_meaning hline (buff.drop (line.length + 1))
  have hpos := List.length_pos_of_ne_nil hne
  refine ⟨line, rest, buff', scan, ⟨hlines, ?_, ⟨_, hfgets, hscan⟩, heffect, ?_⟩, hfit⟩
  · rw [hsplit, List.length_append]
    omega
  · rw [hbuff', List.length_drop, hbuff]
    omega

/-- A line with a name and a value. -/
lemma followsLines_entry {buff buff' line rest name value : Str} {i j : ℕ} {frame : IniFrame τ}
    {frames : List (IniFrame τ)} {state : IniState δ φ}
    (hread : LineRead buff state.file line rest buff' (.entry i j))
    (hname : cstrAt buff' i = .ok name) (hvalue : cstrAt buff' j = .ok value)
    (hmeaning : lineMeaning line = .entry name value)
    (hfit : LinesFit tables (fileLines rest) (nextFrames tables line (frame :: frames)))
    (hrest : ∀ {frame : IniFrame τ} {frames : List (IniFrame τ)} {buff : Str}
      {state : IniState δ φ}, state.file.length ≤ rest.length → buff.length = buffSize →
      LinesFit tables (fileLines state.file) (frame :: frames) →
      FollowsLines lib tables fresh frames ⟨frame, buff, state⟩) :
    FollowsLines lib tables fresh frames ⟨frame, buff, state⟩ := by
  obtain ⟨hlines, hshorter, ⟨read, hget, hscan⟩, -, hsize⟩ := hread
  have hle := hshorter.le
  have hturn := iniRead_entry lib tables fresh frame hget hscan hname
  have hnamed : namedElement tables frame line = iniFind (tables frame.element) name := by
    rw [namedElement, hmeaning]
  rw [← hnamed] at hturn
  cases he : namedElement tables frame line with
  | none =>
      rw [he] at hturn
      have hnone : NamesNone tables frame line := by
        rw [NamesNone, hmeaning]
        exact ⟨LineEffect.noConfusion, he⟩
      rw [nextFrames_none _ hnone] at hfit
      exact followsLines_turn _ (hrest le_rfl hsize hfit) hlines hle hturn
        (nextFrames_none _ hnone) (lineItems_none _ he)
  | some e =>
      rw [he] at hturn
      by_cases htype : e.type = .subgroup
      · simp only [if_pos htype] at hturn
        have hitems := lineItems_group lib state.items he htype
        cases hgroup : e.value with
        | none =>
            rw [hgroup] at hturn
            have hnext := nextFrames_item frames he fun _ => hgroup
            rw [hnext] at hfit
            exact followsLines_turn _ (hrest le_rfl hsize hfit) hlines hle hturn hnext hitems
        | some element =>
            rw [hgroup] at hturn
            have hnext := nextFrames_group frames he htype hgroup
            rw [hnext] at hfit
            exact followsLines_call (hrest le_rfl (fresh _).size hfit) hlines hle
              (fun state' hle' hfit' => hrest hle' hsize hfit') hturn hnext hitems
      · simp only [if_neg htype, hvalue] at hturn
        have hnext := nextFrames_item frames he fun h => absurd h htype
        rw [hnext] at hfit
        refine followsLines_turn _ (hrest le_rfl hsize hfit) hlines hle hturn hnext ?_
        rw [lineItems, he, lineValue, hmeaning]

/-- **On lines that fit the reader does what they say.** -/
lemma iniRead_lines (n : ℕ) {frame : IniFrame τ} {frames : List (IniFrame τ)} {buff : Str}
    {state : IniState δ φ} (hn : state.file.length ≤ n) (hbuff : buff.length = buffSize)
    (hfit : LinesFit tables (fileLines state.file) (frame :: frames)) :
    FollowsLines lib tables fresh frames ⟨frame, buff, state⟩ := by
  induction n generalizing frame frames buff state with
  | zero => exact followsLines_nil (List.length_eq_zero_iff.mp (Nat.le_zero.mp hn))
  | succ n ih =>
      by_cases hfile : state.file = []
      · exact followsLines_nil hfile
      obtain ⟨line, rest, buff', scan, hread, hfit⟩ := exists_lineRead hfile hbuff hfit
      have hshorter := hread.shorter
      have heffect := hread.effect
      cases hmeaning : lineMeaning line with
      | skip =>
          rw [hmeaning] at heffect
          obtain rfl : scan = .skip := effect_eq heffect
          obtain ⟨read, hget, hscan⟩ := hread.scanned
          have hnone : NamesNone tables frame line := by
            rw [NamesNone, namedElement, hmeaning]
            exact ⟨LineEffect.noConfusion, rfl⟩
          rw [nextFrames_none _ hnone] at hfit
          have hn' : rest.length ≤ n := by omega
          exact followsLines_turn _ (ih hn' hread.size hfit) hread.lines hshorter.le
            (iniRead_skip hget hscan) (nextFrames_none _ hnone) (lineItems_none _ hnone.2)
      | close =>
          rw [hmeaning] at heffect
          obtain rfl : scan = .close := effect_eq heffect
          obtain ⟨read, hget, hscan⟩ := hread.scanned
          rw [nextFrames, if_pos hmeaning] at hfit
          exact followsLines_close hread.lines hshorter.le (iniRead_close hget hscan) hmeaning hfit
      | entry name value =>
          rw [hmeaning] at heffect
          obtain ⟨i, j, rfl, hname, hvalue⟩ := effect_eq heffect
          exact followsLines_entry hread hname hvalue hmeaning hfit fun hle => ih (by omega)

/-! ### Two files -/

/-- **Lines that match no element do nothing.** -/
lemma linesRun_same {frames : List (IniFrame τ)} {lines lines' : List Str}
    (h : SameButIdle tables frames lines lines') (items : ℤ → Item δ φ) :
    linesRun tables lib lines frames items = linesRun tables lib lines' frames items := by
  induction h generalizing items with
  | nil => rfl
  | done lines lines' => rw [linesRun_closed, linesRun_closed]
  | @same frames line lines lines' _ ih =>
      cases frames with
      | nil => rfl
      | cons frame frames => exact ih _
  | left hline _ ih =>
      rw [linesRun, nextFrames_none _ hline, lineItems_none _ hline.2]
      exact ih items
  | right hline _ ih =>
      rw [linesRun, nextFrames_none _ hline, lineItems_none _ hline.2]
      exact ih items

lemma iniSetValue_other {items : ℤ → Item δ φ} {a item : ℤ} (size : ℕ) (type : IniType)
    (value : Str) (h : a ≠ item) : iniSetValue lib items item size type value a = items a := by
  cases type <;> rw [iniSetValue]
  case bool => split <;> exact Function.update_of_ne h _ _
  case inaddr =>
    cases lib.inetAton value with
    | none => rfl
    | some address => exact Function.update_of_ne h _ _
  all_goals exact Function.update_of_ne h _ _

/-- **No other item is changed.** -/
lemma linesRun_other (lines : List Str) (frames : List (IniFrame τ)) (items : ℤ → Item δ φ) {a : ℤ}
    (h : a ∉ namedItems tables lines frames) :
    linesRun tables lib lines frames items a = items a := by
  induction lines generalizing frames items with
  | nil => rw [linesRun_nil]
  | cons line lines ih =>
      cases frames with
      | nil => rfl
      | cons frame frames =>
          rw [namedItems, List.mem_append, not_or] at h
          rw [linesRun, ih _ _ h.2, lineItems]
          cases he : namedElement tables frame line with
          | none => rfl
          | some e =>
              refine iniSetValue_other _ _ _ fun ha => h.1 ?_
              rw [he, ha]
              exact List.mem_singleton_self _

end Turns

/-- **Lines are independent as long as each that is read fits into the buffer and is
self-contained**: two files that differ only in lines that match no element have the same effect,
whatever stood in the buffers, and on no other item than those that lines name.  A line by itself
means the same over every buffer exactly when it is self-contained. -/
theorem ini_read_lines (lib : Conversions δ φ) (tables : τ → List (IniElement τ)) :
    (∀ line : Str, line.length < buffSize →
      ((∃ effect, ∀ stale : Str, line.length + 1 + stale.length = buffSize →
        iniLine (line ++ 0 :: stale) = .ok effect) ↔ SelfContained line)) ∧
    ∀ (frame : IniFrame τ) (items : ℤ → Item δ φ) (file file' : Str),
      LinesFit tables (fileLines file) [frame] → LinesFit tables (fileLines file') [frame] →
      SameButIdle tables [frame] (fileLines file) (fileLines file') →
      ∃ items', (∀ fresh, IniReads lib tables fresh frame items file items') ∧
        (∀ fresh, IniReads lib tables fresh frame items file' items') ∧
        ∀ a, a ∉ namedItems tables (fileLines file) [frame] → items' a = items a := by
  refine ⟨fun line hlength => iniLine_iff hlength, ?_⟩
  intro frame items file file' hfit hfit' hsame
  have hreads : ∀ file : Str, LinesFit tables (fileLines file) [frame] →
      ∀ fresh, IniReads lib tables fresh frame items file
        (linesRun tables lib (fileLines file) [frame] items) := by
    intro file hfit fresh
    have hfollows : FollowsLines lib tables fresh [] (.call fresh frame ⟨items, file, 0⟩) :=
      iniRead_lines file.length (le_refl file.length) (fresh 0).size hfit
    obtain ⟨state, hends, -, -, hrun⟩ := hfollows
    exact ⟨state, hends, (hrun.trans (linesRun_closed _ _)).symm⟩
  refine ⟨linesRun tables lib (fileLines file) [frame] items, hreads file hfit, ?_, fun a ha =>
    linesRun_other _ _ _ ha⟩
  rw [linesRun_same hsame]
  exact hreads file' hfit'

instance LinesFit.decide : ∀ (tables : τ → List (IniElement τ)) (lines : List Str)
    (frames : List (IniFrame τ)), Decidable (LinesFit tables lines frames)
  | _, [], _ => inferInstanceAs (Decidable True)
  | _, _ :: _, [] => inferInstanceAs (Decidable True)
  | tables, line :: lines, frame :: frames =>
      have := LinesFit.decide tables lines (nextFrames tables line (frame :: frames))
      inferInstanceAs (Decidable (_ ∧ _ ∧ _))

/-- A table with a text, and with a group of one number. -/
def groupTables : Bool → List (IniElement Bool)
  | true => [⟨str "port", none, .charPtr, 0, 8⟩, ⟨str "log", some false, .subgroup, 16, 0⟩]
  | false => [⟨str "level", none, .int, 0, 4⟩]

/-- A file with the group, a comment and a line that matches no element, and one with another such
line, in the group. -/
def groupFile : Str := str "# ports\nport = 5060\nlog \x7b\nlevel: 3\n\x7d\nhost 1\nport = 5061\n"

def groupFile' : Str := str "port = 5060\nlog \x7b\nshape 1\nlevel: 3\n\x7d\nport = 5061\n"

lemma groupFile_same :
    SameButIdle groupTables [⟨0, true⟩] (fileLines groupFile) (fileLines groupFile') :=
  .left ⟨by decide, rfl⟩ (.same (str "port = 5060\n") (.same (str "log \x7b\n")
    (.right ⟨by decide, rfl⟩ (.same (str "level: 3\n") (.same (str "\x7d\n")
      (.left ⟨by decide, rfl⟩ (.same (str "port = 5061\n") (.nil _))))))))

/-- Both set the text and the number, and nothing else. -/
theorem ini_read_lines_group :
    ∃ items', (∀ fresh, IniReads (⟨fun _ => (), fun _ => (), fun _ => none⟩ : Conversions Unit Unit)
        groupTables fresh ⟨0, true⟩ (fun _ => .charPtr []) groupFile items') ∧
      (∀ fresh, IniReads (⟨fun _ => (), fun _ => (), fun _ => none⟩ : Conversions Unit Unit)
        groupTables fresh ⟨0, true⟩ (fun _ => .charPtr []) groupFile' items') ∧
      ∀ a, a ≠ 0 → a ≠ 16 → items' a = .charPtr [] := by
  obtain ⟨items', hfile, hfile', hother⟩ := (ini_read_lines
    (⟨fun _ => (), fun _ => (), fun _ => none⟩ : Conversions Unit Unit) groupTables).2 ⟨0, true⟩
    (fun _ => .charPtr []) groupFile groupFile' (by decide +kernel) (by decide +kernel)
    groupFile_same
  refine ⟨items', hfile, hfile', fun a h0 h16 => hother a ?_⟩
  have hnamed : namedItems groupTables (fileLines groupFile) [⟨0, true⟩] = [0, 16, 16, 0] := by
    decide +kernel
  rw [hnamed]
  simp [h0, h16]

/-- A table with one item, a text. -/
def portTable : Unit → List (IniElement Unit) := fun _ => [⟨str "port", none, .charPtr, 0, 8⟩]

/-- A line of blanks behind a line that matches no element. -/
theorem blank_line_reads_on :
    SameButIdle portTable [⟨0, ()⟩] (fileLines (str "aaaa port=99\n   \n"))
      (fileLines (str "aaaa host=99\n   \n")) ∧
    ∀ (lib : Conversions Unit Unit) (fresh : ℕ → LineBuff) (items' : ℤ → Item Unit Unit),
      ¬ (IniReads lib portTable fresh ⟨0, ()⟩ (fun _ => .charPtr []) (str "aaaa port=99\n   \n")
          items' ∧
        IniReads lib portTable fresh ⟨0, ()⟩ (fun _ => .charPtr []) (str "aaaa host=99\n   \n")
          items') := by
  refine ⟨.left ⟨by decide, rfl⟩ (.right ⟨by decide, rfl⟩ (.same (str "   \n") (.nil _))), ?_⟩
  rintro lib fresh items' ⟨⟨state, ⟨n, hn⟩, hitems⟩, ⟨state', ⟨n', hn'⟩, hitems'⟩⟩
  have hport := hn (n + 3) (Nat.le_add_right n 3)
  have hhost := hn' (n' + 3) (Nat.le_add_right n' 3)
  have h99 : (iniRead lib portTable fresh (n + 3) (.call fresh ⟨0, ()⟩
      ⟨fun _ => .charPtr [], str "aaaa port=99\n   \n", 0⟩)).map (·.items 0) =
        .ok (.charPtr (str "99")) := rfl
  have hnone : (iniRead lib portTable fresh (n' + 3) (.call fresh ⟨0, ()⟩
      ⟨fun _ => .charPtr [], str "aaaa host=99\n   \n", 0⟩)).map (·.items 0) =
        .ok (.charPtr []) := rfl
  rw [hport] at h99
  rw [hhost] at hnone
  have hsame : (.charPtr (str "99") : Item Unit Unit) = .charPtr [] := calc
    _ = state.items 0 := (Except.ok.inj h99).symm
    _ = state'.items 0 := by rw [hitems, hitems']
    _ = _ := Except.ok.inj hnone
  cases hsame

end SipEcho
