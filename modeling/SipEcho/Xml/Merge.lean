import SipEcho.Lib.Block
import SipEcho.Map.Delete
import SipEcho.Xml.Entities

/-!
`xml_text_merge` in the memory of its caller: a text is written behind what is there, with its
entities decoded and its white space reduced, up to a limit.

* `xmlTextMergeLoop`, `xmlTextMerge`: the code, which calls itself for the symbol of an entity;
* `decoded`: a text with its entities decoded;
* `squeeze`: a text with every run of white space reduced to one blank;
* `xmlTextMergeLoop_ends`: **the loop ends**, and what it has written is the squeezed decoded text
  as far as the limit;
* `xml_text_merge_spec`: so does the function.

Positions and limits are natural numbers; in the source they are `int`s, which count texts of fewer
than `2 ^ 31` bytes.
-/

namespace SipEcho

open Lib

/-! ### The code -/

/-- The variables of `xml_text_merge`: the memory, how far it is written, and what is left of the
text. -/
structure MergeState where
  to_ : Str
  l : ℕ
  from_ : Str

/-- `!l || to[l - 1] == ' '`. -/
def behindBlank (to_ : Str) (l : ℕ) : Except Fault Bool :=
  if l = 0 then return true
  else do return (← load .crash to_ (l - 1)) = 32

/-- A byte of the name of an entity. -/
def isEntityByte (c : UInt8) : Bool := c = 35 || isalnum c

/-- The loop of `xml_text_merge`: the memory, and how far it is written. -/
def xmlTextMergeLoop (length : ℕ) : ℕ → MergeState → Except Fault (Str × ℕ)
  | 0, _ => throw .fuel
  | _ + 1, ⟨to_, l, []⟩ => return (to_, l)
  | fuel + 1, ⟨to_, l, c :: from_⟩ =>
      if length ≤ l then return (to_, l)
      else if isspace c then do
        if ← behindBlank to_ l then xmlTextMergeLoop length fuel ⟨to_, l, from_⟩
        else do
          let to_ ← store .crash to_ l 32
          xmlTextMergeLoop length fuel ⟨to_, l + 1, from_⟩
      else if c = 38 then
        match from_.dropWhile isEntityByte with
        | 59 :: rest => do
            let symbol := xmlEntityFind from_ (from_.takeWhile isEntityByte).length
            let (to_, more) ← xmlTextMergeLoop length fuel ⟨to_, l, symbol⟩
            xmlTextMergeLoop length fuel ⟨to_, l + (more - l), rest⟩
        | _ => do
            let to_ ← store .crash to_ l 38
            xmlTextMergeLoop length fuel ⟨to_, l + 1, from_⟩
      else do
        let to_ ← store .crash to_ l c
        xmlTextMergeLoop length fuel ⟨to_, l + 1, from_⟩

/-- `xml_text_merge`: the memory, and how many bytes were written. -/
def xmlTextMerge (fuel : ℕ) (to_ : Str) (amount length : ℕ) (from_ : Option Str) :
    Except Fault (Str × ℕ) :=
  match from_ with
  | none => return (to_, 0)
  | some from_ => do
      let (to_, l) ← xmlTextMergeLoop length fuel ⟨to_, amount, from_⟩
      return (to_, l - amount)

/-! ### What is written -/

/-- A text with its entities decoded, when the first bytes of it are to be passed over. -/
def decodedFrom : ℕ → Str → Str
  | _, [] => []
  | skip + 1, _ :: from_ => decodedFrom skip from_
  | 0, c :: from_ =>
      if c = 38 ∧ (from_.dropWhile isEntityByte).head? = some 59 then
        let name := from_.takeWhile isEntityByte
        xmlEntityFind from_ name.length ++ decodedFrom (name.length + 1) from_
      else c :: decodedFrom 0 from_

/-- A text with its entities decoded. -/
def decoded (from_ : Str) : Str := decodedFrom 0 from_

/-- A text with every run of white space reduced to one blank, or to none directly behind a
blank. -/
def squeeze : Bool → Str → Str
  | _, [] => []
  | blank, c :: text =>
      if isspace c then if blank then squeeze true text else 32 :: squeeze true text
      else c :: squeeze false text

/-- Nothing was written, or a blank at last. -/
def endsBlank (out : Str) : Bool := out.getLast?.all (· = 32)

/-- A text behind what was written. -/
def merged (out text : Str) : Str := out ++ squeeze (endsBlank out) text

section Merged

variable {out text : Str} {c : UInt8} {length : ℕ}

lemma decoded_of_not_mem (h : 38 ∉ text) : decoded text = text := by
  induction text with
  | nil => rfl
  | cons c text ih =>
      rw [List.mem_cons, not_or] at h
      rw [decoded, decodedFrom, if_neg fun hc => h.1 hc.1.symm]
      exact congrArg _ (ih h.2)

lemma decodedFrom_append (s t : Str) : decodedFrom s.length (s ++ t) = decoded t := by
  induction s with
  | nil => rfl
  | cons c s ih => exact ih

@[simp] lemma endsBlank_nil : endsBlank [] = true := rfl

@[simp] lemma endsBlank_concat : endsBlank (out ++ [c]) = decide (c = 32) := by
  simp [endsBlank]

@[simp] lemma merged_nil : merged out [] = out := List.append_nil out

/-- White space behind a blank is passed over. -/
lemma merged_blank (hc : isspace c = true) (hout : endsBlank out = true) :
    merged out (c :: text) = merged out text := by
  rw [merged, squeeze, if_pos hc, hout, if_pos rfl, merged, hout]

/-- The first white space of a run is a blank. -/
lemma merged_space (hc : isspace c = true) (hout : endsBlank out = false) :
    merged out (c :: text) = merged (out ++ [32]) text := by
  rw [merged, squeeze, if_pos hc, hout, if_neg (by decide), merged, endsBlank_concat,
    List.append_assoc]
  rfl

/-- Another byte is itself. -/
lemma merged_byte (hc : isspace c = false) :
    merged out (c :: text) = merged (out ++ [c]) text := by
  have h32 : c ≠ 32 := by
    rintro rfl
    exact absurd hc (by decide)
  rw [merged, squeeze, if_neg (by rw [hc]; decide), merged, endsBlank_concat, decide_eq_false h32,
    List.append_assoc]
  rfl

/-- One text behind another. -/
lemma merged_append (s t : Str) : merged out (s ++ t) = merged (merged out s) t := by
  induction s generalizing out with
  | nil => rw [List.nil_append, merged_nil]
  | cons c s ih =>
      rw [List.cons_append]
      by_cases hc : isspace c = true
      · by_cases hout : endsBlank out = true
        · rw [merged_blank hc hout, merged_blank hc hout, ih]
        · rw [Bool.not_eq_true] at hout
          rw [merged_space hc hout, merged_space hc hout, ih]
      · rw [Bool.not_eq_true] at hc
        rw [merged_byte hc, merged_byte hc, ih]

/-- **What is cut off makes no difference** to what is not. -/
lemma take_merged (s t : Str) :
    (merged ((merged out s).take length) t).take length = (merged out (s ++ t)).take length := by
  rw [merged_append]
  generalize merged out s = out
  rcases Nat.le_total out.length length with hle | hle
  · rw [List.take_of_length_le hle]
  · have hfull : (out.take length).length = length := by
      rw [List.length_take]
      omega
    rw [merged, merged, List.take_append_of_le_length hfull.ge,
      List.take_append_of_le_length hle, List.take_take, Nat.min_self]

end Merged

/-! ### The loop writes it -/

section Loop

variable {mem out text s : Str} {length : ℕ} {c : UInt8}

lemma behindBlank_eq (h : out.length ≤ mem.length) :
    behindBlank (overlay mem out) out.length = .ok (endsBlank out) := by
  rw [behindBlank]
  rcases List.eq_nil_or_concat' out with rfl | ⟨out, c, rfl⟩
  · rfl
  · have hlast : (overlay mem (out ++ [c]))[(out ++ [c]).length - 1]? = some c := by
      rw [getElem?_overlay (by simp)]
      simp
    rw [if_neg (by simp), load_eq hlast, endsBlank_concat]
    rfl

/-- The run of the loop on `text`, behind what was written, merges `s`. -/
def Merges (mem : Str) (length : ℕ) (out text s : Str) : Prop :=
  Ends (xmlTextMergeLoop length) ⟨overlay mem out, out.length, text⟩
    (overlay mem ((merged out s).take length), ((merged out s).take length).length)

lemma merges_nil (h : out.length ≤ length) : Merges mem length out [] [] := by
  refine .last fun fuel => ?_
  rw [merged_nil, List.take_of_length_le h, xmlTextMergeLoop]
  rfl

/-- Nothing is written behind the limit. -/
lemma merges_full (h : out.length = length) (s : Str) : Merges mem length out text s := by
  refine .last fun fuel => ?_
  have hfull : (merged out s).take length = out := by
    rw [merged, ← h, List.take_left]
  rw [hfull]
  cases text with
  | nil => rfl
  | cons c text =>
      rw [xmlTextMergeLoop, if_pos h.ge]
      rfl

lemma merges_space (hc : isspace c = true) (hlt : out.length < length)
    (hmem : length ≤ mem.length) (hblank : Merges mem length out text s)
    (h : Merges mem length (out ++ [32]) text s) : Merges mem length out (c :: text) (c :: s) := by
  rw [Merges] at *
  cases hout : endsBlank out with
  | true =>
      rw [merged_blank hc hout]
      refine hblank.turn fun fuel => ?_
      rw [xmlTextMergeLoop, if_neg (by omega), if_pos hc, behindBlank_eq (by omega), hout]
      rfl
  | false =>
      rw [merged_space hc hout]
      refine h.turn fun fuel => ?_
      rw [xmlTextMergeLoop, if_neg (by omega), if_pos hc, behindBlank_eq (by omega), hout]
      show (store _ _ _ _ >>= _) = _
      rw [store_overlay (by omega), List.length_append, List.length_singleton]
      rfl

/-- A byte that is neither white space nor the beginning of an entity. -/
lemma merges_byte (hc : isspace c = false) (hlt : out.length < length)
    (hmem : length ≤ mem.length)
    (hamp : c = 38 → (text.dropWhile isEntityByte).head? ≠ some 59)
    (h : Merges mem length (out ++ [c]) text s) : Merges mem length out (c :: text) (c :: s) := by
  rw [Merges] at *
  rw [merged_byte hc]
  refine h.turn fun fuel => ?_
  rw [xmlTextMergeLoop, if_neg (by omega), if_neg (by rw [hc]; decide)]
  by_cases h38 : c = 38
  · subst h38
    rw [if_pos rfl]
    have hnone := hamp rfl
    split
    · rename_i rest hrest
      rw [hrest] at hnone
      exact absurd rfl hnone
    · rw [store_overlay (by omega), List.length_append, List.length_singleton]
      rfl
  · rw [if_neg h38, store_overlay (by omega), List.length_append, List.length_singleton]
    rfl

/-- One byte that does not begin an entity. -/
lemma merges_cons (hmem : length ≤ mem.length)
    (hamp : c = 38 → (text.dropWhile isEntityByte).head? ≠ some 59)
    (h : ∀ out : Str, out.length ≤ length → Merges mem length out text s)
    (hout : out.length ≤ length) : Merges mem length out (c :: text) (c :: s) := by
  rcases Nat.eq_or_lt_of_le hout with hfull | hlt
  · exact merges_full hfull _
  have hnext : ∀ d : UInt8, Merges mem length (out ++ [d]) text s := fun d => h _ (by
    rw [List.length_append, List.length_singleton]
    exact hlt)
  by_cases hc : isspace c = true
  · exact merges_space hc hlt hmem (h out hout) (hnext 32)
  · exact merges_byte (Bool.not_eq_true _ ▸ hc) hlt hmem hamp (hnext c)

/-- A text that is one `&` or has none, as the symbols are. -/
lemma merges_plain (hmem : length ≤ mem.length) (htext : text = [38] ∨ 38 ∉ text)
    (hout : out.length ≤ length) : Merges mem length out text text := by
  rcases htext with rfl | htext
  · exact merges_cons hmem (fun _ => by simp) (fun _ => merges_nil) hout
  · induction text generalizing out with
    | nil => exact merges_nil hout
    | cons c text ih =>
        rw [List.mem_cons, not_or] at htext
        exact merges_cons hmem (fun h => absurd h.symm htext.1) (fun _ hout => ih hout htext.2) hout

/-- **An entity**: the function calls itself for the symbol, and goes on behind the `;`. -/
lemma merges_entity {rest : Str} (hrest : text.dropWhile isEntityByte = 59 :: rest)
    (hlt : out.length < length)
    (hsymbol : Merges mem length out (xmlEntityFind text (text.takeWhile isEntityByte).length)
      (xmlEntityFind text (text.takeWhile isEntityByte).length))
    (h : ∀ out : Str, out.length ≤ length → Merges mem length out rest s) :
    Merges mem length out (38 :: text)
      (xmlEntityFind text (text.takeWhile isEntityByte).length ++ s) := by
  set symbol := xmlEntityFind text (text.takeWhile isEntityByte).length with hdef
  set out₁ := (merged out symbol).take length with hout₁
  have hle : out.length ≤ out₁.length := by
    rw [hout₁, List.length_take, merged, List.length_append]
    omega
  have hrun := h out₁ (by rw [hout₁, List.length_take]; exact Nat.min_le_left _ _)
  rw [Merges, hout₁, take_merged, ← hout₁] at hrun
  refine hsymbol.call hrun fun fuel hcall => ?_
  rw [xmlTextMergeLoop, if_neg (by omega), if_neg (by decide), if_pos rfl]
  split
  · rename_i rest' hrest'
    obtain rfl : rest = rest' := List.tail_eq_of_cons_eq (hrest.symm.trans hrest')
    rw [← hdef]
    show (xmlTextMergeLoop length fuel ⟨overlay mem out, out.length, symbol⟩ >>= _) = _
    rw [hcall]
    show xmlTextMergeLoop length fuel ⟨_, out.length + (out₁.length - out.length), rest⟩ = _
    rw [Nat.add_sub_cancel' hle]
  · rename_i hnone
    exact absurd hrest (hnone rest)

/-- **The loop of `xml_text_merge` ends**, and has written the decoded text. -/
lemma merges_decoded (hmem : length ≤ mem.length) (n : ℕ) (htext : text.length ≤ n)
    (hout : out.length ≤ length) : Merges mem length out text (decoded text) := by
  induction n generalizing text out with
  | zero =>
      rw [List.length_eq_zero_iff.mp (Nat.le_zero.mp htext)]
      exact merges_nil hout
  | succ n ih =>
      rcases text with _ | ⟨c, text⟩
      · exact merges_nil hout
      rw [List.length_cons, Nat.add_le_add_iff_right] at htext
      by_cases hentity : c = 38 ∧ (text.dropWhile isEntityByte).head? = some 59
      · obtain ⟨rfl, hhead⟩ := hentity
        obtain ⟨rest, hrest⟩ : ∃ rest, text.dropWhile isEntityByte = 59 :: rest := by
          cases hdrop : text.dropWhile isEntityByte with
          | nil => rw [hdrop] at hhead; cases hhead
          | cons d rest =>
              rw [hdrop] at hhead
              exact ⟨rest, by rw [Option.some.inj hhead]⟩
        have hsplit : text = (text.takeWhile isEntityByte ++ [59]) ++ rest := by
          rw [List.append_assoc, List.singleton_append, ← hrest, List.takeWhile_append_dropWhile]
        have hdecoded : decoded (38 :: text) =
            xmlEntityFind text (text.takeWhile isEntityByte).length ++ decoded rest := by
          have hskip := decodedFrom_append (text.takeWhile isEntityByte ++ [59]) rest
          rw [← hsplit, List.length_append] at hskip
          rw [decoded, decodedFrom, if_pos ⟨rfl, hhead⟩]
          exact congrArg _ hskip
        rcases Nat.eq_or_lt_of_le hout with hfull | hlt
        · exact merges_full hfull _
        have hshort : rest.length ≤ n := by
          have := congrArg List.length hsplit
          rw [List.length_append] at this
          omega
        rw [hdecoded]
        exact merges_entity hrest hlt (merges_plain hmem (xmlEntityFind_symbol _ _) hout)
          fun out hout => ih hshort hout
      · have hdecoded : decoded (c :: text) = c :: decoded text := by
          rw [decoded, decodedFrom, if_neg hentity]
          rfl
        rw [hdecoded]
        exact merges_cons hmem (fun hc hhead => hentity ⟨hc, hhead⟩)
          (fun out hout => ih htext hout) hout

/-- `xml_text_merge` behind what was written. -/
lemma xmlTextMerge_ends (hmem : length ≤ mem.length) (hout : out.length ≤ length) (text : Str) :
    ∃ n, ∀ fuel, n ≤ fuel → xmlTextMerge fuel (overlay mem out) out.length length (some text) =
      .ok (overlay mem ((merged out (decoded text)).take length),
        ((merged out (decoded text)).take length).length - out.length) := by
  obtain ⟨n, hn⟩ := merges_decoded hmem text.length le_rfl hout
  refine ⟨n, fun fuel hfuel => ?_⟩
  rw [xmlTextMerge, hn fuel hfuel]
  rfl

/-- A limit that was reached. -/
lemma xmlTextMerge_full {amount : ℕ} (h : length ≤ amount) (fuel : ℕ) (text : Str) :
    xmlTextMerge (fuel + 1) mem amount length (some text) = .ok (mem, 0) := by
  have hloop : xmlTextMergeLoop length (fuel + 1) ⟨mem, amount, text⟩ = .ok (mem, amount) := by
    cases text with
    | nil => rfl
    | cons c text =>
        rw [xmlTextMergeLoop, if_pos h]
        rfl
  rw [xmlTextMerge, hloop]
  show Except.ok (mem, amount - amount) = _
  rw [Nat.sub_self]

lemma overlay_take {amount : ℕ} (h : amount ≤ mem.length) (written : Str) :
    overlay mem (mem.take amount ++ written) =
      mem.take amount ++ written ++ mem.drop (amount + written.length) := by
  rw [overlay, List.length_append, List.length_take, Nat.min_eq_left h]

end Loop

/-- **`xml_text_merge` ends, writes from `amount` up to the limit at most, and returns how many
bytes it has written**: the text with its entities decoded and its white space reduced, cut off at
the limit.  A text without `&` is decoded as it is. -/
theorem xml_text_merge_spec (to_ : Str) (amount length : ℕ) (from_ : Option Str)
    (hamount : amount ≤ length) (hlength : length ≤ to_.length) :
    ∃ written : Str, amount + written.length ≤ length ∧
      (∃ n, ∀ fuel, n ≤ fuel → xmlTextMerge fuel to_ amount length from_ =
        .ok (to_.take amount ++ written ++ to_.drop (amount + written.length), written.length)) ∧
      written = (squeeze (endsBlank (to_.take amount)) (decoded (from_.getD []))).take
        (length - amount) ∧
      (38 ∉ from_.getD [] → written =
        (squeeze (endsBlank (to_.take amount)) (from_.getD [])).take (length - amount)) := by
  refine ⟨_, ?_, ?_, rfl, fun h => by rw [decoded_of_not_mem h]⟩
  · rw [List.length_take]
    omega
  set written := (squeeze (endsBlank (to_.take amount)) (decoded (from_.getD []))).take
    (length - amount) with hwritten
  have htake : (to_.take amount).length = amount := by
    rw [List.length_take]
    omega
  rcases from_ with _ | from_
  · refine ⟨0, fun fuel _ => ?_⟩
    have hnone : written = [] := List.take_nil
    rw [xmlTextMerge, hnone, List.append_nil, List.length_nil, Nat.add_zero,
      List.take_append_drop]
    rfl
  · obtain ⟨n, hn⟩ := xmlTextMerge_ends hlength (htake.le.trans hamount) from_
    have hall : (merged (to_.take amount) (decoded from_)).take length =
        to_.take amount ++ written := by
      rw [merged, List.take_append, htake, List.take_of_length_le (htake.le.trans hamount)]
      rfl
    refine ⟨n, fun fuel hfuel => ?_⟩
    have hrun := hn fuel hfuel
    rw [hall, overlay_take (hamount.trans hlength), htake, overlay, htake,
      List.take_append_drop, List.length_append, htake, Nat.add_sub_cancel_left] at hrun
    exact hrun

/-- A text with an entity, behind a byte that stays, in front of one that stays. -/
theorem xml_text_merge_sample : ∃ n, ∀ fuel, n ≤ fuel →
    xmlTextMerge fuel (str "a------") 1 6 (some (str "  b&lt; \t c")) = .ok (str "a b< c-", 5) := by
  obtain ⟨written, -, hrun, hwritten, -⟩ := xml_text_merge_spec (str "a------") 1 6
    (some (str "  b&lt; \t c")) (by decide) (by decide)
  have hbytes : written = str " b< c" := hwritten.trans (by decide)
  rw [hbytes] at hrun
  exact hrun

end SipEcho
