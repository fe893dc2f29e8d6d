import SipEcho.Lib.Loop
import SipEcho.Xml.Seed

/-!
`xml_seed` with the types of its counters.  What it has written is counted by an `int`, and
compared with the size of the buffer, an `unsigned long`, after the conversion of C; the cursor is
moved on by what is written.

* `SeedState`, `seedPut`: the count and the bytes, and a write behind the test of the limit;
* `xmlSeedAt`: what `xml_seed` returns, and the bytes it has written by then;
* `xmlSeedAt_eq_xmlSeed`: for a text that an `int` can count this is `xmlSeed`;
* `SeedsExactly`: for every buffer it writes one text, or says that it does not fit, and never
  writes behind the end;
* `xml_seed_exact_iff`: **that is so exactly for the texts that an `int` can count**;
  `long_text_overruns` is a document for which a buffer of one byte is overrun.
-/

namespace SipEcho

open Lib

/-- What `xml_seed` counts, and what it has written. -/
structure SeedState where
  len : ℤ
  out : Str

/-- The conversion to `unsigned long`. -/
def unsignedLong (x : ℤ) : ℕ := (x % 2 ^ 64).toNat

/-- `xml_seed_LENGTH` and a write of so many bytes; when it fails, nothing is written. -/
def seedPut (max : ℕ) (s : Str) (st : SeedState) : Except SeedState SeedState :=
  let len := toInt (st.len + s.length)
  if max < unsignedLong len then throw { st with len } else return ⟨len, st.out ++ s⟩

/-- `seed->quote`, when there is one. -/
def seedQuote (max : ℕ) (quote : Option UInt8) (st : SeedState) : Except SeedState SeedState :=
  match quote with
  | none => return st
  | some quote => seedPut max [quote] st

/-- `__callback_node_seed`; `attributes` walks the node's attributes. -/
def callbackNodeSeedAt (max : ℕ) (quote : Option UInt8) (type : XmlType) (shape : XmlShape)
    (name : Str) (content : Option Str) (attributes : SeedState → Except SeedState SeedState)
    (closing : Bool) (st : SeedState) : Except SeedState SeedState :=
  match type with
  | .attributeNode =>
      if closing then return st
      else do
        let st ← seedPut max (str " ") st
        let st ← seedPut max name st
        match content with
        | none => return st
        | some content => do
            let st ← seedPut max (str "=") st
            let st ← seedQuote max quote st
            let st ← seedPut max content st
            seedQuote max quote st
  | .documentNode => return st
  | .elementNode =>
      if closing ∧ shape = .shapeSingle then return st
      else do
        let st ← seedPut max (str "<") st
        let st ← if closing then seedPut max (str "/") st else pure st
        let st ← seedPut max name st
        let st ←
          if closing then pure st
          else do
            let st ← attributes st
            if shape = .shapeSingle then seedPut max (singleMark name) st else pure st
        seedPut max (str ">") st
  | .emptyNode => return st
  | .textNode => if closing then return st else seedPut max (content.getD []) st

mutual

/-- `xml_node_walk` with this callback, on one node. -/
def seedNodeAt (max : ℕ) (quote : Option UInt8) :
    XmlElement → SeedState → Except SeedState SeedState
  | .node type shape name content attributes children, st => do
      let attributes := xmlNodeWalkAt max quote attributes
      let st ← callbackNodeSeedAt max quote type shape name content attributes false st
      let st ← xmlNodeWalkAt max quote children st
      callbackNodeSeedAt max quote type shape name content attributes true st

/-- `xml_node_walk` along the siblings. -/
def xmlNodeWalkAt (max : ℕ) (quote : Option UInt8) :
    List XmlElement → SeedState → Except SeedState SeedState
  | [], st => return st
  | node :: next, st => do
      let st ← seedNodeAt max quote node st
      xmlNodeWalkAt max quote next st

end

/-- `xml_seed`: what it returns, and the bytes that are written from the begin of the buffer on. -/
def xmlSeedAt (document : List XmlElement) (max : ℕ) (quote : Option UInt8) : ℤ × Str :=
  match xmlNodeWalkAt max quote document ⟨0, []⟩ with
  | .ok st => (st.len, st.out)
  | .error st => (-1, st.out)

/-! ### The walk writes the text in blocks -/

variable {max : ℕ} {quote : Option UInt8}

lemma seedQuote_writes (quote : Option UInt8) :
    Writes (seedPut max) (seedQuote max quote) quote.toList := by
  cases quote with
  | none => exact Writes.nothing
  | some quote => exact Writes.block [quote]

/-- **A node writes its part of the text**, when the walk over its attributes does. -/
lemma callbackNodeSeedAt_writes {type : XmlType} {shape : XmlShape} {name : Str}
    {content : Option Str} {walk : SeedState → Except SeedState SeedState} {attributes : Str}
    (h : Writes (seedPut max) walk attributes) (closing : Bool) :
    Writes (seedPut max) (callbackNodeSeedAt max quote type shape name content walk closing)
      (tag quote type shape name content attributes closing) := by
  have block : ∀ s : Str, Writes (seedPut max) (seedPut max s) s := Writes.block
  cases type with
  | attributeNode =>
      cases closing with
      | true => exact Writes.nothing
      | false =>
          cases content with
          | none =>
              have h1 := (block (str " ")).bind ((block name).bind Writes.nothing)
              exact h1.congr (fun _ => rfl) (by simp [tag])
          | some content =>
              have h1 := (block (str " ")).bind ((block name).bind ((block (str "=")).bind
                ((seedQuote_writes quote).bind ((block content).bind (seedQuote_writes quote)))))
              exact h1.congr (fun _ => rfl) (by simp [tag, quoted])
  | documentNode => exact Writes.nothing
  | elementNode =>
      cases closing with
      | false =>
          have hmark : Writes (seedPut max)
              (fun st => if shape = .shapeSingle then seedPut max (singleMark name) st else pure st)
              (if shape = .shapeSingle then singleMark name else []) :=
            Writes.ite (fun _ => block _) fun _ => Writes.nothing
          have h1 := (block (str "<")).bind (Writes.nothing.bind ((block name).bind
            ((h.bind hmark).bind (block (str ">")))))
          refine h1.congr (fun _ => ?_) (by simp [tag])
          by_cases hs : shape = .shapeSingle <;> simp [callbackNodeSeedAt, hs]
      | true =>
          have h1 := (block (str "<")).bind ((block (str "/")).bind ((block name).bind
            (Writes.nothing.bind (block (str ">")))))
          have h2 : Writes (seedPut max)
              (callbackNodeSeedAt max quote .elementNode shape name content walk true)
              (if shape = .shapeSingle then [] else _) :=
            (Writes.ite (fun _ => Writes.nothing) fun _ => h1).congr
              (fun _ => by simp [callbackNodeSeedAt]) rfl
          exact h2.congr (fun _ => rfl) (by simp [tag])
  | emptyNode => exact Writes.nothing
  | textNode =>
      cases closing with
      | true => exact Writes.nothing
      | false => exact block _

mutual

lemma seedNodeAt_writes : (node : XmlElement) →
    Writes (seedPut max) (seedNodeAt max quote node) (renderNode quote node)
  | .node type shape name content attributes children => by
      have walk := xmlNodeWalkAt_writes attributes
      have inside := xmlNodeWalkAt_writes children
      have own : ∀ closing, Writes (seedPut max)
          (callbackNodeSeedAt max quote type shape name content (xmlNodeWalkAt max quote attributes)
            closing)
          (tag quote type shape name content (render quote attributes) closing) :=
        callbackNodeSeedAt_writes walk
      exact ((own false).bind (inside.bind (own true))).congr
        (fun st => by simp [seedNodeAt]) (by simp [renderNode])

lemma xmlNodeWalkAt_writes : (l : List XmlElement) →
    Writes (seedPut max) (xmlNodeWalkAt max quote l) (render quote l)
  | [] => Writes.nothing.congr (fun _ => by simp [xmlNodeWalkAt]) (by simp [render])
  | node :: next =>
      ((seedNodeAt_writes node).bind (xmlNodeWalkAt_writes next)).congr
        (fun _ => by simp [xmlNodeWalkAt]) (by simp [render])

end

/-! ### The limit -/

lemma toInt_of_lt {x : ℤ} (h0 : 0 ≤ x) (h : x < 2 ^ 31) : toInt x = x := by
  rw [toInt, Int.bmod_eq_of_le (by omega) (by omega)]

lemma unsignedLong_of_lt {n : ℕ} (h : n < 2 ^ 31) : unsignedLong n = n := by
  rw [unsignedLong]
  omega

/-- **Within the range of an `int`** the blocks are written as long as they fit, and never behind
the end of the buffer. -/
lemma seedPut_foldlM {blocks : List Str} {out : Str} (hout : out.length ≤ max)
    (hint : out.length + blocks.flatten.length < 2 ^ 31) :
    (out.length + blocks.flatten.length ≤ max →
      blocks.foldlM (fun st block => seedPut max block st) ⟨out.length, out⟩ =
        .ok ⟨(out.length + blocks.flatten.length : ℕ), out ++ blocks.flatten⟩) ∧
    (max < out.length + blocks.flatten.length → ∃ st,
      blocks.foldlM (fun st block => seedPut max block st) ⟨out.length, out⟩ = .error st ∧
        st.out.length ≤ max) := by
  induction blocks generalizing out with
  | nil =>
      refine ⟨fun _ => ?_, fun h => ?_⟩
      · simp [pure, Except.pure]
      · simp only [List.flatten_nil, List.length_nil] at h
        omega
  | cons block blocks ih =>
      rw [List.flatten_cons, List.length_append] at hint
      have hlen : toInt ((out.length : ℤ) + block.length) = (out.length + block.length : ℕ) := by
        rw [toInt_of_lt (by omega) (by omega)]
        push_cast
        rfl
      have hlong : unsignedLong ((out.length + block.length : ℕ) : ℤ) = out.length + block.length :=
        unsignedLong_of_lt (by omega)
      rw [List.foldlM_cons, seedPut, hlen]
      dsimp only
      rw [hlong, List.flatten_cons, List.length_append, ← List.append_assoc, ← Nat.add_assoc]
      by_cases hfits : max < out.length + block.length
      · rw [if_pos hfits]
        exact ⟨fun h => absurd h (by omega), fun _ => ⟨_, rfl, hout⟩⟩
      · have hnext := ih (show (out ++ block).length ≤ max by rw [List.length_append]; omega)
          (by rw [List.length_append]; omega)
        rw [List.length_append] at hnext
        rw [if_neg hfits]
        exact hnext

/-- **A buffer as large as there can be** is large enough for any count. -/
lemma seedPut_foldlM_all (blocks : List Str) (st : SeedState) :
    ∃ len, blocks.foldlM (fun st block => seedPut (2 ^ 64 - 1) block st) st =
      .ok ⟨len, st.out ++ blocks.flatten⟩ := by
  induction blocks generalizing st with
  | nil => exact ⟨st.len, by simp [pure, Except.pure]⟩
  | cons block blocks ih =>
      have hlong : ¬ 2 ^ 64 - 1 < unsignedLong (toInt (st.len + block.length)) := by
        rw [unsignedLong]
        omega
      obtain ⟨len, hrest⟩ := ih ⟨toInt (st.len + block.length), st.out ++ block⟩
      refine ⟨len, ?_⟩
      rw [List.foldlM_cons, seedPut, if_neg hlong, List.flatten_cons, ← List.append_assoc]
      exact hrest

/-- What is returned is an `int`. -/
lemma seedPut_foldlM_int {blocks : List Str} {st st' : SeedState} (hst : st.len < 2 ^ 31)
    (h : blocks.foldlM (fun st block => seedPut max block st) st = .ok st') : st'.len < 2 ^ 31 := by
  induction blocks generalizing st with
  | nil =>
      obtain rfl := Except.ok.inj h
      exact hst
  | cons block blocks ih =>
      rw [List.foldlM_cons] at h
      obtain ⟨next, hput, h⟩ := ok_of_bind h
      refine ih ?_ h
      rw [seedPut] at hput
      split at hput
      · exact absurd hput (by simp [throw, throwThe, MonadExceptOf.throw])
      · obtain rfl := Except.ok.inj hput
        rw [toInt]
        exact Int.bmod_lt (by decide)

/-- A text that an `int` can count is written when it fits, and refused when it does not. -/
lemma xmlSeedAt_of_lt (max : ℕ) {document : List XmlElement}
    (hint : (render quote document).length < 2 ^ 31) :
    ((render quote document).length ≤ max → xmlSeedAt document max quote =
      (((render quote document).length : ℤ), render quote document)) ∧
    (max < (render quote document).length → (xmlSeedAt document max quote).1 = -1) ∧
    (xmlSeedAt document max quote).2.length ≤ max := by
  obtain ⟨blocks, hblocks, hwalk⟩ : Writes (seedPut max) (xmlNodeWalkAt max quote document)
      (render quote document) := xmlNodeWalkAt_writes document
  have hrun := seedPut_foldlM (show ([] : Str).length ≤ max from Nat.zero_le _)
    (show ([] : Str).length + blocks.flatten.length < 2 ^ 31 by rw [hblocks]; simpa using hint)
  simp only [List.nil_append, List.length_nil, Nat.zero_add, Nat.cast_zero, hblocks] at hrun
  rw [xmlSeedAt, hwalk]
  by_cases hfits : (render quote document).length ≤ max
  · rw [hrun.1 hfits]
    exact ⟨fun _ => rfl, fun h => absurd h (by omega), hfits⟩
  · obtain ⟨st, hstop, hout⟩ := hrun.2 (by omega)
    rw [hstop]
    exact ⟨fun h => absurd h hfits, fun _ => rfl, hout⟩

/-- **The counters make no difference to such a text**: what is written is what `xmlSeed` has. -/
theorem xmlSeedAt_eq_xmlSeed {document : List XmlElement}
    (hint : (render quote document).length < 2 ^ 31) :
    (∀ out, xmlSeed document max quote = some out →
      xmlSeedAt document max quote = ((out.length : ℤ), out)) ∧
    (xmlSeed document max quote = none → (xmlSeedAt document max quote).1 = -1) := by
  obtain ⟨hfits, hshort, -⟩ := xmlSeedAt_of_lt max hint
  rw [xmlSeed_eq]
  refine ⟨fun out hout => ?_, fun hnone => ?_⟩
  · split_ifs at hout with hle
    rw [hfits hle, Option.some.inj hout]
  · split_ifs at hnone with hle
    exact hshort (by omega)

/-- There is one text that `xml_seed` writes and returns the length of, exactly when it fits; and
nothing is ever written behind the end of the buffer. -/
def SeedsExactly (document : List XmlElement) (quote : Option UInt8) : Prop :=
  ∃ text : Str, text.length < 2 ^ 64 ∧ ∀ max < 2 ^ 64,
    (text.length ≤ max → xmlSeedAt document max quote = ((text.length : ℤ), text)) ∧
    (max < text.length → (xmlSeedAt document max quote).1 = -1) ∧
    (xmlSeedAt document max quote).2.length ≤ max

/-- **`xml_seed` is bounded and exact as long as an `int` can count the text.** -/
theorem xml_seed_exact_iff (document : List XmlElement) (quote : Option UInt8) :
    SeedsExactly document quote ↔ (render quote document).length < 2 ^ 31 := by
  constructor
  · rintro ⟨text, hlong, hexact⟩
    by_contra hint
    obtain ⟨blocks, hblocks, hwalk⟩ : Writes (seedPut (2 ^ 64 - 1))
        (xmlNodeWalkAt (2 ^ 64 - 1) quote document) (render quote document) :=
      xmlNodeWalkAt_writes document
    -- the largest buffer takes the whole text, and the count of it is an `int`
    obtain ⟨len, hrun⟩ := seedPut_foldlM_all blocks ⟨0, []⟩
    have hreturn : xmlSeedAt document (2 ^ 64 - 1) quote = (len, render quote document) := by
      rw [xmlSeedAt, hwalk, hrun, hblocks]
      rfl
    have hlen : len < 2 ^ 31 := seedPut_foldlM_int (by decide) hrun
    have hall := (hexact (2 ^ 64 - 1) (by decide)).1 (by omega)
    obtain ⟨hlen', htext⟩ := Prod.mk.inj (hreturn.symm.trans hall)
    rw [htext] at hint
    omega
  · intro hint
    exact ⟨render quote document, by omega, fun max _ => xmlSeedAt_of_lt max hint⟩

/-- A text node. -/
def textNode (content : Str) : XmlElement := .node .textNode .shapeOpen [] (some content) [] []

/-- A count of one comes back to `0` by the longest text. -/
lemma toInt_wraps : toInt ((1 : ℤ) + (2 ^ 32 - 1 : ℕ)) = 0 := by
  rw [show ((1 : ℤ) + (2 ^ 32 - 1 : ℕ)) = 2 ^ 32 by norm_num]
  decide

/-- A text writes what it has. -/
lemma xmlNodeWalkAt_textNode (content : Str) (next : List XmlElement) (st : SeedState) :
    xmlNodeWalkAt max quote (textNode content :: next) st =
      seedPut max content st >>= xmlNodeWalkAt max quote next := by
  rw [xmlNodeWalkAt, textNode, seedNodeAt]
  simp [callbackNodeSeedAt, xmlNodeWalkAt]

lemma seedPut_one : seedPut 1 [120] ⟨0, []⟩ = .ok ⟨1, [120]⟩ := rfl

/-- A count that comes back to `0` lets everything through. -/
lemma seedPut_wraps {s : Str} (h : s.length = 2 ^ 32 - 1) :
    seedPut 1 s ⟨1, [120]⟩ = .ok ⟨0, 120 :: s⟩ := by
  rw [seedPut, h]
  simp only [toInt_wraps]
  rfl

/-- A document of two texts. -/
lemma xmlSeedAt_textNodes {a b : Str} {st st' : SeedState} (ha : seedPut max a ⟨0, []⟩ = .ok st)
    (hb : seedPut max b st = .ok st') :
    xmlSeedAt [textNode a, textNode b] max quote = (st'.len, st'.out) := by
  have hwalk : xmlNodeWalkAt max quote [textNode a, textNode b] ⟨0, []⟩ = .ok st' := by
    rw [xmlNodeWalkAt_textNode, ha]
    refine (xmlNodeWalkAt_textNode b [] st).trans ?_
    rw [hb]
    exact xmlNodeWalkAt.eq_1 max quote st'
  rw [xmlSeedAt, hwalk]

/-- Two texts, the second as long as an `unsigned` can say, are written to a buffer of one byte. -/
theorem long_text_overruns :
    ¬ SeedsExactly [textNode [120], textNode (List.replicate (2 ^ 32 - 1) 120)] none := by
  rintro ⟨text, -, hexact⟩
  obtain ⟨-, -, hbound⟩ := hexact 1 (by decide)
  rw [xmlSeedAt_textNodes seedPut_one (seedPut_wraps List.length_replicate), List.length_cons,
    List.length_replicate] at hbound
  omega

end SipEcho
