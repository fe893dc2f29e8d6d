import SipEcho.Xml.Buffer
import SipEcho.Xml.Merge

/-!
`xml_node_text`: the text of an element, collected by a walk over the tree into a buffer.

* `NodeText`, `callbackNodeText`, `walkElement`, `xmlNodeText`: the code.  What is written of the
  texts is counted in a variable behind a pointer, and `*text->amount++` moves the pointer;
* `TextEvent`, `textEvents`: the texts and the other nodes in the order of the document;
* `extracted`: the text that they make;
* `TextFits`: the places where the code collects it;
* `node_text_iff`: **it does exactly there**; `node_text_pointer` is the text `a<b/>c`.
-/

namespace SipEcho

open Lib

/-! ### The code -/

/-- `xml_element_t`, as far as the walk reads it: the type, the block of the tag when there is one,
the content and the children. -/
inductive TextElement where
  | node (type : XmlType) (block : Option XmlBlock) (content : Str) (children : List TextElement)

/-- `__node_text`, with the variable that `amount` points to first; the pointer may have moved on by
`cell` variables. -/
structure NodeText where
  value : Str
  length : ℕ
  amount : ℕ
  cell : ℕ
  deriving DecidableEq, Repr

/-- `*text->amount`: there is one variable. -/
def NodeText.load (text : NodeText) : Except Fault ℕ :=
  if text.cell = 0 then return text.amount else throw .crash

/-- `__callback_node_text`, which returns `0`; `parent` is the block of the parent's tag. -/
def callbackNodeText (fuel : ℕ) (parent : Option XmlBlock) (type : XmlType) (content : Str)
    (end_ : Bool) (text : NodeText) : Except Fault NodeText :=
  if end_ then return text
  else if parent ≠ some .comment then
    if type = .textNode then do
      let amount ← text.load
      let (value, len) ← xmlTextMerge fuel text.value amount text.length (some content)
      return { text with value := value, length := text.length - len, amount := amount + len }
    else do
      let amount ← text.load
      if amount ≠ 0 ∧ text.length ≠ 0 then
        let value ← store .crash text.value amount 32
        return { text with value := value, length := text.length - 1, cell := text.cell + 1 }
      else return text
  else return text

mutual

/-- `xml_node_walk` with this callback, on one node. -/
def walkElement (fuel : ℕ) (parent : Option XmlBlock) :
    TextElement → NodeText → Except Fault NodeText
  | .node type block content children, text => do
      let text ← callbackNodeText fuel parent type content false text
      let text ← walkElements fuel block children text
      callbackNodeText fuel parent type content true text

/-- `xml_node_walk` along the siblings. -/
def walkElements (fuel : ℕ) (parent : Option XmlBlock) :
    List TextElement → NodeText → Except Fault NodeText
  | [], text => return text
  | node :: next, text => do
      let text ← walkElement fuel parent node text
      walkElements fuel parent next text

end

/-- `xml_node_text`: the memory of the buffer, and the length of the text in it. -/
def xmlNodeText (fuel : ℕ) (node : TextElement) (value : Str) (length : ℕ) :
    Except Fault (Str × ℕ) :=
  match node with
  | .node _ block _ children => do
      let text ← walkElements fuel block children ⟨value, length, 0, 0⟩
      return (text.value, text.amount)

/-! ### The events -/

/-- What the walk comes to: a text, or another node. -/
inductive TextEvent where
  | text (content : Str)
  | element
  deriving DecidableEq, Repr

mutual

/-- The texts and the other nodes of a subtree in the order of the document; what stands directly in
a comment is none of them. -/
def elementEvents (parent : Option XmlBlock) : TextElement → List TextEvent
  | .node type block content children =>
      (if parent = some .comment then []
        else [if type = .textNode then .text content else .element]) ++ textEvents block children

/-- Those of a list of siblings. -/
def textEvents (parent : Option XmlBlock) : List TextElement → List TextEvent
  | [] => []
  | node :: next => elementEvents parent node ++ textEvents parent next

end

/-- What the callback does with an event. -/
def textStep (fuel : ℕ) (text : NodeText) : TextEvent → Except Fault NodeText
  | .text content => callbackNodeText fuel none .textNode content false text
  | .element => callbackNodeText fuel none .elementNode [] false text

/-- On the way in. -/
lemma callbackNodeText_events (fuel : ℕ) (parent : Option XmlBlock) (type : XmlType) (content : Str)
    (text : NodeText) : callbackNodeText fuel parent type content false text =
      (if parent = some .comment then []
        else [if type = .textNode then TextEvent.text content else .element]).foldlM
          (textStep fuel) text := by
  by_cases hparent : parent = some .comment
  · subst hparent
    rfl
  · rw [if_neg hparent, List.foldlM_cons]
    have hone : ∀ r : Except Fault NodeText,
        (r >>= fun text => [].foldlM (textStep fuel) text) = r := by
      rintro (_ | _) <;> rfl
    rw [hone, callbackNodeText, if_neg (by decide), if_pos hparent]
    split_ifs <;> rfl

mutual

/-- The walk over a subtree goes through its events. -/
lemma walkElement_eq (fuel : ℕ) (parent : Option XmlBlock) : ∀ (node : TextElement)
    (text : NodeText),
    walkElement fuel parent node text = (elementEvents parent node).foldlM (textStep fuel) text
  | .node type block content children, text => by
      have hend : ∀ r : Except Fault NodeText,
          (r >>= fun text => callbackNodeText fuel parent type content true text) = r := by
        rintro (_ | _) <;> rfl
      rw [walkElement, elementEvents, List.foldlM_append, callbackNodeText_events]
      congr 1
      funext text
      rw [hend]
      exact walkElements_eq fuel block children text

/-- And the walk along siblings. -/
lemma walkElements_eq (fuel : ℕ) (parent : Option XmlBlock) : ∀ (nodes : List TextElement)
    (text : NodeText),
    walkElements fuel parent nodes text = (textEvents parent nodes).foldlM (textStep fuel) text
  | [], text => rfl
  | node :: next, text => by
      rw [walkElements, textEvents, List.foldlM_append, walkElement_eq fuel parent node text]
      congr 1
      funext text
      exact walkElements_eq fuel parent next text

end

/-! ### What is to be collected -/

/-- The text that events add to `out`: the texts decoded, with their white space reduced, and one
blank between two of them where an element intervenes (`sep`). -/
def extracted : Bool → Str → List TextEvent → Str
  | _, out, [] => out
  | sep, out, .element :: es => extracted (sep || decide (out ≠ [])) out es
  | sep, out, .text content :: es =>
      let added := squeeze (sep || endsBlank out) (decoded content)
      if added = [] then extracted sep out es
      else extracted false (out ++ (if sep && !endsBlank out then [32] else []) ++ added) es

/-- The text of the descendants of an element. -/
def elementText : TextElement → Str
  | .node _ block _ children => extracted false [] (textEvents block children)

/-- What `xml_node_text` is to do: it ends, changes nothing of the memory from `length` on, and
returns the text, cut off at `length`. -/
def CollectsText (node : TextElement) (length : ℕ) : Prop :=
  ∀ value : Str, length ≤ value.length → ∃ value' n,
    (∃ enough, ∀ fuel, enough ≤ fuel → xmlNodeText fuel node value length = .ok (value', n)) ∧
    value'.length = value.length ∧ (∀ i, length ≤ i → value'[i]? = value[i]?) ∧
    n = ((elementText node).take length).length ∧ value'.take n = (elementText node).take length

/-- Where the code does so.  As long as what was extracted, `out`, leaves room in the buffer: a text
adds nothing to it, or is the first to do so, or leaves as much room as `out` has taken; and an
element behind it is the last event of all. -/
def TextFits (length : ℕ) : Str → List TextEvent → Prop
  | _, [] => True
  | out, .text content :: es =>
      let added := squeeze (endsBlank out) (decoded content)
      length ≤ out.length ∨
        (out = [] ∨ added = [] ∨ 2 * out.length + added.length ≤ length) ∧
          TextFits length (out ++ added) es
  | out, .element :: es =>
      length ≤ out.length ∨ if out = [] then TextFits length out es else es = []

section Extracted

variable {out content : Str} {es : List TextEvent} {sep : Bool}

/-- What was extracted stays. -/
lemma prefix_extracted (sep : Bool) (out : Str) (es : List TextEvent) :
    out <+: extracted sep out es := by
  induction es generalizing sep out with
  | nil => exact List.prefix_rfl
  | cons e es ih =>
      cases e with
      | element => exact ih _ out
      | text content =>
          rw [extracted]
          split_ifs
          · exact ih _ out
          · rw [List.append_assoc]
            exact (List.prefix_append _ _).trans (ih _ _)
          · rw [List.append_assoc]
            exact (List.prefix_append _ _).trans (ih _ _)

/-- A text with no element in front of it. -/
lemma extracted_text : extracted false out (.text content :: es) =
    extracted false (out ++ squeeze (endsBlank out) (decoded content)) es := by
  rw [extracted, Bool.false_or, Bool.false_and, if_neg Bool.false_ne_true, List.append_nil]
  split_ifs with hadded
  · rw [hadded, List.append_nil]
  · rfl

end Extracted

/-! ### Runs -/

/-- With enough fuel the events lead to a result. -/
def TextRuns (es : List TextEvent) (text : NodeText) (r : Except Fault NodeText) : Prop :=
  ∃ enough, ∀ fuel, enough ≤ fuel → es.foldlM (textStep fuel) text = r

section Runs

variable {es : List TextEvent} {e : TextEvent} {text text' : NodeText}
  {r r' : Except Fault NodeText}

lemma TextRuns.nil : TextRuns [] text (.ok text) := ⟨0, fun _ _ => rfl⟩

lemma TextRuns.cons (he : ∃ n, ∀ fuel, n ≤ fuel → textStep fuel text e = .ok text')
    (h : TextRuns es text' r) : TextRuns (e :: es) text r := by
  obtain ⟨n, hn⟩ := he
  obtain ⟨m, hm⟩ := h
  refine ⟨max n m, fun fuel hfuel => ?_⟩
  rw [List.foldlM_cons, hn fuel (by omega)]
  exact hm fuel (by omega)

lemma TextRuns.unique (h : TextRuns es text r) (h' : TextRuns es text r') : r = r' := by
  obtain ⟨n, hn⟩ := h
  obtain ⟨m, hm⟩ := h'
  rw [← hn (max n m) (by omega), hm (max n m) (by omega)]

/-- **The pointer has moved on**: the next event reads what is not there. -/
lemma TextRuns.crash (hcell : text.cell ≠ 0) : TextRuns (e :: es) text (.error .crash) := by
  refine ⟨0, fun fuel _ => ?_⟩
  have hload : text.load = .error .crash := if_neg hcell
  rw [List.foldlM_cons]
  cases e with
  | text content =>
      rw [textStep, callbackNodeText, if_neg (by decide), if_pos (by decide), if_pos rfl, hload]
      rfl
  | element =>
      rw [textStep, callbackNodeText, if_neg (by decide), if_pos (by decide),
        if_neg (by decide), hload]
      rfl

/-- A text behind the limit changes nothing. -/
lemma textStep_full (value : Str) {length amount : ℕ} (h : length ≤ amount) (content : Str) :
    ∃ n, ∀ fuel, n ≤ fuel →
      textStep fuel ⟨value, length, amount, 0⟩ (.text content) =
        .ok ⟨value, length, amount, 0⟩ := by
  refine ⟨1, fun fuel hfuel => ?_⟩
  obtain ⟨fuel, rfl⟩ := Nat.exists_eq_add_of_le' hfuel
  rw [textStep, callbackNodeText, if_neg (by decide), if_pos (by decide), if_pos rfl,
    show NodeText.load ⟨value, length, amount, 0⟩ = .ok amount from rfl]
  simp only [bind, Except.bind, xmlTextMerge_full h]
  rfl

/-- An element in front of all texts, or behind a full buffer, changes nothing. -/
lemma textStep_element {value : Str} {length amount : ℕ} (h : amount = 0 ∨ length = 0) (fuel : ℕ) :
    textStep fuel ⟨value, length, amount, 0⟩ .element = .ok ⟨value, length, amount, 0⟩ := by
  rw [textStep, callbackNodeText, if_neg (by decide), if_pos (by decide), if_neg (by decide),
    show NodeText.load ⟨value, length, amount, 0⟩ = .ok amount from rfl]
  simp only [bind, Except.bind]
  rw [if_neg (by omega)]
  rfl

/-- Any other writes a blank, and moves the pointer on. -/
lemma textStep_blank {value : Str} {length amount : ℕ} (ha : amount ≠ 0) (hl : length ≠ 0)
    (hvalue : amount < value.length) (fuel : ℕ) :
    textStep fuel ⟨value, length, amount, 0⟩ .element =
      .ok ⟨value.set amount 32, length - 1, amount, 1⟩ := by
  rw [textStep, callbackNodeText, if_neg (by decide), if_pos (by decide), if_neg (by decide),
    show NodeText.load ⟨value, length, amount, 0⟩ = .ok amount from rfl]
  simp only [bind, Except.bind]
  rw [if_pos ⟨ha, hl⟩, store_eq hvalue]
  rfl

/-- **No room is left**: nothing is written any more. -/
lemma textRuns_full (value : Str) (amount : ℕ) :
    TextRuns es ⟨value, 0, amount, 0⟩ (.ok ⟨value, 0, amount, 0⟩) := by
  induction es with
  | nil => exact .nil
  | cons e es ih =>
      cases e with
      | text content => exact .cons (textStep_full value (Nat.zero_le amount) content) ih
      | element => exact .cons ⟨0, fun fuel _ => textStep_element (.inr rfl) fuel⟩ ih

/-- **The limit is behind what was written**: no text is written any more. -/
lemma textRuns_stuck (es : List TextEvent) {value : Str} {length amount : ℕ} (ha : 0 < amount)
    (hl : 0 < length) (hle : length ≤ amount) (hvalue : amount < value.length) :
    TextRuns es ⟨value, length, amount, 0⟩ (.error .crash) ∨
      ∃ text, TextRuns es ⟨value, length, amount, 0⟩ (.ok text) ∧ text.amount = amount := by
  induction es with
  | nil => exact .inr ⟨_, .nil, rfl⟩
  | cons e es ih =>
      cases e with
      | text content =>
          refine ih.imp (.cons (textStep_full value hle content)) ?_
          rintro ⟨text, hruns, htext⟩
          exact ⟨text, .cons (textStep_full value hle content) hruns, htext⟩
      | element =>
          have hstep := textStep_blank ha.ne' hl.ne' hvalue
          rcases es with _ | ⟨e, es⟩
          · exact .inr ⟨_, .cons ⟨0, fun fuel _ => hstep fuel⟩ .nil, rfl⟩
          · exact .inl (.cons ⟨0, fun fuel _ => hstep fuel⟩ (.crash Nat.one_ne_zero))

end Runs

/-! ### The walk collects the text -/

/-- The variables behind what was extracted. -/
def collected (value out : Str) (length : ℕ) : NodeText :=
  ⟨overlay value (out.take length), length - out.length, (out.take length).length, 0⟩

section Collect

variable {value out content : Str} {length : ℕ} {es : List TextEvent}

@[simp] lemma collected_nil : collected value [] length = ⟨value, length, 0, 0⟩ := by
  simp [collected]

/-- In front of all texts an element changes nothing. -/
lemma textStep_collected_nil : ∃ n, ∀ fuel, n ≤ fuel →
    textStep fuel (collected value [] length) .element = .ok (collected value [] length) := by
  refine ⟨0, fun fuel _ => ?_⟩
  rw [collected_nil]
  exact textStep_element (.inl rfl) fuel

lemma collected_lt (h : out.length < length) :
    collected value out length = ⟨overlay value out, length - out.length, out.length, 0⟩ := by
  rw [collected, List.take_of_length_le h.le]

/-- A text behind `out`, in what the code takes for the limit. -/
lemma textStep_text (hlength : length ≤ value.length) {room : ℕ} (hroom : room ≤ length)
    (hlt : out.length < room) (content : Str) : ∃ n, ∀ fuel, n ≤ fuel →
      textStep fuel ⟨overlay value out, room, out.length, 0⟩ (.text content) =
        .ok ⟨overlay value ((merged out (decoded content)).take room),
          room - (((merged out (decoded content)).take room).length - out.length),
          ((merged out (decoded content)).take room).length, 0⟩ := by
  obtain ⟨n, hn⟩ := xmlTextMerge_ends (hroom.trans hlength) hlt.le content
  have hle : out.length ≤ ((merged out (decoded content)).take room).length := by
    rw [List.length_take, merged, List.length_append]
    omega
  refine ⟨n, fun fuel hfuel => ?_⟩
  rw [textStep, callbackNodeText, if_neg (by decide), if_pos (by decide), if_pos rfl,
    show NodeText.load ⟨overlay value out, room, out.length, 0⟩ = .ok out.length from rfl]
  simp only [bind, Except.bind, hn fuel hfuel]
  rw [Nat.add_sub_cancel' hle]
  rfl

/-- **A text that fits is collected.** -/
lemma textStep_collected (hlength : length ≤ value.length) (hlt : out.length < length)
    (hfits : out = [] ∨ squeeze (endsBlank out) (decoded content) = [] ∨
      2 * out.length + (squeeze (endsBlank out) (decoded content)).length ≤ length) :
    ∃ n, ∀ fuel, n ≤ fuel → textStep fuel (collected value out length) (.text content) =
      .ok (collected value (out ++ squeeze (endsBlank out) (decoded content)) length) := by
  rw [collected_lt hlt]
  rcases Nat.lt_or_ge out.length (length - out.length) with hroom | hroom
  · obtain ⟨n, hn⟩ := textStep_text hlength (Nat.sub_le length out.length) hroom content
    refine ⟨n, fun fuel hfuel => ?_⟩
    rw [hn fuel hfuel, merged]
    generalize squeeze (endsBlank out) (decoded content) = added at hfits
    have htake : (out ++ added).take (length - out.length) = (out ++ added).take length := by
      rcases hfits with rfl | rfl | hfits
      · rfl
      · rw [List.append_nil, List.take_of_length_le hroom.le, List.take_of_length_le hlt.le]
      · have hall : (out ++ added).length ≤ length - out.length := by
          rw [List.length_append]
          omega
        rw [List.take_of_length_le hall, List.take_of_length_le (hall.trans (Nat.sub_le _ _))]
    have hleft : length - out.length - (((out ++ added).take length).length - out.length) =
        length - (out ++ added).length := by
      rw [List.length_take, List.length_append]
      omega
    rw [htake, hleft]
    rfl
  · have hnone : squeeze (endsBlank out) (decoded content) = [] := by
      rcases hfits with rfl | hnone | hfits
      · simp at hroom
        omega
      · exact hnone
      · exact List.length_eq_zero_iff.mp (by omega)
    rw [hnone, List.append_nil, collected_lt hlt]
    exact textStep_full _ hroom content

/-- **A text that does not fit** is cut off, or left out, and so are all behind it. -/
lemma textRuns_cut (hlength : length ≤ value.length) (hlt : out.length < length)
    (hcut : ¬ (out = [] ∨ squeeze (endsBlank out) (decoded content) = [] ∨
      2 * out.length + (squeeze (endsBlank out) (decoded content)).length ≤ length)) :
    TextRuns (.text content :: es) (collected value out length) (.error .crash) ∨
      ∃ text, TextRuns (.text content :: es) (collected value out length) (.ok text) ∧
        text.amount < length ∧
        text.amount < (out ++ squeeze (endsBlank out) (decoded content)).length := by
  simp only [not_or, not_le] at hcut
  obtain ⟨hout, hadded, hcut⟩ := hcut
  have hpos : 0 < out.length := List.length_pos_of_ne_nil hout
  have hadd := List.length_pos_of_ne_nil hadded
  rw [collected_lt hlt, List.length_append]
  rcases Nat.lt_or_ge out.length (length - out.length) with hroom | hroom
  · have hstep := textStep_text hlength (Nat.sub_le length out.length) hroom content
    have hall : ((merged out (decoded content)).take (length - out.length)).length =
        length - out.length := by
      rw [List.length_take, merged, List.length_append]
      omega
    rw [hall] at hstep
    refine (textRuns_stuck es (by omega) (by omega) (by omega) ?_).imp (.cons hstep) ?_
    · rw [length_overlay (by omega)]
      omega
    · rintro ⟨text, hruns, htext⟩
      exact ⟨text, .cons hstep hruns, by omega, by omega⟩
  · have hstep := textStep_full (overlay value out) hroom content
    refine (textRuns_stuck es hpos (by omega) hroom ?_).imp (.cons hstep) ?_
    · rw [length_overlay (by omega)]
      omega
    · rintro ⟨text, hruns, htext⟩
      exact ⟨text, .cons hstep hruns, by omega, by omega⟩

/-- What `xml_node_text` leaves in the buffer, with the text of `amount` bytes in it. -/
structure TextCollected (value : Str) (length : ℕ) (s : Str) (text : NodeText) : Prop where
  size : text.value.length = value.length
  behind : ∀ i, length ≤ i → text.value[i]? = value[i]?
  amount : text.amount = (s.take length).length
  text : text.value.take text.amount = s.take length

lemma TextCollected.of_collected (hlength : length ≤ value.length) (s : Str) :
    TextCollected value length s (collected value s length) where
  size := length_overlay ((List.length_take_le _ _).trans hlength)
  behind _ hi := getElem?_overlay_behind ((List.length_take_le _ _).trans hi)
  amount := rfl
  text := List.take_left

/-- A full buffer has the beginning of every text that goes on. -/
lemma take_of_full {s : Str} (h : length ≤ out.length) (hs : out <+: s) :
    s.take length = out.take length := by
  obtain ⟨t, rfl⟩ := hs
  exact List.take_append_of_le_length h

lemma collected_full (hlength : length ≤ value.length) (hfull : length ≤ out.length)
    (es : List TextEvent) : TextRuns es (collected value out length)
        (.ok (collected value out length)) ∧
      TextCollected value length (extracted false out es) (collected value out length) := by
  refine ⟨?_, ?_⟩
  · rw [collected, Nat.sub_eq_zero_of_le hfull]
    exact textRuns_full _ _
  · have htake := take_of_full hfull (prefix_extracted false out es)
    have hhere := TextCollected.of_collected hlength out
    exact ⟨hhere.size, hhere.behind, htake ▸ hhere.amount, htake ▸ hhere.text⟩

/-- An element behind `out` writes a blank behind it, which is not counted. -/
lemma textStep_collected_element (hlength : length ≤ value.length) (hout : out ≠ [])
    (hlt : out.length < length) (fuel : ℕ) :
    textStep fuel (collected value out length) .element =
      .ok ⟨(overlay value out).set out.length 32, length - out.length - 1, out.length, 1⟩ := by
  rw [collected_lt hlt]
  refine textStep_blank (List.length_pos_of_ne_nil hout).ne' (by omega) ?_ fuel
  rw [length_overlay (by omega)]
  omega

/-- **The text is collected** where it fits. -/
lemma textRuns_fits (hlength : length ≤ value.length) (h : TextFits length out es) :
    ∃ text, TextRuns es (collected value out length) (.ok text) ∧
      TextCollected value length (extracted false out es) text := by
  induction es generalizing out with
  | nil => exact ⟨_, .nil, .of_collected hlength out⟩
  | cons e es ih =>
      rcases Nat.lt_or_ge out.length length with hlt | hfull
      · cases e with
        | text content =>
            obtain ⟨hfits, hrest⟩ := h.resolve_left (by omega)
            obtain ⟨text, hruns, htext⟩ := ih hrest
            refine ⟨text, .cons (textStep_collected hlength hlt hfits) hruns, ?_⟩
            rw [extracted_text]
            exact htext
        | element =>
            have helement := h.resolve_left (by omega)
            split_ifs at helement with hout
            · subst hout
              obtain ⟨text, hruns, htext⟩ := ih helement
              exact ⟨text, .cons textStep_collected_nil hruns, htext⟩
            · subst helement
              refine ⟨_, .cons ⟨0, fun fuel _ =>
                textStep_collected_element hlength hout hlt fuel⟩ .nil, ?_⟩
              have hsize : (overlay value out).length = value.length := length_overlay (by omega)
              refine ⟨(List.length_set ..).trans hsize, fun i hi => ?_, ?_, ?_⟩
              · rw [List.getElem?_set_ne (by omega), getElem?_overlay_behind (by omega)]
              · exact congrArg _ (List.take_of_length_le hlt.le).symm
              · show ((overlay value out).set out.length 32).take out.length = _
                rw [List.take_set_of_le le_rfl, overlay, List.take_left]
                exact (List.take_of_length_le hlt.le).symm
      · exact ⟨_, collected_full hlength hfull _⟩

/-- **And it is not collected** where it does not. -/
lemma textRuns_not_fits (hlength : length ≤ value.length) (h : ¬ TextFits length out es) :
    TextRuns es (collected value out length) (.error .crash) ∨
      ∃ text, TextRuns es (collected value out length) (.ok text) ∧
        text.amount < ((extracted false out es).take length).length := by
  induction es generalizing out with
  | nil => exact absurd trivial h
  | cons e es ih =>
      cases e with
      | text content =>
          rw [TextFits, not_or, not_le] at h
          obtain ⟨hlt, h⟩ := h
          rw [extracted_text]
          by_cases hfits : out = [] ∨ squeeze (endsBlank out) (decoded content) = [] ∨
              2 * out.length + (squeeze (endsBlank out) (decoded content)).length ≤ length
          · have hstep := textStep_collected hlength hlt hfits
            exact (ih fun hrest => h ⟨hfits, hrest⟩).imp (.cons hstep)
              fun ⟨text, hruns, hshort⟩ => ⟨text, .cons hstep hruns, hshort⟩
          · refine (textRuns_cut hlength hlt hfits).imp_right ?_
            rintro ⟨text, hruns, hlimit, hshort⟩
            refine ⟨text, hruns, ?_⟩
            have := (prefix_extracted false
              (out ++ squeeze (endsBlank out) (decoded content)) es).length_le
            rw [List.length_take]
            omega
      | element =>
          rw [TextFits, not_or, not_le] at h
          obtain ⟨hlt, h⟩ := h
          split_ifs at h with hout
          · subst hout
            refine (ih h).imp (.cons textStep_collected_nil) ?_
            rintro ⟨text, hruns, hshort⟩
            exact ⟨text, .cons textStep_collected_nil hruns, hshort⟩
          · obtain ⟨e, es, rfl⟩ := List.exists_cons_of_ne_nil h
            exact .inl (.cons ⟨0, fun fuel _ => textStep_collected_element hlength hout hlt fuel⟩
              (.crash Nat.one_ne_zero))

end Collect

/-- `xml_node_text` is a run of the events. -/
lemma xmlNodeText_eq (fuel : ℕ) (type : XmlType) (block : Option XmlBlock) (content : Str)
    (children : List TextElement) (value : Str) (length : ℕ) :
    xmlNodeText fuel (.node type block content children) value length =
      (textEvents block children).foldlM (textStep fuel) (collected value [] length) >>=
        fun text => pure (text.value, text.amount) := by
  rw [xmlNodeText, walkElements_eq, collected_nil]

/-- **`xml_node_text` collects the text of an element exactly where it fits**: as long as the buffer
has room, each text behind the first leaves as much of it as was taken before, and an element
behind a text is the last node of all. -/
theorem node_text_iff (type : XmlType) (block : Option XmlBlock) (content : Str)
    (children : List TextElement) (length : ℕ) :
    CollectsText (.node type block content children) length ↔
      TextFits length [] (textEvents block children) := by
  constructor
  · intro h
    by_contra hfits
    have hroom : length ≤ (List.replicate length (0 : UInt8)).length :=
      (List.length_replicate ..).ge
    obtain ⟨value', n, ⟨enough, hrun⟩, -, -, hn, -⟩ := h _ hroom
    rcases textRuns_not_fits hroom hfits with ⟨m, hm⟩ | ⟨text, ⟨m, hm⟩, hshort⟩
    · have := hrun (max enough m) (by omega)
      rw [xmlNodeText_eq, hm _ (by omega)] at this
      cases this
    · have := hrun (max enough m) (by omega)
      rw [xmlNodeText_eq, hm _ (by omega)] at this
      obtain ⟨-, rfl⟩ := Prod.mk.inj (Except.ok.inj this)
      exact hshort.ne hn
  · intro hfits value hlength
    obtain ⟨text, ⟨m, hm⟩, htext⟩ := textRuns_fits hlength hfits
    refine ⟨text.value, text.amount, ⟨m, fun fuel hfuel => ?_⟩, htext.size, htext.behind,
      htext.amount, htext.text⟩
    rw [xmlNodeText_eq, hm fuel hfuel]
    rfl

/-- The text `a<b/>c`, in a buffer of ten bytes: the pointer has moved on when `c` comes. -/
theorem node_text_pointer : ¬ CollectsText (.node .elementNode none []
    [.node .textNode none (str "a") [], .node .elementNode none [] [],
      .node .textNode none (str "c") []]) 10 := by
  intro h
  obtain ⟨value', n, ⟨enough, hrun⟩, -⟩ := h (List.replicate 10 0) le_rfl
  have := hrun (enough + 3) (by omega)
  cases this

end SipEcho
