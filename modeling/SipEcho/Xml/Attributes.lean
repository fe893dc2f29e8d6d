import Mathlib.Data.List.GetD
import SipEcho.Xml.Safety
import SipEcho.Xml.Tokens

/-!
`xml_node_compile` on the bytes of an element's content: the scanner by indices finds what the
scanner of strings finds, the content is left by one byte at most, and a list of attributes is read
as it was written.

* `XmlText.read`, `HasAttributes`: what the nodes of the heap say;
* `AttributeMode.Is`: the state of the loop by indices that stands for one of the scanner of
  strings;
* `xmlAttributeLoopAt_eq`, `xmlNodeLoopAt_eq`: both do the same;
* `attributesText`: attributes as they are written;
* `xml_node_compile_reads`: **every content is scanned to its end**, and **a list of attributes is
  read exactly when its names have no digits** and there is memory; `attribute_name_cut` has a
  digit.
-/

namespace SipEcho

open Lib

/-! ### Texts in memory -/

/-- The bytes of a text. -/
def XmlText.read (bytes : Str) : XmlText → Str
  | .literal s => s
  | .inside value length => ((bytes ++ [0]).drop value).take length

/-- The string `s` stands at an index. -/
def StandsAt (bytes : Str) (p : ℕ) (s : Str) : Prop := s <+: (bytes ++ [0]).drop p

/-- Two memories are the same up to an index. -/
def AgreeTo (bytes bytes' : Str) (n : ℕ) : Prop := ∀ i ≤ n, charAt bytes' i = charAt bytes i

section Texts

variable {bytes bytes' s : Str} {p n i : ℕ}

lemma AgreeTo.refl (bytes : Str) (n : ℕ) : AgreeTo bytes bytes n := fun _ _ => rfl

lemma standsAt_nil : StandsAt bytes p [] := List.nil_prefix

/-- One byte more. -/
lemma StandsAt.snoc (h : StandsAt bytes p s) (hi : p + s.length = i) (hle : i ≤ bytes.length) :
    StandsAt bytes p (s ++ [bytes.getD i 0]) := by
  obtain ⟨t, ht⟩ := h
  have hc : ((bytes ++ [0]).drop p)[s.length]? = some (bytes.getD i 0) := by
    rw [List.getElem?_drop, hi]
    rcases Nat.eq_or_lt_of_le hle with rfl | hlt
    · simp
    · simp [List.getElem?_append_left hlt, hlt]
  rw [← ht, List.getElem?_append_right le_rfl, Nat.sub_self] at hc
  cases t with
  | nil => cases hc
  | cons d t =>
      obtain rfl := Option.some.inj hc
      exact ⟨t, by rw [List.append_assoc, ← ht]; rfl⟩

lemma StandsAt.read (h : StandsAt bytes p s) : (XmlText.inside p s.length).read bytes = s :=
  (List.prefix_iff_eq_take.mp h).symm

end Texts

/-! ### One attribute -/

/-- The name and the value of an attribute. -/
def XmlNode.pair (bytes : Str) (a : XmlNode) : Str × Str :=
  (a.name.read bytes, a.content.read bytes)

/-- What `xml_attribute_next` has found. -/
def XmlNode.found (bytes : Str) (a : XmlNode) : Option (Str × Str) :=
  if a.type = .attributeNode then some (a.pair bytes) else none

/-- A byte that begins a quoted value. -/
def isQuote (c : UInt8) : Prop := c = 39 ∨ c = 34

instance : DecidablePred isQuote := fun c => inferInstanceAs (Decidable (c = 39 ∨ c = 34))

/-- The state of the loop in front of the byte `i` of the content at `v`, for what was read. -/
def AttributeMode.Is (bytes : Str) (v i mode : ℕ) (a : XmlNode) : AttributeMode → Prop
  | .nameBegin => mode = 0 ∧ a = {}
  | .nameEnd name => mode = 1 ∧ ∃ p, v ≤ p ∧ p + name.length = v + i ∧ StandsAt bytes p name ∧
      a = { name := .inside p 0 }
  | .equals name => mode = 2 ∧ a.found bytes = some (name, [])
  | .contentBegin name => mode = 3 ∧ a.found bytes = some (name, []) ∧
      0 < i ∧ ¬ isQuote (bytes.getD (v + i - 1) 0)
  | .contentEnd name quote content => mode = 4 ∧ a.found bytes = some (name, []) ∧
      ∃ p, v < p ∧ p + content.length = v + i ∧ StandsAt bytes p content ∧
        a.content = .inside p 0 ∧
        match quote with
        | some quote => isQuote quote ∧ bytes.getD (p - 1) 0 = quote
        | none => ¬ isQuote (bytes.getD (p - 1) 0)
  | .done name content => mode = 5 ∧ a.found bytes = some (name, content)

section Scan

variable {bytes : Str} {v l i mode : ℕ} {a : XmlNode} {m : AttributeMode}

lemma found_of {name content : Str} (htype : a.type = .attributeNode)
    (hname : a.name.read bytes = name) (hcontent : a.content.read bytes = content) :
    a.found bytes = some (name, content) := by
  rw [XmlNode.found, if_pos htype, XmlNode.pair, hname, hcontent]

lemma found_eq {name content : Str} (h : a.found bytes = some (name, content)) :
    a.type = .attributeNode ∧ a.name.read bytes = name ∧ a.content.read bytes = content := by
  rw [XmlNode.found] at h
  split_ifs at h with htype
  obtain ⟨hname, hcontent⟩ := Prod.mk.inj (Option.some.inj h)
  exact ⟨htype, hname, hcontent⟩

/-- At the end of the string. -/
lemma AttributeMode.Is.found (h : m.Is bytes v i mode a) :
    a.found bytes = m.node.map XmlElement.pair := by
  cases m with
  | nameBegin =>
      obtain ⟨-, rfl⟩ := h
      rfl
  | nameEnd name =>
      obtain ⟨-, p, -, -, -, rfl⟩ := h
      rfl
  | equals name => exact h.2
  | contentBegin name => exact h.2.1
  | contentEnd name quote content => exact h.2.1
  | done name content => exact h.2

/-- What one turn comes to: the scanner of strings goes on with the rest, or ends here. -/
def AttributeTurn (bytes : Str) (v i : ℕ) (m : AttributeMode) (c : UInt8) (rest : Str)
    (r : Bool × ℕ × XmlNode) : Prop :=
  match r.1 with
  | true => ∃ m' : AttributeMode, m'.Is bytes v (i + 1) r.2.1 r.2.2 ∧
      xmlAttributeLoop m (c :: rest) = xmlAttributeLoop m' rest
  | false => (xmlAttributeLoop m (c :: rest)).2 = c :: rest ∧
      r.2.2.found bytes = (xmlAttributeLoop m (c :: rest)).1.map XmlElement.pair

/-- A turn that no byte further on can change. -/
def Turns (bytes : Str) (v l i mode : ℕ) (a : XmlNode) (m : AttributeMode) (rest : Str) : Prop :=
  ∃ r, (∀ bytes', AgreeTo bytes bytes' (v + l) →
      xmlAttributeByte bytes' (.inside v l) i a (bytes.getD (v + i) 0) mode = .ok r) ∧
    AttributeTurn bytes v i m (bytes.getD (v + i) 0) rest r

/-- It goes on. -/
lemma Turns.goesOn {rest : Str} (m' : AttributeMode) (mode' : ℕ) (a' : XmlNode)
    (hbyte : ∀ bytes', xmlAttributeByte bytes' (.inside v l) i a (bytes.getD (v + i) 0) mode =
      .ok (true, mode', a'))
    (hloop : xmlAttributeLoop m (bytes.getD (v + i) 0 :: rest) = xmlAttributeLoop m' rest)
    (h : m'.Is bytes v (i + 1) mode' a') : Turns bytes v l i mode a m rest :=
  ⟨_, fun bytes' _ => hbyte bytes', m', h, hloop⟩

variable {rest name content : Str}

lemma turns_nameBegin (hl : v + l ≤ bytes.length) (hi : i ≤ l)
    (h : AttributeMode.nameBegin.Is bytes v i mode a) :
    Turns bytes v l i mode a .nameBegin rest := by
  obtain ⟨rfl, rfl⟩ := h
  by_cases halpha : isalpha (bytes.getD (v + i) 0) = true
  · refine .goesOn (.nameEnd _) 1 _ (fun _ => if_pos halpha)
      (by rw [xmlAttributeLoop, if_pos halpha]) ?_
    refine ⟨rfl, v + i, by omega, rfl, ?_, rfl⟩
    exact standsAt_nil.snoc rfl (by omega)
  · exact .goesOn .nameBegin 0 _ (fun _ => if_neg halpha)
      (by rw [xmlAttributeLoop, if_neg halpha]) ⟨rfl, rfl⟩

lemma turns_nameEnd (hl : v + l ≤ bytes.length) (hint : l < 2 ^ 32 - 1) (hi : i ≤ l)
    (h : (AttributeMode.nameEnd name).Is bytes v i mode a) :
    Turns bytes v l i mode a (.nameEnd name) rest := by
  obtain ⟨rfl, p, hp, hlen, hname, rfl⟩ := h
  have hlength : unsigned (v + i - p) = name.length := by
    rw [unsigned, Nat.mod_eq_of_lt (by omega)]
    omega
  by_cases hin : isAttributeName (bytes.getD (v + i) 0) = true
  · refine .goesOn (.nameEnd _) 1 _ (fun _ => if_pos hin)
      (by rw [xmlAttributeLoop, if_pos hin]) ?_
    refine ⟨rfl, p, hp, ?_, hname.snoc hlen (by omega), rfl⟩
    rw [List.length_append, List.length_singleton]
    omega
  · have hfound : XmlNode.found bytes { ({ name := .inside p 0 } : XmlNode) with
        type := .attributeNode, shape := .shapeSingle,
        name := .inside p (unsigned (v + i - p)) } = some (name, []) :=
      found_of rfl (by rw [hlength]; exact hname.read) rfl
    by_cases heq : bytes.getD (v + i) 0 = 61
    · refine .goesOn (.contentBegin name) 3 _ (fun _ => ?_) ?_
        ⟨rfl, hfound, by omega, ?_⟩
      · rw [xmlAttributeByte, if_neg hin, if_neg (not_not_intro heq)]
        rfl
      · rw [xmlAttributeLoop, if_neg hin, if_pos heq]
      · rw [show v + (i + 1) - 1 = v + i by omega, heq]
        decide
    · refine .goesOn (.equals name) 2 _ (fun _ => ?_) ?_ ⟨rfl, hfound⟩
      · rw [xmlAttributeByte, if_neg hin, if_pos heq]
        rfl
      · rw [xmlAttributeLoop, if_neg hin, if_neg heq]

lemma turns_equals (h : (AttributeMode.equals name).Is bytes v i mode a) :
    Turns bytes v l i mode a (.equals name) rest := by
  obtain ⟨rfl, hfound⟩ := h
  by_cases heq : bytes.getD (v + i) 0 = 61
  · refine .goesOn (.contentBegin name) 3 _ (fun _ => if_pos heq)
      (by rw [xmlAttributeLoop, if_pos heq]) ⟨rfl, hfound, by omega, ?_⟩
    rw [show v + (i + 1) - 1 = v + i by omega, heq]
    decide
  · by_cases halpha : isalpha (bytes.getD (v + i) 0) = true
    · refine ⟨(false, 2, a), fun _ _ => ?_, ?_, ?_⟩
      · rw [xmlAttributeByte, if_neg heq, if_pos halpha]
        rfl
      · rw [xmlAttributeLoop, if_neg heq, if_pos halpha]
      · rw [xmlAttributeLoop, if_neg heq, if_pos halpha]
        exact hfound
    · refine .goesOn (.equals name) 2 _ (fun _ => ?_) ?_ ⟨rfl, hfound⟩
      · rw [xmlAttributeByte, if_neg heq, if_neg halpha]
        rfl
      · rw [xmlAttributeLoop, if_neg heq, if_neg halpha]

lemma turns_contentBegin (hl : v + l ≤ bytes.length) (hi : i ≤ l)
    (h : (AttributeMode.contentBegin name).Is bytes v i mode a) :
    Turns bytes v l i mode a (.contentBegin name) rest := by
  obtain ⟨rfl, hfound, hpos, hbefore⟩ := h
  obtain ⟨htype, hname, hcontent⟩ := found_eq hfound
  by_cases hspace : isspace (bytes.getD (v + i) 0) = true
  · refine .goesOn (.contentBegin name) 3 { a with shape := .shapeOpen }
      (fun _ => ?_) ?_ ⟨rfl, found_of htype hname hcontent, by omega, ?_⟩
    · rw [xmlAttributeByte]
      exact if_pos hspace
    · rw [xmlAttributeLoop, if_pos hspace]
    · rw [show v + (i + 1) - 1 = v + i by omega]
      rintro (h | h) <;> rw [h] at hspace <;> cases hspace
  · by_cases hquote : isQuote (bytes.getD (v + i) 0)
    · refine .goesOn (.contentEnd name (some (bytes.getD (v + i) 0)) []) 4
        { a with shape := .shapeOpen, content := .inside (v + i + 1) 0 }
        (fun _ => ?_) ?_ ⟨rfl, found_of htype hname rfl, v + i + 1, by omega, rfl, standsAt_nil,
          rfl, hquote, rfl⟩
      · rw [xmlAttributeByte]
        exact (if_neg hspace).trans (if_pos hquote)
      · rw [xmlAttributeLoop, if_neg hspace]
        exact if_pos hquote
    · refine .goesOn (.contentEnd name none [bytes.getD (v + i) 0]) 4
        { a with shape := .shapeOpen, content := .inside (v + i) 0 }
        (fun _ => ?_) ?_ ⟨rfl, found_of htype hname rfl, v + i, by omega, rfl,
          standsAt_nil.snoc rfl (by omega), rfl, hbefore⟩
      · rw [xmlAttributeByte]
        exact (if_neg hspace).trans (if_neg hquote)
      · rw [xmlAttributeLoop, if_neg hspace]
        exact if_neg hquote

lemma turns_contentEnd {quote : Option UInt8} (hl : v + l ≤ bytes.length)
    (hint : l < 2 ^ 32 - 1) (hi : i ≤ l) (hrest : rest = [] ↔ i = l)
    (h : (AttributeMode.contentEnd name quote content).Is bytes v i mode a) :
    Turns bytes v l i mode a (.contentEnd name quote content) rest := by
  obtain ⟨rfl, hfound, p, hp, hlen, hcontent, hinside, hquote⟩ := h
  obtain ⟨htype, hname, -⟩ := found_eq hfound
  have hlength : unsigned (v + i - p) = content.length := by
    rw [unsigned, Nat.mod_eq_of_lt (by omega)]
    omega
  have hback : ∀ bytes', AgreeTo bytes bytes' (v + l) →
      charBack bytes' a.content.value 1 = .ok (bytes.getD (p - 1) 0) := fun bytes' hagree => by
    rw [hinside]
    show charBack bytes' p 1 = _
    rw [charBack_eq (show 1 ≤ p by omega), hagree _ (show p - 1 ≤ v + l by omega),
      charAt_eq (show p - 1 ≤ bytes.length by omega)]
  have hdone : XmlNode.found bytes
      { a with content := .inside a.content.value (unsigned (v + i - a.content.value)) } =
        some (name, content) := by
    refine found_of htype hname ?_
    rw [hinside]
    show (XmlText.inside p (unsigned (v + i - p))).read bytes = content
    rw [hlength, hcontent.read]
  cases quote with
  | some quote =>
      obtain ⟨hquote, hbefore⟩ := hquote
      by_cases hlast : bytes.getD (v + i) 0 = quote ∨ i = l
      · refine ⟨(true, 5, _), fun bytes' hagree => ?_, .done name content, ⟨rfl, hdone⟩, ?_⟩
        · rw [xmlAttributeByte, hback bytes' hagree, hbefore]
          exact (if_pos hquote).trans (if_pos hlast)
        · rw [xmlAttributeLoop, if_pos (hlast.imp_right hrest.mpr)]
      · refine ⟨(true, 4, a), fun bytes' hagree => ?_,
          .contentEnd name (some quote) (content ++ [bytes.getD (v + i) 0]),
          ⟨rfl, hfound, p, hp, ?_, hcontent.snoc hlen (by omega), hinside, hquote, hbefore⟩, ?_⟩
        · rw [xmlAttributeByte, hback bytes' hagree, hbefore]
          exact (if_pos hquote).trans (if_neg hlast)
        · rw [List.length_append, List.length_singleton]
          omega
        · rw [xmlAttributeLoop, if_neg (fun h => hlast (h.imp_right hrest.mp))]
  | none =>
      by_cases hlast : isspace (bytes.getD (v + i) 0) = true ∨ i = l
      · have hloop : xmlAttributeLoop (.contentEnd name none content)
            (bytes.getD (v + i) 0 :: rest) =
              (some (attributeNode .shapeOpen name content), bytes.getD (v + i) 0 :: rest) := by
          rw [xmlAttributeLoop, if_pos (hlast.imp_right hrest.mpr)]
        refine ⟨(false, 4, { a with
          content := .inside a.content.value (unsigned (v + i - a.content.value)) }),
          fun bytes' hagree => ?_, by rw [hloop], ?_⟩
        · rw [xmlAttributeByte, hback bytes' hagree]
          exact (if_neg hquote).trans (if_pos hlast)
        · rw [hloop]
          exact hdone
      · refine ⟨(true, 4, a), fun bytes' hagree => ?_,
          .contentEnd name none (content ++ [bytes.getD (v + i) 0]),
          ⟨rfl, hfound, p, hp, ?_, hcontent.snoc hlen (by omega), hinside, hquote⟩, ?_⟩
        · rw [xmlAttributeByte, hback bytes' hagree]
          exact (if_neg hquote).trans (if_neg hlast)
        · rw [List.length_append, List.length_singleton]
          omega
        · rw [xmlAttributeLoop, if_neg (fun h => hlast (h.imp_right hrest.mp))]

lemma turns_done (h : (AttributeMode.done name content).Is bytes v i mode a) :
    Turns bytes v l i mode a (.done name content) rest := by
  obtain ⟨rfl, hfound⟩ := h
  exact ⟨(false, 5, a), fun _ _ => rfl, rfl, hfound⟩

/-- **One turn by indices is one of the scanner of strings**, and depends on no byte further on. -/
lemma xmlAttributeTurn_eq (hl : v + l ≤ bytes.length) (hint : l < 2 ^ 32 - 1) (hi : i ≤ l)
    (hrest : rest = [] ↔ i = l) (h : m.Is bytes v i mode a) : ∃ r,
      (∀ bytes', AgreeTo bytes bytes' (v + l) →
        xmlAttributeTurn bytes' (.inside v l) mode i a = .ok r) ∧
      AttributeTurn bytes v i m (bytes.getD (v + i) 0) rest r := by
  have hturns : Turns bytes v l i mode a m rest := by
    cases m with
    | nameBegin => exact turns_nameBegin hl hi h
    | nameEnd name => exact turns_nameEnd hl hint hi h
    | equals name => exact turns_equals h
    | contentBegin name => exact turns_contentBegin hl hi h
    | contentEnd name quote content => exact turns_contentEnd hl hint hi hrest h
    | done name content => exact turns_done h
  obtain ⟨r, hbyte, hr⟩ := hturns
  refine ⟨r, fun bytes' hagree => ?_, hr⟩
  rw [xmlAttributeTurn, XmlText.at, hagree _ (by omega), charAt_eq (by omega)]
  exact hbyte bytes' hagree

/-- What is left of the content from an offset on, with the byte behind it. -/
def restAt (bytes : Str) (v l i : ℕ) : Str := ((bytes ++ [0]).drop (v + i)).take (l + 1 - i)

lemma restAt_cons (hl : v + l ≤ bytes.length) (hi : i ≤ l) :
    restAt bytes v l i = bytes.getD (v + i) 0 :: restAt bytes v l (i + 1) := by
  have hlt : v + i < (bytes ++ [0]).length := by
    rw [List.length_append, List.length_singleton]
    omega
  have hc : (bytes ++ [0])[v + i] = bytes.getD (v + i) 0 := by
    have := charAt_eq (show v + i ≤ bytes.length by omega)
    rw [charAt, List.getElem?_eq_getElem hlt] at this
    exact Except.ok.inj this
  rw [restAt, List.drop_eq_getElem_cons hlt, hc, show l + 1 - i = l + 1 - (i + 1) + 1 by omega,
    List.take_succ_cons]
  rfl

lemma restAt_nil (hi : l < i) : restAt bytes v l i = [] := by
  rw [restAt, Nat.sub_eq_zero_of_le hi, List.take_zero]

lemma length_restAt (hl : v + l ≤ bytes.length) (hi : i ≤ l + 1) :
    (restAt bytes v l i).length = l + 1 - i := by
  rw [restAt, List.length_take, List.length_drop, List.length_append, List.length_singleton]
  omega

/-- **`xml_attribute_next` by indices finds what the scanner of strings finds**, and depends on no
byte behind the one that follows the content. -/
lemma xmlAttributeLoopAt_eq (hl : v + l ≤ bytes.length) (hint : l < 2 ^ 32 - 1) {fuel : ℕ}
    (hi : i ≤ l + 1) (hfuel : l + 1 < fuel + i) (h : m.Is bytes v i mode a) : ∃ a' o',
      (∀ bytes', AgreeTo bytes bytes' (v + l) →
        xmlAttributeLoopAt bytes' (.inside v l) fuel mode i a = .ok (a', o')) ∧ o' ≤ l ∧
      a'.found bytes = (xmlAttributeLoop m (restAt bytes v l i)).1.map XmlElement.pair ∧
      ((xmlAttributeLoop m (restAt bytes v l i)).2 = restAt bytes v l o' ∨
        (xmlAttributeLoop m (restAt bytes v l i)).2 = [] ∧ o' = l) := by
  induction fuel generalizing m mode i a with
  | zero => omega
  | succ fuel ih =>
      by_cases hend : l < i
      · rw [restAt_nil hend]
        refine ⟨a, l, fun bytes' _ => ?_, le_rfl, ?_, .inr ⟨?_, rfl⟩⟩
        · rw [xmlAttributeLoopAt]
          exact if_pos hend
        · rw [h.found]
          cases m <;> rfl
        · cases m <;> rfl
      · have hle : i ≤ l := by omega
        have hrest : restAt bytes v l (i + 1) = [] ↔ i = l := by
          rw [← List.length_eq_zero_iff, length_restAt hl (by omega)]
          omega
        obtain ⟨⟨go, mode', a'⟩, hturn, hr⟩ := xmlAttributeTurn_eq hl hint hle hrest h
        rw [restAt_cons hl hle]
        cases go with
        | false =>
            obtain ⟨hleft, hfound⟩ := hr
            refine ⟨a', i, fun bytes' hagree => ?_, hle, hfound, .inl ?_⟩
            · rw [xmlAttributeLoopAt, if_neg (show ¬ (XmlText.inside v l).length < i from hend),
                hturn bytes' hagree]
              rfl
            · rw [hleft, restAt_cons hl hle]
        | true =>
            obtain ⟨m', hm', hloop⟩ := hr
            have hnext : unsigned (i + 1) = i + 1 := Nat.mod_eq_of_lt (by omega)
            obtain ⟨a'', o', hat, hlast, hfound, hleft⟩ := ih (by omega) (by omega) hm'
            rw [hloop]
            refine ⟨a'', o', fun bytes' hagree => ?_, hlast, hfound, hleft⟩
            rw [xmlAttributeLoopAt, if_neg (show ¬ (XmlText.inside v l).length < i from hend),
              hturn bytes' hagree]
            simp only [bind, Except.bind, if_true, hnext]
            exact hat bytes' hagree

/-- Behind the end of the content there is nothing to go on with. -/
lemma xmlNodeLoop_left {o' k : ℕ} {left : Str} {acc : List XmlElement} (hl : v + l ≤ bytes.length)
    (hleft : left = restAt bytes v l o' ∨ left = [] ∧ o' = l) :
    xmlNodeLoop k left acc = xmlNodeLoop k (restAt bytes v l o') acc := by
  rcases hleft with rfl | ⟨rfl, rfl⟩
  · rfl
  · have hshort : (restAt bytes v o' o').length = 1 := by
      rw [length_restAt hl (by omega)]
      omega
    cases k <;> rw [xmlNodeLoop, xmlNodeLoop, hshort] <;> rfl

/-- **`xml_attribute_next` returns an offset further on**, at most the length, and depends on no
byte behind the one that follows the content. -/
lemma xmlAttributeNextAt_eq {o : ℕ} (hl : v + l ≤ bytes.length) (hint : l < 2 ^ 32 - 1)
    (ho : o < l) : ∃ a o', o < o' ∧ o' ≤ l ∧
      (∀ bytes', AgreeTo bytes bytes' (v + l) →
        xmlAttributeNextAt bytes' (.inside v l) o = .ok (a, o')) ∧
      a.found bytes = (xmlAttributeNext (restAt bytes v l o)).1.map XmlElement.pair ∧
      ∀ k acc, xmlNodeLoop k (xmlAttributeNext (restAt bytes v l o)).2 acc =
        xmlNodeLoop k (restAt bytes v l o') acc := by
  obtain ⟨a, o', hat, ho', hfound, hleft⟩ := xmlAttributeLoopAt_eq hl hint
    (show o ≤ l + 1 by omega) (show l + 1 < l + 2 + o by omega)
    (show AttributeMode.nameBegin.Is bytes v o 0 {} from ⟨rfl, rfl⟩)
  refine ⟨a, o', ?_, ho', hat, hfound, fun k acc => xmlNodeLoop_left hl hleft⟩
  rcases hleft with hleft | ⟨-, rfl⟩
  · by_contra hback
    have hlen := xmlAttributeNext_length (bytes.getD (v + o) 0) (restAt bytes v l (o + 1))
    rw [← restAt_cons hl ho.le, xmlAttributeNext, hleft, length_restAt hl (by omega),
      length_restAt hl (by omega)] at hlen
    omega
  · exact ho

end Scan

/-! ### The attributes of an element -/

/-- The attributes of an element, the first one first: its links lead through them. -/
def HasAttributes (bytes : Str) (nodes : List XmlNode) (element : ℕ) (ps : List (Str × Str)) :
    Prop :=
  ∃ n is, nodes[element]? = some n ∧ Linked (nextOf nodes) n.attribute_ is ∧
    is.map (fun i => nodes[i]?.map (XmlNode.pair bytes)) = ps.map some

/-- Those for which there is memory. -/
def allocated {α : Type*} (mem : ℕ → Bool) : ℕ → List α → List α
  | _, [] => []
  | k, x :: xs => if mem k then x :: allocated mem (k + 1) xs else allocated mem (k + 1) xs

section Allocated

variable {α : Type*} {mem : ℕ → Bool} {k : ℕ} {xs : List α}

lemma allocated_sublist (mem : ℕ → Bool) (k : ℕ) (xs : List α) :
    (allocated mem k xs).Sublist xs := by
  induction xs generalizing k with
  | nil => exact .slnil
  | cons x xs ih =>
      rw [allocated]
      split_ifs
      · exact (ih (k + 1)).cons_cons x
      · exact (ih (k + 1)).cons x

lemma allocated_eq_iff : allocated mem k xs = xs ↔ ∀ j < xs.length, mem (k + j) = true := by
  induction xs generalizing k with
  | nil => simp [allocated]
  | cons x xs ih =>
      have hshift : (∀ j < (x :: xs).length, mem (k + j) = true) ↔
          mem k = true ∧ ∀ j < xs.length, mem (k + 1 + j) = true := by
        rw [List.length_cons, Nat.forall_lt_succ_left']
        simp only [Nat.add_zero, Nat.add_right_comm k 1, Nat.add_assoc]
      rw [allocated, hshift]
      split_ifs with hmem
      · rw [List.cons_inj_right, ih]
        exact (and_iff_right hmem).symm
      · refine iff_of_false (fun h => ?_) fun h => hmem h.1
        have := (allocated_sublist mem (k + 1) xs).length_le
        rw [h, List.length_cons] at this
        omega

end Allocated

section Heap

variable {bytes : Str} {v l o : ℕ} {heap : XmlHeap} {element : ℕ} {n : XmlNode}
  {ps : List (Str × Str)}

/-- A node behind the others that becomes the first attribute. -/
lemma HasAttributes.push {nodes nodes' : List XmlNode} (new : XmlNode) {n' : XmlNode}
    (h : HasAttributes bytes nodes element ps) (hn : nodes[element]? = some n)
    (hn' : nodes'[element]? = some n') (hnew : nodes'[nodes.length]? = some new)
    (hfirst : n'.attribute_ = some nodes.length) (hnext : new.next = n.attribute_)
    (hold : ∀ i < nodes.length, nodes'[i]?.map (fun m => (m.next, m.pair bytes)) =
      nodes[i]?.map fun m => (m.next, m.pair bytes)) :
    HasAttributes bytes nodes' element (new.pair bytes :: ps) := by
  obtain ⟨m, is, hm, hlinked, hpairs⟩ := h
  obtain rfl : n = m := Option.some.inj (hn.symm.trans hm)
  have hin : ∀ i ∈ is, i < nodes.length := fun i hi => by
    by_contra hout
    have hsome : nodes[i]?.map (XmlNode.pair bytes) ∈ ps.map some := hpairs ▸ List.mem_map_of_mem hi
    simp [List.getElem?_eq_none (Nat.le_of_not_lt hout)] at hsome
  refine ⟨n', nodes.length :: is, hn', ⟨hfirst, ?_⟩, ?_⟩
  · rw [nextOf, hnew, Option.bind_some, hnext]
    refine hlinked.congr fun i hi => ?_
    have := congrArg (Option.bind · Prod.fst) (hold i (hin i hi))
    simpa only [nextOf, Option.bind_map, Function.comp_def] using this
  · rw [List.map_cons, List.map_cons, hnew, ← hpairs, Option.map_some]
    congr 1
    refine List.map_congr_left fun i hi => ?_
    have := congrArg (Option.map Prod.snd) (hold i (hin i hi))
    simpa only [Option.map_map, Function.comp_def] using this

/-- A new attribute is the first one, unless there is no memory. -/
lemma xmlAttributeAppend_has (mem : ℕ → Bool) {a : XmlNode} {pair : Str × Str}
    (h : HasAttributes bytes heap.nodes element ps) (hn : heap.nodes[element]? = some n)
    (ha : a.pair bytes = pair) : ∃ heap' n',
      xmlAttributeAppend mem heap element a = .ok heap' ∧ heap'.mallocs = heap.mallocs + 1 ∧
      heap'.nodes[element]? = some n' ∧ n'.content = n.content ∧
      HasAttributes bytes heap'.nodes element
        (if mem heap.mallocs then pair :: ps else ps) := by
  rw [xmlAttributeAppend, XmlHeap.node_eq hn]
  simp only [bind, Except.bind]
  by_cases hmem : mem heap.mallocs = true
  · rw [if_pos hmem, if_pos hmem]
    have hlt : element < heap.nodes.length := (List.getElem?_eq_some_iff.mp hn).1
    have hold : (heap.nodes.modify element fun n =>
        { n with attribute_ := some heap.nodes.length }).length = heap.nodes.length :=
      List.length_modify ..
    have hnode : ((heap.nodes.modify element fun n =>
        { n with attribute_ := some heap.nodes.length }) ++
          [{ a with parent := some element, next := n.attribute_ }])[element]? =
        some { n with attribute_ := some heap.nodes.length } := by
      rw [List.getElem?_append_left (hlt.trans_eq hold.symm), List.getElem?_modify_eq, hn]
      rfl
    refine ⟨_, _, rfl, rfl, hnode, rfl, ?_⟩
    rw [← ha]
    refine h.push { a with parent := some element, next := n.attribute_ } hn hnode
      ?_ rfl rfl fun i hi => ?_
    · rw [List.getElem?_append_right hold.le, hold, Nat.sub_self]
      rfl
    · rw [List.getElem?_append_left (hi.trans_eq hold.symm), List.getElem?_modify]
      rw [Option.map_eq_map, Option.map_map]
      congr 1
      funext m
      rw [Function.comp_apply]
      split_ifs <;> rfl
  · rw [if_neg hmem, if_neg hmem]
    exact ⟨_, n, rfl, rfl, hn, rfl, h⟩

/-- **`xml_node_compile` by indices does what the scanner of strings does**, as far as there is
memory. -/
lemma xmlNodeLoopAt_eq (mem : ℕ → Bool) (acc : List XmlElement) (hl : v + l ≤ bytes.length)
    (hint : l < 2 ^ 32 - 1) {fuel k : ℕ} (ho : o ≤ l) (hfuel : l < fuel + o) (hk : l ≤ k + o)
    (h : HasAttributes bytes heap.nodes element ps) (hn : heap.nodes[element]? = some n)
    (hcontent : n.content = .inside v l) : ∃ heap' found,
      xmlNodeLoopAt mem bytes element fuel o heap = .ok heap' ∧
      xmlNodeLoop k (restAt bytes v l o) acc = .ok (found ++ acc) ∧
      HasAttributes bytes heap'.nodes element
        ((allocated mem heap.mallocs (found.map XmlElement.pair).reverse).reverse ++ ps) := by
  induction fuel generalizing o k acc heap n ps with
  | zero => omega
  | succ fuel ih =>
      rw [xmlNodeLoopAt, XmlHeap.node_eq hn]
      simp only [bind, Except.bind, hcontent]
      by_cases hmore : o < l
      · rw [if_pos (show o < (XmlText.inside v l).length from hmore)]
        obtain ⟨k, rfl⟩ : ∃ k', k = k' + 1 := ⟨k - 1, by omega⟩
        have hlong : 1 < (restAt bytes v l o).length := by
          rw [length_restAt hl (by omega)]
          omega
        obtain ⟨a, o', hlt, ho', hat, hfound, hleft⟩ := xmlAttributeNextAt_eq hl hint hmore
        rw [hat bytes (.refl _ _), xmlNodeLoop, if_pos hlong]
        dsimp only
        rw [hleft]
        cases hnext : (xmlAttributeNext (restAt bytes v l o)).1 with
        | none =>
            have htype : a.type ≠ .attributeNode := fun htype => by
              rw [XmlNode.found, if_pos htype, hnext] at hfound
              cases hfound
            rw [if_neg htype]
            exact ih acc ho' (by omega) (by omega) h hn hcontent
        | some node =>
            rw [hnext, Option.map_some] at hfound
            obtain ⟨htype, hname, hvalue⟩ := found_eq hfound
            obtain ⟨heap', n', happend, hmallocs, hn', hcontent', h'⟩ :=
              xmlAttributeAppend_has mem h hn (Prod.ext hname hvalue)
            obtain ⟨heap'', found, hloop, hlist, hhas⟩ := ih (node :: acc) (k := k) ho'
              (by omega) (by omega) h' hn' (hcontent'.trans hcontent)
            rw [if_pos htype, happend]
            refine ⟨heap'', found ++ [node], hloop, ?_, ?_⟩
            · rw [List.append_assoc]
              exact hlist
            · rw [hmallocs] at hhas
              rw [List.map_append, List.reverse_append, List.map_singleton, List.reverse_singleton,
                List.singleton_append, allocated]
              by_cases hmem : mem heap.mallocs = true
              · rw [if_pos hmem] at hhas ⊢
                rw [List.reverse_cons, List.append_assoc]
                exact hhas
              · rw [if_neg hmem] at hhas ⊢
                exact hhas
      · rw [if_neg (show ¬ o < (XmlText.inside v l).length from hmore)]
        refine ⟨heap, [], rfl, ?_, ?_⟩
        · have hshort : ¬ 1 < (restAt bytes v l o).length := by
            rw [length_restAt hl (by omega)]
            omega
          cases k <;> rw [xmlNodeLoop, if_neg hshort] <;> rfl
        · exact h

end Heap

/-! ### Attributes as they are written -/

/-- An attribute with the blanks in front of it. -/
structure AttributeText where
  blanks : Str
  name : Str
  value : Str

/-- `name="value"`. -/
def AttributeText.text (a : AttributeText) : Str :=
  a.blanks ++ a.name ++ 61 :: 34 :: (a.value ++ [34])

/-- A list of them, and blanks at the end. -/
def attributesText (as : List AttributeText) (blanks : Str) : Str :=
  as.flatMap AttributeText.text ++ blanks

/-- A name of letters, digits, `-`, `:` and `_` that begins with a letter, and a value without the
double quote. -/
structure AttributeText.Valid (a : AttributeText) : Prop where
  blanks : ∀ c ∈ a.blanks, isspace c = true
  name : XmlName a.name
  value : 34 ∉ a.value

/-- What it says. -/
def AttributeText.pair (a : AttributeText) : Str × Str := (a.name, a.value)

section Written

variable {as : List AttributeText} {blanks tail : Str} {a : AttributeText}

lemma isalpha_of_isspace {c : UInt8} (h : isspace c = true) : isalpha c = false := by
  simp only [isspace, isalpha, decide_eq_true_eq, decide_eq_false_iff_not] at h ⊢
  grind

/-- Blanks are passed over. -/
lemma xmlAttributeNext_blanks (hblanks : ∀ c ∈ blanks, isspace c = true) :
    xmlAttributeNext (blanks ++ tail) = xmlAttributeNext tail := by
  induction blanks with
  | nil => rfl
  | cons c blanks ih =>
      obtain ⟨hc, hrest⟩ := List.forall_mem_cons.mp hblanks
      rw [List.cons_append, xmlAttributeNext, xmlAttributeLoop,
        if_neg (by rw [isalpha_of_isspace hc]; decide)]
      exact ih hrest

/-- Blanks, and the byte behind the content. -/
lemma xmlAttributeNext_end (hblanks : ∀ c ∈ blanks, isspace c = true) (last : UInt8) :
    xmlAttributeNext (blanks ++ [last]) = (none, []) := by
  rw [xmlAttributeNext_blanks hblanks, xmlAttributeNext, xmlAttributeLoop]
  split_ifs <;> rfl

/-- **An attribute is read** as it is written, if it has no digit in its name. -/
lemma xmlAttributeNext_written (ha : a.Valid) (hbytes : ∀ c ∈ a.name, isAttributeName c = true)
    (htail : tail ≠ []) : xmlAttributeNext (a.text ++ tail) =
      (some (attributeNode .shapeOpen a.name a.value), tail) := by
  have htext : a.text ++ tail = a.blanks ++ (a.name ++ 61 :: 34 :: (a.value ++ 34 :: tail)) := by
    simp [AttributeText.text]
  have hblank : ∀ c ∈ ([32] : Str), isspace c = true := List.forall_mem_singleton.mpr rfl
  rw [htext, xmlAttributeNext_blanks ha.blanks, ← xmlAttributeNext_blanks hblank]
  exact xmlAttributeNext_text ha.name hbytes ha.value htail

lemma xmlNodeLoop_written {acc : List XmlElement} (has : ∀ a ∈ as, a.Valid)
    (hbytes : ∀ a ∈ as, ∀ c ∈ a.name, isAttributeName c = true) (htail : tail ≠ []) (fuel : ℕ) :
    xmlNodeLoop (fuel + as.length) (as.flatMap AttributeText.text ++ tail) acc =
      xmlNodeLoop fuel tail
        ((as.map fun a => attributeNode .shapeOpen a.name a.value).reverse ++ acc) := by
  induction as generalizing acc with
  | nil => rfl
  | cons a as ih =>
      obtain ⟨ha, has⟩ := List.forall_mem_cons.mp has
      obtain ⟨hname, hbytes⟩ := List.forall_mem_cons.mp hbytes
      have hlong : 1 < ((a :: as).flatMap AttributeText.text ++ tail).length := by
        simp [AttributeText.text]
        omega
      rw [List.length_cons, ← Nat.add_assoc, xmlNodeLoop, if_pos hlong, List.flatMap_cons,
        List.append_assoc, xmlAttributeNext_written ha hname (by simp [htail])]
      dsimp only
      rw [ih has hbytes]
      simp

lemma length_le_attributesText (as : List AttributeText) (blanks : Str) :
    blanks.length + as.length ≤ (attributesText as blanks).length := by
  rw [attributesText, List.length_append]
  induction as with
  | nil => exact (Nat.zero_add _).ge
  | cons a as ih =>
      have : 1 ≤ a.text.length := by
        simp [AttributeText.text]
        omega
      rw [List.flatMap_cons, List.length_append, List.length_cons]
      omega

/-- **A list of attributes is read** as it is written, the last one first. -/
lemma xmlNodeCompile_written (has : ∀ a ∈ as, a.Valid)
    (hbytes : ∀ a ∈ as, ∀ c ∈ a.name, isAttributeName c = true)
    (hblanks : ∀ c ∈ blanks, isspace c = true) (last : UInt8) :
    xmlNodeCompile (attributesText as blanks) last =
      .ok (as.map fun a => attributeNode .shapeOpen a.name a.value).reverse := by
  obtain ⟨fuel, hfuel⟩ := Nat.exists_eq_add_of_le' (length_le_attributesText as blanks)
  rw [xmlNodeCompile, hfuel, ← Nat.add_assoc, attributesText, List.append_assoc,
    xmlNodeLoop_written has hbytes (by simp), List.append_nil]
  cases blanks with
  | nil => cases fuel <;> rfl
  | cons c blanks =>
      rw [List.length_cons, ← Nat.add_assoc, xmlNodeLoop, if_pos (by simp),
        xmlAttributeNext_end hblanks]
      cases fuel + blanks.length <;> rfl

lemma isAttributeName_digit {c : UInt8} (h : isAttributeName c = true) : isdigit c = false := by
  simp only [isAttributeName, isalpha, isdigit, Bool.or_eq_true, decide_eq_true_eq,
    decide_eq_false_iff_not] at h ⊢
  grind

/-- A byte of a name that is no digit. -/
lemma XmlName.isAttributeName {name : Str} (h : XmlName name) {c : UInt8} (hc : c ∈ name)
    (hdigit : isdigit c = false) : isAttributeName c = true := by
  obtain ⟨d, cs, rfl, hd, hcs⟩ := h
  rcases List.mem_cons.mp hc with rfl | hc
  · exact isAttributeName_of_isalpha hd
  · rcases hcs c hc with h | rfl | rfl | rfl
    · rw [isalnum, hdigit, Bool.or_false] at h
      exact isAttributeName_of_isalpha h
    all_goals decide

end Written

/-! ### The whole content -/

/-- **Every content is scanned to its end**: from each offset in it `xml_attribute_next` returns a
larger one, at most the length, whatever there is in memory behind the byte that follows it, and
`xml_node_compile` returns. -/
structure ContentScanned (bytes : Str) (v l : ℕ) : Prop where
  next : ∀ o < l, ∃ a o', o < o' ∧ o' ≤ l ∧ ∀ bytes', AgreeTo bytes bytes' (v + l) →
    xmlAttributeNextAt bytes' (.inside v l) o = .ok (a, o')
  compile : ∀ (mem : ℕ → Bool) (heap : XmlHeap) (element : ℕ) (n : XmlNode),
    heap.nodes[element]? = some n → n.content = .inside v l →
    ∃ heap', xmlNodeCompileAt mem bytes heap element = .ok heap'

/-- An element that `xml_feed` has made, before its attributes are read. -/
structure Uncompiled (heap : XmlHeap) (element : ℕ) (content : XmlText) (n : XmlNode) : Prop where
  node : heap.nodes[element]? = some n
  type : n.type = .elementNode
  attributes : n.attribute_ = none
  content : n.content = content

section Whole

variable {bytes : Str} {v l : ℕ} {heap : XmlHeap} {element : ℕ} {n : XmlNode}

lemma HasAttributes.none (bytes : Str) (hn : heap.nodes[element]? = some n)
    (hattributes : n.attribute_ = none) :
    HasAttributes bytes heap.nodes element [] :=
  ⟨n, [], hn, hattributes, rfl⟩

lemma HasAttributes.unique {nodes : List XmlNode} {ps qs : List (Str × Str)}
    (h : HasAttributes bytes nodes element ps) (h' : HasAttributes bytes nodes element qs) :
    ps = qs := by
  obtain ⟨m, is, hm, hlinked, hpairs⟩ := h
  obtain ⟨m', is', hm', hlinked', hpairs'⟩ := h'
  obtain rfl := Option.some.inj (hm.symm.trans hm')
  obtain rfl := hlinked.unique hlinked'
  exact List.map_injective_iff.mpr (Option.some_injective _) (hpairs.symm.trans hpairs')

/-- `xml_node_compile` of an element with no attributes yet. -/
lemma xmlNodeCompileAt_eq (mem : ℕ → Bool) (hl : v + l ≤ bytes.length) (hint : l < 2 ^ 32 - 1)
    (h : Uncompiled heap element (.inside v l) n) : ∃ heap' found,
      xmlNodeCompileAt mem bytes heap element = .ok heap' ∧
      xmlNodeLoop l (restAt bytes v l 0) [] = .ok found ∧
      HasAttributes bytes heap'.nodes element
        (allocated mem heap.mallocs (found.map XmlElement.pair).reverse).reverse := by
  have hnone := HasAttributes.none bytes h.node h.attributes
  rw [xmlNodeCompileAt, XmlHeap.node_eq h.node]
  simp only [bind, Except.bind, h.content]
  by_cases hzero : l = 0
  · subst hzero
    rw [if_neg fun hmore => hmore.2.2 rfl]
    refine ⟨heap, [], rfl, ?_, hnone⟩
    rw [xmlNodeLoop, length_restAt hl (by omega)]
    rfl
  · rw [if_pos ⟨h.type, h.attributes, hzero⟩]
    obtain ⟨heap', found, hloop, hlist, hhas⟩ := xmlNodeLoopAt_eq mem [] hl hint
      (Nat.zero_le l) (show l < l + 1 + 0 by omega) (show l ≤ l + 0 by omega) hnone h.node h.content
    rw [List.append_nil] at hlist hhas
    exact ⟨heap', found, hloop, hlist, hhas⟩

lemma contentScanned (hl : v + l ≤ bytes.length) (hint : l < 2 ^ 32 - 1) :
    ContentScanned bytes v l where
  next o ho := by
    obtain ⟨a, o', hlt, hle, hat, -⟩ := xmlAttributeNextAt_eq hl hint ho
    exact ⟨a, o', hlt, hle, hat⟩
  compile mem heap element n hn hcontent := by
    by_cases h : n.type = .elementNode ∧ n.attribute_ = none
    · obtain ⟨heap', -, hcompile, -⟩ := xmlNodeCompileAt_eq mem hl hint
        ⟨hn, h.1, h.2, hcontent⟩
      exact ⟨heap', hcompile⟩
    · rw [xmlNodeCompileAt, XmlHeap.node_eq hn]
      simp only [bind, Except.bind]
      rw [if_neg fun hmore => h ⟨hmore.1, hmore.2.1⟩]
      exact ⟨heap, rfl⟩

/-- The content with the byte behind it. -/
lemma restAt_content (before content after : Str) : ∃ last,
    restAt (before ++ content ++ after) before.length content.length 0 = content ++ [last] := by
  obtain ⟨last, tail, htail⟩ : ∃ last tail, after ++ [(0 : UInt8)] = last :: tail :=
    List.exists_cons_of_ne_nil (by simp)
  refine ⟨last, ?_⟩
  show ((before ++ content ++ after ++ [0]).drop before.length).take (content.length + 1) = _
  rw [List.append_assoc, List.append_assoc, htail, List.drop_left, List.take_length_add_append]
  rfl

variable {as : List AttributeText} {blanks : Str}

/-- The attributes of an element are those that were written **exactly when no name has a digit**
and there is memory. -/
lemma attributes_read_iff (mem : ℕ → Bool) (before after : Str) (has : ∀ a ∈ as, a.Valid)
    (hblanks : ∀ c ∈ blanks, isspace c = true)
    (hint : (attributesText as blanks).length < 2 ^ 32 - 1)
    (h : Uncompiled heap element (.inside before.length (attributesText as blanks).length) n) :
    ∃ heap', xmlNodeCompileAt mem (before ++ attributesText as blanks ++ after) heap element =
        .ok heap' ∧
      (HasAttributes (before ++ attributesText as blanks ++ after) heap'.nodes element
          (as.map AttributeText.pair).reverse ↔
        (∀ a ∈ as, ∀ c ∈ a.name, isdigit c = false) ∧
          ∀ j < as.length, mem (heap.mallocs + j) = true) := by
  set bytes := before ++ attributesText as blanks ++ after with hbytes
  obtain ⟨heap', found, hcompile, hfound, hhas⟩ := xmlNodeCompileAt_eq mem
    (show before.length + (attributesText as blanks).length ≤ bytes.length by simp [hbytes]) hint h
  obtain ⟨last, hrest⟩ := restAt_content before (attributesText as blanks) after
  rw [← hbytes] at hrest
  rw [hrest] at hfound
  have hiff : HasAttributes bytes heap'.nodes element (as.map AttributeText.pair).reverse ↔
      allocated mem heap.mallocs (found.map XmlElement.pair).reverse =
        as.map AttributeText.pair := by
    constructor
    · exact fun hwritten => List.reverse_injective (hhas.unique hwritten)
    · exact fun heq => heq ▸ hhas
  refine ⟨heap', hcompile, hiff.trans ?_⟩
  by_cases hdigit : ∀ a ∈ as, ∀ c ∈ a.name, isdigit c = false
  · have hwritten := xmlNodeCompile_written has
      (fun a ha c hc => (has a ha).name.isAttributeName hc (hdigit a ha c hc)) hblanks last
    obtain rfl := Except.ok.inj (hfound.symm.trans hwritten)
    have hpairs : ((as.map fun a => attributeNode .shapeOpen a.name a.value).reverse.map
        XmlElement.pair).reverse = as.map AttributeText.pair := by
      rw [List.map_reverse, List.reverse_reverse, List.map_map]
      rfl
    rw [hpairs, allocated_eq_iff, List.length_map]
    exact (and_iff_right hdigit).symm
  · refine iff_of_false (fun heq => hdigit fun a ha c hc => ?_) fun h => hdigit h.1
    have hin : a.pair ∈ (found.map XmlElement.pair).reverse :=
      (allocated_sublist mem heap.mallocs _).subset (heq ▸ List.mem_map_of_mem ha)
    obtain ⟨node, hnode, hpair⟩ := List.mem_map.mp (List.mem_reverse.mp hin)
    obtain ⟨found', hcompile', hnames⟩ := xmlNodeCompile_spec (attributesText as blanks) last
    obtain rfl := Except.ok.inj (hfound.symm.trans hcompile')
    obtain ⟨shape, name, content, rfl, hname, -⟩ := hnames node hnode
    obtain rfl : name = a.name := congrArg Prod.fst hpair
    exact isAttributeName_digit (hname c hc)

/-- A byte of the content, or the one behind it. -/
lemma getD_content (before content after : Str) {i : ℕ} (hi : i ≤ content.length) :
    (before ++ content ++ after).getD (before.length + i) 0 ∈
      content ++ [(after ++ [0]).headD 0] := by
  rw [List.append_assoc, List.getD_append_right _ _ _ _ (Nat.le_add_right _ _),
    Nat.add_sub_cancel_left]
  rcases Nat.eq_or_lt_of_le hi with rfl | hlt
  · rw [List.getD_append_right _ _ _ _ le_rfl, Nat.sub_self]
    cases after <;> simp
  · rw [List.getD_append _ _ _ _ hlt, List.getD_eq_getElem _ _ hlt]
    exact List.mem_append_left _ (List.getElem_mem hlt)

/-- As long as an `unsigned` goes, `i <= content->length` does not end the loop: where there is no
letter, nothing does. -/
lemma xmlAttributeLoopAt_endless (hl : v + (2 ^ 32 - 1) ≤ bytes.length)
    (hletter : ∀ i ≤ 2 ^ 32 - 1, isalpha (bytes.getD (v + i) 0) = false) (fuel : ℕ) {i : ℕ}
    (hi : i ≤ 2 ^ 32 - 1) :
    xmlAttributeLoopAt bytes (.inside v (2 ^ 32 - 1)) fuel 0 i {} = .error .fuel := by
  induction fuel generalizing i with
  | zero => rfl
  | succ fuel ih =>
      have hturn : xmlAttributeTurn bytes (.inside v (2 ^ 32 - 1)) 0 i {} = .ok (true, 0, {}) := by
        rw [xmlAttributeTurn, XmlText.at, charAt_eq (by omega)]
        exact if_neg (by rw [hletter i hi]; decide)
      have hnext : unsigned (i + 1) ≤ 2 ^ 32 - 1 := Nat.le_of_lt_succ (Nat.mod_lt _ (by decide))
      rw [xmlAttributeLoopAt,
        if_neg (show ¬ (XmlText.inside v (2 ^ 32 - 1)).length < i from Nat.not_lt_of_le hi), hturn]
      exact ih hnext

/-- **`xml_node_compile` scans every content to its end**, as far as `i <= content->length` can be
false, **and reads a list of attributes as it was written exactly when no name has a digit** and
there is memory for each. -/
theorem xml_node_compile_reads (before content after : Str) :
    (content.length < 2 ^ 32 - 1 →
      ContentScanned (before ++ content ++ after) before.length content.length) ∧
    (content.length = 2 ^ 32 - 1 → (∀ c ∈ content ++ [(after ++ [0]).headD 0], isalpha c = false) →
      ∀ fuel, xmlAttributeLoopAt (before ++ content ++ after) (.inside before.length content.length)
        fuel 0 0 {} = .error .fuel) ∧
    ∀ (mem : ℕ → Bool) (as : List AttributeText) (blanks : Str) (heap : XmlHeap) (element : ℕ)
      (n : XmlNode), (∀ a ∈ as, a.Valid) → (∀ c ∈ blanks, isspace c = true) →
      content = attributesText as blanks → content.length < 2 ^ 32 - 1 →
      Uncompiled heap element (.inside before.length content.length) n →
      ∃ heap', xmlNodeCompileAt mem (before ++ content ++ after) heap element = .ok heap' ∧
        (HasAttributes (before ++ content ++ after) heap'.nodes element
            (as.map AttributeText.pair).reverse ↔
          (∀ a ∈ as, ∀ c ∈ a.name, isdigit c = false) ∧
            ∀ j < as.length, mem (heap.mallocs + j) = true) := by
  have hl : before.length + content.length ≤ (before ++ content ++ after).length := by
    rw [List.length_append, List.length_append]
    exact Nat.le_add_right _ _
  refine ⟨contentScanned hl, fun hlength hletter fuel => ?_, ?_⟩
  · rw [hlength] at hl ⊢
    refine xmlAttributeLoopAt_endless hl (fun i hi => hletter _ ?_) fuel (Nat.zero_le _)
    exact getD_content before content after (hi.trans_eq hlength.symm)
  · rintro mem as blanks heap element n has hblanks rfl hint h
    exact attributes_read_iff mem before after has hblanks hint h

/-- A list that is read as it was written. -/
theorem xml_node_compile_reads_pair :
    ∃ heap', xmlNodeCompileAt (fun _ => true) (str "<a x=\"1\" y-z=\"\">")
        ⟨[{ type := .elementNode, content := .inside 2 13 }], 0⟩ 0 = .ok heap' ∧
      HasAttributes (str "<a x=\"1\" y-z=\"\">") heap'.nodes 0
        [(str "y-z", []), (str "x", str "1")] := by
  obtain ⟨heap', hcompile, hiff⟩ := (xml_node_compile_reads (str "<a") (str " x=\"1\" y-z=\"\"")
    (str ">")).2.2 (fun _ => true) [⟨str " ", str "x", str "1"⟩, ⟨str " ", str "y-z", []⟩] []
    ⟨[{ type := .elementNode, content := .inside 2 13 }], 0⟩ 0
    { type := .elementNode, content := .inside 2 13 }
    (by
      intro a ha
      rcases List.mem_pair.mp ha with rfl | rfl <;>
        exact ⟨List.all_eq_true.mp rfl, by decide, by decide⟩)
    (by simp) (by decide) (by decide) ⟨rfl, rfl, rfl, rfl⟩
  refine ⟨heap', hcompile, hiff.mpr ⟨fun a ha c hc => ?_, by simp⟩⟩
  rcases List.mem_pair.mp ha with rfl | rfl <;>
    exact isAttributeName_digit (List.all_eq_true.mp rfl c hc)

/-- The name `a1` is cut in front of its digit. -/
theorem attribute_name_cut :
    AttributeText.Valid ⟨str " ", str "a1", str "x"⟩ ∧
    attributesText [⟨str " ", str "a1", str "x"⟩] [] = str " a1=\"x\"" ∧
    ∃ heap', xmlNodeCompileAt (fun _ => true) (str " a1=\"x\"")
        ⟨[{ type := .elementNode, content := .inside 0 7 }], 0⟩ 0 = .ok heap' ∧
      HasAttributes (str " a1=\"x\"") heap'.nodes 0 [(str "a", str "x")] ∧
      ¬ HasAttributes (str " a1=\"x\"") heap'.nodes 0 [(str "a1", str "x")] := by
  have hcut : HasAttributes (str " a1=\"x\"") [
      { type := .elementNode, content := .inside 0 7, attribute_ := some 1 },
      { type := .attributeNode, name := .inside 1 1, content := .inside 5 1, parent := some 0 }] 0
      [(str "a", str "x")] := ⟨_, [1], rfl, ⟨rfl, rfl⟩, by decide⟩
  refine ⟨⟨List.all_eq_true.mp rfl, by decide, by decide⟩, by decide, _, rfl, hcut, fun h => ?_⟩
  have := h.unique hcut
  revert this
  decide

end Whole

end SipEcho
