import SipEcho.Lib.Scan
import SipEcho.Xml.Feed

/-!
`xml_next` on the buffer itself: a body, and the NUL that `osip` puts behind it.  A text is a
pointer and a length, and every byte is read at its index: behind the NUL, and behind the entries of
a table, a read fails.

* `charAt`, `memcmpAt`, `xmlMapAt`, `xmlTagAt`: what is read, and where that ends;
* `xmlNextAt`: one token, with what it consumes;
* `XmlReadable`: what a token must be for its reads to stay inside;
* `xmlNextAt_returns`: **a token is found exactly under this condition**, it consumes something and
  not more than there is, and its name and content lie in the buffer.
-/

namespace SipEcho

open Lib

/-- The conversion to `unsigned`. -/
def unsigned (n : ℕ) : ℕ := n % 2 ^ 32

lemma unsigned_le (n : ℕ) : unsigned n ≤ n := Nat.mod_le n _

/-- One less, unless there is nothing. -/
lemma unsigned_pred_le {n : ℕ} (h : 0 < n) : unsigned (unsigned n + 2 ^ 32 - 1) ≤ n := by
  rw [unsigned, unsigned]
  have := Nat.mod_le n (2 ^ 32)
  omega

lemma unsigned_of_lt {n : ℕ} (h : n < 2 ^ 31) : unsigned n = n :=
  Nat.mod_eq_of_lt (h.trans (by decide))

/-! ### Memory -/

/-- A byte of a string or of its terminator; there is nothing else to read. -/
def charAt (bytes : Str) (i : ℕ) : Except Fault UInt8 :=
  match (bytes ++ [0])[i]? with
  | some c => return c
  | none => throw .crash

lemma charAt_eq {bytes : Str} {i : ℕ} (h : i ≤ bytes.length) :
    charAt bytes i = .ok (bytes.getD i 0) := by
  rw [charAt]
  rcases Nat.eq_or_lt_of_le h with rfl | h
  · simp
    rfl
  · simp [List.getElem?_append_left h, h]
    rfl

lemma charAt_eq_error {bytes : Str} {i : ℕ} (h : bytes.length < i) :
    charAt bytes i = .error .crash := by
  rw [charAt, List.getElem?_eq_none (by simpa using h)]
  rfl

/-- A byte so many before an index; there is nothing before the buffer. -/
def charBack (bytes : Str) (i k : ℕ) : Except Fault UInt8 :=
  if i < k then throw .crash else charAt bytes (i - k)

lemma charBack_eq {bytes : Str} {i k : ℕ} (hk : k ≤ i) :
    charBack bytes i k = charAt bytes (i - k) := by
  rw [charBack, if_neg (by omega)]

/-- `xml_text_t`: a string of the program, or bytes of the buffer. -/
inductive XmlText where
  | literal (bytes : Str)
  | inside (value length : ℕ)
  deriving DecidableEq, Repr

/-- `length` of it. -/
def XmlText.length : XmlText → ℕ
  | .literal bytes => bytes.length
  | .inside _ length => length

/-- `value` of it, as an index of the buffer. -/
def XmlText.value : XmlText → ℕ
  | .literal _ => 0
  | .inside value _ => value

/-- `value[i]` of it. -/
def XmlText.at (bytes : Str) : XmlText → ℕ → Except Fault UInt8
  | .literal s, i => charAt s i
  | .inside value _, i => charAt bytes (value + i)

/-- It lies in the body. -/
def XmlText.Inside (bytes : Str) : XmlText → Prop
  | .literal _ => True
  | .inside value length => value + length ≤ bytes.length

/-- Whether two blocks are the same, up to their first difference. -/
def sameUpTo (x y : ℕ → Except Fault UInt8) : ℕ → ℕ → Except Fault Bool
  | 0, _ => return true
  | left + 1, i => do
      if (← x i) = (← y i) then sameUpTo x y left (i + 1) else return false

/-- `!memcmp(x, y, n)`.  The library is free to read both blocks whole, even when they differ at
once; `ahead` says whether it does. -/
def memcmpAt (ahead : Bool) (x y : ℕ → Except Fault UInt8) (n : ℕ) : Except Fault Bool :=
  if ahead then do
    let a ← (List.range n).mapM x
    let b ← (List.range n).mapM y
    return a = b
  else sameUpTo x y n 0

/-! ### Tags -/

/-- `xml_block_t`. -/
inductive XmlBlock where
  | follow | comment
  deriving DecidableEq, Repr

/-- `xml_tag_t`, with its block. -/
structure XmlBlockTag extends XmlTag where
  block : XmlBlock
  deriving DecidableEq, Repr

/-- `__xml_tag`. -/
def xmlBlockTags : List XmlBlockTag :=
  [⟨⟨str "?xml", .none⟩, .follow⟩, ⟨⟨str "!--", .none⟩, .comment⟩]

/-- `__xml_unknown_tag`. -/
def xmlUnknownBlockTag : XmlBlockTag := ⟨xmlUnknownTag, .follow⟩

/-- `__xml_map[m]`. -/
def xmlMapAt (m : ℕ) : Except Fault ℕ :=
  match [0, 2, 2][m]? with
  | some i => return i
  | none => throw .crash

/-- `__xml_tag[i]`. -/
def xmlTagAt (i : ℕ) : Except Fault XmlBlockTag :=
  match xmlBlockTags[i]? with
  | some tag => return tag
  | none => throw .crash

/-- Whether two texts have the same letter at an index, in any case. -/
def sameLetterAt (bytes : Str) (a b : XmlText) (i : ℕ) : Except Fault Bool := do
  return tolower (← a.at bytes i) = tolower (← b.at bytes i)

/-- `!xml_text_cmp(a, b)`. -/
def xmlTextCmpAt (bytes : Str) (a b : XmlText) : Except Fault Bool :=
  if a.length = b.length then forInt .crash (sameLetterAt bytes a b) a.length 0 else return false

/-- The loop of `xml_tag_find`. -/
def xmlTagLoopAt (bytes : Str) (name : XmlText) (m : ℕ) : ℕ → ℕ → Except Fault XmlBlockTag
  | 0, _ => throw .fuel
  | fuel + 1, i => do
      if i < (← xmlMapAt (m + 1)) then
        let tag ← xmlTagAt i
        if ← xmlTextCmpAt bytes name (.literal tag.name) then return tag
        else xmlTagLoopAt bytes name m fuel (i + 1)
      else return xmlUnknownBlockTag

/-- The index that `xml_tag_find` makes of a first letter. -/
def xmlMapIndex (c : UInt8) : ℕ :=
  let m : ℤ := 1 + (tolower c).toNat - 97
  if m < 0 then 0 else if 3 ≤ m then 3 - 2 else m.toNat

/-- `xml_tag_find`. -/
def xmlTagFindAt (bytes : Str) (name : XmlText) : Except Fault XmlBlockTag := do
  if name.length ≠ 0 then
    let m := xmlMapIndex (← name.at bytes 0)
    let i ← xmlMapAt m
    xmlTagLoopAt bytes name m 3 i
  else return xmlUnknownBlockTag

/-! ### Tokens -/

/-- `xml_element_t`, with the addresses of other nodes. -/
structure XmlNode where
  id : ℕ := 0
  level : ℕ := 0
  shape : XmlShape := .shapeOpen
  type : XmlType := .emptyNode
  name : XmlText := .literal []
  content : XmlText := .literal []
  attribute_ : Option ℕ := none
  children : Option ℕ := none
  parent : Option ℕ := none
  next : Option ℕ := none
  last : Option ℕ := none
  tag : Option XmlBlockTag := none
  deriving DecidableEq, Repr

/-- `xml_is_comment`. -/
def xmlIsComment (ahead : Bool) (bytes : Str) (to_ : ℕ) (comment : Bool) : Except Fault Bool :=
  if comment then memcmpAt ahead (fun i => charBack bytes (to_ + i) 2) (charAt (str "--")) 2
  else return true

/-- `xml_is_closing`. -/
def xmlIsClosing (ahead : Bool) (bytes : Str) (from_ : ℕ) (parent : Option XmlNode) :
    Except Fault Bool :=
  match parent with
  | none => return true
  | some node => do
      if (← charAt bytes (from_ + 1)) ≠ 47 then return false
      else
        memcmpAt ahead (fun i => charAt bytes (from_ + 2 + i)) (node.name.at bytes) node.name.length

/-- Whether the search for the end of a tag or of a comment goes on. -/
def xmlEndGo (ahead : Bool) (bytes : Str) (comment : Bool) (end_ to_ : ℕ) : Except Fault Bool := do
  if to_ = end_ then return false
  else
    let c ← charAt bytes to_
    if comment = false ∧ c = 60 then return false
    else if c = 62 then return !(← xmlIsComment ahead bytes to_ comment)
    else return true

/-- `xml_next` behind the name of an element, or behind the dashes that begin a comment. -/
def xmlNextEnd (ahead : Bool) (bytes : Str) (comment : Bool) (node : XmlNode)
    (begin_ to_ end_ : ℕ) : Except Fault (XmlNode × ℕ) := do
  let value := to_
  let to_ ← seek .fuel (xmlEndGo ahead bytes comment end_) (bytes.length + 1) to_
  if to_ = end_ then return (node, to_ - begin_)
  else if comment then return (node, to_ + 1 - begin_)
  else if (← charAt bytes to_) = 60 then return ({ node with type := .emptyNode }, to_ - begin_)
  else
    let length := unsigned (to_ - value)
    if (← charBack bytes to_ 1) = 47 ∧ node.shape = .shapeOpen then
      return ({ node with
        type := .elementNode
        shape := .shapeSingle
        content := .inside value (unsigned (length + 2 ^ 32 - 1)) }, to_ + 1 - begin_)
    else
      return ({ node with type := .elementNode, content := .inside value length },
        to_ + 1 - begin_)

/-- Whether the search for the end of a name goes on. -/
def xmlNameGo (bytes : Str) (to_ : ℕ) : Except Fault Bool := do return isName (← charAt bytes to_)

/-- `xml_next` from the name of an element on. -/
def xmlNextName (ahead : Bool) (bytes : Str) (node : XmlNode) (begin_ value end_ : ℕ) :
    Except Fault (XmlNode × ℕ) := do
  let to_ ← seek .fuel (xmlNameGo bytes) (bytes.length + 1) value
  if to_ = value then return ({ node with type := .emptyNode }, to_ - begin_)
  else
    let name := .inside value (unsigned (to_ - value))
    let tag ← xmlTagFindAt bytes name
    let node := { node with name := name, tag := some tag, content := .inside to_ 0 }
    xmlNextEnd ahead bytes false node begin_ to_ end_

/-- `xml_next` from the `<` on. -/
def xmlNextTag (ahead : Bool) (bytes : Str) (node : XmlNode) (begin_ end_ : ℕ) :
    Except Fault (XmlNode × ℕ) := do
  let to_ := begin_ + 1
  if ← memcmpAt ahead (fun i => charAt bytes (to_ + i)) (charAt (str "!--")) 3 then
    xmlNextEnd ahead bytes true node begin_ (to_ + 3) end_
  else if (← charAt bytes to_) = 47 then
    xmlNextName ahead bytes { node with shape := .shapeClose } begin_ (to_ + 1) end_
  else xmlNextName ahead bytes node begin_ to_ end_

/-- Whether the search for the end of a text goes on; `parent` is the parent the node comes with. -/
def xmlTextGo (ahead : Bool) (bytes : Str) (parent : Option XmlNode) (end_ from_ : ℕ) :
    Except Fault Bool := do
  if from_ = end_ then return false
  else if (← charAt bytes from_) = 60 then return !(← xmlIsClosing ahead bytes from_ parent)
  else return true

/-- `xml_next`: the node it fills in, and how many bytes it consumes. -/
def xmlNextAt (ahead : Bool) (bytes : Str) (parent : Option XmlNode) (node : XmlNode)
    (begin_ end_ : ℕ) : Except Fault (XmlNode × ℕ) := do
  let node := { node with type := .emptyNode }
  if begin_ = end_ then return (node, end_ - begin_)
  else
    let from_ ← seek .fuel (xmlTextGo ahead bytes parent end_) (bytes.length + 1) begin_
    if from_ ≠ begin_ then
      return ({ node with
        type := .textNode
        content := .inside begin_ (unsigned (from_ - begin_)) }, from_ - begin_)
    else xmlNextTag ahead bytes node begin_ end_

/-! ### What is read -/

variable {bytes : Str} {ahead : Bool} {p n : ℕ}

lemma getD_of_lt {i : ℕ} (h : i < bytes.length) : bytes.getD i 0 = bytes[i] := by
  simp [List.getD, h]

lemma lt_of_getD_ne {i : ℕ} (h : bytes.getD i 0 ≠ 0) : i < bytes.length := by
  by_contra hi
  exact h (by simp [List.getD, List.getElem?_eq_none (Nat.le_of_not_lt hi)])

lemma drop_eq_getD_cons (bytes : Str) {i : ℕ} (h : i < bytes.length) :
    bytes.drop i = bytes.getD i 0 :: bytes.drop (i + 1) := by
  rw [getD_of_lt h, ← List.drop_eq_getElem_cons h]

lemma XmlText.at_eq {text : XmlText} (h : text.Inside bytes) :
    ∃ c : ℕ → UInt8, ∀ i, i ≤ text.length → text.at bytes i = .ok (c i) := by
  cases text with
  | literal s => exact ⟨fun i => s.getD i 0, fun i hi => charAt_eq hi⟩
  | inside value length =>
      refine ⟨fun i => bytes.getD (value + i) 0, fun i hi => charAt_eq ?_⟩
      have h : value + length ≤ bytes.length := h
      have hi : i ≤ length := hi
      omega

/-- A block read whole. -/
lemma mapM_charAt (bytes : Str) (hp : p ≤ bytes.length + 1) (n : ℕ) :
    Returns (p + n ≤ bytes.length + 1) (· = ((bytes ++ [0]).drop p).take n)
      ((List.range n).mapM fun i => charAt bytes (p + i)) := by
  induction n with
  | zero => exact ⟨hp, by simp⟩
  | succ n ih =>
      rw [List.range_succ, List.mapM_append]
      by_cases hn : p + n ≤ bytes.length
      · obtain ⟨block, hblock, rfl⟩ := ih.exists (by omega)
        rw [hblock]
        simp only [List.mapM_cons, List.mapM_nil, charAt_eq hn]
        refine ⟨by omega, ?_⟩
        have hlt : n < ((bytes ++ [0]).drop p).length := by simp; omega
        rw [List.take_succ_eq_append_getElem hlt]
        rcases Nat.eq_or_lt_of_le hn with h | h
        · simp [List.getElem_drop, h]
        · simp [List.getElem_drop, List.getElem_append_left h, h]
      · have hC : ¬ p + (n + 1) ≤ bytes.length + 1 := by omega
        cases (List.range n).mapM fun i => charAt bytes (p + i) with
        | error e => exact hC
        | ok block =>
            simp only [List.mapM_cons, List.mapM_nil, charAt_eq_error (Nat.lt_of_not_le hn)]
            exact hC

lemma take_drop_eq_iff {s : Str} (hs : 0 ∉ s) :
    ((bytes ++ [0]).drop p).take s.length = s ↔ s <+: bytes.drop p := by
  constructor
  · intro h
    have hprefix : s <+: (bytes ++ [0]).drop p := List.prefix_iff_eq_take.mpr h.symm
    rcases Nat.lt_or_ge bytes.length p with hp | hp
    · rw [List.drop_eq_nil_of_le (by simpa using hp)] at hprefix
      rw [List.prefix_nil.mp hprefix]
      exact List.nil_prefix
    · rw [List.drop_append_of_le_length hp] at hprefix
      rcases List.prefix_concat_iff.mp hprefix with h | h
      · exact absurd (h ▸ by simp) hs
      · exact h
  · rintro ⟨t, ht⟩
    have hp : p ≤ bytes.length ∨ s = [] := by
      rcases Nat.lt_or_ge bytes.length p with hp | hp
      · rw [List.drop_eq_nil_of_le hp.le] at ht
        exact .inr (List.append_eq_nil_iff.mp ht).1
      · exact .inl hp
    rcases hp with hp | rfl
    · rw [List.drop_append_of_le_length hp, ← ht]
      simp
    · simp

/-- A block read up to the first difference: the terminator is one. -/
lemma sameUpTo_charAt {s : Str} (hs : 0 ∉ s) {left i : ℕ} (hleft : i + left = s.length)
    (hi : p + i ≤ bytes.length) :
    ∃ r, sameUpTo (fun i => charAt bytes (p + i)) (charAt s) left i = .ok r ∧
      (r = true ↔ s.drop i <+: bytes.drop (p + i)) := by
  induction left generalizing i with
  | zero =>
      refine ⟨true, rfl, ?_⟩
      rw [List.drop_eq_nil_of_le (by omega)]
      simp
  | succ left ih =>
      have hne : s.getD i 0 ≠ 0 := by
        rw [getD_of_lt (by omega)]
        intro h
        exact hs (h ▸ List.getElem_mem _)
      rw [sameUpTo, charAt_eq hi, charAt_eq (by omega), drop_eq_getD_cons s (by omega)]
      by_cases heq : bytes.getD (p + i) 0 = s.getD i 0
      · have hlt : p + i < bytes.length := lt_of_getD_ne (heq ▸ hne)
        obtain ⟨r, hr, hiff⟩ := ih (i := i + 1) (by omega) (by omega)
        refine ⟨r, ?_, ?_⟩
        · simp only [Except.bind, bind, if_pos heq]
          exact hr
        · rw [drop_eq_getD_cons bytes hlt, heq, List.cons_prefix_cons, hiff]
          simp [Nat.add_assoc]
      · refine ⟨false, ?_, ?_⟩
        · simp only [Except.bind, bind, if_neg heq]
          rfl
        · simp only [Bool.false_eq_true, false_iff]
          intro h
          rcases Nat.lt_or_ge (p + i) bytes.length with hlt | hge
          · rw [drop_eq_getD_cons bytes hlt] at h
            exact heq (List.cons_prefix_cons.mp h).1.symm
          · rw [List.drop_eq_nil_of_le hge] at h
            exact absurd (List.prefix_nil.mp h) (by simp)

/-- **`memcmp` with a string of the program**: when it reads the blocks whole, the buffer must have
as many bytes. -/
lemma memcmpAt_returns (ahead : Bool) {s : Str} (hs : 0 ∉ s) (hp : p ≤ bytes.length) :
    Returns (ahead = true → p + s.length ≤ bytes.length + 1) (· = true ↔ s <+: bytes.drop p)
      (memcmpAt ahead (fun i => charAt bytes (p + i)) (charAt s) s.length) := by
  cases ahead with
  | false =>
      obtain ⟨r, hr, hiff⟩ := sameUpTo_charAt hs (Nat.zero_add s.length) hp
      rw [memcmpAt, if_neg (by simp), hr]
      exact ⟨by simp, by simpa using hiff⟩
  | true =>
      rw [memcmpAt, if_pos rfl]
      have hs' := mapM_charAt s (p := 0) (by omega) s.length
      simp only [Nat.zero_add, List.drop_zero, List.take_left] at hs'
      obtain ⟨block, hs', hblock⟩ := hs'.exists (by omega)
      rw [hblock] at hs'
      have := (mapM_charAt bytes (p := p) (by omega) s.length).bind (D := True)
        (Q := fun r => r = true ↔ s <+: bytes.drop p)
        (f := fun a => do
          let b ← (List.range s.length).mapM (charAt s)
          return (decide (a = b))) fun a ha => by
            rw [hs']
            refine ⟨trivial, ?_⟩
            rw [ha]
            exact decide_eq_true_iff.trans (take_drop_eq_iff hs)
      exact this.congr ⟨fun h _ => h.1, fun h => ⟨h rfl, trivial⟩⟩

/-- Texts of one length that an `int` counts are compared. -/
lemma xmlTextCmpAt_returns {a b : XmlText} (ha : a.Inside bytes) (hb : b.Inside bytes)
    (hlength : a.length = b.length → a.length < 2 ^ 31) :
    ∃ r, xmlTextCmpAt bytes a b = .ok r ∧ (r = true → a.length = b.length) := by
  rw [xmlTextCmpAt]
  by_cases h : a.length = b.length
  · obtain ⟨c, hc⟩ := XmlText.at_eq ha
    obtain ⟨d, hd⟩ := XmlText.at_eq hb
    have hletter : ∀ j, 0 ≤ j → j < 0 + a.length → ∃ r, sameLetterAt bytes a b j = .ok r :=
      fun j _ hj => by
        rw [sameLetterAt, hc j (by omega), hd j (by omega)]
        exact ⟨_, rfl⟩
    obtain ⟨r, hr, -⟩ := forInt_returns Fault.crash (by simpa using hlength h) hletter
    rw [if_pos h]
    exact ⟨r, hr, fun _ => h⟩
  · rw [if_neg h]
    exact ⟨false, rfl, fun hr => Bool.noConfusion hr⟩

/-- The letter `b` is led behind the end of the map. -/
lemma xmlMapIndex_cases (c : UInt8) :
    (tolower c ≠ 98 ∧ (xmlMapIndex c = 0 ∨ xmlMapIndex c = 1)) ∨
      (tolower c = 98 ∧ xmlMapIndex c = 2) := by
  rw [xmlMapIndex]
  have h98 : tolower c = 98 ↔ (tolower c).toNat = 98 := UInt8.toNat_inj.symm
  rw [Ne, h98]
  split_ifs <;> omega

/-- The loop over the tags of an index that the map has, with the end of it. -/
lemma xmlTagLoopAt_returns {name : XmlText} (hcmp : ∀ tag ∈ xmlBlockTags,
      ∃ r, xmlTextCmpAt bytes name (.literal tag.name) = .ok r) {m fuel i : ℕ}
    (hm : xmlMapAt (m + 1) = .ok 2) (hi : i ≤ 2) (hfuel : 2 < fuel + i) :
    ∃ tag, xmlTagLoopAt bytes name m fuel i = .ok tag ∧
      (tag ∈ xmlBlockTags ∨ tag = xmlUnknownBlockTag) := by
  induction fuel generalizing i with
  | zero => omega
  | succ fuel ih =>
      rw [xmlTagLoopAt, hm]
      by_cases hi : i < 2
      · obtain ⟨tag, htag⟩ : ∃ tag, xmlBlockTags[i]? = some tag :=
          ⟨_, List.getElem?_eq_getElem hi⟩
        have hmem := List.mem_of_getElem? htag
        obtain ⟨r, hr⟩ := hcmp tag hmem
        have hloop := ih (i := i + 1) (by omega) (by omega)
        cases r with
        | true =>
            refine ⟨tag, ?_, .inl hmem⟩
            simp [hi, xmlTagAt, htag, hr, bind, Except.bind, pure, Except.pure]
        | false =>
            obtain ⟨tag', hloop, htag'⟩ := hloop
            refine ⟨tag', ?_, htag'⟩
            simpa [hi, xmlTagAt, htag, hr, bind, Except.bind, pure, Except.pure] using hloop
      · exact ⟨_, by simp [hi, bind, Except.bind]; rfl, .inr rfl⟩

/-- **`xml_tag_find` stays inside its tables** exactly when the name has not `b` for its first
letter.  No tag it finds that has an end begins a comment. -/
lemma xmlTagFindAt_returns {v l : ℕ} (hl : v + l ≤ bytes.length) :
    Returns (l ≠ 0 → tolower (bytes.getD v 0) ≠ 98)
      (fun tag => tag.brace ≠ .none → tag.block = .follow)
      (xmlTagFindAt bytes (.inside v l)) := by
  have follow : ∀ tag, tag ∈ xmlBlockTags ∨ tag = xmlUnknownBlockTag →
      tag.brace ≠ .none → tag.block = .follow := by
    rintro tag (htag | rfl) hbrace
    · simp only [xmlBlockTags, List.mem_cons, List.not_mem_nil, or_false] at htag
      rcases htag with rfl | rfl <;> exact absurd rfl hbrace
    · rfl
  have hcmp : ∀ tag ∈ xmlBlockTags,
      ∃ r, xmlTextCmpAt bytes (.inside v l) (.literal tag.name) = .ok r := fun tag htag => by
    have hliteral : (XmlText.literal tag.name).Inside bytes := trivial
    have hshort : tag.name.length < 2 ^ 31 := by
      simp only [xmlBlockTags, List.mem_cons, List.not_mem_nil, or_false] at htag
      rcases htag with rfl | rfl <;> decide
    obtain ⟨r, hr, -⟩ := xmlTextCmpAt_returns (a := .inside v l) hl hliteral
      fun h => h.trans_lt hshort
    exact ⟨r, hr⟩
  rw [xmlTagFindAt]
  by_cases h0 : l = 0
  · rw [if_neg (by simp [XmlText.length, h0])]
    exact .ok (fun h => absurd h0 h) (follow _ (.inr rfl))
  · rw [if_pos (show (XmlText.inside v l).length ≠ 0 from h0), XmlText.at, Nat.add_zero,
      charAt_eq (by omega)]
    rcases xmlMapIndex_cases (bytes.getD v 0) with ⟨hb, hm⟩ | ⟨hb, hm⟩
    · have hmap : ∃ i, xmlMapAt (xmlMapIndex (bytes.getD v 0)) = .ok i ∧ i ≤ 2 ∧
          xmlMapAt (xmlMapIndex (bytes.getD v 0) + 1) = .ok 2 := by
        rcases hm with hm | hm <;> rw [hm]
        · exact ⟨0, rfl, by omega, rfl⟩
        · exact ⟨2, rfl, by omega, rfl⟩
      obtain ⟨i, hi, hle, hstop⟩ := hmap
      obtain ⟨tag, hloop, htag⟩ := xmlTagLoopAt_returns hcmp hstop hle (show 2 < 3 + i by omega)
      simp only [bind, Except.bind, hi, hloop]
      exact .ok (fun _ => hb) (follow tag htag)
    · simp only [bind, Except.bind, hm]
      exact fun h => h h0 hb

/-! ### One token -/

/-- Where a token that begins at `p` may end: at the end, at a `<`, and within a tag at a `>`. -/
def XmlStop (bytes : Str) (p q : ℕ) : Prop :=
  q = bytes.length ∨ bytes.getD q 0 = 60 ∨ bytes.getD p 0 = 60 ∧ bytes.getD q 0 = 62

/-- What `xml_next` makes of the bytes from `p` on, and how many it consumes. -/
inductive XmlTokenAt (bytes : Str) (p : ℕ) : XmlNode → ℕ → Prop
  | empty {node : XmlNode} {n : ℕ} (htype : node.type = .emptyNode) (hpos : 0 < n)
      (hle : p + n ≤ bytes.length) : XmlTokenAt bytes p node n
  | text {n : ℕ} (hpos : 0 < n) (hle : p + n ≤ bytes.length)
      (hstop : ∀ q, p < q → XmlStop bytes p q → p + n ≤ q) :
      XmlTokenAt bytes p { type := .textNode, content := .inside p (unsigned n) } n
  | element {shape : XmlShape} {tag : XmlBlockTag} {v k l m n : ℕ} (hv : p < v) (hk : 0 < k)
      (hend : v + k + l < p + n) (hle : p + n ≤ bytes.length) (hm : m ≤ l)
      (hstop : ∀ q, p < q → XmlStop bytes p q → p + n ≤ q + 1)
      (htag : tag.brace ≠ .none → tag.block = .follow) :
      XmlTokenAt bytes p
        { shape, type := .elementNode, name := .inside v (unsigned k), tag := some tag
          content := .inside (v + k) m } n

/-- The token that begins at `p` ends within the range of an `int`. -/
def XmlNarrow (bytes : Str) (p : ℕ) : Prop :=
  ∃ q, p < q ∧ q < p + 2 ^ 31 ∧ XmlStop bytes p q

/-- What stands from `p` on can be read: a `<` has enough behind it for a `memcmp` that reads ahead,
and the name behind it, when one is looked up, has not `b` for its first letter. -/
def XmlReadable (ahead : Bool) (bytes : Str) (p : ℕ) : Prop :=
  bytes.getD p 0 = 60 → (ahead = true → p + 3 ≤ bytes.length) ∧
    (¬ str "!--" <+: bytes.drop (p + 1) →
      let v := if bytes.getD (p + 1) 0 = 47 then p + 2 else p + 1
      unsigned ((bytes.drop v).takeWhile isName).length ≠ 0 → tolower (bytes.getD v 0) ≠ 98)

/-- The end of a comment is searched inside the body, when the dashes it begins with are. -/
lemma xmlEndGo_returns (ahead comment : Bool) {i : ℕ} (hi : i < bytes.length)
    (hdash : comment = true → 2 ≤ i) :
    ∃ r, xmlEndGo ahead bytes comment bytes.length i = .ok r := by
  have hcomment : ∃ r, xmlIsComment ahead bytes i comment = .ok r := by
    cases comment with
    | false => exact ⟨true, rfl⟩
    | true =>
        have hi2 := hdash rfl
        obtain ⟨r, hr, -⟩ := (memcmpAt_returns ahead (s := str "--") (by decide)
          (show i - 2 ≤ bytes.length by omega)).exists fun _ => by
            show i - 2 + 2 ≤ bytes.length + 1
            omega
        have hback : (fun j => charBack bytes (i + j) 2) = fun j => charAt bytes (i - 2 + j) :=
          funext fun j => by rw [charBack_eq (by omega), show i + j - 2 = i - 2 + j by omega]
        exact ⟨r, by rw [xmlIsComment, if_pos rfl, hback]; exact hr⟩
  obtain ⟨r, hr⟩ := hcomment
  rw [xmlEndGo, if_neg (by omega), charAt_eq hi.le, hr]
  simp only [bind, Except.bind]
  split_ifs <;> exact ⟨_, rfl⟩

lemma xmlEndGo_length {comment : Bool} :
    xmlEndGo ahead bytes comment bytes.length bytes.length = .ok false := by
  rw [xmlEndGo, if_pos rfl]
  rfl

/-- In a tag it ends at a `<` or a `>`. -/
lemma xmlEndGo_tag {i : ℕ} (hi : i < bytes.length) :
    xmlEndGo ahead bytes false bytes.length i =
      .ok (bytes.getD i 0 ≠ 60 ∧ bytes.getD i 0 ≠ 62 : Bool) := by
  rw [xmlEndGo, if_neg (by omega), charAt_eq hi.le]
  generalize bytes.getD i 0 = c
  simp only [bind, Except.bind, xmlIsComment]
  by_cases h60 : c = 60
  · rw [if_pos (by simp [h60])]
    simp [h60, pure, Except.pure]
  · rw [if_neg (by simp [h60])]
    by_cases h62 : c = 62 <;> simp [h60, h62, pure, Except.pure]

/-- No byte of a name ends a tag. -/
lemma not_xmlStop_of_isName {q : ℕ} (h : isName (bytes.getD q 0) = true) : ¬ XmlStop bytes p q := by
  rintro (rfl | hq | ⟨-, hq⟩)
  · simp [isName, isalnum, isalpha, isdigit] at h
  · rw [hq] at h
    exact absurd h (by decide)
  · rw [hq] at h
    exact absurd h (by decide)

/-- A comment is read to its end. -/
lemma xmlNextEnd_comment {node : XmlNode} (hp : p + 4 ≤ bytes.length)
    (htype : node.type = .emptyNode) :
    ∃ r, xmlNextEnd ahead bytes true node p (p + 4) bytes.length = .ok r ∧
      XmlTokenAt bytes p r.1 r.2 := by
  obtain ⟨q, hq, hlo, hhi, -, -⟩ := seek_returns Fault.fuel hp
    (show bytes.length < bytes.length + 1 + (p + 4) by omega)
    (fun j _ hj => xmlEndGo_returns ahead true hj fun _ => by omega) xmlEndGo_length
  rw [xmlNextEnd, hq]
  by_cases hend : q = bytes.length
  · exact ⟨(node, q - p), by simp [bind, Except.bind, hend]; rfl,
      .empty htype (by omega) (by omega)⟩
  · exact ⟨(node, q + 1 - p), by simp [bind, Except.bind, hend]; rfl,
      .empty htype (by omega) (by omega)⟩

/-- A tag is read to its end from its name on. -/
lemma xmlNextEnd_tag (ahead : Bool) (shape : XmlShape) {tag : XmlBlockTag} {v k : ℕ}
    (hv : p < v) (hk : 0 < k) (hle : v + k ≤ bytes.length)
    (hfront : ∀ q, p < q → q < v → ¬ XmlStop bytes p q)
    (hname : ∀ q, v ≤ q → q < v + k → isName (bytes.getD q 0) = true)
    (htag : tag.brace ≠ .none → tag.block = .follow) :
    ∃ r, xmlNextEnd ahead bytes false
        { shape, name := .inside v (unsigned k), tag := some tag, content := .inside (v + k) 0 }
        p (v + k) bytes.length = .ok r ∧ XmlTokenAt bytes p r.1 r.2 := by
  obtain ⟨q, hq, hlo, hhi, hstop, hgo⟩ := seek_returns Fault.fuel hle
    (show bytes.length < bytes.length + 1 + (v + k) by omega)
    (fun j _ hj => xmlEndGo_returns ahead false hj (by simp)) xmlEndGo_length
  rw [xmlNextEnd, hq]
  simp only [bind, Except.bind]
  by_cases hend : q = bytes.length
  · rw [if_pos hend]
    exact ⟨_, rfl, .empty rfl (by omega) (by omega)⟩
  · have hqlt : q < bytes.length := by omega
    rw [if_neg hend, if_neg (by simp), charAt_eq hqlt.le, charBack_eq (by omega),
      charAt_eq (by omega)]
    dsimp only
    by_cases h60 : bytes.getD q 0 = 60
    · rw [if_pos h60]
      exact ⟨_, rfl, .empty rfl (by omega) (by omega)⟩
    · -- the first byte behind the name that may end the tag does
      have hfirst : ∀ j, p < j → XmlStop bytes p j → p + (q + 1 - p) ≤ j + 1 := by
        intro j hj hstop
        by_contra hlt'
        rcases Nat.lt_or_ge j (v + k) with hjn | hjn
        · rcases Nat.lt_or_ge j v with hjv | hjv
          · exact hfront j hj hjv hstop
          · exact not_xmlStop_of_isName (hname j hjv hjn) hstop
        · have hpass := hgo j hjn (by omega)
          rw [xmlEndGo_tag (by omega)] at hpass
          have hpass : bytes.getD j 0 ≠ 60 ∧ bytes.getD j 0 ≠ 62 :=
            of_decide_eq_true (Except.ok.inj hpass)
          rcases hstop with rfl | h | ⟨-, h⟩
          · omega
          · exact hpass.1 h
          · exact hpass.2 h
      have hmod := unsigned_le (q - (v + k))
      rw [if_neg h60]
      split_ifs with hsingle
      · -- the `/` is not part of the name, so the content has it
        have hslash : q ≠ v + k := by
          rintro rfl
          have := hname (v + k - 1) (by omega) (by omega)
          rw [hsingle.1] at this
          exact absurd this (by decide)
        have hless := unsigned_pred_le (n := q - (v + k)) (by omega)
        exact ⟨_, rfl, .element hv hk (by omega) (by omega) hless hfirst htag⟩
      · exact ⟨_, rfl, .element hv hk (by omega) (by omega) hmod hfirst htag⟩

lemma xmlNameGo_eq {i : ℕ} (hi : i ≤ bytes.length) :
    xmlNameGo bytes i = .ok (isName (bytes.getD i 0)) := by
  rw [xmlNameGo, charAt_eq hi]
  rfl

/-- The bytes of a name end at the first that is none. -/
lemma length_takeWhile_isName {v q : ℕ} (hv : v ≤ q) (hq : q ≤ bytes.length)
    (hname : ∀ j, v ≤ j → j < q → isName (bytes.getD j 0) = true)
    (hstop : isName (bytes.getD q 0) = false) :
    ((bytes.drop v).takeWhile isName).length = q - v := by
  obtain ⟨k, rfl⟩ := Nat.exists_eq_add_of_le hv
  induction k generalizing v with
  | zero =>
      rcases Nat.eq_or_lt_of_le hq with h | h
      · rw [List.drop_eq_nil_of_le (by omega)]
        simp
      · rw [drop_eq_getD_cons bytes (by omega), List.takeWhile_cons_of_neg (by simpa using hstop)]
        simp
  | succ k ih =>
      have hfirst := hname v le_rfl (by omega)
      have hrest := ih (v := v + 1) (by omega) (by omega)
        (fun j hj hj' => hname j (by omega) (by omega))
        (by rw [show v + 1 + k = v + (k + 1) by omega]; exact hstop)
      rw [drop_eq_getD_cons bytes (by omega), List.takeWhile_cons_of_pos hfirst, List.length_cons,
        hrest]
      omega

/-- A name is looked up exactly when the table has an entry for its first letter. -/
lemma xmlNextName_returns {v : ℕ} {shape : XmlShape} (hv : p < v) (hle : v ≤ bytes.length)
    (hfront : ∀ q, p < q → q < v → ¬ XmlStop bytes p q) :
    Returns (unsigned ((bytes.drop v).takeWhile isName).length ≠ 0 → tolower (bytes.getD v 0) ≠ 98)
      (fun r => XmlTokenAt bytes p r.1 r.2)
      (xmlNextName ahead bytes { shape } p v bytes.length) := by
  have hend : xmlNameGo bytes bytes.length = .ok false := by
    rw [xmlNameGo_eq le_rfl]
    simp [isName, isalnum, isalpha, isdigit]
  obtain ⟨q, hq, hlo, hhi, hstop, hgo⟩ := seek_returns Fault.fuel hle
    (show bytes.length < bytes.length + 1 + v by omega)
    (fun j _ hj => ⟨_, xmlNameGo_eq hj.le⟩) hend
  have hname : ∀ j, v ≤ j → j < q → isName (bytes.getD j 0) = true := fun j hj hjq => by
    have := hgo j hj hjq
    rw [xmlNameGo_eq (by omega)] at this
    exact Except.ok.inj this
  have hstop : isName (bytes.getD q 0) = false := by
    rw [xmlNameGo_eq hhi] at hstop
    exact Except.ok.inj hstop
  rw [xmlNextName, hq, length_takeWhile_isName hlo hhi hname hstop]
  simp only [bind, Except.bind]
  by_cases hempty : q = v
  · rw [if_pos hempty, hempty]
    exact .ok (fun h => absurd (by simp [unsigned]) h) (.empty rfl (by omega) (by omega))
  · rw [if_neg hempty]
    have hl : v + unsigned (q - v) ≤ bytes.length := by
      have := unsigned_le (q - v)
      omega
    have hfound := (xmlTagFindAt_returns hl).bind (D := True)
      (Q := fun r : XmlNode × ℕ => XmlTokenAt bytes p r.1 r.2) fun tag htag =>
        .of_exists trivial (xmlNextEnd_tag ahead shape hv
          (show 0 < q - v by omega) (by omega) hfront (fun j hj hjq => hname j hj (by omega)) htag)
    rw [show v + (q - v) = q by omega] at hfound
    exact hfound.congr ⟨And.left, fun h => ⟨h, trivial⟩⟩

/-- **A tag is found exactly when it is readable.** -/
lemma xmlNextTag_returns (hp : p < bytes.length) (hlt : bytes.getD p 0 = 60) :
    Returns (XmlReadable ahead bytes p) (fun r => XmlTokenAt bytes p r.1 r.2)
      (xmlNextTag ahead bytes {} p bytes.length) := by
  have h3 : (str "!--").length = 3 := rfl
  rw [xmlNextTag]
  refine ((memcmpAt_returns ahead (s := str "!--") (by decide)
      (show p + 1 ≤ bytes.length from hp)).bind
    (D := ¬ str "!--" <+: bytes.drop (p + 1) →
      let v := if bytes.getD (p + 1) 0 = 47 then p + 2 else p + 1
      unsigned ((bytes.drop v).takeWhile isName).length ≠ 0 → tolower (bytes.getD v 0) ≠ 98)
    fun comment hcomment => ?_).congr ?_
  · cases comment with
    | true =>
        have hprefix := hcomment.mp rfl
        have hlen := hprefix.length_le
        rw [List.length_drop, h3] at hlen
        exact .of_exists (fun h => absurd hprefix h) (xmlNextEnd_comment (by omega) rfl)
    | false =>
        have hprefix : ¬ str "!--" <+: bytes.drop (p + 1) := fun h => by simpa using hcomment.mpr h
        rw [charAt_eq (by omega)]
        simp only [bind, Except.bind, hprefix, not_false_eq_true, forall_const, Bool.false_eq_true,
          if_false]
        by_cases h47 : bytes.getD (p + 1) 0 = 47
        · have hlt' : p + 1 < bytes.length := lt_of_getD_ne (by rw [h47]; decide)
          rw [if_pos h47, if_pos h47]
          refine xmlNextName_returns (by omega) (by omega) fun q hq hq' => ?_
          obtain rfl : q = p + 1 := by omega
          rintro (h | h | ⟨-, h⟩)
          · omega
          · rw [h47] at h
            exact absurd h (by decide)
          · rw [h47] at h
            exact absurd h (by decide)
        · rw [if_neg h47, if_neg h47]
          exact xmlNextName_returns (by omega) (by omega) fun q hq hq' => by omega
  · rw [h3]
    constructor
    · rintro ⟨hahead, hname⟩ -
      exact ⟨fun h => by have := hahead h; omega, hname⟩
    · intro h
      exact ⟨fun h' => by have := (h hlt).1 h'; omega, (h hlt).2⟩

lemma xmlTextGo_eq (ahead : Bool) {i : ℕ} (hi : i < bytes.length) :
    xmlTextGo ahead bytes none bytes.length i = .ok (decide (bytes.getD i 0 ≠ 60)) := by
  rw [xmlTextGo, if_neg (by omega), charAt_eq hi.le]
  generalize bytes.getD i 0 = c
  by_cases h60 : c = 60 <;> simp [h60, bind, Except.bind, xmlIsClosing, pure, Except.pure]

/-- **`xml_next` finds a token exactly when what stands there can be read.** -/
lemma xmlNextAt_returns (ahead : Bool) (hp : p < bytes.length) :
    Returns (XmlReadable ahead bytes p) (fun r => XmlTokenAt bytes p r.1 r.2)
      (xmlNextAt ahead bytes none {} p bytes.length) := by
  have hend : xmlTextGo ahead bytes none bytes.length bytes.length = .ok false := by
    rw [xmlTextGo, if_pos rfl]
    rfl
  obtain ⟨q, hq, hlo, hhi, hstop, hgo⟩ := seek_returns Fault.fuel hp.le
    (show bytes.length < bytes.length + 1 + p by omega)
    (fun j _ hj => ⟨_, xmlTextGo_eq ahead hj⟩) hend
  rw [xmlNextAt, if_neg (by omega), hq]
  simp only [bind, Except.bind]
  by_cases htext : q = p
  · subst htext
    rw [xmlTextGo_eq ahead hp] at hstop
    have hlt : bytes.getD q 0 = 60 := by simpa using hstop
    rw [if_neg (by simp)]
    exact xmlNextTag_returns hp hlt
  · have hne : bytes.getD p 0 ≠ 60 := by
      have := hgo p le_rfl (by omega)
      rw [xmlTextGo_eq ahead hp] at this
      simpa using this
    rw [if_pos htext]
    refine .ok (fun h => absurd h hne) (.text (by omega) (by omega) fun j hj hjstop => ?_)
    by_contra hlt
    have hgo := hgo j hj.le (by omega)
    rw [xmlTextGo_eq ahead (by omega)] at hgo
    have hgo : bytes.getD j 0 ≠ 60 := by simpa using hgo
    rcases hjstop with h | h | ⟨h, -⟩
    · omega
    · exact hgo h
    · exact hne h

end SipEcho
