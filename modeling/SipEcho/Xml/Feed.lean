import SipEcho.Map.Delete
import SipEcho.Xml.Seed

/-!
`xml_feed`: the text of a document read into an element tree.

Names are looked up in a table of two tags by an index on their first letter.  The index has three
entries, and for names with `b` a fourth is read behind it; what lies there is a parameter.  Of the
two tags only `?xml` can be met, which never has an end; so `comment` stays `NULL`, and no element
ends another.

* `xmlTagFind`, `xmlNext`: the tokenizer;
* `xmlAttributeNext`, `xmlNodeCompile`: the attributes, out of what stands behind a name;
* `xmlElementAppend`, `xmlFeed`: the tree, with the elements that are open;
* `xmlNext_plain`: **no text has a `<` in it**, no element a `<` or `>` behind its name;
* `xmlNodeCompile_spec`: the attributes of an element are read off its content, and their names have
  no digits.
-/

namespace SipEcho

open Lib

/-- `isalpha`. -/
def isalpha (c : UInt8) : Bool := (65 ≤ c ∧ c ≤ 90) ∨ (97 ≤ c ∧ c ≤ 122)

/-- `isalnum`. -/
def isalnum (c : UInt8) : Bool := isalpha c || isdigit c

/-- `xml_max_DEEP`. -/
def xmlMaxDeep : ℕ := 512

/-! ### Tags -/

/-- `xml_brace_t`, as far as the tags have it. -/
inductive XmlBrace where
  | none | any
  deriving DecidableEq, Repr

/-- `xml_tag_t`. -/
structure XmlTag where
  name : Str
  brace : XmlBrace
  deriving DecidableEq, Repr

/-- `__xml_tag`. -/
def xmlTags : List XmlTag := [⟨str "?xml", .none⟩, ⟨str "!--", .none⟩]

/-- `__xml_unknown_tag`. -/
def xmlUnknownTag : XmlTag := ⟨str "__", .any⟩

/-- `__xml_map`, and the `int` behind it. -/
def xmlMap (beyond : ℤ) : ℕ → ℤ
  | 0 => 0
  | 1 => 2
  | 2 => 2
  | _ => beyond

/-- `xml_text_cmp` is `0`. -/
def xmlTextCmp (a b : Str) : Bool := a.map tolower = b.map tolower

/-- The loop of `xml_tag_find`, from the index `i` on; there are no tags behind the table. -/
def xmlTagLoop (name : Str) (stop : ℤ) : ℕ → List XmlTag → Except Fault XmlTag
  | i, [] => if (i : ℤ) < stop then throw .crash else return xmlUnknownTag
  | i, tag :: tags =>
      if (i : ℤ) < stop then
        if xmlTextCmp name tag.name then return tag else xmlTagLoop name stop (i + 1) tags
      else return xmlUnknownTag

/-- `xml_tag_find`. -/
def xmlTagFind (beyond : ℤ) (name : Str) : Except Fault XmlTag :=
  match name with
  | [] => return xmlUnknownTag
  | c :: _ =>
      let m : ℤ := 1 + (tolower c).toNat - 97
      let m := if m < 0 then 0 else if 3 ≤ m then 1 else m.toNat
      let i := (xmlMap beyond m).toNat
      xmlTagLoop name (xmlMap beyond (m + 1)) i (xmlTags.drop i)

/-! ### Tokens -/

/-- What `xml_next` finds; `last` is the byte behind the content of an element, which
`xml_attribute_next` reads too. -/
inductive XmlToken where
  | empty
  | text (content : Str)
  | element (shape : XmlShape) (name : Str) (tag : XmlTag) (content : Str) (last : UInt8)

/-- A byte that belongs to a name. -/
def isName (c : UInt8) : Bool := c = 33 || c = 63 || isalnum c || c = 95 || c = 58 || c = 45

/-- What is left behind a comment, whose end follows two dashes; `a` and `b` were read before. -/
def commentEnd : UInt8 → UInt8 → Str → Str
  | _, _, [] => []
  | a, b, c :: rest => if a = 45 ∧ b = 45 ∧ c = 62 then rest else commentEnd b c rest

/-- `xml_next` from the name of an element on. -/
def xmlNextElement (beyond : ℤ) (closing : Bool) (to_ : Str) : Except Fault (XmlToken × Str) :=
  let name := to_.takeWhile isName
  if name = [] then return (.empty, to_)
  else do
    let tag ← xmlTagFind beyond name
    let rest := to_.dropWhile isName
    let content := rest.takeWhile fun c => c ≠ 60 ∧ c ≠ 62
    match rest.dropWhile fun c => c ≠ 60 ∧ c ≠ 62 with
    | [] => return (.empty, [])
    | c :: after =>
        if c = 60 then return (.empty, c :: after)
        else if closing then return (.element .shapeClose name tag content 62, after)
        else if content.getLast? = some 47 then
          return (.element .shapeSingle name tag content.dropLast 47, after)
        else return (.element .shapeOpen name tag content 62, after)

/-- `xml_next`, and what is left of the buffer. -/
def xmlNext (beyond : ℤ) (bytes : Str) : Except Fault (XmlToken × Str) :=
  let text := bytes.takeWhile (· ≠ 60)
  if text ≠ [] then return (.text text, bytes.dropWhile (· ≠ 60))
  else
    match bytes with
    | [] => return (.empty, [])
    | _ :: to_ =>
        if str "!--" <+: to_ then return (.empty, commentEnd 45 45 (to_.drop 3))
        else
          match to_ with
          | 47 :: to_ => xmlNextElement beyond true to_
          | _ => xmlNextElement beyond false to_

/-! ### Attributes -/

/-- The modes of `xml_attribute_next`, each with what was read. -/
inductive AttributeMode where
  | nameBegin
  | nameEnd (name : Str)
  | equals (name : Str)
  | contentBegin (name : Str)
  | contentEnd (name : Str) (quote : Option UInt8) (content : Str)
  | done (name content : Str)

/-- An attribute node. -/
def attributeNode (shape : XmlShape) (name content : Str) : XmlElement :=
  .node .attributeNode shape name (some content) [] []

/-- An attribute node whose value was not come to. -/
def bareAttribute (shape : XmlShape) (name : Str) : XmlElement :=
  .node .attributeNode shape name none [] []

/-- The attribute when the loop ends in a mode. -/
def AttributeMode.node : AttributeMode → Option XmlElement
  | .nameBegin => none
  | .nameEnd _ => none
  | .equals name => some (bareAttribute .shapeSingle name)
  | .contentBegin name => some (bareAttribute .shapeOpen name)
  | .contentEnd name _ _ => some (attributeNode .shapeOpen name [])
  | .done name content => some (attributeNode .shapeOpen name content)

/-- A byte that belongs to the name of an attribute. -/
def isAttributeName (c : UInt8) : Bool := isalpha c || c = 45 || c = 58 || c = 95

/-- The loop of `xml_attribute_next` over what is left of the content, with the byte behind it: the
attribute, and what is left from the offset it returns. -/
def xmlAttributeLoop : AttributeMode → Str → Option XmlElement × Str
  | mode, [] => (mode.node, [])
  | .nameBegin, c :: rest =>
      if isalpha c then xmlAttributeLoop (.nameEnd [c]) rest else xmlAttributeLoop .nameBegin rest
  | .nameEnd name, c :: rest =>
      if isAttributeName c then xmlAttributeLoop (.nameEnd (name ++ [c])) rest
      else if c = 61 then xmlAttributeLoop (.contentBegin name) rest
      else xmlAttributeLoop (.equals name) rest
  | .equals name, c :: rest =>
      if c = 61 then xmlAttributeLoop (.contentBegin name) rest
      else if isalpha c then (some (bareAttribute .shapeSingle name), c :: rest)
      else xmlAttributeLoop (.equals name) rest
  | .contentBegin name, c :: rest =>
      if isspace c then xmlAttributeLoop (.contentBegin name) rest
      else if c = 39 ∨ c = 34 then xmlAttributeLoop (.contentEnd name (some c) []) rest
      else xmlAttributeLoop (.contentEnd name none [c]) rest
  | .contentEnd name (some quote) content, c :: rest =>
      if c = quote ∨ rest = [] then xmlAttributeLoop (.done name content) rest
      else xmlAttributeLoop (.contentEnd name (some quote) (content ++ [c])) rest
  | .contentEnd name none content, c :: rest =>
      if isspace c ∨ rest = [] then (some (attributeNode .shapeOpen name content), c :: rest)
      else xmlAttributeLoop (.contentEnd name none (content ++ [c])) rest
  | .done name content, c :: rest => (some (attributeNode .shapeOpen name content), c :: rest)

/-- `xml_attribute_next`, from an offset on. -/
def xmlAttributeNext (bytes : Str) : Option XmlElement × Str := xmlAttributeLoop .nameBegin bytes

/-- The loop of `xml_node_compile`: it ends where the byte behind the content is left. -/
def xmlNodeLoop : ℕ → Str → List XmlElement → Except Fault (List XmlElement)
  | 0, bytes, attributes => if 1 < bytes.length then throw .fuel else return attributes
  | fuel + 1, bytes, attributes =>
      if 1 < bytes.length then
        let (found, bytes) := xmlAttributeNext bytes
        xmlNodeLoop fuel bytes (found.toList ++ attributes)
      else return attributes

/-- `xml_node_compile`: the attributes of an element. -/
def xmlNodeCompile (content : Str) (last : UInt8) : Except Fault (List XmlElement) :=
  xmlNodeLoop content.length (content ++ [last]) []

/-! ### The tree -/

/-- An element that is open. -/
structure OpenElement where
  name : Str
  content : Str
  attributes : List XmlElement
  children : List XmlElement

/-- It in the tree. -/
def OpenElement.node (o : OpenElement) : XmlElement :=
  .node .elementNode .shapeOpen o.name (some o.content) o.attributes o.children

/-- A document that is being fed: the open elements, the innermost first, and the children of the
document.  An open element stands in the tree where its next sibling would. -/
structure XmlDocument where
  opened : List OpenElement
  children : List XmlElement

/-- A node becomes the last child of the innermost element. -/
def XmlDocument.add (doc : XmlDocument) (node : XmlElement) : XmlDocument :=
  match doc.opened with
  | [] => { doc with children := doc.children ++ [node] }
  | o :: os => { doc with opened := { o with children := o.children ++ [node] } :: os }

/-- `root = root->parent`. -/
def XmlDocument.up (doc : XmlDocument) : XmlDocument :=
  match doc.opened with
  | [] => doc
  | o :: os => { doc with opened := os }.add o.node

/-- An end tag: the innermost element of its name is closed, with those inside it. -/
def XmlDocument.close (doc : XmlDocument) (name : Str) : XmlDocument :=
  match doc.opened.findIdx? fun o => xmlTextCmp o.name name with
  | none => doc
  | some n => XmlDocument.up^[n + 1] doc

/-- The tree, with what is still open. -/
def XmlDocument.tree (doc : XmlDocument) : List XmlElement :=
  (XmlDocument.up^[doc.opened.length] doc).children

/-- `root->level > xml_max_DEEP`, when `xml_element_append` appends nothing. -/
def XmlDocument.Deep (doc : XmlDocument) : Prop := xmlMaxDeep < doc.opened.length

instance (doc : XmlDocument) : Decidable doc.Deep :=
  inferInstanceAs (Decidable (xmlMaxDeep < doc.opened.length))

/-- `xml_text_is_empty`. -/
def xmlTextIsEmpty (text : Str) : Bool := text.all isspace

/-- What `xml_feed` does with a token; `none` for `-1`. -/
def xmlFeedToken (token : XmlToken) (doc : XmlDocument) : Except Fault (Option XmlDocument) :=
  match token with
  | .empty => return some doc
  | .text content =>
      if xmlTextIsEmpty content ∨ doc.Deep then return some doc
      else return some (doc.add (.node .textNode .shapeOpen [] (some content) [] []))
  | .element .shapeClose name _ _ _ => return some (doc.close name)
  | .element shape name tag content last =>
      if doc.Deep then return none
      else do
        let attributes ← xmlNodeCompile content last
        if tag.brace ≠ .none ∧ shape ≠ .shapeSingle then
          return some { doc with opened := ⟨name, content, attributes, []⟩ :: doc.opened }
        else return some (doc.add (.node .elementNode shape name (some content) attributes []))

/-- The loop of `xml_feed`. -/
def xmlFeedLoop (beyond : ℤ) : ℕ → Str → XmlDocument → Except Fault (Option XmlDocument)
  | _, [], doc => return some doc
  | 0, _ :: _, _ => throw .fuel
  | fuel + 1, c :: bytes, doc => do
      let (token, rest) ← xmlNext beyond (c :: bytes)
      match ← xmlFeedToken token doc with
      | none => return none
      | some doc => xmlFeedLoop beyond fuel rest doc

/-- `xml_feed` into a fresh document. -/
def xmlFeed (beyond : ℤ) (bytes : Str) : Except Fault (Option (List XmlElement)) := do
  return (← xmlFeedLoop beyond bytes.length bytes ⟨[], []⟩).map XmlDocument.tree

/-! ### What is read -/

section Reading

variable {beyond : ℤ} {bytes rest content name : Str} {token : XmlToken} {P : UInt8 → Prop}

/-- What a token has of the text. -/
def XmlToken.Plain : XmlToken → Prop
  | .empty => True
  | .text content => 60 ∉ content
  | .element _ _ _ content _ => 60 ∉ content ∧ 62 ∉ content

lemma not_mem_takeWhile_ne (bytes : Str) : 60 ∉ bytes.takeWhile (· ≠ 60) := fun h => by
  simpa using List.mem_takeWhile_imp h

lemma xmlNextElement_plain {closing : Bool} {to_ : Str}
    (h : xmlNextElement beyond closing to_ = .ok (token, rest)) : token.Plain := by
  have h60 : 60 ∉ (to_.dropWhile isName).takeWhile fun c => c ≠ 60 ∧ c ≠ 62 := fun hc => by
    simpa using List.mem_takeWhile_imp hc
  have h62 : 62 ∉ (to_.dropWhile isName).takeWhile fun c => c ≠ 60 ∧ c ≠ 62 := fun hc => by
    simpa using List.mem_takeWhile_imp hc
  rw [xmlNextElement] at h
  dsimp only at h
  split at h
  · obtain ⟨rfl, -⟩ := Prod.mk.inj (Except.ok.inj h)
    trivial
  · obtain ⟨tag, -, h⟩ := ok_of_bind h
    split at h
    · obtain ⟨rfl, -⟩ := Prod.mk.inj (Except.ok.inj h)
      trivial
    · split_ifs at h <;> obtain ⟨rfl, -⟩ := Prod.mk.inj (Except.ok.inj h)
      · trivial
      · exact ⟨h60, h62⟩
      · exact ⟨fun hc => h60 (List.mem_of_mem_dropLast hc),
          fun hc => h62 (List.mem_of_mem_dropLast hc)⟩
      · exact ⟨h60, h62⟩

/-- **No text has a `<` in it, no element a `<` or `>` behind its name.** -/
lemma xmlNext_plain (h : xmlNext beyond bytes = .ok (token, rest)) : token.Plain := by
  rw [xmlNext.eq_def] at h
  dsimp only at h
  split at h
  · obtain ⟨rfl, -⟩ := Prod.mk.inj (Except.ok.inj h)
    exact not_mem_takeWhile_ne bytes
  · split at h
    · obtain ⟨rfl, -⟩ := Prod.mk.inj (Except.ok.inj h)
      trivial
    · split at h
      · obtain ⟨rfl, -⟩ := Prod.mk.inj (Except.ok.inj h)
        trivial
      · split at h
        · exact xmlNextElement_plain h
        · exact xmlNextElement_plain h

/-- What a mode has read, with `bytes` left: bytes of a name, and bytes with `P`. -/
def AttributeMode.Reads (P : UInt8 → Prop) (bytes : Str) : AttributeMode → Prop
  | .nameBegin => True
  | .nameEnd name => ∀ c ∈ name, isAttributeName c = true
  | .equals name => ∀ c ∈ name, isAttributeName c = true
  | .contentBegin name => ∀ c ∈ name, isAttributeName c = true
  | .contentEnd name _ content =>
      (∀ c ∈ name, isAttributeName c = true) ∧ (bytes ≠ [] → ∀ c ∈ content, P c)
  | .done name content => (∀ c ∈ name, isAttributeName c = true) ∧ ∀ c ∈ content, P c

/-- An attribute whose value, if it has one, has the bytes `P`. -/
def IsAttributeOf (P : UInt8 → Prop) (node : XmlElement) : Prop :=
  ∃ shape name content, node = .node .attributeNode shape name content [] [] ∧
    (∀ c ∈ name, isAttributeName c = true) ∧ ∀ c ∈ content.getD [], P c

lemma isAttributeName_of_isalpha {c : UInt8} (h : isalpha c = true) : isAttributeName c = true := by
  simp [isAttributeName, h]

/-- **`xml_attribute_next` reads what is there**, up to the byte behind the content. -/
lemma xmlAttributeLoop_spec (mode : AttributeMode) (bytes : Str)
    (hbytes : ∀ c ∈ bytes.dropLast, P c) (hmode : mode.Reads P bytes) :
    (∀ node ∈ (xmlAttributeLoop mode bytes).1, IsAttributeOf P node) ∧
      (xmlAttributeLoop mode bytes).2 <:+ bytes := by
  have node : ∀ shape name content, (∀ c ∈ name, isAttributeName c = true) →
      (∀ c ∈ content, P c) →
      ∀ a ∈ some (attributeNode shape name content), IsAttributeOf P a := by
    rintro shape name content hname hcontent a ⟨⟩
    exact ⟨shape, name, some content, rfl, hname, hcontent⟩
  have bare : ∀ shape name, (∀ c ∈ name, isAttributeName c = true) →
      ∀ a ∈ some (bareAttribute shape name), IsAttributeOf P a := by
    rintro shape name hname a ⟨⟩
    exact ⟨shape, name, none, rfl, hname, by simp⟩
  have hnil : ∀ c ∈ ([] : Str), P c := fun c hc => absurd hc List.not_mem_nil
  induction bytes generalizing mode with
  | nil =>
      cases mode with
      | nameBegin => exact ⟨fun _ h => absurd h (by simp [xmlAttributeLoop, AttributeMode.node]),
          List.suffix_rfl⟩
      | nameEnd name => exact ⟨fun _ h => absurd h (by simp [xmlAttributeLoop, AttributeMode.node]),
          List.suffix_rfl⟩
      | equals name => exact ⟨bare _ _ hmode, List.suffix_rfl⟩
      | contentBegin name => exact ⟨bare _ _ hmode, List.suffix_rfl⟩
      | contentEnd name quote content => exact ⟨node _ _ _ hmode.1 hnil, List.suffix_rfl⟩
      | done name content => exact ⟨node _ _ _ hmode.1 hmode.2, List.suffix_rfl⟩
  | cons c rest ih =>
      have hrest : ∀ d ∈ rest.dropLast, P d := fun d hd => hbytes d (by
        rcases rest with _ | ⟨e, rest⟩
        · exact absurd hd List.not_mem_nil
        · exact List.mem_cons_of_mem _ hd)
      have hc : rest ≠ [] → P c := fun hne => hbytes c (by
        rw [List.dropLast_cons_of_ne_nil hne]
        exact List.mem_cons_self)
      have next : ∀ mode' : AttributeMode, mode'.Reads P rest →
          (∀ node ∈ (xmlAttributeLoop mode' rest).1, IsAttributeOf P node) ∧
            (xmlAttributeLoop mode' rest).2 <:+ c :: rest := fun mode' hmode' =>
        ⟨(ih mode' hrest hmode').1, (ih mode' hrest hmode').2.trans (List.suffix_cons c rest)⟩
      have snoc : ∀ {Q : UInt8 → Prop} {l : Str}, (∀ d ∈ l, Q d) → Q c → ∀ d ∈ l ++ [c], Q d :=
        fun hl hQ d hd => by
          rcases List.mem_append.mp hd with hd | hd
          · exact hl d hd
          · exact List.mem_singleton.mp hd ▸ hQ
      cases mode with
      | nameBegin =>
          rw [xmlAttributeLoop]
          split
          · rename_i halpha
            refine next _ fun d hd => ?_
            rw [List.mem_singleton.mp hd]
            exact isAttributeName_of_isalpha halpha
          · exact next _ trivial
      | nameEnd name =>
          rw [xmlAttributeLoop]
          split
          · rename_i hname
            exact next _ (snoc hmode hname)
          · split
            · exact next _ hmode
            · exact next _ hmode
      | equals name =>
          rw [xmlAttributeLoop]
          split
          · exact next _ hmode
          · split
            · exact ⟨bare _ _ hmode, List.suffix_rfl⟩
            · exact next _ hmode
      | contentBegin name =>
          rw [xmlAttributeLoop]
          split
          · exact next _ hmode
          · split
            · exact next _ ⟨hmode, fun _ => hnil⟩
            · refine next _ ⟨hmode, fun hne d hd => ?_⟩
              rw [List.mem_singleton.mp hd]
              exact hc hne
      | contentEnd name quote content =>
          obtain ⟨hname, hcontent⟩ := hmode
          have hcontent := hcontent (by simp)
          cases quote with
          | some quote =>
              rw [xmlAttributeLoop]
              split
              · exact next _ ⟨hname, hcontent⟩
              · rename_i hgo
                exact next _ ⟨hname, fun hne => snoc hcontent (hc hne)⟩
          | none =>
              rw [xmlAttributeLoop]
              split
              · exact ⟨node _ _ _ hname hcontent, List.suffix_rfl⟩
              · exact next _ ⟨hname, fun hne => snoc hcontent (hc hne)⟩
      | done name content =>
          rw [xmlAttributeLoop]
          exact ⟨node _ _ _ hmode.1 hmode.2, List.suffix_rfl⟩

lemma mem_dropLast_of_suffix {l l' : Str} (h : l <:+ l') {c : UInt8} (hc : c ∈ l.dropLast) :
    c ∈ l'.dropLast := by
  obtain ⟨t, rfl⟩ := h
  have hne : l ≠ [] := by
    rintro rfl
    exact absurd hc List.not_mem_nil
  rw [List.dropLast_append_of_ne_nil hne]
  exact List.mem_append_right t hc

/-- It goes on. -/
lemma xmlAttributeNext_length (c : UInt8) (bytes : Str) :
    (xmlAttributeNext (c :: bytes)).2.length ≤ bytes.length := by
  have hany : ∀ mode : AttributeMode, mode.Reads (fun _ => True) bytes →
      (xmlAttributeLoop mode bytes).2.length ≤ bytes.length := fun mode hmode =>
    (xmlAttributeLoop_spec mode bytes (fun _ _ => trivial) hmode).2.length_le
  rw [xmlAttributeNext, xmlAttributeLoop]
  split
  · rename_i halpha
    refine hany _ fun d hd => ?_
    rw [List.mem_singleton.mp hd]
    exact isAttributeName_of_isalpha halpha
  · exact hany _ trivial

/-- **`xml_node_compile` comes to its end**, and finds attributes behind those it has. -/
lemma xmlNodeLoop_returns (fuel : ℕ) (bytes : Str) (attributes : List XmlElement)
    (hfuel : bytes.length ≤ fuel + 1) :
    ∃ found, xmlNodeLoop fuel bytes attributes = .ok (found ++ attributes) ∧
      ((∀ c ∈ bytes.dropLast, P c) → ∀ node ∈ found, IsAttributeOf P node) := by
  induction fuel generalizing bytes attributes with
  | zero =>
      refine ⟨[], ?_, by simp⟩
      rw [xmlNodeLoop, if_neg (by omega)]
      rfl
  | succ fuel ih =>
      rw [xmlNodeLoop]
      split
      · rename_i hlong
        rcases bytes with _ | ⟨c, bytes⟩
        · simp at hlong
        · have hlen := xmlAttributeNext_length c bytes
          rw [List.length_cons] at hfuel
          obtain ⟨found, hloop, hfound⟩ := ih (xmlAttributeNext (c :: bytes)).2
            ((xmlAttributeNext (c :: bytes)).1.toList ++ attributes) (by omega)
          refine ⟨found ++ (xmlAttributeNext (c :: bytes)).1.toList, ?_,
            fun hbytes node hnode => ?_⟩
          · rw [List.append_assoc]
            exact hloop
          · obtain ⟨hone, hsuffix⟩ := xmlAttributeLoop_spec .nameBegin (c :: bytes) hbytes trivial
            rcases List.mem_append.mp hnode with hnode | hnode
            · refine hfound (fun d hd => hbytes d ?_) node hnode
              exact mem_dropLast_of_suffix hsuffix hd
            · exact hone node (Option.mem_toList.mp hnode)
      · exact ⟨[], rfl, by simp⟩

/-- The attributes of an element are those of its content. -/
lemma xmlNodeCompile_spec (content : Str) (last : UInt8) :
    ∃ found, xmlNodeCompile content last = .ok found ∧
      ∀ node ∈ found, IsAttributeOf (· ∈ content) node := by
  obtain ⟨found, hloop, hfound⟩ := xmlNodeLoop_returns (P := (· ∈ content)) content.length
    (content ++ [last]) [] (by simp)
  rw [List.append_nil] at hloop
  exact ⟨found, hloop, hfound (by simp)⟩

end Reading

end SipEcho
