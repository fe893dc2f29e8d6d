import SipEcho.Xml.Plain
import SipEcho.Xml.Read

/-!
The trees that `print_xml` builds, and those among them that survive as a text.

* `XmlElement.Printed`: the elements that `print_xml` builds;
* `XmlElement.Clean`: no `<` in a text, no `<`, `>` or `"` in an attribute, no digit in the name of
  one, and no element that the index of tags does not cover;
* `toXml_printed`: **the document of a message is printed**, when its strings are not blank and its
  names are names of XML;
* `SipPidf.members_printable`: presence is such a message.
-/

namespace SipEcho

/-! ### The trees that are printed -/

/-- A name: letters, digits, `-`, `:` and `_`, the first a letter. -/
def XmlName (name : Str) : Prop :=
  ∃ c cs, name = c :: cs ∧ isalpha c = true ∧
    ∀ d ∈ cs, isalnum d = true ∨ d = 45 ∨ d = 58 ∨ d = 95

instance : DecidablePred XmlName := fun name =>
  match name with
  | [] => .isFalse (by simp [XmlName])
  | c :: cs => decidable_of_iff
      (isalpha c = true ∧ cs.all (fun d => isalnum d || d = 45 || d = 58 || d = 95) = true)
      (by simp [XmlName, or_assoc])

/-- A content that is not blank. -/
def NonBlank (content : Str) : Prop := ∃ c ∈ content, isspace c = false

/-- An attribute that is printed. -/
def PrintedAttribute (a : XmlElement) : Prop :=
  ∃ name value, a = attributeNode .shapeOpen name value ∧ XmlName name ∧ NonBlank value

/-- The attributes that are printed: those of an element have different names. -/
structure PrintedAttributes (attributes : List XmlElement) : Prop where
  printed : ∀ a ∈ attributes, PrintedAttribute a
  apart : (attributes.map fun a => a.pair.1).Nodup

/-- **The elements that `print_xml` builds**: a string stands alone in its element, the value of an
enumeration is a single element, and a message has elements in it. -/
inductive XmlElement.Printed : XmlElement → Prop
  | string {name value : Str} {attributes : List XmlElement} (hname : XmlName name)
      (hattributes : PrintedAttributes attributes) (hvalue : NonBlank value) :
      Printed (.node .elementNode .shapeOpen name none attributes
        [.node .textNode .shapeSingle [] (some value) [] []])
  | value {name : Str} (hname : XmlName name) :
      Printed (.node .elementNode .shapeSingle name none [] [])
  | message {name : Str} {attributes children : List XmlElement} (hname : XmlName name)
      (hattributes : PrintedAttributes attributes) (hchildren : ∀ e ∈ children, Printed e) :
      Printed (.node .elementNode .shapeOpen name none attributes children)

mutual

/-- How deep the elements stand in one another. -/
def XmlElement.depth : XmlElement → ℕ
  | .node type _ _ _ _ children => if type = .textNode then 0 else xmlDepth children + 1

def xmlDepth : List XmlElement → ℕ
  | [] => 0
  | e :: es => max e.depth (xmlDepth es)

end

/-- The index of tags covers the name: its first letter is no `b`, or nothing is read behind it. -/
def Covered (beyond : ℤ) (name : Str) : Prop := 2 < beyond → name.head?.map tolower ≠ some 98

instance (beyond : ℤ) (name : Str) : Decidable (Covered beyond name) :=
  inferInstanceAs (Decidable (_ → _))

/-- An attribute whose name has no digits, and whose value no markup and no quotes. -/
def CleanAttribute (a : XmlElement) : Prop :=
  (∀ c ∈ a.pair.1, isAttributeName c = true) ∧ ∀ c ∈ a.pair.2, Unmarked c ∧ c ≠ 34

instance : DecidablePred CleanAttribute := fun a => decidable_of_iff
  (a.pair.1.all isAttributeName = true ∧
    a.pair.2.all (fun c => decide (Unmarked c ∧ c ≠ 34)) = true)
  (by simp [CleanAttribute])

/-- **A tree whose contents can be written as they are.** -/
inductive XmlElement.Clean (beyond : ℤ) : XmlElement → Prop
  | text {shape : XmlShape} {name : Str} {content : Option Str}
      {attributes children : List XmlElement} (h : 60 ∉ content.getD []) :
      Clean beyond (.node .textNode shape name content attributes children)
  | element {shape : XmlShape} {name : Str} {content : Option Str}
      {attributes children : List XmlElement} (hname : Covered beyond name)
      (hattributes : ∀ a ∈ attributes, CleanAttribute a)
      (hchildren : ∀ e ∈ children, Clean beyond e) :
      Clean beyond (.node .elementNode shape name content attributes children)

/-! ### The document of a message -/

lemma XmlName.nonBlank {name : Str} (h : XmlName name) : NonBlank name := by
  obtain ⟨c, cs, rfl, hc, -⟩ := h
  refine ⟨c, List.mem_cons_self, ?_⟩
  simp only [isspace, isalpha, decide_eq_true_eq, decide_eq_false_iff_not, UInt8.le_iff_toNat_le,
    ← UInt8.toNat_inj] at hc ⊢
  simp at hc ⊢
  omega

lemma xmlTextDup_nonBlank {value : Str} (h : NonBlank value) : xmlTextDup value = some value := by
  obtain ⟨c, hc, -⟩ := h
  rw [xmlTextDup, if_neg (List.ne_nil_of_mem hc)]

namespace PbMember

/-- The name of the node of a field. -/
def nodeName (name : Str) : Str :=
  normalFieldName (if IsAttribute name then name.drop 2 else name)

lemma node_name_eq (m : PbMember) : m.node.name = nodeName m.name := node_name

/-- **A field that `print_xml` can make something of**: its name is one of XML, its string is not
blank, and a message has no attribute twice. -/
inductive Printable : PbMember → Prop
  | string {name value : Str} (hname : XmlName (nodeName name))
      (hvalue : NonBlank value) : Printable (string name value)
  | enum {name value : Str} (hname : XmlName (nodeName name))
      (hvalue : XmlName value) : Printable (enum name value)
  | message {name : Str} {members : List PbMember} (hattr : ¬ IsAttribute name)
      (hname : XmlName (nodeName name))
      (hmembers : ∀ m ∈ members, Printable m)
      (hapart : ((members.filter fun m => IsAttribute m.name).map fun m => nodeName m.name).Nodup) :
      Printable (message name members)

/-- The node of such a field is an attribute or an element of this kind. -/
lemma Printable.node {m : PbMember} (h : m.Printable) :
    if IsAttribute m.name then PrintedAttribute m.node else m.node.Printed := by
  induction h with
  | @string name value hname hvalue =>
      by_cases hattr : IsAttribute name
      · simp only [PbMember.name, PbMember.node, hattr, if_true, xmlTextDup_nonBlank hvalue,
          nodeName] at hname ⊢
        exact ⟨_, value, rfl, hname, hvalue⟩
      · simp only [PbMember.name, PbMember.node, hattr, if_false, xmlTextDup_nonBlank hvalue,
          nodeName] at hname ⊢
        exact .string hname ⟨by simp, by simp⟩ hvalue
  | @enum name value hname hvalue =>
      by_cases hattr : IsAttribute name
      · simp only [PbMember.name, PbMember.node, hattr, if_true,
          xmlTextDup_nonBlank hvalue.nonBlank, nodeName] at hname ⊢
        exact ⟨_, value, rfl, hname, hvalue.nonBlank⟩
      · simp only [PbMember.name, PbMember.node, hattr, if_false, nodeName] at hname ⊢
        exact .message hname ⟨by simp, by simp⟩ (by simpa using .value hvalue)
  | @message name members hattr hname hmembers hapart ih =>
      simp only [PbMember.name, PbMember.node, hattr, if_false, nodeName] at hname ⊢
      rw [messagePrint_eq, List.append_nil, List.nil_append]
      refine .message hname ⟨fun a ha => ?_, ?_⟩ fun e he => ?_
      · obtain ⟨m, hm, rfl⟩ := List.mem_map.mp (List.mem_reverse.mp ha)
        obtain ⟨hmem, hattribute⟩ := List.mem_filter.mp hm
        simpa [of_decide_eq_true hattribute] using ih m hmem
      · have hname : ∀ m ∈ members.filter fun m => IsAttribute m.name,
            m.node.pair.1 = nodeName m.name := fun m _ => by
          rw [← node_name_eq]
          cases m.node
          rfl
        rw [List.map_reverse, List.nodup_reverse, List.map_map]
        rw [← List.map_congr_left hname] at hapart
        exact hapart
      · obtain ⟨m, hm, rfl⟩ := List.mem_map.mp he
        obtain ⟨hmem, hattribute⟩ := List.mem_filter.mp hm
        simpa [of_decide_eq_true hattribute] using ih m hmem

end PbMember

/-- **The document of a message is printed.** -/
theorem toXml_printed {members : List PbMember} (h : ∀ m ∈ members, m.Printable) :
    ∀ e ∈ protobufCMessageToXml members, e = xmlDeclaration ∨ e.Printed := by
  intro e he
  rw [protobufCMessageToXml, PbMember.messagePrint_eq] at he
  rcases List.mem_append.mp he with he | he
  · exact Or.inl (List.mem_singleton.mp he)
  · obtain ⟨m, hm, rfl⟩ := List.mem_map.mp he
    obtain ⟨hmem, hattr⟩ := List.mem_filter.mp hm
    have hnode := (h m hmem).node
    rw [if_neg (of_decide_eq_true hattr)] at hnode
    exact Or.inr hnode

/-! ### Presence -/

/-- No string of the tuple is blank. -/
structure SipTuple.Printable (t : SipTuple) : Prop where
  id : NonBlank t.id
  basic : ∀ s ∈ t.basic, NonBlank s
  contact : ∀ s ∈ t.contact, NonBlank s
  note : ∀ s ∈ t.note, NonBlank s
  timestamp : ∀ s ∈ t.timestamp, NonBlank s

/-- No string of the presence is blank. -/
structure SipPidf.Printable (p : SipPidf) : Prop where
  xmlns : NonBlank p.xmlns
  entity : NonBlank p.entity
  tuple : ∀ t ∈ p.tuple, t.Printable

namespace PbMember

lemma Printable.optionalString (name : String) {value : Option Str}
    (hname : XmlName (nodeName (str name))) (hvalue : ∀ s ∈ value, NonBlank s) :
    ∀ m ∈ SipEcho.optionalString name value, m.Printable := by
  intro m hm
  obtain ⟨s, hs, rfl⟩ := List.mem_map.mp hm
  exact .string hname (hvalue s (Option.mem_toList.mp hs))

lemma Printable.repeatedString (name : String) {values : List Str}
    (hname : XmlName (nodeName (str name))) (hvalues : ∀ s ∈ values, NonBlank s) :
    ∀ m ∈ SipEcho.repeatedString name values, m.Printable := by
  intro m hm
  obtain ⟨s, hs, rfl⟩ := List.mem_map.mp hm
  exact .string hname (hvalues s hs)

end PbMember

/-- There are no attributes among fields of a name that is none's. -/
lemma filter_attributes_eq_nil {α : Type} (name : Str) {l : List α} {f : α → PbMember}
    (hname : ∀ a, (f a).name = name) (hattr : ¬ IsAttribute name) :
    (l.map f).filter (fun m => IsAttribute m.name) = [] := by
  rw [List.filter_eq_nil_iff]
  intro m hm
  obtain ⟨a, ha, rfl⟩ := List.mem_map.mp hm
  rw [hname]
  simpa using hattr

/-- A tuple whose strings are not blank is printed. -/
lemma SipTuple.members_printable {t : SipTuple} (h : t.Printable) :
    (PbMember.message (str "tuple") t.members).Printable := by
  refine .message (by decide) (by decide) (fun m hm => ?_) ?_
  · simp only [SipTuple.members, List.mem_append, List.mem_cons, List.not_mem_nil, or_false] at hm
    rcases hm with (((rfl | rfl) | hm) | hm) | hm
    · exact .string (by decide) h.id
    · refine .message (by decide) (by decide)
        (PbMember.Printable.optionalString "basic" (by decide) h.basic) ?_
      rw [optionalString, filter_attributes_eq_nil (str "basic") (fun _ => rfl) (by decide)]
      exact List.nodup_nil
    · exact PbMember.Printable.optionalString "contact" (by decide) h.contact m hm
    · exact PbMember.Printable.repeatedString "note" (by decide) h.note m hm
    · exact PbMember.Printable.optionalString "timestamp" (by decide) h.timestamp m hm
  · rw [SipTuple.members, optionalString, optionalString, optionalString, repeatedString,
      List.filter_append, List.filter_append, List.filter_append,
      filter_attributes_eq_nil (str "contact") (fun _ => rfl) (by decide),
      filter_attributes_eq_nil (str "note") (fun _ => rfl) (by decide),
      filter_attributes_eq_nil (str "timestamp") (fun _ => rfl) (by decide)]
    exact List.nodup_singleton _

/-- **Presence is printed** when none of its strings is blank. -/
theorem SipPidf.members_printable {p : SipPidf} (h : p.Printable) :
    ∀ m ∈ p.members, m.Printable := by
  intro m hm
  rw [List.mem_singleton.mp hm]
  refine .message (by decide) (by decide) (fun m hm => ?_) ?_
  · simp only [List.mem_append, List.mem_cons, List.not_mem_nil, or_false] at hm
    rcases hm with (rfl | rfl) | hm
    · exact .string (by decide) h.xmlns
    · exact .string (by decide) h.entity
    · obtain ⟨t, ht, rfl⟩ := List.mem_map.mp hm
      exact SipTuple.members_printable (h.tuple t ht)
  · rw [List.filter_append,
      filter_attributes_eq_nil (str "tuple") (fun _ => rfl) (by decide)]
    exact (by decide : [str "xmlns", str "entity"].Nodup)

end SipEcho
