import SipEcho.Xml.Print

/-!
`protobuf_c_message_from_xml`: a message of the bus read from an element tree, by the descriptors
of the three payloads that travel as XML.

* `XmlMessage.fields`: the descriptors;
* `elementSet`, `siblingSet`, `repeatedSet`, `messageXml`: the reader;
* `Fits`, `Segments`: a message as its descriptor has it, with no empty string;
* `PbMember.read`: what `print_xml` makes of a field is read back;
* `messageXml_print`: what `message_print` makes of a message is read back, its fields in order.
-/

namespace SipEcho

/-! ### Descriptors -/

/-- The messages of the payloads. -/
inductive XmlMessage where
  | vfu | mediaControl | vcPrimitive
  | pidf | presence | tuple | status
  | rl | resource | list | entry
  deriving DecidableEq, Repr

/-- `ProtobufCType`, as far as the payloads use it; an enumeration has the names of its values. -/
inductive FieldType where
  | string
  | enum (values : List Str)
  | message (type : XmlMessage)
  deriving DecidableEq, Repr

/-- `ProtobufCLabel`. -/
inductive FieldLabel where
  | required | optional | repeated
  deriving DecidableEq, Repr

/-- `ProtobufCFieldDescriptor`; the default is a string or the name of a value. -/
structure Field where
  name : Str
  label : FieldLabel
  type : FieldType
  default : Option Str := none
  deriving DecidableEq, Repr

/-- `ProtobufCMessageDescriptor`: the fields, in the order of their numbers. -/
def XmlMessage.fields : XmlMessage → List Field
  | .vfu => [⟨str "media_control", .required, .message .mediaControl, none⟩]
  | .mediaControl => [⟨str "vc_primitive", .repeated, .message .vcPrimitive, none⟩]
  | .vcPrimitive =>
      [⟨str "to_encoder", .required, .enum [str "picture_fast_update", str "picture_freeze"],
          some (str "picture_fast_update")⟩,
        ⟨str "stream_id", .repeated, .string, none⟩]
  | .pidf => [⟨str "presence", .required, .message .presence, none⟩]
  | .presence =>
      [⟨str "__xmlns", .required, .string, some (str "urn:ietf:params:xml:ns:pidf")⟩,
        ⟨str "__entity", .required, .string, none⟩,
        ⟨str "tuple", .repeated, .message .tuple, none⟩]
  | .tuple =>
      [⟨str "__id", .required, .string, some (str "1")⟩,
        ⟨str "status", .required, .message .status, none⟩,
        ⟨str "contact", .optional, .string, none⟩,
        ⟨str "note", .repeated, .string, none⟩,
        ⟨str "timestamp", .optional, .string, none⟩]
  | .status => [⟨str "basic", .optional, .string, none⟩]
  | .rl => [⟨str "resource__lists", .required, .message .resource, none⟩]
  | .resource =>
      [⟨str "__xmlns", .required, .string, some (str "urn:ietf:params:xml:ns:resource-lists")⟩,
        ⟨str "__xmlns___xsi", .required, .string,
          some (str "http://www.w3.org/2001/XMLSchema-instance")⟩,
        ⟨str "list", .repeated, .message .list, none⟩]
  | .list =>
      [⟨str "__name", .optional, .string, none⟩,
        ⟨str "display__name", .optional, .string, none⟩,
        ⟨str "entry", .repeated, .message .entry, none⟩,
        ⟨str "list", .repeated, .message .list, none⟩]
  | .entry =>
      [⟨str "__uri", .required, .string, none⟩,
        ⟨str "display__name", .optional, .string, none⟩]

/-! ### The reader -/

/-- The name of a node. -/
def XmlElement.name : XmlElement → Str
  | .node _ _ name _ _ _ => name

/-- The content of a node. -/
def XmlElement.content : XmlElement → Option Str
  | .node _ _ _ content _ _ => content

/-- `xml_text_cmp3`. -/
def xmlTextCmp3 (text sample : Str) : ℕ :=
  if strncasecmp text sample text.length ≠ 0 then text.length
  else (sample.getD text.length 0).toNat

/-- A field whose name begins with two underscores is an attribute. -/
def IsAttribute (name : Str) : Prop := str "__" <+: name

instance (name : Str) : Decidable (IsAttribute name) :=
  inferInstanceAs (Decidable (str "__" <+: name))

/-- The name by which `optional_field_init` looks for a field. -/
def Field.xmlName (f : Field) : Str :=
  normalFieldName (if IsAttribute f.name then f.name.drop 2 else f.name)

/-- The node has the name of the field. -/
def Field.named (f : Field) (node : XmlElement) : Bool := xmlTextCmp3 node.name f.xmlName = 0

/-- `string_field_set`: a `NULL` or empty content is no string. -/
def stringFieldSet (f : Field) (node : Option XmlElement) : Option PbMember :=
  match node.bind XmlElement.content with
  | none => none
  | some [] => none
  | some value => some (.string f.name value)

/-- `enum_field_set`: the values are tried from the last on. -/
def enumFieldSet (f : Field) (values : List Str) (node : Option XmlElement) : Option PbMember :=
  match node with
  | none => none
  | some node =>
      (values.reverse.find? fun v => xmlTextCmp3 node.name (normalFieldName v) = 0).map
        (.enum f.name)

/-- `optional_field_init` for an attribute; no message is one. -/
def attributeSet (f : Field) (attributes : List XmlElement) : Option PbMember :=
  match f.type with
  | .string => stringFieldSet f (attributes.find? f.named)
  | .enum values => enumFieldSet f values (attributes.find? f.named)
  | .message _ => none

/-- The default `protobuf_c_message_setup` leaves in a field. -/
def Field.defaultMember (f : Field) : Option PbMember :=
  match f.type with
  | .string => f.default.map (.string f.name)
  | .enum _ => f.default.map (.enum f.name)
  | .message _ => none

/-- A field that is not repeated: what was found, or the default. -/
def Field.orDefault (f : Field) (found : Option PbMember) : List PbMember :=
  (found.orElse fun _ => f.defaultMember).toList

mutual

/-- What the element of a field sets: a string its text, an enumeration the name of its child, a
message the fields inside. -/
def elementSet (f : Field) : XmlElement → Option PbMember
  | .node _ _ _ _ attributes children =>
      match f.type with
      | .string => stringFieldSet f children.head?
      | .enum values => enumFieldSet f values children.head?
      | .message type =>
          some (.message f.name (type.fields.flatMap fun g =>
            match g.label with
            | .repeated =>
                if IsAttribute g.name then children.filterMap fun _ => attributeSet g attributes
                else repeatedSet g children
            | _ =>
                g.orDefault (if IsAttribute g.name then attributeSet g attributes
                  else siblingSet g children)))

/-- `optional_field_init` for an element: the first sibling with the name. -/
def siblingSet (f : Field) : List XmlElement → Option PbMember
  | [] => none
  | node :: next => if f.named node then elementSet f node else siblingSet f next

/-- `repeated_field_init`: it goes on behind the sibling that `optional_field_init` found, so the
two walks are one. -/
def repeatedSet (f : Field) : List XmlElement → List PbMember
  | [] => []
  | node :: next =>
      if f.named node then (elementSet f node).toList ++ repeatedSet f next
      else repeatedSet f next

end

/-- `message_xml`: the fields that are set, by the descriptor. -/
def messageXml (type : XmlMessage) (attributes children : List XmlElement) : List PbMember :=
  type.fields.flatMap fun g =>
    match g.label with
    | .repeated =>
        if IsAttribute g.name then children.filterMap fun _ => attributeSet g attributes
        else repeatedSet g children
    | _ =>
        g.orDefault (if IsAttribute g.name then attributeSet g attributes
          else siblingSet g children)

/-- `protobuf_c_message_from_xml`. -/
def protobufCMessageFromXml (type : XmlMessage) (document : List XmlElement) : List PbMember :=
  messageXml type [] document

lemma elementSet_message {f : Field} {type : XmlMessage} (h : f.type = .message type)
    (t : XmlType) (s : XmlShape) (name : Str) (content : Option Str)
    (attributes children : List XmlElement) :
    elementSet f (.node t s name content attributes children) =
      some (.message f.name (messageXml type attributes children)) := by
  rw [elementSet, h]
  rfl

/-! ### What is printed -/

namespace PbMember

/-- The induction principle of messages: the fields of a message first. -/
@[elab_as_elim]
theorem ind {P : PbMember → Prop} (string : ∀ name value, P (.string name value))
    (enum : ∀ name value, P (.enum name value))
    (message : ∀ name members, (∀ m ∈ members, P m) → P (.message name members))
    (m : PbMember) : P m :=
  @PbMember.rec P (fun ms => ∀ m ∈ ms, P m)
    string enum message
    (fun _ h => absurd h List.not_mem_nil)
    (fun _ _ hhead htail m hm => by
      rcases List.mem_cons.mp hm with rfl | hm
      · exact hhead
      · exact htail m hm)
    m

/-- The name of the field. -/
def name : PbMember → Str
  | .string name _ => name
  | .enum name _ => name
  | .message name _ => name

/-- The node `print_xml` adds for a field. -/
def node : PbMember → XmlElement
  | .string name value =>
      if IsAttribute name then
        .node .attributeNode .shapeOpen (normalFieldName (name.drop 2)) (xmlTextDup value) [] []
      else
        .node .elementNode .shapeOpen (normalFieldName name) none []
          [.node .textNode .shapeSingle [] (xmlTextDup value) [] []]
  | .enum name value =>
      if IsAttribute name then
        .node .attributeNode .shapeOpen (normalFieldName (name.drop 2)) (xmlTextDup value) [] []
      else
        .node .elementNode .shapeOpen (normalFieldName name) none []
          [.node .elementNode .shapeSingle value none [] []]
  | .message name members =>
      if IsAttribute name then
        .node .attributeNode .shapeOpen (normalFieldName (name.drop 2)) none [] []
      else
        .node .elementNode .shapeOpen (normalFieldName name) none
          (messagePrint ([], []) members).1 (messagePrint ([], []) members).2

/-- A field becomes the first attribute or the last child. -/
lemma printXml_eq (root : Inside) (m : PbMember) :
    printXml root m =
      if IsAttribute m.name then (m.node :: root.1, root.2) else (root.1, root.2 ++ [m.node]) := by
  cases m with
  | string name value =>
      rw [printXml, addField]
      by_cases h : str "__" <+: name <;> simp [PbMember.name, node, IsAttribute, h]
  | enum name value =>
      rw [printXml, addField]
      by_cases h : str "__" <+: name <;> simp [PbMember.name, node, IsAttribute, h]
  | message name members =>
      rw [printXml, addField]
      by_cases h : str "__" <+: name <;>
        simp [PbMember.name, node, IsAttribute, h, xmlTextDup]

/-- The attributes of what is printed stand in reverse, the children in order. -/
lemma messagePrint_eq (members : List PbMember) (root : Inside) :
    messagePrint root members =
      (((members.filter fun m => IsAttribute m.name).map node).reverse ++ root.1,
        root.2 ++ (members.filter fun m => ¬ IsAttribute m.name).map node) := by
  induction members generalizing root with
  | nil => simp [messagePrint]
  | cons m members ih =>
      rw [messagePrint, ih, printXml_eq]
      by_cases h : IsAttribute m.name <;> simp [h]

end PbMember

/-! ### Messages of a descriptor -/

/-- How many elements a field may have. -/
def FieldLabel.Admits : FieldLabel → ℕ → Prop
  | .required, n => n = 1
  | .optional, n => n ≤ 1
  | .repeated, _ => True

/-- The members stand in the order of the fields, those of a field together and as many of them as
its label admits. -/
inductive Segments (R : Field → PbMember → Prop) : List Field → List PbMember → Prop
  | nil : Segments R [] []
  | cons {f : Field} {fs : List Field} {seg ms : List PbMember} (hseg : ∀ m ∈ seg, R f m)
      (hlabel : f.label.Admits seg.length) (hms : Segments R fs ms) :
      Segments R (f :: fs) (seg ++ ms)

/-- The member is one of the field: a string that is not empty, a value of the enumeration, or a
message whose members are those of its descriptor. -/
inductive Fits : Field → PbMember → Prop
  | string {f : Field} {value : Str} (h : f.type = .string) (hv : value ≠ []) :
      Fits f (.string f.name value)
  | enum {f : Field} {values : List Str} {value : Str} (h : f.type = .enum values)
      (hv : value ∈ values) : Fits f (.enum f.name value)
  | message {f : Field} {type : XmlMessage} {members : List PbMember} (h : f.type = .message type)
      (hm : Segments Fits type.fields members) : Fits f (.message f.name members)

lemma Fits.name_eq {f : Field} {m : PbMember} (h : Fits f m) : m.name = f.name := by
  cases h <;> rfl

namespace Segments

variable {R : Field → PbMember → Prop} {fs : List Field} {ms : List PbMember}

lemma exists_field (h : Segments R fs ms) : ∀ m ∈ ms, ∃ f ∈ fs, R f m := by
  induction h with
  | nil => simp
  | cons hseg _ _ ih =>
      intro m hm
      rcases List.mem_append.mp hm with hm | hm
      · exact ⟨_, List.mem_cons_self, hseg m hm⟩
      · obtain ⟨f, hf, hR⟩ := ih m hm
        exact ⟨f, List.mem_cons_of_mem _ hf, hR⟩

/-- What the fields of the other names hold is not in the segment of a field. -/
lemma filter_eq_nil (h : Segments R fs ms) (hname : ∀ f m, R f m → m.name = f.name) {name : Str}
    (hnot : name ∉ fs.map Field.name) : ms.filter (fun m => m.name = name) = [] := by
  rw [List.filter_eq_nil_iff]
  intro m hm heq
  obtain ⟨f, hf, hR⟩ := h.exists_field m hm
  refine hnot (List.mem_map.mpr ⟨f, hf, ?_⟩)
  rw [← hname f m hR]
  exact of_decide_eq_true heq

/-- **The members are found by name**: when no two fields share one, those with the name of a
field are its own, and the fields in order give the message. -/
lemma by_name (h : Segments R fs ms) (hname : ∀ f m, R f m → m.name = f.name)
    (hnd : (fs.map Field.name).Nodup) :
    (fs.flatMap fun g => ms.filter fun m => m.name = g.name) = ms ∧
      ∀ g ∈ fs, g.label.Admits (ms.filter fun m => m.name = g.name).length ∧
        ∀ m ∈ ms, m.name = g.name → R g m := by
  induction h with
  | nil => simp
  | @cons f fs seg ms hseg hlabel hms ih =>
      rw [List.map_cons, List.nodup_cons] at hnd
      obtain ⟨hflat, hall⟩ := ih hnd.2
      have hown : seg.filter (fun m => m.name = f.name) = seg :=
        List.filter_eq_self.mpr fun m hm => decide_eq_true (hname f m (hseg m hm))
      have hrest : ms.filter (fun m => m.name = f.name) = [] := hms.filter_eq_nil hname hnd.1
      have hother : ∀ g ∈ fs, seg.filter (fun m => m.name = g.name) = [] := by
        intro g hg
        rw [List.filter_eq_nil_iff]
        intro m hm heq
        refine hnd.1 (List.mem_map.mpr ⟨g, hg, ?_⟩)
        rw [← hname f m (hseg m hm)]
        exact (of_decide_eq_true heq).symm
      constructor
      · rw [List.flatMap_cons, List.filter_append, hown, hrest, List.append_nil]
        congr 1
        refine Eq.trans (List.flatMap_congr fun g hg => ?_) hflat
        rw [List.filter_append, hother g hg, List.nil_append]
      · intro g hg
        rcases List.mem_cons.mp hg with rfl | hg
        · refine ⟨by rwa [List.filter_append, hown, hrest, List.append_nil], fun m hm heq => ?_⟩
          rcases List.mem_append.mp hm with hm | hm
          · exact hseg m hm
          · have : m ∈ ms.filter fun m => m.name = g.name :=
              List.mem_filter.mpr ⟨hm, decide_eq_true heq⟩
            rw [hrest] at this
            exact absurd this List.not_mem_nil
        · refine ⟨by rw [List.filter_append, hother g hg, List.nil_append]; exact (hall g hg).1,
            fun m hm heq => ?_⟩
          rcases List.mem_append.mp hm with hm | hm
          · have : m ∈ seg.filter fun m => m.name = g.name :=
              List.mem_filter.mpr ⟨hm, decide_eq_true heq⟩
            rw [hother g hg] at this
            exact absurd this List.not_mem_nil
          · exact (hall g hg).2 m hm heq

end Segments

/-! ### The descriptors -/

/-- The names of an enumeration. -/
def FieldType.values : FieldType → List Str
  | .enum values => values
  | _ => []

namespace XmlMessage

lemma fields_nodup (t : XmlMessage) : (t.fields.map Field.name).Nodup := by
  cases t <;> decide

/-- Among the attributes, and among the elements, of a message the names in XML tell the fields
apart. -/
lemma fields_apart (t : XmlMessage) : ∀ f ∈ t.fields, ∀ g ∈ t.fields,
    (IsAttribute f.name ↔ IsAttribute g.name) →
      (xmlTextCmp3 f.xmlName g.xmlName = 0 ↔ f.name = g.name) := by
  cases t <;> decide

/-- So do the names of the values of an enumeration. -/
lemma values_apart (t : XmlMessage) : ∀ f ∈ t.fields, ∀ v ∈ f.type.values, ∀ w ∈ f.type.values,
    (xmlTextCmp3 v (normalFieldName w) = 0 ↔ w = v) := by
  cases t <;> decide

/-- An attribute is a single string. -/
lemma attribute_string (t : XmlMessage) : ∀ f ∈ t.fields, IsAttribute f.name →
    f.type = .string ∧ f.label ≠ .repeated := by
  cases t <;> decide

/-- What is optional has no default. -/
lemma optional_default (t : XmlMessage) : ∀ f ∈ t.fields, f.label = .optional →
    f.default = none := by
  cases t <;> decide

/-- No field is named like the declaration of a document. -/
lemma not_declaration (t : XmlMessage) : ∀ f ∈ t.fields, f.named xmlDeclaration = false := by
  cases t <;> decide

end XmlMessage

/-! ### A message is read back -/

/-- The name `print_xml` gives an element. -/
lemma PbMember.node_name {m : PbMember} : m.node.name =
    normalFieldName (if IsAttribute m.name then m.name.drop 2 else m.name) := by
  cases m with
  | string name value =>
      by_cases h : IsAttribute name <;> simp [node, PbMember.name, XmlElement.name, h]
  | enum name value =>
      by_cases h : IsAttribute name <;> simp [node, PbMember.name, XmlElement.name, h]
  | message name members =>
      by_cases h : IsAttribute name <;> simp [node, PbMember.name, XmlElement.name, h]

section Siblings

variable {g : Field} {ms : List PbMember}

/-- The first sibling with the name of the field. -/
lemma siblingSet_nodes (hnamed : ∀ m ∈ ms, g.named m.node = decide (m.name = g.name))
    (hread : ∀ m ∈ ms, m.name = g.name → elementSet g m.node = some m) :
    siblingSet g (ms.map PbMember.node) = (ms.filter fun m => m.name = g.name).head? := by
  induction ms with
  | nil => rfl
  | cons m ms ih =>
      have ih := ih (fun n hn => hnamed n (List.mem_cons_of_mem _ hn))
        (fun n hn => hread n (List.mem_cons_of_mem _ hn))
      rw [List.map_cons, siblingSet, hnamed m List.mem_cons_self, ih]
      by_cases h : m.name = g.name
      · simp [h, hread m List.mem_cons_self h]
      · simp [h]

/-- Every sibling with the name of the field, in order. -/
lemma repeatedSet_nodes (hnamed : ∀ m ∈ ms, g.named m.node = decide (m.name = g.name))
    (hread : ∀ m ∈ ms, m.name = g.name → elementSet g m.node = some m) :
    repeatedSet g (ms.map PbMember.node) = ms.filter fun m => m.name = g.name := by
  induction ms with
  | nil => rfl
  | cons m ms ih =>
      have ih := ih (fun n hn => hnamed n (List.mem_cons_of_mem _ hn))
        (fun n hn => hread n (List.mem_cons_of_mem _ hn))
      rw [List.map_cons, repeatedSet, hnamed m List.mem_cons_self, ih]
      by_cases h : m.name = g.name
      · simp [h, hread m List.mem_cons_self h]
      · simp [h]

variable (g ms) in
/-- The attribute of a field: there is at most one with its name, wherever it stands. -/
lemma attributeSet_nodes (hattr : IsAttribute g.name) (htype : g.type = .string)
    (hnamed : ∀ m ∈ ms, g.named m.node = decide (m.name = g.name))
    (hfits : ∀ m ∈ ms, m.name = g.name → Fits g m)
    (hone : (ms.filter fun m => m.name = g.name).length ≤ 1) :
    attributeSet g (ms.map PbMember.node).reverse =
      (ms.filter fun m => m.name = g.name).head? := by
  have hfind : (ms.map PbMember.node).reverse.find? g.named =
      ((ms.filter fun m => m.name = g.name).map PbMember.node).reverse.head? := by
    rw [← List.head?_filter, List.filter_reverse, List.filter_map]
    have hsame : ms.filter (g.named ∘ PbMember.node) = ms.filter fun m => m.name = g.name :=
      List.filter_congr hnamed
    rw [hsame]
  have hall : ∀ m ∈ ms.filter fun m => m.name = g.name, Fits g m := by
    intro m hm
    obtain ⟨hm, heq⟩ := List.mem_filter.mp hm
    exact hfits m hm (of_decide_eq_true heq)
  rw [attributeSet, htype, hfind]
  generalize ms.filter (fun m => m.name = g.name) = seg at hone hall
  match seg with
  | [] => rfl
  | [m] =>
      cases hall m List.mem_cons_self with
      | @string _ value h hv =>
          obtain ⟨c, value, rfl⟩ := List.exists_cons_of_ne_nil hv
          simp [PbMember.node, hattr, stringFieldSet, XmlElement.content, xmlTextDup]
      | enum h => simp [htype] at h
      | message h => simp [htype] at h

end Siblings

/-- A field that is not repeated gives its segment, when what it finds is the segment's head. -/
lemma Field.orDefault_head {f : Field} {seg : List PbMember} (hlabel : f.label.Admits seg.length)
    (hrep : f.label ≠ .repeated) (hopt : f.label = .optional → f.default = none) :
    f.orDefault seg.head? = seg := by
  cases hl : f.label with
  | required =>
      rw [hl] at hlabel
      obtain ⟨m, rfl⟩ := List.length_eq_one_iff.mp hlabel
      rfl
  | optional =>
      rw [hl] at hlabel
      match seg with
      | [] =>
          have hd : f.defaultMember = none := by
            rw [defaultMember, hopt hl]
            cases f.type <;> rfl
          simp [orDefault, hd]
      | [m] => rfl
  | repeated => exact absurd hl hrep

/-- **A message is read back**: its fields in order, when those that are elements are. -/
lemma messageXml_print {t : XmlMessage} {ms : List PbMember} (h : Segments Fits t.fields ms)
    (hread : ∀ m ∈ ms, ∀ g ∈ t.fields, Fits g m → ¬ IsAttribute g.name →
      elementSet g m.node = some m) :
    messageXml t (messagePrint ([], []) ms).1 (messagePrint ([], []) ms).2 = ms := by
  obtain ⟨hflat, hall⟩ := h.by_name (fun _ _ => Fits.name_eq) t.fields_nodup
  rw [PbMember.messagePrint_eq, List.append_nil, List.nil_append, messageXml]
  refine Eq.trans (List.flatMap_congr fun g hg => ?_) hflat
  obtain ⟨hlabel, hfits⟩ := hall g hg
  -- among the nodes of its kind the name of the field tells its own
  have hnamed : ∀ m ∈ ms, (IsAttribute m.name ↔ IsAttribute g.name) →
      g.named m.node = decide (m.name = g.name) := by
    intro m hm hkind
    obtain ⟨f, hf, hfit⟩ := h.exists_field m hm
    rw [hfit.name_eq] at hkind ⊢
    rw [Field.named, PbMember.node_name, hfit.name_eq, decide_eq_decide]
    exact t.fields_apart f hf g hg hkind
  by_cases hattr : IsAttribute g.name
  · obtain ⟨htype, hrep⟩ := t.attribute_string g hg hattr
    have hsame : (ms.filter fun m => IsAttribute m.name).filter (fun m => m.name = g.name) =
        ms.filter fun m => m.name = g.name := by
      rw [List.filter_filter]
      refine List.filter_congr fun m _ => ?_
      by_cases heq : m.name = g.name <;> simp [heq, hattr]
    have hone : (ms.filter fun m => m.name = g.name).length ≤ 1 := by
      cases hl : g.label with
      | required => rw [hl] at hlabel; exact hlabel.le
      | optional => rw [hl] at hlabel; exact hlabel
      | repeated => exact absurd hl hrep
    have hset := attributeSet_nodes g (ms.filter fun m => IsAttribute m.name) hattr htype
      (fun m hm => hnamed m (List.mem_of_mem_filter hm)
        (iff_of_true (of_decide_eq_true (List.mem_filter.mp hm).2) hattr))
      (fun m hm => hfits m (List.mem_of_mem_filter hm)) (by rwa [hsame])
    rw [hsame] at hset
    have hhead := g.orDefault_head hlabel hrep (t.optional_default g hg)
    cases hl : g.label with
    | required => simpa only [if_pos hattr, hset] using hhead
    | optional => simpa only [if_pos hattr, hset] using hhead
    | repeated => exact absurd hl hrep
  · have hsame : (ms.filter fun m => ¬ IsAttribute m.name).filter (fun m => m.name = g.name) =
        ms.filter fun m => m.name = g.name := by
      rw [List.filter_filter]
      refine List.filter_congr fun m _ => ?_
      by_cases heq : m.name = g.name <;> simp [heq, hattr]
    have hnamed' : ∀ m ∈ ms.filter fun m => ¬ IsAttribute m.name,
        g.named m.node = decide (m.name = g.name) := fun m hm =>
      hnamed m (List.mem_of_mem_filter hm)
        (iff_of_false (of_decide_eq_true (List.mem_filter.mp hm).2) hattr)
    have hread' : ∀ m ∈ ms.filter fun m => ¬ IsAttribute m.name, m.name = g.name →
        elementSet g m.node = some m := fun m hm heq =>
      hread m (List.mem_of_mem_filter hm) g hg (hfits m (List.mem_of_mem_filter hm) heq) hattr
    have hone := siblingSet_nodes hnamed' hread'
    have hmany := repeatedSet_nodes hnamed' hread'
    rw [hsame] at hone hmany
    have hhead := fun hrep => g.orDefault_head hlabel hrep (t.optional_default g hg)
    cases hl : g.label with
    | required => simpa only [if_neg hattr, hone] using hhead (by simp [hl])
    | optional => simpa only [if_neg hattr, hone] using hhead (by simp [hl])
    | repeated => simpa only [if_neg hattr] using hmany

/-- **What `print_xml` makes of a field is read back.** -/
lemma PbMember.read (m : PbMember) : ∀ {t : XmlMessage} {f : Field}, f ∈ t.fields → Fits f m →
    ¬ IsAttribute f.name → elementSet f m.node = some m := by
  induction m using PbMember.ind with
  | string name value =>
      intro t f _ h hattr
      cases h with
      | string htype hv =>
          obtain ⟨c, value, rfl⟩ := List.exists_cons_of_ne_nil hv
          simp [node, hattr, elementSet, htype, stringFieldSet, XmlElement.content, xmlTextDup]
  | enum name value =>
      intro t f hf h hattr
      cases h with
      | @enum _ values _ htype hv =>
          have hvalues : f.type.values = values := by rw [htype]; rfl
          have hapart := t.values_apart f hf
          rw [hvalues] at hapart
          rw [node, if_neg hattr, elementSet, htype]
          cases hfind : values.reverse.find?
              (fun v => decide (xmlTextCmp3 value (normalFieldName v) = 0)) with
          | none =>
              rw [List.find?_eq_none] at hfind
              refine absurd ?_ (hfind value (List.mem_reverse.mpr hv))
              exact decide_eq_true ((hapart value hv value hv).mpr rfl)
          | some w =>
              have hw : w ∈ values := List.mem_reverse.mp (List.mem_of_find?_eq_some hfind)
              have htest := List.find?_some hfind
              obtain rfl := (hapart value hv w hw).mp (of_decide_eq_true htest)
              exact congrArg (Option.map (PbMember.enum f.name)) hfind
  | message name members ih =>
      intro t f hf h hattr
      cases h with
      | message htype hm =>
          rw [node, if_neg hattr, elementSet_message htype,
            messageXml_print hm fun m hm g hg hfit hg' => ih m hm hg hfit hg']

/-- **A document is read back**, when the message has no attributes of its own. -/
theorem fromXml_toXml {t : XmlMessage} (hroot : ∀ f ∈ t.fields, ¬ IsAttribute f.name)
    {ms : List PbMember} (h : Segments Fits t.fields ms) :
    protobufCMessageFromXml t (protobufCMessageToXml ms) = ms := by
  have hread := messageXml_print h fun m _ g hg hfit hattr => m.read hg hfit hattr
  rw [PbMember.messagePrint_eq] at hread
  rw [protobufCMessageFromXml, protobufCMessageToXml, PbMember.messagePrint_eq]
  have hnone : ms.filter (fun m => IsAttribute m.name) = [] := by
    rw [List.filter_eq_nil_iff]
    intro m hm heq
    obtain ⟨f, hf, hfit⟩ := h.exists_field m hm
    refine hroot f hf ?_
    rw [← hfit.name_eq]
    exact of_decide_eq_true heq
  rw [hnone] at hread
  refine Eq.trans ?_ hread
  -- the declaration in front has the name of no field
  refine List.flatMap_congr fun g hg => ?_
  have hdecl := t.not_declaration g hg
  simp only [if_neg (hroot g hg), List.singleton_append, List.nil_append, siblingSet, repeatedSet,
    hdecl, Bool.false_eq_true, if_false]

end SipEcho
