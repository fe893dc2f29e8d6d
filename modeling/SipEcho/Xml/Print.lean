import SipEcho.Bridge.Types
import SipEcho.Xml.Seed

/-!
`protobuf_c_message_to_xml`: the element tree of a message of the bus, for the three payloads that
travel as XML.

* `PbMember`: a field of a message with its value, in the order `message_print` visits them;
* `normalFieldName`: the underscores of a field name as XML spells them;
* `printXml`, `messagePrint`, `protobufCMessageToXml`: the tree;
* `SipVfu.members`, `SipPidf.members`, `SipRl.members`: the fields of the payloads;
* `render_toXml_ne_nil`: no document is empty, for it begins with its declaration.
-/

namespace SipEcho

/-- A set field and its value: a string, an enumeration value by its name, or a message.  A
repeated field is one of these for each element. -/
inductive PbMember where
  | string (name value : Str)
  | enum (name value : Str)
  | message (name : Str) (members : List PbMember)

/-! ### Field names -/

/-- What `normal_field_name` writes for a run of underscores that a character follows: a colon
for every three of them, and `_` or `-` for the one or two left over. -/
def mangle : ℕ → Str
  | 0 => []
  | 1 => str "_"
  | 2 => str "-"
  | i + 3 => str ":" ++ mangle i

/-- The loop of `normal_field_name`, with `i` underscores read and not yet written. -/
def normalFieldNameLoop : ℕ → Str → Str
  | _, [] => []
  | i, c :: rest =>
      if c = 95 then normalFieldNameLoop (i + 1) rest
      else mangle i ++ c :: normalFieldNameLoop 0 rest

/-- `normal_field_name`. -/
def normalFieldName (name : Str) : Str := normalFieldNameLoop 0 name

/-! ### The tree -/

/-- The attributes and the children of an element under construction. -/
abbrev Inside := List XmlElement × List XmlElement

/-- `xml_text_dup`: no bytes leave `NULL`.  The length of a text is an `unsigned` in the source, so
this is for strings of fewer than `2 ^ 32` bytes. -/
def xmlTextDup (s : Str) : Option Str := if s = [] then none else some s

/-- `xml_element_add` of what a field with this name becomes: an attribute, put in front of the
others, when the name begins with two underscores, and the last child otherwise. -/
def addField (name : Str) (root : Inside) (value : Str)
    (children : List XmlElement) (attributes : List XmlElement) : Inside :=
  if str "__" <+: name then
    (.node .attributeNode .shapeOpen (normalFieldName (name.drop 2)) (xmlTextDup value) [] [] ::
      root.1, root.2)
  else
    (root.1,
      root.2 ++ [.node .elementNode .shapeOpen (normalFieldName name) none attributes children])

mutual

/-- `print_xml`: a string becomes a text inside its element, an enumeration value a single
element, a message the elements of its fields. -/
def printXml (root : Inside) : PbMember → Inside
  | .string name value =>
      addField name root value [.node .textNode .shapeSingle [] (xmlTextDup value) [] []] []
  | .enum name value =>
      addField name root value [.node .elementNode .shapeSingle value none [] []] []
  | .message name members =>
      let inside := messagePrint ([], []) members
      addField name root [] inside.2 inside.1

/-- `message_print`, with `print_xml` for every set field. -/
def messagePrint (root : Inside) : List PbMember → Inside
  | [] => root
  | member :: rest => messagePrint (printXml root member) rest

end

/-- The `?xml` element, its attributes in the order `xml_element_add` leaves them. -/
def xmlDeclaration : XmlElement :=
  .node .elementNode .shapeSingle (str "?xml") none
    [.node .attributeNode .shapeOpen (str "encoding") (some (str "utf-8")) [] [],
      .node .attributeNode .shapeOpen (str "version") (some (str "1.0")) [] []] []

/-- `protobuf_c_message_to_xml`: the children of the document. -/
def protobufCMessageToXml (members : List PbMember) : List XmlElement :=
  (messagePrint ([], [xmlDeclaration]) members).2

/-! ### The payloads -/

/-- An optional string field. -/
def optionalString (name : String) (value : Option Str) : List PbMember :=
  value.toList.map (.string (str name))

/-- A repeated string field. -/
def repeatedString (name : String) (values : List Str) : List PbMember :=
  values.map (.string (str name))

/-- The name of the enumeration value. -/
def SipToEncoder.name : SipToEncoder → Str
  | .pictureFastUpdate => str "picture_fast_update"
  | .pictureFreeze => str "picture_freeze"

def SipVcPrimitive.members (p : SipVcPrimitive) : List PbMember :=
  .enum (str "to_encoder") p.toEncoder.name :: repeatedString "stream_id" p.streamId

def SipVfu.members (p : SipVfu) : List PbMember :=
  [.message (str "media_control")
    (p.mediaControl.map fun v => .message (str "vc_primitive") v.members)]

def SipTuple.members (p : SipTuple) : List PbMember :=
  [.string (str "__id") p.id, .message (str "status") (optionalString "basic" p.basic)] ++
    optionalString "contact" p.contact ++ repeatedString "note" p.note ++
      optionalString "timestamp" p.timestamp

def SipPidf.members (p : SipPidf) : List PbMember :=
  [.message (str "presence")
    ([.string (str "__xmlns") p.xmlns, .string (str "__entity") p.entity] ++
      p.tuple.map fun t => .message (str "tuple") t.members)]

def SipEntry.members (p : SipEntry) : List PbMember :=
  .string (str "__uri") p.uri :: optionalString "display__name" p.displayName

mutual

def SipList.members : SipList → List PbMember
  | .mk name displayName entry list =>
      optionalString "__name" name ++ optionalString "display__name" displayName ++
        (entry.map fun e => .message (str "entry") e.members) ++ sipListMembers list

/-- The repeated field `list`. -/
def sipListMembers : List SipList → List PbMember
  | [] => []
  | l :: rest => .message (str "list") l.members :: sipListMembers rest

end

def SipRl.members (p : SipRl) : List PbMember :=
  [.message (str "resource__lists")
    ([.string (str "__xmlns") p.xmlns, .string (str "__xmlns___xsi") p.xmlnsXsi] ++
      sipListMembers p.list)]

/-! ### No document is empty -/

lemma render_append (quote : Option UInt8) (a b : List XmlElement) :
    render quote (a ++ b) = render quote a ++ render quote b := by
  induction a with
  | nil => simp [render]
  | cons node a ih => simp [render, ih]

/-- Printing adds behind the children that are there. -/
lemma messagePrint_children (members : List PbMember) (root : Inside) :
    root.2 <+: (messagePrint root members).2 := by
  induction members generalizing root with
  | nil => simp [messagePrint]
  | cons member rest ih =>
      rw [messagePrint]
      refine List.IsPrefix.trans ?_ (ih _)
      cases member <;> (simp only [printXml, addField]; split <;> simp)

/-- **No document is empty**: it begins with its declaration. -/
lemma render_toXml_ne_nil (quote : Option UInt8) (members : List PbMember) :
    render quote (protobufCMessageToXml members) ≠ [] := by
  obtain ⟨rest, hrest⟩ := messagePrint_children members ([], [xmlDeclaration])
  rw [protobufCMessageToXml, ← hrest, render_append]
  simp [render, renderNode, tag, xmlDeclaration, str]

end SipEcho
