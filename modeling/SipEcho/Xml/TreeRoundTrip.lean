import SipEcho.Xml.Read

/-!
The payloads that travel as XML, written into an element tree and read from it.

* `SipVfu.Filled`, `SipPidf.Filled`, `SipRl.Filled`: no string of the message is empty;
* `SipVfu.members_fit`, `SipPidf.members_fit`, `SipRl.members_fit`: such a message is one of its
  descriptor;
* `SipVfu.members_inj`, `SipPidf.members_inj`, `SipRl.members_inj`: the fields are the message;
* `xml_tree_round_trip`: reading what was written gives the message back.
-/

namespace SipEcho

/-! ### No empty string

The length of a text is an `unsigned` in the source, so that strings have fewer than `2 ^ 32` bytes.
-/

/-- No string of the message is empty. -/
def SipVfu.Filled (v : SipVfu) : Prop := ∀ p ∈ v.mediaControl, ∀ s ∈ p.streamId, s ≠ []

/-- No string of the tuple is empty. -/
structure SipTuple.Filled (t : SipTuple) : Prop where
  id : t.id ≠ []
  basic : ∀ s ∈ t.basic, s ≠ []
  contact : ∀ s ∈ t.contact, s ≠ []
  note : ∀ s ∈ t.note, s ≠ []
  timestamp : ∀ s ∈ t.timestamp, s ≠ []

/-- No string of the message is empty. -/
structure SipPidf.Filled (p : SipPidf) : Prop where
  xmlns : p.xmlns ≠ []
  entity : p.entity ≠ []
  tuple : ∀ t ∈ p.tuple, t.Filled

/-- No string of the entry is empty. -/
structure SipEntry.Filled (e : SipEntry) : Prop where
  uri : e.uri ≠ []
  displayName : ∀ s ∈ e.displayName, s ≠ []

/-- No string of the list, or of a list inside, is empty. -/
inductive SipList.Filled : SipList → Prop
  | mk {name displayName : Option Str} {entry : List SipEntry} {list : List SipList}
      (hname : ∀ s ∈ name, s ≠ []) (hdisplay : ∀ s ∈ displayName, s ≠ [])
      (hentry : ∀ e ∈ entry, e.Filled) (hlist : ∀ l ∈ list, SipList.Filled l) :
      SipList.Filled (.mk name displayName entry list)

/-- No string of the message is empty. -/
structure SipRl.Filled (p : SipRl) : Prop where
  xmlns : p.xmlns ≠ []
  xmlnsXsi : p.xmlnsXsi ≠ []
  list : ∀ l ∈ p.list, l.Filled

/-- The induction principle of resource lists: the lists inside first. -/
@[elab_as_elim]
theorem SipList.ind {P : SipList → Prop}
    (mk : ∀ name displayName entry list, (∀ l ∈ list, P l) →
      P (.mk name displayName entry list)) (l : SipList) : P l :=
  @SipList.rec P (fun ls => ∀ l ∈ ls, P l)
    mk
    (fun _ h => absurd h List.not_mem_nil)
    (fun _ _ hhead htail l hl => by
      rcases List.mem_cons.mp hl with rfl | hl
      · exact hhead
      · exact htail l hl)
    l

lemma sipListMembers_eq (list : List SipList) :
    sipListMembers list = list.map fun l => .message (str "list") l.members := by
  induction list with
  | nil => rfl
  | cons l list ih => rw [sipListMembers, ih, List.map_cons]

/-! ### The messages fit their descriptors -/

namespace Segments

variable {f : Field} {fs : List Field} {ms : List PbMember}

/-- A required field. -/
lemma one {m : PbMember} (hm : Fits f m) (hlabel : f.label = .required)
    (hms : Segments Fits fs ms) : Segments Fits (f :: fs) (m :: ms) := by
  have hall : ∀ n ∈ [m], Fits f n := by simpa using hm
  have hone : f.label.Admits [m].length := by rw [hlabel]; exact List.length_singleton
  exact Segments.cons hall hone hms

/-- An optional string. -/
lemma optionalString {name : String} {value : Option Str} (hname : f.name = str name)
    (htype : f.type = .string) (hlabel : f.label = .optional) (hv : ∀ s ∈ value, s ≠ [])
    (hms : Segments Fits fs ms) :
    Segments Fits (f :: fs) (SipEcho.optionalString name value ++ ms) := by
  refine Segments.cons (fun m hm => ?_) ?_ hms
  · obtain ⟨s, hs, rfl⟩ := List.mem_map.mp hm
    rw [← hname]
    exact Fits.string htype (hv s (Option.mem_toList.mp hs))
  · rw [hlabel]
    cases value <;> simp [SipEcho.optionalString, FieldLabel.Admits]

/-- A repeated string. -/
lemma repeatedString {name : String} {values : List Str} (hname : f.name = str name)
    (htype : f.type = .string) (hlabel : f.label = .repeated) (hv : ∀ s ∈ values, s ≠ [])
    (hms : Segments Fits fs ms) :
    Segments Fits (f :: fs) (SipEcho.repeatedString name values ++ ms) := by
  refine Segments.cons (fun m hm => ?_) (by rw [hlabel]; trivial) hms
  obtain ⟨s, hs, rfl⟩ := List.mem_map.mp hm
  rw [← hname]
  exact Fits.string htype (hv s hs)

/-- A repeated message. -/
lemma repeatedMessage {α : Type} {type : XmlMessage} {name : Str} {members : α → List PbMember}
    {values : List α} (hname : f.name = name) (htype : f.type = .message type)
    (hlabel : f.label = .repeated) (hv : ∀ a ∈ values, Segments Fits type.fields (members a))
    (hms : Segments Fits fs ms) :
    Segments Fits (f :: fs) ((values.map fun a => .message name (members a)) ++ ms) := by
  refine Segments.cons (fun m hm => ?_) (by rw [hlabel]; trivial) hms
  obtain ⟨a, ha, rfl⟩ := List.mem_map.mp hm
  rw [← hname]
  exact Fits.message htype (hv a ha)

end Segments

lemma SipToEncoder.name_mem (e : SipToEncoder) :
    e.name ∈ [str "picture_fast_update", str "picture_freeze"] := by
  cases e
  · exact List.mem_cons_self
  · exact List.mem_cons_of_mem _ List.mem_cons_self

/-- A `Vfu` without empty strings is one of its descriptor. -/
lemma SipVfu.members_fit {v : SipVfu} (h : v.Filled) :
    Segments Fits XmlMessage.vfu.fields v.members := by
  have primitive : ∀ p ∈ v.mediaControl,
      Segments Fits XmlMessage.vcPrimitive.fields p.members := by
    intro p hp
    have hseg := (Segments.nil (R := Fits)).repeatedString
      (f := ⟨str "stream_id", .repeated, .string, none⟩) rfl rfl rfl (h p hp)
    rw [List.append_nil] at hseg
    exact hseg.one (.enum rfl p.toEncoder.name_mem) rfl
  have control := (Segments.nil (R := Fits)).repeatedMessage
    (f := ⟨str "vc_primitive", .repeated, .message .vcPrimitive, none⟩) rfl rfl rfl primitive
  rw [List.append_nil] at control
  exact Segments.nil.one (.message rfl control) rfl

lemma SipTuple.members_fit {t : SipTuple} (h : t.Filled) :
    Segments Fits XmlMessage.tuple.fields t.members := by
  have basic := (Segments.nil (R := Fits)).optionalString
    (f := ⟨str "basic", .optional, .string, none⟩) rfl rfl rfl h.basic
  rw [List.append_nil] at basic
  have timestamp := (Segments.nil (R := Fits)).optionalString
    (f := ⟨str "timestamp", .optional, .string, none⟩) rfl rfl rfl h.timestamp
  have note := timestamp.repeatedString
    (f := ⟨str "note", .repeated, .string, none⟩) rfl rfl rfl h.note
  have contact := note.optionalString
    (f := ⟨str "contact", .optional, .string, none⟩) rfl rfl rfl h.contact
  have status := contact.one (f := ⟨str "status", .required, .message .status, none⟩)
    (.message rfl basic) rfl
  have id := status.one (f := ⟨str "__id", .required, .string, some (str "1")⟩)
    (.string rfl h.id) rfl
  rw [List.append_nil] at id
  simp only [SipTuple.members, List.append_assoc, List.cons_append, List.nil_append]
  exact id

/-- A `Pidf` without empty strings is one of its descriptor. -/
lemma SipPidf.members_fit {p : SipPidf} (h : p.Filled) :
    Segments Fits XmlMessage.pidf.fields p.members := by
  have tuple := (Segments.nil (R := Fits)).repeatedMessage
    (f := ⟨str "tuple", .repeated, .message .tuple, none⟩) rfl rfl rfl
    fun t ht => SipTuple.members_fit (h.tuple t ht)
  rw [List.append_nil] at tuple
  have entity := tuple.one (f := ⟨str "__entity", .required, .string, none⟩)
    (.string rfl h.entity) rfl
  have xmlns := entity.one
    (f := ⟨str "__xmlns", .required, .string, some (str "urn:ietf:params:xml:ns:pidf")⟩)
    (.string rfl h.xmlns) rfl
  exact Segments.nil.one (.message rfl xmlns) rfl

lemma SipEntry.members_fit {e : SipEntry} (h : e.Filled) :
    Segments Fits XmlMessage.entry.fields e.members := by
  have display := (Segments.nil (R := Fits)).optionalString
    (f := ⟨str "display__name", .optional, .string, none⟩) rfl rfl rfl h.displayName
  rw [List.append_nil] at display
  exact display.one (.string rfl h.uri) rfl

lemma SipList.members_fit (l : SipList) (h : l.Filled) :
    Segments Fits XmlMessage.list.fields l.members := by
  induction l using SipList.ind with
  | mk name displayName entry list ih =>
      cases h with
      | mk hname hdisplay hentry hlist =>
          have lists := (Segments.nil (R := Fits)).repeatedMessage
            (f := ⟨str "list", .repeated, .message .list, none⟩) rfl rfl rfl
            fun l hl => ih l hl (hlist l hl)
          have entries := lists.repeatedMessage
            (f := ⟨str "entry", .repeated, .message .entry, none⟩) rfl rfl rfl
            fun e he => SipEntry.members_fit (hentry e he)
          have display := entries.optionalString
            (f := ⟨str "display__name", .optional, .string, none⟩) rfl rfl rfl hdisplay
          have names := display.optionalString
            (f := ⟨str "__name", .optional, .string, none⟩) rfl rfl rfl hname
          rw [List.append_nil] at names
          simp only [SipList.members, sipListMembers_eq, List.append_assoc]
          exact names

/-- An `Rl` without empty strings is one of its descriptor. -/
lemma SipRl.members_fit {p : SipRl} (h : p.Filled) :
    Segments Fits XmlMessage.rl.fields p.members := by
  have lists := (Segments.nil (R := Fits)).repeatedMessage
    (f := ⟨str "list", .repeated, .message .list, none⟩) rfl rfl rfl
    fun l hl => SipList.members_fit l (h.list l hl)
  rw [List.append_nil, ← sipListMembers_eq] at lists
  have xsi := lists.one
    (f := ⟨str "__xmlns___xsi", .required, .string,
      some (str "http://www.w3.org/2001/XMLSchema-instance")⟩)
    (.string rfl h.xmlnsXsi) rfl
  have xmlns := xsi.one
    (f := ⟨str "__xmlns", .required, .string,
      some (str "urn:ietf:params:xml:ns:resource-lists")⟩)
    (.string rfl h.xmlns) rfl
  exact Segments.nil.one (.message rfl xmlns) rfl

/-! ### The fields are the message -/

namespace PbMember

/-- The strings of a field. -/
def strings (name : String) (ms : List PbMember) : List Str :=
  ms.filterMap fun
    | .string n value => if n = str name then some value else none
    | _ => none

/-- The messages of a field. -/
def messages (name : String) (ms : List PbMember) : List (List PbMember) :=
  ms.filterMap fun
    | .message n members => if n = str name then some members else none
    | _ => none

variable (name : String)

@[simp] lemma strings_append (a b : List PbMember) :
    strings name (a ++ b) = strings name a ++ strings name b := List.filterMap_append

@[simp] lemma messages_append (a b : List PbMember) :
    messages name (a ++ b) = messages name a ++ messages name b := List.filterMap_append

@[simp] lemma strings_cons_string (n value : Str) (ms : List PbMember) :
    strings name (.string n value :: ms) =
      (if n = str name then [value] else []) ++ strings name ms := by
  by_cases h : n = str name <;> simp [strings, h]

@[simp] lemma strings_cons_message (n : Str) (members ms : List PbMember) :
    strings name (.message n members :: ms) = strings name ms := by
  simp [strings]

@[simp] lemma messages_cons_string (n value : Str) (ms : List PbMember) :
    messages name (.string n value :: ms) = messages name ms := by
  simp [messages]

@[simp] lemma messages_cons_message (n : Str) (members ms : List PbMember) :
    messages name (.message n members :: ms) =
      (if n = str name then [members] else []) ++ messages name ms := by
  by_cases h : n = str name <;> simp [messages, h]

@[simp] lemma strings_repeatedString (n : String) (values : List Str) :
    strings name (repeatedString n values) = if str n = str name then values else [] := by
  induction values with
  | nil => simp [repeatedString, strings]
  | cons v values ih =>
      simp only [repeatedString, List.map_cons, strings, List.filterMap_cons] at ih ⊢
      by_cases h : str n = str name <;> simp_all

@[simp] lemma strings_optionalString (n : String) (value : Option Str) :
    strings name (optionalString n value) = if str n = str name then value.toList else [] :=
  strings_repeatedString name n value.toList

@[simp] lemma messages_repeatedString (n : String) (values : List Str) :
    messages name (repeatedString n values) = [] := by
  simp [repeatedString, messages]

@[simp] lemma messages_optionalString (n : String) (value : Option Str) :
    messages name (optionalString n value) = [] :=
  messages_repeatedString name n value.toList

@[simp] lemma strings_map_message {α : Type} (n : String) (members : α → List PbMember)
    (values : List α) :
    strings name (values.map fun a => .message (str n) (members a)) = [] := by
  induction values with
  | nil => rfl
  | cons v values ih => exact ih

@[simp] lemma messages_map_message {α : Type} (n : String) (members : α → List PbMember)
    (values : List α) :
    messages name (values.map fun a => .message (str n) (members a)) =
      if str n = str name then values.map members else [] := by
  induction values with
  | nil => simp [messages]
  | cons v values ih =>
      simp only [messages, List.map_cons, List.filterMap_cons] at ih ⊢
      by_cases h : str n = str name <;> simp_all

end PbMember

open PbMember

/-- Messages that only differ when their fields do give fields that only differ when they do. -/
lemma map_members_inj {α : Type} {members : α → List PbMember} {values values' : List α}
    (hinj : ∀ a ∈ values, ∀ a', members a = members a' → a = a')
    (h : values.map members = values'.map members) : values = values' := by
  induction values generalizing values' with
  | nil =>
      cases values' with
      | nil => rfl
      | cons => simp at h
  | cons a values ih =>
      cases values' with
      | nil => simp at h
      | cons a' values' =>
          rw [List.map_cons, List.map_cons, List.cons.injEq] at h
          rw [hinj a List.mem_cons_self a' h.1,
            ih (fun b hb => hinj b (List.mem_cons_of_mem _ hb)) h.2]

lemma eq_of_toList {value value' : Option Str} (h : value.toList = value'.toList) :
    value = value' := by
  have h := congrArg List.head? h
  simpa using h

lemma repeatedString_inj {name : String} {values values' : List Str}
    (h : repeatedString name values = repeatedString name values') : values = values' := by
  have h := congrArg (strings name) h
  simpa using h

lemma optionalString_inj {name : String} {value value' : Option Str}
    (h : optionalString name value = optionalString name value') : value = value' :=
  eq_of_toList (repeatedString_inj h)

lemma SipToEncoder.name_inj {e e' : SipToEncoder} (h : e.name = e'.name) : e = e' := by
  revert h
  cases e <;> cases e' <;> decide

attribute [ext] SipVcPrimitive SipVfu SipTuple SipPidf SipEntry

lemma SipVcPrimitive.members_inj {p p' : SipVcPrimitive} (h : p.members = p'.members) :
    p = p' := by
  injection h with hencoder hstream
  injection hencoder with _ hname
  exact SipVcPrimitive.ext (SipToEncoder.name_inj hname) (repeatedString_inj hstream)

/-- The fields of a `Vfu` are the message. -/
lemma SipVfu.members_inj {v v' : SipVfu} (h : v.members = v'.members) : v = v' := by
  injection h with hmessage
  injection hmessage with _ hcontrol
  have hmembers := congrArg (messages "vc_primitive") hcontrol
  simp only [messages_map_message, if_pos] at hmembers
  exact SipVfu.ext (map_members_inj (fun _ _ _ => SipVcPrimitive.members_inj) hmembers)

lemma SipTuple.members_inj {t t' : SipTuple} (h : t.members = t'.members) : t = t' := by
  have hid := congrArg (strings "__id") h
  have hstatus := congrArg (messages "status") h
  have hcontact := congrArg (strings "contact") h
  have hnote := congrArg (strings "note") h
  have htimestamp := congrArg (strings "timestamp") h
  simp +decide [SipTuple.members, -List.cons_append] at hid hstatus hcontact hnote htimestamp
  exact SipTuple.ext hid (optionalString_inj hstatus) (eq_of_toList hcontact) hnote
    (eq_of_toList htimestamp)

/-- The fields of a `Pidf` are the message. -/
lemma SipPidf.members_inj {p p' : SipPidf} (h : p.members = p'.members) : p = p' := by
  injection h with hmessage
  injection hmessage with _ hpresence
  have hxmlns := congrArg (strings "__xmlns") hpresence
  have hentity := congrArg (strings "__entity") hpresence
  have htuple := congrArg (messages "tuple") hpresence
  simp +decide [-List.cons_append] at hxmlns hentity htuple
  exact SipPidf.ext hxmlns hentity (map_members_inj (fun _ _ _ => SipTuple.members_inj) htuple)

lemma SipEntry.members_inj {e e' : SipEntry} (h : e.members = e'.members) : e = e' := by
  injection h with huri hdisplay
  injection huri with _ huri
  exact SipEntry.ext huri (optionalString_inj hdisplay)

lemma SipList.members_inj (l : SipList) : ∀ l' : SipList, l.members = l'.members → l = l' := by
  induction l using SipList.ind with
  | mk name display entry list ih =>
      intro l' h
      obtain ⟨name', display', entry', list'⟩ := l'
      rw [SipList.members, SipList.members, sipListMembers_eq, sipListMembers_eq] at h
      have hname := congrArg (strings "__name") h
      have hdisplay := congrArg (strings "display__name") h
      have hentry := congrArg (messages "entry") h
      have hlist := congrArg (messages "list") h
      simp +decide at hname hdisplay hentry hlist
      rw [eq_of_toList hname, eq_of_toList hdisplay,
        map_members_inj (fun _ _ _ => SipEntry.members_inj) hentry, map_members_inj ih hlist]

/-- The fields of an `Rl` are the message. -/
lemma SipRl.members_inj {p p' : SipRl} (h : p.members = p'.members) : p = p' := by
  obtain ⟨xmlns, xsi, list⟩ := p
  obtain ⟨xmlns', xsi', list'⟩ := p'
  injection h with hmessage
  injection hmessage with _ hresource
  rw [sipListMembers_eq, sipListMembers_eq] at hresource
  have hxmlns := congrArg (strings "__xmlns") hresource
  have hxsi := congrArg (strings "__xmlns___xsi") hresource
  have hlist := congrArg (messages "list") hresource
  simp +decide [-List.cons_append] at hxmlns hxsi hlist
  rw [hxmlns, hxsi, map_members_inj (fun l _ => l.members_inj) hlist]

/-! ### The round trip -/

/-- **Reading gives the message back**: what `protobuf_c_message_from_xml` reads from the tree
`protobuf_c_message_to_xml` builds is the message, and no other; all this of strings of fewer than
`2 ^ 32` bytes. -/
theorem xml_tree_round_trip :
    (∀ v : SipVfu, v.Filled → ∀ v' : SipVfu,
      protobufCMessageFromXml .vfu (protobufCMessageToXml v.members) = v'.members ↔ v' = v) ∧
    (∀ p : SipPidf, p.Filled → ∀ p' : SipPidf,
      protobufCMessageFromXml .pidf (protobufCMessageToXml p.members) = p'.members ↔ p' = p) ∧
    ∀ p : SipRl, p.Filled → ∀ p' : SipRl,
      protobufCMessageFromXml .rl (protobufCMessageToXml p.members) = p'.members ↔ p' = p := by
  refine ⟨fun v hv v' => ?_, fun p hp p' => ?_, fun p hp p' => ?_⟩
  · rw [fromXml_toXml (by decide) (SipVfu.members_fit hv)]
    exact ⟨fun h => (SipVfu.members_inj h).symm, fun h => by rw [h]⟩
  · rw [fromXml_toXml (by decide) (SipPidf.members_fit hp)]
    exact ⟨fun h => (SipPidf.members_inj h).symm, fun h => by rw [h]⟩
  · rw [fromXml_toXml (by decide) (SipRl.members_fit hp)]
    exact ⟨fun h => (SipRl.members_inj h).symm, fun h => by rw [h]⟩

/-- A request for a picture, a presence and a list inside a list, read back. -/
theorem samples_round_trip :
    (protobufCMessageFromXml .vfu (protobufCMessageToXml
        (SipVfu.members ⟨[⟨.pictureFreeze, [str "1"]⟩, ⟨.pictureFastUpdate, []⟩]⟩)) =
      SipVfu.members ⟨[⟨.pictureFreeze, [str "1"]⟩, ⟨.pictureFastUpdate, []⟩]⟩) ∧
    (protobufCMessageFromXml .pidf (protobufCMessageToXml (SipPidf.members
        ⟨str "urn", str "sip:a@b", [⟨str "t", some (str "open"), none, [str "busy"], none⟩]⟩)) =
      SipPidf.members
        ⟨str "urn", str "sip:a@b", [⟨str "t", some (str "open"), none, [str "busy"], none⟩]⟩) ∧
    (protobufCMessageFromXml .rl (protobufCMessageToXml (SipRl.members
        ⟨str "urn", str "xsi", [.mk none none [] [.mk (some (str "a")) none [] []]]⟩)) =
      SipRl.members
        ⟨str "urn", str "xsi", [.mk none none [] [.mk (some (str "a")) none [] []]]⟩) := by
  refine ⟨(xml_tree_round_trip.1 _ (by unfold SipVfu.Filled; decide) _).mpr rfl,
    (xml_tree_round_trip.2.1 _ ⟨by decide, by decide, fun t ht => ?_⟩ _).mpr rfl,
    (xml_tree_round_trip.2.2 _ ⟨by decide, by decide, fun l hl => ?_⟩ _).mpr rfl⟩
  · rw [List.mem_singleton.mp ht]
    exact ⟨by decide, by decide, by decide, by decide, by decide⟩
  · rw [List.mem_singleton.mp hl]
    refine .mk (by decide) (by decide) (by simp) fun l hl => ?_
    rw [List.mem_singleton.mp hl]
    exact .mk (by decide) (by decide) (by simp) (by simp)

end SipEcho
