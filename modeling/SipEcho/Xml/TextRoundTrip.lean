import SipEcho.Xml.SeedLimit
import SipEcho.Xml.Tokens

/-!
The text of an element tree, fed to `xml_feed`.

`xml_seed` writes contents as they are; for a text that an `int` can count its counters play no
part.

* `Feeds`: a text that is read as a list of nodes, whatever follows it;
* `Crashes`: a text whose reading stops the program;
* `feeds_text`, `FeedsBefore.element`: the nodes of a tree, one inside the other;
* `printed_fed`: a printed tree is read as one node, which says the same exactly when it is clean;
* `xml_text_round_trip`: **the text of a printed tree is read as this tree** exactly when its
  contents are clean;
* `markup_in_text`: a note with a tuple in its text.
-/

namespace SipEcho

open Lib

/-! ### Feeding -/

/-- Nodes become children of the innermost element, one after another. -/
def XmlDocument.adds (doc : XmlDocument) (nodes : List XmlElement) : XmlDocument :=
  nodes.foldl XmlDocument.add doc

/-- **A text that is read as a list of nodes**, in any document with room for elements as deep, and
whatever follows it that has `Q`. -/
def FeedsBefore (Q : Str → Prop) (beyond : ℤ) (bytes : Str) (depth : ℕ)
    (nodes : List XmlElement) : Prop :=
  ∀ fuel after doc, Q after → (bytes ++ after).length ≤ fuel →
    doc.opened.length + depth ≤ xmlMaxDeep → ∃ fuel', after.length ≤ fuel' ∧
      xmlFeedLoop beyond fuel (bytes ++ after) doc = xmlFeedLoop beyond fuel' after (doc.adds nodes)

/-- Whatever follows. -/
def Feeds : ℤ → Str → ℕ → List XmlElement → Prop := FeedsBefore fun _ => True

/-- A text whose reading stops the program. -/
def Crashes (beyond : ℤ) (bytes : Str) (depth : ℕ) : Prop :=
  ∀ fuel after doc, (bytes ++ after).length ≤ fuel → doc.opened.length + depth ≤ xmlMaxDeep →
    xmlFeedLoop beyond fuel (bytes ++ after) doc = .error .crash

section Feeding

variable {beyond : ℤ} {Q : Str → Prop} {name body bytes bytes' rest text : Str} {depth depth' : ℕ}
  {nodes nodes' found : List XmlElement} {doc doc' : XmlDocument} {token : XmlToken}

lemma XmlDocument.add_opened_length (node : XmlElement) :
    (doc.add node).opened.length = doc.opened.length := by
  obtain ⟨opened, children⟩ := doc
  cases opened <;> rfl

lemma XmlDocument.adds_opened_length (nodes : List XmlElement) :
    (doc.adds nodes).opened.length = doc.opened.length := by
  induction nodes generalizing doc with
  | nil => rfl
  | cons node nodes ih =>
      show ((doc.add node).adds nodes).opened.length = _
      rw [ih, XmlDocument.add_opened_length]

/-- The nodes that are read inside an element are its children. -/
lemma XmlDocument.adds_inside (o : OpenElement) (os : List OpenElement)
    (children : List XmlElement) :
    (⟨o :: os, children⟩ : XmlDocument).adds nodes =
      ⟨{ o with children := o.children ++ nodes } :: os, children⟩ := by
  induction nodes generalizing o with
  | nil => simp [XmlDocument.adds]
  | cons node nodes ih =>
      show XmlDocument.adds ⟨{ o with children := o.children ++ [node] } :: os, children⟩ nodes = _
      rw [ih]
      simp

/-- The nodes that are read outside are the document's. -/
lemma XmlDocument.adds_outside (children : List XmlElement) :
    (⟨[], children⟩ : XmlDocument).adds nodes = ⟨[], children ++ nodes⟩ := by
  induction nodes generalizing children with
  | nil => simp [XmlDocument.adds]
  | cons node nodes ih =>
      show (⟨[], children ++ [node]⟩ : XmlDocument).adds nodes = _
      rw [ih]
      simp

lemma not_deep (h : doc.opened.length ≤ xmlMaxDeep) : ¬ doc.Deep := not_lt_of_ge h

/-- One token is read. -/
lemma feed_token (hne : bytes ≠ []) (hnext : xmlNext beyond bytes = .ok (token, rest))
    (htoken : xmlFeedToken token doc = .ok (some doc')) (fuel : ℕ) :
    xmlFeedLoop beyond (fuel + 1) bytes doc = xmlFeedLoop beyond fuel rest doc' := by
  obtain ⟨c, bytes, rfl⟩ := List.exists_cons_of_ne_nil hne
  rw [xmlFeedLoop, hnext]
  show (xmlFeedToken token doc >>= _) = _
  rw [htoken]
  rfl

lemma feed_crash (hne : bytes ≠ []) (hnext : xmlNext beyond bytes = .error .crash) (fuel : ℕ) :
    xmlFeedLoop beyond (fuel + 1) bytes doc = .error .crash := by
  obtain ⟨c, bytes, rfl⟩ := List.exists_cons_of_ne_nil hne
  rw [xmlFeedLoop, hnext]
  rfl

lemma Feeds.before (h : Feeds beyond bytes depth nodes) : FeedsBefore Q beyond bytes depth nodes :=
  fun fuel after doc _ => h fuel after doc trivial

lemma Feeds.mono (h : Feeds beyond bytes depth nodes) (hle : depth ≤ depth') :
    Feeds beyond bytes depth' nodes :=
  fun fuel after doc hQ hfuel hdeep => h fuel after doc hQ hfuel (by omega)

lemma Crashes.mono (h : Crashes beyond bytes depth) (hle : depth ≤ depth') :
    Crashes beyond bytes depth' :=
  fun fuel after doc hfuel hdeep => h fuel after doc hfuel (by omega)

lemma feeds_nil : Feeds beyond [] depth [] := fun fuel _ _ _ hfuel _ => ⟨fuel, hfuel, rfl⟩

lemma Feeds.append (h : Feeds beyond bytes depth nodes) (h' : Feeds beyond bytes' depth nodes') :
    Feeds beyond (bytes ++ bytes') depth (nodes ++ nodes') := by
  intro fuel after doc _ hfuel hdeep
  rw [List.append_assoc] at hfuel ⊢
  obtain ⟨fuel₁, hfuel₁, heq₁⟩ := h fuel (bytes' ++ after) doc trivial hfuel hdeep
  obtain ⟨fuel₂, hfuel₂, heq₂⟩ := h' fuel₁ after (doc.adds nodes) trivial hfuel₁
    (by rw [XmlDocument.adds_opened_length]; exact hdeep)
  refine ⟨fuel₂, hfuel₂, ?_⟩
  rw [heq₁, heq₂, XmlDocument.adds, XmlDocument.adds, XmlDocument.adds, List.foldl_append]

lemma Crashes.append (h : Crashes beyond bytes depth) (bytes' : Str) :
    Crashes beyond (bytes ++ bytes') depth := by
  intro fuel after doc hfuel hdeep
  rw [List.append_assoc] at hfuel ⊢
  exact h fuel (bytes' ++ after) doc hfuel hdeep

lemma Feeds.crashes (h : Feeds beyond bytes depth nodes) (h' : Crashes beyond bytes' depth) :
    Crashes beyond (bytes ++ bytes') depth := by
  intro fuel after doc hfuel hdeep
  rw [List.append_assoc] at hfuel ⊢
  obtain ⟨fuel₁, hfuel₁, heq₁⟩ := h fuel (bytes' ++ after) doc trivial hfuel hdeep
  rw [heq₁]
  exact h' fuel₁ after (doc.adds nodes) hfuel₁ (by rw [XmlDocument.adds_opened_length]; exact hdeep)

/-- The next bytes begin a tag. -/
def BeforeTag (after : Str) : Prop := after.head? = some 60

/-- **A text in an element is read**, up to the tag behind it. -/
lemma feeds_text (beyond : ℤ) (htext : 60 ∉ text) (hblank : NonBlank text) :
    FeedsBefore BeforeTag beyond text 0 [.node .textNode .shapeOpen [] (some text) [] []] := by
  intro fuel after doc htag hfuel hdeep
  obtain ⟨c, hc, hspace⟩ := hblank
  have hne : text ≠ [] := List.ne_nil_of_mem hc
  rcases after with _ | ⟨d, after⟩
  · cases htag
  · obtain rfl : d = 60 := Option.some.inj htag
    obtain ⟨fuel, rfl⟩ : ∃ n, fuel = n + 1 := Nat.exists_eq_succ_of_ne_zero (by
      rintro rfl
      simp at hfuel)
    have hlen := List.length_pos_of_ne_nil hne
    rw [List.length_append] at hfuel
    refine ⟨fuel, by omega, feed_token (by simp) (xmlNext_text hne htext) ?_ fuel⟩
    have hshallow : ¬ doc.Deep := not_deep (by omega)
    have hempty : xmlTextIsEmpty text = false := by
      rw [xmlTextIsEmpty, List.all_eq_false]
      exact ⟨c, hc, by simp [hspace]⟩
    rw [xmlFeedToken, if_neg (by simp [hempty, hshallow])]
    rfl

lemma XmlName.head_ne (h : XmlName name) : name.head? ≠ some 33 := by
  obtain ⟨c, cs, rfl, hc, -⟩ := h
  rintro heq
  obtain rfl := Option.some.inj heq
  exact absurd hc (by decide)

/-- What stands behind the name of an element whose attributes end before its bracket. -/
structure TagBody (body : Str) : Prop where
  unmarked : ∀ c ∈ body, Unmarked c
  head : ∀ c ∈ body.head?, isName c = false
  last : body.getLast? ≠ some 47

/-- **A start tag opens an element.** -/
lemma feed_open (hname : XmlName name) (hcovered : Covered beyond name) (hbody : TagBody body)
    (hcompile : xmlNodeCompile body 62 = .ok found) (hdeep : doc.opened.length ≤ xmlMaxDeep)
    (fuel : ℕ) (after : Str) :
    xmlFeedLoop beyond (fuel + 1) (60 :: (name ++ (body ++ 62 :: after))) doc =
      xmlFeedLoop beyond fuel after ⟨⟨name, body, found, []⟩ :: doc.opened, doc.children⟩ := by
  have hnext : xmlNext beyond (60 :: (name ++ (body ++ 62 :: after))) =
      .ok (.element .shapeOpen name xmlUnknownTag body 62, after) := by
    rw [xmlNext_open hname.ne_nil hname.isName hname.head_ne,
      xmlNextElement_eq _ _ _ hname.ne_nil hname.isName hbody.unmarked hbody.head,
      xmlTagFind_name hname, if_pos hcovered]
    show (if body.getLast? = some 47 then _ else _ : Except Fault (XmlToken × Str)) = _
    rw [if_neg hbody.last]
    rfl
  have hshallow : ¬ doc.Deep := not_deep hdeep
  refine feed_token (by simp) hnext ?_ fuel
  rw [xmlFeedToken]
  · rw [if_neg hshallow, hcompile]
    rfl
  · simp

/-- **An end tag closes the element** of its name. -/
lemma feed_close (hname : XmlName name) (hcovered : Covered beyond name) (o : OpenElement)
    (os : List OpenElement) (children : List XmlElement) (ho : o.name = name) (fuel : ℕ)
    (after : Str) :
    xmlFeedLoop beyond (fuel + 1) (60 :: 47 :: (name ++ 62 :: after)) ⟨o :: os, children⟩ =
      xmlFeedLoop beyond fuel after ((⟨os, children⟩ : XmlDocument).add o.node) := by
  have hnext : xmlNext beyond (60 :: 47 :: (name ++ 62 :: after)) =
      .ok (.element .shapeClose name xmlUnknownTag [] 62, after) := by
    have heq := xmlNextElement_eq beyond true after hname.ne_nil hname.isName
      (show ∀ c ∈ ([] : Str), Unmarked c by simp) (by simp)
    rw [List.nil_append] at heq
    rw [xmlNext_close, heq, xmlTagFind_name hname, if_pos hcovered]
    rfl
  refine feed_token (by simp) hnext ?_ fuel
  have hsame : xmlTextCmp o.name name = true := by simp [xmlTextCmp, ho]
  rw [xmlFeedToken, XmlDocument.close]
  simp only [List.findIdx?_cons, hsame, if_true]
  rfl

/-- **An element is read**, with what is read inside it. -/
lemma FeedsBefore.element (h : FeedsBefore BeforeTag beyond bytes depth nodes)
    (hname : XmlName name) (hcovered : Covered beyond name) (hbody : TagBody body)
    (hcompile : xmlNodeCompile body 62 = .ok found) :
    Feeds beyond (60 :: (name ++ (body ++ 62 :: (bytes ++ 60 :: 47 :: (name ++ [62])))))
      (depth + 1) [.node .elementNode .shapeOpen name (some body) found nodes] := by
  intro fuel after doc _ hfuel hdeep
  have hbytes : 60 :: (name ++ (body ++ 62 :: (bytes ++ 60 :: 47 :: (name ++ [62])))) ++ after =
      60 :: (name ++ (body ++ 62 :: (bytes ++ 60 :: 47 :: (name ++ 62 :: after)))) := by
    simp
  rw [hbytes] at hfuel ⊢
  simp only [List.length_cons, List.length_append] at hfuel
  obtain ⟨fuel, rfl⟩ : ∃ n, fuel = n + 1 := Nat.exists_eq_succ_of_ne_zero (by omega)
  rw [feed_open hname hcovered hbody hcompile (by omega)]
  -- what is inside becomes its children
  obtain ⟨fuel₁, hfuel₁, heq₁⟩ := h fuel (60 :: 47 :: (name ++ 62 :: after))
    ⟨⟨name, body, found, []⟩ :: doc.opened, doc.children⟩ rfl (by simp; omega) (by simp; omega)
  simp only [List.length_cons, List.length_append] at hfuel₁
  obtain ⟨fuel₁, rfl⟩ : ∃ n, fuel₁ = n + 1 := Nat.exists_eq_succ_of_ne_zero (by omega)
  rw [heq₁, XmlDocument.adds_inside, feed_close hname hcovered _ _ _ rfl]
  exact ⟨fuel₁, by omega, rfl⟩

/-- **A single element is read.** -/
lemma feeds_value (hname : XmlName name) (hcovered : Covered beyond name) :
    Feeds beyond (60 :: (name ++ [47, 62])) 1
      [.node .elementNode .shapeSingle name (some []) [] []] := by
  intro fuel after doc _ hfuel hdeep
  have hbytes : 60 :: (name ++ [47, 62]) ++ after = 60 :: (name ++ ([47] ++ 62 :: after)) := by simp
  rw [hbytes] at hfuel ⊢
  simp only [List.length_cons, List.length_append] at hfuel
  obtain ⟨fuel, rfl⟩ : ∃ n, fuel = n + 1 := Nat.exists_eq_succ_of_ne_zero (by omega)
  have hmark : ∀ c ∈ ([47] : Str), Unmarked c := by simp [Unmarked]
  have hhead : ∀ c ∈ ([47] : Str).head?, isName c = false := by
    rintro c ⟨⟩
    decide
  have hnext : xmlNext beyond (60 :: (name ++ ([47] ++ 62 :: after))) =
      .ok (.element .shapeSingle name xmlUnknownTag [] 47, after) := by
    rw [xmlNext_open hname.ne_nil hname.isName hname.head_ne,
      xmlNextElement_eq _ _ _ hname.ne_nil hname.isName hmark hhead, xmlTagFind_name hname,
      if_pos hcovered]
    rfl
  have hshallow : ¬ doc.Deep := not_deep (by omega)
  refine ⟨fuel, by omega, feed_token (by simp) hnext ?_ fuel⟩
  rw [xmlFeedToken]
  · rw [if_neg hshallow]
    rfl
  · simp

/-- **A name that the index does not cover** stops the program. -/
lemma crashes_name (body : Str) (hname : XmlName name) (hcovered : ¬ Covered beyond name)
    (hmark : ∀ c ∈ body, Unmarked c) (hhead : ∀ c ∈ body.head?, isName c = false) (more : Str) :
    Crashes beyond (60 :: (name ++ (body ++ 62 :: more))) depth := by
  intro fuel after doc hfuel _
  have hbytes : 60 :: (name ++ (body ++ 62 :: more)) ++ after =
      60 :: (name ++ (body ++ 62 :: (more ++ after))) := by simp
  rw [hbytes] at hfuel ⊢
  simp only [List.length_cons, List.length_append] at hfuel
  obtain ⟨fuel, rfl⟩ : ∃ n, fuel = n + 1 := Nat.exists_eq_succ_of_ne_zero (by omega)
  refine feed_crash (by simp) ?_ fuel
  rw [xmlNext_open hname.ne_nil hname.isName hname.head_ne,
    xmlNextElement_eq _ _ _ hname.ne_nil hname.isName hmark hhead, xmlTagFind_name hname,
    if_neg hcovered]
  rfl

lemma Crashes.element (h : Crashes beyond bytes depth) (hname : XmlName name)
    (hcovered : Covered beyond name) (hbody : TagBody body)
    (hcompile : xmlNodeCompile body 62 = .ok found) (more : Str) :
    Crashes beyond (60 :: (name ++ (body ++ 62 :: (bytes ++ more)))) (depth + 1) := by
  intro fuel after doc hfuel hdeep
  have hbytes : 60 :: (name ++ (body ++ 62 :: (bytes ++ more))) ++ after =
      60 :: (name ++ (body ++ 62 :: (bytes ++ (more ++ after)))) := by simp
  rw [hbytes] at hfuel ⊢
  simp only [List.length_cons, List.length_append] at hfuel
  obtain ⟨fuel, rfl⟩ : ∃ n, fuel = n + 1 := Nat.exists_eq_succ_of_ne_zero (by omega)
  rw [feed_open hname hcovered hbody hcompile (by omega)]
  exact h fuel (more ++ after) _ (by simp; omega) (by simp; omega)

/-- The attributes of the declaration, and the mark that ends it. -/
def declarationBody : Str := str " encoding=\"utf-8\" version=\"1.0\"?"

lemma declaration_compile : xmlNodeCompile declarationBody 62 = .ok
    [attributeNode .shapeOpen (str "version") (str "1.0"),
      attributeNode .shapeOpen (str "encoding") (str "utf-8")] := rfl

/-- **The declaration is read** as an element that is over at once. -/
lemma feeds_declaration : Feeds beyond (renderNode (some 34) xmlDeclaration) 1
    [.node .elementNode .shapeOpen (str "?xml") (some declarationBody)
      [attributeNode .shapeOpen (str "version") (str "1.0"),
        attributeNode .shapeOpen (str "encoding") (str "utf-8")] []] := by
  intro fuel after doc _ hfuel hdeep
  have hbytes : renderNode (some 34) xmlDeclaration ++ after =
      60 :: (str "?xml" ++ (declarationBody ++ 62 :: after)) := rfl
  rw [hbytes] at hfuel ⊢
  simp only [List.length_cons, List.length_append] at hfuel
  obtain ⟨fuel, rfl⟩ : ∃ n, fuel = n + 1 := Nat.exists_eq_succ_of_ne_zero (by omega)
  have hnext : xmlNext beyond (60 :: (str "?xml" ++ (declarationBody ++ 62 :: after))) =
      .ok (.element .shapeOpen (str "?xml") ⟨str "?xml", .none⟩ declarationBody 62, after) := by
    rw [xmlNext_open (by decide) (forall_mem_of_all (by decide)) (by decide),
      xmlNextElement_eq _ _ _ (by decide) (forall_mem_of_all (by decide))
        (forall_mem_of_all (by decide)) (by rintro c ⟨⟩; decide)]
    rfl
  have hshallow : ¬ doc.Deep := not_deep (by omega)
  refine ⟨fuel, by omega, feed_token (by simp) hnext ?_ fuel⟩
  rw [xmlFeedToken]
  · rw [if_neg hshallow, declaration_compile]
    rfl
  · simp

end Feeding

/-! ### Printed trees -/

section Printed

variable {beyond : ℤ} {name : Str} {attributes children : List XmlElement} {e : XmlElement}

lemma renderNode_element :
    renderNode (some 34) (.node .elementNode .shapeOpen name none attributes children) =
      60 :: (name ++ (render (some 34) attributes ++
        62 :: (render (some 34) children ++ 60 :: 47 :: (name ++ [62])))) := by
  simp [renderNode, tag, str]

lemma renderNode_value (h : XmlName name) :
    renderNode (some 34) (.node .elementNode .shapeSingle name none [] []) =
      60 :: (name ++ [47, 62]) := by
  obtain ⟨c, cs, rfl, hc, -⟩ := h
  have h63 : c ≠ 63 := by
    rintro rfl
    exact absurd hc (by decide)
  simp [renderNode, tag, render, singleMark, h63, str]

/-- The attributes of a plain tree. -/
lemma attributes_plain {shape : XmlShape} {content : Option Str}
    (h : (XmlElement.node .elementNode shape name content attributes children).tree.Plain) :
    (∀ a ∈ attributes, (∀ c ∈ a.pair.1, isAttributeName c = true) ∧
      ∀ c ∈ a.pair.2, Unmarked c) ∧ ∀ e ∈ children, e.tree.Plain := by
  rw [XmlElement.tree, if_neg (by simp), xmlTrees_eq] at h
  cases h with
  | element hattributes hchildren =>
      refine ⟨fun a ha => hattributes a.pair ?_, fun e he => hchildren e.tree ?_⟩
      · exact List.mem_toFinset.mpr (List.mem_map.mpr ⟨a, ha, rfl⟩)
      · exact List.mem_map.mpr ⟨e, he, rfl⟩

lemma Unmarked.of_name {c : UInt8} (h : isAttributeName c = true) : Unmarked c := by
  constructor <;> rintro rfl <;> exact absurd h (by decide)

/-- Printed attributes stand between a name and a bracket. -/
lemma attributes_body (hprinted : ∀ a ∈ attributes, PrintedAttribute a)
    (hplain : ∀ a ∈ attributes, (∀ c ∈ a.pair.1, isAttributeName c = true) ∧
      ∀ c ∈ a.pair.2, Unmarked c) : TagBody (render (some 34) attributes) := by
  rw [render_attributes hprinted]
  refine ⟨fun c hc => ?_, fun c hc => ?_, fun hlast => ?_⟩
  · obtain ⟨p, hp, hc⟩ := List.mem_flatMap.mp hc
    obtain ⟨a, ha, rfl⟩ := List.mem_map.mp hp
    obtain ⟨hname, hvalue⟩ := hplain a ha
    simp only [attributeText, List.mem_cons, List.mem_append, List.not_mem_nil, or_false] at hc
    rcases hc with rfl | hc | rfl | rfl | hc | rfl
    · decide
    · exact .of_name (hname c hc)
    · decide
    · decide
    · exact hvalue c hc
    · decide
  · cases attributes with
    | nil => cases hc
    | cons a attributes =>
        obtain rfl : 32 = c := Option.some.inj hc
        decide
  · rcases attributes.eq_nil_or_concat' with rfl | ⟨before, a, rfl⟩
    · cases hlast
    · have htext : ((before ++ [a]).map XmlElement.pair).flatMap attributeText =
          (before.map XmlElement.pair).flatMap attributeText ++
            (32 :: (a.pair.1 ++ 61 :: 34 :: a.pair.2)) ++ [34] := by
        simp [attributeText]
      rw [htext, List.getLast?_concat] at hlast
      cases hlast

lemma XmlElement.Clean.plain (h : e.Clean beyond) : e.tree.Plain := by
  induction h with
  | text h =>
      rw [XmlElement.tree, if_pos rfl]
      exact .text h
  | @element shape name content attributes children hname hattributes hchildren ih =>
      rw [XmlElement.tree, if_neg (by simp), xmlTrees_eq]
      refine .element (fun p hp => ?_) fun t ht => ?_
      · obtain ⟨a, ha, rfl⟩ := List.mem_map.mp (List.mem_toFinset.mp hp)
        exact ⟨(hattributes a ha).1, fun c hc => ((hattributes a ha).2 c hc).1⟩
      · obtain ⟨e, he, rfl⟩ := List.mem_map.mp ht
        exact ih e he

lemma clean_text {shape : XmlShape} {content : Option Str} :
    (XmlElement.node .textNode shape name content attributes children).Clean beyond ↔
      60 ∉ content.getD [] := by
  constructor
  · intro h
    cases h with
    | text h => exact h
  · exact .text

lemma clean_element {shape : XmlShape} {content : Option Str} :
    (XmlElement.node .elementNode shape name content attributes children).Clean beyond ↔
      Covered beyond name ∧ (∀ a ∈ attributes, CleanAttribute a) ∧
        ∀ e ∈ children, e.Clean beyond := by
  constructor
  · intro h
    cases h with
    | element hname hattributes hchildren => exact ⟨hname, hattributes, hchildren⟩
  · rintro ⟨hname, hattributes, hchildren⟩
    exact .element hname hattributes hchildren

/-- What becomes of the text of a node: it stops the program, or is read as one node, which says the
same exactly when the tree is clean. -/
def IsFed (beyond : ℤ) (e : XmlElement) : Prop :=
  ¬ e.Clean beyond ∧ Crashes beyond (renderNode (some 34) e) e.depth ∨
    ∃ node, Feeds beyond (renderNode (some 34) e) e.depth [node] ∧
      (node.tree = e.tree ↔ e.Clean beyond)

/-- Siblings are read one after another. -/
lemma siblings_fed (h : ∀ e ∈ children, IsFed beyond e) :
    ¬ (∀ e ∈ children, e.Clean beyond) ∧
        Crashes beyond (render (some 34) children) (xmlDepth children) ∨
      ∃ nodes, Feeds beyond (render (some 34) children) (xmlDepth children) nodes ∧
        (xmlTrees nodes = xmlTrees children ↔ ∀ e ∈ children, e.Clean beyond) := by
  induction children with
  | nil =>
      rw [render]
      exact Or.inr ⟨[], feeds_nil, by simp⟩
  | cons e children ih =>
      obtain ⟨he, hrest⟩ := List.forall_mem_cons.mp h
      rw [render, xmlDepth, List.forall_mem_cons]
      rcases he with ⟨hclean, hcrash⟩ | ⟨node, hfeeds, hsame⟩
      · exact Or.inl ⟨fun h => hclean h.1, (hcrash.mono (le_max_left _ _)).append _⟩
      · have hfeeds := hfeeds.mono (le_max_left e.depth (xmlDepth children))
        rcases ih hrest with ⟨hclean, hcrash⟩ | ⟨nodes, hmore, hsames⟩
        · exact Or.inl ⟨fun h => hclean h.2, hfeeds.crashes (hcrash.mono (le_max_right _ _))⟩
        · refine Or.inr ⟨node :: nodes, hfeeds.append (hmore.mono (le_max_right _ _)), ?_⟩
          rw [xmlTrees, xmlTrees, List.cons.injEq, hsame, hsames]

/-- **A printed tree whose contents have no markup in them is read as one node.** -/
lemma printed_fed (h : e.Printed) (hplain : e.tree.Plain) : IsFed beyond e := by
  induction h with
  | @string name value attributes hname hattributes hvalue =>
      obtain ⟨hmarks, hinside⟩ := attributes_plain hplain
      have hbody := attributes_body hattributes.printed hmarks
      have htext : 60 ∉ value := by
        have := hinside _ List.mem_cons_self
        rw [XmlElement.tree, if_pos rfl] at this
        cases this with
        | text h => exact h
      obtain ⟨found, hcompile, hsame⟩ := attributes_read 62 hattributes hmarks
      rw [IsFed, renderNode_element, clean_element]
      by_cases hcovered : Covered beyond name
      · have hfeeds := (feeds_text beyond htext hvalue).element hname hcovered hbody
          hcompile
        have hrender : render (some 34) [.node .textNode .shapeSingle [] (some value) [] []] =
            value := by
          simp [render, renderNode, tag]
        rw [hrender]
        refine Or.inr ⟨_, hfeeds, ?_⟩
        have hclean : ∀ e ∈ [XmlElement.node .textNode .shapeSingle [] (some value) [] []],
            e.Clean beyond := by
          rintro e he
          rw [List.mem_singleton.mp he]
          exact .text htext
        simp only [XmlElement.tree, xmlTrees, reduceCtorEq, if_false, if_true,
          XmlTree.element.injEq, true_and, and_true, Option.getD_some]
        rw [hsame, and_iff_right hcovered, and_iff_left hclean]
      · exact Or.inl ⟨fun h => hcovered h.1,
          crashes_name _ hname hcovered hbody.unmarked hbody.head _⟩
  | @value name hname =>
      rw [IsFed, renderNode_value hname, clean_element]
      by_cases hcovered : Covered beyond name
      · refine Or.inr ⟨_, feeds_value hname hcovered, ?_⟩
        simp [XmlElement.tree, hcovered]
      · exact Or.inl ⟨fun h => hcovered h.1,
          crashes_name [47] hname hcovered (by simp [Unmarked]) (by rintro c ⟨⟩; decide) []⟩
  | @message name attributes children hname hattributes hchildren ih =>
      obtain ⟨hmarks, hinside⟩ := attributes_plain hplain
      have hbody := attributes_body hattributes.printed hmarks
      obtain ⟨found, hcompile, hsame⟩ := attributes_read 62 hattributes hmarks
      rw [IsFed, renderNode_element, clean_element]
      by_cases hcovered : Covered beyond name
      · rcases siblings_fed fun e he => ih e he (hinside e he) with
          ⟨hclean, hcrash⟩ | ⟨nodes, hfeeds, hsames⟩
        · refine Or.inl ⟨fun h => hclean h.2.2, ?_⟩
          exact hcrash.element hname hcovered hbody hcompile _
        · refine Or.inr ⟨_, hfeeds.before.element hname hcovered hbody hcompile, ?_⟩
          simp only [XmlElement.tree, reduceCtorEq, if_false, XmlTree.element.injEq, true_and]
          rw [hsame, hsames, and_iff_right hcovered]
      · exact Or.inl ⟨fun h => hcovered h.1,
          crashes_name _ hname hcovered hbody.unmarked hbody.head _⟩

end Printed

/-! ### The round trip -/

section RoundTrip

variable {beyond : ℤ} {document : List XmlElement}

/-- A text into a fresh document. -/
lemma Feeds.feed {bytes : Str} {depth : ℕ} {nodes : List XmlElement}
    (h : Feeds beyond bytes depth nodes) (hdepth : depth ≤ xmlMaxDeep) :
    xmlFeed beyond bytes = .ok (some nodes) := by
  obtain ⟨fuel, -, heq⟩ := h bytes.length [] ⟨[], []⟩ trivial (by simp) (by simpa using hdepth)
  rw [List.append_nil, XmlDocument.adds_outside, List.nil_append] at heq
  rw [xmlFeed, heq]
  cases fuel <;> rfl

lemma Crashes.feed {bytes : Str} {depth : ℕ} (h : Crashes beyond bytes depth)
    (hdepth : depth ≤ xmlMaxDeep) : xmlFeed beyond bytes = .error .crash := by
  have heq := h bytes.length [] ⟨[], []⟩ (by simp) (by simpa using hdepth)
  rw [List.append_nil] at heq
  rw [xmlFeed, heq]
  rfl

lemma declaration_covered : Covered beyond (str "?xml") := fun _ => by decide

/-- **The declaration is clean**, and is read as it is. -/
lemma declaration_fed : IsFed beyond xmlDeclaration := by
  refine Or.inr ⟨_, feeds_declaration, iff_of_true ?_ ?_⟩
  · simp only [xmlDeclaration, XmlElement.tree, reduceCtorEq, if_false, XmlTree.element.injEq,
      true_and, and_true]
    decide
  · refine .element declaration_covered (fun a ha => ?_) (by simp)
    simp only [List.mem_cons, List.not_mem_nil, or_false] at ha
    rcases ha with rfl | rfl
    · decide
    · decide

/-- **The text of a printed tree is read as this tree exactly when its contents are clean.**  It is
the text that `xml_seed` has written with its counters too, as long as an `int` can count it. -/
theorem xml_text_round_trip (beyond : ℤ) (document : List XmlElement)
    (hdocument : ∀ e ∈ document, e = xmlDeclaration ∨ e.Printed)
    (hdepth : xmlDepth document ≤ xmlMaxDeep) (max : ℕ) {out : Str}
    (hseed : xmlSeed document max (some 34) = some out) :
    ((∃ fed, xmlFeed beyond out = .ok (some fed) ∧ xmlTrees fed = xmlTrees document) ↔
        ∀ e ∈ document, e.Clean beyond) ∧
      (out.length < 2 ^ 31 →
        xmlSeedAt document max (some 34) = ((out.length : ℤ), out)) := by
  obtain rfl : render (some 34) document = out := by
    rw [xmlSeed_eq] at hseed
    split at hseed
    · exact Option.some.inj hseed
    · cases hseed
  refine ⟨?_, fun hint => (xmlSeedAt_eq_xmlSeed hint).1 _ hseed⟩
  -- the trees that are not plain are never read, and plain ones as nodes that can be compared
  by_cases hplain : ∀ e ∈ document, e.tree.Plain
  · have hfed : ∀ e ∈ document, IsFed beyond e := fun e he => by
      rcases hdocument e he with rfl | hprinted
      · exact declaration_fed
      · exact printed_fed hprinted (hplain e he)
    rcases siblings_fed hfed with ⟨hclean, hcrash⟩ | ⟨nodes, hfeeds, hsame⟩
    · refine iff_of_false ?_ hclean
      rintro ⟨fed, hfeed, -⟩
      rw [hcrash.feed hdepth] at hfeed
      cases hfeed
    · rw [hfeeds.feed hdepth, ← hsame]
      constructor
      · rintro ⟨fed, hfeed, hfed⟩
        obtain rfl := Option.some.inj (Except.ok.inj hfeed)
        exact hfed
      · exact fun h => ⟨nodes, rfl, h⟩
  · refine iff_of_false ?_ fun hclean => hplain fun e he => (hclean e he).plain
    rintro ⟨fed, hfeed, hfed⟩
    refine hplain fun e he => ?_
    have hmem : e.tree ∈ xmlTrees document := by
      rw [xmlTrees_eq]
      exact List.mem_map_of_mem he
    rw [← hfed, xmlTrees_eq] at hmem
    obtain ⟨e', he', heq⟩ := List.mem_map.mp hmem
    rw [← heq]
    exact xmlFeed_plain hfeed e' he'

end RoundTrip

/-- Presence with a note. -/
def presenceWith (note : Str) : SipPidf :=
  ⟨str "urn:ietf:params:xml:ns:pidf", str "sip:a@b", [⟨str "1", none, none, [note], none⟩]⟩

lemma presenceWith_printable {note : Str} (h : NonBlank note) : (presenceWith note).Printable := by
  refine ⟨?_, ?_, fun t ht => ?_⟩
  · exact ⟨117, List.mem_cons_self, by decide⟩
  · exact ⟨115, List.mem_cons_self, by decide⟩
  · rw [List.mem_singleton.mp ht]
    exact ⟨⟨49, List.mem_cons_self, by decide⟩, by simp, by simp, by simpa using h, by simp⟩

/-- Presence with a note that has a `>` and quotes in it. -/
def arrowNote : List XmlElement :=
  protobufCMessageToXml (presenceWith (str "\"out\" -> in")).members

/-- It is read as it was written. -/
theorem xml_text_round_trip_note :
    (∃ fed, xmlFeed 0 (render (some 34) arrowNote) = .ok (some fed) ∧
      xmlTrees fed = xmlTrees arrowNote) ∧
    xmlSeedAt arrowNote 4096 (some 34) =
      (((render (some 34) arrowNote).length : ℤ), render (some 34) arrowNote) := by
  have hdocument : arrowNote =
      [xmlDeclaration, .node .elementNode .shapeOpen (str "presence") none
        [attributeNode .shapeOpen (str "entity") (str "sip:a@b"),
          attributeNode .shapeOpen (str "xmlns") (str "urn:ietf:params:xml:ns:pidf")]
        [.node .elementNode .shapeOpen (str "tuple") none
          [attributeNode .shapeOpen (str "id") (str "1")]
          [.node .elementNode .shapeOpen (str "status") none [] [],
            .node .elementNode .shapeOpen (str "note") none []
              [.node .textNode .shapeSingle [] (some (str "\"out\" -> in")) [] []]]]] := rfl
  have hlength : (render (some 34) arrowNote).length ≤ 4096 := by decide +kernel
  obtain ⟨hfed, hseeded⟩ := xml_text_round_trip 0 arrowNote (toXml_printed
    (SipPidf.members_printable (presenceWith_printable ⟨34, by decide⟩))) (by decide) 4096
    ((xmlSeed_eq _ _ _).trans (if_pos hlength))
  refine ⟨hfed.mpr ?_, hseeded (by omega)⟩
  rw [hdocument]
  simp only [xmlDeclaration, List.forall_mem_cons, List.not_mem_nil, false_imp_iff, implies_true,
    and_true, clean_element, clean_text]
  decide

/-- An element with a text. -/
def noteWith (text : Str) : XmlElement :=
  .node .elementNode .shapeOpen (str "note") none []
    [.node .textNode .shapeSingle [] (some text) [] []]

/-- **The text of a note becomes a tuple.** -/
theorem markup_in_text :
    (noteWith (str "<tuple/>")).Printed ∧
      xmlSeed [noteWith (str "<tuple/>")] 21 (some 34) = some (str "<note><tuple/></note>") ∧
      ∀ beyond, xmlFeed beyond (str "<note><tuple/></note>") =
          .ok (some [.node .elementNode .shapeOpen (str "note") (some []) []
            [.node .elementNode .shapeSingle (str "tuple") (some []) [] []]]) ∧
        ¬ ∃ fed, xmlFeed beyond (str "<note><tuple/></note>") = .ok (some fed) ∧
          xmlTrees fed = xmlTrees [noteWith (str "<tuple/>")] := by
  have hprinted : (noteWith (str "<tuple/>")).Printed :=
    .string (by decide) ⟨by simp, by simp⟩ ⟨60, by decide⟩
  have hfed : ∀ beyond, xmlFeed beyond (str "<note><tuple/></note>") =
      .ok (some [.node .elementNode .shapeOpen (str "note") (some []) []
        [.node .elementNode .shapeSingle (str "tuple") (some []) [] []]]) := fun _ => rfl
  refine ⟨hprinted, rfl, fun beyond => ⟨hfed beyond, ?_⟩⟩
  rintro ⟨fed, hfeed, hsame⟩
  rw [hfed] at hfeed
  obtain rfl := Option.some.inj (Except.ok.inj hfeed)
  simp [noteWith, xmlTrees, XmlElement.tree] at hsame

end SipEcho
