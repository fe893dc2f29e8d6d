import SipEcho.Xml.Feed

/-!
What a document says, and what `xml_feed` can make of any text.

* `XmlTree`: what a document says, the attributes of an element as a set;
* `XmlTree.Plain`: the contents have no markup in them, and the names of attributes no digits;
* `xmlFeed_plain`: whatever is fed, the document read is plain.
-/

namespace SipEcho

open Lib

/-! ### What a document says -/

/-- A tree without the accidents of its making. -/
inductive XmlTree where
  | text (content : Str)
  | element (name : Str) (attributes : Finset (Str × Str)) (children : List XmlTree)

/-- The name and the value of an attribute. -/
def XmlElement.pair : XmlElement → Str × Str
  | .node _ _ name content _ _ => (name, content.getD [])

mutual

/-- What a node says; among children there are texts and elements only. -/
def XmlElement.tree : XmlElement → XmlTree
  | .node type _ name content attributes children =>
      if type = .textNode then .text (content.getD [])
      else .element name (attributes.map XmlElement.pair).toFinset (xmlTrees children)

def xmlTrees : List XmlElement → List XmlTree
  | [] => []
  | e :: es => e.tree :: xmlTrees es

end

lemma xmlTrees_eq (l : List XmlElement) : xmlTrees l = l.map XmlElement.tree := by
  induction l with
  | nil => simp [xmlTrees]
  | cons e es ih => simp [xmlTrees, ih]

/-- A byte that is no markup. -/
def Unmarked (c : UInt8) : Prop := c ≠ 60 ∧ c ≠ 62

instance : DecidablePred Unmarked := fun c => inferInstanceAs (Decidable (c ≠ 60 ∧ c ≠ 62))

/-- Bytes checked one by one. -/
lemma forall_mem_of_all {l : Str} {P : UInt8 → Prop} [DecidablePred P]
    (h : l.all (fun c => decide (P c)) = true) : ∀ c ∈ l, P c :=
  fun c hc => of_decide_eq_true (List.all_eq_true.mp h c hc)

/-- The contents have no markup in them, and the names of attributes no digits. -/
inductive XmlTree.Plain : XmlTree → Prop
  | text {content : Str} (h : 60 ∉ content) : Plain (.text content)
  | element {name : Str} {attributes : Finset (Str × Str)} {children : List XmlTree}
      (hattributes : ∀ p ∈ attributes, (∀ c ∈ p.1, isAttributeName c = true) ∧
        ∀ c ∈ p.2, Unmarked c)
      (hchildren : ∀ t ∈ children, Plain t) : Plain (.element name attributes children)

/-! ### What is fed is plain -/

/-- What is read so far is plain. -/
structure XmlDocument.Plain (doc : XmlDocument) : Prop where
  attributes : ∀ o ∈ doc.opened, ∀ a ∈ o.attributes, IsAttributeOf Unmarked a
  inside : ∀ o ∈ doc.opened, ∀ e ∈ o.children, e.tree.Plain
  children : ∀ e ∈ doc.children, e.tree.Plain

section Plain

variable {beyond : ℤ} {doc doc' : XmlDocument} {node : XmlElement} {name : Str}

lemma plain_element {shape : XmlShape} {content : Option Str}
    {attributes children : List XmlElement}
    (hattributes : ∀ a ∈ attributes, IsAttributeOf Unmarked a)
    (hchildren : ∀ e ∈ children, e.tree.Plain) :
    (XmlElement.node .elementNode shape name content attributes children).tree.Plain := by
  rw [XmlElement.tree, if_neg (by simp), xmlTrees_eq]
  refine .element (fun p hp => ?_) fun t ht => ?_
  · obtain ⟨a, ha, rfl⟩ := List.mem_map.mp (List.mem_toFinset.mp hp)
    obtain ⟨shape, name, content, rfl, hname, hcontent⟩ := hattributes a ha
    exact ⟨hname, hcontent⟩
  · obtain ⟨e, he, rfl⟩ := List.mem_map.mp ht
    exact hchildren e he

namespace XmlDocument

lemma Plain.add (h : doc.Plain) (hnode : node.tree.Plain) : (doc.add node).Plain := by
  have snoc : ∀ {l : List XmlElement}, (∀ e ∈ l, e.tree.Plain) → ∀ e ∈ l ++ [node], e.tree.Plain :=
    fun hl e he => by
      rcases List.mem_append.mp he with he | he
      · exact hl e he
      · rw [List.mem_singleton.mp he]
        exact hnode
  obtain ⟨opened, children⟩ := doc
  cases opened with
  | nil => exact ⟨h.attributes, h.inside, snoc h.children⟩
  | cons o os =>
      obtain ⟨hattributes, hrest⟩ := List.forall_mem_cons.mp h.attributes
      obtain ⟨hinside, hinsides⟩ := List.forall_mem_cons.mp h.inside
      exact ⟨List.forall_mem_cons.mpr ⟨hattributes, hrest⟩,
        List.forall_mem_cons.mpr ⟨snoc hinside, hinsides⟩, h.children⟩

lemma Plain.up (h : doc.Plain) : doc.up.Plain := by
  obtain ⟨opened, children⟩ := doc
  cases opened with
  | nil => exact h
  | cons o os =>
      obtain ⟨hattributes, hrest⟩ := List.forall_mem_cons.mp h.attributes
      obtain ⟨hinside, hinsides⟩ := List.forall_mem_cons.mp h.inside
      have hos : ({ opened := os, children } : XmlDocument).Plain := ⟨hrest, hinsides, h.children⟩
      exact hos.add (plain_element hattributes hinside)

lemma Plain.ups (h : doc.Plain) (n : ℕ) : (XmlDocument.up^[n] doc).Plain := by
  induction n generalizing doc with
  | zero => exact h
  | succ n ih => exact ih h.up

lemma Plain.close (h : doc.Plain) (name : Str) : (doc.close name).Plain := by
  rw [XmlDocument.close]
  split
  · exact h
  · exact h.ups _

end XmlDocument

lemma xmlFeedToken_plain (h : doc.Plain) {token : XmlToken} (htoken : token.Plain)
    (hfeed : xmlFeedToken token doc = .ok (some doc')) : doc'.Plain := by
  cases token with
  | empty =>
      obtain rfl := Option.some.inj (Except.ok.inj hfeed)
      exact h
  | text content =>
      rw [xmlFeedToken] at hfeed
      split at hfeed
      · obtain rfl := Option.some.inj (Except.ok.inj hfeed)
        exact h
      · obtain rfl := Option.some.inj (Except.ok.inj hfeed)
        refine h.add ?_
        rw [XmlElement.tree, if_pos rfl]
        exact .text htoken
  | element shape name tag content last =>
      obtain ⟨found, hcompile, hfound⟩ := xmlNodeCompile_spec content last
      have hattributes : ∀ a ∈ found, IsAttributeOf Unmarked a := fun a ha => by
        obtain ⟨shape, name, value, rfl, hname, hvalue⟩ := hfound a ha
        refine ⟨shape, name, value, rfl, hname, fun c hc => ⟨?_, ?_⟩⟩
        · rintro rfl
          exact htoken.1 (hvalue _ hc)
        · rintro rfl
          exact htoken.2 (hvalue _ hc)
      by_cases hclose : shape = .shapeClose
      · subst hclose
        obtain rfl := Option.some.inj (Except.ok.inj hfeed)
        exact h.close name
      · rw [xmlFeedToken] at hfeed
        · split at hfeed
          · cases hfeed
          · rw [hcompile] at hfeed
            have hfeed : (if tag.brace ≠ .none ∧ shape ≠ .shapeSingle then _ else _ :
              Except Fault (Option XmlDocument)) = _ := hfeed
            split at hfeed
            · obtain rfl := Option.some.inj (Except.ok.inj hfeed)
              exact ⟨List.forall_mem_cons.mpr ⟨hattributes, h.attributes⟩,
                List.forall_mem_cons.mpr ⟨by simp, h.inside⟩, h.children⟩
            · obtain rfl := Option.some.inj (Except.ok.inj hfeed)
              exact h.add (plain_element hattributes (by simp))
        · exact hclose

lemma xmlFeedLoop_plain (fuel : ℕ) (bytes : Str) (h : doc.Plain)
    (hfeed : xmlFeedLoop beyond fuel bytes doc = .ok (some doc')) : doc'.Plain := by
  induction fuel generalizing bytes doc with
  | zero =>
      cases bytes with
      | nil =>
          obtain rfl := Option.some.inj (Except.ok.inj hfeed)
          exact h
      | cons c bytes => cases hfeed
  | succ fuel ih =>
      cases bytes with
      | nil =>
          obtain rfl := Option.some.inj (Except.ok.inj hfeed)
          exact h
      | cons c bytes =>
          obtain ⟨⟨token, rest⟩, hnext, hfeed⟩ := ok_of_bind hfeed
          obtain ⟨res, htoken, hfeed⟩ := ok_of_bind hfeed
          cases res with
          | none => cases hfeed
          | some doc₁ => exact ih rest (xmlFeedToken_plain h (xmlNext_plain hnext) htoken) hfeed

/-- **Whatever is fed, the contents that are read have no markup in them.** -/
theorem xmlFeed_plain {bytes : Str} {fed : List XmlElement}
    (hfeed : xmlFeed beyond bytes = .ok (some fed)) : ∀ e ∈ fed, e.tree.Plain := by
  obtain ⟨res, hloop, hfeed⟩ := ok_of_bind hfeed
  obtain ⟨doc, rfl, rfl⟩ := Option.map_eq_some_iff.mp (Except.ok.inj hfeed)
  have hstart : (⟨[], []⟩ : XmlDocument).Plain := ⟨by simp, by simp, by simp⟩
  exact ((xmlFeedLoop_plain _ _ hstart hloop).ups _).children

end Plain

end SipEcho
