import SipEcho.Xml.Printed

/-!
How the text of a printed tree falls into tokens.

* `xmlAttributeNext_text`: an attribute is read up to the first quote behind its own;
* `attributes_read`: the attributes of an element are read as they are exactly when they are clean;
* `xmlTagFind_name`: a name is looked up behind the index of tags exactly when it is not covered;
* `xmlNext_open`, `xmlNext_close`, `xmlNext_text`: the tokens.
-/

namespace SipEcho

open Lib

/-! ### Attributes -/

section Attributes

variable {name value tail : Str}

/-- The text of an attribute. -/
def attributeText (p : Str × Str) : Str := 32 :: (p.1 ++ 61 :: 34 :: (p.2 ++ [34]))

lemma render_attributes {attributes : List XmlElement} (h : ∀ a ∈ attributes, PrintedAttribute a) :
    render (some 34) attributes = (attributes.map XmlElement.pair).flatMap attributeText := by
  induction attributes with
  | nil => simp [render]
  | cons a attributes ih =>
      obtain ⟨⟨name, value, rfl, -, -⟩, hrest⟩ := List.forall_mem_cons.mp h
      rw [render, ih hrest]
      simp [renderNode, tag, render, attributeNode, quoted, attributeText, XmlElement.pair, str]

/-- The rest of a name is read up to the byte behind it. -/
lemma xmlAttributeLoop_name {cs : Str} (hcs : ∀ c ∈ cs, isAttributeName c = true) :
    xmlAttributeLoop (.nameEnd name) (cs ++ 61 :: tail) =
      xmlAttributeLoop (.contentBegin (name ++ cs)) tail := by
  induction cs generalizing name with
  | nil =>
      rw [List.append_nil, List.nil_append, xmlAttributeLoop, if_neg (by decide), if_pos rfl]
  | cons c cs ih =>
      obtain ⟨hc, hrest⟩ := List.forall_mem_cons.mp hcs
      rw [List.cons_append, xmlAttributeLoop, if_pos hc, ih hrest, List.append_assoc]
      rfl

/-- A value in quotes is read up to the next quote. -/
lemma xmlAttributeLoop_value (hvalue : 34 ∉ value) (htail : tail ≠ []) (content : Str) :
    xmlAttributeLoop (.contentEnd name (some 34) content) (value ++ 34 :: tail) =
      (some (attributeNode .shapeOpen name (content ++ value)), tail) := by
  induction value generalizing content with
  | nil =>
      rw [List.append_nil, List.nil_append, xmlAttributeLoop, if_pos (Or.inl rfl)]
      cases tail with
      | nil => exact absurd rfl htail
      | cons c tail => rfl
  | cons c value ih =>
      rw [List.mem_cons, not_or] at hvalue
      rw [List.cons_append, xmlAttributeLoop, if_neg, ih hvalue.2, List.append_assoc]
      · rfl
      · rintro (rfl | h)
        · exact hvalue.1 rfl
        · simp at h

/-- **An attribute is read**, up to the first quote behind its own. -/
lemma xmlAttributeNext_text (hname : XmlName name) (hbytes : ∀ c ∈ name, isAttributeName c = true)
    (hvalue : 34 ∉ value) (htail : tail ≠ []) :
    xmlAttributeNext (32 :: (name ++ 61 :: 34 :: (value ++ 34 :: tail))) =
      (some (attributeNode .shapeOpen name value), tail) := by
  obtain ⟨c, cs, rfl, hc, -⟩ := hname
  rw [xmlAttributeNext, xmlAttributeLoop, if_neg (by decide), List.cons_append, xmlAttributeLoop,
    if_pos hc, xmlAttributeLoop_name fun d hd => hbytes d (List.mem_cons_of_mem _ hd),
    xmlAttributeLoop, if_neg (by decide), if_pos (Or.inr rfl),
    xmlAttributeLoop_value hvalue htail]
  rfl

end Attributes

section Compile

variable {name value tail : Str} {attributes acc : List XmlElement}

lemma xmlNodeLoop_attribute (hname : XmlName name) (hbytes : ∀ c ∈ name, isAttributeName c = true)
    (hvalue : 34 ∉ value) (htail : tail ≠ []) (fuel : ℕ) :
    xmlNodeLoop (fuel + 1) (32 :: (name ++ 61 :: 34 :: (value ++ 34 :: tail))) acc =
      xmlNodeLoop fuel tail (attributeNode .shapeOpen name value :: acc) := by
  rw [xmlNodeLoop, if_pos (by simp), xmlAttributeNext_text hname hbytes hvalue htail]
  rfl

/-- **Clean attributes are read as they are**, the last one first. -/
lemma xmlNodeLoop_clean (hattributes : ∀ a ∈ attributes, PrintedAttribute a ∧ CleanAttribute a)
    (htail : tail ≠ []) (fuel : ℕ) :
    xmlNodeLoop (fuel + attributes.length)
        ((attributes.map XmlElement.pair).flatMap attributeText ++ tail) acc =
      xmlNodeLoop fuel tail (attributes.reverse ++ acc) := by
  induction attributes generalizing acc with
  | nil => rfl
  | cons a attributes ih =>
      obtain ⟨⟨hprinted, hbytes, hvalue⟩, hrest⟩ := List.forall_mem_cons.mp hattributes
      obtain ⟨name, value, rfl, hname, -⟩ := hprinted
      have hquote : 34 ∉ value := fun h => (hvalue 34 h).2 rfl
      set rest := (attributes.map XmlElement.pair).flatMap attributeText ++ tail with hdef
      have htext : ((attributeNode .shapeOpen name value :: attributes).map
          XmlElement.pair).flatMap attributeText ++ tail =
            32 :: (name ++ 61 :: 34 :: (value ++ 34 :: rest)) := by
        simp [attributeText, hdef, attributeNode, XmlElement.pair]
      rw [htext, List.length_cons, ← Nat.add_assoc,
        xmlNodeLoop_attribute hname hbytes hquote (by simp [hdef, htail]), ih hrest]
      simp

/-- **A quote ends the value of an attribute**, and the rest of the value is not in it. -/
lemma xmlNodeLoop_quote (acc : List XmlElement)
    (hattributes : ∀ a ∈ attributes, PrintedAttribute a ∧ CleanAttribute a)
    (hname : XmlName name) (hbytes : ∀ c ∈ name, isAttributeName c = true) (hvalue : 34 ∉ value)
    (htail : tail ≠ []) (fuel : ℕ) (hfuel : tail.length ≤ fuel + 1) :
    ∃ found, xmlNodeLoop (fuel + 1 + attributes.length)
        ((attributes.map XmlElement.pair).flatMap attributeText ++
          32 :: (name ++ 61 :: 34 :: (value ++ 34 :: tail))) acc = .ok found ∧
      attributeNode .shapeOpen name value ∈ found := by
  rw [xmlNodeLoop_clean hattributes (by simp), xmlNodeLoop_attribute hname hbytes hvalue htail]
  obtain ⟨found, hloop, -⟩ := xmlNodeLoop_returns (P := fun _ => True) fuel tail
    (attributeNode .shapeOpen name value :: (attributes.reverse ++ acc)) hfuel
  exact ⟨_, hloop, by simp⟩

lemma attributeText_length (attributes : List XmlElement) :
    attributes.length ≤ ((attributes.map XmlElement.pair).flatMap attributeText).length := by
  induction attributes with
  | nil => simp
  | cons a attributes ih =>
      rw [List.map_cons, List.flatMap_cons, List.length_append, List.length_cons, attributeText,
        List.length_cons]
      omega

/-- The first attribute that is not clean has a quote in its value. -/
lemma exists_quote (hprinted : ∀ a ∈ attributes, PrintedAttribute a)
    (hplain : ∀ a ∈ attributes, (∀ c ∈ a.pair.1, isAttributeName c = true) ∧
      ∀ c ∈ a.pair.2, Unmarked c) (hclean : ¬ ∀ a ∈ attributes, CleanAttribute a) :
    ∃ before name value rest after,
      attributes = before ++ attributeNode .shapeOpen name (value ++ 34 :: rest) :: after ∧
        XmlName name ∧ 34 ∉ value ∧ ∀ b ∈ before, CleanAttribute b := by
  obtain ⟨a, hfirst⟩ : ∃ a, attributes.find? (fun a => decide (34 ∈ a.pair.2)) = some a := by
    rw [← Option.isSome_iff_exists, List.find?_isSome]
    by_contra hnone
    refine hclean fun a ha => ⟨(hplain a ha).1, fun c hc => ⟨(hplain a ha).2 c hc, ?_⟩⟩
    rintro rfl
    exact hnone ⟨a, ha, by simpa using hc⟩
  obtain ⟨hquote, before, after, rfl, hbefore⟩ := List.find?_eq_some_iff_append.mp hfirst
  obtain ⟨name, content, rfl, hname, -⟩ := hprinted a (by simp)
  have hin : 34 ∈ content := of_decide_eq_true hquote
  obtain ⟨value, rest, rfl, hvalue⟩ := List.eq_append_cons_of_mem hin
  refine ⟨before, name, value, rest, after, rfl, hname, hvalue, fun b hb => ?_⟩
  obtain ⟨hbname, hbvalue⟩ := hplain b (List.mem_append_left _ hb)
  refine ⟨hbname, fun c hc => ⟨hbvalue c hc, ?_⟩⟩
  rintro rfl
  simpa [hc] using hbefore b hb

/-- **The attributes of an element are read as they are** exactly when they are clean. -/
lemma attributes_read (last : UInt8) (hprinted : PrintedAttributes attributes)
    (hplain : ∀ a ∈ attributes, (∀ c ∈ a.pair.1, isAttributeName c = true) ∧
      ∀ c ∈ a.pair.2, Unmarked c) :
    ∃ found, xmlNodeCompile (render (some 34) attributes) last = .ok found ∧
      ((found.map XmlElement.pair).toFinset = (attributes.map XmlElement.pair).toFinset ↔
        ∀ a ∈ attributes, CleanAttribute a) := by
  rw [xmlNodeCompile, render_attributes hprinted.printed]
  by_cases hclean : ∀ a ∈ attributes, CleanAttribute a
  · refine ⟨attributes.reverse, ?_, iff_of_true ?_ hclean⟩
    · obtain ⟨fuel, hfuel⟩ := Nat.exists_eq_add_of_le' (attributeText_length attributes)
      rw [hfuel, xmlNodeLoop_clean (fun a ha => ⟨hprinted.printed a ha, hclean a ha⟩) (by simp),
        List.append_nil]
      cases fuel <;> rfl
    · rw [List.map_reverse, List.toFinset_reverse]
  · obtain ⟨before, name, value, rest, after, rfl, hname, hvalue, hbefore⟩ :=
      exists_quote hprinted.printed hplain hclean
    have hmem : attributeNode .shapeOpen name (value ++ 34 :: rest) ∈
        before ++ attributeNode .shapeOpen name (value ++ 34 :: rest) :: after := by simp
    have hok : ∀ b ∈ before, PrintedAttribute b ∧ CleanAttribute b := fun b hb =>
      ⟨hprinted.printed b (List.mem_append_left _ hb), hbefore b hb⟩
    set texts := ((before ++ attributeNode .shapeOpen name (value ++ 34 :: rest) :: after).map
      XmlElement.pair).flatMap attributeText with htexts
    set tail := rest ++ 34 :: ((after.map XmlElement.pair).flatMap attributeText ++ [last])
      with htail
    have htext : texts ++ [last] = (before.map XmlElement.pair).flatMap attributeText ++
        32 :: (name ++ 61 :: 34 :: (value ++ 34 :: tail)) := by
      simp [attributeText, htexts, htail, attributeNode, XmlElement.pair]
    have hlen := congrArg List.length htext
    have hbeforelen := attributeText_length before
    simp only [List.length_append, List.length_cons, List.length_nil] at hlen
    obtain ⟨fuel, hfuel⟩ : ∃ fuel, texts.length = fuel + 1 + before.length :=
      ⟨texts.length - 1 - before.length, by omega⟩
    have hne : tail ≠ [] := by simp [htail]
    obtain ⟨found, hloop, hfound⟩ := xmlNodeLoop_quote [] hok hname (hplain _ hmem).1 hvalue hne
      fuel (by omega)
    refine ⟨found, by rw [htext, hfuel]; exact hloop, iff_of_false (fun heq => ?_) hclean⟩
    -- another attribute would have the same name
    have hpair : (name, value) ∈ ((before ++ attributeNode .shapeOpen name (value ++ 34 :: rest) ::
        after).map XmlElement.pair).toFinset := by
      rw [← heq, List.mem_toFinset]
      exact List.mem_map.mpr ⟨_, hfound, rfl⟩
    obtain ⟨b, hb, hbpair⟩ := List.mem_map.mp (List.mem_toFinset.mp hpair)
    obtain rfl := List.inj_on_of_nodup_map hprinted.apart hb hmem (by rw [hbpair]; rfl)
    have hsame : value ++ 34 :: rest = value := congrArg Prod.snd hbpair
    simpa using congrArg List.length hsame

end Compile

/-! ### Tokens -/

section Tokens

variable {beyond : ℤ} {closing : Bool} {name content text after : Str} {doc : XmlDocument}

lemma XmlName.ne_nil (h : XmlName name) : name ≠ [] := by
  obtain ⟨c, cs, rfl, -⟩ := h
  simp

lemma XmlName.isName (h : XmlName name) : ∀ c ∈ name, isName c = true := by
  obtain ⟨c, cs, rfl, hc, hcs⟩ := h
  refine List.forall_mem_cons.mpr ⟨by simp [SipEcho.isName, isalnum, hc], fun d hd => ?_⟩
  rcases hcs d hd with h | rfl | rfl | rfl
  · simp [SipEcho.isName, h]
  · decide
  · decide
  · decide

lemma tolower_of_isalpha {c : UInt8} (h : isalpha c = true) :
    97 ≤ (tolower c).toNat ∧ (tolower c).toNat ≤ 122 := by
  simp only [isalpha, decide_eq_true_eq, UInt8.le_iff_toNat_le] at h
  rw [tolower]
  split
  · rename_i hupper
    simp only [UInt8.le_iff_toNat_le] at hupper
    rw [UInt8.toNat_add]
    simp at *
    omega
  · rename_i hupper
    simp only [UInt8.le_iff_toNat_le] at hupper
    simp at *
    omega

/-- **The tag of a name** that begins with a letter: there is none, unless the index is read behind
its end. -/
lemma xmlTagFind_name (h : XmlName name) :
    xmlTagFind beyond name = if Covered beyond name then .ok xmlUnknownTag else .error .crash := by
  obtain ⟨c, cs, rfl, hc, -⟩ := h
  obtain ⟨h1, h2⟩ := tolower_of_isalpha hc
  have hb : tolower c = 98 ↔ (tolower c).toNat = 98 := by
    rw [← UInt8.toNat_inj]
    rfl
  have hcovered : Covered beyond (c :: cs) ↔ ¬ (2 < beyond ∧ (tolower c).toNat = 98) := by
    rw [Covered, List.head?_cons, Option.map_some, ne_eq, Option.some.injEq, hb, not_and]
  rw [xmlTagFind]
  have hneg : ¬ (1 + ((tolower c).toNat : ℤ) - 97 < 0) := by omega
  rw [if_neg hneg]
  by_cases hthree : 3 ≤ 1 + ((tolower c).toNat : ℤ) - 97
  · rw [if_pos hthree, if_pos (hcovered.mpr fun h => by omega)]
    rfl
  · rw [if_neg hthree]
    rcases (by omega : (tolower c).toNat = 97 ∨ (tolower c).toNat = 98) with ht | ht
    · rw [ht, if_pos (hcovered.mpr fun h => by omega)]
      rfl
    · rw [ht]
      show (if (2 : ℤ) < beyond then .error .crash else .ok xmlUnknownTag : Except Fault XmlTag) = _
      by_cases h2 : (2 : ℤ) < beyond
      · rw [if_pos h2, if_neg fun h => hcovered.mp h ⟨h2, ht⟩]
      · rw [if_neg h2, if_pos (hcovered.mpr fun h => h2 h.1)]

/-- An element is read up to its bracket. -/
lemma xmlNextElement_eq (beyond : ℤ) (closing : Bool) (after : Str) (hne : name ≠ [])
    (hname : ∀ c ∈ name, isName c = true)
    (hcontent : ∀ c ∈ content, Unmarked c) (hhead : ∀ c ∈ content.head?, isName c = false) :
    xmlNextElement beyond closing (name ++ (content ++ 62 :: after)) = do
      let tag ← xmlTagFind beyond name
      if closing then return (.element .shapeClose name tag content 62, after)
      else if content.getLast? = some 47 then
        return (.element .shapeSingle name tag content.dropLast 47, after)
      else return (.element .shapeOpen name tag content 62, after) := by
  have hstop : (content ++ 62 :: after).takeWhile isName = [] ∧
      (content ++ 62 :: after).dropWhile isName = content ++ 62 :: after := by
    cases content with
    | nil => exact ⟨rfl, rfl⟩
    | cons c content =>
        have hc := hhead c rfl
        exact ⟨by simp [hc], by simp [hc]⟩
  have htake : (name ++ (content ++ 62 :: after)).takeWhile isName = name := by
    rw [List.takeWhile_append_of_pos hname, hstop.1, List.append_nil]
  have hdrop : (name ++ (content ++ 62 :: after)).dropWhile isName = content ++ 62 :: after := by
    rw [List.dropWhile_append_of_pos hname, hstop.2]
  have hplain : ∀ c ∈ content, decide (c ≠ 60 ∧ c ≠ 62) = true := fun c hc =>
    decide_eq_true (hcontent c hc)
  rw [xmlNextElement]
  dsimp only
  rw [htake, if_neg hne, hdrop, List.takeWhile_append_of_pos hplain,
    List.dropWhile_append_of_pos hplain]
  simp

lemma xmlNext_open (hne : name ≠ []) (hname : ∀ c ∈ name, isName c = true)
    (hfirst : name.head? ≠ some 33) :
    xmlNext beyond (60 :: (name ++ after)) = xmlNextElement beyond false (name ++ after) := by
  obtain ⟨c, cs, rfl⟩ := List.exists_cons_of_ne_nil hne
  have h33 : c ≠ 33 := fun h => hfirst (by rw [h]; rfl)
  have h47 : c ≠ 47 := by
    rintro rfl
    exact absurd (hname 47 List.mem_cons_self) (by decide)
  rw [xmlNext.eq_def]
  have hcomment : ¬ str "!--" <+: c :: cs ++ after := by
    rintro ⟨t, ht⟩
    exact h33 (List.cons.inj ht).1.symm
  simp only [List.takeWhile_cons, if_neg hcomment]
  simp [h47]

lemma xmlNext_close (beyond : ℤ) (after : Str) :
    xmlNext beyond (60 :: 47 :: after) = xmlNextElement beyond true after := by
  rw [xmlNext.eq_def]
  have hcomment : ¬ str "!--" <+: 47 :: after := by
    rintro ⟨t, ht⟩
    exact absurd (List.cons.inj ht).1 (by decide)
  simp only [List.takeWhile_cons, if_neg hcomment]
  simp

lemma xmlNext_text (hne : text ≠ []) (htext : 60 ∉ text) :
    xmlNext beyond (text ++ 60 :: after) = .ok (.text text, 60 :: after) := by
  have hall : ∀ c ∈ text, decide (c ≠ 60) = true := fun c hc => by
    rw [decide_eq_true_eq]
    rintro rfl
    exact htext hc
  have htake : (text ++ 60 :: after).takeWhile (· ≠ 60) = text := by
    rw [List.takeWhile_append_of_pos hall]
    simp
  have hdrop : (text ++ 60 :: after).dropWhile (· ≠ 60) = 60 :: after := by
    rw [List.dropWhile_append_of_pos hall]
    simp
  rw [xmlNext.eq_def]
  dsimp only
  rw [htake, if_pos hne, hdrop]
  rfl

end Tokens

end SipEcho
