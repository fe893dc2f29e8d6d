import SipEcho.Xml.Nodes

/-!
`xml_feed` on a body as it comes from the network, any bytes at all with a NUL behind them.

* `xmlAttributeNextAt`, `xmlNodeCompileAt`: the attributes of an element, by their indices;
* `XmlFeed`, `xmlFeedNext`, `xmlFeedStepAt`, `xmlFeedAt`: the loop of `xml_feed`;
* `XmlReached`, `XmlFeedInv`: the states it comes to, and what holds in them;
* `XmlFeedSafe`: it ends, reads what is there, goes on with every token, makes a tree, and keeps an
  element to go on with;
* `xml_feed_safe`: **this holds exactly when every token can be read**, as far as an `int` counts;
  `xml_feed_letter_b` is a body of three bytes that cannot.
-/

namespace SipEcho

open Lib

/-! ### Attributes -/

/-- What `xml_attribute_next` does with a byte in each of its modes: whether it goes on, and the
mode and the attribute it goes on with. -/
def xmlAttributeByte (bytes : Str) (content : XmlText) (i : ℕ) (a : XmlNode) (c : UInt8) :
    ℕ → Except Fault (Bool × ℕ × XmlNode)
  | 0 =>
      if isalpha c then return (true, 1, { a with name := .inside (content.value + i) 0 })
      else return (true, 0, a)
  | 1 =>
      if isAttributeName c then return (true, 1, a)
      else
        let length := unsigned (content.value + i - a.name.value)
        return (true, if c ≠ 61 then 2 else 3, { a with
          type := .attributeNode
          shape := .shapeSingle
          name := .inside a.name.value length })
  | 2 =>
      if c = 61 then return (true, 3, a)
      else if isalpha c then return (false, 2, a)
      else return (true, 2, a)
  | 3 =>
      let a := { a with shape := .shapeOpen }
      if isspace c then return (true, 3, a)
      else if c = 39 ∨ c = 34 then
        return (true, 4, { a with content := .inside (content.value + i + 1) 0 })
      else return (true, 4, { a with content := .inside (content.value + i) 0 })
  | 4 => do
      let length := unsigned (content.value + i - a.content.value)
      let found := { a with content := .inside a.content.value length }
      let quote ← charBack bytes a.content.value 1
      if quote = 39 ∨ quote = 34 then
        if c = quote ∨ i = content.length then return (true, 5, found) else return (true, 4, a)
      else if isspace c ∨ i = content.length then return (false, 4, found)
      else return (true, 4, a)
  | mode => return (false, mode, a)

/-- One turn of the loop of `xml_attribute_next`. -/
def xmlAttributeTurn (bytes : Str) (content : XmlText) (mode i : ℕ) (a : XmlNode) :
    Except Fault (Bool × ℕ × XmlNode) := do
  let c ← content.at bytes i
  xmlAttributeByte bytes content i a c mode

/-- The loop of `xml_attribute_next`: the attribute, and the offset it returns. -/
def xmlAttributeLoopAt (bytes : Str) (content : XmlText) :
    ℕ → ℕ → ℕ → XmlNode → Except Fault (XmlNode × ℕ)
  | 0, _, _, _ => throw .fuel
  | fuel + 1, mode, i, a =>
      if content.length < i then return (a, content.length)
      else do
        let (go, mode, a) ← xmlAttributeTurn bytes content mode i a
        if go then xmlAttributeLoopAt bytes content fuel mode (unsigned (i + 1)) a
        else return (a, i)

/-- `xml_attribute_next`. -/
def xmlAttributeNextAt (bytes : Str) (content : XmlText) (offset : ℕ) :
    Except Fault (XmlNode × ℕ) :=
  xmlAttributeLoopAt bytes content (content.length + 2) 0 offset {}

/-- The loop of `xml_node_compile`. -/
def xmlNodeLoopAt (mem : ℕ → Bool) (bytes : Str) (element : ℕ) :
    ℕ → ℕ → XmlHeap → Except Fault XmlHeap
  | 0, _, _ => throw .fuel
  | fuel + 1, offset, heap => do
      let node ← heap.node element
      if offset < node.content.length then
        let (attribute_, offset) ← xmlAttributeNextAt bytes node.content offset
        if attribute_.type = .attributeNode then
          let heap ← xmlAttributeAppend mem heap element attribute_
          xmlNodeLoopAt mem bytes element fuel offset heap
        else xmlNodeLoopAt mem bytes element fuel offset heap
      else return heap

/-- `xml_node_compile`. -/
def xmlNodeCompileAt (mem : ℕ → Bool) (bytes : Str) (heap : XmlHeap) (element : ℕ) :
    Except Fault XmlHeap := do
  let node ← heap.node element
  if node.type = .elementNode ∧ node.attribute_ = none ∧ node.content.length ≠ 0 then
    xmlNodeLoopAt mem bytes element (node.content.length + 1) 0 heap
  else return heap

/-! ### The loop -/

/-- Whether a text has a blank at an index. -/
def blankAt (bytes : Str) (text : XmlText) (i : ℕ) : Except Fault Bool := do
  return isspace (← text.at bytes i)

/-- `xml_text_is_empty`. -/
def xmlTextIsEmptyAt (bytes : Str) (text : XmlText) : Except Fault Bool :=
  forInt .crash (blankAt bytes text) text.length 0

/-- `xml_feed` between two tokens: the document at address `0`, the current element, the element
whose text is a comment, and where the next token begins. -/
structure XmlFeed where
  heap : XmlHeap
  root : Option ℕ
  comment : Option ℕ
  begin_ : ℕ
  deriving DecidableEq, Repr

/-- The way up from the current element to one of a name. -/
def xmlFindUp (bytes : Str) (heap : XmlHeap) (name : XmlText) :
    ℕ → Option ℕ → Except Fault (Option ℕ)
  | _, none => return none
  | 0, some _ => throw .fuel
  | fuel + 1, some i => do
      let element ← heap.node i
      if ← xmlTextCmpAt bytes element.name name then return some i
      else xmlFindUp bytes heap name fuel element.parent

/-- What `xml_feed` does with an element that begins, or is single: whether it goes on, or returns
`-1`. -/
def xmlFeedOpen (mem : ℕ → Bool) (bytes : Str) (s : XmlFeed) (node : XmlNode) :
    Except Fault (Bool × XmlFeed) :=
  if s.root = none then return (false, s)
  else do
    let (element, heap) ← xmlElementAppend mem s.heap s.root node
    match element with
    | none => return (false, { s with heap })
    | some element => do
        let heap ← xmlNodeCompileAt mem bytes heap element
        match node.tag with
        | none => throw .crash
        | some tag =>
            if tag.brace ≠ .none ∧ node.shape ≠ .shapeSingle then
              let comment := if tag.block = .comment then some element else none
              return (true, { s with heap, comment, root := some element })
            else return (true, { s with heap })

/-- What `xml_feed` does with an element that ends. -/
def xmlFeedClose (bytes : Str) (s : XmlFeed) (node : XmlNode) : Except Fault (Bool × XmlFeed) := do
  match ← xmlFindUp bytes s.heap node.name s.heap.nodes.length s.root with
  | none => return (true, s)
  | some element => do
      let element ← s.heap.node element
      return (true, { s with root := element.parent })

/-- What `xml_feed` does with a text. -/
def xmlFeedText (mem : ℕ → Bool) (bytes : Str) (s : XmlFeed) (node : XmlNode) :
    Except Fault (Bool × XmlFeed) := do
  if ← xmlTextIsEmptyAt bytes node.content then return (true, s)
  else
    let (_, heap) ← xmlElementAppend mem s.heap s.root node
    return (true, { s with heap })

/-- What `xml_feed` does with what `xml_next` has found. -/
def xmlFeedNode (mem : ℕ → Bool) (bytes : Str) (s : XmlFeed) (node : XmlNode) :
    Except Fault (Bool × XmlFeed) :=
  match node.type, node.shape with
  | .elementNode, .shapeClose => xmlFeedClose bytes s node
  | .elementNode, _ => xmlFeedOpen mem bytes s node
  | .textNode, _ => xmlFeedText mem bytes s node
  | _, _ => return (true, s)

/-- The call of `xml_next`. -/
def xmlFeedNext (ahead : Bool) (bytes : Str) (s : XmlFeed) : Except Fault (XmlNode × ℕ) :=
  match s.comment with
  | none => xmlNextAt ahead bytes none {} s.begin_ bytes.length
  | some comment => do
      let parent ← s.heap.node comment
      xmlNextAt ahead bytes (some parent) { parent := some comment } s.begin_ bytes.length

/-- One turn of the loop of `xml_feed`. -/
def xmlFeedStepAt (mem : ℕ → Bool) (ahead : Bool) (bytes : Str) (s : XmlFeed) :
    Except Fault (Bool × XmlFeed) := do
  let (node, n) ← xmlFeedNext ahead bytes s
  xmlFeedNode mem bytes { s with begin_ := s.begin_ + n, comment := none } node

/-- The loop of `xml_feed`, with what it returns. -/
def xmlFeedLoopAt (mem : ℕ → Bool) (ahead : Bool) (bytes : Str) :
    ℕ → XmlFeed → Except Fault (ℤ × XmlFeed)
  | 0, s => if s.begin_ < bytes.length then throw .fuel else return (0, s)
  | fuel + 1, s =>
      if s.begin_ < bytes.length then do
        let (go, s) ← xmlFeedStepAt mem ahead bytes s
        if go then xmlFeedLoopAt mem ahead bytes fuel s else return (-1, s)
      else return (0, s)

/-- `xml_init`, and where `xml_feed` begins. -/
def xmlFeedInit : XmlFeed := ⟨⟨[{ type := .documentNode }], 0⟩, some 0, none, 0⟩

/-- `xml_feed` of a body into a fresh document. -/
def xmlFeedAt (mem : ℕ → Bool) (ahead : Bool) (bytes : Str) : Except Fault (ℤ × XmlFeed) :=
  xmlFeedLoopAt mem ahead bytes bytes.length xmlFeedInit

/-- The states in which the condition of the loop is tested. -/
inductive XmlReached (mem : ℕ → Bool) (ahead : Bool) (bytes : Str) : XmlFeed → Prop
  | init : XmlReached mem ahead bytes xmlFeedInit
  | step {s s' : XmlFeed} (h : XmlReached mem ahead bytes s) (hmore : s.begin_ < bytes.length)
      (hstep : xmlFeedStepAt mem ahead bytes s = .ok (true, s')) : XmlReached mem ahead bytes s'

/-! ### The attributes are inside -/

variable {mem : ℕ → Bool} {ahead : Bool} {bytes : Str} {v l o mode i : ℕ} {a : XmlNode}

/-- Between two turns of `xml_attribute_next`, which began at the offset `o` of a content. -/
structure AttributeScan (bytes : Str) (v o mode i : ℕ) (a : XmlNode) : Prop where
  fresh : a.Fresh bytes
  level : a.level = 0
  started : mode ≠ 0 → o < i
  name : mode = 1 → a.name.value ≤ v + i
  content : mode = 4 → v < a.content.value ∧ a.content.value ≤ v + i

lemma AttributeScan.init : AttributeScan bytes v o 0 o {} where
  fresh := ⟨rfl, rfl, rfl, rfl, trivial, trivial⟩
  level := rfl
  started := fun h => absurd rfl h
  name := by simp
  content := by simp

/-- **One turn reads inside**, and so does what it finds. -/
lemma xmlAttributeTurn_returns (hl : v + l < bytes.length) (hi : i ≤ l) (ho : o ≤ i)
    (h : AttributeScan bytes v o mode i a) :
    ∃ r, xmlAttributeTurn bytes (.inside v l) mode i a = .ok r ∧
      AttributeScan bytes v o r.2.1 (i + 1) r.2.2 ∧ (r.1 = false → o < i) := by
  obtain ⟨⟨ha, hc, hn, hla, hname, hcontent⟩, hlevel, hstarted, hname1, hcontent4⟩ := h
  have goesOn : ∀ mode' (a' : XmlNode), a'.Fresh bytes → a'.level = 0 →
      (mode' = 1 → a'.name.value ≤ v + (i + 1)) →
      (mode' = 4 → v < a'.content.value ∧ a'.content.value ≤ v + (i + 1)) →
      AttributeScan bytes v o mode' (i + 1) a' := fun mode' a' hfresh hlevel hname hcontent =>
    ⟨hfresh, hlevel, fun _ => by omega, hname, hcontent⟩
  have same : a.Fresh bytes := ⟨ha, hc, hn, hla, hname, hcontent⟩
  rw [xmlAttributeTurn, XmlText.at, charAt_eq (by omega)]
  generalize bytes.getD (v + i) 0 = c
  simp only [bind, Except.bind]
  obtain rfl | rfl | rfl | rfl | rfl | ⟨mode, rfl⟩ : mode = 0 ∨ mode = 1 ∨ mode = 2 ∨ mode = 3 ∨
      mode = 4 ∨ ∃ n, mode = n + 5 := by
    rcases Nat.lt_or_ge mode 5 with hlt | hge
    · omega
    · exact .inr (.inr (.inr (.inr (.inr (Nat.exists_eq_add_of_le' hge)))))
  · rw [xmlAttributeByte]
    split_ifs
    · refine ⟨_, rfl, goesOn 1 _ ⟨ha, hc, hn, hla, ?_, hcontent⟩ hlevel (fun _ => ?_) (by simp),
        by simp⟩
      · show v + i + 0 ≤ bytes.length
        omega
      · show v + i ≤ v + (i + 1)
        omega
    · exact ⟨_, rfl, ⟨same, hlevel, by simp, by simp, by simp⟩, by simp⟩
  · rw [xmlAttributeByte]
    have hle := hname1 rfl
    have hlength := unsigned_le (v + i - a.name.value)
    have hend : (XmlText.inside a.name.value (unsigned (v + i - a.name.value))).Inside bytes := by
      show a.name.value + unsigned (v + i - a.name.value) ≤ bytes.length
      omega
    split_ifs
    · exact ⟨_, rfl, goesOn 1 _ same hlevel (fun _ => hle.trans (by omega)) (by simp), by simp⟩
    · exact ⟨_, rfl, goesOn 2 _ ⟨ha, hc, hn, hla, hend, hcontent⟩ hlevel (by simp) (by simp),
        by simp⟩
    · exact ⟨_, rfl, goesOn 3 _ ⟨ha, hc, hn, hla, hend, hcontent⟩ hlevel (by simp) (by simp),
        by simp⟩
  · rw [xmlAttributeByte]
    split_ifs
    · exact ⟨_, rfl, goesOn 3 _ same hlevel (by simp) (by simp), by simp⟩
    · exact ⟨_, rfl, goesOn 2 _ same hlevel (by simp) (by simp), fun _ => hstarted (by simp)⟩
    · exact ⟨_, rfl, goesOn 2 _ same hlevel (by simp) (by simp), by simp⟩
  · rw [xmlAttributeByte]
    have hlt := hstarted (by simp)
    split_ifs
    · exact ⟨_, rfl, goesOn 3 _ ⟨ha, hc, hn, hla, hname, hcontent⟩ hlevel (by simp) (by simp),
        by simp⟩
    · refine ⟨_, rfl, goesOn 4 _ ⟨ha, hc, hn, hla, hname, ?_⟩ hlevel (by simp) fun _ => ?_,
        by simp⟩
      · show v + i + 1 + 0 ≤ bytes.length
        omega
      · show v < v + i + 1 ∧ v + i + 1 ≤ v + (i + 1)
        omega
    · refine ⟨_, rfl, goesOn 4 _ ⟨ha, hc, hn, hla, hname, ?_⟩ hlevel (by simp) fun _ => ?_,
        by simp⟩
      · show v + i + 0 ≤ bytes.length
        omega
      · show v < v + i ∧ v + i ≤ v + (i + 1)
        omega
  · rw [xmlAttributeByte]
    obtain ⟨hlo, hhi⟩ := hcontent4 rfl
    have hlength := unsigned_le (v + i - a.content.value)
    have hend : (XmlText.inside a.content.value (unsigned (v + i - a.content.value))).Inside
        bytes := by
      show a.content.value + unsigned (v + i - a.content.value) ≤ bytes.length
      omega
    have found : XmlNode.Fresh bytes
        { a with content := .inside a.content.value (unsigned (v + i - a.content.value)) } :=
      ⟨ha, hc, hn, hla, hname, hend⟩
    have hstay : v < a.content.value ∧ a.content.value ≤ v + (i + 1) := by omega
    rw [charBack_eq (by omega), charAt_eq (by omega)]
    simp only [bind, Except.bind]
    split_ifs with hquote hlast hlast
    · exact ⟨_, rfl, goesOn 5 _ found hlevel (by simp) (by simp), by simp⟩
    · exact ⟨_, rfl, goesOn 4 _ same hlevel (by simp) fun _ => hstay, by simp⟩
    · exact ⟨_, rfl, goesOn 4 _ found hlevel (by simp) fun _ => hstay,
        fun _ => hstarted (by simp)⟩
    · exact ⟨_, rfl, goesOn 4 _ same hlevel (by simp) fun _ => hstay, by simp⟩
  · exact ⟨_, rfl, goesOn _ _ same hlevel (by simp) (by simp), fun _ => hstarted (by simp)⟩

/-- **`xml_attribute_next` goes on, and stays inside** the content and the byte behind it. -/
lemma xmlAttributeLoopAt_returns (hl : v + l < bytes.length) (hint : l < 2 ^ 32 - 1) (ho : o < l)
    {fuel : ℕ} (hi : i ≤ l + 1) (hoi : o ≤ i) (hfuel : l + 1 < fuel + i)
    (h : AttributeScan bytes v o mode i a) :
    ∃ r, xmlAttributeLoopAt bytes (.inside v l) fuel mode i a = .ok r ∧ r.1.Fresh bytes ∧
      r.1.level = 0 ∧ o < r.2 ∧ r.2 ≤ l := by
  induction fuel generalizing mode i a with
  | zero => omega
  | succ fuel ih =>
      rw [xmlAttributeLoopAt]
      by_cases hend : l < i
      · rw [if_pos (show (XmlText.inside v l).length < i from hend)]
        exact ⟨_, rfl, h.fresh, h.level, ho, le_rfl⟩
      · rw [if_neg (show ¬ (XmlText.inside v l).length < i from hend)]
        obtain ⟨⟨go, mode', a'⟩, hturn, hscan, hstop⟩ :=
          xmlAttributeTurn_returns hl (by omega) hoi h
        rw [hturn]
        simp only [bind, Except.bind]
        cases go with
        | false => exact ⟨_, rfl, hscan.fresh, hscan.level, hstop rfl, by show i ≤ l; omega⟩
        | true =>
            have hnext : unsigned (i + 1) = i + 1 := Nat.mod_eq_of_lt (by omega)
            rw [if_pos rfl, hnext]
            exact ih (by omega) (by omega) (by omega) hscan

/-- **`xml_node_compile` ends**, and keeps the tree. -/
lemma xmlNodeLoopAt_returns (mem : ℕ → Bool) {heap : XmlHeap} {element fuel : ℕ} {n : XmlNode}
    (hl : v + l < bytes.length) (hint : l < 2 ^ 32 - 1) (h : NodeTree bytes heap.nodes)
    (hn : heap.nodes[element]? = some n) (hinner : n.Inner) (hcontent : n.content = .inside v l)
    (ho : o ≤ l) (hfuel : l < fuel + o) :
    ∃ heap', xmlNodeLoopAt mem bytes element fuel o heap = .ok heap' ∧ NodeTree bytes heap'.nodes ∧
      Grows heap.nodes heap'.nodes := by
  induction fuel generalizing heap n o with
  | zero => omega
  | succ fuel ih =>
      rw [xmlNodeLoopAt, XmlHeap.node_eq hn]
      simp only [bind, Except.bind, hcontent]
      by_cases hmore : o < l
      · rw [if_pos (show o < (XmlText.inside v l).length from hmore)]
        obtain ⟨⟨a, o'⟩, hloop, hfresh, hlevel, hlt, hle⟩ :=
          xmlAttributeLoopAt_returns hl hint hmore (show o ≤ l + 1 by omega) le_rfl
            (show l + 1 < l + 2 + o by omega) .init
        rw [show xmlAttributeNextAt bytes (.inside v l) o = .ok (a, o') from hloop]
        dsimp only
        split_ifs with htype
        · obtain ⟨heap', happend, htree, hgrows⟩ :=
            xmlAttributeAppend_returns mem h hn hinner hfresh hlevel htype
          obtain ⟨n', hn', hcore⟩ := hgrows element n hn
          obtain ⟨htype', -, -, -, hcontent'⟩ := core_eq hcore
          obtain ⟨heap'', hrest, htree', hgrows'⟩ := ih htree hn'
            (by rw [XmlNode.Inner, htype']; exact hinner) (hcontent'.trans hcontent) hle (by omega)
          rw [happend]
          exact ⟨heap'', hrest, htree', hgrows.trans hgrows'⟩
        · exact ih h hn hinner hcontent hle (by omega)
      · rw [if_neg (show ¬ o < (XmlText.inside v l).length from hmore)]
        exact ⟨heap, rfl, h, .refl _⟩

lemma xmlNodeCompileAt_returns (mem : ℕ → Bool) {heap : XmlHeap} {element : ℕ} {n : XmlNode}
    (hl : v + l < bytes.length) (hint : l < 2 ^ 32 - 1) (h : NodeTree bytes heap.nodes)
    (hn : heap.nodes[element]? = some n) (hinner : n.Inner) (hcontent : n.content = .inside v l) :
    ∃ heap', xmlNodeCompileAt mem bytes heap element = .ok heap' ∧ NodeTree bytes heap'.nodes ∧
      Grows heap.nodes heap'.nodes := by
  rw [xmlNodeCompileAt, XmlHeap.node_eq hn]
  simp only [bind, Except.bind]
  split_ifs
  · rw [hcontent]
    exact xmlNodeLoopAt_returns mem hl hint h hn hinner hcontent (Nat.zero_le l)
      (show l < l + 1 + 0 by omega)
  · exact ⟨heap, rfl, h, .refl _⟩

/-! ### The current element is not lost -/

/-- There is an element to go on with. -/
def HasRoot (nodes : List XmlNode) (root : Option ℕ) : Prop :=
  ∃ r m, root = some r ∧ nodes[r]? = some m ∧ m.Inner

lemma HasRoot.grows {nodes nodes' : List XmlNode} {root : Option ℕ} (h : HasRoot nodes root)
    (hgrows : Grows nodes nodes') : HasRoot nodes' root := by
  obtain ⟨r, m, hr, hm, hinner⟩ := h
  obtain ⟨m', hm', hcore⟩ := hgrows r m hm
  refine ⟨r, m', hr, hm', ?_⟩
  rw [XmlNode.Inner, (core_eq hcore).1]
  exact hinner

/-- What holds whenever the condition of the loop is tested. -/
structure XmlFeedInv (bytes : Str) (s : XmlFeed) : Prop where
  tree : NodeTree bytes s.heap.nodes
  root : HasRoot s.heap.nodes s.root
  comment : s.comment = none

variable {s : XmlFeed} {node : XmlNode} {p n k m : ℕ}

/-- The way up ends, and what it finds is not the document, whose name is empty. -/
lemma xmlFindUp_returns {heap : XmlHeap} (h : NodeTree bytes heap.nodes)
    (hinside : v + k ≤ bytes.length) (hk : 0 < k) (hint : k < 2 ^ 31) {fuel r : ℕ}
    (hr : r < heap.nodes.length) (hfuel : r < fuel) :
    ∃ found, xmlFindUp bytes heap (.inside v k) fuel (some r) = .ok found ∧
      ∀ e, found = some e → 0 < e ∧ e < heap.nodes.length := by
  induction fuel generalizing r with
  | zero => omega
  | succ fuel ih =>
      obtain ⟨n, hn⟩ : ∃ n, heap.nodes[r]? = some n := ⟨_, List.getElem?_eq_getElem hr⟩
      obtain ⟨same, hsame, hlength⟩ := xmlTextCmpAt_returns (a := n.name) (b := .inside v k)
        (h.inside r n hn).1 hinside fun h => by rw [h]; exact hint
      have hdocument : r = 0 → same = false := by
        rintro rfl
        obtain ⟨d, hd, -, -, -, hname⟩ := h.document
        obtain rfl := Option.some.inj (hn.symm.trans hd)
        by_contra htrue
        have : 0 = k := by
          have := hlength (by simpa using htrue)
          rwa [hname] at this
        omega
      rw [xmlFindUp, XmlHeap.node_eq hn]
      simp only [bind, Except.bind, hsame]
      cases same with
      | true =>
          have hpos : 0 < r := Nat.pos_of_ne_zero fun h => Bool.noConfusion (hdocument h)
          refine ⟨some r, rfl, fun e he => ?_⟩
          obtain rfl := Option.some.inj he
          exact ⟨hpos, hr⟩
      | false =>
          rcases Nat.eq_zero_or_pos r with rfl | hpos
          · obtain ⟨d, hd, -, hparent, -⟩ := h.document
            obtain rfl := Option.some.inj (hn.symm.trans hd)
            refine ⟨none, ?_, by simp⟩
            rw [hparent]
            cases fuel <;> rfl
          · obtain ⟨q, -, hparent, hlt, -⟩ := h.parent r n hn hpos
            rw [hparent]
            exact ih (by omega) (by omega)

/-- **An end tag leaves an element to go on with.** -/
lemma xmlFeedClose_returns (h : XmlFeedInv bytes s) (hinside : v + k ≤ bytes.length) (hk : 0 < k)
    (hint : k < 2 ^ 31) (hname : node.name = .inside v k) :
    ∃ r, xmlFeedClose bytes s node = .ok r ∧ XmlFeedInv bytes r.2 ∧ r.2.begin_ = s.begin_ := by
  obtain ⟨r, m, hroot, hm, hinner⟩ := h.root
  have hr := (List.getElem?_eq_some_iff.mp hm).1
  obtain ⟨found, hfind, hfound⟩ := xmlFindUp_returns h.tree hinside hk hint hr hr
  rw [xmlFeedClose, hname, hroot, hfind]
  cases found with
  | none => exact ⟨_, rfl, h, rfl⟩
  | some e =>
      obtain ⟨hpos, he⟩ := hfound e rfl
      obtain ⟨n, hn⟩ : ∃ n, s.heap.nodes[e]? = some n := ⟨_, List.getElem?_eq_getElem he⟩
      obtain ⟨q, m', hparent, -, hm', hinner', -⟩ := h.tree.parent e n hn hpos
      simp only [bind, Except.bind, XmlHeap.node_eq hn]
      exact ⟨_, rfl, ⟨h.tree, ⟨q, m', hparent, hm', hinner'⟩, h.comment⟩, rfl⟩

/-- An element that begins or is single becomes a node. -/
lemma xmlFeedOpen_returns (mem : ℕ → Bool) (h : XmlFeedInv bytes s) (hfresh : node.Fresh bytes)
    (htype : node.type = .elementNode) (hcontent : node.content = .inside v l)
    (hl : v + l < bytes.length) (hint : l < 2 ^ 32 - 1) {tag : XmlBlockTag}
    (htag : node.tag = some tag) (hfollow : tag.brace ≠ .none → tag.block = .follow) :
    ∃ r, xmlFeedOpen mem bytes s node = .ok r ∧ XmlFeedInv bytes r.2 ∧ r.2.begin_ = s.begin_ := by
  obtain ⟨r, m, hroot, hm, hinner⟩ := h.root
  obtain ⟨⟨element, heap⟩, happend, htree, hgrows, helement⟩ :=
    xmlElementAppend_returns mem h.tree hm hinner hfresh (.inl htype)
  have hhas : HasRoot s.heap.nodes (some r) := ⟨r, m, rfl, hm, hinner⟩
  rw [xmlFeedOpen, hroot, if_neg (by simp), happend]
  cases element with
  | none => exact ⟨_, rfl, ⟨htree, hhas.grows hgrows, h.comment⟩, rfl⟩
  | some element =>
      obtain ⟨n, hn, hntype, hncontent⟩ := helement element rfl
      obtain ⟨heap', hcompile, htree', hgrows'⟩ := xmlNodeCompileAt_returns mem hl hint
        htree hn (.inr (hntype.trans htype)) (hncontent.trans hcontent)
      simp only [bind, Except.bind, hcompile, htag]
      split_ifs with hbrace hblock
      · rw [hfollow hbrace.1] at hblock
        exact XmlBlock.noConfusion hblock
      · have hnew : HasRoot heap.nodes (some element) :=
          ⟨element, n, rfl, hn, .inr (hntype.trans htype)⟩
        exact ⟨_, rfl, ⟨htree', hnew.grows hgrows', rfl⟩, rfl⟩
      · exact ⟨_, rfl, ⟨htree', hhas.grows (hgrows.trans hgrows'), h.comment⟩, rfl⟩

/-- A text becomes a node, unless it is blank. -/
lemma xmlFeedText_returns (mem : ℕ → Bool) (h : XmlFeedInv bytes s) (hfresh : node.Fresh bytes)
    (htype : node.type = .textNode) (hint : node.content.length < 2 ^ 31) :
    ∃ r, xmlFeedText mem bytes s node = .ok r ∧ XmlFeedInv bytes r.2 ∧ r.2.begin_ = s.begin_ := by
  obtain ⟨c, hc⟩ := XmlText.at_eq hfresh.inside.2
  obtain ⟨blank, hblank, -⟩ := forInt_returns Fault.crash
    (show 0 + node.content.length < 2 ^ 31 by omega) fun j _ hj =>
      show ∃ r, blankAt bytes node.content j = .ok r from
        ⟨isspace (c j), by rw [blankAt, hc j (by omega)]; rfl⟩
  rw [xmlFeedText, show xmlTextIsEmptyAt bytes node.content = .ok blank from hblank]
  cases blank with
  | true => exact ⟨_, rfl, h, rfl⟩
  | false =>
      obtain ⟨r, m, hroot, hm, hinner⟩ := h.root
      obtain ⟨⟨element, heap⟩, happend, htree, hgrows, -⟩ :=
        xmlElementAppend_returns mem h.tree hm hinner hfresh (.inr htype)
      rw [hroot]
      simp only [bind, Except.bind, happend]
      exact ⟨_, rfl, ⟨htree, hroot ▸ h.root.grows hgrows, h.comment⟩, rfl⟩

/-! ### Runs -/

/-- A token comes without links, and its texts lie in the body. -/
lemma XmlTokenAt.fresh (h : XmlTokenAt bytes p node n) (htype : node.type ≠ .emptyNode) :
    node.Fresh bytes := by
  cases h with
  | empty hempty => exact absurd hempty htype
  | text hpos hle =>
      have := unsigned_le n
      refine ⟨rfl, rfl, rfl, rfl, trivial, ?_⟩
      show p + unsigned n ≤ bytes.length
      omega
  | @element shape tag v k l m n hv hk hend hle hm =>
      have := unsigned_le k
      refine ⟨rfl, rfl, rfl, rfl, ?_, ?_⟩
      · show v + unsigned k ≤ bytes.length
        omega
      · show v + k + m ≤ bytes.length
        omega

/-- **What `xml_feed` does with a token**, when an `int` counts its bytes. -/
lemma xmlFeedNode_returns (mem : ℕ → Bool) (h : XmlFeedInv bytes s)
    (htoken : XmlTokenAt bytes p node n) (hnarrow : XmlNarrow bytes p) :
    ∃ r, xmlFeedNode mem bytes s node = .ok r ∧ XmlFeedInv bytes r.2 ∧ r.2.begin_ = s.begin_ := by
  obtain ⟨q, hpq, hq, hstop⟩ := hnarrow
  have hfresh := htoken.fresh
  cases htoken with
  | empty htype =>
      refine ⟨(true, s), ?_, h, rfl⟩
      rw [xmlFeedNode.eq_def, htype]
      rfl
  | text hpos hle htext =>
      have hn := htext q hpq hstop
      exact xmlFeedText_returns mem h (hfresh (by simp)) rfl (by
        show unsigned n < 2 ^ 31
        have := unsigned_le n
        omega)
  | @element shape tag v k l m n hv hk hend hle hm htag hfollow =>
      have hn := htag q hpq hstop
      have hk' : unsigned k = k := unsigned_of_lt (by omega)
      have hopen := xmlFeedOpen_returns mem h (hfresh (by simp)) rfl rfl
        (show v + k + m < bytes.length by omega) (show m < 2 ^ 32 - 1 by omega) rfl hfollow
      cases shape with
      | shapeClose =>
          exact xmlFeedClose_returns h (show v + k ≤ bytes.length by omega) hk (by omega) (by
            show XmlText.inside v (unsigned k) = .inside v k
            rw [hk'])
      | shapeOpen => exact hopen
      | shapeSingle => exact hopen

lemma XmlTokenAt.consumes (h : XmlTokenAt bytes p node n) : 0 < n ∧ p + n ≤ bytes.length := by
  cases h with
  | empty _ hpos hle => exact ⟨hpos, hle⟩
  | text hpos hle => exact ⟨hpos, hle⟩
  | element hv hk hend hle => exact ⟨by omega, hle⟩

/-- No comment is ever read as the text of an element: no tag that the table has and that has an end
begins one. -/
lemma xmlFeedNode_comment {r : Bool × XmlFeed} (hcomment : s.comment = none)
    (htoken : XmlTokenAt bytes p node n) (hnode : xmlFeedNode mem bytes s node = .ok r) :
    r.2.comment = none := by
  cases htoken with
  | empty htype =>
      rw [xmlFeedNode.eq_def, htype] at hnode
      exact Except.ok.inj hnode ▸ hcomment
  | text =>
      obtain ⟨blank, -, hnode⟩ := ok_of_bind (show xmlFeedText mem bytes s _ = .ok r from hnode)
      split at hnode
      · exact Except.ok.inj hnode ▸ hcomment
      · obtain ⟨⟨_, heap⟩, -, hnode⟩ := ok_of_bind hnode
        exact Except.ok.inj hnode ▸ hcomment
  | @element shape tag v k l m n hv hk hend hle hm hstop hfollow =>
      have hopen : ∀ node : XmlNode, node.tag = some tag →
          xmlFeedOpen mem bytes s node = .ok r → r.2.comment = none := fun node htag hnode => by
        rw [xmlFeedOpen] at hnode
        split at hnode
        · exact Except.ok.inj hnode ▸ hcomment
        · obtain ⟨⟨element, heap⟩, -, hnode⟩ := ok_of_bind hnode
          cases element with
          | none => exact Except.ok.inj hnode ▸ hcomment
          | some element =>
              obtain ⟨heap', -, hnode⟩ := ok_of_bind hnode
              simp only [htag] at hnode
              split_ifs at hnode with hbrace hblock
              · rw [hfollow hbrace.1] at hblock
                exact XmlBlock.noConfusion hblock
              · exact Except.ok.inj hnode ▸ rfl
              · exact Except.ok.inj hnode ▸ hcomment
      cases shape with
      | shapeClose =>
          obtain ⟨found, -, hnode⟩ := ok_of_bind (show xmlFeedClose bytes s _ = .ok r from hnode)
          cases found with
          | none => exact Except.ok.inj hnode ▸ hcomment
          | some e =>
              obtain ⟨element, -, hnode⟩ := ok_of_bind hnode
              exact Except.ok.inj hnode ▸ hcomment
      | shapeOpen => exact hopen _ rfl hnode
      | shapeSingle => exact hopen _ rfl hnode

/-- In every state that is reached the next call of `xml_next` has no comment to look for. -/
lemma XmlReached.comment (h : XmlReached mem ahead bytes s) : s.comment = none := by
  induction h with
  | init => rfl
  | step _ hmore hstep ih =>
      obtain ⟨⟨node, n⟩, hnext, hnode⟩ := ok_of_bind hstep
      rw [xmlFeedNext, ih] at hnext
      obtain ⟨-, htoken⟩ := (xmlNextAt_returns ahead hmore).of_eq hnext
      exact xmlFeedNode_comment rfl htoken hnode

lemma NodeTree.init : NodeTree bytes xmlFeedInit.heap.nodes := by
  have hone : ∀ i n, xmlFeedInit.heap.nodes[i]? = some n →
      i = 0 ∧ n = { type := .documentNode } := fun i n hn => by
    rcases i with _ | i
    · exact ⟨rfl, (Option.some.inj hn).symm⟩
    · exact absurd hn (by simp [xmlFeedInit])
  have hempty : ∀ a p, under xmlFeedInit.heap.nodes a p = [] := fun a p => by
    simp [under, xmlFeedInit]
  refine { document := ⟨_, rfl, rfl, rfl, rfl, rfl⟩, type := ?_, parent := ?_, level := ?_,
           inside := ?_, next := rfl, children := ?_, last := ?_, attributes := ?_ }
  · intro i n hn hi
    exact absurd (hone i n hn).1 (by omega)
  · intro i n hn hi
    exact absurd (hone i n hn).1 (by omega)
  · intro i n hn
    rw [(hone i n hn).2]
    exact Nat.zero_le _
  · intro i n hn
    rw [(hone i n hn).2]
    exact ⟨trivial, trivial⟩
  · intro p m hm
    rw [(hone p m hm).2, hempty]
    rfl
  · intro p m hm
    rw [(hone p m hm).2, hempty]
    rfl
  · intro p m hm
    rw [(hone p m hm).2, hempty]
    rfl

lemma XmlFeedInv.init : XmlFeedInv bytes xmlFeedInit where
  tree := .init
  root := ⟨0, _, rfl, rfl, .inl rfl⟩
  comment := rfl

/-- **One turn of the loop** over a token that can be read. -/
lemma xmlFeedStepAt_returns (mem : ℕ → Bool) (h : XmlFeedInv bytes s)
    (hmore : s.begin_ < bytes.length) (hread : XmlReadable ahead bytes s.begin_)
    (hnarrow : XmlNarrow bytes s.begin_) :
    ∃ r, xmlFeedStepAt mem ahead bytes s = .ok r ∧ XmlFeedInv bytes r.2 ∧
      s.begin_ < r.2.begin_ ∧ r.2.begin_ ≤ bytes.length := by
  obtain ⟨⟨node, n⟩, hnext, htoken⟩ := (xmlNextAt_returns ahead hmore).exists hread
  have hs : XmlFeedInv bytes { s with begin_ := s.begin_ + n, comment := none } :=
    ⟨h.tree, h.root, rfl⟩
  obtain ⟨r, hnode, hinv, hbegin⟩ := xmlFeedNode_returns mem hs htoken hnarrow
  obtain ⟨hpos, hle⟩ := htoken.consumes
  refine ⟨r, ?_, hinv, ?_, ?_⟩
  · rw [xmlFeedStepAt, xmlFeedNext, h.comment, hnext]
    exact hnode
  · rw [hbegin]
    show s.begin_ < s.begin_ + n
    omega
  · rw [hbegin]
    exact hle

/-- The elements from one up to the document. -/
inductive Above (nodes : List XmlNode) : Option ℕ → ℕ → Prop
  | self (i : ℕ) : Above nodes (some i) i
  | parent {i j : ℕ} {n : XmlNode} (hn : nodes[i]? = some n) (h : Above nodes n.parent j) :
      Above nodes (some i) j

/-- The way up finds nothing when no element on it has the name. -/
lemma xmlFindUp_none {heap : XmlHeap} {name : XmlText} {fuel : ℕ} {root found : Option ℕ}
    (hfind : xmlFindUp bytes heap name fuel root = .ok found)
    (hother : ∀ i m, Above heap.nodes root i → heap.nodes[i]? = some m →
      xmlTextCmpAt bytes m.name name = .ok false) : found = none := by
  induction fuel generalizing root with
  | zero =>
      cases root with
      | none => exact (Except.ok.inj hfind).symm
      | some i =>
          have hfuel : (.error .fuel : Except Fault (Option ℕ)) = .ok found := hfind
          cases hfuel
  | succ fuel ih =>
      cases root with
      | none => exact (Except.ok.inj hfind).symm
      | some i =>
          rw [xmlFindUp] at hfind
          obtain ⟨n, hn, hfind⟩ := ok_of_bind hfind
          have hn : heap.nodes[i]? = some n := by
            rw [XmlHeap.node] at hn
            split at hn
            · rename_i m hm
              rw [hm, Except.ok.inj hn]
            · have hcrash : (.error .crash : Except Fault XmlNode) = .ok n := hn
              cases hcrash
          rw [hother i n (.self i) hn] at hfind
          exact ih hfind fun j m hj hm => hother j m (.parent hn hj) hm

/-- **`xml_feed` is safe on a body**: it ends, having read only what is there; every call of
`xml_next` consumes something, and not more than is left; what it has made is always a tree, with an
element to go on with; and an end tag of no element that is open changes nothing. -/
structure XmlFeedSafe (mem : ℕ → Bool) (ahead : Bool) (bytes : Str) : Prop where
  ends : ∃ r, xmlFeedAt mem ahead bytes = .ok r ∧ NodeTree bytes r.2.heap.nodes
  consumes : ∀ s, XmlReached mem ahead bytes s → s.begin_ < bytes.length →
    ∃ node n, xmlFeedNext ahead bytes s = .ok (node, n) ∧ 1 ≤ n ∧ n ≤ bytes.length - s.begin_
  tree : ∀ s, XmlReached mem ahead bytes s →
    NodeTree bytes s.heap.nodes ∧ HasRoot s.heap.nodes s.root
  ignores : ∀ s node n, XmlReached mem ahead bytes s → s.begin_ < bytes.length →
    xmlFeedNext ahead bytes s = .ok (node, n) →
    node.type = .elementNode → node.shape = .shapeClose →
    (∀ i m, Above s.heap.nodes s.root i → s.heap.nodes[i]? = some m →
      xmlTextCmpAt bytes m.name node.name = .ok false) →
    xmlFeedStepAt mem ahead bytes s = .ok (true, { s with begin_ := s.begin_ + n })

/-- The tokens that `xml_feed` comes to can be read, and are not longer than an `int` counts. -/
def XmlFeedable (mem : ℕ → Bool) (ahead : Bool) (bytes : Str) : Prop :=
  ∀ s, XmlReached mem ahead bytes s → s.begin_ < bytes.length →
    XmlReadable ahead bytes s.begin_ ∧ XmlNarrow bytes s.begin_

lemma XmlReached.inv (hfeed : XmlFeedable mem ahead bytes) (h : XmlReached mem ahead bytes s) :
    XmlFeedInv bytes s := by
  induction h with
  | init => exact .init
  | step h hmore hstep ih =>
      obtain ⟨hread, hnarrow⟩ := hfeed _ h hmore
      obtain ⟨r, hr, hinv, -⟩ := xmlFeedStepAt_returns mem ih hmore hread hnarrow
      rw [hstep] at hr
      obtain rfl := Except.ok.inj hr
      exact hinv

/-- The loop ends, since every token takes something off what is left. -/
lemma xmlFeedLoopAt_returns (hfeed : XmlFeedable mem ahead bytes) {fuel : ℕ}
    (h : XmlReached mem ahead bytes s) (hfuel : bytes.length ≤ fuel + s.begin_) :
    ∃ r, xmlFeedLoopAt mem ahead bytes fuel s = .ok r ∧ NodeTree bytes r.2.heap.nodes := by
  induction fuel generalizing s with
  | zero =>
      rw [xmlFeedLoopAt, if_neg (by omega)]
      exact ⟨_, rfl, (h.inv hfeed).tree⟩
  | succ fuel ih =>
      rw [xmlFeedLoopAt]
      split_ifs with hmore
      · obtain ⟨hread, hnarrow⟩ := hfeed s h hmore
        obtain ⟨⟨go, s'⟩, hstep, hinv, hlt, hle⟩ :=
          xmlFeedStepAt_returns mem (h.inv hfeed) hmore hread hnarrow
        rw [hstep]
        cases go with
        | false => exact ⟨_, rfl, hinv.tree⟩
        | true => exact ih (h.step hmore hstep) (show bytes.length ≤ fuel + s'.begin_ by
            have : s.begin_ < s'.begin_ := hlt
            omega)
      · exact ⟨_, rfl, (h.inv hfeed).tree⟩

/-- **`xml_feed` is safe as long as every token it comes to can be read.**  Where it is safe, every
token can: a `<` too near to the end is one that cannot, for a library whose `memcmp` reads ahead,
and a name with `b` for its first letter is one for any. -/
theorem xml_feed_safe (mem : ℕ → Bool) (ahead : Bool) (bytes : Str) :
    (XmlFeedSafe mem ahead bytes → ∀ s, XmlReached mem ahead bytes s → s.begin_ < bytes.length →
      XmlReadable ahead bytes s.begin_) ∧
    (XmlFeedable mem ahead bytes → XmlFeedSafe mem ahead bytes) := by
  constructor
  · intro hsafe s hs hmore
    obtain ⟨node, n, hnext, -⟩ := hsafe.consumes s hs hmore
    rw [xmlFeedNext, hs.comment] at hnext
    exact ((xmlNextAt_returns ahead hmore).of_eq hnext).1
  · intro hfeed
    refine ⟨?_, ?_, ?_, ?_⟩
    · exact xmlFeedLoopAt_returns hfeed .init (Nat.le_add_right _ _)
    · intro s hs hmore
      obtain ⟨⟨node, n⟩, hnext, htoken⟩ :=
        (xmlNextAt_returns ahead hmore).exists (hfeed s hs hmore).1
      obtain ⟨hpos, hle⟩ := htoken.consumes
      exact ⟨node, n, by rw [xmlFeedNext, hs.comment]; exact hnext, hpos, by omega⟩
    · exact fun s hs => ⟨(hs.inv hfeed).tree, (hs.inv hfeed).root⟩
    · intro s node n hs hmore hnext htype hshape hother
      obtain ⟨hread, hnarrow⟩ := hfeed s hs hmore
      obtain ⟨r, hstep, -⟩ := xmlFeedStepAt_returns mem (hs.inv hfeed) hmore hread hnarrow
      obtain ⟨heap, root, comment, begin_⟩ := s
      obtain rfl : comment = none := hs.comment
      rw [xmlFeedStepAt, hnext] at hstep ⊢
      simp only [bind, Except.bind, xmlFeedNode, htype, hshape] at hstep ⊢
      rw [xmlFeedClose] at hstep ⊢
      obtain ⟨found, hfind, -⟩ := ok_of_bind hstep
      rw [hfind, xmlFindUp_none hfind hother]
      rfl

/-- `<b>` is a body that `xml_feed` reads the map of the tags out of bounds for. -/
theorem xml_feed_letter_b : ¬ XmlFeedSafe (fun _ => true) false (str "<b>") := by
  rintro ⟨⟨r, hr, -⟩, -⟩
  have hcrash : xmlFeedAt (fun _ => true) false (str "<b>") = .error .crash := rfl
  rw [hcrash] at hr
  exact absurd hr (by simp)

end SipEcho
