import SipEcho.Lib.Linked
import SipEcho.Xml.Buffer

/-!
The nodes that `xml_feed` allocates, by their addresses, with their links: every node knows its
parent, its next sibling, its first and its last child, and its first attribute.

* `XmlHeap`: the nodes, and how often `malloc` was called; which calls of it succeed is a parameter;
* `xmlElementAppend`, `xmlAttributeAppend`: a node behind the last child, an attribute before the
  first one;
* `NodeTree`: **the links make a tree**: the parents lead to the document, a level a step, and the
  children and the attributes of a node are the lists that its links lead through;
* `xmlElementAppend_returns`, `xmlAttributeAppend_returns`: both keep it.
-/

namespace SipEcho

open Lib

/-- The nodes of a document, the document first, and the calls of `malloc`. -/
structure XmlHeap where
  nodes : List XmlNode
  mallocs : ℕ
  deriving DecidableEq, Repr

/-- The node at an address. -/
def XmlHeap.node (heap : XmlHeap) (i : ℕ) : Except Fault XmlNode :=
  match heap.nodes[i]? with
  | some node => return node
  | none => throw .crash

/-- `xml_element_append`; `mem` says which calls of `malloc` succeed. -/
def xmlElementAppend (mem : ℕ → Bool) (heap : XmlHeap) (root : Option ℕ) (node : XmlNode) :
    Except Fault (Option ℕ × XmlHeap) :=
  match root with
  | none => throw .crash
  | some root => do
      let parent ← heap.node root
      if xmlMaxDeep < parent.level then return (none, heap)
      else if mem heap.mallocs = false then
        return (none, { heap with mallocs := heap.mallocs + 1 })
      else
        let add := heap.nodes.length
        let node := { node with parent := some root, level := parent.level + 1 }
        match parent.last with
        | some last => do
            let before ← heap.node last
            let nodes := heap.nodes.modify last fun n => { n with next := some add }
            let nodes := nodes.modify root fun n => { n with last := some add }
            return (some add, ⟨nodes ++ [{ node with id := before.id + 1 }], heap.mallocs + 1⟩)
        | none =>
            let nodes := heap.nodes.modify root fun n =>
              { n with children := some add, last := some add }
            return (some add, ⟨nodes ++ [node], heap.mallocs + 1⟩)

/-- What `xml_node_compile` does with an attribute it has found. -/
def xmlAttributeAppend (mem : ℕ → Bool) (heap : XmlHeap) (element : ℕ) (attribute_ : XmlNode) :
    Except Fault XmlHeap := do
  let node ← heap.node element
  if mem heap.mallocs then
    let nodes := heap.nodes.modify element fun n => { n with attribute_ := some heap.nodes.length }
    let attribute_ := { attribute_ with parent := some element, next := node.attribute_ }
    return ⟨nodes ++ [attribute_], heap.mallocs + 1⟩
  else return { heap with mallocs := heap.mallocs + 1 }

/-! ### The tree -/

/-- The next sibling of the node at an address. -/
def nextOf (nodes : List XmlNode) (i : ℕ) : Option ℕ := nodes[i]?.bind XmlNode.next

/-- The addresses of the attributes of a node, or of its children, in the order of allocation. -/
def under (nodes : List XmlNode) (attributes : Bool) (p : ℕ) : List ℕ :=
  (List.range nodes.length).filter fun i =>
    nodes[i]?.any fun n => n.parent = some p ∧ decide (n.type = .attributeNode) = attributes

/-- A node without the links that change. -/
def XmlNode.core (node : XmlNode) : XmlNode :=
  { node with attribute_ := none, children := none, next := none, last := none }

/-- A node that has attributes and children. -/
def XmlNode.Inner (node : XmlNode) : Prop := node.type = .documentNode ∨ node.type = .elementNode

/-- What the nodes are, their siblings and children left aside. -/
structure NodeCore (bytes : Str) (nodes : List XmlNode) : Prop where
  document : ∃ d, nodes[0]? = some d ∧ d.type = .documentNode ∧ d.parent = none ∧ d.level = 0 ∧
    d.name = .literal []
  type : ∀ (i : ℕ) (n : XmlNode), nodes[i]? = some n → 0 < i →
    n.type = .elementNode ∨ n.type = .textNode ∨ n.type = .attributeNode
  parent : ∀ (i : ℕ) (n : XmlNode), nodes[i]? = some n → 0 < i →
    ∃ p, ∃ m : XmlNode, n.parent = some p ∧ p < i ∧ nodes[p]? = some m ∧ m.Inner ∧
      (n.type ≠ .attributeNode → n.level = m.level + 1)
  level : ∀ (i : ℕ) (n : XmlNode), nodes[i]? = some n → n.level ≤ xmlMaxDeep + 1
  inside : ∀ (i : ℕ) (n : XmlNode), nodes[i]? = some n →
    n.name.Inside bytes ∧ n.content.Inside bytes

/-- **The nodes make a tree**, which refers to the bytes it was read from. -/
structure NodeTree (bytes : Str) (nodes : List XmlNode) : Prop extends NodeCore bytes nodes where
  next : nextOf nodes 0 = none
  children : ∀ (p : ℕ) (m : XmlNode), nodes[p]? = some m →
    Linked (nextOf nodes) m.children (under nodes false p)
  last : ∀ (p : ℕ) (m : XmlNode), nodes[p]? = some m → m.last = (under nodes false p).getLast?
  attributes : ∀ (p : ℕ) (m : XmlNode), nodes[p]? = some m →
    Linked (nextOf nodes) m.attribute_ (under nodes true p).reverse

section Links

/-- What nodes that differ in their links have in common. -/
lemma core_eq {m n : XmlNode} (h : m.core = n.core) : m.type = n.type ∧ m.parent = n.parent ∧
    m.level = n.level ∧ m.name = n.name ∧ m.content = n.content :=
  ⟨(congrArg XmlNode.type h :), (congrArg XmlNode.parent h :), (congrArg XmlNode.level h :),
    (congrArg XmlNode.name h :), (congrArg XmlNode.content h :)⟩

variable {nodes old : List XmlNode} {new n : XmlNode} {i p : ℕ} {a : Bool}

lemma mem_under : i ∈ under nodes a p ↔
    ∃ n, nodes[i]? = some n ∧ n.parent = some p ∧ decide (n.type = .attributeNode) = a := by
  simp only [under, List.mem_filter, List.mem_range, Option.any_eq_true_iff_get]
  constructor
  · rintro ⟨-, h, hn⟩
    exact ⟨_, (Option.some_get h).symm, of_decide_eq_true hn⟩
  · rintro ⟨n, hn, h⟩
    refine ⟨List.getElem?_eq_some_iff.mp hn |>.1, by simp [hn], ?_⟩
    simpa [hn] using h

lemma under_nodup : (under nodes a p).Nodup := List.nodup_range.filter _

lemma lt_of_mem_under (h : i ∈ under nodes a p) : i < nodes.length :=
  List.mem_range.mp (List.mem_filter.mp h).1

/-- The node of one address stands under one node, with its children or with its attributes. -/
lemma under_unique {p' : ℕ} {a' : Bool} (h : i ∈ under nodes a p) (h' : i ∈ under nodes a' p') :
    a = a' ∧ p = p' := by
  obtain ⟨n, hn, hp, ha⟩ := mem_under.mp h
  obtain ⟨n', hn', hp', ha'⟩ := mem_under.mp h'
  obtain rfl := Option.some.inj (hn.symm.trans hn')
  exact ⟨ha.symm.trans ha', Option.some.inj (hp.symm.trans hp')⟩

/-- What the addresses under a node are does not depend on the links. -/
lemma under_congr (h : old.map XmlNode.core = nodes.map XmlNode.core) (a : Bool) (p : ℕ) :
    under old a p = under nodes a p := by
  have hlen : old.length = nodes.length := by simpa using congrArg List.length h
  rw [under, under, hlen]
  refine List.filter_congr fun i _ => ?_
  have hi : old[i]?.map XmlNode.core = nodes[i]?.map XmlNode.core := by
    rw [← List.getElem?_map, ← List.getElem?_map, h]
  have hany : ∀ l : List XmlNode, (l[i]?.any fun n =>
      n.parent = some p ∧ decide (n.type = .attributeNode) = a) =
      (l[i]?.map XmlNode.core).any fun n =>
        n.parent = some p ∧ decide (n.type = .attributeNode) = a := fun l => by
    cases l[i]? <;> rfl
  rw [hany old, hany nodes, hi]

/-- A node that is new. -/
lemma under_push : under (nodes ++ [new]) a p = under nodes a p ++
    if new.parent = some p ∧ decide (new.type = .attributeNode) = a then [nodes.length]
    else [] := by
  rw [under, List.length_append, List.length_singleton, List.range_succ, List.filter_append, under]
  congr 1
  · refine List.filter_congr fun i hi => ?_
    rw [List.getElem?_append_left (List.mem_range.mp hi)]
  · by_cases h : new.parent = some p ∧ decide (new.type = .attributeNode) = a
    · simp [h]
    · simp only [List.filter_cons, List.filter_nil, List.getElem?_concat_length, Option.any_some, h,
        decide_false, if_false]
      simp

lemma nextOf_push_lt (h : i < nodes.length) : nextOf (nodes ++ [new]) i = nextOf nodes i := by
  rw [nextOf, List.getElem?_append_left h, nextOf]

lemma nextOf_push_length : nextOf (nodes ++ [new]) nodes.length = new.next := by
  rw [nextOf, List.getElem?_concat_length]
  rfl

/-- A node of the heap before a change of links. -/
lemma exists_of_map_core (h : old.map XmlNode.core = nodes.map XmlNode.core)
    (hn : old[i]? = some n) : ∃ m, nodes[i]? = some m ∧ m.core = n.core := by
  have hi : old[i]?.map XmlNode.core = nodes[i]?.map XmlNode.core := by
    rw [← List.getElem?_map, ← List.getElem?_map, h]
  rw [hn] at hi
  obtain ⟨m, hm, hcore⟩ := Option.map_eq_some_iff.mp hi.symm
  exact ⟨m, hm, hcore⟩

lemma map_core_modify (f : XmlNode → XmlNode) (i : ℕ) (hf : ∀ n : XmlNode, (f n).core = n.core) :
    (nodes.modify i f).map XmlNode.core = nodes.map XmlNode.core := by
  refine List.ext_getElem? fun j => ?_
  rw [List.getElem?_map, List.getElem?_map, List.getElem?_modify]
  cases nodes[j]? with
  | none => rfl
  | some n =>
      by_cases hij : i = j <;> simp [hij, hf]

/-- Where one node changes, the others are what they were. -/
lemma getElem?_modify_of_some (f : XmlNode → XmlNode) (i : ℕ) (hn : nodes[p]? = some n) :
    (nodes.modify i f)[p]? = some (if i = p then f n else n) := by
  rw [List.getElem?_modify, hn]
  by_cases h : i = p <;> simp [h]

/-- The next siblings stay, when none of them is what changes. -/
lemma nextOf_modify {f : XmlNode → XmlNode} (hf : ∀ n : XmlNode, (f n).next = n.next) :
    nextOf (nodes.modify p f) i = nextOf nodes i := by
  rw [nextOf, nextOf, List.getElem?_modify]
  cases nodes[i]? with
  | none => rfl
  | some n => by_cases h : p = i <;> simp [h, hf]

lemma nextOf_modify_next (e : Option ℕ) (hi : i < nodes.length) :
    nextOf (nodes.modify p fun n => { n with next := e }) i =
      if p = i then e else nextOf nodes i := by
  rw [nextOf, nextOf, getElem?_modify_of_some _ p (List.getElem?_eq_getElem hi),
    List.getElem?_eq_getElem hi]
  by_cases h : p = i <;> simp [h]

lemma length_of_map_core (h : old.map XmlNode.core = nodes.map XmlNode.core) :
    old.length = nodes.length := by
  simpa using congrArg List.length h

/-- A node of the heap after a change of links and with a new node: it was there, or it is new. -/
lemma getElem?_push (h : old.map XmlNode.core = nodes.map XmlNode.core)
    (hn : (old ++ [new])[i]? = some n) :
    (i < nodes.length ∧ old[i]? = some n ∧ ∃ m, nodes[i]? = some m ∧ m.core = n.core) ∨
      (i = nodes.length ∧ n = new) := by
  have hlen := length_of_map_core h
  have hlt := (List.getElem?_eq_some_iff.mp hn).1
  rw [List.length_append, List.length_singleton, hlen] at hlt
  rcases Nat.lt_or_ge i nodes.length with hi | hi
  · rw [List.getElem?_append_left (by omega)] at hn
    exact .inl ⟨hi, hn, exists_of_map_core h hn⟩
  · obtain rfl : i = nodes.length := by omega
    rw [← hlen, List.getElem?_concat_length] at hn
    exact .inr ⟨rfl, (Option.some.inj hn).symm⟩

/-- A node that is there, after a change of links and with a new node. -/
lemma getElem?_push_of_some (h : old.map XmlNode.core = nodes.map XmlNode.core) (new : XmlNode)
    (hn : nodes[i]? = some n) : ∃ n', (old ++ [new])[i]? = some n' ∧ n'.core = n.core := by
  have hi := (List.getElem?_eq_some_iff.mp hn).1
  obtain ⟨n', hn', hcore⟩ := exists_of_map_core h.symm hn
  exact ⟨n', by rwa [List.getElem?_append_left (by rwa [length_of_map_core h])], hcore⟩

/-- What may become a node under `root`, the node `m`. -/
structure NodeFits (bytes : Str) (root : ℕ) (m new : XmlNode) : Prop where
  inner : m.Inner
  parent : new.parent = some root
  type : new.type = .elementNode ∨ new.type = .textNode ∨ new.type = .attributeNode
  step : new.type ≠ .attributeNode → new.level = m.level + 1
  level : new.level ≤ xmlMaxDeep + 1
  inside : new.name.Inside bytes ∧ new.content.Inside bytes
  children : new.children = none
  last : new.last = none
  attributes : new.attribute_ = none

variable {bytes : Str} {root : ℕ} {m : XmlNode}

/-- **A new node**, whatever links change. -/
lemma NodeCore.push (h : NodeCore bytes nodes) (hroot : nodes[root]? = some m)
    (hnew : NodeFits bytes root m new) (hold : old.map XmlNode.core = nodes.map XmlNode.core) :
    NodeCore bytes (old ++ [new]) where
  document := by
    obtain ⟨d, hd, htype, hparent, hlevel, hname⟩ := h.document
    obtain ⟨d', hd', hcore⟩ := getElem?_push_of_some hold new hd
    obtain ⟨h1, h2, h3, h4, -⟩ := core_eq hcore
    exact ⟨d', hd', h1.trans htype, h2.trans hparent, h3.trans hlevel, h4.trans hname⟩
  type := by
    intro i n hn hi
    rcases getElem?_push hold hn with ⟨-, -, n', hn', hcore⟩ | ⟨-, rfl⟩
    · rw [← (core_eq hcore).1]
      exact h.type i n' hn' hi
    · exact hnew.type
  parent := by
    intro i n hn hi
    rcases getElem?_push hold hn with ⟨-, -, n', hn', hcore⟩ | ⟨rfl, rfl⟩
    · obtain ⟨p, m, hp, hlt, hm, hinner, hstep⟩ := h.parent i n' hn' hi
      obtain ⟨m', hm', hcore'⟩ := getElem?_push_of_some hold new hm
      obtain ⟨htype, hparent, hlevel, -⟩ := core_eq hcore
      obtain ⟨htype', -, hlevel', -⟩ := core_eq hcore'
      refine ⟨p, m', hparent ▸ hp, hlt, hm', ?_, ?_⟩
      · rw [XmlNode.Inner, htype']
        exact hinner
      · rw [← htype, ← hlevel, hlevel']
        exact hstep
    · obtain ⟨m', hm', hcore'⟩ := getElem?_push_of_some hold n hroot
      obtain ⟨htype', -, hlevel', -⟩ := core_eq hcore'
      refine ⟨root, m', hnew.parent, (List.getElem?_eq_some_iff.mp hroot).1, hm', ?_, ?_⟩
      · rw [XmlNode.Inner, htype']
        exact hnew.inner
      · rw [hlevel']
        exact hnew.step
  level := by
    intro i n hn
    rcases getElem?_push hold hn with ⟨-, -, n', hn', hcore⟩ | ⟨-, rfl⟩
    · rw [← (core_eq hcore).2.2.1]
      exact h.level i n' hn'
    · exact hnew.level
  inside := by
    intro i n hn
    rcases getElem?_push hold hn with ⟨-, -, n', hn', hcore⟩ | ⟨-, rfl⟩
    · obtain ⟨-, -, -, hname, hcontent⟩ := core_eq hcore
      rw [← hname, ← hcontent]
      exact h.inside i n' hn'
    · exact hnew.inside

/-- What is under a node when there is a new one. -/
lemma under_push_old (hold : old.map XmlNode.core = nodes.map XmlNode.core)
    (hparent : new.parent = some root) (a : Bool) (p : ℕ) :
    under (old ++ [new]) a p =
      if p = root ∧ decide (new.type = .attributeNode) = a then under nodes a p ++ [nodes.length]
      else under nodes a p := by
  rw [under_push, under_congr hold, length_of_map_core hold]
  by_cases h : p = root ∧ decide (new.type = .attributeNode) = a
  · rw [if_pos h, if_pos ⟨h.1 ▸ hparent, h.2⟩]
  · have hnot : ¬ (new.parent = some p ∧ decide (new.type = .attributeNode) = a) := fun h' =>
      h ⟨Option.some.inj (h'.1.symm.trans hparent), h'.2⟩
    rw [if_neg h, if_neg hnot, List.append_nil]

/-- Nothing is under a node that is not there yet. -/
lemma NodeCore.under_length (h : NodeCore bytes nodes) (a : Bool) :
    under nodes a nodes.length = [] := by
  refine List.eq_nil_iff_forall_not_mem.mpr fun i hi => ?_
  obtain ⟨n, hn, hparent, -⟩ := mem_under.mp hi
  rcases Nat.eq_zero_or_pos i with rfl | hpos
  · obtain ⟨d, hd, -, hnone, -⟩ := h.document
    obtain rfl := Option.some.inj (hn.symm.trans hd)
    exact absurd (hnone.symm.trans hparent) (by simp)
  · obtain ⟨p, m, hp, hlt, -⟩ := h.parent i n hn hpos
    have hlt' := (List.getElem?_eq_some_iff.mp hn).1
    rw [hp, Option.some_inj] at hparent
    omega

/-- **A new last child.** -/
lemma NodeTree.pushChild (h : NodeTree bytes nodes) (hroot : nodes[root]? = some m)
    (hnew : NodeFits bytes root m new) (htype : new.type ≠ .attributeNode) (hnext : new.next = none)
    (hold : old.map XmlNode.core = nodes.map XmlNode.core)
    (hnextOf : ∀ i, i < nodes.length →
      nextOf old i = if m.last = some i then some nodes.length else nextOf nodes i)
    (hlinks : ∀ p n n', nodes[p]? = some n → old[p]? = some n' → n'.attribute_ = n.attribute_ ∧
      n'.children = (if p = root ∧ m.last = none then some nodes.length else n.children) ∧
      n'.last = if p = root then some nodes.length else n.last) :
    NodeTree bytes (old ++ [new]) := by
  have hlen := length_of_map_core hold
  have hattr : decide (new.type = .attributeNode) = false := by simpa using htype
  have hunder := under_push_old hold hnew.parent
  have hnextNew : ∀ i, i < nodes.length →
      nextOf (old ++ [new]) i = if m.last = some i then some nodes.length else nextOf nodes i :=
    fun i hi => by rw [nextOf_push_lt (by omega), hnextOf i hi]
  have hnextLast : nextOf (old ++ [new]) nodes.length = none := by
    rw [← hlen, nextOf_push_length, hnext]
  have hlast := h.last root m hroot
  -- the siblings of the new node are the only ones whose links change
  have hother : ∀ a p, ¬ (p = root ∧ a = false) → ∀ i ∈ under nodes a p,
      nextOf (old ++ [new]) i = nextOf nodes i := fun a p hne i hi => by
    rw [hnextNew i (lt_of_mem_under hi), if_neg]
    intro hi'
    rw [hlast] at hi'
    obtain ⟨ha, hp⟩ := under_unique hi (List.mem_of_getLast? hi')
    exact hne ⟨hp, ha⟩
  have hlt := (List.getElem?_eq_some_iff.mp hroot).1
  have hempty : m.children = none ↔ m.last = none := by
    rw [(h.children root m hroot).head?, hlast]
    simp
  refine { toNodeCore := h.toNodeCore.push hroot hnew hold, next := ?_, children := ?_, last := ?_,
           attributes := ?_ }
  · obtain ⟨d, hd, -, hnone, -⟩ := h.document
    rw [hnextNew 0 (by omega), if_neg, h.next]
    intro h0
    rw [hlast] at h0
    obtain ⟨n, hn, hparent, -⟩ := mem_under.mp (List.mem_of_getLast? h0)
    obtain rfl := Option.some.inj (hn.symm.trans hd)
    exact absurd (hnone.symm.trans hparent) (by simp)
  · intro p n' hn'
    rw [hunder, hattr]
    rcases getElem?_push hold hn' with ⟨hp, hn', n, hn, -⟩ | ⟨rfl, rfl⟩
    · obtain ⟨-, hchildren, -⟩ := hlinks p n n' hn hn'
      rw [hchildren]
      by_cases hproot : p = root
      · subst hproot
        obtain rfl := Option.some.inj (hn.symm.trans hroot)
        have hsnoc := (h.children p n hn).snoc under_nodup hnextLast
          (fun b hb => by
            rw [hnextNew b (lt_of_mem_under (List.mem_of_getLast? hb)), if_pos (hlast.trans hb)])
          fun b hb hne => by
            rw [hnextNew b (lt_of_mem_under hb), if_neg fun hb' => hne (hlast ▸ hb')]
        rw [if_pos (show p = p ∧ false = false from ⟨rfl, rfl⟩)]
        simpa [hempty] using hsnoc
      · rw [if_neg fun hne => hproot hne.1, if_neg fun hne => hproot hne.1]
        exact (h.children p n hn).congr (hother false p fun hne => hproot hne.1)
    · rw [if_neg fun hne => absurd hne.1 (by omega), h.under_length, hnew.children]
      rfl
  · intro p n' hn'
    rw [hunder, hattr]
    rcases getElem?_push hold hn' with ⟨hp, hn', n, hn, -⟩ | ⟨rfl, rfl⟩
    · obtain ⟨-, -, hlast'⟩ := hlinks p n n' hn hn'
      rw [hlast']
      by_cases hproot : p = root
      · rw [if_pos hproot, if_pos ⟨hproot, rfl⟩]
        simp
      · rw [if_neg hproot, if_neg fun hne => hproot hne.1]
        exact h.last p n hn
    · rw [if_neg fun hne => absurd hne.1 (by omega), h.under_length, hnew.last]
      rfl
  · intro p n' hn'
    rw [hunder, if_neg (by rw [hattr]; simp)]
    rcases getElem?_push hold hn' with ⟨hp, hn', n, hn, -⟩ | ⟨rfl, rfl⟩
    · obtain ⟨hattributes, -⟩ := hlinks p n n' hn hn'
      rw [hattributes]
      exact (h.attributes p n hn).congr fun i hi =>
        hother true p (by simp) i (List.mem_reverse.mp hi)
    · rw [h.under_length, hnew.attributes]
      rfl

/-- **A new first attribute.** -/
lemma NodeTree.pushAttribute (h : NodeTree bytes nodes) (hroot : nodes[root]? = some m)
    (hnew : NodeFits bytes root m new) (htype : new.type = .attributeNode)
    (hnext : new.next = m.attribute_) (hold : old.map XmlNode.core = nodes.map XmlNode.core)
    (hnextOf : ∀ i, i < nodes.length → nextOf old i = nextOf nodes i)
    (hlinks : ∀ p n n', nodes[p]? = some n → old[p]? = some n' →
      n'.attribute_ = (if p = root then some nodes.length else n.attribute_) ∧
        n'.children = n.children ∧ n'.last = n.last) :
    NodeTree bytes (old ++ [new]) := by
  have hlen := length_of_map_core hold
  have hattr : decide (new.type = .attributeNode) = true := by simpa using htype
  have hunder := under_push_old hold hnew.parent
  have hlt := (List.getElem?_eq_some_iff.mp hroot).1
  have hnextNew : ∀ i, i < nodes.length → nextOf (old ++ [new]) i = nextOf nodes i :=
    fun i hi => by rw [nextOf_push_lt (by omega), hnextOf i hi]
  refine { toNodeCore := h.toNodeCore.push hroot hnew hold, next := ?_, children := ?_, last := ?_,
           attributes := ?_ }
  · rw [hnextNew 0 (by omega), h.next]
  · intro p n' hn'
    rw [hunder, if_neg (by rw [hattr]; simp)]
    rcases getElem?_push hold hn' with ⟨hp, hn', n, hn, -⟩ | ⟨rfl, rfl⟩
    · rw [(hlinks p n n' hn hn').2.1]
      exact (h.children p n hn).congr fun i hi => hnextNew i (lt_of_mem_under hi)
    · rw [h.under_length, hnew.children]
      rfl
  · intro p n' hn'
    rw [hunder, if_neg (by rw [hattr]; simp)]
    rcases getElem?_push hold hn' with ⟨hp, hn', n, hn, -⟩ | ⟨rfl, rfl⟩
    · rw [(hlinks p n n' hn hn').2.2]
      exact h.last p n hn
    · rw [h.under_length, hnew.last]
      rfl
  · intro p n' hn'
    rw [hunder, hattr]
    rcases getElem?_push hold hn' with ⟨hp, hn', n, hn, -⟩ | ⟨rfl, rfl⟩
    · have hlinked := (h.attributes p n hn).congr fun i hi =>
        hnextNew i (lt_of_mem_under (List.mem_reverse.mp hi))
      rw [(hlinks p n n' hn hn').1]
      by_cases hproot : p = root
      · subst hproot
        obtain rfl := Option.some.inj (hn.symm.trans hroot)
        rw [if_pos rfl, if_pos ⟨rfl, rfl⟩, List.reverse_append]
        refine ⟨rfl, ?_⟩
        rw [← hlen, nextOf_push_length, hnext]
        exact hlinked
      · rw [if_neg hproot, if_neg fun hne => hproot hne.1]
        exact hlinked
    · rw [if_neg fun hne => absurd hne.1 (by omega), h.under_length, hnew.attributes]
      rfl

end Links

/-! ### What an append keeps -/

/-- Every node is still there, with other links at most. -/
def Grows (nodes nodes' : List XmlNode) : Prop :=
  ∀ (i : ℕ) (n : XmlNode), nodes[i]? = some n → ∃ n', nodes'[i]? = some n' ∧ n'.core = n.core

lemma Grows.refl (nodes : List XmlNode) : Grows nodes nodes := fun _ n hn => ⟨n, hn, rfl⟩

lemma Grows.trans {nodes nodes' nodes'' : List XmlNode} (h : Grows nodes nodes')
    (h' : Grows nodes' nodes'') : Grows nodes nodes'' := fun i n hn => by
  obtain ⟨n', hn', hcore⟩ := h i n hn
  obtain ⟨n'', hn'', hcore'⟩ := h' i n' hn'
  exact ⟨n'', hn'', hcore'.trans hcore⟩

/-- A new node, whatever links change. -/
lemma grows_push {nodes old : List XmlNode} (h : old.map XmlNode.core = nodes.map XmlNode.core)
    (new : XmlNode) : Grows nodes (old ++ [new]) := fun _ _ hn => getElem?_push_of_some h new hn

lemma getElem?_push_length {nodes old : List XmlNode}
    (h : old.map XmlNode.core = nodes.map XmlNode.core) (new : XmlNode) :
    (old ++ [new])[nodes.length]? = some new := by
  rw [← length_of_map_core h, List.getElem?_concat_length]

variable {bytes : Str} {heap : XmlHeap} {root : ℕ} {m node : XmlNode}

lemma XmlHeap.node_eq {i : ℕ} (h : heap.nodes[i]? = some node) : heap.node i = .ok node := by
  rw [XmlHeap.node, h]
  rfl

/-- A node as `xml_next` leaves it: without links. -/
structure XmlNode.Fresh (bytes : Str) (node : XmlNode) : Prop where
  attributes : node.attribute_ = none
  children : node.children = none
  next : node.next = none
  last : node.last = none
  inside : node.name.Inside bytes ∧ node.content.Inside bytes

/-- **`xml_element_append` keeps the tree**: the node becomes the last child, unless it would stand
too deep or there is no memory. -/
lemma xmlElementAppend_returns (mem : ℕ → Bool) (h : NodeTree bytes heap.nodes)
    (hroot : heap.nodes[root]? = some m) (hinner : m.Inner) (hfresh : node.Fresh bytes)
    (htype : node.type = .elementNode ∨ node.type = .textNode) :
    ∃ r, xmlElementAppend mem heap (some root) node = .ok r ∧ NodeTree bytes r.2.nodes ∧
      Grows heap.nodes r.2.nodes ∧ ∀ e, r.1 = some e → ∃ n, r.2.nodes[e]? = some n ∧
        n.type = node.type ∧ n.content = node.content := by
  rw [xmlElementAppend, XmlHeap.node_eq hroot]
  simp only [bind, Except.bind]
  by_cases hdeep : xmlMaxDeep < m.level
  · rw [if_pos hdeep]
    exact ⟨_, rfl, h, .refl _, by simp⟩
  rw [if_neg hdeep]
  by_cases hmem : mem heap.mallocs = false
  · rw [if_pos hmem]
    exact ⟨_, rfl, h, .refl _, by simp⟩
  rw [if_neg hmem]
  have hnot : node.type ≠ .attributeNode := by
    rcases htype with h | h <;> rw [h] <;> decide
  have fits : ∀ id, NodeFits bytes root m
      { node with id, parent := some root, level := m.level + 1 } := fun id =>
    { inner := hinner, parent := rfl, type := htype.imp (fun h => h) .inl, step := fun _ => rfl
      level := by show m.level + 1 ≤ xmlMaxDeep + 1; omega
      inside := hfresh.inside, children := hfresh.children, last := hfresh.last
      attributes := hfresh.attributes }
  cases hlast : m.last with
  | some last =>
      have hmem := h.last root m hroot
      rw [hlast] at hmem
      obtain ⟨before, hbefore, -⟩ := mem_under.mp (List.mem_of_getLast? hmem.symm)
      have hold : ((heap.nodes.modify last fun n =>
          { n with next := some heap.nodes.length }).modify root fun n =>
            { n with last := some heap.nodes.length }).map XmlNode.core =
              heap.nodes.map XmlNode.core := by
        rw [map_core_modify, map_core_modify] <;> exact fun _ => rfl
      simp only [XmlHeap.node_eq hbefore]
      refine ⟨_, rfl, h.pushChild hroot (fits _) hnot hfresh.next hold ?_ ?_, grows_push hold _, ?_⟩
      · intro i hi
        rw [nextOf_modify, nextOf_modify_next _ hi, hlast]
        · simp only [Option.some_inj]
        · exact fun _ => rfl
      · intro p n n' hn hn'
        rw [getElem?_modify_of_some _ root (getElem?_modify_of_some _ last hn)] at hn'
        obtain rfl := Option.some.inj hn'
        rw [hlast]
        by_cases hil : last = p <;> by_cases hir : root = p <;> simp [hil, hir, eq_comm]
      · rintro e he
        obtain rfl := Option.some.inj he
        exact ⟨_, getElem?_push_length hold _, rfl, rfl⟩
  | none =>
      have hold : (heap.nodes.modify root fun n =>
          { n with children := some heap.nodes.length, last := some heap.nodes.length }).map
            XmlNode.core = heap.nodes.map XmlNode.core := map_core_modify _ root fun _ => rfl
      refine ⟨_, rfl, h.pushChild hroot (fits _) hnot hfresh.next hold ?_ ?_, grows_push hold _, ?_⟩
      · intro i hi
        rw [nextOf_modify, hlast]
        · simp
        · exact fun _ => rfl
      · intro p n n' hn hn'
        rw [getElem?_modify_of_some _ root hn] at hn'
        obtain rfl := Option.some.inj hn'
        rw [hlast]
        by_cases hir : root = p <;> simp [hir, eq_comm]
      · rintro e he
        obtain rfl := Option.some.inj he
        exact ⟨_, getElem?_push_length hold _, rfl, rfl⟩

/-- **An attribute keeps the tree**: it becomes the first one, unless there is no memory. -/
lemma xmlAttributeAppend_returns (mem : ℕ → Bool) (h : NodeTree bytes heap.nodes)
    (hroot : heap.nodes[root]? = some m) (hinner : m.Inner) (hfresh : node.Fresh bytes)
    (hlevel : node.level = 0)
    (htype : node.type = .attributeNode) :
    ∃ heap', xmlAttributeAppend mem heap root node = .ok heap' ∧ NodeTree bytes heap'.nodes ∧
      Grows heap.nodes heap'.nodes := by
  rw [xmlAttributeAppend, XmlHeap.node_eq hroot]
  simp only [bind, Except.bind]
  by_cases hmem : mem heap.mallocs = true
  · rw [if_pos hmem]
    have fits : NodeFits bytes root m { node with parent := some root, next := m.attribute_ } :=
      { inner := hinner, parent := rfl, type := .inr (.inr htype), step := fun h => absurd htype h
        level := by show node.level ≤ xmlMaxDeep + 1; omega
        inside := hfresh.inside, children := hfresh.children, last := hfresh.last
        attributes := hfresh.attributes }
    have hold : (heap.nodes.modify root fun n =>
        { n with attribute_ := some heap.nodes.length }).map XmlNode.core =
          heap.nodes.map XmlNode.core := map_core_modify _ root fun _ => rfl
    refine ⟨_, rfl, h.pushAttribute hroot fits htype rfl hold ?_ ?_, grows_push hold _⟩
    · exact fun i _ => nextOf_modify fun _ => rfl
    · intro p n n' hn hn'
      rw [getElem?_modify_of_some _ root hn] at hn'
      obtain rfl := Option.some.inj hn'
      by_cases hir : root = p <;> simp [hir, eq_comm]
  · rw [if_neg hmem]
    exact ⟨_, rfl, h, .refl _⟩

end SipEcho
