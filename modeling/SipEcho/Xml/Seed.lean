import SipEcho.Common.Libc
import SipEcho.Lib.Writer

/-!
Element trees and `xml_seed`, which writes one into a buffer.

* `XmlElement`: a node with its attributes and its children;
* `xmlNodeWalk`, `seedNode`, `xmlSeed`: the walk over the tree, every write checked against the
  size of the buffer;
* `render`: the text of a tree, whatever the buffer;
* `xmlSeed_eq`: `xml_seed` writes exactly this text, and fails exactly when it does not fit.
-/

namespace SipEcho

open Lib

/-- `xml_type_t`. -/
inductive XmlType where
  | attributeNode | documentNode | elementNode | emptyNode | textNode
  deriving DecidableEq, Repr

/-- `xml_shape_t`. -/
inductive XmlShape where
  | shapeOpen | shapeSingle | shapeClose
  deriving DecidableEq, Repr

/-- `xml_element_t`: the type, the shape, the name, the content, which may be `NULL`, the
attributes and the children. -/
inductive XmlElement where
  | node (type : XmlType) (shape : XmlShape) (name : Str) (content : Option Str)
      (attributes children : List XmlElement)

/-- The quote around a value, when there is one. -/
def quoted (quote : Option UInt8) (content : Str) : Str :=
  quote.toList ++ content ++ quote.toList

/-- The mark that closes a single element, after the first byte of its name. -/
def singleMark (name : Str) : Str := if name.head? = some 63 then str "?" else str "/"

/-! ### The walk -/

/-- `__callback_node_seed` on a node, on the way in and on the way out; `attributes` walks the
node's attributes. -/
def callbackNodeSeed (max : ℕ) (quote : Option UInt8) (type : XmlType) (shape : XmlShape)
    (name : Str) (content : Option Str) (attributes : Str → Option Str) (closing : Bool)
    (out : Str) : Option Str :=
  match type with
  | .attributeNode =>
      if closing then some out
      else do
        let out ← put max (str " ") out
        let out ← put max name out
        match content with
        | none => some out
        | some content => do
            let out ← put max (str "=") out
            let out ← put max quote.toList out
            let out ← put max content out
            put max quote.toList out
  | .documentNode => some out
  | .elementNode =>
      if closing ∧ shape = .shapeSingle then some out
      else do
        let out ← put max (str "<") out
        let out ← if closing then put max (str "/") out else some out
        let out ← put max name out
        let out ←
          if closing then some out
          else do
            let out ← attributes out
            if shape = .shapeSingle then put max (singleMark name) out else some out
        put max (str ">") out
  | .emptyNode => some out
  | .textNode => if closing then some out else put max (content.getD []) out

mutual

/-- `xml_node_walk` with this callback, on one node. -/
def seedNode (max : ℕ) (quote : Option UInt8) : XmlElement → Str → Option Str
  | .node type shape name content attributes children, out => do
      let attributes := xmlNodeWalk max quote attributes
      let out ← callbackNodeSeed max quote type shape name content attributes false out
      let out ← xmlNodeWalk max quote children out
      callbackNodeSeed max quote type shape name content attributes true out

/-- `xml_node_walk` along the siblings. -/
def xmlNodeWalk (max : ℕ) (quote : Option UInt8) : List XmlElement → Str → Option Str
  | [], out => some out
  | node :: next, out => do
      let out ← seedNode max quote node out
      xmlNodeWalk max quote next out

end

/-- `xml_seed`: what is written for the children of the document; `none` for `-1`. -/
def xmlSeed (document : List XmlElement) (max : ℕ) (quote : Option UInt8) : Option Str :=
  xmlNodeWalk max quote document []

/-! ### The text -/

/-- What a node contributes itself, before and after its children. -/
def tag (quote : Option UInt8) (type : XmlType) (shape : XmlShape) (name : Str)
    (content : Option Str) (attributes : Str) (closing : Bool) : Str :=
  match type with
  | .attributeNode =>
      if closing then []
      else
        str " " ++ name ++
          match content with
          | none => []
          | some content => str "=" ++ quoted quote content
  | .documentNode => []
  | .elementNode =>
      if closing ∧ shape = .shapeSingle then []
      else
        str "<" ++ (if closing then str "/" else []) ++ name ++
          (if closing then []
            else attributes ++ if shape = .shapeSingle then singleMark name else []) ++ str ">"
  | .emptyNode => []
  | .textNode => if closing then [] else content.getD []

mutual

/-- The text of a node. -/
def renderNode (quote : Option UInt8) : XmlElement → Str
  | .node type shape name content attributes children =>
      tag quote type shape name content (render quote attributes) false ++
        render quote children ++
          tag quote type shape name content (render quote attributes) true

/-- The text of a list of siblings. -/
def render (quote : Option UInt8) : List XmlElement → Str
  | [] => []
  | node :: next => renderNode quote node ++ render quote next

end

/-! ### The walk writes the text -/

variable {max : ℕ} {quote : Option UInt8}

/-- **A node writes its part of the text**, when the walk over its attributes does. -/
lemma callbackNodeSeed_appends {type : XmlType} {shape : XmlShape} {name : Str}
    {content : Option Str} {walk : Str → Option Str} {attributes : Str}
    (h : Appends max walk attributes) (closing : Bool) :
    Appends max (callbackNodeSeed max quote type shape name content walk closing)
      (tag quote type shape name content attributes closing) := by
  have block : ∀ s : Str, Appends max (put max s) s := Appends.put
  cases type with
  | attributeNode =>
      cases closing with
      | true => exact Appends.nothing
      | false =>
          cases content with
          | none =>
              have h1 := (block (str " ")).bind ((block name).bind Appends.nothing)
              exact h1.congr (fun _ => rfl) (by simp [tag])
          | some content =>
              have h1 := (block (str " ")).bind ((block name).bind ((block (str "=")).bind
                ((block quote.toList).bind ((block content).bind (block quote.toList)))))
              exact h1.congr (fun _ => rfl) (by simp [tag, quoted])
  | documentNode => exact Appends.nothing
  | elementNode =>
      cases closing with
      | false =>
          -- the attributes and, on a single element, its mark come before the bracket
          have hmark : Appends max
              (fun out => if shape = .shapeSingle then put max (singleMark name) out else some out)
              (if shape = .shapeSingle then singleMark name else []) :=
            Appends.ite (fun _ => block _) fun _ => Appends.nothing
          have h1 := (block (str "<")).bind (Appends.nothing.bind ((block name).bind
            ((h.bind hmark).bind (block (str ">")))))
          refine h1.congr (fun _ => ?_) (by simp [tag])
          by_cases hs : shape = .shapeSingle <;>
            simp [callbackNodeSeed, hs, Option.bind_assoc]
      | true =>
          have h1 := (block (str "<")).bind ((block (str "/")).bind ((block name).bind
            (Appends.nothing.bind (block (str ">")))))
          have h2 : Appends max
              (callbackNodeSeed max quote .elementNode shape name content walk true)
              (if shape = .shapeSingle then [] else _) :=
            (Appends.ite (fun _ => Appends.nothing) fun _ => h1).congr
              (fun _ => by simp [callbackNodeSeed]) rfl
          exact h2.congr (fun _ => rfl) (by simp [tag])
  | emptyNode => exact Appends.nothing
  | textNode =>
      cases closing with
      | true => exact Appends.nothing
      | false => exact block _

mutual

lemma seedNode_appends : (node : XmlElement) →
    Appends max (seedNode max quote node) (renderNode quote node)
  | .node type shape name content attributes children => by
      have walk := xmlNodeWalk_appends attributes
      have inside := xmlNodeWalk_appends children
      have own : ∀ closing, Appends max
          (callbackNodeSeed max quote type shape name content (xmlNodeWalk max quote attributes)
            closing)
          (tag quote type shape name content (render quote attributes) closing) :=
        callbackNodeSeed_appends walk
      exact ((own false).bind (inside.bind (own true))).congr
        (fun out => by simp [seedNode]) (by simp [renderNode])

lemma xmlNodeWalk_appends : (l : List XmlElement) →
    Appends max (xmlNodeWalk max quote l) (render quote l)
  | [] => Appends.nothing.congr (fun _ => by simp [xmlNodeWalk]) (by simp [render])
  | node :: next =>
      ((seedNode_appends node).bind (xmlNodeWalk_appends next)).congr
        (fun _ => by simp [xmlNodeWalk]) (by simp [render])

end

/-- **`xml_seed` is exact**: it writes the text of the tree when the text fits, and fails when it
does not. -/
theorem xmlSeed_eq (document : List XmlElement) (max : ℕ) (quote : Option UInt8) :
    xmlSeed document max quote =
      if (render quote document).length ≤ max then some (render quote document) else none := by
  have h : Appends max (xmlNodeWalk max quote document) (render quote document) :=
    xmlNodeWalk_appends document
  have h := h [] (Nat.zero_le _)
  simpa [xmlSeed] using h

end SipEcho
