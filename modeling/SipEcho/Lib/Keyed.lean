import Mathlib.Data.List.Basic
import Mathlib.Tactic

/-!
Search in a list of items by a key that is read through memory, where the comparison may take
several items for equal to the one looked for: which of them is found is left to a `Pick`.

* `getBy`: an item is taken out of the list, `findBy`: it is looked up;
* `picked`: what they find when every key can be read (`findBy_eq`, `getBy_eq`);
* `Apart`: no two items of a list have equal keys, and `Apart.eq_of_same`, that an item is then
  known by its key.
-/

namespace SipEcho.Lib

universe u

variable {ε : Type u} {κ α : Type}

/-- Which item a search finds: one that passes the test, if any does. -/
structure Pick where
  find : ∀ {α : Type}, (α → Bool) → List α → Option α
  found : ∀ {α : Type} {p : α → Bool} {l : List α} {a : α}, find p l = some a → a ∈ l ∧ p a = true
  missed : ∀ {α : Type} {p : α → Bool} {l : List α}, find p l = none → ∀ a ∈ l, p a = false

/-- The first one. -/
def firstPick : Pick where
  find p l := l.find? p
  found h := ⟨List.mem_of_find?_eq_some h, List.find?_some h⟩
  missed h a ha := by simpa using List.find?_eq_none.mp h a ha

/-- The items with their keys. -/
def keysOf (key : α → Except ε κ) : List α → Except ε (List (α × κ))
  | [] => return []
  | a :: l => do
      let k ← key a
      let ks ← keysOf key l
      return (a, k) :: ks

section Search

variable (pick : Pick) (same : κ → κ → Prop) [DecidableRel same] [DecidableEq α]

/-- The item a search finds among items with keys. -/
def pickedFrom (x : κ) (ks : List (α × κ)) : Option α :=
  (pick.find (fun a : α × κ => decide (same x a.2)) ks).map Prod.fst

/-- An item with a key like `x`. -/
def findBy (key : α → Except ε κ) (x : κ) (l : List α) : Except ε (Option α) := do
  let ks ← keysOf key l
  return pickedFrom pick same x ks

/-- An item with a key like `x` is taken out. -/
def getBy (key : α → Except ε κ) (x : κ) (l : List α) : Except ε (Option (α × List α)) := do
  let found ← findBy pick same key x l
  return found.map fun a => (a, l.erase a)

/-- The item with a key like `x` that a search finds when every key can be read. -/
def picked (k : α → κ) (x : κ) (l : List α) : Option α :=
  pickedFrom pick same x (l.map fun a => (a, k a))

variable {pick same} {key : α → Except ε κ} {k k' : α → κ} {x : κ} {l : List α} {a : α}

omit [DecidableRel same] [DecidableEq α] in
lemma keysOf_eq (h : ∀ a ∈ l, key a = .ok (k a)) :
    keysOf key l = .ok (l.map fun a => (a, k a)) := by
  induction l with
  | nil => rfl
  | cons a l ih =>
      rw [keysOf, h a List.mem_cons_self, ih fun b hb => h b (List.mem_cons_of_mem a hb)]
      rfl

omit [DecidableEq α] in
/-- **A lookup**, when every key can be read. -/
lemma findBy_eq (h : ∀ a ∈ l, key a = .ok (k a)) :
    findBy pick same key x l = .ok (picked pick same k x l) := by
  rw [findBy, keysOf_eq h]
  rfl

/-- **A removal**, when every key can be read. -/
lemma getBy_eq (h : ∀ a ∈ l, key a = .ok (k a)) :
    getBy pick same key x l = .ok ((picked pick same k x l).map fun a => (a, l.erase a)) := by
  rw [getBy, findBy_eq h]
  rfl

omit [DecidableEq α] in
lemma picked_congr (h : ∀ a ∈ l, k' a = k a) :
    picked pick same k' x l = picked pick same k x l := by
  rw [picked, picked, List.map_congr_left fun a ha => by rw [h a ha]]

omit [DecidableEq α] in
lemma picked_some (h : picked pick same k x l = some a) : a ∈ l ∧ same x (k a) := by
  obtain ⟨⟨b, y⟩, hb, rfl⟩ := Option.map_eq_some_iff.mp h
  obtain ⟨hmem, hsame⟩ := pick.found hb
  obtain ⟨c, hc, heq⟩ := List.mem_map.mp hmem
  obtain ⟨rfl, rfl⟩ := Prod.mk.inj heq
  exact ⟨hc, of_decide_eq_true hsame⟩

omit [DecidableEq α] in
lemma picked_none (h : picked pick same k x l = none) : ∀ a ∈ l, ¬ same x (k a) := by
  intro a ha hsame
  have := pick.missed (Option.map_eq_none_iff.mp h) (a, k a) (List.mem_map_of_mem ha)
  exact of_decide_eq_false this hsame

omit [DecidableEq α] in
lemma picked_nil : picked pick same k x [] = none := by
  cases h : picked pick same k x [] with
  | none => rfl
  | some a => exact absurd (picked_some h).1 List.not_mem_nil

variable (pick) in
omit [DecidableEq α] in
/-- What has a key like `x` is not missed. -/
lemma picked_isSome (ha : a ∈ l) (hx : same x (k a)) : ∃ b, picked pick same k x l = some b := by
  cases h : picked pick same k x l with
  | none => exact absurd hx (picked_none h a ha)
  | some b => exact ⟨b, rfl⟩

end Search

/-! ### Items known by their keys -/

/-- No two items of the list have equal keys. -/
def Apart (same : κ → κ → Prop) (k : α → κ) (l : List α) : Prop :=
  l.Pairwise fun a b => ¬ same (k a) (k b)

namespace Apart

variable {same : κ → κ → Prop} {k k' : α → κ} {l l' : List α}

lemma sublist (h : Apart same k l) (hl : l'.Sublist l) : Apart same k l' :=
  List.Pairwise.sublist hl h

lemma congr (h : Apart same k l) (hk : ∀ a ∈ l, k' a = k a) : Apart same k' l := by
  refine List.Pairwise.imp_of_mem (fun ha hb hab => ?_) h
  rwa [hk _ ha, hk _ hb]

lemma cons (h : Apart same k l) {a : α} (ha : ∀ b ∈ l, ¬ same (k a) (k b)) :
    Apart same k (a :: l) :=
  List.pairwise_cons.mpr ⟨ha, h⟩

lemma nodup (h : Apart same k l) (hrefl : ∀ x, same x x) : l.Nodup :=
  List.Pairwise.imp (fun {a b} hab => by rintro rfl; exact hab (hrefl _)) h

/-- **An item is known by its key.** -/
lemma eq_of_same (h : Apart same k l) (hsymm : ∀ x y, same x y → same y x) {a b : α} (ha : a ∈ l)
    (hb : b ∈ l) (hab : same (k a) (k b)) : a = b := by
  induction l with
  | nil => cases ha
  | cons c l ih =>
      obtain ⟨hc, hl⟩ := List.pairwise_cons.mp h
      rcases List.mem_cons.mp ha with rfl | ha'
      · rcases List.mem_cons.mp hb with rfl | hb'
        · rfl
        · exact absurd hab (hc b hb')
      · rcases List.mem_cons.mp hb with rfl | hb'
        · exact absurd (hsymm _ _ hab) (hc a ha')
        · exact ih hl ha' hb'

end Apart

end SipEcho.Lib
