import Mathlib.Tactic

/-!
Red-black trees with a hole, for algorithms that walk down a tree and repair it at the place they
have reached.

* `RBTree`, `Frame`, `zip`: a tree; one edge of the way to a hole, with the node above it; the tree
  put back together;
* `inorder_zip`: the keys from left to right, `before` and `after` the hole;
* `RB c n t`: no red node has a red child, and every way down meets `n` black nodes; `c` is the
  colour of the root, red if `true`;
* `Hole p c n`: what fits the hole of the path `p`; `RB.zip`: filling it gives a red-black tree;
* `RB.height_le`, `RB.two_pow_le`: the height is logarithmic.
-/

namespace SipEcho.Lib

universe u

/-- The side of a node a child is on. -/
inductive Side where
  | left
  | right
  deriving DecidableEq, Repr

inductive RBTree (κ : Type u) where
  | nil
  | node (red : Bool) (l : RBTree κ) (key : κ) (r : RBTree κ)
  deriving DecidableEq, Repr

/-- One edge on the way down: the node above the hole, the side the hole is on, and the other
child. -/
structure Frame (κ : Type u) where
  side : Side
  red : Bool
  key : κ
  sib : RBTree κ
  deriving DecidableEq, Repr

/-- The way to a hole, from the hole up. -/
abbrev Path (κ : Type u) := List (Frame κ)

variable {κ : Type u}

namespace RBTree

/-- A node given by the child on one side and the child on the other. -/
def mk (s : Side) (red : Bool) (near : RBTree κ) (k : κ) (far : RBTree κ) : RBTree κ :=
  match s with
  | .left => node red near k far
  | .right => node red far k near

/-- The parts of a node, the child on side `s` first. -/
def parts (s : Side) : RBTree κ → Option (Bool × RBTree κ × κ × RBTree κ)
  | nil => none
  | node red l k r =>
      match s with
      | .left => some (red, l, k, r)
      | .right => some (red, r, k, l)

def isRed : RBTree κ → Bool
  | nil => false
  | node red _ _ _ => red

def blacken : RBTree κ → RBTree κ
  | nil => nil
  | node _ l k r => node false l k r

def inorder : RBTree κ → List κ
  | nil => []
  | node _ l k r => inorder l ++ k :: inorder r

def size : RBTree κ → ℕ
  | nil => 0
  | node _ l _ r => size l + size r + 1

def height : RBTree κ → ℕ
  | nil => 0
  | node _ l _ r => max (height l) (height r) + 1

@[simp] lemma inorder_blacken (t : RBTree κ) : t.blacken.inorder = t.inorder := by
  cases t <;> rfl

@[simp] lemma size_blacken (t : RBTree κ) : t.blacken.size = t.size := by
  cases t <;> rfl

@[simp] lemma length_inorder (t : RBTree κ) : t.inorder.length = t.size := by
  induction t with
  | nil => rfl
  | node _ l k r ihl ihr =>
      rw [inorder, List.length_append, List.length_cons, ihl, ihr, size]
      omega

end RBTree

/-- The tree with the hole filled. -/
def zip : Path κ → RBTree κ → RBTree κ
  | [], t => t
  | f :: p, t => zip p (RBTree.mk f.side f.red t f.key f.sib)

/-- The keys in front of the hole. -/
def before : Path κ → List κ
  | [] => []
  | f :: p => before p ++ (match f.side with | .left => [] | .right => f.sib.inorder ++ [f.key])

/-- The keys behind the hole. -/
def after : Path κ → List κ
  | [] => []
  | f :: p => (match f.side with | .left => f.key :: f.sib.inorder | .right => []) ++ after p

lemma inorder_zip (p : Path κ) (t : RBTree κ) :
    (zip p t).inorder = before p ++ t.inorder ++ after p := by
  induction p generalizing t with
  | nil => simp [zip, before, after]
  | cons f p ih =>
      obtain ⟨s, red, k, sib⟩ := f
      rw [zip, ih]
      cases s <;> simp [RBTree.mk, RBTree.inorder, before, after]

lemma before_append (p q : Path κ) : before (p ++ q) = before q ++ before p := by
  induction p with
  | nil => simp [before]
  | cons f p ih => rw [List.cons_append, before, before, ih, List.append_assoc]

lemma after_append (p q : Path κ) : after (p ++ q) = after p ++ after q := by
  induction p with
  | nil => rfl
  | cons f p ih => rw [List.cons_append, after, after, ih, List.append_assoc]

/-! ### Balance -/

/-- A red-black tree of black height `n`. -/
inductive RB : Bool → ℕ → RBTree κ → Prop
  | nil : RB false 0 .nil
  | red {n : ℕ} {l r : RBTree κ} {k : κ} : RB false n l → RB false n r →
      RB true n (.node true l k r)
  | black {n : ℕ} {a b : Bool} {l r : RBTree κ} {k : κ} : RB a n l → RB b n r →
      RB false (n + 1) (.node false l k r)

namespace RB

variable {c : Bool} {n : ℕ} {t : RBTree κ}

lemma isRed (h : RB c n t) : t.isRed = c := by
  cases h <;> rfl

/-- A blackened tree is one black node higher, if it was red. -/
lemma blacken (h : RB true n t) : RB false (n + 1) t.blacken := by
  cases h with
  | red hl hr => exact .black hl hr

lemma blacken_exists (h : RB c n t) : ∃ n, RB false n t.blacken := by
  cases h with
  | nil => exact ⟨0, .nil⟩
  | red hl hr => exact ⟨_, .black hl hr⟩
  | black hl hr => exact ⟨_, .black hl hr⟩

lemma mk_red {s : Side} {k : κ} {a b : RBTree κ} (ha : RB false n a) (hb : RB false n b) :
    RB true n (RBTree.mk s true a k b) := by
  cases s
  · exact .red ha hb
  · exact .red hb ha

lemma mk_black {s : Side} {k : κ} {a b : RBTree κ} {x y : Bool} (ha : RB x n a) (hb : RB y n b) :
    RB false (n + 1) (RBTree.mk s false a k b) := by
  cases s
  · exact .black ha hb
  · exact .black hb ha

lemma parts_red (h : RB true n t) (s : Side) : ∃ near k far, t = RBTree.mk s true near k far ∧
    t.parts s = some (true, near, k, far) ∧ RB false n near ∧ RB false n far := by
  cases h with
  | red hl hr =>
      cases s
      · exact ⟨_, _, _, rfl, rfl, hl, hr⟩
      · exact ⟨_, _, _, rfl, rfl, hr, hl⟩

lemma parts_black (h : RB false (n + 1) t) (s : Side) : ∃ a b near k far,
    t = RBTree.mk s false near k far ∧ t.parts s = some (false, near, k, far) ∧
    RB a n near ∧ RB b n far := by
  cases h with
  | black hl hr =>
      cases s
      · exact ⟨_, _, _, _, _, rfl, rfl, hl, hr⟩
      · exact ⟨_, _, _, _, _, rfl, rfl, hr, hl⟩

/-- A tree is at most twice as high as it is black. -/
lemma height_le (h : RB c n t) : t.height ≤ 2 * n + (if c then 1 else 0) := by
  induction h with
  | nil => simp [RBTree.height]
  | red _ _ ihl ihr => simp [RBTree.height] at *; omega
  | @black n a b _ _ _ _ _ ihl ihr =>
      cases a <;> cases b <;> simp [RBTree.height] at * <;> omega

/-- A black height takes exponentially many nodes. -/
lemma two_pow_le (h : RB c n t) : 2 ^ n ≤ t.size + 1 := by
  induction h with
  | nil => simp [RBTree.size]
  | red _ _ ihl ihr => simp only [RBTree.size]; omega
  | black _ _ ihl ihr =>
      simp only [RBTree.size, pow_succ]
      omega

end RB

/-- A black node with black children. -/
def Cool : RBTree κ → Prop
  | .nil => False
  | .node red l _ r => red = false ∧ l.isRed = false ∧ r.isRed = false

lemma RB.cool {n : ℕ} {t : RBTree κ} (h : RB true n t) : Cool t.blacken := by
  cases h with
  | red hl hr => exact ⟨rfl, hl.isRed, hr.isRed⟩

/-- What fits the hole of a path: a tree of black height `n`, and a red one only if `c`. -/
inductive Hole : Path κ → Bool → ℕ → Prop
  | top {c : Bool} {n : ℕ} : Hole [] c n
  | red {p : Path κ} {s : Side} {k : κ} {sib : RBTree κ} {n : ℕ} : RB false n sib →
      Hole p true n → Hole (⟨s, true, k, sib⟩ :: p) false n
  | black {p : Path κ} {s : Side} {k : κ} {sib : RBTree κ} {b c : Bool} {n : ℕ} : RB b n sib →
      Hole p false (n + 1) → Hole (⟨s, false, k, sib⟩ :: p) c n

lemma Hole.weaken {p : Path κ} {c : Bool} {n : ℕ} (h : Hole p c n) : Hole p false n := by
  cases h with
  | top => exact .top
  | red hs hp => exact .red hs hp
  | black hs hp => exact .black hs hp

/-- Below a black node a tree of either colour fits. -/
lemma Hole.of_black {p : Path κ} {s : Side} {k : κ} {sib : RBTree κ} {c : Bool} {n : ℕ}
    (h : Hole (⟨s, false, k, sib⟩ :: p) c n) (b : Bool) :
    Hole (⟨s, false, k, sib⟩ :: p) b n := by
  cases h with
  | black hs hp => exact .black hs hp

/-- The children of a node on the way down, and their place. -/
lemma RB.child {path : Path κ} {c red : Bool} {n : ℕ} {l r : RBTree κ} {k : κ}
    (h : RB c n (.node red l k r)) (hp : Hole path c n) :
    ∃ m a b, RB a m l ∧ RB b m r ∧ Hole (⟨.left, red, k, r⟩ :: path) a m ∧
      Hole (⟨.right, red, k, l⟩ :: path) b m ∧ (red = true → a = false ∧ b = false) := by
  cases h with
  | red hl hr =>
      exact ⟨_, _, _, hl, hr, .red hr hp, .red hl hp, fun _ => ⟨rfl, rfl⟩⟩
  | black hl hr =>
      exact ⟨_, _, _, hl, hr, .black hr hp, .black hl hp, fun h => absurd h (by simp)⟩

/-- **Filling the hole.** -/
lemma RB.zip {p : Path κ} {c : Bool} {n : ℕ} {t : RBTree κ} (ht : RB c n t) (hp : Hole p c n) :
    ∃ c' n', RB c' n' (zip p t) := by
  induction p generalizing c n t with
  | nil => exact ⟨c, n, ht⟩
  | cons f p ih =>
      cases hp with
      | red hs hp => exact ih (mk_red ht hs) hp
      | black hs hp => exact ih (mk_black ht hs) hp

/-- A black tree fits wherever its height does. -/
lemma RB.zip_black {p : Path κ} {c : Bool} {n : ℕ} {t : RBTree κ} (ht : RB false n t)
    (hp : Hole p c n) : ∃ c' n', RB c' n' (Lib.zip p t) :=
  ht.zip hp.weaken

end SipEcho.Lib
