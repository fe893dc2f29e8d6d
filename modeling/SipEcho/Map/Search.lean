import SipEcho.Lib.RBTree
import SipEcho.Lib.Comparator

/-!
`tsearch2` and `tfind2`: search and insertion in an index tree.

`tsearch2` repairs the tree on its way down.  Its loop holds three addresses, `rootp`, `parentp`
and `gparentp`; here they are the subtree in hand and the first two frames of the path to it.
After a rotation some of them no longer point where the path leads; `stale` counts for how many
turns that is so, and a turn that would follow such an address has no result.

* `tsearchLoop_spec`: it never follows one;
* `tsearch2_spec`: the tree stays red-black, and a new key goes where it belongs;
* `tfind_eq_some`, `tfind_eq_none`: the search finds a key exactly when there is one.
-/

namespace SipEcho

open Lib

variable {κ : Type}

/-- The rotation `maybe_split_for_insert` has made. -/
inductive Rot where
  | none
  | single
  | double
  deriving DecidableEq, Repr

/-- `maybe_split_for_insert` at a node; `path` leads to it, `mode` is that of the source.  The
result is the node it leaves in the hands of the caller, and the path to that. -/
def maybeSplit (mode : Bool) (stale : ℕ) (path : Path κ) (red : Bool) (l : RBTree κ) (k : κ)
    (r : RBTree κ) : Option (Rot × Path κ × RBTree κ) :=
  if mode || (l.isRed && r.isRed) then
    -- this node becomes red, its successors black
    let l := l.blacken
    let r := r.blacken
    match path with
    | [] => some (.none, [], .node true l k r)
    | p :: up =>
        if 2 ≤ stale then none
        else if !p.red then some (.none, p :: up, .node true l k r)
        else if 1 ≤ stale then none
        else
          match up with
          | [] => none
          | gp :: top =>
              if p.side ≠ gp.side then
                -- the child becomes the top, with its parent and grandparent as successors
                match p.side with
                | .left =>
                    some (.double, top,
                      .node false (RBTree.mk gp.side true l gp.key gp.sib) k
                        (RBTree.mk .left true r p.key p.sib))
                | .right =>
                    some (.double, top,
                      .node false (RBTree.mk .right true l p.key p.sib) k
                        (RBTree.mk gp.side true r gp.key gp.sib))
              else
                -- the parent becomes the top, the grandparent and the child its successors
                some (.single,
                  ⟨p.side, false, p.key, RBTree.mk gp.side true p.sib gp.key gp.sib⟩ :: top,
                  .node true l k r)
  else some (.none, path, .node red l k r)

/-- How `tsearch2` ends: with a key that compares equal, with the new one, or without memory. -/
inductive Found (κ : Type) where
  | found (k : κ)
  | inserted
  | failed
  deriving DecidableEq, Repr

/-- How many turns the addresses of the parents stay behind after a turn. -/
def Rot.stale (stale : ℕ) : Rot → ℕ
  | none => stale - 1
  | single => 1
  | double => 2

/-- The loop of `tsearch2`; `alloc` is whether `malloc` succeeds. -/
def tsearchLoop (alloc : Bool) (cmp : κ → ℤ) (key : κ) :
    ℕ → ℕ → Path κ → RBTree κ → Option (Found κ × RBTree κ)
  | _, stale, path, .nil =>
      if alloc then
        if path = [] then some (.inserted, .node true .nil key .nil)
        else
          match maybeSplit true stale path true .nil key .nil with
          | none => none
          | some (_, path, t) => some (.inserted, zip path t)
      else some (.failed, zip path .nil)
  | 0, _, _, .node _ _ _ _ => none
  | fuel + 1, stale, path, .node red l k r =>
      if cmp k = 0 then some (.found k, zip path (.node red l k r))
      else
        match maybeSplit false stale path red l k r with
        | some (rot, path, .node red l k' r) =>
            if cmp k < 0 then
              tsearchLoop alloc cmp key fuel (rot.stale stale) (⟨.left, red, k', r⟩ :: path) l
            else
              tsearchLoop alloc cmp key fuel (rot.stale stale) (⟨.right, red, k', l⟩ :: path) r
        | _ => none

/-- `tsearch2`, `cmp` being the comparison of `key` with a key of the tree. -/
def tsearch2 (alloc : Bool) (cmp : κ → ℤ) (key : κ) (t : RBTree κ) : Option (Found κ × RBTree κ) :=
  tsearchLoop alloc cmp key (2 * t.size + 1) 0 [] t.blacken

/-- `tfind2`. -/
def tfind (cmp : κ → ℤ) : RBTree κ → Option κ
  | .nil => none
  | .node _ l k r =>
      if cmp k = 0 then some k else if cmp k < 0 then tfind cmp l else tfind cmp r

/-! ### One visit -/

section Split

variable {cmp : κ → ℤ}

/-- The sibling of the subtree in hand is black. -/
def SibBlack : Path κ → Prop
  | [] => False
  | f :: _ => f.sib.isRed = false

/-- If the parent is red, the uncle is black. -/
def Clear : Path κ → Prop
  | [] => True
  | f :: up => f.red = true → SibBlack up

/-- The path is the one the comparison takes. -/
def Sided (cmp : κ → ℤ) (path : Path κ) : Prop :=
  ∀ f ∈ path, match f.side with | .left => cmp f.key < 0 | .right => 0 < cmp f.key

/-- Whether a visit splits the node it is at. -/
def Splits (mode : Bool) (l r : RBTree κ) : Bool := mode || (l.isRed && r.isRed)

/-- A visit that does not split changes nothing. -/
lemma maybeSplit_of_not {mode : Bool} {stale : ℕ} {path : Path κ} {red : Bool} {l r : RBTree κ}
    {k : κ} (h : Splits mode l r = false) :
    maybeSplit mode stale path red l k r = some (.none, path, .node red l k r) := by
  rw [Splits] at h
  rw [maybeSplit, if_neg (by simp [h])]

/-- What a split leaves: the keys, and by the rotation made, the place. -/
inductive SplitAt (cmp : κ → ℤ) (path : Path κ) (l : RBTree κ) (k : κ) (r : RBTree κ) (n : ℕ) :
    Rot → Path κ → RBTree κ → Prop
  | none : Hole path true n → SplitAt cmp path l k r n .none path (.node true l k r)
  | single {s : Side} {kp : κ} {g : RBTree κ} {top : Path κ} : RB true n g →
      Hole top false (n + 1) → Sided cmp (⟨s, false, kp, g⟩ :: top) →
      before (⟨s, false, kp, g⟩ :: top) = before path →
      after (⟨s, false, kp, g⟩ :: top) = after path →
      SplitAt cmp path l k r n .single (⟨s, false, kp, g⟩ :: top) (.node true l k r)
  | double {kl kr : κ} {a b : RBTree κ} {top : Path κ} : RB false n a → RB false n b →
      0 < cmp kl → cmp kr < 0 → Hole top false (n + 1) → Sided cmp top →
      before path = before top ++ a.inorder ++ [kl] →
      after path = kr :: b.inorder ++ after top →
      SplitAt cmp path l k r n .double top
        (.node false (.node true a kl l) k (.node true r kr b))

/-- **A split**: under a red parent the uncle is black, and a rotation takes up both red
edges. -/
lemma maybeSplit_split {mode : Bool} {path : Path κ} (red : Bool) {l r : RBTree κ} (k : κ) {n : ℕ}
    (h : Splits mode l r = true) (hn : Hole path false n) (hclear : Clear path)
    (hside : Sided cmp path) :
    ∃ rot path' t, maybeSplit mode 0 path red l k r = some (rot, path', t) ∧
      SplitAt cmp path l.blacken k r.blacken n rot path' t := by
  rw [Splits] at h
  rw [maybeSplit, if_pos h]
  cases path with
  | nil => exact ⟨_, _, _, rfl, .none .top⟩
  | cons p up =>
      obtain ⟨s, pred, kp, psib⟩ := p
      dsimp only
      rw [if_neg (by omega)]
      cases pred with
      | false => exact ⟨_, _, _, if_pos rfl, .none (hn.of_black true)⟩
      | true =>
          rw [if_neg (by simp), if_neg (by omega)]
          cases up with
          | nil => exact absurd (hclear rfl) (by simp [SibBlack])
          | cons gp top =>
              obtain ⟨gs, gred, kg, gsib⟩ := gp
              have huncle : gsib.isRed = false := hclear rfl
              have hp : 0 < cmp kp ↔ s = .right := by
                have := hside _ List.mem_cons_self
                cases s <;> simp at this ⊢ <;> omega
              have hp' : cmp kp < 0 ↔ s = .left := by
                have := hside _ List.mem_cons_self
                cases s <;> simp at this ⊢ <;> omega
              have hg := hside _ (List.mem_cons_of_mem _ List.mem_cons_self)
              have htop : Sided cmp top := fun f hf =>
                hside f (List.mem_cons_of_mem _ (List.mem_cons_of_mem _ hf))
              cases hn with
              | red hpsib hup =>
                  cases hup with
                  | @black _ _ _ _ b _ _ hgsib htop' =>
                      obtain rfl : b = false := by rw [← hgsib.isRed, huncle]
                      cases s <;> cases gs
                      · refine ⟨_, _, _, rfl, .single (RB.mk_red hpsib hgsib) htop' ?_ ?_ ?_⟩
                        · intro f hf
                          rcases List.mem_cons.mp hf with rfl | hf
                          · exact hp'.mpr rfl
                          · exact htop f hf
                        · simp [before]
                        · simp [after, RBTree.mk, RBTree.inorder]
                      · refine ⟨_, _, _, rfl, .double hgsib hpsib hg (hp'.mpr rfl) htop' htop ?_ ?_⟩
                        · simp [before]
                        · simp [after]
                      · refine ⟨_, _, _, rfl, .double hpsib hgsib (hp.mpr rfl) hg htop' htop ?_ ?_⟩
                        · simp [before]
                        · simp [after]
                      · refine ⟨_, _, _, rfl, .single (RB.mk_red hpsib hgsib) htop' ?_ ?_ ?_⟩
                        · intro f hf
                          rcases List.mem_cons.mp hf with rfl | hf
                          · exact hp.mpr rfl
                          · exact htop f hf
                        · simp [before, RBTree.mk, RBTree.inorder]
                        · simp [after]

end Split

/-! ### The loop -/

section Loop

variable {cmp : κ → ℤ}

/-- A subtree that the next visit may have to repair. -/
def Hot : RBTree κ → Prop
  | .nil => True
  | .node _ l _ r => l.isRed = true ∧ r.isRed = true

/-- Where the loop stands after a double rotation: at a red node whose child on the way of the
search is cool. -/
def Ahead (cmp : κ → ℤ) : RBTree κ → Prop
  | .nil => False
  | .node red l k r => red = true ∧ cmp k ≠ 0 ∧ (cmp k < 0 → Cool l) ∧ (0 < cmp k → Cool r)

/-- The turns a subtree still takes. -/
def turns (cmp : κ → ℤ) : ℕ → RBTree κ → ℕ
  | 2, .node _ l k r => 2 + 2 * (if cmp k < 0 then l.size else r.size)
  | _, t => 2 * t.size + 1

lemma turns_zero (t : RBTree κ) : turns cmp 0 t = 2 * t.size + 1 := by
  cases t <;> rfl

lemma turns_one (t : RBTree κ) : turns cmp 1 t = 2 * t.size + 1 := by
  cases t <;> rfl

/-- **The invariant of the loop.**  By how many turns the addresses of the parents are behind,
either the repair of the subtree in hand is possible, or none is needed. -/
structure Going (cmp : κ → ℤ) (stale : ℕ) (path : Path κ) (t : RBTree κ) : Prop where
  balanced : ∃ c n, RB c n t ∧ Hole path c n
  sided : Sided cmp path
  ready : stale = 0 ∧ (Hot t → Clear path) ∧ (path ≠ [] → t.isRed = true → SibBlack path) ∧
      (path = [] → t.isRed = false) ∨
    stale = 1 ∧ Cool t ∨ stale = 2 ∧ Ahead cmp t

lemma not_hot_of_cool {t : RBTree κ} (h : Cool t) : ¬ Hot t := by
  cases t with
  | nil => exact absurd h id
  | node red l k r =>
      rintro ⟨h1, -⟩
      rw [h.2.1] at h1
      exact absurd h1 (by simp)

lemma Sided.cons {path : Path κ} {s : Side} {red : Bool} {k : κ} {sib : RBTree κ}
    (h : Sided cmp path) (hk : match s with | .left => cmp k < 0 | .right => 0 < cmp k) :
    Sided cmp (⟨s, red, k, sib⟩ :: path) := by
  intro f hf
  rcases List.mem_cons.mp hf with rfl | hf
  · exact hk
  · exact h f hf

/-- What is in front of the place has been passed on the left, what is behind on the right. -/
lemma Sided.sides {path : Path κ} (h : Sided cmp path) {x : List κ}
    (hcut : Cut cmp (before path ++ x ++ after path)) :
    (∀ a ∈ before path, 0 < cmp a) ∧ ∀ b ∈ after path, cmp b < 0 := by
  induction path generalizing x with
  | nil => simp [before, after]
  | cons f path ih =>
      obtain ⟨s, red, k, sib⟩ := f
      have hk := h _ List.mem_cons_self
      have hrest : Sided cmp path := fun g hg => h g (List.mem_cons_of_mem _ hg)
      cases s with
      | left =>
          have hcut' : Cut cmp (before path ++ (x ++ k :: sib.inorder) ++ after path) := by
            simpa [before, after] using hcut
          obtain ⟨h1, h2⟩ := ih hrest hcut'
          have hk' : cmp k < 0 := hk
          have hsplit : Cut cmp ((before path ++ x) ++ k :: (sib.inorder ++ after path)) := by
            simpa [before, after] using hcut
          have h3 := hsplit.sides.2 hk'
          refine ⟨by simpa [before] using h1, fun b hb => ?_⟩
          simp only [after, List.cons_append, List.mem_cons] at hb
          rcases hb with rfl | hb
          · exact hk'
          · exact h3 b hb
      | right =>
          have hcut' : Cut cmp (before path ++ (sib.inorder ++ k :: x) ++ after path) := by
            simpa [before, after] using hcut
          obtain ⟨h1, h2⟩ := ih hrest hcut'
          have hk' : 0 < cmp k := hk
          have hsplit : Cut cmp ((before path ++ sib.inorder) ++ k :: (x ++ after path)) := by
            simpa [before, after] using hcut
          have h3 := hsplit.sides.1 hk'
          refine ⟨fun a ha => ?_, by simpa [after] using h2⟩
          simp only [before, List.mem_append, List.mem_singleton] at ha
          rcases ha with ha | ha | rfl
          · exact h3 a (List.mem_append_left _ ha)
          · exact h3 a (List.mem_append_right _ ha)
          · exact hk'

/-- What a visit that did not find the key has to leave: the same keys, and on the side the
search goes to the invariant, with fewer turns to come. -/
def Advances (cmp : κ → ℤ) (stale : ℕ) (path : Path κ) (t : RBTree κ) (rot : Rot)
    (path' : Path κ) (red : Bool) (l : RBTree κ) (k : κ) (r : RBTree κ) : Prop :=
  before path' ++ (RBTree.node red l k r).inorder ++ after path' =
      before path ++ t.inorder ++ after path ∧
    (cmp k < 0 → Going cmp (rot.stale stale) (⟨.left, red, k, r⟩ :: path') l ∧
      turns cmp (rot.stale stale) l < turns cmp stale t) ∧
    (0 < cmp k → Going cmp (rot.stale stale) (⟨.right, red, k, l⟩ :: path') r ∧
      turns cmp (rot.stale stale) r < turns cmp stale t)

/-- A visit that does not split goes on as it is. -/
lemma Going.keep {stale : ℕ} {path : Path κ} {red : Bool} {l r : RBTree κ} {k : κ}
    (h : Going cmp stale path (.node red l k r)) (hns : Splits false l r = false) :
    Advances cmp stale path (.node red l k r) .none path red l k r := by
  obtain ⟨c, n, hrb, hhole⟩ := h.balanced
  obtain ⟨m, a, b, hl, hr, hpl, hpr, hab⟩ := hrb.child hhole
  have hlr : l.isRed = true → r.isRed = false := by
    intro h1
    rw [Splits, h1] at hns
    simpa using hns
  refine ⟨rfl, fun hk => ⟨⟨⟨a, m, hl, hpl⟩, h.sided.cons hk, ?_⟩, ?_⟩,
    fun hk => ⟨⟨⟨b, m, hr, hpr⟩, h.sided.cons hk, ?_⟩, ?_⟩⟩
  · rcases h.ready with ⟨rfl, -, hsib, htop⟩ | ⟨rfl, hcool⟩ | ⟨rfl, hahead⟩
    · refine Or.inl ⟨rfl, fun _ hred => ?_, fun _ => hlr, fun h => absurd h (by simp)⟩
      by_cases hpath : path = []
      · exact absurd (htop hpath) (by simpa [RBTree.isRed] using hred)
      · exact hsib hpath hred
    · refine Or.inl ⟨rfl, fun _ hred => ?_, fun _ h1 => ?_, fun h => absurd h (by simp)⟩
      · exact absurd hred (by simp [hcool.1])
      · exact absurd h1 (by simp [hcool.2.1])
    · exact Or.inr (Or.inl ⟨rfl, hahead.2.2.1 hk⟩)
  · rcases h.ready with ⟨rfl, -⟩ | ⟨rfl, -⟩ | ⟨rfl, -⟩
    · show turns cmp 0 l < turns cmp 0 _
      rw [turns_zero, turns_zero, RBTree.size]
      omega
    · show turns cmp 0 l < turns cmp 1 _
      rw [turns_zero, turns_one, RBTree.size]
      omega
    · show turns cmp 1 l < turns cmp 2 _
      rw [turns_one, turns, if_pos hk]
      omega
  · rcases h.ready with ⟨rfl, -, hsib, htop⟩ | ⟨rfl, hcool⟩ | ⟨rfl, hahead⟩
    · refine Or.inl ⟨rfl, fun _ hred => ?_, fun _ h1 => ?_, fun h => absurd h (by simp)⟩
      · by_cases hpath : path = []
        · exact absurd (htop hpath) (by simpa [RBTree.isRed] using hred)
        · exact hsib hpath hred
      · by_contra h2
        have h3 : l.isRed = true := by simpa [SibBlack] using h2
        rw [hlr h3] at h1
        exact absurd h1 (by simp)
    · refine Or.inl ⟨rfl, fun _ hred => ?_, fun _ h1 => ?_, fun h => absurd h (by simp)⟩
      · exact absurd hred (by simp [hcool.1])
      · exact absurd h1 (by simp [hcool.2.2])
    · exact Or.inr (Or.inl ⟨rfl, hahead.2.2.2 hk⟩)
  · have hk' : ¬ cmp k < 0 := by omega
    rcases h.ready with ⟨rfl, -⟩ | ⟨rfl, -⟩ | ⟨rfl, -⟩
    · show turns cmp 0 r < turns cmp 0 _
      rw [turns_zero, turns_zero, RBTree.size]
      omega
    · show turns cmp 0 r < turns cmp 1 _
      rw [turns_zero, turns_one, RBTree.size]
      omega
    · show turns cmp 1 r < turns cmp 2 _
      rw [turns_one, turns, if_neg hk']
      omega

/-- A red child after a split: black, with the same keys, and nothing under it to repair. -/
structure Blackened (n : ℕ) (t t' : RBTree κ) : Prop where
  balanced : RB false n t'
  cool : Cool t'
  size : t'.size = t.size
  inorder : t'.inorder = t.inorder

namespace Blackened

lemma of_red {n : ℕ} {t : RBTree κ} (h : RB true n t) : Blackened (n + 1) t t.blacken :=
  ⟨h.blacken, h.cool, RBTree.size_blacken t, RBTree.inorder_blacken t⟩

variable {n : ℕ} {l l' r r' : RBTree κ} {k : κ} {path : Path κ}

/-- No rotation: the parents are where they were. -/
lemma advances_none (hl : Blackened n l l') (hr : Blackened n r r') (hp : Hole path true n)
    (hsided : Sided cmp path) :
    Advances cmp 0 path (.node false l k r) .none path true l' k r' := by
  refine ⟨by simp [RBTree.inorder, hl.inorder, hr.inorder],
    fun hk => ⟨⟨⟨_, _, hl.balanced, .red hr.balanced hp⟩, hsided.cons hk, Or.inl ⟨rfl,
      fun hot => absurd hot (not_hot_of_cool hl.cool), fun _ h1 => ?_,
      fun h => absurd h (by simp)⟩⟩, ?_⟩,
    fun hk => ⟨⟨⟨_, _, hr.balanced, .red hl.balanced hp⟩, hsided.cons hk, Or.inl ⟨rfl,
      fun hot => absurd hot (not_hot_of_cool hr.cool), fun _ h1 => ?_,
      fun h => absurd h (by simp)⟩⟩, ?_⟩⟩
  · rw [hl.balanced.isRed] at h1
    exact absurd h1 (by simp)
  · show turns cmp 0 l' < turns cmp 0 _
    rw [turns_zero, turns_zero, hl.size, RBTree.size]
    omega
  · rw [hr.balanced.isRed] at h1
    exact absurd h1 (by simp)
  · show turns cmp 0 r' < turns cmp 0 _
    rw [turns_zero, turns_zero, hr.size, RBTree.size]
    omega

/-- A single rotation: the child that comes next is cool. -/
lemma advances_single {s : Side} {kp : κ} {g : RBTree κ} {top : Path κ} (hl : Blackened n l l')
    (hr : Blackened n r r') (hg : RB true n g) (htop : Hole top false (n + 1))
    (hsided : Sided cmp (⟨s, false, kp, g⟩ :: top))
    (hbefore : before (⟨s, false, kp, g⟩ :: top) = before path)
    (hafter : after (⟨s, false, kp, g⟩ :: top) = after path) :
    Advances cmp 0 path (.node false l k r) .single (⟨s, false, kp, g⟩ :: top) true l' k r' := by
  refine ⟨by rw [hbefore, hafter]; simp [RBTree.inorder, hl.inorder, hr.inorder],
    fun hk => ⟨⟨⟨_, _, hl.balanced, .red hr.balanced (.black hg htop)⟩, hsided.cons hk,
      Or.inr (Or.inl ⟨rfl, hl.cool⟩)⟩, ?_⟩,
    fun hk => ⟨⟨⟨_, _, hr.balanced, .red hl.balanced (.black hg htop)⟩, hsided.cons hk,
      Or.inr (Or.inl ⟨rfl, hr.cool⟩)⟩, ?_⟩⟩
  · show turns cmp 1 l' < turns cmp 0 _
    rw [turns_one, turns_zero, hl.size, RBTree.size]
    omega
  · show turns cmp 1 r' < turns cmp 0 _
    rw [turns_one, turns_zero, hr.size, RBTree.size]
    omega

/-- A double rotation: it is the child after the next that is cool. -/
lemma advances_double {kl kr : κ} {a b : RBTree κ} {top : Path κ} (hl : Blackened n l l')
    (hr : Blackened n r r') (ha : RB false n a) (hb : RB false n b) (hkl : 0 < cmp kl)
    (hkr : cmp kr < 0) (htop : Hole top false (n + 1)) (hsided : Sided cmp top)
    (hbefore : before path = before top ++ a.inorder ++ [kl])
    (hafter : after path = kr :: b.inorder ++ after top) :
    Advances cmp 0 path (.node false l k r) .double top false (.node true a kl l') k
      (.node true r' kr b) := by
  refine ⟨?_,
    fun hk => ⟨⟨⟨_, _, .red ha hl.balanced, .black (.red hr.balanced hb) htop⟩, hsided.cons hk,
      Or.inr (Or.inr ⟨rfl, rfl, by omega, fun h => absurd h (by omega), fun _ => hl.cool⟩)⟩, ?_⟩,
    fun hk => ⟨⟨⟨_, _, .red hr.balanced hb, .black (.red ha hl.balanced) htop⟩, hsided.cons hk,
      Or.inr (Or.inr ⟨rfl, rfl, by omega, fun _ => hr.cool, fun h => absurd h (by omega)⟩)⟩, ?_⟩⟩
  · rw [hbefore, hafter]
    simp [RBTree.inorder, hl.inorder, hr.inorder]
  · show turns cmp 2 _ < turns cmp 0 _
    rw [turns, turns_zero, if_neg (by omega), hl.size, RBTree.size]
    omega
  · show turns cmp 2 _ < turns cmp 0 _
    rw [turns, turns_zero, if_pos hkr, hr.size, RBTree.size]
    omega

end Blackened

/-- A visit that splits goes on to a cool child, or to one in front of it. -/
lemma Going.split {stale : ℕ} {path : Path κ} {red : Bool} {l r : RBTree κ} {k : κ}
    (h : Going cmp stale path (.node red l k r)) (hs : Splits false l r = true) :
    ∃ rot path' red' l' r', maybeSplit false stale path red l k r =
        some (rot, path', .node red' l' k r') ∧
      Advances cmp stale path (.node red l k r) rot path' red' l' k r' := by
  have hboth : l.isRed = true ∧ r.isRed = true := by simpa [Splits] using hs
  obtain ⟨c, n, hrb, hhole⟩ := h.balanced
  -- two red children: the node is black, and no rotation has just been made
  cases hrb with
  | red hl _ =>
      rw [hl.isRed] at hboth
      exact absurd hboth.1 (by simp)
  | @black m a b _ _ _ hl hr =>
      obtain rfl : a = true := by rw [← hl.isRed, hboth.1]
      obtain rfl : b = true := by rw [← hr.isRed, hboth.2]
      rcases h.ready with ⟨rfl, hclear, -, -⟩ | ⟨rfl, hcool⟩ | ⟨rfl, hahead⟩
      · obtain ⟨rot, path', t, heq, hat⟩ :=
          maybeSplit_split false k hs hhole.weaken (hclear hboth) h.sided
        have hlb := Blackened.of_red hl
        have hrb := Blackened.of_red hr
        generalize l.blacken = l' at heq hat hlb
        generalize r.blacken = r' at heq hat hrb
        refine ⟨rot, path', ?_⟩
        cases hat with
        | none hp => exact ⟨_, _, _, heq, hlb.advances_none hrb hp h.sided⟩
        | single hg htop hsided hbefore hafter =>
            exact ⟨_, _, _, heq, hlb.advances_single hrb hg htop hsided hbefore hafter⟩
        | double ha hb hkl hkr htop hsided hbefore hafter =>
            exact ⟨_, _, _, heq,
              hlb.advances_double hrb ha hb hkl hkr htop hsided hbefore hafter⟩
      · rw [hcool.2.1] at hboth
        exact absurd hboth.1 (by simp)
      · exact absurd hahead.1 (by simp)

/-- **One visit** that did not find the key. -/
lemma Going.step {stale : ℕ} {path : Path κ} {red : Bool} {l r : RBTree κ} {k : κ}
    (h : Going cmp stale path (.node red l k r)) :
    ∃ rot path' red' l' r', maybeSplit false stale path red l k r =
        some (rot, path', .node red' l' k r') ∧
      Advances cmp stale path (.node red l k r) rot path' red' l' k r' := by
  cases hs : Splits false l r with
  | false => exact ⟨.none, path, red, l, r, maybeSplit_of_not hs, h.keep hs⟩
  | true => exact h.split hs

/-- What the search reports of the keys `l`, and what it makes of them. -/
def Sought (cmp : κ → ℤ) (alloc : Bool) (key : κ) (l : List κ) : Found κ → List κ → Prop
  | .found k, l' => l' = l ∧ k ∈ l ∧ cmp k = 0
  | .inserted, l' => alloc = true ∧ ∃ l₁ l₂, l = l₁ ++ l₂ ∧ l' = l₁ ++ key :: l₂ ∧
      (∀ a ∈ l₁, 0 < cmp a) ∧ ∀ b ∈ l₂, cmp b < 0
  | .failed, l' => alloc = false ∧ l' = l ∧ ∀ a ∈ l, cmp a ≠ 0

/-- A result of the search: a red-black tree with the keys it should have. -/
def Searched (cmp : κ → ℤ) (alloc : Bool) (key : κ) (l : List κ)
    (res : Option (Found κ × RBTree κ)) : Prop :=
  ∃ found t, res = some (found, t) ∧ (∃ c n, RB c n t) ∧ Sought cmp alloc key l found t.inorder

/-- The end of the way: the new node, and the repair above it. -/
lemma Going.nil {alloc : Bool} {key : κ} {fuel stale : ℕ} {path : Path κ}
    (h : Going cmp stale path .nil) (hcut : Cut cmp (before path ++ after path)) :
    Searched cmp alloc key (before path ++ after path)
      (tsearchLoop alloc cmp key fuel stale path .nil) := by
  obtain ⟨c, n, hrb, hhole⟩ := h.balanced
  cases hrb
  have hsides := h.sided.sides (x := []) (by simpa using hcut)
  have hloop : tsearchLoop alloc cmp key fuel stale path .nil =
      if alloc then
        if path = [] then some (.inserted, .node true .nil key .nil)
        else
          match maybeSplit true stale path true .nil key .nil with
          | none => none
          | some (_, path, t) => some (.inserted, zip path t)
      else some (.failed, zip path .nil) := by
    cases fuel <;> rfl
  rw [hloop]
  cases alloc with
  | false =>
      refine ⟨.failed, zip path .nil, rfl, RB.nil.zip hhole, rfl, ?_, fun a ha => ?_⟩
      · simp [inorder_zip, RBTree.inorder]
      · rcases List.mem_append.mp ha with ha | ha
        · have := hsides.1 a ha
          omega
        · have := hsides.2 a ha
          omega
  | true =>
      rw [if_pos rfl]
      by_cases hpath : path = []
      · subst hpath
        exact ⟨.inserted, _, if_pos rfl, ⟨true, 0, .red .nil .nil⟩, rfl, [], [], rfl, rfl,
          hsides.1, hsides.2⟩
      · rw [if_neg hpath]
        obtain ⟨rfl, hclear⟩ : stale = 0 ∧ Clear path := by
          rcases h.ready with ⟨h0, hclear, -⟩ | ⟨-, hf⟩ | ⟨-, hf⟩
          · exact ⟨h0, hclear trivial⟩
          · exact absurd hf id
          · exact absurd hf id
        obtain ⟨rot, path', t, heq, hat⟩ :=
          maybeSplit_split true key (show Splits true .nil .nil = true from rfl) hhole hclear
            h.sided
        rw [heq]
        have inserted (hrb : ∃ c n, RB c n (zip path' t))
            (hin : (zip path' t).inorder = before path ++ key :: after path) :
            Searched cmp true key (before path ++ after path)
              (some (.inserted, zip path' t)) :=
          ⟨.inserted, _, rfl, hrb, rfl, _, _, rfl, hin, hsides.1, hsides.2⟩
        cases hat with
        | none hp =>
            refine inserted ((RB.red .nil .nil).zip hp) ?_
            simp [inorder_zip, RBTree.inorder, RBTree.blacken]
        | single hg htop hsided hbefore hafter =>
            refine inserted ((RB.red .nil .nil).zip (.black hg htop)) ?_
            rw [inorder_zip, hbefore, hafter]
            simp [RBTree.inorder, RBTree.blacken]
        | double ha hb hkl hkr htop hsided hbefore hafter =>
            refine inserted ((RB.black (.red ha .nil) (.red .nil hb)).zip htop) ?_
            rw [inorder_zip, hbefore, hafter]
            simp [RBTree.inorder, RBTree.blacken]

/-- **The loop ends with an answer**, from every state of the invariant. -/
theorem tsearchLoop_spec (alloc : Bool) (key : κ) {fuel stale : ℕ} {path : Path κ}
    {t : RBTree κ} (h : Going cmp stale path t) (hfuel : turns cmp stale t ≤ fuel)
    (hcut : Cut cmp (before path ++ t.inorder ++ after path)) :
    Searched cmp alloc key (before path ++ t.inorder ++ after path)
      (tsearchLoop alloc cmp key fuel stale path t) := by
  induction fuel generalizing stale path t with
  | zero =>
      cases t with
      | nil =>
          rw [RBTree.inorder, List.append_nil] at hcut ⊢
          exact h.nil hcut
      | node red l k r =>
          exfalso
          have : 0 < turns cmp stale (.node red l k r) := by
            rw [turns.eq_def]
            split <;> omega
          omega
  | succ fuel ih =>
      cases t with
      | nil =>
          rw [RBTree.inorder, List.append_nil] at hcut ⊢
          exact h.nil hcut
      | node red l k r =>
          rw [tsearchLoop]
          by_cases hk : cmp k = 0
          · rw [if_pos hk]
            obtain ⟨c, n, hrb, hhole⟩ := h.balanced
            exact ⟨.found k, _, rfl, hrb.zip hhole, inorder_zip _ _, by simp [RBTree.inorder], hk⟩
          · obtain ⟨rot, path', red', l', r', heq, hin, hleft, hright⟩ := h.step
            rw [if_neg hk, heq]
            dsimp only
            rw [← hin] at hcut ⊢
            by_cases hlt : cmp k < 0
            · obtain ⟨hgo, hturns⟩ := hleft hlt
              have hl : before path' ++ (RBTree.node red' l' k r').inorder ++ after path' =
                  before (⟨.left, red', k, r'⟩ :: path') ++ l'.inorder ++
                    after (⟨.left, red', k, r'⟩ :: path') := by
                simp [before, after, RBTree.inorder]
              rw [if_pos hlt]
              rw [hl] at hcut ⊢
              exact ih hgo (by omega) hcut
            · obtain ⟨hgo, hturns⟩ := hright (by omega)
              have hr : before path' ++ (RBTree.node red' l' k r').inorder ++ after path' =
                  before (⟨.right, red', k, l'⟩ :: path') ++ r'.inorder ++
                    after (⟨.right, red', k, l'⟩ :: path') := by
                simp [before, after, RBTree.inorder]
              rw [if_neg hlt]
              rw [hr] at hcut ⊢
              exact ih hgo (by omega) hcut

end Loop

/-- **`tsearch2`**: the tree stays red-black; a key that compares equal is found, and otherwise
the new key goes between those on either side of it. -/
theorem tsearch2_spec {cmp : κ → ℤ} {alloc : Bool} {key : κ} {t : RBTree κ} {c : Bool} {n : ℕ}
    (ht : RB c n t) (hcut : Cut cmp t.inorder) :
    Searched cmp alloc key t.inorder (tsearch2 alloc cmp key t) := by
  obtain ⟨m, hm⟩ := ht.blacken_exists
  have hgo : Going cmp 0 [] t.blacken :=
    ⟨⟨false, m, hm, .top⟩, fun f hf => absurd hf (by simp),
      Or.inl ⟨rfl, fun _ => trivial, fun h => absurd rfl h, fun _ => hm.isRed⟩⟩
  have hturns : turns cmp 0 t.blacken ≤ 2 * t.size + 1 := by
    rw [turns_zero, RBTree.size_blacken]
  have hin : before ([] : Path κ) ++ t.blacken.inorder ++ after [] = t.inorder := by
    simp [before, after]
  have h := tsearchLoop_spec alloc key hgo hturns (by rwa [hin])
  rwa [hin] at h

/-! ### The search -/

section Find

variable {cmp : κ → ℤ} {t : RBTree κ}

/-- What is found is a key that compares equal. -/
lemma tfind_eq_some {k : κ} (h : tfind cmp t = some k) : k ∈ t.inorder ∧ cmp k = 0 := by
  induction t with
  | nil => exact absurd h (by simp [tfind])
  | node red l k' r ihl ihr =>
      rw [tfind] at h
      rw [RBTree.inorder]
      split_ifs at h with h0 hlt
      · cases h
        exact ⟨by simp, h0⟩
      · obtain ⟨h1, h2⟩ := ihl h
        exact ⟨by simp [h1], h2⟩
      · obtain ⟨h1, h2⟩ := ihr h
        exact ⟨by simp [h1], h2⟩

/-- **If there is such a key, one is found.** -/
lemma tfind_eq_none (hcut : Cut cmp t.inorder) (h : tfind cmp t = none) :
    ∀ k ∈ t.inorder, cmp k ≠ 0 := by
  induction t with
  | nil => simp [RBTree.inorder]
  | node red l k' r ihl ihr =>
      rw [RBTree.inorder] at hcut ⊢
      obtain ⟨hpos, hneg⟩ := hcut.sides
      obtain ⟨hl, hr, -⟩ := Cut.append.mp hcut
      have hr := (List.pairwise_cons.mp hr).2
      rw [tfind] at h
      intro k hk
      rw [List.mem_append, List.mem_cons] at hk
      split_ifs at h with h0 hlt
      · rcases hk with hk | rfl | hk
        · exact ihl hl h k hk
        · exact h0
        · have := hneg hlt k hk
          omega
      · rcases hk with hk | rfl | hk
        · have := hpos (by omega) k hk
          omega
        · exact h0
        · exact ihr hr h k hk

end Find

end SipEcho
