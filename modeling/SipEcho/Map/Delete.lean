import SipEcho.Lib.Loop
import SipEcho.Map.Search

/-!
`tdelete2`: deletion from an index tree.

`nodestack` is the path: the nodes from the one above the place up to the root.  The node to be
deleted keeps its place and takes the key of its successor, which is unchained instead.

* `deleteSeek_spec`, `successor_spec`: the ways down;
* `blackBrother_spec`, `rebalance_spec`: one turn of the repair and the repair, for a subtree that
  is `Short` of one black node;
* `tdelete2_spec`: the tree stays red-black and loses exactly the key that compares equal; the call
  fails only on a tree of more than 100 levels.
-/

namespace SipEcho

open Lib

variable {κ : Type}

/-- Why a call does not return: `abort()`, an address that is null or out of bounds, or a loop that
uses up its fuel. -/
inductive Fault where
  | abort
  | crash
  | fuel
  deriving DecidableEq, Repr

/-- `int stacksize = 100`. -/
def stacksize : ℕ := 100

/-- The way to the node to be deleted. -/
def deleteSeek (cmp : κ → ℤ) :
    Path κ → RBTree κ → Except Fault (Option (Path κ × Bool × RBTree κ × κ × RBTree κ))
  | _, .nil => .ok none
  | path, .node red l k r =>
      if cmp k = 0 then .ok (some (path, red, l, k, r))
      else if path.length = stacksize then .error .abort
      else if cmp k < 0 then deleteSeek cmp (⟨.left, red, k, r⟩ :: path) l
      else deleteSeek cmp (⟨.right, red, k, l⟩ :: path) r

/-- The way to the successor, from the right child of the node down; `sp` nodes are on the stack
above it.  The result has the colour, the key and the right child of the successor. -/
def successor (sp : ℕ) : Path κ → RBTree κ → Except Fault (Path κ × Bool × κ × RBTree κ)
  | _, .nil => .error .crash
  | path, .node red .nil k r => .ok (path, red, k, r)
  | path, .node red (.node redl ll kl rl) k r =>
      if sp + path.length = stacksize then .error .abort
      else successor sp (⟨.left, red, k, r⟩ :: path) (.node redl ll kl rl)

/-- The node at `path` is deleted: the path to the node that is unchained, its colour, and the
child that takes its place. -/
def unchain (path : Path κ) (red : Bool) (l r : RBTree κ) :
    Except Fault (Path κ × Bool × RBTree κ) :=
  match l, r with
  | .nil, r => .ok (path, red, r)
  | l, .nil => .ok (path, red, l)
  | l, r =>
      if path.length = stacksize then .error .abort
      else do
        let (below, red', k', r') ← successor (path.length + 1) [] r
        return (below ++ ⟨.right, red, k', l⟩ :: path, red', r')

/-- A turn of the repair: go on with the parent, or be done. -/
inductive Turned (κ : Type) where
  | up (t : RBTree κ)
  | done (t : RBTree κ)

/-- The repair below the node `k` when the brother of `r` is black. -/
def blackBrother (s : Side) (red : Bool) (k : κ) (r brother : RBTree κ) :
    Except Fault (Turned κ) :=
  match brother.parts s with
  | none => .error .crash
  | some (redq, near, kq, far) =>
      if !near.isRed && !far.isRed then
        -- two black successors: the brother becomes red
        .ok (.up (RBTree.mk s red r k (RBTree.mk s true near kq far)))
      else if !far.isRed then
        -- the near one is red: it becomes the top
        match near.parts s with
        | none => .error .crash
        | some (_, a, k2, b) =>
            .ok (.done (RBTree.mk s red (RBTree.mk s false r k a) k2 (RBTree.mk s redq b kq far)))
      else
        -- the far one is red: the brother becomes the top
        .ok (.done (RBTree.mk s red (RBTree.mk s false r k near) kq far.blacken))

/-- The repair: `r` has one black node too few. -/
def rebalance : Path κ → RBTree κ → Except Fault (RBTree κ)
  | [], r => .ok r.blacken
  | p :: path, r =>
      if r.isRed then .ok (zip (p :: path) r.blacken)
      else
        match p.sib.parts p.side with
        | none => .error .crash
        | some (true, near, kq, far) =>
            -- a red brother becomes the top, and `nodestack` takes one node more
            if (p :: path).length = stacksize then .error .crash
            else do
              match ← blackBrother p.side true p.key r near with
              | .up t => return zip (⟨p.side, false, kq, far⟩ :: path) t.blacken
              | .done t => return zip (⟨p.side, false, kq, far⟩ :: path) t
        | some (false, _, _, _) => do
            match ← blackBrother p.side p.red p.key r p.sib with
            | .up t => rebalance path t
            | .done t => return zip path t

/-- `tdelete2`; a key that is not found changes nothing. -/
def tdelete2 (cmp : κ → ℤ) (t : RBTree κ) : Except Fault (RBTree κ) := do
  match ← deleteSeek cmp [] t with
  | none => return t
  | some (path, red, l, _, r) =>
      let (path, red, r) ← unchain path red l r
      if red then return zip path r else rebalance path r

/-! ### The ways down -/

section Seek

variable {cmp : κ → ℤ} {N : ℕ}

/-- The place of a node: what is around it fits, and the way down is of at most `N` nodes. -/
structure Placed (N : ℕ) (path : Path κ) (t : RBTree κ) : Prop where
  balanced : ∃ c n, RB c n t ∧ Hole path c n
  room : path.length + t.height ≤ N

section Placed

variable {path : Path κ} {red : Bool} {l r : RBTree κ} {k : κ}

lemma Placed.left (h : Placed N path (.node red l k r)) :
    Placed N (⟨.left, red, k, r⟩ :: path) l := by
  obtain ⟨c, n, hrb, hp⟩ := h.balanced
  obtain ⟨m, a, b, hl, hr, hpl, hpr, -⟩ := hrb.child hp
  have := h.room
  rw [RBTree.height] at this
  exact ⟨⟨a, m, hl, hpl⟩, by simp only [List.length_cons]; omega⟩

lemma Placed.right (h : Placed N path (.node red l k r)) :
    Placed N (⟨.right, red, k, l⟩ :: path) r := by
  obtain ⟨c, n, hrb, hp⟩ := h.balanced
  obtain ⟨m, a, b, hl, hr, hpl, hpr, -⟩ := hrb.child hp
  have := h.room
  rw [RBTree.height] at this
  exact ⟨⟨b, m, hr, hpr⟩, by simp only [List.length_cons]; omega⟩

lemma Placed.length_lt (h : Placed N path (.node red l k r)) : path.length < N := by
  have := h.room
  rw [RBTree.height] at this
  omega

end Placed

/-- What the way down ends at: the key that compares equal, or nothing as there is none. -/
def Seeks (cmp : κ → ℤ) (N : ℕ) (path : Path κ) (t : RBTree κ) :
    Option (Path κ × Bool × RBTree κ × κ × RBTree κ) → Prop
  | none => ∀ k ∈ t.inorder, cmp k ≠ 0
  | some (path', red, l, k, r) => cmp k = 0 ∧ Placed N path' (.node red l k r) ∧
      before path' ++ (RBTree.node red l k r).inorder ++ after path' =
        before path ++ t.inorder ++ after path

/-- **The way down.** -/
lemma deleteSeek_spec {path : Path κ} {t : RBTree κ} (h : Placed N path t)
    (hcut : Cut cmp t.inorder) :
    Meets (stacksize < N) (Seeks cmp N path t) (deleteSeek cmp path t) := by
  induction t generalizing path with
  | nil =>
      show ∀ k ∈ (RBTree.nil : RBTree κ).inorder, cmp k ≠ 0
      simp [RBTree.inorder]
  | node red l k r ihl ihr =>
      rw [RBTree.inorder] at hcut
      obtain ⟨hpos, hneg⟩ := hcut.sides
      obtain ⟨hl, hr, -⟩ := Cut.append.mp hcut
      have hr := (List.pairwise_cons.mp hr).2
      rw [deleteSeek]
      by_cases h0 : cmp k = 0
      · rw [if_pos h0]
        exact ⟨h0, h, rfl⟩
      · rw [if_neg h0]
        by_cases hfull : path.length = stacksize
        · rw [if_pos hfull]
          exact hfull ▸ h.length_lt
        · rw [if_neg hfull]
          by_cases hlt : cmp k < 0
          · rw [if_pos hlt]
            refine (ihl h.left hl).mono ?_
            rintro (_ | ⟨path', red', l', k', r'⟩)
            · intro hne a ha
              rw [RBTree.inorder, List.mem_append, List.mem_cons] at ha
              rcases ha with ha | rfl | ha
              · exact hne a ha
              · exact h0
              · have := hneg hlt a ha
                omega
            · rintro ⟨h1, h2, h3⟩
              refine ⟨h1, h2, ?_⟩
              rw [h3]
              simp [before, after, RBTree.inorder]
          · rw [if_neg hlt]
            refine (ihr h.right hr).mono ?_
            rintro (_ | ⟨path', red', l', k', r'⟩)
            · intro hne a ha
              rw [RBTree.inorder, List.mem_append, List.mem_cons] at ha
              rcases ha with ha | rfl | ha
              · have := hpos (by omega) a ha
                omega
              · exact h0
              · exact hne a ha
            · rintro ⟨h1, h2, h3⟩
              refine ⟨h1, h2, ?_⟩
              rw [h3]
              simp [before, after, RBTree.inorder]

/-- What the way to the successor ends at: the first key of the subtree, in a place below
whatever `base` the subtree is in. -/
def Succeeds (N sp : ℕ) (path : Path κ) (t : RBTree κ) :
    Path κ × Bool × κ × RBTree κ → Prop
  | (below, red', k', r') => sp + below.length < N ∧ before below = [] ∧
      k' :: r'.inorder ++ after below = t.inorder ++ after path ∧
      ∀ base c n, RB c n t → Hole (path ++ base) c n →
        ∃ c' n', RB c' n' (.node red' .nil k' r') ∧ Hole (below ++ base) c' n'

/-- **The way to the successor.** -/
lemma successor_spec {sp : ℕ} {path : Path κ} {red : Bool} {l r : RBTree κ} {k : κ}
    (hroom : sp + path.length + (RBTree.node red l k r).height ≤ N) (hpath : before path = []) :
    Meets (stacksize < N) (Succeeds N sp path (.node red l k r))
      (successor sp path (.node red l k r)) := by
  induction l generalizing path red k r with
  | nil =>
      rw [RBTree.height] at hroom
      exact ⟨by omega, hpath, by simp [RBTree.inorder], fun base c n h hp => ⟨c, n, h, hp⟩⟩
  | node redl ll kl rl ihl =>
      have hroom' : sp + (⟨.left, red, k, r⟩ :: path : Path κ).length +
          (RBTree.node redl ll kl rl).height ≤ N := by
        rw [RBTree.height] at hroom
        simp only [List.length_cons]
        omega
      rw [successor]
      by_cases hfull : sp + path.length = stacksize
      · rw [if_pos hfull]
        show stacksize < N
        rw [RBTree.height] at hroom
        omega
      · rw [if_neg hfull]
        refine (ihl hroom' (by simp [before, hpath])).mono ?_
        rintro ⟨below, red', k', r'⟩ ⟨h1, h2, h3, h4⟩
        refine ⟨h1, h2, ?_, fun base c n h hp => ?_⟩
        · rw [h3]
          simp [after, RBTree.inorder]
        · obtain ⟨m, a, b, hl, -, hpl, -⟩ := h.child hp
          exact h4 base a m hl hpl

/-- What unchaining leaves of a node at `path` with the children `l` and `r`: the keys but one,
and in the place of the unchained node its only child. -/
def Unchains (N : ℕ) (path : Path κ) (l r : RBTree κ) : Path κ × Bool × RBTree κ → Prop
  | (path', red', r') => path'.length < N ∧
      before path' ++ r'.inorder ++ after path' =
        before path ++ l.inorder ++ r.inorder ++ after path ∧
      ∃ c n, (∃ k', RB c n (.node red' .nil k' r') ∨ RB c n (.node red' r' k' .nil)) ∧
        Hole path' c n

/-- **Unchaining.** -/
lemma unchain_spec {path : Path κ} {red : Bool} {l r : RBTree κ} {k : κ}
    (h : Placed N path (.node red l k r)) :
    Meets (stacksize < N) (Unchains N path l r) (unchain path red l r) := by
  obtain ⟨c, n, hrb, hp⟩ := h.balanced
  cases l with
  | nil => exact ⟨h.length_lt, by simp [RBTree.inorder], c, n, ⟨k, Or.inl hrb⟩, hp⟩
  | node redl ll kl rl =>
      cases r with
      | nil => exact ⟨h.length_lt, by simp [RBTree.inorder], c, n, ⟨k, Or.inr hrb⟩, hp⟩
      | node redr lr kr rr =>
          simp only [unchain]
          by_cases hfull : path.length = stacksize
          · rw [if_pos hfull]
            exact hfull ▸ h.length_lt
          · rw [if_neg hfull]
            have hroom := h.right.room
            rw [List.length_cons] at hroom
            have hseek : Meets _ (Succeeds N (path.length + 1) [] (.node redr lr kr rr)) _ :=
              successor_spec (by simpa using hroom) rfl
            refine hseek.bind ?_
            rintro ⟨below, red', k', r'⟩ ⟨h2, h3, h4, h5⟩
            obtain ⟨m, a, b, hl, hr, -, hpr, -⟩ := hrb.child hp
            -- the frame of the node holds the key of the successor
            have hpr' : Hole (⟨.right, red, k', .node redl ll kl rl⟩ :: path) b m := by
              cases hpr with
              | red hs hp => exact .red hs hp
              | black hs hp => exact .black hs hp
            obtain ⟨c', n', h6, h7⟩ := h5 _ b m hr hpr'
            refine ⟨?_, ?_, c', n', ⟨k', Or.inl h6⟩, h7⟩
            · simp only [List.length_append, List.length_cons]
              omega
            · have h4' : k' :: (r'.inorder ++ after below) =
                  (RBTree.node redr lr kr rr).inorder := by
                simpa [after] using h4
              rw [before_append, after_append, h3, before, after, ← h4']
              simp

end Seek

/-! ### The repair -/

/-- `t` lacks one black node of the height `n`, or has a red root that can become it. -/
def Short (n : ℕ) (t : RBTree κ) : Prop :=
  (t.isRed = true ∧ RB false n t.blacken) ∨ ∃ m, n = m + 1 ∧ RB false m t

/-- The repair of the subtree below a node of colour `red` yields height `n`: `Short` where it
goes on, and a whole tree where it is done. -/
def Turned.Mends (red : Bool) (n : ℕ) (keys : List κ) : Turned κ → Prop
  | .up t => Short n t ∧ t.inorder = keys ∧ t.isRed = red
  | .done t => RB red n t ∧ t.inorder = keys

/-- The black height of a node of colour `red` over `n`. -/
def above (red : Bool) (n : ℕ) : ℕ := if red then n else n + 1

lemma RB.mk_above {s : Side} {red : Bool} {k : κ} {n : ℕ} {a b : RBTree κ} (ha : RB false n a)
    (hb : RB false n b) : RB red (above red n) (RBTree.mk s red a k b) := by
  cases red
  · exact RB.mk_black ha hb
  · exact RB.mk_red ha hb

/-- **One turn of the repair.** -/
lemma blackBrother_spec (s : Side) (red : Bool) (k : κ) {n : ℕ} {r brother : RBTree κ}
    (hr : RB false n r) (hb : RB false (n + 1) brother) :
    ∃ turned, blackBrother s red k r brother = .ok turned ∧
      turned.Mends red (above red (n + 1)) (RBTree.mk s red r k brother).inorder := by
  obtain ⟨a, b, near, kq, far, rfl, hparts, hnear, hfar⟩ := hb.parts_black s
  rw [blackBrother, hparts]
  dsimp only
  rw [hnear.isRed, hfar.isRed]
  cases b with
  | true =>
      -- the far nephew is red
      rw [if_neg (by simp), if_neg (by simp)]
      refine ⟨.done _, rfl, ?_, ?_⟩
      · exact RB.mk_above (RB.mk_black hr hnear) hfar.blacken
      · cases s <;> simp [RBTree.mk, RBTree.inorder]
  | false =>
      cases a with
      | true =>
          -- the near nephew is red
          obtain ⟨x, k2, y, rfl, hparts', hx, hy⟩ := hnear.parts_red s
          rw [if_neg (by simp), if_pos (by simp), hparts']
          refine ⟨.done _, rfl, ?_, ?_⟩
          · exact RB.mk_above (RB.mk_black hr hx) (RB.mk_black hy hfar)
          · cases s <;> simp [RBTree.mk, RBTree.inorder]
      | false =>
          rw [if_pos (by simp)]
          refine ⟨.up _, rfl, ?_, ?_, ?_⟩
          · cases red with
            | true =>
                refine Or.inl ⟨by cases s <;> rfl, ?_⟩
                have : (RBTree.mk s true r k (RBTree.mk s true near kq far)).blacken =
                    RBTree.mk s false r k (RBTree.mk s true near kq far) := by cases s <;> rfl
                rw [this]
                exact RB.mk_black hr (RB.mk_red hnear hfar)
            | false => exact Or.inr ⟨n + 1, rfl, RB.mk_black hr (RB.mk_red hnear hfar)⟩
          · cases s <;> simp [RBTree.mk, RBTree.inorder]
          · cases s <;> rfl

/-- Below a red node the repair ends: the root it has left becomes black. -/
lemma Turned.Mends.blacken {n : ℕ} {keys : List κ} {t : RBTree κ}
    (h : (Turned.up t).Mends true n keys) : RB false n t.blacken ∧ t.blacken.inorder = keys := by
  obtain ⟨hshort, hkeys, hred⟩ := h
  refine ⟨?_, by rw [RBTree.inorder_blacken, hkeys]⟩
  rcases hshort with ⟨-, h⟩ | ⟨_, -, h⟩
  · exact h
  · rw [h.isRed] at hred
    exact absurd hred (by simp)

/-- A red-black tree with the keys `keys`. -/
def Mended (keys : List κ) (t : RBTree κ) : Prop :=
  (∃ c n, RB c n t) ∧ t.inorder = keys

/-- **The repair** yields a red-black tree with the same keys. -/
lemma rebalance_spec {path : Path κ} {r : RBTree κ} {c : Bool} {n N : ℕ} (hr : Short n r)
    (hp : Hole path c n) (hroom : path.length < N) :
    Meets (stacksize < N) (Mended (before path ++ r.inorder ++ after path))
      (rebalance path r) := by
  induction path generalizing r c n with
  | nil =>
      refine ⟨?_, by simp [before, after]⟩
      rcases hr with ⟨-, hr⟩ | ⟨m, -, hr⟩
      · exact ⟨_, _, hr⟩
      · exact ⟨false, hr.blacken_exists⟩
  | cons p path ih =>
      obtain ⟨s, red, k, sib⟩ := p
      have hin {t : RBTree κ} (h : t.inorder = (RBTree.mk s red r k sib).inorder) :
          before path ++ t.inorder ++ after path =
            before (⟨s, red, k, sib⟩ :: path) ++ r.inorder ++ after (⟨s, red, k, sib⟩ :: path) := by
        rw [h]
        cases s <;> simp [before, after, RBTree.mk, RBTree.inorder]
      rw [rebalance]
      rcases hr with ⟨hred, hr⟩ | ⟨m, rfl, hr⟩
      · rw [if_pos hred]
        refine ⟨hr.zip_black hp, ?_⟩
        rw [inorder_zip, RBTree.inorder_blacken]
      · rw [if_neg (by simp [hr.isRed])]
        rw [List.length_cons] at hroom
        obtain ⟨b, hsib, hpath, hcol⟩ : ∃ b, RB b (m + 1) sib ∧ Hole path red (above red (m + 1)) ∧
            (red = true → b = false) := by
          cases hp with
          | red hs hp => exact ⟨false, hs, hp, fun _ => rfl⟩
          | black hs hp => exact ⟨_, hs, hp, fun h => absurd h (by simp)⟩
        cases b with
        | true =>
            obtain rfl : red = false := by
              cases red
              · rfl
              · exact absurd (hcol rfl) (by simp)
            obtain ⟨near, kq, far, rfl, hparts, hnear, hfar⟩ := hsib.parts_red s
            dsimp only
            rw [hparts]
            dsimp only
            by_cases hfull : (⟨s, false, k, RBTree.mk s true near kq far⟩ :: path : Path κ).length =
                stacksize
            · rw [if_pos hfull]
              show stacksize < N
              rw [List.length_cons] at hfull
              omega
            · rw [if_neg hfull]
              obtain ⟨turned, heq, hmends⟩ := blackBrother_spec s true k hr hnear
              rw [heq]
              have hpath' : Hole (⟨s, false, kq, far⟩ :: path) true (m + 1) := .black hfar hpath
              cases turned with
              | up t =>
                  obtain ⟨hrb, hkeys⟩ := hmends.blacken
                  refine ⟨hrb.zip_black hpath', ?_⟩
                  rw [inorder_zip, hkeys]
                  cases s <;> simp [before, after, RBTree.mk, RBTree.inorder]
              | done t =>
                  obtain ⟨hrb, hkeys⟩ := hmends
                  refine ⟨hrb.zip hpath', ?_⟩
                  rw [inorder_zip, hkeys]
                  cases s <;> simp [before, after, RBTree.mk, RBTree.inorder]
        | false =>
            obtain ⟨_, _, near, kq, far, hsibeq, hparts, -, -⟩ := hsib.parts_black s
            dsimp only
            rw [hparts]
            dsimp only
            obtain ⟨turned, heq, hmends⟩ := blackBrother_spec s red k hr hsib
            rw [heq]
            cases turned with
            | up t =>
                obtain ⟨hshort, hkeys, -⟩ := hmends
                exact hin hkeys ▸ ih hshort hpath (by omega)
            | done t =>
                obtain ⟨hrb, hkeys⟩ := hmends
                refine ⟨hrb.zip hpath, ?_⟩
                rw [inorder_zip, hin hkeys]

/-- What `tdelete2` makes of the keys `l`: they lose one that compares equal, or none does. -/
def Deletes (cmp : κ → ℤ) (l l' : List κ) : Prop :=
  (l' = l ∧ ∀ k ∈ l, cmp k ≠ 0) ∨
    ∃ l₁ k l₂, l = l₁ ++ k :: l₂ ∧ cmp k = 0 ∧ l' = l₁ ++ l₂

/-- **`tdelete2`.** -/
theorem tdelete2_spec {cmp : κ → ℤ} {t : RBTree κ} {c : Bool} {n : ℕ} (ht : RB c n t)
    (hcut : Cut cmp t.inorder) :
    Meets (stacksize < t.height) (fun t' => (∃ c n, RB c n t') ∧ Deletes cmp t.inorder t'.inorder)
      (tdelete2 cmp t) := by
  have hplaced : Placed t.height [] t := ⟨⟨c, n, ht, .top⟩, by simp⟩
  refine (deleteSeek_spec hplaced hcut).bind ?_
  rintro (_ | ⟨path, red, l, k, r⟩)
  · intro hne
    exact ⟨⟨c, n, ht⟩, Or.inl ⟨rfl, hne⟩⟩
  · rintro ⟨h1, h2, h3⟩
    refine (unchain_spec h2).bind ?_
    rintro ⟨path', red', r'⟩ ⟨h4, h5, c', n', ⟨k', h6⟩, h7⟩
    have hold : t.inorder = (before path ++ l.inorder) ++ k :: (r.inorder ++ after path) := by
      simpa [before, after, RBTree.inorder] using h3.symm
    have mended {t' : RBTree κ} (h : Mended (before path' ++ r'.inorder ++ after path') t') :
        (∃ c n, RB c n t') ∧ Deletes cmp t.inorder t'.inorder := by
      refine ⟨h.1, Or.inr ⟨_, k, _, hold, h1, ?_⟩⟩
      rw [h.2, h5]
      simp
    cases red' with
    | true =>
        -- a red node: what takes its place is as high as it was
        have hrb : RB false n' r' := by
          rcases h6 with h | h
          · cases h with
            | red _ h => exact h
          · cases h with
            | red h _ => exact h
        exact mended ⟨hrb.zip_black h7, inorder_zip _ _⟩
    | false =>
        have hshort : Short n' r' := by
          obtain ⟨m, a, rfl, hrb⟩ : ∃ m a, n' = m + 1 ∧ RB a m r' := by
            rcases h6 with h | h
            · cases h with
              | black _ h => exact ⟨_, _, rfl, h⟩
            · cases h with
              | black h _ => exact ⟨_, _, rfl, h⟩
          cases a with
          | false => exact Or.inr ⟨m, rfl, hrb⟩
          | true => exact Or.inl ⟨hrb.isRed, hrb.blacken⟩
        exact (rebalance_spec hshort h7 h4).mono fun _ => mended

end SipEcho
