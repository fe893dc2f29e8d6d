import SipEcho.Map.Delete

/-!
Sequences of `tsearch2` and `tdelete2` on an index tree, which begins empty.

* `RBTree.redsApart`, `RBTree.blackWays`: the colours, as properties of the tree alone, and
  `RB.redsApart`, `RB.blackWays`, that a red-black tree has them;
* `IndexTree cmp t`: the tree is ordered and red-black; `IndexTree.search`, `IndexTree.delete`: what
  the next call does to it;
* `RB.low`: a tree of fewer than 2^31 nodes has at most 62 levels;
* `index_tree_run`: **every sequence** leaves such a tree, and `tdelete2` leaves its stack of 100
  nodes only on a tree of 2^31 nodes.
-/

namespace SipEcho

namespace Lib

variable {κ : Type}

/-- No red node has a red child. -/
def RBTree.redsApart : RBTree κ → Prop
  | .nil => True
  | .node red l _ r =>
      (red = true → l.isRed = false ∧ r.isRed = false) ∧ l.redsApart ∧ r.redsApart

/-- The black nodes on each way from the root to a child that is absent. -/
def RBTree.blackWays : RBTree κ → List ℕ
  | .nil => [0]
  | .node red l _ r => (l.blackWays ++ r.blackWays).map (· + if red then 0 else 1)

namespace RB

variable {c : Bool} {n : ℕ} {t : RBTree κ}

lemma redsApart (h : RB c n t) : t.redsApart := by
  induction h with
  | nil => trivial
  | red hl hr ihl ihr => exact ⟨fun _ => ⟨hl.isRed, hr.isRed⟩, ihl, ihr⟩
  | black _ _ ihl ihr => exact ⟨fun h => absurd h (by simp), ihl, ihr⟩

lemma blackWays (h : RB c n t) : ∀ b ∈ t.blackWays, b = n := by
  induction h with
  | nil => simp [RBTree.blackWays]
  | red _ _ ihl ihr =>
      intro b hb
      obtain ⟨a, ha, rfl⟩ := List.mem_map.mp hb
      rcases List.mem_append.mp ha with ha | ha
      · exact ihl a ha
      · exact ihr a ha
  | black _ _ ihl ihr =>
      intro b hb
      obtain ⟨a, ha, rfl⟩ := List.mem_map.mp hb
      rcases List.mem_append.mp ha with ha | ha
      · exact congrArg (· + 1) (ihl a ha)
      · exact congrArg (· + 1) (ihr a ha)

/-- **A tree that does not fit the stack has many nodes.** -/
lemma low (h : RB c n t) (htall : stacksize < t.height) : 2 ^ 31 ≤ t.size := by
  have h1 := h.height_le
  have h2 := h.two_pow_le
  have h3 : 50 ≤ n := by
    rw [stacksize] at htall
    split at h1 <;> omega
  have h4 : 2 ^ 50 ≤ 2 ^ n := Nat.pow_le_pow_right (by omega) h3
  omega

end RB

end Lib

open Lib

variable {κ : Type} {cmp : κ → κ → ℤ} {t : RBTree κ}

/-- An index tree: ordered, and red-black. -/
structure IndexTree (cmp : κ → κ → ℤ) (t : RBTree κ) : Prop where
  ordered : t.inorder.Pairwise fun a b => cmp a b < 0
  balanced : ∃ c n, RB c n t

namespace IndexTree

lemma empty : IndexTree cmp .nil := ⟨List.Pairwise.nil, false, 0, .nil⟩

lemma cut (h : IndexTree cmp t) (hcmp : TotalPreorder cmp) (key : κ) :
    Cut (cmp key) t.inorder :=
  hcmp.comparator.cut (f := id) h.ordered key

/-- **`tsearch2`** on an index tree. -/
lemma search (h : IndexTree cmp t) (hcmp : TotalPreorder cmp) (alloc : Bool) (key : κ) :
    ∃ found t', tsearch2 alloc (cmp key) key t = some (found, t') ∧ IndexTree cmp t' ∧
      Sought (cmp key) alloc key t.inorder found t'.inorder := by
  obtain ⟨c, n, hrb⟩ := h.balanced
  have hspec : Searched (cmp key) alloc key _ _ := tsearch2_spec hrb (h.cut hcmp key)
  obtain ⟨found, t', hsearch, hrb', hsought⟩ := hspec
  refine ⟨found, t', hsearch, ⟨?_, hrb'⟩, hsought⟩
  cases found with
  | found k =>
      rw [hsought.1]
      exact h.ordered
  | failed =>
      rw [hsought.2.1]
      exact h.ordered
  | inserted =>
      obtain ⟨-, l₁, l₂, hold, hnew, h₁, h₂⟩ := hsought
      have hordered := h.ordered
      rw [hold, List.pairwise_append] at hordered
      obtain ⟨hl₁, hl₂, hacross⟩ := hordered
      rw [hnew, List.pairwise_append, List.pairwise_cons]
      refine ⟨hl₁, ⟨h₂, hl₂⟩, fun a ha b hb => ?_⟩
      rcases List.mem_cons.mp hb with rfl | hb
      · exact (hcmp.swap _ _).mp (h₁ a ha)
      · exact hacross a ha b hb

/-- **`tdelete2`** on an index tree. -/
lemma delete (h : IndexTree cmp t) (hcmp : TotalPreorder cmp) (key : κ) :
    Meets (2 ^ 31 ≤ t.size)
      (fun t' => IndexTree cmp t' ∧ Deletes (cmp key) t.inorder t'.inorder)
      (tdelete2 (cmp key) t) := by
  obtain ⟨c, n, hrb⟩ := h.balanced
  refine ((tdelete2_spec hrb (h.cut hcmp key)).mono fun t' ht' => ?_).excuse_mono hrb.low
  obtain ⟨hrb', hdeletes⟩ := ht'
  refine ⟨⟨?_, hrb'⟩, hdeletes⟩
  rcases hdeletes with ⟨heq, -⟩ | ⟨l₁, k, l₂, hold, -, hnew⟩
  · rw [heq]
    exact h.ordered
  · have hordered := h.ordered
    rw [hold] at hordered
    rw [hnew]
    exact hordered.sublist (List.Sublist.append_left (List.sublist_cons_self k l₂) l₁)

end IndexTree

/-! ### Sequences of calls -/

/-- A call on the tree; `alloc` is whether there is memory for a node. -/
inductive TreeCall (κ : Type) where
  | insert (alloc : Bool) (key : κ)
  | delete (key : κ)

namespace TreeCall

/-- The tree after a call. -/
def step (cmp : κ → κ → ℤ) (t : RBTree κ) : TreeCall κ → Except Fault (RBTree κ)
  | insert alloc key =>
      match tsearch2 alloc (cmp key) key t with
      | none => throw .crash
      | some (_, t') => return t'
  | delete key => tdelete2 (cmp key) t

/-- The tree after a sequence of calls. -/
def run (cmp : κ → κ → ℤ) (t : RBTree κ) (calls : List (TreeCall κ)) :
    Except Fault (RBTree κ) :=
  calls.foldlM (step cmp) t

/-- One call. -/
lemma step_spec (h : IndexTree cmp t) (hcmp : TotalPreorder cmp) (call : TreeCall κ) :
    Meets (2 ^ 31 ≤ t.size) (IndexTree cmp) (call.step cmp t) := by
  cases call with
  | insert alloc key =>
      obtain ⟨found, t', hsearch, ht', -⟩ := h.search hcmp alloc key
      rw [step, hsearch]
      exact ht'
  | delete key => exact (h.delete hcmp key).mono fun t' ht' => ht'.1

/-- A sequence of calls, which fails on a large tree only. -/
lemma run_spec (h : IndexTree cmp t) (hcmp : TotalPreorder cmp) (calls : List (TreeCall κ)) :
    Meets (∃ m t', run cmp t (calls.take m) = .ok t' ∧ 2 ^ 31 ≤ t'.size) (IndexTree cmp)
      (run cmp t calls) := by
  induction calls generalizing t with
  | nil => exact h
  | cons call calls ih =>
      rw [run, List.foldlM_cons]
      cases hstep : call.step cmp t with
      | error e =>
          have hlarge := step_spec h hcmp call
          rw [hstep] at hlarge
          exact ⟨0, t, rfl, hlarge⟩
      | ok t₁ =>
          refine (ih ((step_spec h hcmp call).ok hstep)).excuse_mono ?_
          rintro ⟨m, t', hrun, hlarge⟩
          refine ⟨m + 1, t', ?_, hlarge⟩
          rw [run, List.take_succ_cons, List.foldlM_cons, hstep]
          exact hrun

end TreeCall

/-- **Any sequence of insertions and deletions**, beginning with the empty tree, under a total
preorder: it leaves an ordered red-black tree, on which the next insertion adds exactly the new
key, and the next deletion removes exactly the key that compares equal.  Only a deletion from a
tree of 2^31 nodes or more may fail. -/
theorem index_tree_run (hcmp : TotalPreorder cmp) (calls : List (TreeCall κ)) :
    Meets (∃ m t, TreeCall.run cmp .nil (calls.take m) = .ok t ∧ 2 ^ 31 ≤ t.size)
      (fun t =>
        t.inorder.Pairwise (fun a b => cmp a b < 0) ∧ t.redsApart ∧
        (∃ n, ∀ b ∈ t.blackWays, b = n) ∧
        (∀ alloc key, ∃ found t', tsearch2 alloc (cmp key) key t = some (found, t') ∧
          Sought (cmp key) alloc key t.inorder found t'.inorder) ∧
        ∀ key, Meets (2 ^ 31 ≤ t.size) (fun t' => Deletes (cmp key) t.inorder t'.inorder)
          (tdelete2 (cmp key) t))
      (TreeCall.run cmp .nil calls) := by
  refine (TreeCall.run_spec .empty hcmp calls).mono fun t h => ?_
  obtain ⟨c, n, hrb⟩ := h.balanced
  refine ⟨h.ordered, hrb.redsApart, ⟨n, hrb.blackWays⟩, fun alloc key => ?_, fun key => ?_⟩
  · obtain ⟨found, t', hsearch, -, hsought⟩ := h.search hcmp alloc key
    exact ⟨found, t', hsearch, hsought⟩
  · exact (h.delete hcmp key).mono fun t' ht' => ht'.2

/-- Two numbers go in, and one of them out. -/
theorem index_tree_run_pair :
    Meets (∃ m t, TreeCall.run (fun a b : ℤ => a - b) .nil
        ([.insert true 2, .insert true 1, .delete 2].take m) = .ok t ∧ 2 ^ 31 ≤ t.size)
      (fun t =>
        t.inorder.Pairwise (fun a b => a - b < 0) ∧ t.redsApart ∧
        (∃ n, ∀ b ∈ t.blackWays, b = n) ∧
        (∀ alloc key, ∃ found t', tsearch2 alloc (fun b => key - b) key t = some (found, t') ∧
          Sought (fun b => key - b) alloc key t.inorder found t'.inorder) ∧
        ∀ key, Meets (2 ^ 31 ≤ t.size) (fun t' => Deletes (fun b => key - b) t.inorder t'.inorder)
          (tdelete2 (fun b => key - b) t))
      (TreeCall.run (fun a b : ℤ => a - b) .nil [.insert true 2, .insert true 1, .delete 2]) :=
  index_tree_run ⟨fun x y => by omega, fun x y z hxy hyz => by omega⟩ _

end SipEcho
