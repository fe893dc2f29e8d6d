import Mathlib.Tactic

/-!
An arena: objects by their addresses, in the order of their allocation.

* `Keeps`: what was there outside some addresses is still there;
* `Keeps.trans`: two calls, the second of which may also write what the first has allocated;
* `Keeps.set`, `Keeps.push`: a write and an allocation.
-/

namespace SipEcho.Lib

universe u

variable {α : Type u}

/-- From `mem` to `mem'` only the objects at `W` have changed, and some are new. -/
structure Keeps (W : Set ℕ) (mem mem' : List α) : Prop where
  length_le : mem.length ≤ mem'.length
  get_eq : ∀ a, a ∉ W → a < mem.length → mem'[a]? = mem[a]?

variable {V W : Set ℕ} {mem mem' mem'' : List α} {a : ℕ} {o o' : α}

lemma lt_length_of_get (h : mem[a]? = some o) : a < mem.length :=
  (List.getElem?_eq_some_iff.mp h).1

lemma Keeps.refl : Keeps W mem mem := ⟨le_rfl, fun _ _ _ => rfl⟩

lemma Keeps.get (h : Keeps W mem mem') (ha : a ∉ W) (ho : mem[a]? = some o) :
    mem'[a]? = some o :=
  (h.get_eq a ha (lt_length_of_get ho)).trans ho

lemma Keeps.mono (h : Keeps V mem mem') (hVW : V ⊆ W) : Keeps W mem mem' :=
  ⟨h.length_le, fun a ha => h.get_eq a fun hV => ha (hVW hV)⟩

/-- **A call after a call**, which writes there or to what is new. -/
lemma Keeps.trans (h : Keeps W mem mem') (h' : Keeps V mem' mem'')
    (hV : ∀ a ∈ V, a ∈ W ∨ mem.length ≤ a) : Keeps W mem mem'' := by
  refine ⟨h.length_le.trans h'.length_le, fun a ha hlt => ?_⟩
  have haV : a ∉ V := fun hmem => (hV a hmem).elim ha fun hle => absurd hle (by omega)
  exact (h'.get_eq a haV (hlt.trans_le h.length_le)).trans (h.get_eq a ha hlt)

lemma Keeps.set (ha : a ∈ W) : Keeps W mem (mem.set a o) := by
  refine ⟨by simp, fun b hb _ => ?_⟩
  have hne : a ≠ b := fun h => hb (h ▸ ha)
  exact List.getElem?_set_ne hne

lemma Keeps.push : Keeps W mem (mem ++ [o]) :=
  ⟨by simp, fun _ _ hlt => List.getElem?_append_left hlt⟩

/-- What was written is there. -/
lemma get_set_self (h : mem[a]? = some o) : (mem.set a o')[a]? = some o' := by
  rw [List.getElem?_set_self (lt_length_of_get h)]

/-- What was allocated is there. -/
lemma get_push_self : (mem ++ [o])[mem.length]? = some o := by simp

end SipEcho.Lib
