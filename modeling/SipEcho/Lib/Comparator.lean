import Mathlib.Tactic

/-!
Comparison functions that answer by sign, and what a search needs of them.

* `Cut f l`: the numbers `f` gives to a list fall from positive over zero to negative, which is
  what a search for the zero needs;
* `Comparator`: "less" is transitive, "equal" not necessarily; `Comparator.cut`: it cuts every
  list it sorts;
* `TotalPreorder`: "less or equal" is transitive; `TotalPreorder.alike`: what is equal stands in
  the same order to everything;
* `Comparator.lex`, `Comparator.joker`: first by one comparison, then by another; and a comparison
  in which some values equal all.
-/

namespace SipEcho.Lib

universe u v

variable {κ : Type u} {α : Type v}

/-- Along the list `f` falls from positive over zero to negative. -/
def Cut (f : κ → ℤ) (l : List κ) : Prop :=
  l.Pairwise fun a b => (f a < 0 → f b < 0) ∧ (0 < f b → 0 < f a)

namespace Cut

variable {f : κ → ℤ}

lemma append {l₁ l₂ : List κ} : Cut f (l₁ ++ l₂) ↔ Cut f l₁ ∧ Cut f l₂ ∧
    ∀ a ∈ l₁, ∀ b ∈ l₂, (f a < 0 → f b < 0) ∧ (0 < f b → 0 < f a) :=
  List.pairwise_append

/-- In front of a positive value the values are positive, behind a negative one negative. -/
lemma sides {l₁ l₂ : List κ} {k : κ} (h : Cut f (l₁ ++ k :: l₂)) :
    (0 < f k → ∀ a ∈ l₁, 0 < f a) ∧ (f k < 0 → ∀ b ∈ l₂, f b < 0) := by
  obtain ⟨-, h2, h3⟩ := append.mp h
  exact ⟨fun hk a ha => (h3 a ha k List.mem_cons_self).2 hk,
    fun hk b hb => ((List.pairwise_cons.mp h2).1 b hb).1 hk⟩

end Cut

/-- A comparison whose "less" is transitive. -/
structure Comparator (c : α → α → ℤ) : Prop where
  swap : ∀ x y, 0 < c x y ↔ c y x < 0
  lt_trans : ∀ x y z, c x y < 0 → c y z < 0 → c x z < 0

/-- Two values stand in the same order to everything. -/
def Alike (c : α → α → ℤ) (x y : α) : Prop :=
  ∀ z, (c x z < 0 ↔ c y z < 0) ∧ (c z x < 0 ↔ c z y < 0)

lemma Alike.refl (c : α → α → ℤ) (x : α) : Alike c x x :=
  fun _ => ⟨Iff.rfl, Iff.rfl⟩

namespace Comparator

variable {c : α → α → ℤ}

lemma refl (h : Comparator c) (x : α) : c x x = 0 := by
  have := h.swap x x
  omega

lemma eq_symm (h : Comparator c) {x y : α} (he : c x y = 0) : c y x = 0 := by
  have h1 := h.swap x y
  have h2 := h.swap y x
  omega

lemma ne_of_lt (h : Comparator c) {x y : α} (hlt : c x y < 0) : c x y ≠ 0 ∧ c y x ≠ 0 := by
  have := (h.swap y x).mpr hlt
  omega

/-- **A comparator cuts every list it sorts.** -/
lemma cut (h : Comparator c) {f : κ → α} {l : List κ}
    (hl : l.Pairwise fun a b => c (f a) (f b) < 0) (x : α) : Cut (fun a => c x (f a)) l := by
  refine hl.imp fun {a b} hab => ⟨fun ha => h.lt_trans _ _ _ ha hab, fun hb => ?_⟩
  exact (h.swap _ _).mpr (h.lt_trans _ _ _ hab ((h.swap _ _).mp hb))

end Comparator

/-- A comparison whose "less or equal" is transitive. -/
structure TotalPreorder (c : α → α → ℤ) : Prop where
  swap : ∀ x y, 0 < c x y ↔ c y x < 0
  le_trans : ∀ x y z, c x y ≤ 0 → c y z ≤ 0 → c x z ≤ 0

namespace TotalPreorder

variable {c : α → α → ℤ}

lemma comparator (h : TotalPreorder c) : Comparator c where
  swap := h.swap
  lt_trans := by
    intro x y z hxy hyz
    by_contra hxz
    have hzx : c z x ≤ 0 := by
      have := h.swap z x
      omega
    have h1 := h.le_trans y z x hyz.le hzx
    have h2 := h.swap y x
    omega

/-- What equals something less is less. -/
lemma lt_of_eq_of_lt (h : TotalPreorder c) {x y z : α} (he : c x y = 0) (hlt : c y z < 0) :
    c x z < 0 := by
  by_contra hxz
  have hzx : c z x ≤ 0 := by
    have := h.swap z x
    omega
  have h1 := h.le_trans z x y hzx he.le
  have h2 := h.swap z y
  omega

lemma lt_of_lt_of_eq (h : TotalPreorder c) {x y z : α} (hlt : c z y < 0) (he : c y x = 0) :
    c z x < 0 := by
  by_contra hzx
  have hxz : c x z ≤ 0 := by
    have := h.swap x z
    omega
  have h1 := h.le_trans y x z he.le hxz
  have h2 := h.swap y z
  omega

lemma eq_trans (h : TotalPreorder c) {x y z : α} (hxy : c x y = 0) (hyz : c y z = 0) :
    c x z = 0 := by
  have h1 := h.le_trans x y z hxy.le hyz.le
  have h2 := h.le_trans z y x (h.comparator.eq_symm hyz).le (h.comparator.eq_symm hxy).le
  have h3 := h.swap z x
  omega

/-- **What is equal is alike.** -/
lemma alike (h : TotalPreorder c) {x y : α} (he : c x y = 0) : Alike c x y := by
  have he' := h.comparator.eq_symm he
  exact fun z => ⟨⟨h.lt_of_eq_of_lt he', h.lt_of_eq_of_lt he⟩,
    ⟨fun hlt => h.lt_of_lt_of_eq hlt he, fun hlt => h.lt_of_lt_of_eq hlt he'⟩⟩

/-- A comparison of what `f` makes of the values. -/
lemma comap {β : Type u} (h : TotalPreorder c) (f : β → α) :
    TotalPreorder fun x y => c (f x) (f y) :=
  ⟨fun _ _ => h.swap _ _, fun _ _ _ => h.le_trans _ _ _⟩

end TotalPreorder

namespace Comparator

variable {c c' : α → α → ℤ}

/-- **First by one comparison, then by another.** -/
lemma lex (h : TotalPreorder c) (h' : Comparator c') :
    Comparator fun x y => if c x y = 0 then c' x y else c x y where
  swap := by
    intro x y
    by_cases hxy : c x y = 0
    · rw [if_pos hxy, if_pos (h.comparator.eq_symm hxy)]
      exact h'.swap x y
    · have hyx : c y x ≠ 0 := fun hyx => hxy (h.comparator.eq_symm hyx)
      rw [if_neg hxy, if_neg hyx]
      exact h.swap x y
  lt_trans := by
    intro x y z hxy hyz
    by_cases h1 : c x y = 0
    · rw [if_pos h1] at hxy
      by_cases h2 : c y z = 0
      · rw [if_pos h2] at hyz
        rw [if_pos (h.eq_trans h1 h2)]
        exact h'.lt_trans x y z hxy hyz
      · rw [if_neg h2] at hyz
        have hlt := h.lt_of_eq_of_lt h1 hyz
        rwa [if_neg hlt.ne]
    · rw [if_neg h1] at hxy
      have hlt : c x z < 0 := by
        by_cases h2 : c y z = 0
        · exact h.lt_of_lt_of_eq hxy h2
        · rw [if_neg h2] at hyz
          exact h.comparator.lt_trans x y z hxy hyz
      rwa [if_neg hlt.ne]

/-- **Some values equal all.** -/
lemma joker (h : Comparator c) (w : α → Prop) [DecidablePred w] :
    Comparator fun x y => if w x ∨ w y then 0 else c x y where
  swap := by
    intro x y
    by_cases hw : w x ∨ w y
    · rw [if_pos hw, if_pos hw.symm]
    · rw [if_neg hw, if_neg (fun hw' => hw hw'.symm)]
      exact h.swap x y
  lt_trans := by
    intro x y z hxy hyz
    have h1 : ¬ (w x ∨ w y) := fun hw => by simp [hw] at hxy
    have h2 : ¬ (w y ∨ w z) := fun hw => by simp [hw] at hyz
    rw [if_neg h1] at hxy
    rw [if_neg h2] at hyz
    rw [if_neg (by tauto)]
    exact h.lt_trans x y z hxy hyz

end Comparator

end SipEcho.Lib
