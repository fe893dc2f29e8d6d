import Mathlib.Tactic

/-!
Doubly linked chains, given by the links `up` and `down` of every address.

* `Chain`: the links, the first and the last address are those of a list without repetition;
* `Chain.symm`: read from the other end;
* `Chain.pushFront`, `Chain.pushBack`, `Chain.unlink`: what the links have to become when an
  address is put in front or behind, or taken out.  The new links are any functions with the
  values asked for on the chain, so the order of the assignments does not matter.
-/

namespace SipEcho.Lib

universe u

variable {A : Type u}

/-- The links make the list `l`, from `root` down to `tail`. -/
structure Chain (up down : A → Option A) (root tail : Option A) (l : List A) : Prop where
  nodup : l.Nodup
  root_eq : root = l.head?
  tail_eq : tail = l.getLast?
  up_eq : ∀ l₁ a l₂, l = l₁ ++ a :: l₂ → up a = l₁.getLast?
  down_eq : ∀ l₁ a l₂, l = l₁ ++ a :: l₂ → down a = l₂.head?

namespace Chain

variable {up down up' down' : A → Option A} {root tail : Option A} {l l₁ l₂ : List A} {a : A}

lemma nil : Chain up down none none [] :=
  ⟨List.nodup_nil, rfl, rfl, by simp, by simp⟩

lemma symm (h : Chain up down root tail l) : Chain down up tail root l.reverse where
  nodup := List.nodup_reverse.mpr h.nodup
  root_eq := by rw [List.head?_reverse]; exact h.tail_eq
  tail_eq := by rw [List.getLast?_reverse]; exact h.root_eq
  up_eq := by
    intro l₁ a l₂ hl
    have := h.down_eq l₂.reverse a l₁.reverse (by
      rw [← List.reverse_reverse l, hl]
      simp)
    rwa [List.head?_reverse] at this
  down_eq := by
    intro l₁ a l₂ hl
    have := h.up_eq l₂.reverse a l₁.reverse (by
      rw [← List.reverse_reverse l, hl]
      simp)
    rwa [List.getLast?_reverse] at this

/-- An address is not the first of a part of the list it is not in. -/
lemma head?_ne (ha : a ∉ l) : l.head? ≠ some a :=
  fun h => ha (List.mem_of_mem_head? h)

variable [DecidableEq A]

/-- **A new first address.** -/
lemma pushFront (h : Chain up down root tail l) (ha : a ∉ l) (hup : up' a = none)
    (hdown : down' a = root) (hups : ∀ b ∈ l, up' b = if root = some b then some a else up b)
    (hdowns : ∀ b ∈ l, down' b = down b) :
    Chain up' down' (some a) (if root = none then some a else tail) (a :: l) where
  nodup := List.nodup_cons.mpr ⟨ha, h.nodup⟩
  root_eq := rfl
  tail_eq := by
    rw [h.root_eq, h.tail_eq]
    cases l <;> simp
  up_eq := by
    intro l₁ b l₂ hl
    rcases l₁ with _ | ⟨c, l₁⟩
    · obtain ⟨rfl, rfl⟩ := List.cons.inj hl
      exact hup
    · obtain ⟨rfl, rfl⟩ := List.cons.inj hl
      have hnodup := h.nodup
      rw [hups b (by simp), h.root_eq, h.up_eq l₁ b l₂ rfl]
      rcases l₁ with _ | ⟨d, l₁⟩
      · simp
      · have hdb : d ≠ b := by
          rintro rfl
          simp at hnodup
        simp [hdb]
  down_eq := by
    intro l₁ b l₂ hl
    rcases l₁ with _ | ⟨c, l₁⟩
    · obtain ⟨rfl, rfl⟩ := List.cons.inj hl
      rw [hdown, h.root_eq]
    · obtain ⟨rfl, rfl⟩ := List.cons.inj hl
      rw [hdowns b (by simp), h.down_eq l₁ b l₂ rfl]

/-- **A new last address.** -/
lemma pushBack (h : Chain up down root tail l) (ha : a ∉ l) (hup : up' a = tail)
    (hdown : down' a = none) (hups : ∀ b ∈ l, up' b = up b)
    (hdowns : ∀ b ∈ l, down' b = if tail = some b then some a else down b) :
    Chain up' down' (if tail = none then some a else root) (some a) (l ++ [a]) := by
  have hrev : Chain down' up' (some a) (if tail = none then some a else root) (a :: l.reverse) :=
    h.symm.pushFront (by simpa using ha) hdown hup (by simpa using hdowns) (by simpa using hups)
  simpa using hrev.symm

/-- The links upwards, with an address taken out. -/
lemma unlink_up (h : Chain up down root tail (l₁ ++ a :: l₂))
    (hups : ∀ b ∈ l₁ ++ l₂, up' b = if down a = some b then up a else up b) :
    ∀ m₁ b m₂, l₁ ++ l₂ = m₁ ++ b :: m₂ → up' b = m₁.getLast? := by
  intro m₁ b m₂ hm
  have hnodup := h.nodup
  rw [hups b (by simp [hm]), h.down_eq l₁ a l₂ rfl, h.up_eq l₁ a l₂ rfl]
  rcases List.append_eq_append_iff.mp hm with ⟨s, rfl, hs⟩ | ⟨s, rfl, hs⟩
  · -- `b` stands behind `a`
    rcases s with _ | ⟨c, s⟩
    · obtain rfl : l₂ = b :: m₂ := hs
      simp
    · obtain rfl : l₂ = c :: (s ++ b :: m₂) := by simpa using hs
      have hcb : c ≠ b := by
        rintro rfl
        simp [List.nodup_append] at hnodup
      rw [h.up_eq (l₁ ++ a :: c :: s) b m₂ (by simp)]
      simp [hcb, List.getLast?_append, List.getLast?_cons]
  · rcases s with _ | ⟨c, s⟩
    · obtain rfl : b :: m₂ = l₂ := by simpa using hs
      simp
    · -- `b` stands in front of `a`
      obtain ⟨rfl, rfl⟩ := List.cons.inj hs
      have hb : b ∉ l₂ := by
        intro hb
        rw [List.nodup_append] at hnodup
        exact hnodup.2.2 b (by simp) b (by simp [hb]) rfl
      rw [if_neg (head?_ne hb), h.up_eq m₁ b (s ++ a :: l₂) (by simp)]

/-- **An address is taken out.** -/
lemma unlink (h : Chain up down root tail (l₁ ++ a :: l₂))
    (hups : ∀ b ∈ l₁ ++ l₂, up' b = if down a = some b then up a else up b)
    (hdowns : ∀ b ∈ l₁ ++ l₂, down' b = if up a = some b then down a else down b) :
    Chain up' down' (if up a = none then down a else root) (if down a = none then up a else tail)
      (l₁ ++ l₂) where
  nodup := h.nodup.sublist (by simp)
  root_eq := by
    rw [h.up_eq l₁ a l₂ rfl, h.down_eq l₁ a l₂ rfl, h.root_eq]
    cases l₁ <;> simp
  tail_eq := by
    rw [h.up_eq l₁ a l₂ rfl, h.down_eq l₁ a l₂ rfl, h.tail_eq]
    cases l₂ <;> simp [List.getLast?_append, List.getLast?_cons]
  up_eq := h.unlink_up hups
  down_eq := by
    intro m₁ b m₂ hm
    have hsymm : Chain down up tail root (l₂.reverse ++ a :: l₁.reverse) := by
      simpa using h.symm
    have hdowns' : ∀ b ∈ l₂.reverse ++ l₁.reverse,
        down' b = if up a = some b then down a else down b :=
      fun b hb => hdowns b (by simpa [or_comm] using hb)
    have := hsymm.unlink_up hdowns' m₂.reverse b m₁.reverse (by
      rw [← List.reverse_append, hm]
      simp)
    rwa [List.getLast?_reverse] at this

end Chain

end SipEcho.Lib
