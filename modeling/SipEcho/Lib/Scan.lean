import Mathlib.Tactic

/-!
Loops over the indices of a block of memory, whose reads may fail.

* `Returns`: a call returns exactly under a condition, and then with a postcondition;
  `Returns.bind` is the rule for a call after a call;
* `seek`: `while (test(i)) i++`, and `seek_returns`, that it stops at the first index that fails
  the test;
* `forInt`: `for (int i = 0; i < n; i++)`, up to the first index that fails a test, and
  `forInt_returns`, that it says whether any does.
-/

namespace SipEcho.Lib

universe u v

variable {ε : Type u} {α β : Type v}

/-! ### Calls -/

/-- The call returns exactly when `C`, and then with `P`. -/
def Returns (C : Prop) (P : α → Prop) : Except ε α → Prop
  | .ok a => C ∧ P a
  | .error _ => ¬ C

section Calls

variable {C D : Prop} {P Q : α → Prop} {x : Except ε α} {a : α}

lemma Returns.ok (hC : C) (hP : P a) : Returns C P (.ok a : Except ε α) := ⟨hC, hP⟩

/-- A call that does return. -/
lemma Returns.of_exists (hC : C) (h : ∃ a, x = .ok a ∧ P a) : Returns C P x := by
  obtain ⟨a, rfl, hP⟩ := h
  exact ⟨hC, hP⟩

lemma Returns.mono (h : Returns C P x) (hPQ : ∀ a, P a → Q a) : Returns C Q x := by
  cases x with
  | ok a => exact ⟨h.1, hPQ a h.2⟩
  | error e => exact h

lemma Returns.congr (h : Returns C P x) (hCD : C ↔ D) : Returns D P x := by
  cases x with
  | ok a => exact ⟨hCD.mp h.1, h.2⟩
  | error e => exact fun hD => h (hCD.mpr hD)

/-- Under the condition it returns. -/
lemma Returns.exists (h : Returns C P x) (hC : C) : ∃ a, x = .ok a ∧ P a := by
  cases x with
  | ok a => exact ⟨a, rfl, h.2⟩
  | error e => exact absurd hC h

/-- When it returns, the condition holds. -/
lemma Returns.of_eq (h : Returns C P x) (hx : x = .ok a) : C ∧ P a := by
  rw [hx] at h
  exact h

/-- **The rule for a call after a call.** -/
lemma Returns.bind {Q : β → Prop} {f : α → Except ε β} (h : Returns C P x)
    (hf : ∀ a, P a → Returns D Q (f a)) : Returns (C ∧ D) Q (x >>= f) := by
  cases x with
  | ok a => exact (hf a h.2).congr ⟨fun hD => ⟨h.1, hD⟩, And.right⟩
  | error e => exact fun hCD => h hCD.1

end Calls

/-! ### Loops -/

/-- `while (test(i)) i++`, for so many turns at most. -/
def seek (out : ε) (test : ℕ → Except ε Bool) : ℕ → ℕ → Except ε ℕ
  | 0, _ => .error out
  | fuel + 1, i => do if ← test i then seek out test fuel (i + 1) else return i

/-- **The search stops at the first index that fails the test.** -/
lemma seek_returns (out : ε) {test : ℕ → Except ε Bool} {fuel i e : ℕ} (hi : i ≤ e)
    (hfuel : e < fuel + i) (htest : ∀ j, i ≤ j → j < e → ∃ r, test j = .ok r)
    (he : test e = .ok false) :
    ∃ q, seek out test fuel i = .ok q ∧ i ≤ q ∧ q ≤ e ∧ test q = .ok false ∧
      ∀ j, i ≤ j → j < q → test j = .ok true := by
  induction fuel generalizing i with
  | zero => omega
  | succ fuel ih =>
      have stops (h : test i = .ok false) : ∃ q, seek out test (fuel + 1) i = .ok q ∧ i ≤ q ∧
          q ≤ e ∧ test q = .ok false ∧ ∀ j, i ≤ j → j < q → test j = .ok true :=
        ⟨i, by rw [seek, h]; rfl, le_rfl, hi, h, fun j hj hj' => absurd hj' (by omega)⟩
      rcases Nat.eq_or_lt_of_le hi with rfl | hlt
      · exact stops he
      · obtain ⟨r, hr⟩ := htest i le_rfl hlt
        cases r with
        | false => exact stops hr
        | true =>
            obtain ⟨q, hq, hiq, hqe, hstop, hall⟩ := ih (i := i + 1) (by omega) (by omega)
              fun j hj hj' => htest j (by omega) hj'
            refine ⟨q, by rw [seek, hr]; exact hq, by omega, hqe, hstop, fun j hj hjq => ?_⟩
            rcases Nat.eq_or_lt_of_le hj with rfl | hj
            · exact hr
            · exact hall j hj hjq

/-- `for (int i = 0; i < n; i++)`, left at the first index that fails the test: whether none does.
The first number says how many indices are left; an `int` does not get past its bound. -/
def forInt (overflow : ε) (test : ℕ → Except ε Bool) : ℕ → ℕ → Except ε Bool
  | 0, i => if i = 2 ^ 31 then .error overflow else .ok true
  | left + 1, i =>
      if i = 2 ^ 31 then .error overflow
      else do if ← test i then forInt overflow test left (i + 1) else return false

/-- **The loop says whether all indices pass the test.** -/
lemma forInt_returns (overflow : ε) {test : ℕ → Except ε Bool} {left i : ℕ}
    (hint : i + left < 2 ^ 31) (htest : ∀ j, i ≤ j → j < i + left → ∃ r, test j = .ok r) :
    ∃ r, forInt overflow test left i = .ok r ∧
      (r = true ↔ ∀ j, i ≤ j → j < i + left → test j = .ok true) := by
  induction left generalizing i with
  | zero =>
      refine ⟨true, ?_, by simp only [true_iff]; intro j hj hj'; omega⟩
      rw [forInt, if_neg (by omega)]
  | succ left ih =>
      obtain ⟨r, hr⟩ := htest i le_rfl (by omega)
      rw [forInt, if_neg (by omega), hr]
      cases r with
      | false =>
          refine ⟨false, rfl, ?_⟩
          simp only [Bool.false_eq_true, false_iff, not_forall]
          exact ⟨i, le_rfl, by omega, by simp [hr]⟩
      | true =>
          obtain ⟨r, hloop, hall⟩ := ih (i := i + 1) (by omega) fun j hj hj' =>
            htest j (by omega) (by omega)
          refine ⟨r, hloop, hall.trans ⟨fun h j hj hj' => ?_, fun h j hj hj' =>
            h j (by omega) (by omega)⟩⟩
          rcases Nat.eq_or_lt_of_le hj with rfl | hj
          · exact hr
          · exact h j hj (by omega)

end SipEcho.Lib
