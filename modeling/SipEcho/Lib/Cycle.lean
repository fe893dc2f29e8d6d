import Mathlib.Data.Nat.Prime.Basic
import Mathlib.Data.Finset.Card
import Mathlib.Dynamics.PeriodicPts.Defs
import Mathlib.Tactic

/-!
Maps that run through a finite set in one cycle, and shift registers, whose maps respect exclusive
or.

* `minimalPeriod_eq_of_prime`: a period none of whose quotients by a prime is one;
* `Cycles`: the map goes round through the whole set, `Cycles.of_minimalPeriod`;
* `Cycles.exists_iterate`, `Cycles.le_of_iterate_eq`: every member is met, and none is met again
  before every other has been;
* `iterateColumns_eq`: a power of a register map, computed from its columns by repeated squaring.
-/

namespace SipEcho.Lib

open Function

universe u

/-! ### One cycle -/

section Cycle

variable {α : Type u} {f : α → α} {x y z : α} {n : ℕ} {s : Finset α}

/-- A period no quotient of which by a prime is a period is the least one. -/
theorem minimalPeriod_eq_of_prime (hper : IsPeriodicPt f n x)
    (hprime : ∀ p, p.Prime → p ∣ n → ¬ IsPeriodicPt f (n / p) x) : minimalPeriod f x = n := by
  obtain ⟨m, hm⟩ := hper.minimalPeriod_dvd
  by_contra hne
  have hm1 : m ≠ 1 := by
    rintro rfl
    exact hne (by omega)
  obtain ⟨p, hp, k, rfl⟩ := Nat.exists_prime_and_dvd hm1
  have hquot : n / p = minimalPeriod f x * k := by
    rw [hm, Nat.mul_left_comm, Nat.mul_div_cancel_left _ hp.pos]
  refine hprime p hp ⟨minimalPeriod f x * k, by rw [hm]; ring⟩ ?_
  rw [hquot]
  exact (isPeriodicPt_minimalPeriod f x).mul_const k

lemma iterate_mem_of_maps (hmaps : ∀ y ∈ s, f y ∈ s) (hx : x ∈ s) (i : ℕ) : f^[i] x ∈ s := by
  induction i with
  | zero => exact hx
  | succ i ih =>
      rw [iterate_succ_apply']
      exact hmaps _ ih

/-- As many values as the set has members are all of them. -/
lemma exists_iterate_lt (hmaps : ∀ y ∈ s, f y ∈ s) (hx : x ∈ s)
    (hper : minimalPeriod f x = s.card) (hz : z ∈ s) : ∃ i < s.card, f^[i] x = z := by
  classical
  have hinj : Set.InjOn (fun i => f^[i] x) (Finset.range s.card) := by
    intro i hi j hj h
    rw [Finset.mem_coe, Finset.mem_range, ← hper] at hi hj
    exact (iterate_eq_iterate_iff_of_lt_minimalPeriod hi hj).mp h
  have hall : (Finset.range s.card).image (fun i => f^[i] x) = s := by
    refine Finset.eq_of_subset_of_card_le ?_ ?_
    · intro w hw
      obtain ⟨i, -, rfl⟩ := Finset.mem_image.mp hw
      exact iterate_mem_of_maps hmaps hx i
    · rw [Finset.card_image_of_injOn hinj, Finset.card_range]
  rw [← hall] at hz
  obtain ⟨i, hi, h⟩ := Finset.mem_image.mp hz
  exact ⟨i, Finset.mem_range.mp hi, h⟩

/-- From any member the map goes round through the whole of the set, and no sooner. -/
def Cycles (f : α → α) (s : Finset α) : Prop :=
  ∀ y ∈ s, f y ∈ s ∧ minimalPeriod f y = s.card

/-- **One member whose period is the size of the set** is enough. -/
theorem Cycles.of_minimalPeriod (hmaps : ∀ y ∈ s, f y ∈ s) (hx : x ∈ s)
    (hper : minimalPeriod f x = s.card) : Cycles f s := by
  have hpos : 0 < minimalPeriod f x := by
    rw [hper]
    exact Finset.card_pos.mpr ⟨x, hx⟩
  intro y hy
  obtain ⟨i, -, rfl⟩ := exists_iterate_lt hmaps hx hper hy
  refine ⟨hmaps _ hy, ?_⟩
  rw [minimalPeriod_apply_iterate (minimalPeriod_pos_iff_mem_periodicPts.mp hpos), hper]

namespace Cycles

lemma iterate_mem (hc : Cycles f s) (hy : y ∈ s) (i : ℕ) : f^[i] y ∈ s :=
  iterate_mem_of_maps (fun w hw => (hc w hw).1) hy i

/-- **Every member is met** on the way round. -/
theorem exists_iterate (hc : Cycles f s) (hy : y ∈ s) (hz : z ∈ s) :
    ∃ i, 0 < i ∧ i ≤ s.card ∧ f^[i] y = z := by
  have hper := (hc y hy).2
  obtain ⟨i, hi, rfl⟩ := exists_iterate_lt (fun w hw => (hc w hw).1) hy hper hz
  rcases Nat.eq_zero_or_pos i with rfl | hpos
  · exact ⟨s.card, by omega, le_rfl, by rw [← hper, iterate_minimalPeriod]; rfl⟩
  · exact ⟨i, hpos, hi.le, rfl⟩

/-- **Back at a member** the map has been everywhere. -/
theorem le_of_iterate_eq (hc : Cycles f s) (hy : y ∈ s) (hn : 0 < n) (h : f^[n] y = y) :
    s.card ≤ n := by
  rw [← (hc y hy).2]
  exact IsPeriodicPt.minimalPeriod_le hn h

end Cycles

end Cycle

/-! ### Shift registers -/

section Register

/-- The exclusive or of the columns at whose index a word has a bit. -/
def combine : List ℕ → ℕ → ℕ
  | [], _ => 0
  | c :: cs, v => (if v % 2 = 1 then c else 0) ^^^ combine cs (v / 2)

/-- The columns of one map after another. -/
def compose (cs ds : List ℕ) : List ℕ := ds.map (combine cs)

/-- A power of a map, from its columns, the squares of which are taken one after another. -/
def iterateColumns : ℕ → List ℕ → ℕ → ℕ → ℕ
  | 0, _, _, v => v
  | fuel + 1, cs, n, v =>
      iterateColumns fuel (compose cs cs) (n / 2) (if n % 2 = 1 then combine cs v else v)

lemma combine_zero (cs : List ℕ) : combine cs 0 = 0 := by
  induction cs with
  | nil => rfl
  | cons c cs ih => simp [combine, ih]

/-- **A map given by its columns respects exclusive or.** -/
lemma combine_xor (cs : List ℕ) (u v : ℕ) :
    combine cs (u ^^^ v) = combine cs u ^^^ combine cs v := by
  induction cs generalizing u v with
  | nil => simp [combine]
  | cons c cs ih =>
      have hbit : (if (u ^^^ v) % 2 = 1 then c else 0) =
          (if u % 2 = 1 then c else 0) ^^^ if v % 2 = 1 then c else 0 := by
        have hmod := @Nat.xor_mod_two_eq_one u v
        by_cases hu : u % 2 = 1 <;> by_cases hv : v % 2 = 1
        · rw [if_neg (by rw [hmod]; tauto), if_pos hu, if_pos hv, Nat.xor_self]
        · rw [if_pos (by rw [hmod]; tauto), if_pos hu, if_neg hv, Nat.xor_zero]
        · rw [if_pos (by rw [hmod]; tauto), if_neg hu, if_pos hv, Nat.zero_xor]
        · rw [if_neg (by rw [hmod]; tauto), if_neg hu, if_neg hv, Nat.xor_zero]
      rw [combine, combine, combine, Nat.xor_div_two, ih, hbit]
      ac_rfl

lemma combine_compose (cs ds : List ℕ) (v : ℕ) :
    combine (compose cs ds) v = combine cs (combine ds v) := by
  induction ds generalizing v with
  | nil => exact (combine_zero cs).symm
  | cons d ds ih =>
      have hbit : (if v % 2 = 1 then combine cs d else 0) =
          combine cs (if v % 2 = 1 then d else 0) := by
        split
        · rfl
        · exact (combine_zero cs).symm
      rw [compose, List.map_cons, combine, combine, combine_xor, ← ih, hbit]
      rfl

/-- **Repeated squaring.** -/
theorem iterateColumns_eq {fuel n : ℕ} (hn : n < 2 ^ fuel) (cs : List ℕ) (v : ℕ) :
    iterateColumns fuel cs n v = (combine cs)^[n] v := by
  induction fuel generalizing n cs v with
  | zero =>
      obtain rfl : n = 0 := by simpa using hn
      rfl
  | succ fuel ih =>
      have hhalf : n / 2 < 2 ^ fuel := by
        rw [pow_succ] at hn
        omega
      have hsquare : combine (compose cs cs) = (combine cs)^[2] := by
        funext w
        exact combine_compose cs cs w
      rw [iterateColumns, ih hhalf, hsquare, ← iterate_mul]
      split
      · rename_i hodd
        rw [← iterate_succ_apply, show (2 * (n / 2)).succ = n by omega]
      · rw [show 2 * (n / 2) = n by omega]

/-- A map that respects exclusive or is given by what it makes of the single bits. -/
lemma combine_eq {f : ℕ → ℕ} (hf : ∀ u v, f (u ^^^ v) = f u ^^^ f v) {k : ℕ} {v : ℕ}
    (hv : v < 2 ^ k) : combine ((List.range k).map fun i => f (2 ^ i)) v = f v := by
  have hzero : f 0 = 0 := by simpa using hf 0 0
  induction k generalizing f v with
  | zero =>
      obtain rfl : v = 0 := by simpa using hv
      exact hzero.symm
  | succ k ih =>
      have hhalf : v / 2 < 2 ^ k := by
        rw [pow_succ] at hv
        omega
      have hlin : ∀ u w, f (2 * (u ^^^ w)) = f (2 * u) ^^^ f (2 * w) := by
        intro u w
        have hshift := @Nat.shiftLeft_xor_distrib 1 u w
        simp only [Nat.shiftLeft_eq, pow_one] at hshift
        rw [Nat.mul_comm 2, hshift, hf, Nat.mul_comm 2, Nat.mul_comm 2]
      have hsplit : v = v % 2 ^^^ 2 * (v / 2) := by
        refine Nat.eq_of_testBit_eq fun i => ?_
        cases i with
        | zero => simp
        | succ i =>
            rw [Nat.testBit_succ, Nat.testBit_succ, Nat.xor_div_two, Nat.div_eq_of_lt
              (Nat.mod_lt v two_pos), Nat.zero_xor, Nat.mul_div_cancel_left _ two_pos]
      rw [List.range_succ_eq_map, List.map_cons, List.map_map, combine]
      have htail : (List.range k).map ((fun i => f (2 ^ i)) ∘ Nat.succ) =
          (List.range k).map fun i => f (2 * 2 ^ i) := by
        refine List.map_congr_left fun i _ => ?_
        rw [Function.comp, Nat.pow_succ']
      rw [htail, ih (f := fun u => f (2 * u)) hlin hhalf hzero]
      have hbit : (if v % 2 = 1 then f (2 ^ 0) else 0) = f (v % 2) := by
        rcases Nat.mod_two_eq_zero_or_one v with h | h <;> simp [h, hzero]
      rw [hbit, ← hf, ← hsplit]

end Register

end SipEcho.Lib
