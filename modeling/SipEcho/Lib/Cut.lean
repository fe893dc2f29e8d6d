import Mathlib.Data.List.Basic
import Mathlib.Tactic

/-!
A stream cut into frames that say how long they are.

`next s` is the length of the frame at the front of the stream `s`, if the whole frame is there.

* `Delimits`: a frame is not empty, is there, and is the same whatever follows it;
* `cut`: the frames at the front of a stream, as long as there are whole ones;
* `cut_flatten_append`: frames one after the other are what they are cut into;
* `cut_prefix`: more of a stream is cut into the same frames, and more.
-/

namespace SipEcho.Lib

universe u

variable {α : Type u}

/-- The lengths `next` finds delimit frames. -/
structure Delimits (next : List α → Option ℕ) : Prop where
  pos : ∀ {s n}, next s = some n → 0 < n
  whole : ∀ {s n}, next s = some n → n ≤ s.length
  extend : ∀ {s n}, next s = some n → ∀ t, next (s ++ t) = some n

/-- The frames at the front of a stream, `fuel` of them at most. -/
def cutFrom (next : List α → Option ℕ) : ℕ → List α → List (List α)
  | 0, _ => []
  | fuel + 1, s =>
      match next s with
      | none => []
      | some n => s.take n :: cutFrom next fuel (s.drop n)

/-- **The whole frames at the front of a stream.** -/
def cut (next : List α → Option ℕ) (s : List α) : List (List α) := cutFrom next s.length s

namespace Delimits

variable {next : List α → Option ℕ} {p s t : List α} {n : ℕ}

lemma next_nil (h : Delimits next) : next [] = none := by
  cases hn : next ([] : List α) with
  | none => rfl
  | some n =>
      have hpos := h.pos hn
      have hwhole := h.whole hn
      rw [List.length_nil] at hwhole
      omega

/-- As many frames as there are items are enough. -/
lemma cutFrom_eq_cut (h : Delimits next) {fuel : ℕ} (hfuel : s.length ≤ fuel) :
    cutFrom next fuel s = cut next s := by
  rw [cut]
  generalize hlength : s.length = l at hfuel
  induction l using Nat.strong_induction_on generalizing s fuel with
  | h l ih =>
      cases hn : next s with
      | none =>
          cases fuel <;> cases l <;> simp only [cutFrom, hn]
      | some n =>
          have hpos := h.pos hn
          have hwhole := h.whole hn
          obtain ⟨fuel, rfl⟩ : ∃ k, fuel = k + 1 := ⟨fuel - 1, by omega⟩
          obtain ⟨l, rfl⟩ : ∃ k, l = k + 1 := ⟨l - 1, by omega⟩
          have hdrop : (s.drop n).length = s.length - n := List.length_drop
          have hrest (k : ℕ) (hk : (s.drop n).length ≤ k) :=
            ih (s.drop n).length (by omega) rfl hk
          simp only [cutFrom, hn]
          rw [hrest fuel (by omega), hrest l (by omega)]

lemma cut_of_next (h : Delimits next) (hn : next s = some n) :
    cut next s = s.take n :: cut next (s.drop n) := by
  have hpos := h.pos hn
  have hwhole := h.whole hn
  obtain ⟨l, hl⟩ : ∃ k, s.length = k + 1 := ⟨s.length - 1, by omega⟩
  have hdrop : (s.drop n).length = s.length - n := List.length_drop
  rw [cut, hl, cutFrom, hn]
  dsimp only
  rw [h.cutFrom_eq_cut (by omega)]

lemma cut_of_none (hn : next s = none) : cut next s = [] := by
  rw [cut]
  cases s.length with
  | zero => rfl
  | succ l => simp only [cutFrom, hn]

/-- A frame in front of a stream. -/
lemma cut_frame_append (h : Delimits next) (hp : next p = some p.length) (s : List α) :
    cut next (p ++ s) = p :: cut next s := by
  rw [h.cut_of_next (h.extend hp s), List.take_left, List.drop_left]

/-- **Frames one after the other** are what they are cut into. -/
lemma cut_flatten_append (h : Delimits next) {ps : List (List α)}
    (hps : ∀ p ∈ ps, next p = some p.length) (s : List α) :
    cut next (ps.flatten ++ s) = ps ++ cut next s := by
  induction ps with
  | nil => rfl
  | cons p ps ih =>
      rw [List.flatten_cons, List.append_assoc, h.cut_frame_append (hps p List.mem_cons_self),
        ih fun q hq => hps q (List.mem_cons_of_mem _ hq), List.cons_append]

lemma cut_flatten (h : Delimits next) {ps : List (List α)}
    (hps : ∀ p ∈ ps, next p = some p.length) : cut next ps.flatten = ps := by
  have hcut := h.cut_flatten_append hps []
  rwa [cut_of_none h.next_nil, List.append_nil, List.append_nil] at hcut

/-- **More of a stream** is cut into the same frames, and more. -/
lemma cut_prefix (h : Delimits next) (hst : s <+: t) : cut next s <+: cut next t := by
  generalize hlength : s.length = l
  induction l using Nat.strong_induction_on generalizing s t with
  | h l ih =>
      cases hn : next s with
      | none =>
          rw [cut_of_none hn]
          exact List.nil_prefix
      | some n =>
          obtain ⟨r, rfl⟩ := hst
          have hpos := h.pos hn
          have hwhole := h.whole hn
          rw [h.cut_of_next hn, h.cut_of_next (h.extend hn r),
            List.take_append_of_le_length hwhole, List.drop_append_of_le_length hwhole]
          refine (List.prefix_cons_inj _).mpr (ih (s.drop n).length ?_ ⟨r, rfl⟩ rfl)
          rw [List.length_drop]
          omega

end Delimits

end SipEcho.Lib
