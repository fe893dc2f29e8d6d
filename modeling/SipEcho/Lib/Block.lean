import Mathlib.Data.List.Basic
import Mathlib.Tactic

/-!
Blocks of memory of a fixed size, read and written cell by cell, where an access outside is an
error.

* `load`, `store`, `storeAll`: one access, or several in a row;
* `skipWhile`: a loop that goes on to the first cell that fails a test (`skipWhile_append`);
* `overlay mem out`: the block `mem` with `out` written over its beginning; `store_overlay`, that
  the next cell behind it may be written as long as there is one;
* `Ends`: a loop with fuel comes to a result, whatever the fuel, when there is enough of it.
-/

namespace SipEcho.Lib

universe u v

variable {ε : Type u} {α : Type v}

/-- The cell at an index. -/
def load (fault : ε) (mem : List α) (i : ℕ) : Except ε α :=
  match mem[i]? with
  | some c => .ok c
  | none => .error fault

/-- The block with another value at an index. -/
def store (fault : ε) (mem : List α) (i : ℕ) (c : α) : Except ε (List α) :=
  if i < mem.length then .ok (mem.set i c) else .error fault

/-- The block with other values from an index on. -/
def storeAll (fault : ε) : List α → ℕ → List α → Except ε (List α)
  | mem, _, [] => .ok mem
  | mem, i, c :: cs => do
      let mem ← store fault mem i c
      storeAll fault mem (i + 1) cs

/-- `while (p(mem[i])) i++`, with what is in memory from `i` on. -/
def skip (fault : ε) (p : α → Bool) : List α → ℕ → Except ε ℕ
  | [], _ => .error fault
  | c :: mem, i => if p c then skip fault p mem (i + 1) else .ok i

/-- `while (p(mem[i])) i++`. -/
def skipWhile (fault : ε) (p : α → Bool) (mem : List α) (i : ℕ) : Except ε ℕ :=
  skip fault p (mem.drop i) i

section Cells

variable {fault : ε} {mem out : List α} {i : ℕ} {c : α}

lemma load_eq (h : mem[i]? = some c) : load fault mem i = .ok c := by
  rw [load, h]

lemma store_eq (h : i < mem.length) : store fault mem i c = .ok (mem.set i c) := if_pos h

lemma store_eq_error (h : mem.length ≤ i) : store fault mem i c = .error fault :=
  if_neg (by omega)

/-- The cell behind what is in front of it. -/
lemma store_append (d : α) (rest : List α) :
    store fault (out ++ d :: rest) out.length c = .ok (out ++ c :: rest) := by
  rw [store_eq (by simp), List.set_append_right (h := le_rfl), Nat.sub_self, List.set_cons_zero]

/-- **They are written** when there is room. -/
lemma storeAll_eq {cs : List α} (h : i + cs.length ≤ mem.length) :
    storeAll fault mem i cs = .ok (mem.take i ++ cs ++ mem.drop (i + cs.length)) := by
  induction cs generalizing mem i with
  | nil => simp [storeAll]
  | cons c cs ih =>
      rw [List.length_cons] at h
      rw [storeAll, store_eq (by omega)]
      show storeAll fault (mem.set i c) (i + 1) cs = _
      rw [ih (by rw [List.length_set]; omega), List.take_succ_eq_append_getElem
        (by rw [List.length_set]; omega), List.take_set_of_le le_rfl, List.getElem_set_self,
        List.drop_set_of_lt (by omega), List.length_cons]
      simp [Nat.add_assoc, Nat.add_comm 1]

/-- Cells behind what is in front of them. -/
lemma storeAll_append {cs rest : List α} (h : cs.length ≤ rest.length) :
    storeAll fault (out ++ rest) out.length cs = .ok (out ++ cs ++ rest.drop cs.length) := by
  rw [storeAll_eq (by rw [List.length_append]; omega), List.take_left, List.drop_append,
    List.drop_of_length_le (Nat.le_add_right _ _), List.nil_append, Nat.add_sub_cancel_left]

/-- Cells in the place of as many others. -/
lemma storeAll_replace {old cs : List α} (h : old.length = cs.length) (rest : List α) :
    storeAll fault (out ++ old ++ rest) out.length cs = .ok (out ++ cs ++ rest) := by
  rw [List.append_assoc, storeAll_append (by rw [List.length_append]; omega), List.drop_left' h]

/-- They do not fit. -/
lemma storeAll_eq_error {cs : List α} (hcs : cs ≠ []) (h : mem.length < i + cs.length) :
    storeAll fault mem i cs = .error fault := by
  induction cs generalizing mem i with
  | nil => exact absurd rfl hcs
  | cons c cs ih =>
      rw [List.length_cons] at h
      rw [storeAll]
      rcases Nat.lt_or_ge i mem.length with hi | hi
      · rw [store_eq hi]
        show storeAll fault (mem.set i c) (i + 1) cs = _
        cases cs with
        | nil =>
            rw [List.length_nil] at h
            omega
        | cons d cs => exact ih (by simp) (by rw [List.length_set]; omega)
      · rw [store_eq_error hi]
        rfl

/-! ### Skipping cells -/

lemma skip_eq (p : α → Bool) (s : List α) (i : ℕ) : skip fault p s i =
    if s.all p then .error fault else .ok (i + (s.takeWhile p).length) := by
  induction s generalizing i with
  | nil => rfl
  | cons c s ih =>
      rw [skip]
      by_cases hc : p c = true
      · rw [if_pos hc, ih, List.all_cons, hc, Bool.true_and, List.takeWhile_cons_of_pos hc,
          List.length_cons, Nat.add_right_comm, Nat.add_assoc]
      · rw [if_neg hc, List.takeWhile_cons_of_neg hc, List.all_cons,
          Bool.eq_false_of_not_eq_true hc]
        rfl

/-- **The loop stops at the first cell that fails the test**, and has to meet one. -/
lemma skipWhile_append (p : α → Bool) (s : List α) : skipWhile fault p (out ++ s) out.length =
    if s.all p then .error fault else .ok (out.length + (s.takeWhile p).length) := by
  rw [skipWhile, List.drop_left, skip_eq]

/-- The loop from the beginning of the block on. -/
lemma skipWhile_zero (p : α → Bool) (s : List α) : skipWhile fault p s 0 =
    if s.all p then .error fault else .ok (s.takeWhile p).length := by
  rw [skipWhile, List.drop_zero, skip_eq, Nat.zero_add]

/-- The cells that were skipped, the one that fails the test, and the rest. -/
lemma exists_eq_takeWhile {p : α → Bool} {s : List α} (h : s.all p = false) :
    ∃ c rest, p c = false ∧ s = s.takeWhile p ++ c :: rest := by
  induction s with
  | nil => cases h
  | cons d s ih =>
      by_cases hd : p d = true
      · rw [List.all_cons, hd, Bool.true_and] at h
        obtain ⟨c, rest, hc, hs⟩ := ih h
        exact ⟨c, rest, hc, by rw [List.takeWhile_cons_of_pos hd, List.cons_append, ← hs]⟩
      · exact ⟨d, s, Bool.eq_false_of_not_eq_true hd, by rw [List.takeWhile_cons_of_neg hd]; rfl⟩

/-- What comes behind a cell that fails the test is not looked at. -/
lemma takeWhile_append_stop {p : α → Bool} (hc : p c = false) (s rest : List α) :
    (s ++ c :: rest).takeWhile p = s.takeWhile p := by
  induction s with
  | nil => exact List.takeWhile_cons_of_neg (by rw [hc]; decide)
  | cons d s ih =>
      by_cases hd : p d = true
      · rw [List.cons_append, List.takeWhile_cons_of_pos hd, ih, List.takeWhile_cons_of_pos hd]
      · rw [List.cons_append, List.takeWhile_cons_of_neg hd, List.takeWhile_cons_of_neg hd]

/-- What comes behind cells of which one fails the test is not looked at. -/
lemma takeWhile_append_left {p : α → Bool} {s : List α} (h : s.all p = false) (rest : List α) :
    (s ++ rest).takeWhile p = s.takeWhile p := by
  obtain ⟨c, behind, hc, hs⟩ := exists_eq_takeWhile h
  calc (s ++ rest).takeWhile p = (s.takeWhile p ++ c :: (behind ++ rest)).takeWhile p := by
        rw [← List.cons_append, ← List.append_assoc, ← hs]
    _ = (s.takeWhile p).takeWhile p := takeWhile_append_stop hc _ _
    _ = (s.takeWhile p ++ c :: behind).takeWhile p := (takeWhile_append_stop hc _ _).symm
    _ = s.takeWhile p := by rw [← hs]

/-- The block with `out` over its beginning. -/
def overlay (mem out : List α) : List α := out ++ mem.drop out.length

@[simp] lemma overlay_nil : overlay mem [] = mem := rfl

lemma length_overlay (h : out.length ≤ mem.length) : (overlay mem out).length = mem.length := by
  rw [overlay, List.length_append, List.length_drop]
  omega

lemma getElem?_overlay (h : i < out.length) : (overlay mem out)[i]? = out[i]? := by
  rw [overlay, List.getElem?_append_left h]

/-- What is behind `out` is as before. -/
lemma getElem?_overlay_behind (h : out.length ≤ i) : (overlay mem out)[i]? = mem[i]? := by
  rw [overlay, List.getElem?_append_right h, List.getElem?_drop]
  congr 1
  omega

/-- **The next cell is written.** -/
lemma store_overlay (h : out.length < mem.length) :
    store fault (overlay mem out) out.length c = .ok (overlay mem (out ++ [c])) := by
  rw [store_eq (by rw [length_overlay h.le]; exact h), overlay, overlay,
    List.set_append_right (h := le_rfl), Nat.sub_self, List.drop_eq_getElem_cons h,
    List.set_cons_zero, List.append_assoc, List.length_append, List.length_singleton]
  rfl

end Cells

/-! ### Loops with fuel -/

section Fuel

variable {σ β : Type*} {loop : ℕ → σ → Except ε β} {s s' : σ} {b : β}

/-- The loop comes to the result `b` with any fuel that suffices. -/
def Ends (loop : ℕ → σ → Except ε β) (s : σ) (b : β) : Prop :=
  ∃ n, ∀ fuel, n ≤ fuel → loop fuel s = .ok b

namespace Ends

/-- The last turn. -/
lemma last (h : ∀ fuel, loop (fuel + 1) s = .ok b) : Ends loop s b := by
  refine ⟨1, fun fuel hfuel => ?_⟩
  obtain ⟨fuel, rfl⟩ := Nat.exists_eq_add_of_le' hfuel
  exact h fuel

/-- One turn after another. -/
lemma turn (h : Ends loop s' b) (hturn : ∀ fuel, loop (fuel + 1) s = loop fuel s') :
    Ends loop s b := by
  obtain ⟨n, hn⟩ := h
  refine ⟨n + 1, fun fuel hfuel => ?_⟩
  obtain ⟨fuel, rfl⟩ := Nat.exists_eq_add_of_le' (Nat.le_of_add_left_le hfuel)
  rw [hturn]
  exact hn fuel (by omega)

/-- A turn with another run of the loop in it. -/
lemma call {s₁ : σ} {b₁ : β} (h₁ : Ends loop s₁ b₁) (h : Ends loop s' b)
    (hturn : ∀ fuel, loop fuel s₁ = .ok b₁ → loop (fuel + 1) s = loop fuel s') :
    Ends loop s b := by
  obtain ⟨n₁, hn₁⟩ := h₁
  obtain ⟨n, hn⟩ := h
  refine ⟨max n₁ n + 1, fun fuel hfuel => ?_⟩
  obtain ⟨fuel, rfl⟩ := Nat.exists_eq_add_of_le' (Nat.le_of_add_left_le hfuel)
  rw [hturn fuel (hn₁ fuel (by omega))]
  exact hn fuel (by omega)

end Ends

end Fuel

end SipEcho.Lib
