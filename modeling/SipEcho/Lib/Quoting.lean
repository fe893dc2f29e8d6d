import Mathlib.Tactic

/-!
Quoted strings over any alphabet: a string between two quotes, in which a mark escapes the letter
behind it.

* `escaped`, `unescaped`, `unescaped_escaped`: the mark put before every quote and mark, and taken
  off again;
* `escaped_eq_iff`, `unescaped_eq_iff`: the strings that stay as they are;
* `enquoted`, `unquoted`, `meaning`: the quotes put around and taken off, and the string that is
  meant;
* `requoted_iff`: **taken apart and quoted again any number of times, a string means the same
  exactly when there is no quote and no mark inside**;
* `unquoted_iff`: without the quotes put back, when no mark escapes anything, and there are no
  quotes within the quotes.
-/

namespace SipEcho.Lib

universe u

variable {α : Type u} [DecidableEq α] (quote mark : α)

/-- The mark before every quote and every mark. -/
def escaped (s : List α) : List α :=
  s.flatMap fun c => if c = quote ∨ c = mark then [mark, c] else [c]

/-- Every mark with a letter behind it taken off. -/
def unescaped : List α → List α
  | [] => []
  | [c] => [c]
  | c :: d :: s => if c = mark then d :: unescaped s else c :: unescaped (d :: s)

/-- Between quotes. -/
def enquoted (s : List α) : List α := quote :: (s ++ [quote])

/-- Between two quotes, and not one that is both. -/
def InQuotes (s : List α) : Prop := ∃ body, s = enquoted quote body

/-- The quotes around the string, if there are any, taken off. -/
def unquoted (s : List α) : List α :=
  if 2 ≤ s.length ∧ s.head? = some quote ∧ s.getLast? = some quote then s.tail.dropLast else s

/-- What a token or a quoted string means. -/
def meaning (s : List α) : List α :=
  if 2 ≤ s.length ∧ s.head? = some quote ∧ s.getLast? = some quote then
    unescaped mark s.tail.dropLast
  else s

variable {quote mark} {s body : List α}

omit [DecidableEq α] in
lemma inQuotes_iff :
    InQuotes quote s ↔ 2 ≤ s.length ∧ s.head? = some quote ∧ s.getLast? = some quote := by
  constructor
  · rintro ⟨body, rfl⟩
    refine ⟨by simp [enquoted], rfl, ?_⟩
    rw [enquoted, ← List.cons_append, List.getLast?_append]
    rfl
  · rintro ⟨hlength, hhead, hlast⟩
    obtain ⟨t, rfl⟩ := List.head?_eq_some_iff.mp hhead
    obtain ⟨init, hinit⟩ := List.getLast?_eq_some_iff.mp hlast
    cases init with
    | nil => simp [hinit] at hlength
    | cons c init =>
        obtain ⟨rfl, rfl⟩ := List.cons.inj hinit
        exact ⟨init, rfl⟩

@[simp] lemma unquoted_enquoted : unquoted quote (enquoted quote body) = body := by
  rw [unquoted, if_pos (inQuotes_iff.mp ⟨body, rfl⟩)]
  simp [enquoted]

lemma unquoted_of_not (h : ¬ InQuotes quote s) : unquoted quote s = s := by
  rw [unquoted, if_neg (mt inQuotes_iff.mpr h)]

@[simp] lemma meaning_enquoted :
    meaning quote mark (enquoted quote body) = unescaped mark body := by
  rw [meaning, if_pos (inQuotes_iff.mp ⟨body, rfl⟩)]
  simp [enquoted]

lemma meaning_of_not (h : ¬ InQuotes quote s) : meaning quote mark s = s := by
  rw [meaning, if_neg (mt inQuotes_iff.mpr h)]

/-! ### Escapes -/

lemma unescaped_cons {c : α} (h : c ≠ mark) (s : List α) :
    unescaped mark (c :: s) = c :: unescaped mark s := by
  cases s with
  | nil => rfl
  | cons d s => rw [unescaped, if_neg h]

lemma unescaped_mark (c : α) (s : List α) :
    unescaped mark (mark :: c :: s) = c :: unescaped mark s := by
  rw [unescaped, if_pos rfl]

/-- **What is escaped is found again.** -/
lemma unescaped_escaped (s : List α) : unescaped mark (escaped quote mark s) = s := by
  induction s with
  | nil => rfl
  | cons c s ih =>
      rw [escaped, List.flatMap_cons]
      change unescaped mark (_ ++ escaped quote mark s) = _
      split_ifs with hc
      · rw [List.cons_append, List.cons_append, List.nil_append, unescaped_mark, ih]
      · rw [List.singleton_append, unescaped_cons fun h => hc (.inr h), ih]

variable (quote mark) in
lemma le_length_escaped (s : List α) : s.length ≤ (escaped quote mark s).length := by
  induction s with
  | nil => exact le_rfl
  | cons c s ih =>
      rw [escaped, List.flatMap_cons, List.length_append]
      change _ ≤ _ + (escaped quote mark s).length
      split_ifs <;> simp only [List.length_cons, List.length_nil] <;> omega

/-- Nothing is escaped in a string without quotes and marks, and in no other. -/
lemma escaped_eq_iff : escaped quote mark s = s ↔ ∀ c ∈ s, c ≠ quote ∧ c ≠ mark := by
  induction s with
  | nil => simp [escaped]
  | cons c s ih =>
      have hlength := le_length_escaped quote mark s
      rw [List.forall_mem_cons, ← ih, escaped, List.flatMap_cons]
      change _ ++ escaped quote mark s = _ ↔ _
      split_ifs with hc
      · refine iff_of_false (fun h => ?_) fun h => hc.elim h.1.1 h.1.2
        have := congrArg List.length h
        simp only [List.length_append, List.length_cons, List.length_nil] at this
        omega
      · rw [List.singleton_append, List.cons.injEq]
        exact and_congr_left fun _ => iff_of_true rfl (not_or.mp hc)

variable (mark) in
lemma length_unescaped_le (s : List α) : (unescaped mark s).length ≤ s.length := by
  fun_induction unescaped mark s with
  | case1 => exact le_rfl
  | case2 c => exact le_rfl
  | case3 d s ih => simp only [List.length_cons]; omega
  | case4 c d s hc ih => simpa using ih

/-- A mark that is not the last letter is taken off. -/
lemma unescaped_eq_iff : unescaped mark s = s ↔ mark ∉ s.dropLast := by
  fun_induction unescaped mark s with
  | case1 => simp
  | case2 c => simp
  | case3 d s ih =>
      refine iff_of_false (fun h => ?_) (by simp)
      have hlength := length_unescaped_le mark s
      have := congrArg List.length h
      simp only [List.length_cons] at this
      omega
  | case4 c d s hc ih =>
      rw [List.cons.injEq, List.dropLast_cons_cons, List.mem_cons, not_or, ih]
      exact and_congr_left fun _ => iff_of_true rfl fun h => hc h.symm

variable (mark) in
/-- A letter more makes what is meant no shorter. -/
lemma length_unescaped_append (s : List α) (c : α) :
    (unescaped mark s).length ≤ (unescaped mark (s ++ [c])).length := by
  fun_induction unescaped mark s with
  | case1 => simp
  | case2 d =>
      by_cases hd : d = mark
      · subst hd
        simp [unescaped]
      · simp [unescaped, hd]
  | case3 d s ih => simpa [unescaped] using ih
  | case4 d e s hd ih => simpa [unescaped, hd] using ih

/-! ### Passed on -/

variable (quote mark) in
/-- The quotes taken off, and the string quoted again. -/
def requoted (s : List α) : List α := enquoted quote (escaped quote mark (unquoted quote s))

/-- What a string without quotes and marks inside means. -/
lemma meaning_of_plain (h : ∀ c ∈ unquoted quote s, c ≠ quote ∧ c ≠ mark) :
    meaning quote mark s = unquoted quote s := by
  by_cases hs : InQuotes quote s
  · obtain ⟨body, rfl⟩ := hs
    rw [unquoted_enquoted] at h
    rw [meaning_enquoted, unquoted_enquoted, unescaped_eq_iff]
    exact fun hmem => (h mark (List.mem_of_mem_dropLast hmem)).2 rfl
  · rw [meaning_of_not hs, unquoted_of_not hs]

/-- **A string quoted again and again means the same exactly when there is no quote and no mark
inside.** -/
theorem requoted_iff : (∀ n, meaning quote mark ((requoted quote mark)^[n] s) =
      meaning quote mark s) ↔ ∀ c ∈ unquoted quote s, c ≠ quote ∧ c ≠ mark := by
  constructor
  · intro h
    have hone : meaning quote mark (requoted quote mark s) = meaning quote mark s := h 1
    have htwo : meaning quote mark (requoted quote mark (requoted quote mark s)) =
        meaning quote mark s := h 2
    rw [requoted, meaning_enquoted, unescaped_escaped] at hone
    rw [requoted, meaning_enquoted, unescaped_escaped, requoted, unquoted_enquoted] at htwo
    exact escaped_eq_iff.mp (htwo.trans hone.symm)
  · intro h n
    have hrequoted : requoted quote mark s = enquoted quote (unquoted quote s) := by
      rw [requoted, escaped_eq_iff.mpr h]
    have hfix : requoted quote mark (enquoted quote (unquoted quote s)) =
        enquoted quote (unquoted quote s) := by
      rw [requoted, unquoted_enquoted, escaped_eq_iff.mpr h]
    cases n with
    | zero => rfl
    | succ n =>
        rw [Function.iterate_succ_apply, hrequoted, Function.iterate_fixed hfix, meaning_enquoted,
          meaning_of_plain h, unescaped_eq_iff]
        exact fun hmem => (h mark (List.mem_of_mem_dropLast hmem)).2 rfl

/-- **A string whose quotes are taken off, once and again, means the same exactly when it is not
in quotes**, or no mark and no quotes are directly within them. -/
theorem unquoted_iff (hne : quote ≠ mark) : (∀ n, meaning quote mark ((unquoted quote)^[n] s) =
      meaning quote mark s) ↔
    ∀ body, s = enquoted quote body → ¬ InQuotes quote body ∧ mark ∉ body.dropLast := by
  by_cases hs : InQuotes quote s
  · obtain ⟨body, rfl⟩ := hs
    constructor
    · intro h inner hinner
      obtain rfl : body = inner := by
        have := congrArg (unquoted quote) hinner
        rwa [unquoted_enquoted, unquoted_enquoted] at this
      have hone : meaning quote mark (unquoted quote (enquoted quote body)) = _ := h 1
      rw [unquoted_enquoted, meaning_enquoted] at hone
      have hnot : ¬ InQuotes quote body := by
        rintro ⟨inner, rfl⟩
        rw [meaning_enquoted, enquoted, unescaped_cons hne] at hone
        have hlength := length_unescaped_append mark inner quote
        have := congrArg List.length hone
        rw [List.length_cons] at this
        omega
      rw [meaning_of_not hnot] at hone
      exact ⟨hnot, unescaped_eq_iff.mp hone.symm⟩
    · intro h n
      obtain ⟨hnot, hmark⟩ := h body rfl
      have hfix : unquoted quote body = body := unquoted_of_not hnot
      cases n with
      | zero => rfl
      | succ n =>
          rw [Function.iterate_succ_apply, unquoted_enquoted, Function.iterate_fixed hfix,
            meaning_of_not hnot, meaning_enquoted, unescaped_eq_iff.mpr hmark]
  · refine iff_of_true (fun n => ?_) fun body hbody => absurd ⟨body, hbody⟩ hs
    rw [Function.iterate_fixed (unquoted_of_not hs)]

end SipEcho.Lib
