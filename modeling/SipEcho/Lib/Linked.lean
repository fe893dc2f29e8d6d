import Mathlib.Tactic

/-!
Lists threaded through the addresses of a heap by one link.

* `Linked`: the link leads through a list, and ends behind it;
* `Linked.congr`: nothing of the list has changed;
* `Linked.snoc`: an address behind the last.
-/

namespace SipEcho.Lib

universe u

variable {A : Type u}

/-- From `first` on the link leads through the list. -/
def Linked (next : A → Option A) : Option A → List A → Prop
  | first, [] => first = none
  | first, a :: l => first = some a ∧ Linked next (next a) l

variable {next next' : A → Option A} {first : Option A} {l : List A} {a : A}

lemma Linked.head? (h : Linked next first l) : first = l.head? := by
  cases l with
  | nil => exact h
  | cons a l => exact h.1

/-- A link leads through one list only. -/
lemma Linked.unique {l' : List A} (h : Linked next first l) (h' : Linked next first l') :
    l = l' := by
  induction l generalizing first l' with
  | nil =>
      cases l' with
      | nil => rfl
      | cons a l' => cases h.symm.trans h'.1
  | cons a l ih =>
      cases l' with
      | nil => cases h'.symm.trans h.1
      | cons b l' =>
          obtain rfl := Option.some.inj (h.1.symm.trans h'.1)
          rw [ih h.2 h'.2]

lemma Linked.congr (h : Linked next first l) (hnext : ∀ a ∈ l, next' a = next a) :
    Linked next' first l := by
  induction l generalizing first with
  | nil => exact h
  | cons a l ih =>
      refine ⟨h.1, ?_⟩
      rw [hnext a List.mem_cons_self]
      exact ih h.2 fun b hb => hnext b (List.mem_cons_of_mem a hb)

/-- **A new last address.** -/
lemma Linked.snoc (h : Linked next first l) (hl : l.Nodup) (hnext : next' a = none)
    (hlast : ∀ b, l.getLast? = some b → next' b = some a)
    (hrest : ∀ b ∈ l, l.getLast? ≠ some b → next' b = next b) :
    Linked next' (if first = none then some a else first) (l ++ [a]) := by
  induction l generalizing first with
  | nil =>
      rw [show first = none from h]
      exact ⟨rfl, hnext⟩
  | cons b l ih =>
      obtain ⟨rfl, h⟩ := h
      refine ⟨rfl, ?_⟩
      rcases l with _ | ⟨c, l⟩
      · rw [hlast b rfl]
        exact ⟨rfl, hnext⟩
      · have hb : next' b = next b := hrest b List.mem_cons_self fun hb => by
          refine (List.nodup_cons.mp hl).1 (List.mem_of_getLast? ?_)
          simpa using hb
        have hsome : next b ≠ none := by rw [h.1]; simp
        have := ih h (List.nodup_cons.mp hl).2 (fun d hd => hlast d (by simpa using hd))
          fun d hd hne => hrest d (List.mem_cons_of_mem b hd) (by simpa using hne)
        rw [if_neg hsome] at this
        rw [hb]
        exact this

end SipEcho.Lib
