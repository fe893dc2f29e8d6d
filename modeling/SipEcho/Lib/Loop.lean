import Mathlib.Logic.Relation
import Mathlib.Tactic

/-!
Loops whose condition has effects, `while (!empty(s) && !act(s)) tidy(s)`: one turn either
leaves the loop in some state or goes round again from some state.

* `Turn`, `spin`: the turn and its iteration, with fuel;
* `Halts`, `Reaches`: the loop is left after finitely many turns; a turn begins at a state;
* `Halts.of_measure`: a measure that falls on every turn taken leaves the loop;
* `not_halts_of_again`: a turn that comes back to its own state never does;
* `Meets`: a call that may fail returns with a postcondition, or fails with an excuse.
-/

namespace SipEcho.Lib

universe u

/-- One turn of a loop: leave it in a state, or go round again from one. -/
inductive Turn (σ : Type u) where
  | stop (s : σ)
  | again (s : σ)

variable {σ : Type u}

/-- The loop run for at most `n` turns, `none` when they do not suffice. -/
def spin (body : σ → Turn σ) : ℕ → σ → Option σ
  | 0, _ => none
  | n + 1, s =>
      match body s with
      | .stop s' => some s'
      | .again s' => spin body n s'

/-- The loop is left: enough turns give a result. -/
def Halts (body : σ → Turn σ) (s : σ) : Prop := ∃ n s', spin body n s = some s'

/-- The turns begun from `s`: `s` itself and every state a turn goes round to. -/
def Reaches (body : σ → Turn σ) : σ → σ → Prop :=
  Relation.ReflTransGen fun s s' => body s = .again s'

lemma spin_stop {body : σ → Turn σ} {s s' : σ} (h : body s = .stop s') (n : ℕ) :
    spin body (n + 1) s = some s' := by
  rw [spin, h]

lemma spin_again {body : σ → Turn σ} {s s' : σ} (h : body s = .again s') (n : ℕ) :
    spin body (n + 1) s = spin body n s' := by
  rw [spin, h]

/-- More fuel changes no result. -/
lemma spin_mono {body : σ → Turn σ} {n : ℕ} {s r : σ} (h : spin body n s = some r) (k : ℕ) :
    spin body (n + k) s = some r := by
  induction n generalizing s with
  | zero => simp [spin] at h
  | succ n ih =>
      rw [show n + 1 + k = n + k + 1 by omega]
      cases hb : body s with
      | stop s' => rw [spin_stop hb] at h ⊢; exact h
      | again s' => rw [spin_again hb] at h ⊢; exact ih h

/-- The result does not depend on the fuel that found it. -/
lemma spin_unique {body : σ → Turn σ} {n m : ℕ} {s r r' : σ} (h : spin body n s = some r)
    (h' : spin body m s = some r') : r = r' := by
  have h1 := spin_mono h m
  have h2 := spin_mono h' n
  rw [Nat.add_comm] at h2
  exact Option.some.inj (h1.symm.trans h2)

/-- **The measure rule with fuel**: if the measure falls on every turn that goes round from a
state of `P`, and `P` is kept, the measure plus one is fuel enough. -/
lemma exists_spin_of_measure {body : σ → Turn σ} (P : σ → Prop) (μ : σ → ℕ)
    (hstep : ∀ s s', P s → body s = .again s' → P s' ∧ μ s' < μ s) :
    ∀ n s, P s → μ s ≤ n → ∃ s', spin body (n + 1) s = some s' := by
  intro n
  induction n with
  | zero =>
      intro s hs hμ
      cases hb : body s with
      | stop s' => exact ⟨s', spin_stop hb 0⟩
      | again s' =>
          have := (hstep s s' hs hb).2
          omega
  | succ n ih =>
      intro s hs hμ
      cases hb : body s with
      | stop s' => exact ⟨s', spin_stop hb _⟩
      | again s' =>
          obtain ⟨hs', hlt⟩ := hstep s s' hs hb
          rw [spin_again hb]
          exact ih s' hs' (by omega)

/-- **The measure rule.** -/
theorem Halts.of_measure {body : σ → Turn σ} (P : σ → Prop) (μ : σ → ℕ)
    (hstep : ∀ s s', P s → body s = .again s' → P s' ∧ μ s' < μ s) {s : σ} (hs : P s) :
    Halts body s :=
  ⟨μ s + 1, exists_spin_of_measure P μ hstep (μ s) s hs le_rfl⟩

lemma spin_eq_none_of_again {body : σ → Turn σ} {s : σ} (h : body s = .again s) (n : ℕ) :
    spin body n s = none := by
  induction n with
  | zero => rfl
  | succ n ih => rw [spin_again h, ih]

/-- A turn that comes back to the state it began in goes round for ever. -/
theorem not_halts_of_again {body : σ → Turn σ} {s : σ} (h : body s = .again s) :
    ¬ Halts body s := by
  rintro ⟨n, s', hs'⟩
  rw [spin_eq_none_of_again h] at hs'
  exact absurd hs' (by simp)

/-- What every turn keeps holds at every turn begun. -/
lemma Reaches.invariant {body : σ → Turn σ} {P : σ → Prop}
    (hstep : ∀ s s', P s → body s = .again s' → P s') {s s' : σ} (h : Reaches body s s')
    (hs : P s) : P s' := by
  induction h with
  | refl => exact hs
  | tail _ hb ih => exact hstep _ _ ih hb

/-! ### Calls that may fail -/

universe v

variable {ε : Type u} {α : Type v} {β : Type v}

/-- The call returns with `P`, or fails and `excuse` holds. -/
def Meets (excuse : Prop) (P : α → Prop) : Except ε α → Prop
  | .ok a => P a
  | .error _ => excuse

lemma Meets.mono {excuse : Prop} {P Q : α → Prop} {x : Except ε α} (h : Meets excuse P x)
    (hPQ : ∀ a, P a → Q a) : Meets excuse Q x := by
  cases x with
  | ok a => exact hPQ a h
  | error e => exact h

lemma Meets.excuse_mono {excuse excuse' : Prop} {P : α → Prop} {x : Except ε α}
    (h : Meets excuse P x) (he : excuse → excuse') : Meets excuse' P x := by
  cases x with
  | ok a => exact h
  | error e => exact he h

lemma Meets.and {excuse : Prop} {P Q : α → Prop} {x : Except ε α} (hP : Meets excuse P x)
    (hQ : Meets excuse Q x) : Meets excuse (fun a => P a ∧ Q a) x := by
  cases x with
  | ok a => exact ⟨hP, hQ⟩
  | error e => exact hP

/-- What a call that returns leaves. -/
lemma Meets.ok {excuse : Prop} {P : α → Prop} {x : Except ε α} {a : α} (h : Meets excuse P x)
    (hx : x = .ok a) : P a := by
  rw [hx] at h
  exact h

/-- A call after a call that returns, returned. -/
lemma ok_of_bind {x : Except ε α} {f : α → Except ε β} {b : β} (h : x >>= f = .ok b) :
    ∃ a, x = .ok a ∧ f a = .ok b := by
  cases x with
  | ok a => exact ⟨a, rfl, h⟩
  | error e => exact absurd h (by simp [bind, Except.bind])

/-- A call that returns, by what is seen of its result. -/
lemma ok_of_toOption {x : Except ε α} {f : α → β} {b : β} (h : x.toOption.map f = some b) :
    ∃ a, x = .ok a ∧ f a = b := by
  cases x with
  | ok a => exact ⟨a, rfl, Option.some.inj h⟩
  | error e => exact absurd h (by simp [Except.toOption])

/-- **The rule for a call after a call.** -/
lemma Meets.bind {excuse : Prop} {P : α → Prop} {Q : β → Prop} {x : Except ε α}
    {f : α → Except ε β} (h : Meets excuse P x) (hf : ∀ a, P a → Meets excuse Q (f a)) :
    Meets excuse Q (x >>= f) := by
  cases x with
  | ok a => exact hf a h
  | error e => exact h

/-- **The rule for a loop over a list, from its last item to its first.** -/
lemma Meets.foldlM_reverse {γ : Type u} (excuse : List γ → Prop) (P : List γ → α → Prop)
    {f : α → γ → Except ε α} {a : α} (h : P [] a)
    (hexcuse : ∀ c cs, excuse cs → excuse (c :: cs))
    (hf : ∀ c cs b, P cs b → Meets (excuse (c :: cs)) (P (c :: cs)) (f b c)) (cs : List γ) :
    Meets (excuse cs) (P cs) (cs.reverse.foldlM f a) := by
  induction cs with
  | nil => exact h
  | cons c cs ih =>
      rw [List.reverse_cons, List.foldlM_append]
      refine (ih.excuse_mono (hexcuse c cs)).bind fun b hb => ?_
      rw [List.foldlM_cons]
      exact (hf c cs b hb).bind fun b' hb' => hb'

/-- Whatever a call does, it meets nothing. -/
lemma Meets.trivially (x : Except ε α) : Meets True (fun _ => True) x := by
  cases x <;> trivial

/-- Without the excuse the call returns. -/
lemma Meets.returns {excuse : Prop} {P : α → Prop} {x : Except ε α} (h : Meets excuse P x)
    (he : ¬ excuse) : ∃ a, x = .ok a ∧ P a := by
  cases x with
  | ok a => exact ⟨a, rfl, h⟩
  | error e => exact absurd h he

end SipEcho.Lib
