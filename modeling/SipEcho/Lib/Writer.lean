import Mathlib.Data.List.Basic
import Mathlib.Tactic

/-!
Writers into a buffer of fixed size: a step takes what has been written so far and adds to it, or
gives up when the buffer is too small.

* `put`: one block, whole or not at all;
* `Appends`: a step adds a text that does not depend on the buffer, exactly when it fits;
* `Appends.put`, `Appends.nothing`, `Appends.bind`: the rules for a block, for no writing and for
  one step after another;
* `Writes`: a step writes blocks that make a text, by whatever means; with the same rules;
* `emit`: one block into memory, with no check; `Writes.emit_eq`, that a step that writes a text
  so goes wrong exactly when the text does not fit.
-/

namespace SipEcho.Lib

universe u

variable {α : Type u}

/-- Write a block behind what is there. -/
def put (max : ℕ) (s out : List α) : Option (List α) :=
  if max < out.length + s.length then none else some (out ++ s)

/-- The step adds `r`, exactly when it fits into `max`. -/
def Appends (max : ℕ) (f : List α → Option (List α)) (r : List α) : Prop :=
  ∀ out, out.length ≤ max →
    f out = if out.length + r.length ≤ max then some (out ++ r) else none

namespace Appends

variable {max : ℕ} {f g : List α → Option (List α)} {r s : List α}

lemma put (s : List α) : Appends max (Lib.put max s) s := by
  intro out _
  rw [Lib.put]
  split_ifs with h1 h2 h2
  · omega
  · rfl
  · rfl
  · omega

/-- A step that writes nothing. -/
lemma nothing : Appends max (some : List α → Option (List α)) [] := by
  intro out hout
  simp [hout]

/-- **One step after another.** -/
lemma bind (hf : Appends max f r) (hg : Appends max g s) :
    Appends max (fun out => (f out).bind g) (r ++ s) := by
  intro out hout
  simp only [hf out hout, List.length_append]
  by_cases hr : out.length + r.length ≤ max
  · have hlen : (out ++ r).length ≤ max := by rw [List.length_append]; omega
    rw [if_pos hr, Option.bind_some, hg _ hlen, List.length_append, List.append_assoc, ← add_assoc]
  · rw [if_neg hr, if_neg (by omega), Option.bind_none]

lemma congr (hf : Appends max f r) (hfg : ∀ out, g out = f out) (hrs : s = r) :
    Appends max g s := by
  intro out hout
  rw [hfg, hrs]
  exact hf out hout

lemma ite {c : Prop} [Decidable c] (hf : c → Appends max f r) (hg : ¬ c → Appends max g s) :
    Appends max (fun out => if c then f out else g out) (if c then r else s) := by
  by_cases h : c
  · simpa [h] using hf h
  · simpa [h] using hg h

end Appends

/-! ### Writers of any kind -/

universe v

variable {σ : Type u} {m : Type u → Type v} [Monad m]

/-- The step writes the text `r` in blocks, one after another, each of them by `write`. -/
def Writes (write : List α → σ → m σ) (f : σ → m σ) (r : List α) : Prop :=
  ∃ blocks : List (List α), blocks.flatten = r ∧
    ∀ s, f s = blocks.foldlM (fun s block => write block s) s

namespace Writes

variable {write : List α → σ → m σ} {f g : σ → m σ} {r s : List α}

/-- A step that writes nothing. -/
lemma nothing : Writes write (pure : σ → m σ) [] := ⟨[], rfl, fun _ => rfl⟩

lemma congr (hf : Writes write f r) (hfg : ∀ t, g t = f t) (hrs : s = r) : Writes write g s := by
  obtain ⟨blocks, hr, hf⟩ := hf
  exact ⟨blocks, hr.trans hrs.symm, fun t => (hfg t).trans (hf t)⟩

lemma ite {c : Prop} [Decidable c] (hf : c → Writes write f r) (hg : ¬ c → Writes write g s) :
    Writes write (fun t => if c then f t else g t) (if c then r else s) := by
  by_cases h : c
  · simpa [h] using hf h
  · simpa [h] using hg h

variable [LawfulMonad m]

lemma block (s : List α) : Writes write (write s) s :=
  ⟨[s], by simp, fun t => by simp⟩

/-- **One step after another.** -/
lemma bind (hf : Writes write f r) (hg : Writes write g s) :
    Writes write (fun t => f t >>= g) (r ++ s) := by
  obtain ⟨blocks, hr, hf⟩ := hf
  obtain ⟨blocks', hs, hg⟩ := hg
  refine ⟨blocks ++ blocks', by rw [List.flatten_append, hr, hs], fun t => ?_⟩
  rw [List.foldlM_append, ← hf]
  exact bind_congr hg

end Writes

/-! ### Writers into memory -/

section Emit

variable {ε : Type u}

/-- Write a block behind what is there, into memory of `cap` cells. -/
def emit (fault : ε) (cap : ℕ) (s out : List α) : Except ε (List α) :=
  if out.length + s.length ≤ cap then .ok (out ++ s) else .error fault

lemma emit_append (fault : ε) (cap : ℕ) (r s out : List α) :
    emit fault cap (r ++ s) out = emit fault cap r out >>= emit fault cap s := by
  rw [emit, emit, List.length_append]
  by_cases hr : out.length + r.length ≤ cap
  · rw [if_pos hr]
    show _ = emit fault cap s (out ++ r)
    rw [emit, List.length_append, List.append_assoc]
    simp only [add_assoc]
  · rw [if_neg hr, if_neg (by omega)]
    rfl

/-- **A text written in blocks is one block.** -/
lemma Writes.emit_eq {fault : ε} {cap : ℕ} {f : List α → Except ε (List α)} {r out : List α}
    (h : Writes (emit fault cap) f r) (hout : out.length ≤ cap) :
    f out = emit fault cap r out := by
  obtain ⟨blocks, rfl, hf⟩ := h
  rw [hf]
  clear hf
  induction blocks generalizing out with
  | nil => simp [emit, hout, pure, Except.pure]
  | cons b blocks ih =>
      rw [List.foldlM_cons, List.flatten_cons, emit_append]
      cases hb : emit fault cap b out with
      | error e => rfl
      | ok out' =>
          refine ih ?_
          rw [emit] at hb
          split at hb
          · cases hb
            rw [List.length_append]
            assumption
          · exact absurd hb (by simp)

end Emit

end SipEcho.Lib
