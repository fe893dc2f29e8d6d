import Mathlib.Data.List.Basic
import Mathlib.Tactic

/-!
Converters between two forms of a record.  One direction, `write`, never fails; the way back,
`read`, may.

* `Restores`: `read` takes back what `write` made of the values of a predicate;
* `Restores.list`: element by element, in order;
* `Restores.option`: for a part that may be absent;
* `readList`: the elements read in order, up to the first failure.
-/

namespace SipEcho.Lib

universe u v

variable {α : Type u} {β : Type v}

/-- The elements read in order; one failure is a failure of the whole. -/
def readList (read : α → Option β) : List α → Option (List β)
  | [] => some []
  | a :: l =>
      match read a with
      | none => none
      | some b => (readList read l).map (b :: ·)

/-- **`read` restores what `write` made** of the values in `P`. -/
def Restores (P : β → Prop) (write : β → α) (read : α → Option β) : Prop :=
  ∀ b, P b → read (write b) = some b

namespace Restores

variable {P Q : β → Prop} {write : β → α} {read : α → Option β}

lemma mono (h : Restores P write read) (hPQ : ∀ b, Q b → P b) : Restores Q write read := by
  intro b hb
  exact h b (hPQ b hb)

/-- A list is restored element by element. -/
lemma list (h : Restores P write read) :
    Restores (fun l => ∀ b ∈ l, P b) (List.map write) (readList read) := by
  intro l hl
  induction l with
  | nil => rfl
  | cons b l ih =>
      have hb := h b (hl b (by simp))
      have ht := ih fun c hc => hl c (by simp [hc])
      rw [List.map_cons, readList, hb]
      simp [ht]

/-- A part that may be absent, read by a caller that does not ask whether reading failed. -/
lemma option (h : Restores P write read) {o : Option β} (ho : ∀ b, o = some b → P b) :
    (o.map write).bind read = o := by
  cases o with
  | none => rfl
  | some b => exact h b (ho b rfl)

end Restores

lemma readList_isSome {read : α → Option β} {l : List α} :
    (readList read l).isSome ↔ ∀ a ∈ l, (read a).isSome := by
  induction l with
  | nil => simp [readList]
  | cons a l ih =>
      rw [readList]
      cases hr : read a with
      | none => simp [hr]
      | some b => simp [hr, ih]

lemma readList_total (read : α → Option β) (h : ∀ a, (read a).isSome) (l : List α) :
    ∃ r, readList read l = some r :=
  Option.isSome_iff_exists.mp (readList_isSome.mpr fun a _ => h a)

end SipEcho.Lib
