import Mathlib.Data.List.Basic
import Mathlib.Data.List.Forall2

/-!
Lists of items some of which are finished, and the entries of those that are still open.

* `openEntries`: the entries of the items that are not finished, in their order;
* `openEntries_append`, `openEntries_dropWhile`, `openEntries_update`, `openEntries_finish`: what is
  open when an item comes in, when the finished ones at the head go, when an item changes, and when
  the first one that fits is finished;
* `pairwise_replace`, `exists_split_of_findIdx?`: an item is replaced where it stands;
* `forall₂_modify`, `forall₂_dropWhile`: so it is in two lists that agree item by item, and the
  finished ones at the head of both go.
-/

namespace SipEcho.Lib

universe u v

section Replace

variable {α : Type u} {p : α → Bool} {l l₁ l₂ : List α} {m m' : α} {i : ℕ}

/-- Where the first item that fits stands. -/
lemma exists_split_of_findIdx? (h : l.findIdx? p = some i) :
    ∃ l₁ m l₂, l = l₁ ++ m :: l₂ ∧ l₁.length = i ∧ p m = true ∧ ∀ w ∈ l₁, p w = false := by
  obtain ⟨hi, hp, hbefore⟩ := List.findIdx?_eq_some_iff_getElem.mp h
  refine ⟨l.take i, l[i], l.drop (i + 1), ?_, List.length_take_of_le (Nat.le_of_lt hi), hp,
    fun w hw => ?_⟩
  · rw [List.getElem_cons_drop, List.take_append_drop]
  · obtain ⟨j, hj, rfl⟩ := List.mem_take_iff_getElem.mp hw
    exact Bool.eq_false_iff.mpr (hbefore j (by omega))

/-- Where an item stands. -/
lemma split_of_getElem? (h : l[i]? = some m) : l = l.take i ++ m :: l.drop (i + 1) := by
  obtain ⟨hi, rfl⟩ := List.getElem?_eq_some_iff.mp h
  rw [List.getElem_cons_drop, List.take_append_drop]

lemma set_split (h : l[i]? = some m) (m' : α) :
    l.set i m' = l.take i ++ m' :: l.drop (i + 1) :=
  List.set_eq_take_append_cons_drop.trans (if_pos (List.getElem?_eq_some_iff.mp h).1)

lemma take_succ_of_getElem? (h : l[i]? = some m) : l.take (i + 1) = l.take i ++ [m] := by
  rw [List.take_add_one, h, Option.toList_some]

lemma take_succ_set (h : l[i]? = some m) (m' : α) :
    (l.set i m').take (i + 1) = l.take i ++ [m'] := by
  have hi := (List.getElem?_eq_some_iff.mp h).1
  rw [take_succ_of_getElem? (List.getElem?_set_self hi), List.take_set_of_le (Nat.le_refl i)]

/-- **An item is replaced** by one that gets on with the others as well. -/
lemma pairwise_replace {R : α → α → Prop} (h : (l₁ ++ m :: l₂).Pairwise R)
    (hbefore : ∀ w ∈ l₁, R w m → R w m') (hbehind : ∀ w ∈ l₂, R m w → R m' w) :
    (l₁ ++ m' :: l₂).Pairwise R := by
  rw [List.pairwise_append, List.pairwise_cons] at h ⊢
  obtain ⟨h₁, ⟨hm, h₂⟩, hcross⟩ := h
  refine ⟨h₁, ⟨fun w hw => hbehind w hw (hm w hw), h₂⟩, fun w hw x hx => ?_⟩
  rcases List.mem_cons.mp hx with rfl | hx
  · exact hbefore w hw (hcross w hw m List.mem_cons_self)
  · exact hcross w hw x (List.mem_cons_of_mem _ hx)

/-- Of items no two of which fit together, one fits at most. -/
lemma length_filter_le_one {R : α → α → Prop} (h : l.Pairwise R)
    (hR : ∀ a b, R a b → p a = true → ¬ p b = true) : (l.filter p).length ≤ 1 := by
  have hp : ∀ a ∈ l.filter p, p a = true := fun a ha => (List.mem_filter.mp ha).2
  have hpair : (l.filter p).Pairwise R := h.filter p
  cases hl : l.filter p with
  | nil => exact Nat.zero_le 1
  | cons a rest =>
      cases rest with
      | nil => exact Nat.le_refl 1
      | cons b rest =>
          rw [hl] at hp hpair
          have hab := (List.pairwise_cons.mp hpair).1 b (by simp)
          exact absurd (hp b (by simp)) (hR a b hab (hp a (by simp)))

end Replace

section Forall₂

variable {α : Type u} {β : Type v} {R : α → β → Prop}

lemma forall₂_dropWhile {p : α → Bool} {q : β → Bool} (hpq : ∀ a b, R a b → p a = q b)
    {l : List α} {l' : List β} (h : List.Forall₂ R l l') :
    List.Forall₂ R (l.dropWhile p) (l'.dropWhile q) := by
  induction h with
  | nil => exact .nil
  | @cons a b l l' hab h ih =>
      rw [List.dropWhile_cons, List.dropWhile_cons, hpq a b hab]
      split
      · exact ih
      · exact .cons hab h

/-- One element changes in both. -/
lemma forall₂_modify {f : α → α} {b b' : β} {l₁ l₂ : List β} {l : List α}
    (h : List.Forall₂ R l (l₁ ++ b :: l₂)) (hf : ∀ a, R a b → R (f a) b') :
    List.Forall₂ R (l.modify l₁.length f) (l₁ ++ b' :: l₂) := by
  induction l₁ generalizing l with
  | nil =>
      obtain ⟨a, rest, hab, hrest, rfl⟩ := List.forall₂_cons_right_iff.mp h
      exact .cons (hf a hab) hrest
  | cons c l₁ ih =>
      obtain ⟨a, rest, hac, hrest, rfl⟩ := List.forall₂_cons_right_iff.mp h
      exact .cons hac (ih hrest)

end Forall₂

/-! ### The open entries -/

section Open

variable {α : Type u} {β : Type v} {done : α → Bool} {entry : α → β} {l l₁ l₂ : List α} {m m' : α}
  {p : β → Bool}

/-- The entries of the items that are not finished. -/
def openEntries (done : α → Bool) (entry : α → β) (l : List α) : List β :=
  (l.filter fun m => !done m).map entry

@[simp] lemma openEntries_append :
    openEntries done entry (l₁ ++ l₂) = openEntries done entry l₁ ++ openEntries done entry l₂ := by
  rw [openEntries, List.filter_append, List.map_append, openEntries, openEntries]

lemma openEntries_cons_done (h : done m = true) :
    openEntries done entry (m :: l) = openEntries done entry l := by
  rw [openEntries, List.filter_cons_of_neg (by simp [h]), openEntries]

lemma openEntries_cons_open (h : done m = false) :
    openEntries done entry (m :: l) = entry m :: openEntries done entry l := by
  rw [openEntries, List.filter_cons_of_pos (by simp [h]), List.map_cons, openEntries]

lemma openEntries_eq_nil (h : ∀ m ∈ l, done m = true) : openEntries done entry l = [] := by
  rw [openEntries, List.filter_eq_nil_iff.mpr fun m hm => by simp [h m hm], List.map_nil]

lemma mem_openEntries {b : β} :
    b ∈ openEntries done entry l ↔ ∃ m ∈ l, done m = false ∧ entry m = b := by
  simp [openEntries, and_assoc]

/-- Finished items at the head go. -/
lemma openEntries_dropWhile {q : α → Bool} (hq : ∀ m, q m = true → done m = true) :
    openEntries done entry (l.dropWhile q) = openEntries done entry l := by
  induction l with
  | nil => rfl
  | cons m l ih =>
      cases hm : q m with
      | true => rw [List.dropWhile_cons_of_pos hm, openEntries_cons_done (hq m hm), ih]
      | false => rw [List.dropWhile_cons_of_neg (by simp [hm])]

/-- An item changes, but not its entry. -/
lemma openEntries_update (hm : done m = done m') (hentry : entry m' = entry m) :
    openEntries done entry (l₁ ++ m' :: l₂) = openEntries done entry (l₁ ++ m :: l₂) := by
  rw [openEntries_append, openEntries_append]
  cases h : done m with
  | true => rw [openEntries_cons_done h, openEntries_cons_done (hm ▸ h)]
  | false => rw [openEntries_cons_open h, openEntries_cons_open (hm ▸ h), hentry]

/-- Nothing that is open fits. -/
lemma openEntries_eraseP_of_forall (h : ∀ w ∈ l, done w = true ∨ p (entry w) = false) :
    (openEntries done entry l).eraseP p = openEntries done entry l := by
  refine List.eraseP_of_forall_not fun b hb => ?_
  obtain ⟨w, hw, hopen, rfl⟩ := mem_openEntries.mp hb
  have hfit := (h w hw).resolve_left (by simp [hopen])
  simp [hfit]

/-- **The first open item that fits is finished.** -/
lemma openEntries_finish (hm : done m = false) (hm' : done m' = true) (hp : p (entry m) = true)
    (hbefore : ∀ w ∈ l₁, done w = true ∨ p (entry w) = false) :
    openEntries done entry (l₁ ++ m' :: l₂) =
      (openEntries done entry (l₁ ++ m :: l₂)).eraseP p := by
  have hnone : ∀ b ∈ openEntries done entry l₁, ¬ p b = true := fun b hb => by
    obtain ⟨w, hw, hopen, rfl⟩ := mem_openEntries.mp hb
    have hfit := (hbefore w hw).resolve_left (by simp [hopen])
    simp [hfit]
  rw [openEntries_append, openEntries_append, openEntries_cons_done hm', openEntries_cons_open hm,
    List.eraseP_append_right _ hnone, List.eraseP_cons_of_pos hp]

end Open

end SipEcho.Lib
