import SipEcho.Notify.Watch

/-!
Who watches whom, as a list.

A `Watch` tells it of all addresses; a `WatchTable` lists the watchers, so that what the calls mean
and whether the store can take them is computed.

* `Watch.Listed`: the table lists those who watch;
* `Watch.Listed.step`: so it does after a call;
* `WatchTable.admits_sound`, `WatchTable.allAdmit_sound`: the calls that are found to be admitted
  are.
-/

namespace SipEcho

/-- Those who watch: subscriber, contact, target. -/
abbrev WatchTable := List (SipAddress × SipAddress × SipAddress)

/-- The entry is for these addresses. -/
def SameWatch (x : SipAddress × SipAddress × SipAddress) (f c t : SipAddress) : Prop :=
  sameUrl x.1 f ∧ sameUrl x.2.1 c ∧ sameUrl x.2.2 t

/-- **The table lists those who watch.** -/
structure Watch.Listed (w : Watch) (l : WatchTable) : Prop where
  named : ∀ x ∈ l, x.1.Named ∧ x.2.1.Named ∧ x.2.2.Named
  watched : ∀ {f c t}, f.Named → c.Named → t.Named → (w f c t ≠ none ↔ ∃ x ∈ l, SameWatch x f c t)

namespace WatchTable

/-- What a call means. -/
def step (l : WatchTable) : NotifyOp → WatchTable
  | .update _ (some from_) (some contact) (some to_) (some _) => (from_, contact, to_) :: l
  | .delete _ (some from_) contact to_ =>
      l.filter fun x => decide (¬ Covers from_ contact to_ x.1 x.2.1 x.2.2)
  | _ => l

/-- Who goes leaves every target with somebody else to watch it. -/
def spares (l : WatchTable) (from_ : SipAddress) (contact : Option SipAddress) : Bool :=
  l.all fun x => decide (Covers from_ contact none x.1 x.2.1 x.2.2 →
    ∃ y ∈ l, sameUrl y.2.2 x.2.2 ∧ ¬ Covers from_ contact none y.1 y.2.1 y.2.2)

/-- The calls the store can take, computed. -/
def admits (l : WatchTable) : NotifyOp → Bool
  | .update _ (some from_) (some contact) (some to_) (some _) =>
      from_.url.isSome && contact.url.isSome && to_.url.isSome &&
        l.all fun x => decide (sameUrl x.2.1 contact → sameUrl x.2.2 to_ → sameUrl from_ x.1)
  | .delete _ (some from_) none _ => from_.url.isSome && l.spares from_ none
  | .delete _ (some from_) (some contact) none =>
      from_.url.isSome && contact.url.isSome && l.spares from_ (some contact)
  | .delete _ (some from_) (some contact) (some to_) =>
      from_.url.isSome && contact.url.isSome && to_.url.isSome
  | _ => true

/-- So are those of a sequence. -/
def allAdmit (l : WatchTable) : List NotifyOp → Bool
  | [] => true
  | op :: ops => l.admits op && allAdmit (l.step op) ops

end WatchTable

/-- What is covered does not depend on how the addresses are written. -/
lemma covers_congr {from_ : SipAddress} {contact to_ : Option SipAddress}
    {x : SipAddress × SipAddress × SipAddress} {f c t : SipAddress}
    (hx : x.1.Named ∧ x.2.1.Named ∧ x.2.2.Named) (hf : f.Named) (hc : c.Named) (ht : t.Named)
    (h : SameWatch x f c t) :
    Covers from_ contact to_ x.1 x.2.1 x.2.2 ↔ Covers from_ contact to_ f c t := by
  have same {a b c : SipAddress} (hb : b.Named) (hc : c.Named) (hbc : sameUrl b c) :
      sameUrl a b ↔ sameUrl a c :=
    ⟨fun h => sameUrl_trans hb h hbc, fun h => sameUrl_trans hc h (sameUrl_symm _ _ hbc)⟩
  have h1 (a : SipAddress) : sameUrl a x.1 ↔ sameUrl a f := same hx.1 hf h.1
  have h2 (a : SipAddress) : sameUrl a x.2.1 ↔ sameUrl a c := same hx.2.1 hc h.2.1
  have h3 (a : SipAddress) : sameUrl a x.2.2 ↔ sameUrl a t := same hx.2.2 ht h.2.2
  rw [Covers, Covers, h1]
  cases contact with
  | none => rfl
  | some contact =>
      cases to_ with
      | none => simp [h2]
      | some to_ => simp [h2, h3]

namespace Watch.Listed

variable {w : Watch} {l : WatchTable} {pick : Pick} {from_ contact to_ : SipAddress}

lemma empty : Watch.empty.Listed [] where
  named x hx := by cases hx
  watched _ _ _ := by simp [Watch.empty]

lemma update (h : w.Listed l) (hfrom : from_.Named) (hcontact : contact.Named) (hto : to_.Named)
    (id : SipCallId) : (w.update from_ contact to_ id).Listed ((from_, contact, to_) :: l) where
  named := List.forall_mem_cons.mpr ⟨⟨hfrom, hcontact, hto⟩, h.named⟩
  watched {f c t} hf hc ht := by
    rw [Watch.update, List.exists_mem_cons_iff, ← h.watched hf hc ht, SameWatch]
    split
    · rename_i hsame
      exact iff_of_true (by simp) (Or.inl hsame)
    · rename_i hsame
      exact ⟨Or.inr, fun hw => hw.resolve_left hsame⟩

lemma delete (h : w.Listed l) (from_ : SipAddress) (contact to_ : Option SipAddress) :
    (w.delete from_ contact to_).Listed
      (l.filter fun x => decide (¬ Covers from_ contact to_ x.1 x.2.1 x.2.2)) where
  named x hx := h.named x (List.mem_of_mem_filter hx)
  watched {f c t} hf hc ht := by
    have hkept : (∃ x ∈ l.filter fun x => decide (¬ Covers from_ contact to_ x.1 x.2.1 x.2.2),
        SameWatch x f c t) ↔ ¬ Covers from_ contact to_ f c t ∧ ∃ x ∈ l, SameWatch x f c t := by
      constructor
      · rintro ⟨x, hx, hsame⟩
        obtain ⟨hmem, hno⟩ := List.mem_filter.mp hx
        rw [decide_eq_true_eq, covers_congr (h.named x hmem) hf hc ht hsame] at hno
        exact ⟨hno, x, hmem, hsame⟩
      · rintro ⟨hno, x, hmem, hsame⟩
        refine ⟨x, List.mem_filter.mpr ⟨hmem, ?_⟩, hsame⟩
        rwa [decide_eq_true_eq, covers_congr (h.named x hmem) hf hc ht hsame]
    rw [hkept, ← h.watched hf hc ht, Watch.delete]
    split
    · rename_i hcovers
      exact iff_of_false (by simp) fun hw => hw.1 hcovers
    · rename_i hcovers
      exact ⟨fun hw => ⟨hcovers, hw⟩, fun hw => hw.2⟩

/-- **After a call** the table lists those who watch then. -/
lemma step (h : w.Listed l) {op : NotifyOp} (hop : w.Admits op) :
    (w.step op).Listed (l.step op) := by
  cases op with
  | delete pick from_ contact to_ =>
      cases from_ with
      | none => exact h
      | some from_ => exact h.delete from_ contact to_
  | update pick from_ contact to_ id =>
      rcases from_ with _ | from_
      · exact h
      rcases contact with _ | contact
      · exact h
      rcases to_ with _ | to_
      · exact h
      rcases id with _ | id
      · exact h
      exact h.update hop.1 hop.2.1 hop.2.2.1 id

/-- Somebody is left to watch the target. -/
lemma spares (h : w.Listed l) {from_ : SipAddress} {contact : Option SipAddress}
    (hspares : l.spares from_ contact) {f c t : SipAddress} (hw : w.Watched f c t)
    (hcovers : Covers from_ contact none f c t) :
    ∃ f' c', w.Watched f' c' t ∧ ¬ Covers from_ contact none f' c' t := by
  obtain ⟨hf, hc, ht, hne⟩ := hw
  obtain ⟨x, hx, hsame⟩ := (h.watched hf hc ht).mp hne
  obtain ⟨y, hy, htarget, hno⟩ := of_decide_eq_true (List.all_eq_true.mp hspares x hx)
    ((covers_congr (h.named x hx) hf hc ht hsame).mpr hcovers)
  obtain ⟨hy1, hy2, hy3⟩ := h.named y hy
  have hyt : SameWatch y y.1 y.2.1 t :=
    ⟨sameUrl_refl _, sameUrl_refl _, sameUrl_trans (h.named x hx).2.2 htarget hsame.2.2⟩
  refine ⟨y.1, y.2.1, ⟨hy1, hy2, ht, (h.watched hy1 hy2 ht).mpr ⟨y, hy, hyt⟩⟩, ?_⟩
  rwa [← covers_congr ⟨hy1, hy2, hy3⟩ hy1 hy2 ht hyt]

end Watch.Listed

namespace WatchTable

variable {w : Watch} {l : WatchTable}

/-- **The calls that are found to be admitted are.** -/
lemma admits_sound (h : w.Listed l) {op : NotifyOp} (hop : l.admits op) : w.Admits op := by
  cases op with
  | delete pick from_ contact to_ =>
      rcases from_ with _ | from_
      · trivial
      rcases contact with _ | contact
      · rw [admits, Bool.and_eq_true] at hop
        refine ⟨hop.1, fun f c t hw hsame => ?_⟩
        obtain ⟨f', c', hw', hno⟩ := h.spares hop.2 hw (covers_subscriber.mpr hsame)
        exact ⟨f', c', hw', fun hf' => hno (covers_subscriber.mpr hf')⟩
      rcases to_ with _ | to_
      · simp only [admits, Bool.and_eq_true] at hop
        refine ⟨hop.1.1, hop.1.2, fun f c t hw hsame => ?_⟩
        obtain ⟨f', c', hw', hno⟩ := h.spares hop.2 hw (covers_contact.mpr hsame)
        exact ⟨f', c', hw', fun hf' => hno (covers_contact.mpr hf')⟩
      · simp only [admits, Bool.and_eq_true] at hop
        exact ⟨hop.1.1, hop.1.2, hop.2⟩
  | update pick from_ contact to_ id =>
      rcases from_ with _ | from_
      · trivial
      rcases contact with _ | contact
      · trivial
      rcases to_ with _ | to_
      · trivial
      rcases id with _ | id
      · trivial
      simp only [admits, Bool.and_eq_true] at hop
      obtain ⟨⟨⟨hfrom, hcontact⟩, hto⟩, halone⟩ := hop
      refine ⟨hfrom, hcontact, hto, fun f hw => ?_⟩
      obtain ⟨hf, -, -, hne⟩ := hw
      obtain ⟨x, hx, hsame⟩ := (h.watched hf hcontact hto).mp hne
      have hfx := of_decide_eq_true (List.all_eq_true.mp halone x hx) hsame.2.1 hsame.2.2
      exact sameUrl_trans (h.named x hx).1 hfx hsame.1

/-- **So are those of a sequence.** -/
lemma allAdmit_sound (h : w.Listed l) {ops : List NotifyOp} (hops : l.allAdmit ops) :
    w.AllAdmit ops := by
  induction ops generalizing w l with
  | nil => trivial
  | cons op ops ih =>
      rw [allAdmit, Bool.and_eq_true] at hops
      have hop := admits_sound h hops.1
      exact ⟨hop, ih (h.step hop) hops.2⟩

end WatchTable

end SipEcho
