import SipEcho.Notify.Update

/-!
Sequences of `notify_update` and `notify_delete`.

* `CrossReferenced n`: contacts, signatures and presences refer to each other as they should;
* `NotifyOp.Admits`: the calls that keep it: the signature found at a target is the contact's own
  (`Unshared`), the target has a URL or a presence to be taken for it (`Targeted`), and what is
  deleted as a whole leaves every presence a signature (`Spares`);
* `NotifyOp.step_spec`: one such call; `notify_run`: **any sequence of them**.

A signature is searched for by the address of its contact alone, and a contact that is freed does
not look at the presences it leaves: `shared_contact_breaks`.
-/

namespace SipEcho

open Lib

variable {n : Notify}

/-- Contacts, signatures and presences refer to each other. -/
structure CrossReferenced (n : Notify) : Prop where
  /-- What a contact refers to is in the store, and has a signature by this contact. -/
  referred : ∀ c k p, n.contacts c = some k → p ∈ k.presence →
    p ∈ n.presence ∧ ∃ y, n.presences p = some y ∧ ∃ g ∈ y.signature, g.contact = c
  /-- A signature is by a contact in memory that refers to its presence. -/
  signed : ∀ p y g, n.presences p = some y → g ∈ y.signature →
    ∃ k, n.contacts g.contact = some k ∧ p ∈ k.presence
  /-- A presence of the store has a signature. -/
  signing : ∀ p, p ∈ n.presence → ∃ y, n.presences p = some y ∧ y.signature ≠ []

lemma Sound.crossReferenced (h : Sound n) (hsigning : Signing n) : CrossReferenced n where
  referred c k p hk hp := by
    obtain ⟨y, hy, hc⟩ := h.referred hk hp
    obtain ⟨g, hg, hgc⟩ := List.mem_map.mp hc
    exact ⟨h.presence_stored hy, y, hy, g, hg, hgc⟩
  signed p y g hy hg := h.signed hy (List.mem_map_of_mem hg)
  signing p hp := by
    obtain ⟨y, hy⟩ := h.presence_live hp
    exact ⟨y, hy, hsigning p y hy⟩

/-- The store that `notify_new` makes. -/
lemma Sound.empty : Sound {} where
  referred hk := by cases hk
  signed hy := by cases hy
  apart hy := by cases hy
  nodup hk := by cases hk
  subscribe_nodup := List.nodup_nil
  subscribe_live hs := by cases hs
  contact_nodup hx := by cases hx
  contact_live hx := by cases hx
  owner hk := by cases hk
  presence_live hp := by cases hp
  presence_stored hy := by cases hy
  presence_apart := List.Pairwise.nil
  named hy := by cases hy
  free _ := ⟨rfl, rfl, rfl⟩

namespace NotifyOp

/-- The call keeps the references. -/
def Admits (n : Notify) : NotifyOp → Prop
  | delete pick (some from_) none _ =>
      ∀ s x, findSubscribe pick n from_ = .ok (some s) → n.subscribes s = some x →
        Spares n x.contact
  | delete pick (some from_) (some contact) none =>
      ∀ c, contactAt pick n from_ contact = .ok (some c) → Spares n [c]
  | update pick (some from_) (some contact) (some to_) (some _) =>
      Targeted n to_ ∧ Unshared pick n from_ contact to_
  | _ => True

section Deletion

variable {pick : Pick} {from_ contact : SipAddress} {s : ℕ}

/-- The search for a subscriber ends well. -/
lemma subscribe_searched (h : Sound n) (pick : Pick) (from_ : SipAddress) :
    ∃ r, findSubscribe pick n from_ = .ok r :=
  ⟨_, findSubscribe_eq h.toOwned⟩

/-- `notify_delete` of a subscriber. -/
lemma deleteSubscribe_spec (to_ : Option SipAddress) (h : Sound n) (hsigning : Signing n)
    (hspares : ∀ s x, findSubscribe pick n from_ = .ok (some s) → n.subscribes s = some x →
      Spares n x.contact) :
    ∃ n', notifyDelete pick n (some from_) none to_ = .ok (0, n') ∧ Sound n' ∧ Signing n' := by
  obtain ⟨r, hr⟩ := subscribe_searched h pick from_
  rw [notifyDelete]
  cases r with
  | none =>
      rw [deleteSubscribe_none hr]
      exact ⟨n, rfl, h, hsigning⟩
  | some s =>
      obtain ⟨x, hx⟩ := h.found_subscribe hr
      rw [deleteSubscribe_eq h hr hx]
      exact ⟨n.dropSubscribe s x, rfl, h.dropSubscribe hx, signing_forget.mpr (hspares s x hr hx)⟩

/-- The end of `notify_delete` of a contact. -/
lemma deleteContact_spec (contact : SipAddress) (h : Sound n) (hsigning : Signing n)
    (hs : findSubscribe pick n from_ = .ok (some s))
    (hspares : ∀ c, findContact pick n s contact = .ok (some c) → Spares n [c]) :
    ∃ n', deleteContact pick n from_ s contact = .ok n' ∧ Sound n' ∧ Signing n' := by
  obtain ⟨x, hx⟩ := h.found_subscribe hs
  cases hc : picked pick sameUrl n.contactUrl contact x.contact with
  | none =>
      have hfind : findContact pick n s contact = .ok none := by
        rw [findContact_eq h.toOwned hx, hc]
      exact ⟨n, deleteContact_none hx hfind, h, hsigning⟩
  | some c =>
      have hfind : findContact pick n s contact = .ok (some c) := by
        rw [findContact_eq h.toOwned hx, hc]
      obtain ⟨n', hdelete, hsound, hpresences⟩ := deleteContact_eq h hs hx hfind
      refine ⟨n', hdelete, hsound, fun p y hy => ?_⟩
      rw [hpresences] at hy
      exact signing_forget.mpr (hspares c hfind) p y hy

/-- Both searches find the same in a store with the same subscribers and addresses. -/
lemma findSubscribe_congr {n' : Notify} (hs : n'.subscribe = n.subscribe)
    (hx : n'.subscribes = n.subscribes) :
    findSubscribe pick n' from_ = findSubscribe pick n from_ := by
  have hkey : n'.subscribeKey = n.subscribeKey := by
    funext t
    rw [Notify.subscribeKey, hx]
    rfl
  rw [findSubscribe, hs, hkey]
  rfl

/-- `notify_delete` of one presence of a contact, after which the contact may go. -/
lemma deletePart_spec (contact to_ : SipAddress) (h : Sound n) (hsigning : Signing n)
    (hs : findSubscribe pick n from_ = .ok (some s)) :
    ∃ go n₁ n', deletePresence pick n s contact to_ = .ok (go, n₁) ∧
      (if go then deleteContact pick n₁ from_ s contact else .ok n₁) = .ok n' ∧
      Sound n' ∧ Signing n' := by
  obtain ⟨x, hx⟩ := h.found_subscribe hs
  obtain ⟨go, n₁, hpart, h₁, hsigning₁, hsubscribe, hsubscribes, hurl, hgone⟩ :=
    deletePresence_spec pick contact to_ h hsigning hx
  cases go with
  | false => exact ⟨false, n₁, n₁, hpart, rfl, h₁, hsigning₁⟩
  | true =>
      obtain ⟨c, hc, hunsigned⟩ := hgone rfl
      have hx₁ : n₁.subscribes s = some x := by rw [hsubscribes, hx]
      have hc₁ : findContact pick n₁ s contact = .ok (some c) := by
        rw [← hc, findContact_eq h₁.toOwned hx₁, findContact_eq h.toOwned hx]
        exact congrArg Except.ok (picked_congr fun d _ => hurl d)
      obtain ⟨n', hdelete, hres⟩ := deleteContact_spec contact h₁ hsigning₁
        ((findSubscribe_congr hsubscribe hsubscribes).trans hs) fun d hd p y hy => by
          rw [hc₁] at hd
          cases hd
          obtain ⟨g, hg⟩ := List.exists_mem_of_ne_nil _ (hsigning₁ p y hy)
          refine ⟨g, hg, fun hmem => hunsigned p y hy ?_⟩
          rw [← List.mem_singleton.mp hmem]
          exact List.mem_map_of_mem hg
      exact ⟨true, n₁, n', hpart, hdelete, hres⟩

/-- **`notify_delete`.** -/
lemma notifyDelete_spec {from_ contact to_ : Option SipAddress} (h : Sound n)
    (hsigning : Signing n) (hop : (delete pick from_ contact to_).Admits n) :
    ∃ r n', notifyDelete pick n from_ contact to_ = .ok (r, n') ∧ Sound n' ∧ Signing n' := by
  rcases from_ with _ | from_
  · exact ⟨-1, n, rfl, h, hsigning⟩
  rcases contact with _ | contact
  · obtain ⟨n', hn', hres⟩ := deleteSubscribe_spec to_ h hsigning hop
    exact ⟨0, n', hn', hres⟩
  obtain ⟨r, hr⟩ := subscribe_searched h pick from_
  rcases r with _ | s
  · refine ⟨0, n, ?_, h, hsigning⟩
    rw [notifyDelete, hr]
    rfl
  have hat : contactAt pick n from_ contact = findContact pick n s contact := by
    rw [contactAt, hr]
    rfl
  rcases to_ with _ | to_
  · obtain ⟨n', hn', hres⟩ :=
      deleteContact_spec contact h hsigning hr fun c hc => hop c (hat.trans hc)
    refine ⟨0, n', ?_, hres⟩
    rw [notifyDelete, hr]
    simp only [bind, Except.bind, hn']
    rfl
  · obtain ⟨go, n₁, n', hpart, hn', hres⟩ :=
      deletePart_spec contact to_ h hsigning hr
    refine ⟨0, n', ?_, hres⟩
    rw [notifyDelete, hr]
    simp only [bind, Except.bind, hpart]
    cases go with
    | false =>
        cases hn'
        rfl
    | true =>
        rw [if_pos rfl] at hn' ⊢
        rw [hn']
        rfl

end Deletion

/-- **One call.** -/
lemma step_spec (op : NotifyOp) (h : Sound n) (hsigning : Signing n) (hop : op.Admits n) :
    ∃ n', op.step n = .ok n' ∧ Sound n' ∧ Signing n' := by
  cases op with
  | delete pick from_ contact to_ =>
      obtain ⟨r, n', hn', hres⟩ := notifyDelete_spec h hsigning hop
      exact ⟨n', by rw [step, hn']; rfl, hres⟩
  | update pick from_ contact to_ id =>
      rcases from_ with _ | from_
      · exact ⟨n, rfl, h, hsigning⟩
      rcases contact with _ | contact
      · exact ⟨n, rfl, h, hsigning⟩
      rcases to_ with _ | to_
      · exact ⟨n, rfl, h, hsigning⟩
      rcases id with _ | id
      · exact ⟨n, rfl, h, hsigning⟩
      obtain ⟨n', hn', hres⟩ := notifyUpdate_spec id h hsigning hop.1 hop.2
      exact ⟨n', by rw [step, hn']; rfl, hres⟩

/-- Every call of the sequence keeps the references, in the store it is made on. -/
def AllAdmit : Notify → List NotifyOp → Prop
  | _, [] => True
  | n, op :: ops => op.Admits n ∧ ∀ n', op.step n = .ok n' → AllAdmit n' ops

/-- **A sequence of calls.** -/
lemma run_spec (ops : List NotifyOp) (h : Sound n) (hsigning : Signing n)
    (hops : AllAdmit n ops) : ∃ n', run n ops = .ok n' ∧ Sound n' ∧ Signing n' := by
  induction ops generalizing n with
  | nil => exact ⟨n, rfl, h, hsigning⟩
  | cons op ops ih =>
      obtain ⟨n₁, hstep, h₁, hsigning₁⟩ := step_spec op h hsigning hops.1
      obtain ⟨n', hrun, hres⟩ := ih h₁ hsigning₁ (hops.2 n₁ hstep)
      refine ⟨n', ?_, hres⟩
      rw [run, List.foldlM_cons, hstep]
      exact hrun

/-- A shorter sequence. -/
lemma AllAdmit.take {ops : List NotifyOp} (hops : AllAdmit n ops) (m : ℕ) :
    AllAdmit n (ops.take m) := by
  induction ops generalizing n m with
  | nil => rwa [List.take_nil]
  | cons op ops ih =>
      cases m with
      | zero => trivial
      | succ m => exact ⟨hops.1, fun n' hn' => ih (hops.2 n' hn') m⟩

/-! ### Sequences that are checked -/

/-- Every presence of the store passes the test. -/
def presencesAll (n : Notify) (test : Presence → Bool) : Bool :=
  n.presence.all fun p => (n.presences p).all test

lemma presencesAll_sound {test : Presence → Bool} (h : Sound n) (htest : presencesAll n test)
    {p : ℕ} {y : Presence} (hy : n.presences p = some y) : test y = true := by
  have hp := List.all_eq_true.mp htest p (h.presence_stored hy)
  rwa [hy, Option.all_some] at hp

/-- The presences keep a signature when these contacts go. -/
def sparesAll (n : Notify) (cs : List ℕ) : Bool :=
  presencesAll n fun y => y.signature.any fun g => decide (g.contact ∉ cs)

lemma sparesAll_sound {cs : List ℕ} (h : Sound n) (hcs : sparesAll n cs) : Spares n cs := by
  intro p y hy
  obtain ⟨g, hg, hgcs⟩ := List.any_eq_true.mp (presencesAll_sound h hcs hy)
  exact ⟨g, hg, of_decide_eq_true hgcs⟩

/-- `Unshared`, for what the search for the contact has come to. -/
def unsharedAll (n : Notify) (contact to_ : SipAddress) (r : Option ℕ) : Bool :=
  presencesAll n fun y => decide (sameUrl to_ y.url →
    ∀ g ∈ y.signature, sameUrl (r.elim contact n.contactUrl) (n.contactUrl g.contact) →
      r = some g.contact)

/-- `Admits`, computed. -/
def admits (n : Notify) : NotifyOp → Bool
  | delete pick (some from_) none _ =>
      (findSubscribe pick n from_).toOption.join.all fun s =>
        (n.subscribes s).all fun x => sparesAll n x.contact
  | delete pick (some from_) (some contact) none =>
      (contactAt pick n from_ contact).toOption.join.all fun c => sparesAll n [c]
  | update pick (some from_) (some contact) (some to_) (some _) =>
      decide (Targeted n to_) &&
        (contactAt pick n from_ contact).toOption.all (unsharedAll n contact to_)
  | _ => true

lemma admits_sound {op : NotifyOp} (h : Sound n) (hop : op.admits n) : op.Admits n := by
  cases op with
  | delete pick from_ contact to_ =>
      rcases from_ with _ | from_
      · trivial
      rcases contact with _ | contact
      · intro s x hs hx
        rw [admits, hs] at hop
        simp only [Except.toOption, Option.join_some, Option.all_some, hx] at hop
        exact sparesAll_sound h hop
      rcases to_ with _ | to_
      · intro c hc
        rw [admits, hc] at hop
        simp only [Except.toOption, Option.join_some, Option.all_some] at hop
        exact sparesAll_sound h hop
      · trivial
  | update pick from_ contact to_ id =>
      rcases from_ with _ | from_
      · trivial
      rcases contact with _ | contact
      · trivial
      rcases to_ with _ | to_
      · trivial
      rcases id with _ | id
      · trivial
      rw [admits, Bool.and_eq_true] at hop
      refine ⟨of_decide_eq_true hop.1, fun r hr p y hy => ?_⟩
      have hall := hop.2
      rw [hr] at hall
      exact of_decide_eq_true (presencesAll_sound h hall hy)

/-- `AllAdmit`, computed. -/
def allAdmit (n : Notify) : List NotifyOp → Bool
  | [] => true
  | op :: ops => op.admits n && (op.step n).toOption.all fun n' => allAdmit n' ops

lemma allAdmit_sound {ops : List NotifyOp} (h : Sound n) (hsigning : Signing n)
    (hops : allAdmit n ops) : AllAdmit n ops := by
  induction ops generalizing n with
  | nil => trivial
  | cons op ops ih =>
      rw [allAdmit, Bool.and_eq_true] at hops
      have hop := admits_sound h hops.1
      obtain ⟨n₁, hstep, h₁, hsigning₁⟩ := step_spec op h hsigning hop
      refine ⟨hop, fun n' hn' => ?_⟩
      obtain rfl := Except.ok.inj (hstep.symm.trans hn')
      have hrest := hops.2
      rw [hstep] at hrest
      exact ih h₁ hsigning₁ hrest

end NotifyOp

/-- The address of a user. -/
def addressOf (name : UInt8) : Option SipAddress :=
  let url : SipUri :=
    { scheme := some [115, 105, 112], username := some [name], host := some [104] }
  some { url := some url }

/-- A subscriber watches a presence, with one of its contacts. -/
def watches (from_ contact to_ : UInt8) : NotifyOp :=
  .update firstPick (addressOf from_) (addressOf contact) (addressOf to_) (some {})

/-- And does so no more. -/
def leaves (from_ contact to_ : UInt8) : NotifyOp :=
  .delete firstPick (addressOf from_) (addressOf contact) (addressOf to_)

/-- Two subscribers, one of them with two contacts, watch two presences; one contact leaves, one
watches a presence without URL, and then a subscriber goes as a whole. -/
def comesAndGoes : List NotifyOp :=
  [watches 97 120 116, watches 97 121 117, watches 98 122 116, watches 98 122 117,
    leaves 97 120 116, .update firstPick (addressOf 98) (addressOf 119) (some {}) (some {}),
    watches 97 121 117, .delete firstPick (addressOf 97) none none]

end SipEcho
