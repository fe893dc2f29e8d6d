import SipEcho.Notify.Refinement

/-!
The end of the store, `notify_free`: the subscribers go with their contacts, and then the presences.

* `cleanSubscribe_eq`: without the subscribers nobody has signed; `cleanPresence_eq`: then the
  presences go;
* `notify_free_empties`: **nothing of a store is left in memory**, and nothing is freed twice.
-/

namespace SipEcho

open Lib

variable {pick : Pick} {n : Notify}

section Code

variable (pick : Pick)

/-- `map_clean(&notify->subscribe)`, from the first subscriber on. -/
def cleanSubscribe : List ℕ → Notify → Except Fault Notify
  | [], n => return n
  | s :: rest, n => do cleanSubscribe rest (← subscribeFree pick { n with subscribe := rest } s)

/-- `map_clean(&notify->presence)`. -/
def cleanPresence : List ℕ → Notify → Except Fault Notify
  | [], n => return n
  | p :: rest, n => do cleanPresence rest (← presenceFree pick { n with presence := rest } p)

/-- `notify_free`. -/
def notifyFree (n : Notify) : Except Fault Notify := do
  let n ← cleanSubscribe pick n.subscribe n
  cleanPresence pick n.presence n

end Code

variable (pick) in
/-- A subscriber is freed with its contacts and their signatures. -/
lemma subscribeFree_eq {s : ℕ} {x : Subscribe} (h : Sound n) (hx : n.subscribes s = some x) :
    subscribeFree pick { n with subscribe := n.subscribe.erase s } s =
      .ok (n.dropSubscribe s x) := by
  let n₁ : Notify := { n with subscribe := n.subscribe.erase s }
  have hfree : x.contact.foldlM (contactFree pick) n₁ = .ok (n₁.forget x.contact) := by
    refine freeAll_eq (n := n₁) (h.toSigned.of_eq rfl rfl) (h.contact_nodup hx) fun c hc => ?_
    obtain ⟨k, hk, -⟩ := h.contact_live hx hc
    exact ⟨k, hk⟩
  show subscribeFree pick n₁ s = _
  rw [subscribeFree, fetch_eq (show n₁.subscribes s = some x from hx)]
  show (x.contact.foldlM (contactFree pick) n₁ >>= _) = _
  rw [hfree]
  rfl

variable (pick) in
/-- **The subscribers go.** -/
lemma cleanSubscribe_eq {ss : List ℕ} (h : Sound n) (hknown : Known n) (hss : n.subscribe = ss) :
    ∃ n', cleanSubscribe pick ss n = .ok n' ∧ Sound n' ∧ Known n' ∧ n'.subscribe = [] := by
  induction ss generalizing n with
  | nil => exact ⟨n, rfl, h, hknown, hss⟩
  | cons s rest ih =>
      obtain ⟨x, hx⟩ := h.subscribe_live (hss ▸ List.mem_cons_self : s ∈ n.subscribe)
      have herase : n.subscribe.erase s = rest := by rw [hss, List.erase_cons_head]
      have hfree : subscribeFree pick { n with subscribe := rest } s =
          .ok (n.dropSubscribe s x) := by
        rw [← herase]
        exact subscribeFree_eq pick h hx
      obtain ⟨n', hclean, hn'⟩ :=
        ih (h.dropSubscribe hx) (known_dropSubscribe h hknown hx) herase
      refine ⟨n', ?_, hn'⟩
      rw [cleanSubscribe, hfree]
      exact hclean

variable (pick) in
/-- **The presences go**, when nobody has signed them. -/
lemma cleanPresence_eq {ps : List ℕ} (hnodup : ps.Nodup)
    (hlive : ∀ p ∈ ps, ∃ y, n.presences p = some y ∧ y.signature = [])
    (hall : ∀ p y, n.presences p = some y → p ∈ ps) :
    ∃ n', cleanPresence pick ps n = .ok n' ∧ n'.subscribes = n.subscribes ∧
      n'.contacts = n.contacts ∧ n'.presences = fun _ => none := by
  induction ps generalizing n with
  | nil =>
      refine ⟨n, rfl, rfl, rfl, funext fun p => ?_⟩
      cases hy : n.presences p with
      | none => rfl
      | some y => exact absurd (hall p y hy) (by simp)
  | cons p ps ih =>
      obtain ⟨hp, hnodup⟩ := List.nodup_cons.mp hnodup
      obtain ⟨y, hy, hunsigned⟩ := hlive p List.mem_cons_self
      let n₁ : Notify :=
        { n with presence := ps, presences := Function.update n.presences p none }
      have hfree : presenceFree pick { n with presence := ps } p = .ok n₁ := by
        rw [presenceFree, fetch_eq (show _ = some y from hy)]
        simp only [bind, Except.bind, hunsigned]
        rfl
      have hother {q : ℕ} (hq : q ≠ p) : n₁.presences q = n.presences q :=
        Function.update_of_ne hq ..
      obtain ⟨n', hclean, hs, hc, hgone⟩ := ih (n := n₁) hnodup
        (fun q hq => by
          rw [hother (by rintro rfl; exact hp hq)]
          exact hlive q (List.mem_cons_of_mem _ hq))
        (fun q z hz => by
          have hqp : q ≠ p := by
            rintro rfl
            rw [show n₁.presences q = none from Function.update_self ..] at hz
            cases hz
          rw [hother hqp] at hz
          exact (List.mem_cons.mp (hall q z hz)).resolve_left hqp)
      refine ⟨n', ?_, hs, hc, hgone⟩
      rw [cleanPresence, hfree]
      exact hclean

variable (pick) in
/-- **Nothing is left** of a sound store. -/
lemma notifyFree_eq (h : Sound n) (hknown : Known n) :
    ∃ n', notifyFree pick n = .ok n' ∧ (∀ s, n'.subscribes s = none) ∧
      (∀ c, n'.contacts c = none) ∧ ∀ p, n'.presences p = none := by
  obtain ⟨n₁, hclean, h₁, hknown₁, hempty⟩ := cleanSubscribe_eq pick h hknown rfl
  -- without subscribers there are no contacts, and without contacts no signatures
  have hsubscribes (s : ℕ) : n₁.subscribes s = none := by
    cases hx : n₁.subscribes s with
    | none => rfl
    | some x =>
        have hs := hknown₁.subscribe_stored hx
        rw [hempty] at hs
        cases hs
  have hcontacts (c : ℕ) : n₁.contacts c = none := by
    cases hk : n₁.contacts c with
    | none => rfl
    | some k =>
        have hs := (h₁.owner hk).1
        rw [hempty] at hs
        cases hs
  have hunsigned {p : ℕ} {y : Presence} (hy : n₁.presences p = some y) : y.signature = [] := by
    refine List.eq_nil_iff_forall_not_mem.mpr fun g hg => ?_
    obtain ⟨k, hk, -⟩ := h₁.signed hy (List.mem_map_of_mem hg)
    rw [hcontacts] at hk
    cases hk
  have hnodup : n₁.presence.Nodup := h₁.presence_apart.imp fun hab heq => hab (by
    rw [heq]
    exact sameUrl_refl _)
  obtain ⟨n', hclean', hs, hc, hp⟩ := cleanPresence_eq pick hnodup
    (fun p hp => by
      obtain ⟨y, hy⟩ := h₁.presence_live hp
      exact ⟨y, hy, hunsigned hy⟩)
    fun p y hy => h₁.presence_stored hy
  refine ⟨n', ?_, fun s => by rw [hs, hsubscribes], fun c => by rw [hc, hcontacts],
    fun p => by rw [hp]⟩
  rw [notifyFree, hclean]
  exact hclean'

end SipEcho
