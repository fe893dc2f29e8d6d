import SipEcho.Notify.Deletion

/-!
`notify_update` on a sound store.

* `Sound.newSubscribe`, `Sound.newContact`, `Sound.newPresence`: what is put in;
* `Unshared`: no other contact has signed the target under an equal address;
* `sign_spec`: then the contact and the presence refer to each other, and `notifyUpdate_spec`,
  **the store after the call**.
-/

namespace SipEcho

open Lib

variable {n : Notify} {pick : Pick} {s c p : ℕ} {x : Subscribe} {k : NotifyContact} {y : Presence}
  {from_ contact to_ : SipAddress}

/-! ### The parts of `notify_update` -/

/-- The contact that the searches for the subscriber and for the contact come to. -/
def contactAt (pick : Pick) (n : Notify) (from_ contact : SipAddress) :
    Except Fault (Option ℕ) := do
  match ← findSubscribe pick n from_ with
  | none => return none
  | some s => findContact pick n s contact

namespace Sound

/-! What is in memory does not stand where the next item is put. -/

lemma subscribe_ne_next (h : Sound n) (hs : n.subscribes s = some x) : s ≠ n.next := by
  rintro rfl
  rw [(h.free le_rfl).1] at hs
  cases hs

lemma contact_ne_next (h : Sound n) (hc : n.contacts c = some k) : c ≠ n.next := by
  rintro rfl
  rw [(h.free le_rfl).2.1] at hc
  cases hc

lemma presence_ne_next (h : Sound n) (hp : n.presences p = some y) : p ≠ n.next := by
  rintro rfl
  rw [(h.free le_rfl).2.2] at hp
  cases hp

lemma subscribes_next (h : Sound n) {x' : Subscribe} (hs : n.subscribes s = some x) :
    (n.setSubscribe n.next x').subscribes s = some x :=
  (Notify.setSubscribe_ne (h.subscribe_ne_next hs)).trans hs

lemma contacts_next (h : Sound n) {k' : NotifyContact} (hc : n.contacts c = some k) :
    (n.setContact n.next k').contacts c = some k :=
  (Notify.setContact_ne (h.contact_ne_next hc)).trans hc

lemma presences_next (h : Sound n) {y' : Presence} (hp : n.presences p = some y) :
    (n.setPresence n.next y').presences p = some y :=
  (Notify.setPresence_ne (h.presence_ne_next hp)).trans hp

/-- A new subscriber has no contacts yet. -/
lemma newSubscribe_owned (h : Sound n) (url : SipAddress) :
    Owned { n.setSubscribe n.next { url } with
      next := n.next + 1, subscribe := n.next :: n.subscribe } where
  subscribe_nodup := by
    refine List.nodup_cons.mpr ⟨fun hmem => ?_, h.subscribe_nodup⟩
    obtain ⟨x, hx⟩ := h.subscribe_live hmem
    exact h.subscribe_ne_next hx rfl
  subscribe_live := by
    intro t ht
    rcases List.mem_cons.mp ht with rfl | ht
    · exact ⟨_, Notify.setSubscribe_self n⟩
    · obtain ⟨x, hx⟩ := h.subscribe_live ht
      exact ⟨x, h.subscribes_next hx⟩
  contact_nodup := by
    intro t x' hx'
    rcases Notify.setSubscribe_cases hx' with ⟨-, rfl⟩ | ⟨-, hx⟩
    · exact List.nodup_nil
    · exact h.contact_nodup hx
  contact_live := by
    intro t x' c hx' hc
    rcases Notify.setSubscribe_cases hx' with ⟨-, rfl⟩ | ⟨-, hx⟩
    · cases hc
    · exact h.contact_live hx hc
  owner := by
    intro c k hk
    obtain ⟨hmem, x, hx, hc⟩ := h.owner hk
    exact ⟨List.mem_cons_of_mem _ hmem, x, h.subscribes_next hx, hc⟩

/-- With a new subscriber. -/
lemma newSubscribe (h : Sound n) (url : SipAddress) :
    Sound { n.setSubscribe n.next { url } with
      next := n.next + 1, subscribe := n.next :: n.subscribe } := by
  refine ⟨h.toSigned.of_eq rfl rfl, h.newSubscribe_owned url,
    ⟨h.presence_live, h.presence_stored, h.presence_apart, h.named⟩, ?_⟩
  intro i hi
  have hlt : n.next < i := hi
  obtain ⟨h1, h2, h3⟩ := h.free (le_of_lt hlt)
  exact ⟨(Notify.setSubscribe_ne (by omega)).trans h1, h2, h3⟩

/-- A new contact refers to no presence yet. -/
lemma newContact_signed (h : Sound n) (url : SipAddress) (s : ℕ) :
    Signed (n.setContact n.next { url, parent := s }) where
  referred := by
    intro d k p hd hp
    rcases Notify.setContact_cases hd with ⟨-, rfl⟩ | ⟨-, hd⟩
    · cases hp
    · exact h.referred hd hp
  signed := by
    intro p y d hy hd
    obtain ⟨k, hk, hp⟩ := h.signed hy hd
    exact ⟨k, h.contacts_next hk, hp⟩
  apart := by
    intro p y hy
    refine (h.apart hy).congr fun d hd => ?_
    obtain ⟨k, hk, -⟩ := h.signed hy hd
    rw [contactUrl_eq hk]
    exact contactUrl_eq (h.contacts_next hk)
  nodup := by
    intro d k hd
    rcases Notify.setContact_cases hd with ⟨-, rfl⟩ | ⟨-, hd⟩
    · exact List.nodup_nil
    · exact h.nodup hd

/-- A new contact is one of its subscriber's. -/
lemma newContact_owned (h : Sound n) (hs : s ∈ n.subscribe) (hx : n.subscribes s = some x)
    (url : SipAddress) :
    Owned { (n.setContact n.next { url, parent := s }).setSubscribe s
      { x with contact := n.next :: x.contact } with next := n.next + 1 } where
  subscribe_nodup := h.subscribe_nodup
  subscribe_live := by
    intro t ht
    by_cases hts : t = s
    · subst hts
      exact ⟨_, Notify.setSubscribe_self _⟩
    · obtain ⟨x', hx'⟩ := h.subscribe_live ht
      exact ⟨x', (Notify.setSubscribe_ne hts).trans hx'⟩
  contact_nodup := by
    intro t x' hx'
    rcases Notify.setSubscribe_cases hx' with ⟨-, rfl⟩ | ⟨-, hx'⟩
    · refine List.nodup_cons.mpr ⟨fun hmem => ?_, h.contact_nodup hx⟩
      obtain ⟨k, hk, -⟩ := h.contact_live hx hmem
      exact h.contact_ne_next hk rfl
    · exact h.contact_nodup hx'
  contact_live := by
    intro t x' d hx' hd
    rcases Notify.setSubscribe_cases hx' with ⟨rfl, rfl⟩ | ⟨-, hx'⟩
    · rcases List.mem_cons.mp hd with rfl | hd
      · exact ⟨_, Notify.setContact_self n, rfl⟩
      · obtain ⟨k, hk, hparent⟩ := h.contact_live hx hd
        exact ⟨k, h.contacts_next hk, hparent⟩
    · obtain ⟨k, hk, hparent⟩ := h.contact_live hx' hd
      exact ⟨k, h.contacts_next hk, hparent⟩
  owner := by
    intro d k hd
    rcases Notify.setContact_cases hd with ⟨rfl, rfl⟩ | ⟨-, hd⟩
    · exact ⟨hs, _, Notify.setSubscribe_self _, List.mem_cons_self⟩
    · obtain ⟨hmem, x', hx', hin⟩ := h.owner hd
      refine ⟨hmem, ?_⟩
      by_cases hps : k.parent = s
      · rw [hps, hx] at hx'
        cases hx'
        rw [hps]
        exact ⟨_, Notify.setSubscribe_self _, List.mem_cons_of_mem _ hin⟩
      · exact ⟨x', (Notify.setSubscribe_ne hps).trans hx', hin⟩

/-- With a new contact of a subscriber. -/
lemma newContact (h : Sound n) (hs : s ∈ n.subscribe) (hx : n.subscribes s = some x)
    (url : SipAddress) :
    Sound { (n.setContact n.next { url, parent := s }).setSubscribe s
        { x with contact := n.next :: x.contact } with next := n.next + 1 } := by
  refine ⟨(h.newContact_signed url s).of_eq rfl rfl, h.newContact_owned hs hx url,
    ⟨h.presence_live, h.presence_stored, h.presence_apart, h.named⟩, ?_⟩
  intro i hi
  have hlt : n.next < i := hi
  obtain ⟨h1, h2, h3⟩ := h.free (le_of_lt hlt)
  have his : i ≠ s := by
    rintro rfl
    rw [hx] at h1
    cases h1
  exact ⟨(Notify.setSubscribe_ne his).trans h1, (Notify.setContact_ne (by omega)).trans h2, h3⟩

/-- A new presence has no signature yet. -/
lemma newPresence_signed (h : Sound n) (to_ : SipAddress) :
    Signed (n.setPresence n.next { url := to_ }) where
  referred := by
    intro d k q hd hq
    obtain ⟨y, hy, hmem⟩ := h.referred hd hq
    exact ⟨y, h.presences_next hy, hmem⟩
  signed := by
    intro q y d hq hd
    rcases Notify.setPresence_cases hq with ⟨-, rfl⟩ | ⟨-, hq⟩
    · cases hd
    · exact h.signed hq hd
  apart := by
    intro q y hq
    rcases Notify.setPresence_cases hq with ⟨-, rfl⟩ | ⟨-, hq⟩
    · exact List.Pairwise.nil
    · exact h.apart hq
  nodup := h.nodup

/-- No other presence has the address of the new one. -/
lemma newPresence_shelved (h : Sound n) (hurl : to_.url.isSome)
    (hnone : ∀ q ∈ n.presence, ¬ sameUrl to_ (n.presenceUrl q)) :
    Shelved { n.setPresence n.next { url := to_ } with
      next := n.next + 1, presence := n.next :: n.presence } where
  presence_live := by
    intro q hq
    rcases List.mem_cons.mp hq with rfl | hq
    · exact ⟨_, Notify.setPresence_self n⟩
    · obtain ⟨y, hy⟩ := h.presence_live hq
      exact ⟨y, h.presences_next hy⟩
  presence_stored := by
    intro q y hq
    rcases Notify.setPresence_cases hq with ⟨rfl, -⟩ | ⟨-, hq⟩
    · exact List.mem_cons_self
    · exact List.mem_cons_of_mem _ (h.presence_stored hq)
  presence_apart := by
    have hself : (n.setPresence n.next { url := to_ }).presenceUrl n.next = to_ :=
      presenceUrl_eq (Notify.setPresence_self n)
    have hkeep : ∀ q ∈ n.presence,
        (n.setPresence n.next { url := to_ }).presenceUrl q = n.presenceUrl q := fun q hq => by
      obtain ⟨y, hy⟩ := h.presence_live hq
      rw [presenceUrl_eq hy, presenceUrl_eq (h.presences_next hy)]
    refine Apart.cons (h.presence_apart.congr hkeep) fun q hq hsame => hnone q hq ?_
    have hsame : sameUrl ((n.setPresence n.next { url := to_ }).presenceUrl n.next)
      ((n.setPresence n.next { url := to_ }).presenceUrl q) := hsame
    rwa [hself, hkeep q hq] at hsame
  named := by
    intro q y hq
    rcases Notify.setPresence_cases hq with ⟨-, rfl⟩ | ⟨-, hq⟩
    · exact hurl
    · exact h.named hq

/-- With a new presence. -/
lemma newPresence (h : Sound n) (hurl : to_.url.isSome)
    (hnone : ∀ q ∈ n.presence, ¬ sameUrl to_ (n.presenceUrl q)) :
    Sound { n.setPresence n.next { url := to_ } with
      next := n.next + 1, presence := n.next :: n.presence } := by
  refine ⟨(h.newPresence_signed to_).of_eq rfl rfl,
    ⟨h.subscribe_nodup, h.subscribe_live, h.contact_nodup, h.contact_live, h.owner⟩,
    h.newPresence_shelved hurl hnone, ?_⟩
  intro i hi
  have hlt : n.next < i := hi
  obtain ⟨h1, h2, h3⟩ := h.free (le_of_lt hlt)
  exact ⟨h1, h2, (Notify.setPresence_ne (by omega)).trans h3⟩

end Sound

/-! ### The parts of the call -/

variable (pick from_) in
lemma pushSubscribe_spec (h : Sound n) :
    ∃ s new n', pushSubscribe pick n from_ = .ok (s, new, n') ∧ Sound n' ∧
      n'.contacts = n.contacts ∧ n'.presences = n.presences ∧
      (∃ x, s ∈ n'.subscribe ∧ n'.subscribes s = some x) ∧
      ∀ contact, findContact pick n' s contact = contactAt pick n from_ contact := by
  cases hs : picked pick sameUrl n.subscribeUrl from_ n.subscribe with
  | some s =>
      obtain ⟨hmem, -⟩ := picked_some hs
      obtain ⟨x, hx⟩ := h.subscribe_live hmem
      refine ⟨s, false, n, ?_, h, rfl, rfl, ⟨x, hmem, hx⟩, fun contact => ?_⟩
      · rw [pushSubscribe, findSubscribe_eq h.toOwned, hs]
        rfl
      · rw [contactAt, findSubscribe_eq h.toOwned, hs]
        rfl
  | none =>
      have hself : (n.setSubscribe n.next { url := from_ }).subscribes n.next =
          some { url := from_ } := Notify.setSubscribe_self n
      refine ⟨n.next, true, _, ?_, h.newSubscribe from_, rfl, rfl,
        ⟨_, List.mem_cons_self, hself⟩, fun contact => ?_⟩
      · rw [pushSubscribe, findSubscribe_eq h.toOwned, hs]
        rfl
      · rw [contactAt, findSubscribe_eq h.toOwned, hs,
          findContact_eq (h.newSubscribe from_).toOwned hself, picked_nil]
        rfl

variable (pick contact) in
lemma pushContact_spec (h : Sound n) (hs : s ∈ n.subscribe) (hx : n.subscribes s = some x) :
    ∃ c new n' k r, pushContact pick n s contact = .ok (c, new, n') ∧ Sound n' ∧
      n'.presences = n.presences ∧ n'.contacts c = some k ∧
      findContact pick n s contact = .ok r ∧ k.url = r.elim contact n.contactUrl ∧
      (∀ d, r = some d → c = d) ∧ ∀ d k', n.contacts d = some k' → n'.contacts d = some k' := by
  cases hc : picked pick sameUrl n.contactUrl contact x.contact with
  | some c =>
      have hfound : findContact pick n s contact = .ok (some c) := by
        rw [findContact_eq h.toOwned hx, hc]
      obtain ⟨-, k, hk⟩ := h.found_contact hx hfound
      refine ⟨c, false, n, k, some c, ?_, h, rfl, hk, hfound, (contactUrl_eq hk).symm,
        fun d hd => Option.some.inj hd, fun _ _ hk => hk⟩
      rw [pushContact, hfound]
      rfl
  | none =>
      have hfound : findContact pick n s contact = .ok none := by
        rw [findContact_eq h.toOwned hx, hc]
      refine ⟨n.next, true, _, { url := contact, parent := s }, none, ?_,
        h.newContact hs hx contact, rfl, Notify.setContact_self n, hfound, rfl, by simp,
        fun d k' hk' => ?_⟩
      · rw [pushContact, hfound]
        simp only [bind, Except.bind, fetch_eq hx]
        rfl
      · refine (Notify.setContact_ne ?_).trans hk'
        rintro rfl
        rw [(h.free le_rfl).2.1] at hk'
        cases hk'

/-- The target has a URL, or there is a presence to be taken for it: `url_compare` takes an address
without URL for equal to all. -/
def Targeted (n : Notify) (to_ : SipAddress) : Prop := to_.url.isSome ∨ n.presence ≠ []

instance : Decidable (Targeted n to_) := inferInstanceAs (Decidable (_ ∨ _))

lemma Targeted.of_presences {n' : Notify} (htarget : Targeted n to_) (h : Sound n) (h' : Sound n')
    (hpresences : n'.presences = n.presences) : Targeted n' to_ := by
  refine htarget.imp_right fun hne => ?_
  obtain ⟨p, hp⟩ := List.exists_mem_of_ne_nil _ hne
  obtain ⟨y, hy⟩ := h.presence_live hp
  rw [← hpresences] at hy
  exact List.ne_nil_of_mem (h'.presence_stored hy)

variable (pick) in
lemma pushPresence_spec (h : Sound n) (hsigning : Signing n) (htarget : Targeted n to_) :
    ∃ p new n' y, pushPresence pick n to_ = .ok (p, new, n') ∧ Sound n' ∧
      n'.contacts = n.contacts ∧ n'.presences p = some y ∧
      (∀ q y', q ≠ p → n'.presences q = some y' → y'.signature ≠ []) ∧
      (y.signature = [] ∨ n.presences p = some y ∧ sameUrl to_ y.url) := by
  have hkeys : ∀ q ∈ n.presence, n.presenceKey q = .ok (n.presenceUrl q) := fun q hq => by
    obtain ⟨y, hy⟩ := h.presence_live hq
    exact presenceKey_eq hy
  cases hp : picked pick sameUrl n.presenceUrl to_ n.presence with
  | some p =>
      obtain ⟨hmem, hsame⟩ := picked_some hp
      obtain ⟨y, hy⟩ := h.presence_live hmem
      rw [presenceUrl_eq hy] at hsame
      refine ⟨p, false, n, y, ?_, h, rfl, hy, fun q y' _ => hsigning q y', Or.inr ⟨hy, hsame⟩⟩
      rw [pushPresence, findBy_eq hkeys, hp]
      rfl
  | none =>
      have hurl : to_.url.isSome := by
        by_contra hno
        obtain ⟨q, hq⟩ := List.exists_mem_of_ne_nil _ (htarget.resolve_left hno)
        refine picked_none hp q hq ?_
        rw [sameUrl, urlCompare, Option.not_isSome_iff_eq_none.mp hno]
      refine ⟨n.next, true, _, { url := to_ }, ?_, h.newPresence hurl (picked_none hp), rfl,
        Notify.setPresence_self n, fun q y' hq hy' => ?_, Or.inl rfl⟩
      · rw [pushPresence, findBy_eq hkeys, hp]
        rfl
      · exact hsigning q y' ((Notify.setPresence_ne hq).symm.trans hy')

lemma signers_replace {g g' : Signature} (h : g'.contact = g.contact) :
    (y.signature.replace g g').map Signature.contact = y.signers := by
  rw [Presence.signers]
  induction y.signature with
  | nil => rfl
  | cons a l ih =>
      by_cases ha : g = a
      · subst ha
        simp [h]
      · rw [List.replace_cons, show (g == a) = false from beq_false_of_ne ha]
        simp [ih]

/-- `map_push_back` of a presence that is there. -/
lemma pushBack_old (h : Sound n) (hk : n.contacts c = some k) (hp : p ∈ k.presence) :
    pushBack pick n c p = .ok n := by
  have hkeys : ∀ q ∈ k.presence, n.presenceKey q = .ok (n.presenceUrl q) := fun q hq => by
    obtain ⟨y, hy, -⟩ := h.referred hk hq
    exact presenceKey_eq hy
  obtain ⟨q, hq⟩ := picked_isSome pick hp (sameUrl_refl (n.presenceUrl p))
  rw [pushBack, fetch_eq hk, hkeys p hp]
  simp only [bind, Except.bind, findBy_eq hkeys, hq]
  rfl

/-- `map_push_back` of a presence that is not. -/
lemma pushBack_new (hk : n.contacts c = some k)
    (hlive : ∀ q ∈ k.presence, ∃ y, n.presences q = some y) (hy : n.presences p = some y)
    (hnone : ∀ q ∈ k.presence, ¬ sameUrl (n.presenceUrl p) (n.presenceUrl q)) :
    pushBack pick n c p = .ok (n.setContact c { k with presence := k.presence ++ [p] }) := by
  have hkeys : ∀ q ∈ k.presence, n.presenceKey q = .ok (n.presenceUrl q) := fun q hq => by
    obtain ⟨y, hy⟩ := hlive q hq
    exact presenceKey_eq hy
  have hq : picked pick sameUrl n.presenceUrl (n.presenceUrl p) k.presence = none := by
    cases hq : picked pick sameUrl n.presenceUrl (n.presenceUrl p) k.presence with
    | none => rfl
    | some q => exact absurd (picked_some hq).2 (hnone q (picked_some hq).1)
  rw [pushBack, fetch_eq hk, presenceKey_eq hy]
  simp only [bind, Except.bind, findBy_eq hkeys, hq]
  rfl

/-- `map_push_find` of a signature, where one is found. -/
lemma pushSignature_old {g g' : Signature} (flag : Bool) (hy : n.presences p = some y)
    (hlive : ∀ b ∈ y.signature, n.signatureKey b = .ok (n.contactUrl b.contact))
    (hk : n.contacts g.contact = some k)
    (hfound : picked pick sameUrl (fun b : Signature => n.contactUrl b.contact) k.url y.signature =
      some g') :
    ∃ y', pushSignature pick n p g flag = .ok (n.setPresence p y') ∧ y'.url = y.url ∧
      y'.signers = y.signers := by
  have hstart : pushSignature pick n p g flag = .ok (if flag then
      n.setPresence p { y with
        signature := y.signature.replace g' { g with contact := g'.contact } } else n) := by
    rw [pushSignature, fetch_eq hy, signatureKey_eq hk, contactUrl_eq hk]
    simp only [bind, Except.bind, findBy_eq hlive, hfound]
    rfl
  rw [hstart]
  cases flag with
  | true => exact ⟨_, rfl, rfl, signers_replace rfl⟩
  | false => exact ⟨y, by rw [Notify.setPresence_same hy]; rfl, rfl, rfl⟩

/-- The signatures of a presence can be read. -/
lemma signatureKeys (h : Sound n) (hy : n.presences p = some y) :
    ∀ b ∈ y.signature, n.signatureKey b = .ok (n.contactUrl b.contact) := by
  intro b hb
  obtain ⟨k', hk', -⟩ := h.signed hy (List.mem_map_of_mem hb)
  exact signatureKey_eq hk'

/-- Each presence is signed when one more is, and each other was. -/
lemma signing_setPresence {k' : NotifyContact} {y' : Presence}
    (hother : ∀ q y', q ≠ p → n.presences q = some y' → y'.signature ≠ [])
    (hne : y'.signature ≠ []) : Signing ((n.setContact c k').setPresence p y') := by
  intro q y₁ hq
  rcases Notify.setPresence_cases hq with ⟨rfl, rfl⟩ | ⟨hqp, hq⟩
  · exact hne
  · exact hother q y₁ hqp hq

/-- A presence keeps its address. -/
lemma presenceUrl_setPresence {y' : Presence} (hy : n.presences p = some y)
    (hurl : y'.url = y.url) : (n.setPresence p y').presenceUrl = n.presenceUrl := by
  funext q
  by_cases hqp : q = p
  · subst hqp
    rw [presenceUrl_eq hy, presenceUrl_eq (Notify.setPresence_self n), hurl]
  · show (((n.setPresence p y').presences q).map _).getD _ = _
    rw [Notify.setPresence_ne hqp]
    rfl

/-- The signature that is found is the contact's own. -/
lemma sign_old {g g' : Signature} (flag : Bool) (h : Sound n)
    (hk : n.contacts g.contact = some k) (hy : n.presences p = some y)
    (hother : ∀ q y', q ≠ p → n.presences q = some y' → y'.signature ≠ [])
    (hfound : picked pick sameUrl (fun b : Signature => n.contactUrl b.contact) k.url
      y.signature = some g')
    (hown : g'.contact = g.contact) :
    ∃ n' y', (do pushBack pick (← pushSignature pick n p g flag) g.contact p) = .ok n' ∧ Sound n' ∧
      Signing n' ∧ n'.presences p = some y' := by
  have hc : g.contact ∈ y.signers := by
    rw [← hown]
    exact List.mem_map_of_mem (picked_some hfound).1
  have hp : p ∈ k.presence := by
    obtain ⟨k', hk', hp⟩ := h.signed hy hc
    rw [hk] at hk'
    cases hk'
    exact hp
  obtain ⟨y', hpush, hurl, hsigners⟩ := pushSignature_old flag hy (signatureKeys h hy) hk hfound
  have hsound : Sound ((n.setContact g.contact k).setPresence p y') :=
    h.relink hk hy rfl rfl hurl (fun q _ => Iff.rfl) (fun d _ => by rw [hsigners])
      (by rw [hsigners]; exact iff_of_true hp hc) (h.nodup hk) (hsigners ▸ h.apart hy)
  have hne : y'.signature ≠ [] := fun hnil => by
    rw [← hsigners, Presence.signers, hnil] at hc
    cases hc
  have hend : Signing ((n.setContact g.contact k).setPresence p y') :=
    signing_setPresence hother hne
  rw [Notify.setContact_same hk] at hsound hend
  refine ⟨_, y', ?_, hsound, hend, Notify.setPresence_self n⟩
  rw [hpush]
  exact pushBack_old hsound hk hp

/-- No signature is found, and the contact signs. -/
lemma sign_new {g : Signature} (flag : Bool) (h : Sound n) (hk : n.contacts g.contact = some k)
    (hy : n.presences p = some y)
    (hother : ∀ q y', q ≠ p → n.presences q = some y' → y'.signature ≠ [])
    (hfound : picked pick sameUrl (fun b : Signature => n.contactUrl b.contact) k.url
      y.signature = none) :
    ∃ n' y', (do pushBack pick (← pushSignature pick n p g flag) g.contact p) = .ok n' ∧ Sound n' ∧
      Signing n' ∧ n'.presences p = some y' := by
  have hc : g.contact ∉ y.signers := fun hc => by
    obtain ⟨b, hb, hbc⟩ := List.mem_map.mp hc
    refine picked_none hfound b hb ?_
    rw [hbc, contactUrl_eq hk]
    exact sameUrl_refl _
  have hp : p ∉ k.presence := fun hp => by
    obtain ⟨y', hy', hmem⟩ := h.referred hk hp
    rw [hy] at hy'
    cases hy'
    exact hc hmem
  let y' : Presence := { y with signature := g :: y.signature }
  have hsigners : y'.signers = g.contact :: y.signers := rfl
  have hsound : Sound ((n.setContact g.contact
      { k with presence := k.presence ++ [p] }).setPresence p y') := by
    refine h.relink hk hy rfl rfl rfl (fun q hq => ?_) (fun d hd => ?_) ?_ ?_ ?_
    · simp [hq]
    · rw [hsigners, List.mem_cons]
      simp [hd]
    · rw [hsigners]
      simp
    · exact List.nodup_append.mpr ⟨h.nodup hk, List.nodup_singleton p, fun a ha b hb => by
        rw [List.mem_singleton.mp hb]
        rintro rfl
        exact hp ha⟩
    · rw [hsigners]
      refine Apart.cons (h.apart hy) fun d hd hsame => ?_
      obtain ⟨b, hb, rfl⟩ := List.mem_map.mp hd
      rw [contactUrl_eq hk] at hsame
      exact picked_none hfound b hb hsame
  refine ⟨_, y', ?_, hsound, signing_setPresence hother (List.cons_ne_nil g y.signature),
    Notify.setPresence_self _⟩
  have hpush : pushSignature pick n p g flag = .ok (n.setPresence p y') := by
    rw [pushSignature, fetch_eq hy, signatureKey_eq hk, contactUrl_eq hk]
    simp only [bind, Except.bind, findBy_eq (signatureKeys h hy), hfound]
    rfl
  have hurl : (n.setPresence p y').presenceUrl = n.presenceUrl := presenceUrl_setPresence hy rfl
  rw [hpush]
  refine pushBack_new hk (fun q hq => ?_) (Notify.setPresence_self n) fun q hq hsame => ?_
  · obtain ⟨y₀, hy₀, -⟩ := h.referred hk hq
    exact ⟨y₀, (Notify.setPresence_ne (by rintro rfl; exact hp hq)).trans hy₀⟩
  · obtain ⟨y₀, hy₀, -⟩ := h.referred hk hq
    rw [hurl] at hsame
    have := h.presence_apart.eq_of_same sameUrl_symm (h.presence_stored hy)
      (h.presence_stored hy₀) hsame
    exact hp (this ▸ hq)

variable (pick) in
/-- **The contact and the presence refer to each other**, unless the signature found at the
presence is another contact's. -/
lemma sign_spec {g : Signature} (flag : Bool) (h : Sound n) (hk : n.contacts g.contact = some k)
    (hy : n.presences p = some y)
    (hother : ∀ q y', q ≠ p → n.presences q = some y' → y'.signature ≠ [])
    (hown : ∀ d ∈ y.signers, sameUrl k.url (n.contactUrl d) → d = g.contact) :
    ∃ n' y', (do pushBack pick (← pushSignature pick n p g flag) g.contact p) = .ok n' ∧ Sound n' ∧
      Signing n' ∧ n'.presences p = some y' := by
  cases hfound : picked pick sameUrl (fun b : Signature => n.contactUrl b.contact) k.url
      y.signature with
  | some g' =>
      obtain ⟨hmem, hsame⟩ := picked_some hfound
      exact sign_old flag h hk hy hother hfound
        (hown g'.contact (List.mem_map_of_mem hmem) hsame)
  | none => exact sign_new flag h hk hy hother hfound

/-! ### The call -/

/-- What `notify_update` finds at the target under the address of the contact is a signature of
this very contact. -/
def Unshared (pick : Pick) (n : Notify) (from_ contact to_ : SipAddress) : Prop :=
  ∀ r, contactAt pick n from_ contact = .ok r →
    ∀ p y, n.presences p = some y → sameUrl to_ y.url →
      ∀ g ∈ y.signature, sameUrl (r.elim contact n.contactUrl) (n.contactUrl g.contact) →
        r = some g.contact

/-- **The store after `notify_update`.** -/
lemma notifyUpdate_spec (id : SipCallId) (h : Sound n) (hsigning : Signing n)
    (htarget : Targeted n to_) (hown : Unshared pick n from_ contact to_) :
    ∃ n', notifyUpdate pick n (some from_) (some contact) (some to_) (some id) = .ok (0, n') ∧
      Sound n' ∧ Signing n' := by
  obtain ⟨s, new₁, n₁, hpush₁, h₁, hcontacts₁, hpresences₁, ⟨x, hs, hx⟩, hat⟩ :=
    pushSubscribe_spec pick from_ h
  obtain ⟨c, new₂, n₂, k, r, hpush₂, h₂, hpresences₂, hk, hr, hkurl, hrc, hkeep⟩ :=
    pushContact_spec pick contact h₁ hs hx
  have hsigning₂ : Signing n₂ := fun p y hy => hsigning p y (by
    rwa [hpresences₂, hpresences₁] at hy)
  obtain ⟨p, new₃, n₃, y, hpush₃, h₃, hcontacts₃, hy, hother, hold⟩ :=
    pushPresence_spec pick h₂ hsigning₂
      (htarget.of_presences h h₂ (hpresences₂.trans hpresences₁))
  have hk₃ : n₃.contacts c = some k := by rwa [hcontacts₃]
  have hown₃ : ∀ d ∈ y.signers, sameUrl k.url (n₃.contactUrl d) → d = c := by
    intro d hd hsame
    obtain ⟨g, hg, rfl⟩ := List.mem_map.mp hd
    rcases hold with hnil | ⟨hy₂, hto⟩
    · rw [hnil] at hg
      cases hg
    · have hy₀ : n.presences p = some y := by rwa [hpresences₂, hpresences₁] at hy₂
      obtain ⟨k₀, hk₀, -⟩ := h.signed hy₀ hd
      have hk₀₁ : n₁.contacts g.contact = some k₀ := by rwa [hcontacts₁]
      have hsame₀ : n₃.contactUrl g.contact = n.contactUrl g.contact := by
        rw [contactUrl_eq hk₀, contactUrl_eq (hcontacts₃ ▸ hkeep _ _ hk₀₁)]
      have hurl₁ : n₁.contactUrl = n.contactUrl := by
        funext d
        rw [Notify.contactUrl, hcontacts₁]
        rfl
      rw [hkurl, hurl₁, hsame₀] at hsame
      exact (hrc _ (hown r ((hat contact).symm.trans hr) p y hy₀ hto g hg hsame)).symm
  obtain ⟨n', y', hsign, h', hsigning', hy'⟩ := sign_spec pick
    (g := ⟨from_, id, c⟩) (!new₁ && !new₂ && !new₃) h₃ hk₃ hy hother hown₃
  refine ⟨{ n' with sequence := n'.sequence + 1 }, ?_, ?_, hsigning'⟩
  · obtain ⟨m, hm, hback⟩ : ∃ m, pushSignature pick n₃ p ⟨from_, id, c⟩
        (!new₁ && !new₂ && !new₃) = .ok m ∧ pushBack pick m c p = .ok n' := by
      cases hm : pushSignature pick n₃ p ⟨from_, id, c⟩ (!new₁ && !new₂ && !new₃) with
      | error e =>
          rw [hm] at hsign
          cases hsign
      | ok m =>
          rw [hm] at hsign
          exact ⟨m, rfl, hsign⟩
    obtain ⟨u, hu⟩ := Option.isSome_iff_exists.mp (h'.named hy')
    rw [notifyUpdate, hpush₁]
    simp only [bind, Except.bind, hpush₂, hpush₃, hm, hback, fetch_eq hy', hu]
    rfl
  · exact ⟨h'.toSigned.of_eq rfl rfl,
      ⟨h'.subscribe_nodup, h'.subscribe_live, h'.contact_nodup, h'.contact_live, h'.owner⟩,
      ⟨h'.presence_live, h'.presence_stored, h'.presence_apart, h'.named⟩, h'.free⟩

end SipEcho
