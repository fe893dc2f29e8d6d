import SipEcho.Notify.Watch

/-!
`notify_delete` in terms of who watches whom.

* `watches_dropSubscribe`, `watches_dropContact`, `watches_unlink`: what is left when a subscriber,
  a contact, or a contact's signature at one presence goes;
* `Refines.deleteSubscribe`, `Refines.deleteContact`, `Refines.deletePart`: the three deletions;
* `Refines.delete`: **`notify_delete` deletes what it covers**, and nothing else.
-/

namespace SipEcho

open Lib

variable {n n' : Notify} {w : Watch} {pick : Pick} {s d p : ℕ} {x : Subscribe} {k : NotifyContact}
  {y : Presence} {f c t from_ contact to_ : SipAddress} {id : SipCallId}

/-! ### What is left -/

/-- Of the signatures, when contacts are gone. -/
lemma signs_forget {cs : List ℕ} :
    Signs (n.forget cs) d t id ↔ d ∉ cs ∧ Signs n d t id := by
  constructor
  · rintro ⟨p, y', hy', ht, g, hg, rfl, rfl⟩
    obtain ⟨y, hy, rfl⟩ := forget_presence.mp hy'
    obtain ⟨hg, hcs⟩ := List.mem_filter.mp hg
    exact ⟨of_decide_eq_true hcs, p, y, hy, ht, g, hg, rfl, rfl⟩
  · rintro ⟨hcs, p, y, hy, ht, g, hg, rfl, rfl⟩
    exact ⟨p, _, forget_presence.mpr ⟨y, hy, rfl⟩, ht, g,
      List.mem_filter.mpr ⟨hg, decide_eq_true hcs⟩, rfl, rfl⟩

lemma subscribeUrl_eq (h : n.subscribes s = some x) : n.subscribeUrl s = x.url := by
  rw [Notify.subscribeUrl, h]
  rfl

lemma subscribeUrl_congr (h : n'.subscribes s = n.subscribes s) :
    n'.subscribeUrl s = n.subscribeUrl s := by
  rw [Notify.subscribeUrl, Notify.subscribeUrl, h]

/-- A contact is among those of a subscriber when it is its own. -/
lemma mem_contact_iff (h : Sound n) (hx : n.subscribes s = some x) (hk : n.contacts d = some k) :
    d ∈ x.contact ↔ k.parent = s := by
  constructor
  · intro hd
    obtain ⟨k', hk', hs⟩ := h.contact_live hx hd
    rw [hk] at hk'
    cases hk'
    exact hs
  · rintro rfl
    obtain ⟨-, x', hx', hd⟩ := h.owner hk
    rw [hx] at hx'
    cases hx'
    exact hd

section Subscriber

variable (h : Sound n) (hknown : Known n) (hs : s ∈ n.subscribe) (hx : n.subscribes s = some x)
include h hknown hs hx

/-- Without a subscriber. -/
lemma watches_dropSubscribe (hfrom : from_.Named) (hf : f.Named) (hsame : sameUrl from_ x.url) :
    Watches (n.dropSubscribe s x) f c t id ↔ ¬ sameUrl from_ f ∧ Watches n f c t id := by
  have hurl (r : ℕ) (hr : r ≠ s) : (n.dropSubscribe s x).subscribeUrl r = n.subscribeUrl r :=
    subscribeUrl_congr (Function.update_of_ne hr ..)
  have hmem {d : ℕ} {k : NotifyContact} (hk : n.contacts d = some k)
      (hfk : sameUrl f (n.subscribeUrl k.parent)) : d ∈ x.contact ↔ sameUrl from_ f := by
    rw [mem_contact_iff h hx hk]
    exact ContactOf.parent_iff h hknown hfrom hf hs (by rwa [subscribeUrl_eq hx]) hk hfk
  have hsigns (d : ℕ) : Signs (n.dropSubscribe s x) d t id ↔ d ∉ x.contact ∧ Signs n d t id :=
    signs_forget
  constructor
  · rintro ⟨d, ⟨k, hk, hfk, hck⟩, hsign⟩
    obtain ⟨hd, hk⟩ := forget_contact.mp hk
    have hparent : k.parent ≠ s := fun heq => hd ((mem_contact_iff h hx hk).mpr heq)
    rw [hurl _ hparent] at hfk
    exact ⟨fun hff => hd ((hmem hk hfk).mpr hff), d, ⟨k, hk, hfk, hck⟩, ((hsigns d).mp hsign).2⟩
  · rintro ⟨hff, d, ⟨k, hk, hfk, hck⟩, hsign⟩
    have hd : d ∉ x.contact := fun hd => hff ((hmem hk hfk).mp hd)
    have hparent : k.parent ≠ s := fun heq => hd ((mem_contact_iff h hx hk).mpr heq)
    refine ⟨d, ⟨k, forget_contact.mpr ⟨hd, hk⟩, ?_, hck⟩, (hsigns d).mpr ⟨hd, hsign⟩⟩
    rw [hurl _ hparent]
    exact hfk

omit hs in
lemma known_dropSubscribe : Known (n.dropSubscribe s x) := by
  have hsound := h.dropSubscribe hx
  refine hknown.mono (List.erase_sublist : (n.dropSubscribe s x).subscribe.Sublist _)
    (fun {r x'} hx' => ?_) (fun r hr => ?_) (fun {d k'} hk' => ?_) (fun {p y'} hy' => ?_)
  · have hne : r ≠ s := by
      rintro rfl
      rw [show (n.dropSubscribe r x).subscribes r = none from Function.update_self ..] at hx'
      cases hx'
    rw [show (n.dropSubscribe s x).subscribes r = _ from Function.update_of_ne hne ..] at hx'
    exact (h.subscribe_nodup.mem_erase_iff).mpr ⟨hne, hknown.subscribe_stored hx'⟩
  · have hne := ((h.subscribe_nodup.mem_erase_iff).mp hr).1
    exact subscribeUrl_congr (Function.update_of_ne hne ..)
  · exact ⟨(hsound.owner hk').1, k', (forget_contact.mp hk').2, rfl, rfl⟩
  · obtain ⟨y, hy, rfl⟩ := forget_presence.mp hy'
    exact ⟨y, hy, fun g hg => (List.mem_filter.mp hg).1⟩

/-- The store without one contact of a subscriber. -/
def Notify.dropContact (n : Notify) (s : ℕ) (x : Subscribe) (d : ℕ) : Notify :=
  (n.setSubscribe s { x with contact := x.contact.erase d }).forget [d]

omit h hknown hs in
lemma dropContact_subscribeUrl (d r : ℕ) : (n.dropContact s x d).subscribeUrl r = n.subscribeUrl r
    := by
  by_cases hr : r = s
  · subst hr
    rw [subscribeUrl_eq hx, subscribeUrl_eq (show (n.dropContact r x d).subscribes r = some _ from
      Notify.setSubscribe_self n)]
  · exact subscribeUrl_congr (Notify.setSubscribe_ne hr)

omit hs in
/-- Without a contact. -/
lemma watches_dropContact (hf : f.Named) (hc : c.Named) (hfrom : from_.Named)
    (hcontact : contact.Named) (hreach : ContactOf n d from_ contact) :
    Watches (n.dropContact s x d) f c t id ↔
      ¬ (sameUrl from_ f ∧ sameUrl contact c) ∧ Watches n f c t id := by
  have hkey {e : ℕ} (he : ContactOf n e f c) : e = d ↔ sameUrl from_ f ∧ sameUrl contact c := by
    obtain ⟨k, hk, hfk, hck⟩ := hreach
    obtain ⟨l, hl, hfl, hcl⟩ := he
    have hknamed := hknown.subscribe_named (h.owner hk).1
    constructor
    · rintro rfl
      rw [hk] at hl
      cases hl
      exact ⟨sameUrl_trans hknamed hfk (sameUrl_symm _ _ hfl),
        sameUrl_trans (hknown.contact_named hk) hck (sameUrl_symm _ _ hcl)⟩
    · rintro ⟨hff, hcc⟩
      exact ContactOf.unique h hknown hf hc ⟨l, hl, hfl, hcl⟩
        ⟨k, hk, sameUrl_trans hfrom (sameUrl_symm _ _ hff) hfk,
          sameUrl_trans hcontact (sameUrl_symm _ _ hcc) hck⟩
  have hreaches (e : ℕ) : ContactOf (n.dropContact s x d) e f c ↔ e ≠ d ∧ ContactOf n e f c := by
    constructor
    · rintro ⟨k, hk, hfk, hck⟩
      obtain ⟨hd, hk⟩ := forget_contact.mp hk
      rw [dropContact_subscribeUrl hx] at hfk
      exact ⟨by simpa using hd, k, hk, hfk, hck⟩
    · rintro ⟨hd, k, hk, hfk, hck⟩
      refine ⟨k, forget_contact.mpr ⟨by simpa using hd, hk⟩, ?_, hck⟩
      rw [dropContact_subscribeUrl hx]
      exact hfk
  have hsigns (e : ℕ) : Signs (n.dropContact s x d) e t id ↔ e ∉ [d] ∧ Signs n e t id :=
    signs_forget
  constructor
  · rintro ⟨e, he, hsign⟩
    obtain ⟨hne, he⟩ := (hreaches e).mp he
    exact ⟨fun hboth => hne ((hkey he).mpr hboth), e, he, ((hsigns e).mp hsign).2⟩
  · rintro ⟨hboth, e, he, hsign⟩
    have hne : e ≠ d := fun heq => hboth ((hkey he).mp heq)
    exact ⟨e, (hreaches e).mpr ⟨hne, he⟩, (hsigns e).mpr ⟨by simpa using hne, hsign⟩⟩

omit hs in
lemma known_dropContact (hd : d ∈ x.contact) : Known (n.dropContact s x d) := by
  have hsound : Sound (n.dropContact s x d) := h.dropContact hx hd
  refine hknown.mono (List.Sublist.refl (n.dropContact s x d).subscribe) (fun {r x'} hx' => ?_)
    (fun r _ => dropContact_subscribeUrl hx d r) (fun {e k'} hk' => ?_) (fun {p y'} hy' => ?_)
  · rcases Notify.setSubscribe_cases hx' with ⟨rfl, -⟩ | ⟨-, hx'⟩
    · exact hknown.subscribe_stored hx
    · exact hknown.subscribe_stored hx'
  · exact ⟨(hsound.owner hk').1, k', (forget_contact.mp hk').2, rfl, rfl⟩
  · obtain ⟨y, hy, rfl⟩ := forget_presence.mp hy'
    exact ⟨y, hy, fun g hg => (List.mem_filter.mp hg).1⟩

end Subscriber

section Unlink

variable (h : Sound n) (hk : n.contacts d = some k) (hy : n.presences p = some y)
include h hk hy

omit h hy in
/-- What is read of a contact after it has been parted from a presence. -/
lemma unlink_contact {e : ℕ} {k' : NotifyContact}
    (hk' : (n.unlink d k p y).contacts e = some k') :
    ∃ l, n.contacts e = some l ∧ k'.url = l.url ∧ k'.parent = l.parent := by
  have hcontacts : (n.unlink d k p y).contacts =
      (n.setContact d { k with presence := k.presence.erase p }).contacts := by
    rw [Notify.unlink]
    split <;> rfl
  rw [hcontacts] at hk'
  rcases Notify.setContact_cases hk' with ⟨rfl, rfl⟩ | ⟨-, hk'⟩
  · exact ⟨k, hk, rfl, rfl⟩
  · exact ⟨k', hk', rfl, rfl⟩

omit h hk hy in
lemma unlink_subscribe (r : ℕ) :
    (n.unlink d k p y).subscribe = n.subscribe ∧
      (n.unlink d k p y).subscribes = n.subscribes ∧
      (n.unlink d k p y).subscribeUrl r = n.subscribeUrl r := by
  rw [Notify.unlink]
  split <;> exact ⟨rfl, rfl, rfl⟩

omit h hy in
lemma reaches_unlink (e : ℕ) : ContactOf (n.unlink d k p y) e f c ↔ ContactOf n e f c := by
  have hcontacts : (n.unlink d k p y).contacts =
      (n.setContact d { k with presence := k.presence.erase p }).contacts := by
    rw [Notify.unlink]
    split <;> rfl
  constructor
  · rintro ⟨k', hk', hfk, hck⟩
    rw [(unlink_subscribe _).2.2] at hfk
    rw [hcontacts] at hk'
    rcases Notify.setContact_cases hk' with ⟨rfl, rfl⟩ | ⟨-, hk'⟩
    · exact ⟨k, hk, hfk, hck⟩
    · exact ⟨k', hk', hfk, hck⟩
  · rintro ⟨l, hl, hfl, hcl⟩
    by_cases he : e = d
    · subst he
      rw [hk] at hl
      cases hl
      have hself : (n.unlink e k p y).contacts e =
          some { k with presence := k.presence.erase p } := by
        rw [hcontacts, Notify.setContact_self]
      refine ⟨_, hself, ?_, hcl⟩
      rw [(unlink_subscribe _).2.2]
      exact hfl
    · refine ⟨l, ?_, ?_, hcl⟩
      · rw [hcontacts]
        exact (Notify.setContact_ne he).trans hl
      · rw [(unlink_subscribe _).2.2]
        exact hfl

omit hk in
/-- The contact has one signature less. -/
lemma signs_unlink (ht : t.Named) (e : ℕ) :
    Signs (n.unlink d k p y) e t id ↔ ¬ (e = d ∧ sameUrl t y.url) ∧ Signs n e t id := by
  have hyNamed : y.url.Named := h.named hy
  constructor
  · rintro ⟨q, y', hy', hty, g, hg, rfl, rfl⟩
    obtain ⟨hy', -⟩ := unlink_presence hy'
    rcases Notify.setPresence_cases hy' with ⟨rfl, rfl⟩ | ⟨hqp, hy'⟩
    · obtain ⟨hg, hne⟩ := List.mem_filter.mp hg
      have hne : g.contact ≠ d := by simpa using hne
      exact ⟨fun hboth => hne hboth.1, q, y, hy, hty, g, hg, rfl, rfl⟩
    · exact ⟨fun hboth => hqp (presence_unique h ht hy' hy hty hboth.2), q, y', hy', hty, g, hg,
        rfl, rfl⟩
  · rintro ⟨hboth, q, z, hz, htz, g, hg, rfl, rfl⟩
    by_cases hqp : q = p
    · subst hqp
      rw [hy] at hz
      cases hz
      have hne : g.contact ≠ d := fun heq => hboth ⟨heq, htz⟩
      have hg' : g ∈ (y.without [d]).signature :=
        List.mem_filter.mpr ⟨hg, by simpa using hne⟩
      refine ⟨q, y.without [d], ?_, htz, g, hg', rfl, rfl⟩
      rw [Notify.unlink, if_neg (List.ne_nil_of_mem hg')]
      exact part_self
    · refine ⟨q, z, ?_, htz, g, hg, rfl, rfl⟩
      have hpart : (n.part d k p y).presences q = some z :=
        (Notify.setPresence_ne hqp).trans hz
      rw [Notify.unlink]
      split
      · exact dropPresence_presence.mpr ⟨hqp, hpart⟩
      · exact hpart

lemma known_unlink (hknown : Known n) : Known (n.unlink d k p y) := by
  have hsound := h.unlink hk hy
  have hsubscribe : (n.unlink d k p y).subscribe.Sublist n.subscribe := by
    rw [(unlink_subscribe 0).1]
  refine hknown.mono hsubscribe (fun {r x'} hx' => ?_) (fun r _ => (unlink_subscribe r).2.2)
    (fun {e k'} hk' => ⟨(hsound.owner hk').1, unlink_contact hk hk'⟩)
    (fun {q y'} hy' => ?_)
  · rw [(unlink_subscribe 0).2.1] at hx'
    rw [(unlink_subscribe 0).1]
    exact hknown.subscribe_stored hx'
  · obtain ⟨hy', -⟩ := unlink_presence hy'
    rcases Notify.setPresence_cases hy' with ⟨rfl, rfl⟩ | ⟨-, hy'⟩
    · exact ⟨y, hy, fun g hg => (List.mem_filter.mp hg).1⟩
    · exact ⟨y', hy', fun g hg => hg⟩

end Unlink

/-! ### Where every target keeps somebody to watch it -/

/-- Who goes is not the last to watch a target, in the store as in the table. -/
lemma Refines.spares {cs : List ℕ} {P : SipAddress → SipAddress → Prop} (h : Refines n w)
    (hcs : ∀ e f c, f.Named → c.Named → ContactOf n e f c → (e ∈ cs ↔ P f c))
    (hother : ∀ f c t, w.Watched f c t → P f c →
      ∃ f' c', w.Watched f' c' t ∧ ¬ P f' c') : Spares n cs := by
  intro p y hy
  obtain ⟨g, hg⟩ := List.exists_mem_of_ne_nil _ (h.signing p y hy)
  by_cases hmem : g.contact ∈ cs
  · obtain ⟨k, hk, -⟩ := h.sound.signed hy (List.mem_map_of_mem hg)
    have hf : (n.subscribeUrl k.parent).Named := h.known.subscribe_named (h.sound.owner hk).1
    have hc : k.url.Named := h.known.contact_named hk
    have ht : y.url.Named := h.sound.named hy
    have hreach : ContactOf n g.contact (n.subscribeUrl k.parent) k.url :=
      ⟨k, hk, sameUrl_refl _, sameUrl_refl _⟩
    have hwatch := (h.watch hf hc ht g.id).mpr
      ⟨_, hreach, p, y, hy, sameUrl_refl _, g, hg, rfl, rfl⟩
    obtain ⟨f', c', ⟨hf', hc', -, hw'⟩, hP⟩ := hother _ _ _
      ⟨hf, hc, ht, by rw [hwatch]; simp⟩ ((hcs _ _ _ hf hc hreach).mp hmem)
    obtain ⟨id', hid'⟩ := Option.ne_none_iff_exists'.mp hw'
    obtain ⟨e, hreach', q, z, hz, htz, g', hg', rfl, -⟩ := (h.watch hf' hc' ht id').mp hid'
    obtain rfl : p = q := presence_unique h.sound ht hy hz (sameUrl_refl _) htz
    rw [hy] at hz
    cases hz
    exact ⟨g', hg', fun hmem' => hP ((hcs _ _ _ hf' hc' hreach').mp hmem')⟩
  · exact ⟨g, hg, hmem⟩

/-! ### The three deletions -/

/-- What is found is what is looked for. -/
lemma found_subscribe_same (h : Sound n) (hs : findSubscribe pick n from_ = .ok (some s)) :
    s ∈ n.subscribe ∧ sameUrl from_ (n.subscribeUrl s) := by
  rw [findSubscribe_eq h.toOwned] at hs
  exact picked_some (Except.ok.inj hs)

lemma found_contact_same (h : Sound n) (hx : n.subscribes s = some x)
    (hc : findContact pick n s contact = .ok (some d)) :
    d ∈ x.contact ∧ sameUrl contact (n.contactUrl d) := by
  rw [findContact_eq h.toOwned hx] at hc
  exact picked_some (Except.ok.inj hc)

/-- A contact that is found is the one with these addresses. -/
lemma found_contact_reaches (h : Sound n) (hs : findSubscribe pick n from_ = .ok (some s))
    (hx : n.subscribes s = some x) (hc : findContact pick n s contact = .ok (some d)) :
    ContactOf n d from_ contact := by
  obtain ⟨hd, hsame⟩ := found_contact_same h hx hc
  obtain ⟨k, hk, hparent⟩ := h.contact_live hx hd
  refine ⟨k, hk, ?_, ?_⟩
  · rw [hparent]
    exact (found_subscribe_same h hs).2
  · rwa [contactUrl_eq hk] at hsame

/-- Nobody is reached under an address that is not found. -/
lemma not_reaches_subscribe (h : Sound n) (hs : findSubscribe pick n from_ = .ok none)
    (hf : f.Named) (hff : sameUrl from_ f) : ¬ ContactOf n d f c := by
  rintro ⟨k, hk, hfk, -⟩
  rw [findSubscribe_eq h.toOwned] at hs
  exact picked_none (Except.ok.inj hs) k.parent (h.owner hk).1 (sameUrl_trans hf hff hfk)

/-- Nor under that of a contact that is not. -/
lemma not_reaches_contact (h : Sound n) (hknown : Known n) (hfrom : from_.Named)
    (hs : findSubscribe pick n from_ = .ok (some s)) (hx : n.subscribes s = some x)
    (hc : findContact pick n s contact = .ok none) (hf : f.Named) (hff : sameUrl from_ f)
    {c' : SipAddress} (hc' : c'.Named) (hcc : sameUrl contact c') : ¬ ContactOf n d f c' := by
  rintro ⟨k, hk, hfk, hck⟩
  obtain ⟨hmem, hsame⟩ := found_subscribe_same h hs
  have hparent := (ContactOf.parent_iff h hknown hfrom hf hmem hsame hk hfk).mpr hff
  rw [findContact_eq h.toOwned hx] at hc
  refine picked_none (Except.ok.inj hc) d ((mem_contact_iff h hx hk).mpr hparent) ?_
  rw [contactUrl_eq hk]
  exact sameUrl_trans hc' hcc hck

/-- The store after a contact has been deleted. -/
lemma deleteContact_store (h : Sound n) (hs : findSubscribe pick n from_ = .ok (some s))
    (hx : n.subscribes s = some x) (hc : findContact pick n s contact = .ok (some d)) :
    deleteContact pick n from_ s contact =
      .ok (if x.contact.erase d = [] then
          (n.dropContact s x d).dropSubscribe s { x with contact := x.contact.erase d }
        else n.dropContact s x d) := by
  obtain ⟨hmem, k, hk⟩ := h.found_contact hx hc
  have hsound : Sound (n.dropContact s x d) := h.dropContact hx hmem
  have hlinked : Signed (n.setSubscribe s { x with contact := x.contact.erase d }) :=
    h.toSigned.of_eq rfl rfl
  have hfree : contactFree pick (n.setSubscribe s { x with contact := x.contact.erase d }) d =
      .ok (n.dropContact s x d) := contactFree_eq hlinked hk
  have hget : getBy pick sameUrl n.contactKey contact x.contact =
      .ok (some (d, x.contact.erase d)) := by
    rw [findContact, fetch_eq hx] at hc
    rw [getBy, show findBy pick sameUrl n.contactKey contact x.contact = _ from hc]
    rfl
  have hself : (n.dropContact s x d).subscribes s =
      some { x with contact := x.contact.erase d } := Notify.setSubscribe_self n
  have hs' : findSubscribe pick (n.dropContact s x d) from_ = .ok (some s) := by
    rw [findSubscribe_eq hsound.toOwned, ← hs, findSubscribe_eq h.toOwned]
    exact congrArg Except.ok (picked_congr fun r _ => dropContact_subscribeUrl hx d r)
  rw [deleteContact, fetch_eq hx]
  simp only [bind, Except.bind]
  rw [hget]
  simp only
  rw [hfree]
  simp only
  rw [deleteSubscribe_eq hsound hs' hself]
  split <;> rfl

/-- **A contact is deleted**, and nothing else but a subscriber without contacts. -/
lemma deleteContact_watches (h : Sound n) (hknown : Known n) (hfrom : from_.Named)
    (hcontact : contact.Named) (hs : findSubscribe pick n from_ = .ok (some s))
    (hx : n.subscribes s = some x) (hc : findContact pick n s contact = .ok (some d)) :
    ∃ n', deleteContact pick n from_ s contact = .ok n' ∧ Sound n' ∧ Known n' ∧
      n'.presences = (n.forget [d]).presences ∧
      ∀ {f c t}, f.Named → c.Named → ∀ id, Watches n' f c t id ↔
        ¬ (sameUrl from_ f ∧ sameUrl contact c) ∧ Watches n f c t id := by
  obtain ⟨hd, -⟩ := h.found_contact hx hc
  have hreach := found_contact_reaches h hs hx hc
  have hsound : Sound (n.dropContact s x d) := h.dropContact hx hd
  have hknown' : Known (n.dropContact s x d) := known_dropContact h hknown hx hd
  refine ⟨_, deleteContact_store h hs hx hc, ?_⟩
  by_cases hlast : x.contact.erase d = []
  · have hself : (n.dropContact s x d).subscribes s =
        some { x with contact := x.contact.erase d } := Notify.setSubscribe_self n
    obtain ⟨hmem, hsame⟩ := found_subscribe_same h hs
    have hmem' : s ∈ (n.dropContact s x d).subscribe := hmem
    have hsame' : sameUrl from_ ((n.dropContact s x d).subscribeUrl s) := by
      rwa [dropContact_subscribeUrl hx]
    rw [if_pos hlast]
    refine ⟨hsound.dropSubscribe hself, known_dropSubscribe hsound hknown' hself, ?_,
      fun {f c t} hf hc id => ?_⟩
    · show ((n.dropContact s x d).forget (x.contact.erase d)).presences = _
      rw [hlast, Notify.forget_nil]
      rfl
    · rw [watches_dropSubscribe hsound hknown' hmem' hself hfrom hf
        (by rwa [subscribeUrl_eq hx] at hsame),
        watches_dropContact h hknown hx hf hc hfrom hcontact hreach]
      refine and_iff_right_of_imp fun hw hff => ?_
      -- the subscriber has no contact left
      obtain ⟨e, ⟨l, hl, hfl, -⟩, -⟩ :=
        (watches_dropContact h hknown hx hf hc hfrom hcontact hreach).mpr hw
      have hparent := (ContactOf.parent_iff hsound hknown' hfrom hf hmem' hsame' hl hfl).mpr hff
      have := (mem_contact_iff hsound hself hl).mpr hparent
      rw [show Subscribe.contact { x with contact := x.contact.erase d } = [] from hlast] at this
      cases this
  · rw [if_neg hlast]
    exact ⟨hsound, hknown', rfl,
      fun hf hc id => watches_dropContact h hknown hx hf hc hfrom hcontact hreach⟩

/-! ### `notify_delete` -/

/-- A table from which is deleted what a store has lost. -/
lemma Refines.of_watches (h : Refines n w) (hsound : Sound n') (hsigning : Signing n')
    (hknown : Known n') {contact to_ : Option SipAddress}
    (hw : ∀ {f c t}, f.Named → c.Named → t.Named → ∀ id, Watches n' f c t id ↔
      ¬ Covers from_ contact to_ f c t ∧ Watches n f c t id) :
    Refines n' (w.delete from_ contact to_) where
  sound := hsound
  signing := hsigning
  known := hknown
  watch hf hc ht id := by
    rw [hw hf hc ht, Watch.delete]
    split_ifs with hcover
    · simp [hcover]
    · rw [h.watch hf hc ht]
      simp [hcover]

/-- Nothing is covered that is there. -/
lemma Refines.of_absent (h : Refines n w) {contact to_ : Option SipAddress}
    (hw : ∀ {f c t}, f.Named → c.Named → t.Named → Covers from_ contact to_ f c t →
      ∀ id, ¬ Watches n f c t id) : Refines n (w.delete from_ contact to_) :=
  h.of_watches h.sound h.signing h.known fun hf hc ht id =>
    ⟨fun hwatch => ⟨fun hcover => hw hf hc ht hcover id hwatch, hwatch⟩, fun hwatch => hwatch.2⟩

namespace Refines

/-- `notify_delete` of a subscriber. -/
lemma deleteSubscribe (h : Refines n w) (to_ : Option SipAddress) (hfrom : from_.Named)
    (hother : ∀ f c t, w.Watched f c t → sameUrl from_ f →
      ∃ f' c', w.Watched f' c' t ∧ ¬ sameUrl from_ f') :
    ∃ n', notifyDelete pick n (some from_) none to_ = .ok (0, n') ∧
      Refines n' (w.delete from_ none to_) := by
  rw [notifyDelete]
  cases hs : picked pick sameUrl n.subscribeUrl from_ n.subscribe with
  | none =>
      have hfind : findSubscribe pick n from_ = .ok none := by
        rw [findSubscribe_eq h.sound.toOwned, hs]
      rw [deleteSubscribe_none hfind]
      refine ⟨n, rfl, h.of_absent fun hf _ _ hcover id => ?_⟩
      rintro ⟨d, hreach, -⟩
      exact not_reaches_subscribe h.sound hfind hf (covers_subscriber.mp hcover) hreach
  | some s =>
      have hfind : findSubscribe pick n from_ = .ok (some s) := by
        rw [findSubscribe_eq h.sound.toOwned, hs]
      obtain ⟨x, hx⟩ := h.sound.found_subscribe hfind
      obtain ⟨hmem, hsame⟩ := found_subscribe_same h.sound hfind
      rw [deleteSubscribe_eq h.sound hfind hx]
      refine ⟨n.dropSubscribe s x, rfl, h.of_watches (h.sound.dropSubscribe hx)
        (signing_forget.mpr (h.spares (fun e f c hf _ hreach => ?_) hother))
        (known_dropSubscribe h.sound h.known hx) fun hf _ _ id => ?_⟩
      · obtain ⟨k, hk, hfk, -⟩ := hreach
        rw [mem_contact_iff h.sound hx hk]
        exact ContactOf.parent_iff h.sound h.known hfrom hf hmem hsame hk hfk
      · rw [watches_dropSubscribe h.sound h.known hmem hx hfrom hf (by rwa [subscribeUrl_eq hx]
          at hsame), covers_subscriber]

/-- `notify_delete` of a contact. -/
lemma deleteContact (h : Refines n w) (hfrom : from_.Named) (hcontact : contact.Named)
    (hother : ∀ f c t, w.Watched f c t → sameUrl from_ f ∧ sameUrl contact c →
      ∃ f' c', w.Watched f' c' t ∧ ¬ (sameUrl from_ f' ∧ sameUrl contact c')) :
    ∃ n', notifyDelete pick n (some from_) (some contact) none = .ok (0, n') ∧
      Refines n' (w.delete from_ (some contact) none) := by
  rw [notifyDelete]
  obtain ⟨r, hr⟩ := NotifyOp.subscribe_searched h.sound pick from_
  rw [hr]
  cases r with
  | none =>
      refine ⟨n, rfl, h.of_absent fun hf _ _ hcover id => ?_⟩
      rintro ⟨d, hreach, -⟩
      exact not_reaches_subscribe h.sound hr hf (covers_contact.mp hcover).1 hreach
  | some s =>
      obtain ⟨x, hx⟩ := h.sound.found_subscribe hr
      simp only [bind, Except.bind]
      cases hc : picked pick sameUrl n.contactUrl contact x.contact with
      | none =>
          have hfind : findContact pick n s contact = .ok none := by
            rw [findContact_eq h.sound.toOwned hx, hc]
          rw [deleteContact_none hx hfind]
          refine ⟨n, rfl, h.of_absent fun hf hc _ hcover id => ?_⟩
          obtain ⟨hff, hcc⟩ := covers_contact.mp hcover
          rintro ⟨d, hreach, -⟩
          exact not_reaches_contact h.sound h.known hfrom hr hx hfind hf hff hc hcc hreach
      | some d =>
          have hfind : findContact pick n s contact = .ok (some d) := by
            rw [findContact_eq h.sound.toOwned hx, hc]
          obtain ⟨n', hn', hsound, hknown, hpresences, hw⟩ :=
            deleteContact_watches h.sound h.known hfrom hcontact hr hx hfind
          have hspares : Spares n [d] := by
            refine h.spares (P := fun f c => sameUrl from_ f ∧ sameUrl contact c)
              (fun e f c hf hc hreach => ?_) hother
            obtain ⟨k, hk, hfk, hck⟩ := found_contact_reaches h.sound hr hx hfind
            rw [List.mem_singleton]
            constructor
            · rintro rfl
              obtain ⟨l, hl, hfl, hcl⟩ := hreach
              rw [hk] at hl
              cases hl
              exact ⟨sameUrl_trans (h.known.subscribe_named (h.sound.owner hk).1) hfk
                  (sameUrl_symm _ _ hfl),
                sameUrl_trans (h.known.contact_named hk) hck (sameUrl_symm _ _ hcl)⟩
            · rintro ⟨hff, hcc⟩
              exact ContactOf.unique h.sound h.known hf hc hreach
                ⟨k, hk, sameUrl_trans hfrom (sameUrl_symm _ _ hff) hfk,
                  sameUrl_trans hcontact (sameUrl_symm _ _ hcc) hck⟩
          rw [hn']
          refine ⟨n', rfl, h.of_watches hsound (fun p y hy => ?_) hknown fun hf hc _ id => ?_⟩
          · rw [hpresences] at hy
            exact signing_forget.mpr hspares p y hy
          · rw [hw hf hc, covers_contact]

/-- Where the contact watches no such target. -/
lemma not_watches_target (h : Refines n w) (hfrom : from_.Named) (hcontact : contact.Named)
    (hs : findSubscribe pick n from_ = .ok (some s)) (hx : n.subscribes s = some x)
    (hc : findContact pick n s contact = .ok (some d)) (hk : n.contacts d = some k)
    (hp : picked pick sameUrl n.presenceUrl to_ k.presence = none)
    {f c t : SipAddress} (hf : f.Named) (hcn : c.Named) (ht : t.Named)
    (hcover : Covers from_ (some contact) (some to_) f c t) (id : SipCallId) :
    ¬ Watches n f c t id := by
  obtain ⟨hff, hcc, htt⟩ := covers_target.mp hcover
  rintro ⟨e, hreach, q, y, hy, hty, g, hg, rfl, -⟩
  obtain ⟨l, hl, hfl, hcl⟩ := found_contact_reaches h.sound hs hx hc
  obtain rfl : g.contact = d := ContactOf.unique h.sound h.known hf hcn hreach
    ⟨l, hl, sameUrl_trans hfrom (sameUrl_symm _ _ hff) hfl,
      sameUrl_trans hcontact (sameUrl_symm _ _ hcc) hcl⟩
  obtain ⟨k', hk', hq⟩ := h.sound.signed hy (List.mem_map_of_mem hg)
  rw [hk] at hk'
  cases hk'
  refine picked_none hp q hq ?_
  rw [presenceUrl_eq hy]
  exact sameUrl_trans ht htt hty

/-- The contact and the target are parted. -/
lemma watches_parted (h : Refines n w) (hfrom : from_.Named) (hcontact : contact.Named)
    (hto : to_.Named) (hs : findSubscribe pick n from_ = .ok (some s))
    (hx : n.subscribes s = some x) (hc : findContact pick n s contact = .ok (some d))
    (hk : n.contacts d = some k) (hy : n.presences p = some y) (hty : sameUrl to_ y.url)
    {f c t : SipAddress} (hf : f.Named) (hcn : c.Named) (ht : t.Named) (id : SipCallId) :
    Watches (n.unlink d k p y) f c t id ↔
      ¬ Covers from_ (some contact) (some to_) f c t ∧ Watches n f c t id := by
  obtain ⟨l, hl, hfl, hcl⟩ := found_contact_reaches h.sound hs hx hc
  have hyNamed : y.url.Named := h.sound.named hy
  rw [covers_target]
  constructor
  · rintro ⟨e, hreach, hsign⟩
    rw [reaches_unlink hk] at hreach
    obtain ⟨hne, hsign⟩ := (signs_unlink h.sound hy ht e).mp hsign
    refine ⟨fun hcover => hne ⟨?_, ?_⟩, e, hreach, hsign⟩
    · exact ContactOf.unique h.sound h.known hf hcn hreach
        ⟨l, hl, sameUrl_trans hfrom (sameUrl_symm _ _ hcover.1) hfl,
          sameUrl_trans hcontact (sameUrl_symm _ _ hcover.2.1) hcl⟩
    · exact sameUrl_trans hto (sameUrl_symm _ _ hcover.2.2) hty
  · rintro ⟨hcover, e, hreach, hsign⟩
    refine ⟨e, (reaches_unlink hk e).mpr hreach, (signs_unlink h.sound hy ht e).mpr ⟨?_, hsign⟩⟩
    rintro ⟨rfl, hsame⟩
    obtain ⟨l', hl', hfl', hcl'⟩ := hreach
    rw [hl] at hl'
    cases hl'
    exact hcover ⟨sameUrl_trans (h.known.subscribe_named (h.sound.owner hl).1) hfl
        (sameUrl_symm _ _ hfl'),
      sameUrl_trans (h.known.contact_named hl) hcl (sameUrl_symm _ _ hcl'),
      sameUrl_trans hyNamed hty (sameUrl_symm _ _ hsame)⟩

/-- A contact that watches nobody may go. -/
lemma deleteIdle (h : Refines n w) (hfrom : from_.Named) (hcontact : contact.Named)
    (hs : findSubscribe pick n from_ = .ok (some s)) (hx : n.subscribes s = some x)
    (hc : findContact pick n s contact = .ok (some d))
    (hidle : ∀ p y, n.presences p = some y → d ∉ y.signers) :
    ∃ n', SipEcho.deleteContact pick n from_ s contact = .ok n' ∧ Refines n' w := by
  obtain ⟨n', hn', hsound, hknown, hpresences, hw⟩ :=
    deleteContact_watches h.sound h.known hfrom hcontact hs hx hc
  refine ⟨n', hn', ⟨hsound, hknown, fun {f c t} hf hcn ht id => ?_⟩, fun p y hy => ?_⟩
  · rw [hw hf hcn, h.watch hf hcn ht]
    refine (and_iff_right_of_imp ?_).symm
    rintro ⟨e, hreach, q, z, hz, -, g, hg, rfl, -⟩ ⟨hff, hcc⟩
    obtain ⟨l, hl, hfl, hcl⟩ := found_contact_reaches h.sound hs hx hc
    obtain rfl : g.contact = d := ContactOf.unique h.sound h.known hf hcn hreach
      ⟨l, hl, sameUrl_trans hfrom (sameUrl_symm _ _ hff) hfl,
        sameUrl_trans hcontact (sameUrl_symm _ _ hcc) hcl⟩
    exact hidle q z hz (List.mem_map_of_mem hg)
  · rw [hpresences] at hy
    refine signing_forget.mpr (fun q z hz => ?_) p y hy
    obtain ⟨g, hg⟩ := List.exists_mem_of_ne_nil _ (h.signing q z hz)
    refine ⟨g, hg, fun hmem => hidle q z hz ?_⟩
    rw [← List.mem_singleton.mp hmem]
    exact List.mem_map_of_mem hg

/-- `notify_delete` of one target of a contact. -/
lemma deleteTarget (h : Refines n w) (hfrom : from_.Named) (hcontact : contact.Named)
    (hto : to_.Named) :
    ∃ n', notifyDelete pick n (some from_) (some contact) (some to_) = .ok (0, n') ∧
      Refines n' (w.delete from_ (some contact) (some to_)) := by
  rw [notifyDelete]
  obtain ⟨r, hr⟩ := NotifyOp.subscribe_searched h.sound pick from_
  rw [hr]
  cases r with
  | none =>
      refine ⟨n, rfl, h.of_absent fun hf _ _ hcover id => ?_⟩
      rintro ⟨d, hreach, -⟩
      exact not_reaches_subscribe h.sound hr hf (covers_target.mp hcover).1 hreach
  | some s =>
      obtain ⟨x, hx⟩ := h.sound.found_subscribe hr
      simp only [bind, Except.bind]
      cases hc : picked pick sameUrl n.contactUrl contact x.contact with
      | none =>
          have hfind : findContact pick n s contact = .ok none := by
            rw [findContact_eq h.sound.toOwned hx, hc]
          have hpart : deletePresence pick n s contact to_ = .ok (false, n) := by
            rw [deletePresence, hfind]
            rfl
          rw [hpart]
          refine ⟨n, rfl, h.of_absent fun hf hc _ hcover id => ?_⟩
          obtain ⟨hff, hcc, -⟩ := covers_target.mp hcover
          rintro ⟨d, hreach, -⟩
          exact not_reaches_contact h.sound h.known hfrom hr hx hfind hf hff hc hcc hreach
      | some d =>
          have hfind : findContact pick n s contact = .ok (some d) := by
            rw [findContact_eq h.sound.toOwned hx, hc]
          obtain ⟨-, k, hk⟩ := h.sound.found_contact hx hfind
          have hkeys : ∀ p ∈ k.presence, n.presenceKey p = .ok (n.presenceUrl p) := fun p hp => by
            obtain ⟨y, hy, -⟩ := h.sound.referred hk hp
            exact presenceKey_eq hy
          cases hp : picked pick sameUrl n.presenceUrl to_ k.presence with
          | none =>
              have hpart : deletePresence pick n s contact to_ = .ok (false, n) := by
                rw [deletePresence, hfind]
                simp only [bind, Except.bind, fetch_eq hk, getBy_eq hkeys, hp, Option.map_none]
                rfl
              rw [hpart]
              exact ⟨n, rfl, h.of_absent fun hf hcn ht hcover id =>
                h.not_watches_target hfrom hcontact hr hx hfind hk hp hf hcn ht hcover id⟩
          | some p =>
              obtain ⟨y, hy, -⟩ := h.sound.referred hk (picked_some hp).1
              have hty : sameUrl to_ y.url := by
                have := (picked_some hp).2
                rwa [presenceUrl_eq hy] at this
              have hparted : Refines (n.unlink d k p y)
                  (w.delete from_ (some contact) (some to_)) :=
                h.of_watches (h.sound.unlink hk hy) h.signing.unlink
                  (known_unlink h.sound hk hy h.known) fun hf hcn ht id =>
                    h.watches_parted hfrom hcontact hto hr hx hfind hk hy hty hf hcn ht id
              rw [deletePresence_eq h.sound hk hfind hp hy]
              by_cases hlast : k.presence.erase p = []
              · obtain ⟨hsub, hsubs, -⟩ := unlink_subscribe (n := n) (d := d) (k := k) (p := p)
                  (y := y) 0
                have hx' : (n.unlink d k p y).subscribes s = some x := by rw [hsubs, hx]
                have hfind' : findContact pick (n.unlink d k p y) s contact = .ok (some d) := by
                  rw [← hfind, findContact_eq hparted.sound.toOwned hx',
                    findContact_eq h.sound.toOwned hx]
                  refine congrArg Except.ok (picked_congr fun e he => ?_)
                  obtain ⟨l', hl', -⟩ := hparted.sound.contact_live hx' he
                  obtain ⟨l, hl, hurl, -⟩ := unlink_contact hk hl'
                  rw [contactUrl_eq hl, contactUrl_eq hl', hurl]
                obtain ⟨n', hn', hres⟩ := hparted.deleteIdle hfrom hcontact
                  ((NotifyOp.findSubscribe_congr hsub hsubs).trans hr) hx' hfind'
                  fun q z hz => unlink_unsigned h.sound hk hy hlast hz
                refine ⟨n', ?_, hres⟩
                dsimp only
                rw [decide_eq_true hlast, if_pos rfl, hn']
                rfl
              · refine ⟨_, ?_, hparted⟩
                dsimp only
                rw [decide_eq_false hlast, if_neg (by simp)]
                rfl

/-- **`notify_delete` deletes what it covers**, and nothing else. -/
lemma delete {from_ contact to_ : Option SipAddress} (h : Refines n w)
    (hop : w.Admits (.delete pick from_ contact to_)) :
    ∃ n', NotifyOp.step n (.delete pick from_ contact to_) = .ok n' ∧
      Refines n' (w.step (.delete pick from_ contact to_)) := by
  have done {r : ℤ} {n' : Notify} {w' : Watch}
      (hn' : notifyDelete pick n from_ contact to_ = .ok (r, n')) (hw' : Refines n' w') :
      ∃ n', NotifyOp.step n (.delete pick from_ contact to_) = .ok n' ∧ Refines n' w' :=
    ⟨n', by rw [NotifyOp.step, hn']; rfl, hw'⟩
  rcases from_ with _ | from_
  · exact done rfl h
  rcases contact with _ | contact
  · obtain ⟨n', hn', hw'⟩ := h.deleteSubscribe to_ hop.1 hop.2
    exact done hn' hw'
  rcases to_ with _ | to_
  · obtain ⟨n', hn', hw'⟩ := h.deleteContact hop.1 hop.2.1 hop.2.2
    exact done hn' hw'
  · obtain ⟨n', hn', hw'⟩ := h.deleteTarget hop.1 hop.2.1 hop.2.2
    exact done hn' hw'

end Refines

end SipEcho
