import SipEcho.Notify.Note
import SipEcho.Notify.Table
import SipEcho.Notify.Unwatch

/-!
`notify_update` in terms of who watches whom, and sequences of calls.

* `Tracks.pushSubscribe`, `Tracks.pushContact`, `Tracks.pushPresence`: putting in what is not there
  changes nothing in these terms;
* `Tracks.sign`: a contact that signs a presence watches it, and nobody else does anything;
* `Refines.updateNote`: **`notify_update` makes the subscriber watch the target**, and nothing
  else;
* `notify_refines`: over any sequence of calls the store can take, what it holds is what the calls
  mean.
-/

namespace SipEcho

open Lib

variable {n n' : Notify} {w : Watch} {pick : Pick} {s d p : ℕ} {x : Subscribe} {k : NotifyContact}
  {y y' : Presence} {f c t from_ contact to_ : SipAddress} {id : SipCallId}

namespace Tracks

/-! ### What is put in -/

/-- A subscriber is put in, if it is not there. -/
lemma pushSubscribe (h : Tracks n w) (pick : Pick) (hfrom : from_.Named) :
    ∃ s new n', SipEcho.pushSubscribe pick n from_ = .ok (s, new, n') ∧ Tracks n' w ∧
      n'.presences = n.presences ∧ n'.sequence = n.sequence ∧ s ∈ n'.subscribe ∧
      sameUrl from_ (n'.subscribeUrl s) ∧
      (new = true → ∀ d k, n'.contacts d = some k → k.parent ≠ s) := by
  cases hs : picked pick sameUrl n.subscribeUrl from_ n.subscribe with
  | some s =>
      obtain ⟨hmem, hsame⟩ := picked_some hs
      refine ⟨s, false, n, ?_, h, rfl, rfl, hmem, hsame, by simp⟩
      rw [SipEcho.pushSubscribe, findSubscribe_eq h.sound.toOwned, hs]
      rfl
  | none =>
      let n' : Notify := { n.setSubscribe n.next { url := from_ } with
        next := n.next + 1, subscribe := n.next :: n.subscribe }
      have hself : n'.subscribeUrl n.next = from_ :=
        subscribeUrl_eq (x := { url := from_ }) (Notify.setSubscribe_self n)
      have hold (r : ℕ) (hr : r ∈ n.subscribe) : n'.subscribeUrl r = n.subscribeUrl r := by
        obtain ⟨x, hx⟩ := h.sound.subscribe_live hr
        exact subscribeUrl_congr (Notify.setSubscribe_ne (h.sound.subscribe_ne_next hx))
      have hparent {d : ℕ} {k : NotifyContact} (hk : n.contacts d = some k) :
          n'.subscribeUrl k.parent = n.subscribeUrl k.parent := hold _ (h.sound.owner hk).1
      refine ⟨n.next, true, n', ?_, ⟨h.sound.newSubscribe from_, ?_, fun {f c t} hf hc ht id => ?_⟩,
        rfl, rfl, List.mem_cons_self, ?_, fun _ d k hk => ?_⟩
      · rw [SipEcho.pushSubscribe, findSubscribe_eq h.sound.toOwned, hs]
        rfl
      · constructor
        · intro r x hx
          rcases Notify.setSubscribe_cases hx with ⟨rfl, -⟩ | ⟨-, hx⟩
          · exact List.mem_cons_self
          · exact List.mem_cons_of_mem _ (h.known.subscribe_stored hx)
        · intro r hr
          rcases List.mem_cons.mp hr with rfl | hr
          · rw [hself]
            exact hfrom
          · rw [hold r hr]
            exact h.known.subscribe_named hr
        · refine Apart.cons (h.known.subscribe_apart.congr hold) fun r hr hsame => ?_
          rw [hself, hold r hr] at hsame
          exact picked_none hs r hr hsame
        · exact h.known.contact_named
        · exact h.known.contact_apart
        · intro p y g k hy hg hk
          rw [hparent hk]
          exact h.known.signer hy hg hk
      · rw [h.watch hf hc ht]
        refine exists_congr fun d => and_congr_left fun _ => exists_congr fun k =>
          and_congr_right fun hk => ?_
        rw [hparent hk]
      · rw [hself]
        exact sameUrl_refl _
      · have hmem := (h.sound.owner hk).1
        obtain ⟨x, hx⟩ := h.sound.subscribe_live hmem
        exact h.sound.subscribe_ne_next hx

/-- A contact is put in, if it is not there. -/
lemma pushContact (h : Tracks n w) (pick : Pick) (hcontact : contact.Named)
    (hs : s ∈ n.subscribe) (hsame : sameUrl from_ (n.subscribeUrl s)) :
    ∃ d new n', SipEcho.pushContact pick n s contact = .ok (d, new, n') ∧ Tracks n' w ∧
      n'.presences = n.presences ∧ n'.sequence = n.sequence ∧ ContactOf n' d from_ contact ∧
      (new = true → ∀ p y, n'.presences p = some y → d ∉ y.signers) ∧
      (new = false → ∃ k, n.contacts d = some k ∧ k.parent = s) := by
  obtain ⟨x, hx⟩ := h.sound.subscribe_live hs
  cases hc : picked pick sameUrl n.contactUrl contact x.contact with
  | some d =>
      have hfind : findContact pick n s contact = .ok (some d) := by
        rw [findContact_eq h.sound.toOwned hx, hc]
      obtain ⟨hd, hcd⟩ := found_contact_same h.sound hx hfind
      obtain ⟨k, hk, hparent⟩ := h.sound.contact_live hx hd
      rw [contactUrl_eq hk] at hcd
      refine ⟨d, false, n, ?_, h, rfl, rfl, ⟨k, hk, by rwa [hparent], hcd⟩, by simp,
        fun _ => ⟨k, hk, hparent⟩⟩
      rw [SipEcho.pushContact, hfind]
      rfl
  | none =>
      have hfind : findContact pick n s contact = .ok none := by
        rw [findContact_eq h.sound.toOwned hx, hc]
      let n' : Notify :=
        { (n.setContact n.next { url := contact, parent := s }).setSubscribe s
          { x with contact := n.next :: x.contact } with next := n.next + 1 }
      have hurl (r : ℕ) : n'.subscribeUrl r = n.subscribeUrl r := by
        by_cases hr : r = s
        · subst hr
          rw [subscribeUrl_eq hx, subscribeUrl_eq (show n'.subscribes r = some _ from
            Notify.setSubscribe_self _)]
        · exact subscribeUrl_congr (Notify.setSubscribe_ne hr)
      have hself : n'.contacts n.next = some { url := contact, parent := s } :=
        Notify.setContact_self n
      have hunsigned {p : ℕ} {y : Presence} (hy : n.presences p = some y) :
          n.next ∉ y.signers := fun hd => by
        obtain ⟨k, hk, -⟩ := h.sound.signed hy hd
        exact h.sound.contact_ne_next hk rfl
      -- the new contact has an address that no other of the subscriber has
      have hnew {e : ℕ} {l : NotifyContact} (hl : n.contacts e = some l) (hparent : l.parent = s) :
          ¬ sameUrl contact l.url := by
        have := picked_none hc e ((mem_contact_iff h.sound hx hl).mpr hparent)
        rwa [contactUrl_eq hl] at this
      refine ⟨n.next, true, n', ?_, ⟨h.sound.newContact hs hx contact, ?_,
        fun {f c t} hf hcn ht id => ?_⟩, rfl, rfl, ⟨_, hself, ?_, sameUrl_refl _⟩,
        fun _ p y hy => hunsigned hy, by simp⟩
      · rw [SipEcho.pushContact, hfind]
        simp only [bind, Except.bind, fetch_eq hx]
        rfl
      · constructor
        · intro r x' hx'
          rcases Notify.setSubscribe_cases hx' with ⟨rfl, -⟩ | ⟨-, hx'⟩
          · exact hs
          · exact h.known.subscribe_stored hx'
        · intro r hr
          rw [hurl]
          exact h.known.subscribe_named hr
        · exact h.known.subscribe_apart.congr fun r _ => hurl r
        · intro e l hl
          rcases Notify.setContact_cases hl with ⟨-, rfl⟩ | ⟨-, hl⟩
          · exact hcontact
          · exact h.known.contact_named hl
        · intro e e' l l' hl hl' hparent hll
          rcases Notify.setContact_cases hl with ⟨rfl, rfl⟩ | ⟨-, hl⟩
          · rcases Notify.setContact_cases hl' with ⟨rfl, rfl⟩ | ⟨-, hl'⟩
            · rfl
            · exact absurd hll (hnew hl' hparent.symm)
          · rcases Notify.setContact_cases hl' with ⟨rfl, rfl⟩ | ⟨-, hl'⟩
            · exact absurd (sameUrl_symm _ _ hll) (hnew hl hparent)
            · exact h.known.contact_apart hl hl' hparent hll
        · intro p y g l hy hg hl
          rw [hurl]
          rcases Notify.setContact_cases hl with ⟨heq, rfl⟩ | ⟨-, hl⟩
          · exact absurd (heq ▸ List.mem_map_of_mem hg) (hunsigned hy)
          · exact h.known.signer hy hg hl
      · rw [h.watch hf hcn ht]
        constructor
        · rintro ⟨e, ⟨l, hl, hfl, hcl⟩, hsign⟩
          exact ⟨e, ⟨l, h.sound.contacts_next hl, by rw [hurl]; exact hfl, hcl⟩, hsign⟩
        · rintro ⟨e, ⟨l, hl, hfl, hcl⟩, hsign⟩
          rcases Notify.setContact_cases hl with ⟨rfl, rfl⟩ | ⟨-, hl⟩
          · obtain ⟨p, y, hy, -, g, hg, heq, -⟩ := hsign
            exact absurd (heq ▸ List.mem_map_of_mem hg) (hunsigned hy)
          · rw [hurl] at hfl
            exact ⟨e, ⟨l, hl, hfl, hcl⟩, hsign⟩
      · rw [hurl]
        exact hsame

/-- A presence is put in, if it is not there. -/
lemma pushPresence (h : Tracks n w) (hsigning : Signing n) (pick : Pick) (hto : to_.Named) :
    ∃ p new n' y, SipEcho.pushPresence pick n to_ = .ok (p, new, n') ∧ Tracks n' w ∧
      n'.contacts = n.contacts ∧ n'.subscribes = n.subscribes ∧ n'.sequence = n.sequence ∧
      n'.presences p = some y ∧ sameUrl to_ y.url ∧
      (∀ q y', q ≠ p → n'.presences q = some y' → y'.signature ≠ []) ∧
      (new = true → y.signature = []) ∧ (new = false → n.presences p = some y) := by
  have hkeys : ∀ q ∈ n.presence, n.presenceKey q = .ok (n.presenceUrl q) := fun q hq => by
    obtain ⟨y, hy⟩ := h.sound.presence_live hq
    exact presenceKey_eq hy
  cases hp : picked pick sameUrl n.presenceUrl to_ n.presence with
  | some p =>
      obtain ⟨hmem, hsame⟩ := picked_some hp
      obtain ⟨y, hy⟩ := h.sound.presence_live hmem
      rw [presenceUrl_eq hy] at hsame
      refine ⟨p, false, n, y, ?_, h, rfl, rfl, rfl, hy, hsame, fun q y' _ => hsigning q y', by simp,
        fun _ => hy⟩
      rw [SipEcho.pushPresence, findBy_eq hkeys, hp]
      rfl
  | none =>
      have hold {q : ℕ} {y' : Presence}
          (hq : (n.setPresence n.next { url := to_ }).presences q = some y') :
          y'.signature = [] ∨ n.presences q = some y' := by
        rcases Notify.setPresence_cases hq with ⟨-, rfl⟩ | ⟨-, hq⟩
        · exact .inl rfl
        · exact .inr hq
      refine ⟨n.next, true, _, { url := to_ }, ?_, ⟨h.sound.newPresence hto (picked_none hp), ?_,
        fun {f c t} hf hcn ht id => ?_⟩, rfl, rfl, rfl, Notify.setPresence_self n, sameUrl_refl _,
        fun q y' hq hy' => ?_, fun _ => rfl, by simp⟩
      · rw [SipEcho.pushPresence, findBy_eq hkeys, hp]
        rfl
      · refine ⟨h.known.subscribe_stored, h.known.subscribe_named, h.known.subscribe_apart,
          h.known.contact_named, h.known.contact_apart, fun {q y' g l} hy' hg hl => ?_⟩
        rcases hold hy' with hnil | hy'
        · rw [hnil] at hg
          cases hg
        · exact h.known.signer hy' hg hl
      · rw [h.watch hf hcn ht]
        refine exists_congr fun d => and_congr_right fun _ => ?_
        constructor
        · rintro ⟨q, z, hz, htz, hg⟩
          exact ⟨q, z, h.sound.presences_next hz, htz, hg⟩
        · rintro ⟨q, z, hz, htz, g, hg, hgd⟩
          rcases hold hz with hnil | hz
          · rw [hnil] at hg
            cases hg
          · exact ⟨q, z, hz, htz, g, hg, hgd⟩
      · exact hsigning q y' ((Notify.setPresence_ne hq).symm.trans hy')

/-! ### What is signed -/

/-- A signature takes the place of the contact's old one. -/
lemma mem_replace {l : List Signature} {g g' b : Signature}
    (hnodup : (l.map Signature.contact).Nodup) (hg' : g' ∈ l) (hcontact : g.contact = g'.contact) :
    b ∈ l.replace g' g ↔ b = g ∨ b ∈ l ∧ b.contact ≠ g.contact := by
  induction l with
  | nil => cases hg'
  | cons a l ih =>
      obtain ⟨hfresh, hnodup⟩ := List.nodup_cons.mp hnodup
      by_cases ha : g' = a
      · subst ha
        rw [List.replace_cons_self, List.mem_cons, List.mem_cons, hcontact]
        refine or_congr_right ⟨fun hb => ⟨.inr hb, fun heq => hfresh ?_⟩, ?_⟩
        · rw [← heq]
          exact List.mem_map_of_mem hb
        · rintro ⟨rfl | hb, hne⟩
          · exact absurd rfl hne
          · exact hb
      · have hg' : g' ∈ l := (List.mem_cons.mp hg').resolve_left ha
        have hne : a.contact ≠ g.contact := fun heq => hfresh (by
          rw [heq, hcontact]
          exact List.mem_map_of_mem hg')
        rw [List.replace_cons, show (g' == a) = false from beq_false_of_ne ha]
        simp only [List.mem_cons, ih hnodup hg']
        constructor
        · rintro (rfl | rfl | hb)
          · exact .inr ⟨.inl rfl, hne⟩
          · exact .inl rfl
          · exact .inr ⟨.inr hb.1, hb.2⟩
        · rintro (rfl | ⟨rfl | hb, hbc⟩)
          · exact .inr (.inl rfl)
          · exact .inl rfl
          · exact .inr (.inr ⟨hb, hbc⟩)

/-- **Which signatures the presence has** after `map_push_find`, and which one that returns. -/
lemma pushFindSignature_mem {g b : Signature} {flag : Bool} (h : Sound n)
    (hk : n.contacts g.contact = some k) (hy : n.presences p = some y)
    (hown : ∀ e ∈ y.signers, sameUrl k.url (n.contactUrl e) → e = g.contact)
    (hflag : g.contact ∈ y.signers → flag = true)
    (hrun : pushFindSignature pick n p g flag = .ok (b, n')) :
    b = g ∧ ∃ y', n' = n.setPresence p y' ∧ y'.url = y.url ∧
      ∀ b, b ∈ y'.signature ↔ b = g ∨ b ∈ y.signature ∧ b.contact ≠ g.contact := by
  rw [pushFindSignature, fetch_eq hy, signatureKey_eq hk, contactUrl_eq hk] at hrun
  simp only [bind, Except.bind, findBy_eq (signatureKeys h hy)] at hrun
  cases hfound : picked pick sameUrl (fun b : Signature => n.contactUrl b.contact) k.url
      y.signature with
  | some g' =>
      obtain ⟨hmem, hsame⟩ := picked_some hfound
      have hcontact : g'.contact = g.contact := hown _ (List.mem_map_of_mem hmem) hsame
      have hnodup : y.signers.Nodup := (h.apart hy).imp fun hab heq => hab (by
        rw [heq]
        exact sameUrl_refl _)
      have hg : { g with contact := g'.contact } = g := by rw [hcontact]
      rw [hfound, hflag (hcontact ▸ List.mem_map_of_mem hmem)] at hrun
      dsimp only at hrun
      rw [hg] at hrun
      cases hrun
      exact ⟨rfl, { y with signature := y.signature.replace g' g }, rfl, rfl,
        fun b => mem_replace hnodup hmem hcontact.symm⟩
  | none =>
      rw [hfound] at hrun
      cases hrun
      refine ⟨rfl, { y with signature := g :: y.signature }, rfl, rfl, fun b => ?_⟩
      rw [List.mem_cons]
      refine or_congr_right ⟨fun hb => ⟨hb, fun heq => picked_none hfound b hb ?_⟩, And.left⟩
      rw [heq, contactUrl_eq hk]
      exact sameUrl_refl _

/-- `map_push_back` changes nothing else of the contact. -/
lemma pushBack_contact (hk : n.contacts d = some k)
    (hrun : SipEcho.pushBack pick n d p = .ok n') :
    ∃ k', n' = n.setContact d k' ∧ k'.url = k.url ∧ k'.parent = k.parent := by
  rw [SipEcho.pushBack, fetch_eq hk] at hrun
  simp only [bind, Except.bind] at hrun
  split at hrun
  · cases hrun
  split at hrun
  · cases hrun
  split at hrun
  · exact ⟨k, by rw [Notify.setContact_same hk]; exact (Except.ok.inj hrun).symm, rfl, rfl⟩
  · exact ⟨_, (Except.ok.inj hrun).symm, rfl, rfl⟩

/-- From which addresses the contact is reached. -/
lemma reaches_iff (hknown : Known n) (hsound : Sound n) {f₀ c₀ : SipAddress} (hf₀ : f₀.Named)
    (hc₀ : c₀.Named) (hd : ContactOf n d f₀ c₀) :
    ContactOf n d f c ↔ sameUrl f₀ f ∧ sameUrl c₀ c := by
  obtain ⟨k, hk, hfk, hck⟩ := hd
  constructor
  · rintro ⟨l, hl, hfl, hcl⟩
    rw [hk] at hl
    cases hl
    exact ⟨sameUrl_trans (hknown.subscribe_named (hsound.owner hk).1) hfk (sameUrl_symm _ _ hfl),
      sameUrl_trans (hknown.contact_named hk) hck (sameUrl_symm _ _ hcl)⟩
  · rintro ⟨hff, hcc⟩
    exact ⟨k, hk, sameUrl_trans hf₀ (sameUrl_symm _ _ hff) hfk,
      sameUrl_trans hc₀ (sameUrl_symm _ _ hcc) hck⟩

section Resigned

variable {k' : NotifyContact} {y' : Presence} (hk : n.contacts d = some k)
  (hy : n.presences p = some y) (hurl : k'.url = k.url) (hparent : k'.parent = k.parent)
  (hyurl : y'.url = y.url) (hmem : ∀ b, b ∈ y'.signature ↔
    b = ⟨from_, id, d⟩ ∨ b ∈ y.signature ∧ b.contact ≠ d)

include hy hyurl hmem in
/-- What is signed is the presence of the target, and nothing else. -/
lemma signs_resigned (h : Sound n) (hto : to_.Named) (ht : t.Named)
    (htarget : sameUrl to_ y.url) {e : ℕ} {i : SipCallId} :
    Signs ((n.setContact d k').setPresence p y') e t i ↔
      if e = d ∧ sameUrl to_ t then id = i else Signs n e t i := by
  have hself : ((n.setContact d k').setPresence p y').presences p = some y' :=
    Notify.setPresence_self _
  have hsame : sameUrl t y.url ↔ sameUrl to_ t :=
    ⟨fun hty => sameUrl_trans (h.named hy) htarget (sameUrl_symm _ _ hty),
      fun htt => sameUrl_trans hto (sameUrl_symm _ _ htt) htarget⟩
  split_ifs with hown
  · obtain ⟨rfl, htt⟩ := hown
    constructor
    · rintro ⟨q, z, hz, htz, g, hg, hge, hgi⟩
      rcases Notify.setPresence_cases hz with ⟨-, rfl⟩ | ⟨hqp, hz⟩
      · rcases (hmem g).mp hg with rfl | ⟨-, hne⟩
        · exact hgi
        · exact absurd hge hne
      · exact absurd (presence_unique h ht hy hz (hsame.mpr htt) htz).symm hqp
    · rintro rfl
      exact ⟨p, y', hself, by rw [hyurl]; exact hsame.mpr htt, _, (hmem _).mpr (.inl rfl), rfl, rfl⟩
  · constructor
    · rintro ⟨q, z, hz, htz, g, hg, hge, hgi⟩
      rcases Notify.setPresence_cases hz with ⟨-, rfl⟩ | ⟨-, hz⟩
      · rw [hyurl] at htz
        rcases (hmem g).mp hg with rfl | ⟨hg, -⟩
        · exact absurd ⟨hge.symm, hsame.mp htz⟩ hown
        · exact ⟨p, y, hy, htz, g, hg, hge, hgi⟩
      · exact ⟨q, z, hz, htz, g, hg, hge, hgi⟩
    · rintro ⟨q, z, hz, htz, g, hg, hge, hgi⟩
      by_cases hqp : q = p
      · subst hqp
        obtain rfl : y = z := Option.some.inj (hy.symm.trans hz)
        refine ⟨q, y', hself, by rwa [hyurl], g, (hmem g).mpr (.inr ⟨hg, fun hgd => ?_⟩), hge, hgi⟩
        exact hown ⟨hge.symm.trans hgd, hsame.mp htz⟩
      · exact ⟨q, z, (Notify.setPresence_ne hqp).trans hz, htz, g, hg, hge, hgi⟩

include hk hurl hparent in
/-- What is read of a contact's addresses is what was there. -/
lemma contact_resigned {e : ℕ} {l : NotifyContact}
    (hl : ((n.setContact d k').setPresence p y').contacts e = some l) :
    ∃ l₀, n.contacts e = some l₀ ∧ l.url = l₀.url ∧ l.parent = l₀.parent := by
  rcases Notify.setContact_cases hl with ⟨rfl, rfl⟩ | ⟨-, hl⟩
  · exact ⟨k, hk, hurl, hparent⟩
  · exact ⟨l, hl, rfl, rfl⟩

include hk hurl hparent in
/-- From where contacts are reached does not change. -/
lemma reaches_resigned {e : ℕ} :
    ContactOf ((n.setContact d k').setPresence p y') e f c ↔ ContactOf n e f c := by
  constructor
  · rintro ⟨l, hl, hfl, hcl⟩
    obtain ⟨l₀, hl₀, hlu, hlp⟩ := contact_resigned hk hurl hparent hl
    rw [hlp] at hfl
    rw [hlu] at hcl
    exact ⟨l₀, hl₀, hfl, hcl⟩
  · rintro ⟨l, hl, hfl, hcl⟩
    by_cases hed : e = d
    · subst hed
      obtain rfl : k = l := Option.some.inj (hk.symm.trans hl)
      exact ⟨k', Notify.setContact_self n, by rw [hparent]; exact hfl, by rw [hurl]; exact hcl⟩
    · exact ⟨l, (Notify.setContact_ne hed).trans hl, hfl, hcl⟩

include hk hy hurl hparent hmem in
/-- Subscribers and contacts are known by the same addresses as before. -/
lemma known_resigned (h : Known n) (hfrom : from_.Named)
    (hsigner : sameUrl from_ (n.subscribeUrl k.parent)) :
    Known ((n.setContact d k').setPresence p y') where
  subscribe_stored := h.subscribe_stored
  subscribe_named := h.subscribe_named
  subscribe_apart := h.subscribe_apart
  contact_named hl := by
    obtain ⟨l₀, hl₀, hlu, -⟩ := contact_resigned hk hurl hparent hl
    rw [hlu]
    exact h.contact_named hl₀
  contact_apart hl hl' hsame hll := by
    obtain ⟨l₀, hl₀, hlu, hlp⟩ := contact_resigned hk hurl hparent hl
    obtain ⟨l₁, hl₁, hlu', hlp'⟩ := contact_resigned hk hurl hparent hl'
    exact h.contact_apart hl₀ hl₁ (by rw [← hlp, ← hlp', hsame]) (by rwa [← hlu, ← hlu'])
  signer hz hg hl := by
    obtain ⟨l₀, hl₀, -, hlp⟩ := contact_resigned hk hurl hparent hl
    rw [hlp]
    rcases Notify.setPresence_cases hz with ⟨-, rfl⟩ | ⟨-, hz⟩
    · rcases (hmem _).mp hg with rfl | ⟨hg, -⟩
      · obtain rfl : k = l₀ := Option.some.inj (hk.symm.trans hl₀)
        exact ⟨hsigner, hfrom⟩
      · exact h.signer hy hg hl₀
    · exact h.signer hz hg hl₀

include hk hy hurl hparent hyurl hmem in
/-- **The contact's subscriber watches the target** from it by the dialog of the signature. -/
lemma resigned (h : Tracks n w) (hfrom : from_.Named) (hcontact : contact.Named) (hto : to_.Named)
    (hreach : ContactOf n d from_ contact) (htarget : sameUrl to_ y.url)
    (hsound : Sound ((n.setContact d k').setPresence p y')) :
    Tracks ((n.setContact d k').setPresence p y') (w.update from_ contact to_ id) := by
  have hsigner : sameUrl from_ (n.subscribeUrl k.parent) := by
    obtain ⟨l, hl, hfl, -⟩ := hreach
    rwa [Option.some.inj (hk.symm.trans hl)]
  refine ⟨hsound, known_resigned hk hy hurl hparent hmem h.known hfrom hsigner,
    fun {f c t} hf hc ht i => ?_⟩
  have hiff (e : ℕ) : ContactOf ((n.setContact d k').setPresence p y') e f c ∧
      Signs ((n.setContact d k').setPresence p y') e t i ↔
      ContactOf n e f c ∧ if e = d ∧ sameUrl to_ t then id = i else Signs n e t i := by
    rw [reaches_resigned hk hurl hparent, signs_resigned hy hyurl hmem h.sound hto ht htarget]
  have hown : ContactOf n d f c ↔ sameUrl from_ f ∧ sameUrl contact c :=
    reaches_iff h.known h.sound hfrom hcontact hreach
  rw [Watches, exists_congr hiff, Watch.update]
  split_ifs with hcov
  · obtain ⟨hff, hcc, htt⟩ := hcov
    have hd := hown.mpr ⟨hff, hcc⟩
    rw [Option.some_inj]
    constructor
    · intro hid
      exact ⟨d, hd, by rwa [if_pos ⟨rfl, htt⟩]⟩
    · rintro ⟨e, he, hsign⟩
      obtain rfl : e = d := ContactOf.unique h.sound h.known hf hc he hd
      rwa [if_pos ⟨rfl, htt⟩] at hsign
  · rw [h.watch hf hc ht]
    refine exists_congr fun e => and_congr_right fun he => ?_
    rw [if_neg]
    rintro ⟨rfl, htt⟩
    obtain ⟨hff, hcc⟩ := hown.mp he
    exact hcov ⟨hff, hcc, htt⟩

end Resigned

/-- **A contact signs a presence** that nobody else signs under its address. -/
lemma sign (pick : Pick) {flag : Bool} (h : Tracks n w) (hfrom : from_.Named)
    (hcontact : contact.Named) (hto : to_.Named) (hreach : ContactOf n d from_ contact)
    (hy : n.presences p = some y) (htarget : sameUrl to_ y.url)
    (hother : ∀ q y', q ≠ p → n.presences q = some y' → y'.signature ≠ [])
    (halone : ∀ f, w.Watched f contact to_ → sameUrl from_ f)
    (hflag : d ∈ y.signers → flag = true) :
    ∃ n₁ n' y', pushFindSignature pick n p ⟨from_, id, d⟩ flag = .ok (⟨from_, id, d⟩, n₁) ∧
      SipEcho.pushBack pick n₁ d p = .ok n' ∧ Refines n' (w.update from_ contact to_ id) ∧
      ContactOf n' d from_ contact ∧ n'.presences p = some y' ∧ sameUrl to_ y'.url ∧
      n'.sequence = n.sequence := by
  have hreached := hreach
  obtain ⟨k, hk, hfk, hck⟩ := hreached
  -- whoever signs under the address of the contact is one whose contact it is
  have hown : ∀ e ∈ y.signers, sameUrl k.url (n.contactUrl e) → e = d := by
    intro e he hsame
    obtain ⟨g, hg, hge⟩ := List.mem_map.mp he
    obtain ⟨l, hl, -⟩ := h.sound.signed hy he
    rw [contactUrl_eq hl] at hsame
    have hnamed := h.known.subscribe_named (h.sound.owner hl).1
    have hcl : sameUrl contact l.url := sameUrl_trans (h.known.contact_named hk) hck hsame
    have hwatch : Watches n (n.subscribeUrl l.parent) contact to_ g.id :=
      ⟨e, ⟨l, hl, sameUrl_refl _, hcl⟩, p, y, hy, htarget, g, hg, hge, rfl⟩
    have hff : sameUrl from_ (n.subscribeUrl l.parent) := halone _ ⟨hnamed, hcontact, hto, by
      rw [(h.watch hnamed hcontact hto g.id).mpr hwatch]
      simp⟩
    exact ContactOf.unique h.sound h.known hfrom hcontact ⟨l, hl, hff, hcl⟩ hreach
  obtain ⟨n', -, hrun, hsound, hsigning, -⟩ := sign_spec pick
    (g := (⟨from_, id, d⟩ : Signature)) flag h.sound hk hy hother hown
  rw [pushSignature_eq] at hrun
  cases hpush : pushFindSignature pick n p ⟨from_, id, d⟩ flag with
  | error e =>
      rw [hpush] at hrun
      cases hrun
  | ok r =>
      obtain ⟨b, n₁⟩ := r
      rw [hpush] at hrun
      have hback : SipEcho.pushBack pick n₁ d p = .ok n' := hrun
      obtain ⟨rfl, y', rfl, hyurl, hmem⟩ := pushFindSignature_mem h.sound hk hy hown hflag hpush
      obtain ⟨k', rfl, hurl, hparent⟩ := pushBack_contact
        (show (n.setPresence p y').contacts d = some k from hk) hback
      exact ⟨_, _, y', rfl, hback, ⟨h.resigned hk hy hurl hparent hyurl hmem hfrom hcontact hto
        hreach htarget hsound, hsigning⟩, (reaches_resigned hk hurl hparent).mpr hreach,
        Notify.setPresence_self n, hyurl ▸ htarget, rfl⟩

end Tracks

/-! ### The calls -/

/-- The number of the next note does not matter. -/
lemma Refines.of_sequence (h : Refines n w) (r : ℕ) : Refines { n with sequence := r } w where
  sound := ⟨h.sound.toSigned.of_eq rfl rfl,
    ⟨h.sound.subscribe_nodup, h.sound.subscribe_live, h.sound.contact_nodup,
      h.sound.contact_live, h.sound.owner⟩,
    ⟨h.sound.presence_live, h.sound.presence_stored, h.sound.presence_apart, h.sound.named⟩,
    h.sound.free⟩
  known := ⟨h.known.subscribe_stored, h.known.subscribe_named, h.known.subscribe_apart,
    h.known.contact_named, h.known.contact_apart, h.known.signer⟩
  watch := h.watch
  signing := h.signing

/-- **`notify_update`**: from now on the subscriber watches the target from the contact, and is
told so. -/
lemma Refines.updateNote (h : Refines n w) (status : NotifyStatus) (caller : NotifyCaller)
    (hop : w.Admits (.update pick (some from_) (some contact) (some to_) (some id))) :
    ∃ note n', notifyUpdateNote status pick caller n (some from_) (some contact) (some to_)
        (some id) = .ok (0, [note], n') ∧
      Refines n' (w.update from_ contact to_ id) ∧ n'.sequence = n.sequence + 1 ∧
      note.Tells status caller (n.sequence + 1) from_ contact to_ id := by
  obtain ⟨hfrom, hcontact, hto, halone⟩ := hop
  obtain ⟨s, new₁, n₁, hpush₁, h₁, hpresences₁, hsequence₁, hs, hsame, hnew₁⟩ :=
    h.toTracks.pushSubscribe pick hfrom
  obtain ⟨d, new₂, n₂, hpush₂, h₂, hpresences₂, hsequence₂, hreach, hnew₂, hold₂⟩ :=
    h₁.pushContact pick hcontact hs hsame
  have hsigning₂ : Signing n₂ := fun p y hy => h.signing p y (by
    rwa [hpresences₂, hpresences₁] at hy)
  obtain ⟨p, new₃, n₃, y, hpush₃, h₃, hcontacts₃, hsubscribes₃, hsequence₃, hy, htarget, hother,
    hnew₃, hold₃⟩ := h₂.pushPresence hsigning₂ pick hto
  have hreach₃ : ContactOf n₃ d from_ contact := by
    obtain ⟨k, hk, hfk, hck⟩ := hreach
    refine ⟨k, by rw [hcontacts₃, hk], ?_, hck⟩
    rwa [subscribeUrl_congr (n := n₂) (by rw [hsubscribes₃])]
  -- a contact that has signed is not new, nor is its subscriber or the presence
  have hflag : d ∈ y.signers → (!new₁ && !new₂ && !new₃) = true := by
    intro hd
    have h3 : new₃ = false := Bool.eq_false_iff.mpr fun h3 => by
      rw [Presence.signers, hnew₃ h3] at hd
      cases hd
    have h2 : new₂ = false := Bool.eq_false_iff.mpr fun h2 => hnew₂ h2 p y (hold₃ h3) hd
    have h1 : new₁ = false := Bool.eq_false_iff.mpr fun h1 => by
      obtain ⟨k, hk, hparent⟩ := hold₂ h2
      exact hnew₁ h1 d k hk hparent
    rw [h1, h2, h3]
    rfl
  obtain ⟨n₄, n', y', hsign, hback, h', hreach', hy', htarget', hsequence'⟩ := h₃.sign pick hfrom
    hcontact hto hreach₃ hy htarget hother halone hflag
  obtain ⟨k, hk, -, hck⟩ := hreach'
  obtain ⟨u, hu⟩ := Option.isSome_iff_exists.mp (h'.sound.named hy')
  have hsequence : n'.sequence = n.sequence := by
    rw [hsequence', hsequence₃, hsequence₂, hsequence₁]
  refine ⟨notifyNote status caller (n.sequence + 1) k ⟨from_, id, d⟩ y'.url u, _, ?_,
    h'.of_sequence (n.sequence + 1), rfl, k, ⟨from_, id, d⟩, y'.url, u, rfl, hu, sameUrl_refl _,
    hck, htarget', rfl⟩
  rw [notifyUpdateNote, hpush₁]
  simp only [bind, Except.bind, hpush₂, hpush₃, hsign, hback, makeNote_eq hk hy' hu,
    hsequence]
  rfl

/-- **One call.** -/
lemma Refines.step (op : NotifyOp) (h : Refines n w) (hop : w.Admits op) :
    ∃ n', op.step n = .ok n' ∧ Refines n' (w.step op) := by
  cases op with
  | delete pick from_ contact to_ => exact h.delete hop
  | update pick from_ contact to_ id =>
      rcases from_ with _ | from_
      · exact ⟨n, rfl, h⟩
      rcases contact with _ | contact
      · exact ⟨n, rfl, h⟩
      rcases to_ with _ | to_
      · exact ⟨n, rfl, h⟩
      rcases id with _ | id
      · exact ⟨n, rfl, h⟩
      -- which note it makes does not matter here
      obtain ⟨_, n', hn', h', -⟩ := h.updateNote none ⟨0, fun _ => []⟩ hop
      exact ⟨n', by rw [NotifyOp.step, notifyUpdate_of_note hn']; rfl, h'⟩

/-- **A sequence of calls.** -/
lemma Refines.run (ops : List NotifyOp) (h : Refines n w) (hops : w.AllAdmit ops) :
    ∃ n', NotifyOp.run n ops = .ok n' ∧ Refines n' (ops.foldl Watch.step w) := by
  induction ops generalizing n w with
  | nil => exact ⟨n, rfl, h⟩
  | cons op ops ih =>
      obtain ⟨n₁, hstep, h₁⟩ := h.step op hops.1
      obtain ⟨n', hrun, h'⟩ := ih h₁ hops.2
      refine ⟨n', ?_, h'⟩
      rw [NotifyOp.run, List.foldlM_cons, hstep]
      exact hrun

/-- A shorter sequence. -/
lemma Watch.AllAdmit.take {ops : List NotifyOp} (hops : w.AllAdmit ops) (m : ℕ) :
    w.AllAdmit (ops.take m) := by
  induction ops generalizing w m with
  | nil => rwa [List.take_nil]
  | cons op ops ih =>
      cases m with
      | zero => trivial
      | succ m => exact ⟨hops.1, ih hops.2 m⟩

/-- Two subscribers, one of them with two contacts, watch two presences; one contact leaves, a
subscriber goes as a whole, and another comes. -/
def visits : List NotifyOp :=
  [watches 97 120 116, watches 97 121 117, watches 98 122 116, watches 98 122 117,
    leaves 97 120 116, watches 97 121 117, .delete firstPick (addressOf 97) none none,
    watches 99 123 116]

lemma visits_admitted : Watch.empty.AllAdmit visits :=
  WatchTable.allAdmit_sound Watch.Listed.empty (by decide +kernel)

end SipEcho
