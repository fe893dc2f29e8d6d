import SipEcho.Notify.Store

/-!
How contacts and presences refer to each other, and what `notify_delete` leaves of it.

* `Signed n`: a contact refers to the presences that have its signature, and to no others;
  `Sound n`: so it is in a store whose maps hold what is in memory;
* `Signing n`: every presence has a signature, which `notify_delete` may lose: a contact that is
  freed takes its signatures off, and the presence stays;
* `Relinked`, `Sound.relink`: what one contact and one presence say of each other may change;
* `contactFree_eq`: what freeing a contact comes to, `Notify.forget`;
* `Sound.dropSubscribe`, `Sound.dropContact`: a sound store without a subscriber or a contact.
-/

namespace SipEcho

open Lib

/-! ### What is read -/

/-- The contacts that have signed. -/
def Presence.signers (y : Presence) : List ℕ := y.signature.map Signature.contact

namespace Notify

variable (n : Notify)

def subscribeUrl (s : ℕ) : SipAddress := ((n.subscribes s).map Subscribe.url).getD {}

def contactUrl (c : ℕ) : SipAddress := ((n.contacts c).map NotifyContact.url).getD {}

def presenceUrl (p : ℕ) : SipAddress := ((n.presences p).map Presence.url).getD {}

end Notify

variable {n : Notify} {pick : Pick} {s c p : ℕ} {x : Subscribe} {k : NotifyContact} {y : Presence}

lemma fetch_eq {α : Type} {memory : ℕ → Option α} {a : ℕ} {v : α} (h : memory a = some v) :
    fetch memory a = .ok v := by
  rw [fetch, h]
  rfl

lemma subscribeKey_eq (h : n.subscribes s = some x) :
    n.subscribeKey s = .ok (n.subscribeUrl s) := by
  rw [Notify.subscribeKey, fetch_eq h, Notify.subscribeUrl, h]
  rfl

lemma contactKey_eq (h : n.contacts c = some k) : n.contactKey c = .ok (n.contactUrl c) := by
  rw [Notify.contactKey, fetch_eq h, Notify.contactUrl, h]
  rfl

lemma presenceKey_eq (h : n.presences p = some y) : n.presenceKey p = .ok (n.presenceUrl p) := by
  rw [Notify.presenceKey, fetch_eq h, Notify.presenceUrl, h]
  rfl

lemma contactUrl_eq (h : n.contacts c = some k) : n.contactUrl c = k.url := by
  rw [Notify.contactUrl, h]
  rfl

lemma presenceUrl_eq (h : n.presences p = some y) : n.presenceUrl p = y.url := by
  rw [Notify.presenceUrl, h]
  rfl

/-! ### The invariants -/

/-- Contacts and presences refer to each other. -/
structure Signed (n : Notify) : Prop where
  referred : ∀ {c k p}, n.contacts c = some k → p ∈ k.presence →
    ∃ y, n.presences p = some y ∧ c ∈ y.signers
  signed : ∀ {p y c}, n.presences p = some y → c ∈ y.signers →
    ∃ k, n.contacts c = some k ∧ p ∈ k.presence
  apart : ∀ {p y}, n.presences p = some y → Apart sameUrl n.contactUrl y.signers
  nodup : ∀ {c k}, n.contacts c = some k → k.presence.Nodup

lemma Signed.of_eq {n' : Notify} (h : Signed n) (hc : n'.contacts = n.contacts)
    (hp : n'.presences = n.presences) : Signed n' := by
  obtain ⟨_, contacts, presences, _, _, _, _⟩ := n'
  obtain rfl : contacts = n.contacts := hc
  obtain rfl : presences = n.presences := hp
  exact ⟨h.referred, h.signed, h.apart, h.nodup⟩

/-- The subscribers of the map are those in memory, and the contacts in memory are theirs. -/
structure Owned (n : Notify) : Prop where
  subscribe_nodup : n.subscribe.Nodup
  subscribe_live : ∀ {s}, s ∈ n.subscribe → ∃ x, n.subscribes s = some x
  contact_nodup : ∀ {s x}, n.subscribes s = some x → x.contact.Nodup
  contact_live : ∀ {s x c}, n.subscribes s = some x → c ∈ x.contact →
    ∃ k, n.contacts c = some k ∧ k.parent = s
  owner : ∀ {c k}, n.contacts c = some k →
    k.parent ∈ n.subscribe ∧ ∃ x, n.subscribes k.parent = some x ∧ c ∈ x.contact

/-- The presences of the map are those in memory. -/
structure Shelved (n : Notify) : Prop where
  presence_live : ∀ {p}, p ∈ n.presence → ∃ y, n.presences p = some y
  presence_stored : ∀ {p y}, n.presences p = some y → p ∈ n.presence
  presence_apart : Apart sameUrl n.presenceUrl n.presence
  named : ∀ {p y}, n.presences p = some y → y.url.url.isSome

/-- The store is sound. -/
structure Sound (n : Notify) : Prop extends Signed n, Owned n, Shelved n where
  free : ∀ {i}, n.next ≤ i → n.subscribes i = none ∧ n.contacts i = none ∧ n.presences i = none

/-- Every presence has a signature. -/
def Signing (n : Notify) : Prop := ∀ p y, n.presences p = some y → y.signature ≠ []

/-! ### One contact and one presence -/

/-- A contact keeps its address. -/
lemma contactUrl_setContact {k' : NotifyContact} (hk : n.contacts c = some k)
    (hurl : k'.url = k.url) : (n.setContact c k').contactUrl = n.contactUrl := by
  funext d
  by_cases hd : d = c
  · subst hd
    rw [contactUrl_eq hk, contactUrl_eq (Notify.setContact_self n), hurl]
  · show (((n.setContact c k').contacts d).map _).getD _ = _
    rw [Notify.setContact_ne hd]
    rfl

/-- The store `n'` is `n` but for what the contact `c` and the presence `p` say of each other. -/
structure Relinked (n n' : Notify) (c p : ℕ) : Prop where
  contact_old : ∀ {d k₁}, n'.contacts d = some k₁ → ∃ k₀, n.contacts d = some k₀ ∧
    k₁.parent = k₀.parent ∧ ∀ q, d ≠ c ∨ q ≠ p → (q ∈ k₁.presence ↔ q ∈ k₀.presence)
  contact_new : ∀ {d k₀}, n.contacts d = some k₀ → ∃ k₁, n'.contacts d = some k₁ ∧
    k₁.parent = k₀.parent ∧ ∀ q, d ≠ c ∨ q ≠ p → (q ∈ k₁.presence ↔ q ∈ k₀.presence)
  presence_old : ∀ {q y₁}, n'.presences q = some y₁ → ∃ y₀, n.presences q = some y₀ ∧
    y₁.url = y₀.url ∧ ∀ d, d ≠ c ∨ q ≠ p → (d ∈ y₁.signers ↔ d ∈ y₀.signers)
  presence_new : ∀ {q y₀}, n.presences q = some y₀ → ∃ y₁, n'.presences q = some y₁ ∧
    y₁.url = y₀.url ∧ ∀ d, d ≠ c ∨ q ≠ p → (d ∈ y₁.signers ↔ d ∈ y₀.signers)
  contact : ∃ k, n'.contacts c = some k
  presence : ∃ y, n'.presences p = some y
  both : ∀ {k y}, n'.contacts c = some k → n'.presences p = some y →
    (p ∈ k.presence ↔ c ∈ y.signers)

namespace Relinked

variable {n' : Notify}

lemma set {k' : NotifyContact} {y' : Presence} (hk : n.contacts c = some k)
    (hy : n.presences p = some y) (hparent : k'.parent = k.parent) (hurl : y'.url = y.url)
    (hk' : ∀ q, q ≠ p → (q ∈ k'.presence ↔ q ∈ k.presence))
    (hy' : ∀ d, d ≠ c → (d ∈ y'.signers ↔ d ∈ y.signers))
    (hboth : p ∈ k'.presence ↔ c ∈ y'.signers) :
    Relinked n ((n.setContact c k').setPresence p y') c p := by
  let n' := (n.setContact c k').setPresence p y'
  have hcself : n'.contacts c = some k' := Notify.setContact_self n
  have hcother : ∀ {d}, d ≠ c → n'.contacts d = n.contacts d := fun hd => Notify.setContact_ne hd
  have hpself : n'.presences p = some y' := Notify.setPresence_self _
  have hpother : ∀ {q}, q ≠ p → n'.presences q = n.presences q := fun hq => Notify.setPresence_ne hq
  refine ⟨?_, ?_, ?_, ?_, ⟨k', hcself⟩, ⟨y', hpself⟩, ?_⟩
  · intro d k₁ hd
    rcases Notify.setContact_cases hd with ⟨rfl, rfl⟩ | ⟨-, hd⟩
    · exact ⟨k, hk, hparent, fun q hq => hk' q (hq.resolve_left fun hne => hne rfl)⟩
    · exact ⟨k₁, hd, rfl, fun q _ => Iff.rfl⟩
  · intro d k₀ hd
    by_cases hdc : d = c
    · subst hdc
      obtain rfl : k = k₀ := Option.some.inj (hk.symm.trans hd)
      exact ⟨k', hcself, hparent, fun q hq => hk' q (hq.resolve_left fun hne => hne rfl)⟩
    · exact ⟨k₀, (hcother hdc).trans hd, rfl, fun q _ => Iff.rfl⟩
  · intro q y₁ hq
    rcases Notify.setPresence_cases hq with ⟨rfl, rfl⟩ | ⟨-, hq⟩
    · exact ⟨y, hy, hurl, fun d hd => hy' d (hd.resolve_right fun hne => hne rfl)⟩
    · exact ⟨y₁, hq, rfl, fun d _ => Iff.rfl⟩
  · intro q y₀ hq
    by_cases hqp : q = p
    · subst hqp
      obtain rfl : y = y₀ := Option.some.inj (hy.symm.trans hq)
      exact ⟨y', hpself, hurl, fun d hd => hy' d (hd.resolve_right fun hne => hne rfl)⟩
    · exact ⟨y₀, (hpother hqp).trans hq, rfl, fun d _ => Iff.rfl⟩
  · intro k₁ y₁ hk₁ hy₁
    obtain rfl : k' = k₁ := Option.some.inj (hcself.symm.trans hk₁)
    obtain rfl : y' = y₁ := Option.some.inj (hpself.symm.trans hy₁)
    exact hboth

/-- Contacts and presences still refer to each other. -/
lemma signed (h : Relinked n n' c p) (hn : Signed n)
    (hapart : ∀ {q y}, n'.presences q = some y → Apart sameUrl n'.contactUrl y.signers)
    (hnodup : ∀ {d k}, n'.contacts d = some k → k.presence.Nodup) : Signed n' := by
  refine ⟨?_, ?_, hapart, hnodup⟩
  · intro d k₁ q hd hq
    by_cases hne : d ≠ c ∨ q ≠ p
    · obtain ⟨k₀, hk₀, -, hmem⟩ := h.contact_old hd
      obtain ⟨y₀, hy₀, hsigned⟩ := hn.referred hk₀ ((hmem q hne).mp hq)
      obtain ⟨y₁, hy₁, -, hmem'⟩ := h.presence_new hy₀
      exact ⟨y₁, hy₁, (hmem' d hne).mpr hsigned⟩
    · obtain ⟨rfl, rfl⟩ := by simpa using hne
      obtain ⟨y₁, hy₁⟩ := h.presence
      exact ⟨y₁, hy₁, (h.both hd hy₁).mp hq⟩
  · intro q y₁ d hq hd
    by_cases hne : d ≠ c ∨ q ≠ p
    · obtain ⟨y₀, hy₀, -, hmem⟩ := h.presence_old hq
      obtain ⟨k₀, hk₀, hrefers⟩ := hn.signed hy₀ ((hmem d hne).mp hd)
      obtain ⟨k₁, hk₁, -, hmem'⟩ := h.contact_new hk₀
      exact ⟨k₁, hk₁, (hmem' q hne).mpr hrefers⟩
    · obtain ⟨rfl, rfl⟩ := by simpa using hne
      obtain ⟨k₁, hk₁⟩ := h.contact
      exact ⟨k₁, hk₁, (h.both hk₁ hq).mpr hd⟩

/-- The contacts are still those of the subscribers. -/
lemma owned (h : Relinked n n' c p) (hn : Owned n) (hmap : n'.subscribe = n.subscribe)
    (hmemory : n'.subscribes = n.subscribes) : Owned n' := by
  refine ⟨?_, ?_, ?_, ?_, ?_⟩
  · rw [hmap]
    exact hn.subscribe_nodup
  · rw [hmap, hmemory]
    exact hn.subscribe_live
  · rw [hmemory]
    exact hn.contact_nodup
  · intro t x' d hx' hd
    rw [hmemory] at hx'
    obtain ⟨k₀, hk₀, hparent⟩ := hn.contact_live hx' hd
    obtain ⟨k₁, hk₁, hsame, -⟩ := h.contact_new hk₀
    exact ⟨k₁, hk₁, hsame.trans hparent⟩
  · intro d k₁ hd
    obtain ⟨k₀, hk₀, hsame, -⟩ := h.contact_old hd
    rw [hmap, hmemory, hsame]
    exact hn.owner hk₀

/-- The presences are still those of the map. -/
lemma shelved (h : Relinked n n' c p) (hn : Shelved n) (hmap : n'.presence = n.presence) :
    Shelved n' := by
  refine ⟨?_, ?_, ?_, ?_⟩
  · intro q hq
    rw [hmap] at hq
    obtain ⟨y₀, hy₀⟩ := hn.presence_live hq
    obtain ⟨y₁, hy₁, -⟩ := h.presence_new hy₀
    exact ⟨y₁, hy₁⟩
  · intro q y₁ hq
    rw [hmap]
    obtain ⟨y₀, hy₀, -⟩ := h.presence_old hq
    exact hn.presence_stored hy₀
  · rw [hmap]
    refine hn.presence_apart.congr fun q hq => ?_
    obtain ⟨y₀, hy₀⟩ := hn.presence_live hq
    obtain ⟨y₁, hy₁, hsame, -⟩ := h.presence_new hy₀
    rw [presenceUrl_eq hy₀, ← hsame]
    exact presenceUrl_eq hy₁
  · intro q y₁ hq
    obtain ⟨y₀, hy₀, hsame, -⟩ := h.presence_old hq
    rw [hsame]
    exact hn.named hy₀

end Relinked

/-- **A contact and a presence may refer to each other, or not**, when the two agree on it. -/
lemma Sound.relink {k' : NotifyContact} {y' : Presence} (h : Sound n)
    (hk : n.contacts c = some k) (hy : n.presences p = some y) (hurl : k'.url = k.url)
    (hparent : k'.parent = k.parent) (hurl' : y'.url = y.url)
    (hk' : ∀ q, q ≠ p → (q ∈ k'.presence ↔ q ∈ k.presence))
    (hy' : ∀ d, d ≠ c → (d ∈ y'.signers ↔ d ∈ y.signers))
    (hboth : p ∈ k'.presence ↔ c ∈ y'.signers) (hnodup : k'.presence.Nodup)
    (hapart : Apart sameUrl n.contactUrl y'.signers) :
    Sound ((n.setContact c k').setPresence p y') := by
  let n' := (n.setContact c k').setPresence p y'
  have hlink : Relinked n n' c p := .set hk hy hparent hurl' hk' hy' hboth
  have hcurl : n'.contactUrl = n.contactUrl := contactUrl_setContact hk hurl
  have hsigned : Signed n' := by
    refine hlink.signed h.toSigned ?_ ?_
    · intro q y₁ hq
      rw [hcurl]
      rcases Notify.setPresence_cases hq with ⟨rfl, rfl⟩ | ⟨-, hq⟩
      · exact hapart
      · exact h.apart hq
    · intro d k₁ hd
      rcases Notify.setContact_cases hd with ⟨rfl, rfl⟩ | ⟨-, hd⟩
      · exact hnodup
      · exact h.nodup hd
  refine ⟨hsigned, hlink.owned h.toOwned rfl rfl, hlink.shelved h.toShelved rfl, ?_⟩
  intro i hi
  obtain ⟨h1, h2, h3⟩ := h.free hi
  have hic : i ≠ c := by
    rintro rfl
    rw [hk] at h2
    cases h2
  have hip : i ≠ p := by
    rintro rfl
    rw [hy] at h3
    cases h3
  exact ⟨h1, (Notify.setContact_ne hic).trans h2, (Notify.setPresence_ne hip).trans h3⟩

/-! ### Freeing a contact -/

/-- The presence without the signatures of the contacts `cs`. -/
def Presence.without (cs : List ℕ) (y : Presence) : Presence :=
  { y with signature := y.signature.filter fun g => g.contact ∉ cs }

/-- The contacts `cs` are gone, with their signatures. -/
def Notify.forget (n : Notify) (cs : List ℕ) : Notify :=
  { n with
    contacts := fun c => if c ∈ cs then none else n.contacts c
    presences := fun p => (n.presences p).map (Presence.without cs) }

lemma mem_signers_without {cs : List ℕ} : c ∈ (y.without cs).signers ↔ c ∈ y.signers ∧ c ∉ cs := by
  simp only [Presence.signers, Presence.without, List.mem_map, List.mem_filter, decide_eq_true_eq]
  constructor
  · rintro ⟨g, ⟨hg, hcs⟩, rfl⟩
    exact ⟨⟨g, hg, rfl⟩, hcs⟩
  · rintro ⟨⟨g, hg, rfl⟩, hcs⟩
    exact ⟨g, ⟨hg, hcs⟩, rfl⟩

lemma signers_without_sublist {cs : List ℕ} : (y.without cs).signers.Sublist y.signers :=
  List.Sublist.map _ List.filter_sublist

lemma without_of_notMem {cs : List ℕ} (h : ∀ c ∈ cs, c ∉ y.signers) : y.without cs = y := by
  have : y.signature.filter (fun g => g.contact ∉ cs) = y.signature :=
    List.filter_eq_self.mpr fun g hg =>
      decide_eq_true fun hmem => h _ hmem (List.mem_map_of_mem hg)
  rw [Presence.without, this]

lemma without_without (cs ds : List ℕ) : (y.without cs).without ds = y.without (cs ++ ds) := by
  simp only [Presence.without, List.filter_filter, List.mem_append, not_or]
  congr 1
  refine List.filter_congr fun g _ => ?_
  by_cases h1 : g.contact ∈ cs <;> by_cases h2 : g.contact ∈ ds <;> simp [h1, h2]

lemma Notify.forget_forget (cs ds : List ℕ) : (n.forget cs).forget ds = n.forget (cs ++ ds) := by
  have hcontacts : ((n.forget cs).forget ds).contacts = (n.forget (cs ++ ds)).contacts := by
    funext c
    show (if c ∈ ds then none else if c ∈ cs then none else n.contacts c) =
      if c ∈ cs ++ ds then none else n.contacts c
    by_cases h1 : c ∈ cs <;> by_cases h2 : c ∈ ds <;> simp [h1, h2]
  have hpresences : ((n.forget cs).forget ds).presences = (n.forget (cs ++ ds)).presences := by
    funext p
    show ((n.presences p).map _).map _ = (n.presences p).map _
    rw [Option.map_map]
    exact congrArg (Option.map · _) (funext fun y => without_without cs ds)
  exact Notify.ext rfl hcontacts hpresences rfl rfl rfl rfl

lemma Notify.forget_nil : n.forget [] = n := by
  refine Notify.ext rfl (funext fun c => ?_) (funext fun p => ?_) rfl rfl rfl rfl
  · show (if c ∈ [] then none else n.contacts c) = n.contacts c
    exact if_neg List.not_mem_nil
  · show (n.presences p).map _ = n.presences p
    cases n.presences p with
    | none => rfl
    | some y => rw [Option.map_some, without_of_notMem (by simp)]

/-- A signature is known by its contact. -/
lemma erase_signature {key : ℕ → SipAddress} (h : Apart sameUrl key y.signers) {g : Signature}
    (hg : g ∈ y.signature) :
    ({ y with signature := y.signature.erase g } : Presence) = y.without [g.contact] := by
  have hapart : Apart sameUrl (fun g => key g.contact) y.signature := List.pairwise_map.mp h
  have herase : y.signature.erase g = y.signature.filter fun b => b.contact ∉ [g.contact] := by
    rw [(hapart.nodup sameUrl_refl).erase_eq_filter]
    refine List.filter_congr fun b hb => ?_
    by_cases heq : b.contact = g.contact
    · have : b = g := hapart.eq_of_same sameUrl_symm hb hg (by rw [heq]; exact sameUrl_refl _)
      simp [this]
    · have : b ≠ g := fun hbg => heq (congrArg _ hbg)
      simp [heq, this]
  rw [Presence.without, herase]

lemma signatureKey_eq {g : Signature} (h : n.contacts g.contact = some k) :
    n.signatureKey g = .ok (n.contactUrl g.contact) := contactKey_eq h

variable (pick) in
/-- **The signature under the address of a contact that has signed is its own.** -/
lemma take_signature (hlive : ∀ c ∈ y.signers, ∃ k, n.contacts c = some k)
    (hapart : Apart sameUrl n.contactUrl y.signers) (hc : c ∈ y.signers) :
    ∃ g ∈ y.signature, g.contact = c ∧
      getBy pick sameUrl n.signatureKey (n.contactUrl c) y.signature =
        .ok (some (g, y.signature.erase g)) := by
  have hkeys : ∀ g ∈ y.signature, n.signatureKey g = .ok (n.contactUrl g.contact) := fun g hg => by
    obtain ⟨k, hk⟩ := hlive _ (List.mem_map_of_mem hg)
    exact signatureKey_eq hk
  obtain ⟨g₀, hg₀, rfl⟩ := List.mem_map.mp hc
  obtain ⟨g, hg⟩ := picked_isSome pick (k := fun g : Signature => n.contactUrl g.contact)
    hg₀ (sameUrl_refl _)
  obtain ⟨hmem, hsame⟩ := picked_some hg
  refine ⟨g, hmem, ?_, by rw [getBy_eq hkeys, hg]; rfl⟩
  exact hapart.eq_of_same sameUrl_symm (List.mem_map_of_mem hmem) hc (sameUrl_symm _ _ hsame)

/-- `contact_unref` of a contact that has signed. -/
lemma contactUnref_eq (hk : n.contacts c = some k) (hy : n.presences p = some y)
    (hlive : ∀ c ∈ y.signers, ∃ k, n.contacts c = some k)
    (hapart : Apart sameUrl n.contactUrl y.signers) (hc : c ∈ y.signers) :
    contactUnref pick c n p = .ok (n.setPresence p (y.without [c])) := by
  obtain ⟨g, hg, rfl, hget⟩ := take_signature pick hlive hapart hc
  rw [contactUnref, fetch_eq hy, fetch_eq hk]
  simp only [bind, Except.bind]
  rw [← contactUrl_eq hk, hget]
  simp only
  rw [erase_signature hapart hg]
  rfl

/-- The loop of `contact_free`. -/
lemma unrefAll_eq (hk : n.contacts c = some k) {ps : List ℕ} (hps : ps.Nodup)
    (h : ∀ p ∈ ps, ∃ y, n.presences p = some y ∧ c ∈ y.signers ∧
      (∀ c ∈ y.signers, ∃ k, n.contacts c = some k) ∧ Apart sameUrl n.contactUrl y.signers) :
    ps.foldlM (contactUnref pick c) n = .ok { n with
      presences := fun p => if p ∈ ps then (n.presences p).map (Presence.without [c])
        else n.presences p } := by
  induction ps generalizing n with
  | nil => simp; rfl
  | cons p ps ih =>
      obtain ⟨hp, hps⟩ := List.nodup_cons.mp hps
      obtain ⟨y, hy, hc, hlive, hapart⟩ := h p List.mem_cons_self
      have hother : ∀ q ∈ ps, (n.setPresence p (y.without [c])).presences q = n.presences q :=
        fun q hq => Notify.setPresence_ne (by rintro rfl; exact hp hq)
      rw [List.foldlM_cons, contactUnref_eq hk hy hlive hapart hc]
      show List.foldlM _ (n.setPresence p (y.without [c])) ps = _
      rw [ih (n := n.setPresence p (y.without [c])) hk hps fun q hq => by
        rw [hother q hq]
        exact h q (List.mem_cons_of_mem p hq)]
      congr 1
      refine Notify.ext rfl rfl (funext fun q => ?_) rfl rfl rfl rfl
      show (if q ∈ ps then _ else _) = if q ∈ p :: ps then _ else _
      by_cases hq : q ∈ ps
      · rw [if_pos hq, if_pos (List.mem_cons_of_mem p hq), hother q hq]
      · rw [if_neg hq]
        by_cases hqp : q = p
        · subst hqp
          rw [if_pos List.mem_cons_self, hy]
          exact Notify.setPresence_self n
        · rw [if_neg (by simp [hqp, hq])]
          exact Notify.setPresence_ne hqp

/-- **Freeing a contact**: it is gone, and its signatures with it. -/
lemma contactFree_eq (h : Signed n) (hk : n.contacts c = some k) :
    contactFree pick n c = .ok (n.forget [c]) := by
  rw [contactFree, fetch_eq hk]
  simp only [bind, Except.bind]
  rw [unrefAll_eq hk (List.nodup_reverse.mpr (h.nodup hk)) fun p hp => ?_]
  · simp only
    refine congrArg Except.ok
      (Notify.ext rfl (funext fun d => ?_) (funext fun p => ?_) rfl rfl rfl rfl)
    · show Function.update n.contacts c none d = if d ∈ [c] then none else n.contacts d
      by_cases hd : d = c <;> simp [hd]
    · show (if p ∈ k.presence.reverse then _ else _) = (n.presences p).map _
      by_cases hp : p ∈ k.presence.reverse
      · rw [if_pos hp]
      · rw [if_neg hp]
        cases hy : n.presences p with
        | none => rfl
        | some y =>
            have hc : c ∉ y.signers := fun hc => by
              obtain ⟨k', hk', hmem⟩ := h.signed hy hc
              rw [hk] at hk'
              cases hk'
              exact hp (List.mem_reverse.mpr hmem)
            rw [Option.map_some, without_of_notMem (by simpa using hc)]
  · obtain ⟨y, hy, hc⟩ := h.referred hk (List.mem_reverse.mp hp)
    exact ⟨y, hy, hc, fun d hd => (h.signed hy hd).imp fun _ hk => hk.1, h.apart hy⟩

lemma forget_contact {cs : List ℕ} :
    (n.forget cs).contacts c = some k ↔ c ∉ cs ∧ n.contacts c = some k := by
  show (if c ∈ cs then none else n.contacts c) = some k ↔ _
  by_cases hc : c ∈ cs <;> simp [hc]

lemma forget_presence {cs : List ℕ} :
    (n.forget cs).presences p = some y ↔ ∃ y', n.presences p = some y' ∧ y'.without cs = y :=
  Option.map_eq_some_iff

/-- Contacts may be freed. -/
lemma Signed.forget (h : Signed n) (cs : List ℕ) : Signed (n.forget cs) := by
  constructor
  · intro c k p hk hp
    obtain ⟨hc, hk⟩ := forget_contact.mp hk
    obtain ⟨y, hy, hsigned⟩ := h.referred hk hp
    exact ⟨_, forget_presence.mpr ⟨y, hy, rfl⟩, mem_signers_without.mpr ⟨hsigned, hc⟩⟩
  · intro p y' c hy' hc
    obtain ⟨y, hy, rfl⟩ := forget_presence.mp hy'
    obtain ⟨hc, hcs⟩ := mem_signers_without.mp hc
    obtain ⟨k, hk, hp⟩ := h.signed hy hc
    exact ⟨k, forget_contact.mpr ⟨hcs, hk⟩, hp⟩
  · intro p y' hy'
    obtain ⟨y, hy, rfl⟩ := forget_presence.mp hy'
    refine ((h.apart hy).sublist signers_without_sublist).congr fun c hc => ?_
    show (((n.forget cs).contacts c).map _).getD _ = _
    rw [show (n.forget cs).contacts c = n.contacts c from if_neg (mem_signers_without.mp hc).2]
    rfl
  · intro c k hk
    exact h.nodup (forget_contact.mp hk).2

lemma Shelved.forget (h : Shelved n) (cs : List ℕ) : Shelved (n.forget cs) where
  presence_live hp := by
    obtain ⟨y, hy⟩ := h.presence_live hp
    exact ⟨_, forget_presence.mpr ⟨y, hy, rfl⟩⟩
  presence_stored hy := by
    obtain ⟨y, hy, -⟩ := forget_presence.mp hy
    exact h.presence_stored hy
  presence_apart := h.presence_apart.congr fun p hp => by
    obtain ⟨y, hy⟩ := h.presence_live hp
    rw [presenceUrl_eq hy, presenceUrl_eq (forget_presence.mpr ⟨y, hy, rfl⟩)]
    rfl
  named hy := by
    obtain ⟨y, hold, rfl⟩ := forget_presence.mp hy
    exact h.named (y := y) hold

/-- **Freeing the contacts of a subscriber.** -/
lemma freeAll_eq (h : Signed n) {cs : List ℕ} (hcs : cs.Nodup)
    (hlive : ∀ c ∈ cs, ∃ k, n.contacts c = some k) :
    cs.foldlM (contactFree pick) n = .ok (n.forget cs) := by
  induction cs generalizing n with
  | nil =>
      rw [Notify.forget_nil]
      rfl
  | cons c cs ih =>
      obtain ⟨hc, hcs⟩ := List.nodup_cons.mp hcs
      obtain ⟨k, hk⟩ := hlive c List.mem_cons_self
      rw [List.foldlM_cons, contactFree_eq h hk]
      show List.foldlM _ (n.forget [c]) cs = _
      rw [ih (h.forget [c]) hcs fun d hd => ?_, Notify.forget_forget, List.singleton_append]
      obtain ⟨k, hk⟩ := hlive d (List.mem_cons_of_mem c hd)
      refine ⟨k, ?_⟩
      rw [← hk]
      exact if_neg fun hmem => hc (by rwa [List.mem_singleton.mp hmem] at hd)

/-! ### Without a subscriber or a contact -/

/-- The store without a subscriber. -/
def Notify.dropSubscribe (n : Notify) (s : ℕ) (x : Subscribe) : Notify :=
  { n.forget x.contact with
    subscribes := Function.update n.subscribes s none
    subscribe := n.subscribe.erase s }

namespace Sound

/-- Without one of its subscribers. -/
lemma dropSubscribe (h : Sound n) (hx : n.subscribes s = some x) :
    Sound (n.dropSubscribe s x) := by
  have hold : ∀ {t : ℕ} {x' : Subscribe}, Function.update n.subscribes s none t = some x' →
      t ≠ s ∧ n.subscribes t = some x' := by
    intro t x' ht
    by_cases hts : t = s
    · rw [hts, Function.update_self] at ht
      cases ht
    · exact ⟨hts, by rwa [Function.update_of_ne hts] at ht⟩
  have hlinked := h.toSigned.forget x.contact
  have hshelved := h.toShelved.forget x.contact
  constructor
  · exact hlinked.of_eq rfl rfl
  · constructor
    · exact h.subscribe_nodup.erase s
    · intro t ht
      obtain ⟨hne, ht⟩ := (h.subscribe_nodup.mem_erase_iff).mp ht
      obtain ⟨x', hx'⟩ := h.subscribe_live ht
      exact ⟨x', by rw [← hx']; exact Function.update_of_ne hne ..⟩
    · intro t x' hx'
      exact h.contact_nodup (hold hx').2
    · intro t x' c hx' hc
      obtain ⟨hne, hx'⟩ := hold hx'
      obtain ⟨k, hk, hparent⟩ := h.contact_live hx' hc
      refine ⟨k, forget_contact.mpr ⟨fun hmem => ?_, hk⟩, hparent⟩
      obtain ⟨k', hk', hs⟩ := h.contact_live hx hmem
      rw [hk] at hk'
      cases hk'
      exact hne (hparent.symm.trans hs)
    · intro c k hk
      obtain ⟨hc, hk⟩ := forget_contact.mp hk
      obtain ⟨hmem, x', hx', hcx⟩ := h.owner hk
      have hne : k.parent ≠ s := fun heq => by
        rw [heq, hx] at hx'
        cases hx'
        exact hc hcx
      exact ⟨(h.subscribe_nodup.mem_erase_iff).mpr ⟨hne, hmem⟩, x',
        by rw [← hx']; exact Function.update_of_ne hne .., hcx⟩
  · exact ⟨hshelved.presence_live, hshelved.presence_stored, hshelved.presence_apart,
      hshelved.named⟩
  · intro i hi
    obtain ⟨h1, h2, h3⟩ := h.free hi
    refine ⟨?_, ?_, ?_⟩
    · show Function.update n.subscribes s none i = none
      by_cases his : i = s
      · rw [his, Function.update_self]
      · rwa [Function.update_of_ne his]
    · show (if i ∈ x.contact then none else n.contacts i) = none
      rw [h2, ite_self]
    · show (n.presences i).map _ = none
      rw [h3]
      rfl

/-- Without one of the contacts of a subscriber. -/
lemma dropContact (h : Sound n) (hx : n.subscribes s = some x) (hc : c ∈ x.contact) :
    Sound ((n.setSubscribe s { x with contact := x.contact.erase c }).forget [c]) := by
  have hold : ∀ {t : ℕ} {x' : Subscribe},
      (n.setSubscribe s { x with contact := x.contact.erase c }).subscribes t = some x' →
      ∃ x₀, n.subscribes t = some x₀ ∧ x'.contact = x₀.contact.erase c := by
    intro t x' ht
    rcases Notify.setSubscribe_cases ht with ⟨rfl, rfl⟩ | ⟨hts, ht⟩
    · exact ⟨x, hx, rfl⟩
    · refine ⟨x', ht, (List.erase_of_not_mem fun hmem => hts ?_).symm⟩
      obtain ⟨k, hk, rfl⟩ := h.contact_live ht hmem
      obtain ⟨k', hk', rfl⟩ := h.contact_live hx hc
      rw [hk] at hk'
      cases hk'
      rfl
  have hnew : ∀ {t : ℕ} {x₀ : Subscribe}, n.subscribes t = some x₀ → ∃ x',
      (n.setSubscribe s { x with contact := x.contact.erase c }).subscribes t = some x' ∧
      ∀ d ∈ x₀.contact, d ≠ c → d ∈ x'.contact := by
    intro t x₀ ht
    by_cases hts : t = s
    · subst hts
      rw [hx] at ht
      cases ht
      exact ⟨_, Notify.setSubscribe_self n, fun d hd hdc => (List.mem_erase_of_ne hdc).mpr hd⟩
    · exact ⟨x₀, (Notify.setSubscribe_ne hts).trans ht, fun d hd _ => hd⟩
  have hlinked : Signed (n.setSubscribe s { x with contact := x.contact.erase c }) :=
    h.toSigned.of_eq rfl rfl
  have hshelved : Shelved (n.setSubscribe s { x with contact := x.contact.erase c }) :=
    ⟨h.presence_live, h.presence_stored, h.presence_apart, h.named⟩
  refine ⟨hlinked.forget [c], ?_, hshelved.forget [c], ?_⟩
  · constructor
    · exact h.subscribe_nodup
    · intro t ht
      obtain ⟨x₀, hx₀⟩ := h.subscribe_live ht
      exact (hnew hx₀).imp fun _ hx' => hx'.1
    · intro t x' hx'
      obtain ⟨x₀, hx₀, heq⟩ := hold hx'
      rw [heq]
      exact (h.contact_nodup hx₀).erase c
    · intro t x' d hx' hd
      obtain ⟨x₀, hx₀, heq⟩ := hold hx'
      rw [heq] at hd
      obtain ⟨hne, hd⟩ := ((h.contact_nodup hx₀).mem_erase_iff).mp hd
      obtain ⟨k, hk, hparent⟩ := h.contact_live hx₀ hd
      exact ⟨k, forget_contact.mpr ⟨by simpa using hne, hk⟩, hparent⟩
    · intro d k hk
      obtain ⟨hd, hk⟩ := forget_contact.mp hk
      obtain ⟨hmem, x₀, hx₀, hdx⟩ := h.owner hk
      obtain ⟨x', hx', hsub⟩ := hnew hx₀
      exact ⟨hmem, x', hx', hsub d hdx (by simpa using hd)⟩
  · intro i hi
    obtain ⟨h1, h2, h3⟩ := h.free hi
    refine ⟨?_, ?_, ?_⟩
    · have his : i ≠ s := by
        rintro rfl
        rw [hx] at h1
        cases h1
      exact (Notify.setSubscribe_ne his).trans h1
    · show (if i ∈ [c] then none else n.contacts i) = none
      rw [h2, ite_self]
    · show (n.presences i).map _ = none
      rw [h3]
      rfl

end Sound

end SipEcho
