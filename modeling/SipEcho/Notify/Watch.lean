import SipEcho.Notify.Run

/-!
Who watches whom: what the store of subscriptions is for.

A `Watch` tells by which dialog a subscriber watches a target from one of its contacts; addresses
that compare as equal are one.  It knows nothing of maps, presences or signatures.

* `Watch.update`, `Watch.delete`, `Watch.step`: what the calls mean;
* `Watch.Admits`: the calls the store can take, in these terms: nobody else watches the target from
  the same contact address, and what is deleted as a whole is not the last to watch a target;
* `Watches`: who watches whom in the store; `Known`: subscribers, and the contacts of each, are
  known by their addresses;
* `Tracks`, `Refines`: the store holds what the table says.
-/

namespace SipEcho

open Lib

/-! ### Addresses with a URL -/

/-- The address has a URL. -/
def SipAddress.Named (a : SipAddress) : Prop := a.url.isSome

lemma strcasecmp_trans_zero {a b c : Str} (hab : strcasecmp a b = 0) (hbc : strcasecmp b c = 0) :
    strcasecmp a c = 0 := by
  have hneg (a b : Str) : strcasecmp a b = -strcasecmp b a := strcmpBy_neg tolower_eq_zero b a
  have hba : strcasecmp b a ≤ 0 := by
    rw [hneg b a, hab]
    omega
  have hcb : strcasecmp c b ≤ 0 := by
    rw [hneg c b, hbc]
    omega
  have h1 : strcasecmp a c ≤ 0 := strcmpBy_trans tolower_eq_zero hab.le hbc.le
  have h2 : strcasecmp c a ≤ 0 := strcmpBy_trans tolower_eq_zero hcb hba
  have h3 := hneg c a
  omega

/-- Two URLs compare as equal when their parts do. -/
lemma sameUrl_iff {a b : SipAddress} {u v : SipUri} (ha : a.url = some u) (hb : b.url = some v) :
    sameUrl a b ↔ strcasecmp (u.username.getD []) (v.username.getD []) = 0 ∧
      strcasecmp (u.scheme.getD []) (v.scheme.getD []) = 0 ∧
      strcasecmp (u.host.getD []) (v.host.getD []) = 0 ∧ urlPort u = urlPort v := by
  rw [sameUrl, urlCompare, ha, hb]
  dsimp only
  split_ifs
  all_goals simp_all
  all_goals omega

/-- **Among addresses with URLs** to compare as equal is transitive. -/
lemma sameUrl_trans {a b c : SipAddress} (hb : b.Named) (hab : sameUrl a b) (hbc : sameUrl b c) :
    sameUrl a c := by
  obtain ⟨v, hv⟩ := Option.isSome_iff_exists.mp hb
  cases ha : a.url with
  | none =>
      rw [sameUrl, urlCompare, ha]
  | some u =>
      cases hc : c.url with
      | none => rw [sameUrl, urlCompare, ha, hc]
      | some w =>
          obtain ⟨h1, h2, h3, h4⟩ := (sameUrl_iff ha hv).mp hab
          obtain ⟨h1', h2', h3', h4'⟩ := (sameUrl_iff hv hc).mp hbc
          exact (sameUrl_iff ha hc).mpr ⟨strcasecmp_trans_zero h1 h1', strcasecmp_trans_zero h2 h2',
            strcasecmp_trans_zero h3 h3', h4.trans h4'⟩

/-! ### What the calls mean -/

/-- By which dialog a subscriber watches a target from a contact. -/
abbrev Watch := SipAddress → SipAddress → SipAddress → Option SipCallId

/-- What a deletion is about: all of a subscriber, all of one of its contacts, or one target. -/
def Covers (from_ : SipAddress) (contact to_ : Option SipAddress) (f c t : SipAddress) : Prop :=
  sameUrl from_ f ∧ (contact.all fun c₀ => decide (sameUrl c₀ c) &&
    to_.all fun t₀ => decide (sameUrl t₀ t)) = true

instance {from_ : SipAddress} {contact to_ : Option SipAddress} {f c t : SipAddress} :
    Decidable (Covers from_ contact to_ f c t) := inferInstanceAs (Decidable (_ ∧ _))

section Covers

variable {from_ contact to_ f c t : SipAddress}

lemma covers_subscriber {to_ : Option SipAddress} :
    Covers from_ none to_ f c t ↔ sameUrl from_ f := by
  simp [Covers]

lemma covers_contact :
    Covers from_ (some contact) none f c t ↔ sameUrl from_ f ∧ sameUrl contact c := by
  simp [Covers]

lemma covers_target : Covers from_ (some contact) (some to_) f c t ↔
    sameUrl from_ f ∧ sameUrl contact c ∧ sameUrl to_ t := by
  simp [Covers]

end Covers

namespace Watch

/-- Nobody watches anybody. -/
def empty : Watch := fun _ _ _ => none

/-- A subscriber watches a target from a contact, from now on by the dialog `id`. -/
def update (w : Watch) (from_ contact to_ : SipAddress) (id : SipCallId) : Watch := fun f c t =>
  if sameUrl from_ f ∧ sameUrl contact c ∧ sameUrl to_ t then some id else w f c t

/-- What the deletion covers is watched no more. -/
def delete (w : Watch) (from_ : SipAddress) (contact to_ : Option SipAddress) : Watch :=
  fun f c t => if Covers from_ contact to_ f c t then none else w f c t

/-- What a call means. -/
def step (w : Watch) : NotifyOp → Watch
  | .update _ (some from_) (some contact) (some to_) (some id) => w.update from_ contact to_ id
  | .update .. => w
  | .delete _ (some from_) contact to_ => w.delete from_ contact to_
  | .delete _ none _ _ => w

/-- Somebody watches the target. -/
def Watched (w : Watch) (f c t : SipAddress) : Prop :=
  f.Named ∧ c.Named ∧ t.Named ∧ w f c t ≠ none

/-- **The calls the store can take**: all addresses have URLs; nobody else watches the target
from the address of the contact; and who goes as a whole, a subscriber or a contact, leaves every
target with somebody else to watch it. -/
def Admits (w : Watch) : NotifyOp → Prop
  | .update _ (some from_) (some contact) (some to_) (some _) =>
      from_.Named ∧ contact.Named ∧ to_.Named ∧
        ∀ f, w.Watched f contact to_ → sameUrl from_ f
  | .delete _ (some from_) none _ =>
      from_.Named ∧ ∀ f c t, w.Watched f c t → sameUrl from_ f →
        ∃ f' c', w.Watched f' c' t ∧ ¬ sameUrl from_ f'
  | .delete _ (some from_) (some contact) none =>
      from_.Named ∧ contact.Named ∧ ∀ f c t, w.Watched f c t → sameUrl from_ f ∧ sameUrl contact c →
        ∃ f' c', w.Watched f' c' t ∧ ¬ (sameUrl from_ f' ∧ sameUrl contact c')
  | .delete _ (some from_) (some contact) (some to_) => from_.Named ∧ contact.Named ∧ to_.Named
  | _ => True

/-- Every call of a sequence is one the store can take. -/
def AllAdmit : Watch → List NotifyOp → Prop
  | _, [] => True
  | w, op :: ops => w.Admits op ∧ AllAdmit (w.step op) ops

end Watch

/-! ### Who watches whom in the store -/

variable {n n' : Notify} {f c t : SipAddress} {id : SipCallId} {d p : ℕ}

/-- The subscriber has the contact, the address of which is this. -/
def ContactOf (n : Notify) (d : ℕ) (f c : SipAddress) : Prop :=
  ∃ k, n.contacts d = some k ∧ sameUrl f (n.subscribeUrl k.parent) ∧ sameUrl c k.url

/-- The contact has signed the target, for the dialog. -/
def Signs (n : Notify) (d : ℕ) (t : SipAddress) (id : SipCallId) : Prop :=
  ∃ p y, n.presences p = some y ∧ sameUrl t y.url ∧ ∃ g ∈ y.signature, g.contact = d ∧ g.id = id

/-- The subscriber watches the target from the contact, by the dialog. -/
def Watches (n : Notify) (f c t : SipAddress) (id : SipCallId) : Prop :=
  ∃ d, ContactOf n d f c ∧ Signs n d t id

/-- **Subscribers are known by their addresses**, and contacts by theirs and their subscribers'. -/
structure Known (n : Notify) : Prop where
  subscribe_stored : ∀ {s x}, n.subscribes s = some x → s ∈ n.subscribe
  subscribe_named : ∀ {s}, s ∈ n.subscribe → (n.subscribeUrl s).Named
  subscribe_apart : Apart sameUrl n.subscribeUrl n.subscribe
  contact_named : ∀ {c k}, n.contacts c = some k → k.url.Named
  contact_apart : ∀ {c d k l}, n.contacts c = some k → n.contacts d = some l →
    k.parent = l.parent → sameUrl k.url l.url → c = d
  /-- A signature bears the address of the contact's subscriber. -/
  signer : ∀ {p y g k}, n.presences p = some y → g ∈ y.signature →
    n.contacts g.contact = some k → sameUrl g.url (n.subscribeUrl k.parent) ∧ g.url.Named

lemma Known.empty : Known {} where
  subscribe_stored hx := by cases hx
  subscribe_named h := by cases h
  subscribe_apart := List.Pairwise.nil
  contact_named h := by cases h
  contact_apart h := by cases h
  signer h := by cases h

/-- **A store that lost some of what it had** is known as before. -/
lemma Known.mono (h : Known n) (hs : n'.subscribe.Sublist n.subscribe)
    (hstored : ∀ {s x}, n'.subscribes s = some x → s ∈ n'.subscribe)
    (hurl : ∀ s ∈ n'.subscribe, n'.subscribeUrl s = n.subscribeUrl s)
    (hc : ∀ {d k'}, n'.contacts d = some k' → k'.parent ∈ n'.subscribe ∧
      ∃ k, n.contacts d = some k ∧ k'.url = k.url ∧ k'.parent = k.parent)
    (hp : ∀ {p y'}, n'.presences p = some y' → ∃ y, n.presences p = some y ∧
      ∀ g ∈ y'.signature, g ∈ y.signature) : Known n' where
  subscribe_stored := hstored
  subscribe_named hmem := by
    rw [hurl _ hmem]
    exact h.subscribe_named (hs.subset hmem)
  subscribe_apart := (h.subscribe_apart.sublist hs).congr hurl
  contact_named hk' := by
    obtain ⟨-, k, hk, heq, -⟩ := hc hk'
    rw [heq]
    exact h.contact_named hk
  contact_apart hk' hl' hparent hsame := by
    obtain ⟨-, k, hk, hku, hkp⟩ := hc hk'
    obtain ⟨-, l, hl, hlu, hlp⟩ := hc hl'
    exact h.contact_apart hk hl (by rw [← hkp, ← hlp, hparent]) (by rwa [← hku, ← hlu])
  signer hy' hg hk' := by
    obtain ⟨y, hy, hsub⟩ := hp hy'
    obtain ⟨hmem, k, hk, -, hkp⟩ := hc hk'
    rw [hurl _ hmem, hkp]
    exact h.signer hy (hsub _ hg) hk

section Known

variable (h : Sound n) (hknown : Known n)
include h hknown

/-- **A contact is known** by its address and its subscriber's. -/
lemma ContactOf.unique {d' : ℕ} (hf : f.Named) (hc : c.Named) (hd : ContactOf n d f c)
    (hd' : ContactOf n d' f c) : d = d' := by
  obtain ⟨k, hk, hfk, hck⟩ := hd
  obtain ⟨l, hl, hfl, hcl⟩ := hd'
  have hparent : k.parent = l.parent :=
    hknown.subscribe_apart.eq_of_same sameUrl_symm (h.owner hk).1 (h.owner hl).1
      (sameUrl_trans hf (sameUrl_symm _ _ hfk) hfl)
  exact hknown.contact_apart hk hl hparent (sameUrl_trans hc (sameUrl_symm _ _ hck) hcl)

/-- Whose contact it is. -/
lemma ContactOf.parent_iff {s : ℕ} {f₀ : SipAddress} {k : NotifyContact} (hf₀ : f₀.Named)
    (hf : f.Named) (hs : s ∈ n.subscribe) (hf₀s : sameUrl f₀ (n.subscribeUrl s))
    (hk : n.contacts d = some k) (hfk : sameUrl f (n.subscribeUrl k.parent)) :
    k.parent = s ↔ sameUrl f₀ f := by
  have hparent := (h.owner hk).1
  constructor
  · rintro rfl
    exact sameUrl_trans (hknown.subscribe_named hparent) hf₀s (sameUrl_symm _ _ hfk)
  · intro hsame
    refine hknown.subscribe_apart.eq_of_same sameUrl_symm hparent hs ?_
    exact sameUrl_trans hf (sameUrl_symm _ _ hfk)
      (sameUrl_trans hf₀ (sameUrl_symm _ _ hsame) hf₀s)

end Known

/-- A presence is known by its address. -/
lemma presence_unique {q : ℕ} {y z : Presence} (h : Sound n) (ht : t.Named)
    (hy : n.presences p = some y) (hz : n.presences q = some z) (hty : sameUrl t y.url)
    (htz : sameUrl t z.url) : p = q := by
  refine h.presence_apart.eq_of_same sameUrl_symm (h.presence_stored hy) (h.presence_stored hz) ?_
  rw [presenceUrl_eq hy, presenceUrl_eq hz]
  exact sameUrl_trans ht (sameUrl_symm _ _ hty) htz

/-- The store holds what the table says. -/
structure Tracks (n : Notify) (w : Watch) : Prop where
  sound : Sound n
  known : Known n
  watch : ∀ {f c t}, f.Named → c.Named → t.Named → ∀ id, w f c t = some id ↔ Watches n f c t id

/-- The store refines the table: it holds what the table says, and no presence that nobody
watches. -/
structure Refines (n : Notify) (w : Watch) : Prop extends Tracks n w where
  signing : Signing n

lemma Refines.empty : Refines {} Watch.empty where
  sound := Sound.empty
  signing := fun p y hy => by cases hy
  known := Known.empty
  watch _ _ _ _ := by
    refine iff_of_false (by simp [Watch.empty]) ?_
    rintro ⟨d, ⟨k, hk, -⟩, -⟩
    cases hk

end SipEcho
