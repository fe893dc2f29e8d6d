import SipEcho.Notify.Links

/-!
`notify_delete` on a sound store.

* `Spares n cs`: every presence keeps a signature when the contacts `cs` are gone, and
  `signing_forget`, that this is what `Signing` asks for;
* `deleteSubscribe_eq`, `deleteContact_eq`: a subscriber or a contact goes as a whole;
* `deletePresence_eq`: one presence of a contact goes, and **no presence stays without a
  signature**.
-/

namespace SipEcho

open Lib

variable {n : Notify} {pick : Pick} {s c p : ℕ} {x : Subscribe} {k : NotifyContact} {y : Presence}
  {from_ contact to_ : SipAddress}

/-! ### What the searches find -/

lemma findSubscribe_eq (h : Owned n) :
    findSubscribe pick n from_ = .ok (picked pick sameUrl n.subscribeUrl from_ n.subscribe) :=
  findBy_eq fun _ hs => by
    obtain ⟨x, hx⟩ := h.subscribe_live hs
    exact subscribeKey_eq hx

lemma contactKeys (h : Owned n) (hx : n.subscribes s = some x) :
    ∀ c ∈ x.contact, n.contactKey c = .ok (n.contactUrl c) := fun c hc => by
  obtain ⟨k, hk, -⟩ := h.contact_live hx hc
  exact contactKey_eq hk

lemma findContact_eq (h : Owned n) (hx : n.subscribes s = some x) :
    findContact pick n s contact = .ok (picked pick sameUrl n.contactUrl contact x.contact) := by
  rw [findContact, fetch_eq hx]
  exact findBy_eq (contactKeys h hx)

/-- A subscriber that is found is in memory. -/
lemma Owned.found_subscribe (h : Owned n) (hs : findSubscribe pick n from_ = .ok (some s)) :
    ∃ x, n.subscribes s = some x := by
  rw [findSubscribe_eq h] at hs
  exact h.subscribe_live (picked_some (Except.ok.inj hs)).1

/-- So is a contact. -/
lemma Owned.found_contact (h : Owned n) (hx : n.subscribes s = some x)
    (hc : findContact pick n s contact = .ok (some c)) :
    c ∈ x.contact ∧ ∃ k, n.contacts c = some k := by
  rw [findContact_eq h hx] at hc
  have hmem := (picked_some (Except.ok.inj hc)).1
  obtain ⟨k, hk, -⟩ := h.contact_live hx hmem
  exact ⟨hmem, k, hk⟩

/-! ### A subscriber or a contact goes as a whole -/

/-- Every presence keeps a signature when the contacts `cs` are gone. -/
def Spares (n : Notify) (cs : List ℕ) : Prop :=
  ∀ p y, n.presences p = some y → ∃ g ∈ y.signature, g.contact ∉ cs

lemma signing_forget {cs : List ℕ} : Signing (n.forget cs) ↔ Spares n cs := by
  have hne : ∀ y : Presence, (y.without cs).signature ≠ [] ↔ ∃ g ∈ y.signature, g.contact ∉ cs := by
    intro y
    rw [Presence.without, Ne, List.filter_eq_nil_iff]
    simp
  constructor
  · intro h p y hy
    exact (hne y).mp (h p _ (forget_presence.mpr ⟨y, hy, rfl⟩))
  · intro h p y' hy'
    obtain ⟨y, hy, rfl⟩ := forget_presence.mp hy'
    exact (hne y).mpr (h p y hy)

/-- The last lines of `notify_delete`, where a subscriber is found. -/
lemma deleteSubscribe_eq (h : Sound n) (hs : findSubscribe pick n from_ = .ok (some s))
    (hx : n.subscribes s = some x) :
    deleteSubscribe pick n from_ = .ok (n.dropSubscribe s x) := by
  have hget : getBy pick sameUrl n.subscribeKey from_ n.subscribe =
      .ok (some (s, n.subscribe.erase s)) := by
    rw [getBy, show findBy pick sameUrl n.subscribeKey from_ n.subscribe = _ from hs]
    rfl
  let n₁ : Notify := { n with subscribe := n.subscribe.erase s }
  have hfree : x.contact.foldlM (contactFree pick) n₁ = .ok (n₁.forget x.contact) := by
    refine freeAll_eq (n := n₁) (h.toSigned.of_eq rfl rfl) (h.contact_nodup hx) fun c hc => ?_
    obtain ⟨k, hk, -⟩ := h.contact_live hx hc
    exact ⟨k, hk⟩
  rw [deleteSubscribe, hget]
  show subscribeFree pick n₁ s = _
  rw [subscribeFree, fetch_eq (show n₁.subscribes s = some x from hx)]
  show (x.contact.foldlM (contactFree pick) n₁ >>= _) = _
  rw [hfree]
  rfl

/-- The last lines, where none is found. -/
lemma deleteSubscribe_none (hs : findSubscribe pick n from_ = .ok none) :
    deleteSubscribe pick n from_ = .ok n := by
  rw [deleteSubscribe, getBy, show findBy pick sameUrl n.subscribeKey from_ n.subscribe = _ from hs]
  rfl

/-- The lines before, where no contact is found. -/
lemma deleteContact_none (hx : n.subscribes s = some x)
    (hc : findContact pick n s contact = .ok none) :
    deleteContact pick n from_ s contact = .ok n := by
  rw [findContact, fetch_eq hx] at hc
  rw [deleteContact, fetch_eq hx]
  simp only [bind, Except.bind]
  rw [getBy, show findBy pick sameUrl n.contactKey contact x.contact = _ from hc]
  rfl

/-- **A contact goes**, and with the last one the subscriber. -/
lemma deleteContact_eq (h : Sound n) (hs : findSubscribe pick n from_ = .ok (some s))
    (hx : n.subscribes s = some x) (hc : findContact pick n s contact = .ok (some c)) :
    ∃ n', deleteContact pick n from_ s contact = .ok n' ∧ Sound n' ∧
      n'.presences = (n.forget [c]).presences := by
  obtain ⟨hmem, k, hk⟩ := h.found_contact hx hc
  let n₁ := n.setSubscribe s { x with contact := x.contact.erase c }
  have hsound : Sound (n₁.forget [c]) := h.dropContact hx hmem
  have hlinked : Signed n₁ := h.toSigned.of_eq rfl rfl
  have hfree : contactFree pick n₁ c = .ok (n₁.forget [c]) := contactFree_eq hlinked hk
  have hget : getBy pick sameUrl n.contactKey contact x.contact =
      .ok (some (c, x.contact.erase c)) := by
    rw [findContact, fetch_eq hx] at hc
    rw [getBy, show findBy pick sameUrl n.contactKey contact x.contact = _ from hc]
    rfl
  have hstart : deleteContact pick n from_ s contact =
      if x.contact.erase c = [] then deleteSubscribe pick (n₁.forget [c]) from_
      else .ok (n₁.forget [c]) := by
    rw [deleteContact, fetch_eq hx]
    simp only [bind, Except.bind]
    rw [hget]
    simp only
    rw [hfree]
    rfl
  rw [hstart]
  by_cases hlast : x.contact.erase c = []
  · have hself : (n₁.forget [c]).subscribes s = some { x with contact := x.contact.erase c } :=
      Notify.setSubscribe_self n
    have hurl : ∀ t, (n₁.forget [c]).subscribeUrl t = n.subscribeUrl t := by
      intro t
      show ((n₁.subscribes t).map _).getD _ = ((n.subscribes t).map _).getD _
      by_cases hts : t = s
      · rw [hts, hx, show n₁.subscribes s = _ from Notify.setSubscribe_self n]
        rfl
      · rw [show n₁.subscribes t = _ from Notify.setSubscribe_ne hts]
    have hs' : findSubscribe pick (n₁.forget [c]) from_ = .ok (some s) := by
      rw [findSubscribe_eq hsound.toOwned, ← hs, findSubscribe_eq h.toOwned]
      exact congrArg Except.ok (picked_congr fun t _ => hurl t)
    refine ⟨_, by rw [if_pos hlast, deleteSubscribe_eq hsound hs' hself],
      hsound.dropSubscribe hself, ?_⟩
    show ((n₁.forget [c]).forget (x.contact.erase c)).presences = _
    rw [hlast, Notify.forget_nil]
    rfl
  · exact ⟨_, if_neg hlast, hsound, rfl⟩

/-! ### One presence of a contact goes -/

/-- The contact and the presence do not refer to each other any more. -/
def Notify.part (n : Notify) (c : ℕ) (k : NotifyContact) (p : ℕ) (y : Presence) : Notify :=
  (n.setContact c { k with presence := k.presence.erase p }).setPresence p (y.without [c])

/-- The store without a presence. -/
def Notify.dropPresence (n : Notify) (p : ℕ) : Notify :=
  { n with
    presences := Function.update n.presences p none
    presence := n.presence.erase p }

/-- The two are parted, and the presence goes if it was the last signature. -/
def Notify.unlink (n : Notify) (c : ℕ) (k : NotifyContact) (p : ℕ) (y : Presence) : Notify :=
  if (y.without [c]).signature = [] then (n.part c k p y).dropPresence p else n.part c k p y

lemma part_self : (n.part c k p y).presences p = some (y.without [c]) :=
  Notify.setPresence_self _

lemma dropPresence_presence :
    (n.dropPresence p).presences s = some y ↔ s ≠ p ∧ n.presences s = some y := by
  show Function.update n.presences p none s = some y ↔ _
  by_cases hsp : s = p
  · rw [hsp, Function.update_self]
    simp
  · rw [Function.update_of_ne hsp]
    simp [hsp]

/-- What `unlink` leaves of the presences. -/
lemma unlink_presence {q : ℕ} {y' : Presence} (h : (n.unlink c k p y).presences q = some y') :
    (n.part c k p y).presences q = some y' ∧ (q = p → (y.without [c]).signature ≠ []) := by
  rw [Notify.unlink] at h
  split_ifs at h with hnil
  · obtain ⟨hne, h⟩ := dropPresence_presence.mp h
    exact ⟨h, fun heq => absurd heq hne⟩
  · exact ⟨h, fun _ => hnil⟩

namespace Sound

lemma part (h : Sound n) (hk : n.contacts c = some k) (hy : n.presences p = some y) :
    Sound (n.part c k p y) := by
  refine h.relink hk hy rfl rfl rfl (fun q hq => List.mem_erase_of_ne hq) (fun d hd => ?_) ?_
    ((h.nodup hk).erase p) ((h.apart hy).sublist signers_without_sublist)
  · rw [mem_signers_without]
    simp [hd]
  · rw [mem_signers_without]
    have hp : p ∉ k.presence.erase p := (h.nodup hk).not_mem_erase
    simp [hp]

/-- Without a presence that nobody has signed. -/
lemma dropPresence (h : Sound n) (hy : n.presences p = some y) (hnil : y.signature = []) :
    Sound (n.dropPresence p) := by
  have hold : ∀ {q y'}, (n.dropPresence p).presences q = some y' ↔
      q ≠ p ∧ n.presences q = some y' := dropPresence_presence
  have hnodup : n.presence.Nodup := h.presence_apart.nodup sameUrl_refl
  refine ⟨⟨?_, ?_, ?_, h.nodup⟩,
    ⟨h.subscribe_nodup, h.subscribe_live, h.contact_nodup, h.contact_live, h.owner⟩,
    ⟨?_, ?_, ?_, ?_⟩, ?_⟩
  · intro c k q hk hq
    obtain ⟨y', hy', hc⟩ := h.referred hk hq
    refine ⟨y', hold.mpr ⟨?_, hy'⟩, hc⟩
    rintro rfl
    rw [hy] at hy'
    cases hy'
    rw [Presence.signers, hnil] at hc
    cases hc
  · intro q y' c hq hc
    exact h.signed (hold.mp hq).2 hc
  · intro q y' hq
    exact h.apart (hold.mp hq).2
  · intro q hq
    obtain ⟨hne, hq⟩ := (hnodup.mem_erase_iff).mp hq
    obtain ⟨y', hy'⟩ := h.presence_live hq
    exact ⟨y', hold.mpr ⟨hne, hy'⟩⟩
  · intro q y' hq
    obtain ⟨hne, hq⟩ := hold.mp hq
    exact (hnodup.mem_erase_iff).mpr ⟨hne, h.presence_stored hq⟩
  · refine (h.presence_apart.sublist List.erase_sublist).congr fun q hq => ?_
    have hne := ((hnodup.mem_erase_iff).mp hq).1
    show ((Function.update n.presences p none q).map _).getD _ = _
    rw [Function.update_of_ne hne]
    rfl
  · intro q y' hq
    exact h.named (hold.mp hq).2
  · intro i hi
    obtain ⟨h1, h2, h3⟩ := h.free hi
    refine ⟨h1, h2, ?_⟩
    show Function.update n.presences p none i = none
    by_cases hip : i = p
    · rw [hip, Function.update_self]
    · rwa [Function.update_of_ne hip]

lemma unlink (h : Sound n) (hk : n.contacts c = some k) (hy : n.presences p = some y) :
    Sound (n.unlink c k p y) := by
  rw [Notify.unlink]
  split_ifs with hnil
  · exact (h.part hk hy).dropPresence part_self hnil
  · exact h.part hk hy

end Sound

/-- No presence is left without a signature. -/
lemma Signing.unlink (h : Signing n) : Signing (n.unlink c k p y) := by
  intro q y' hq
  obtain ⟨hq, hne⟩ := unlink_presence hq
  by_cases hqp : q = p
  · subst hqp
    rw [part_self] at hq
    cases hq
    exact hne rfl
  · exact h q y' ((Notify.setPresence_ne hqp).symm.trans hq)

/-- A contact without presences has signed nothing. -/
lemma unlink_unsigned (h : Sound n) (hk : n.contacts c = some k) (hy : n.presences p = some y)
    (hlast : k.presence.erase p = []) {q : ℕ} {y' : Presence}
    (hq : (n.unlink c k p y).presences q = some y') : c ∉ y'.signers := by
  intro hc
  obtain ⟨k', hk', hmem⟩ := (h.part hk hy).signed (unlink_presence hq).1 hc
  have hself : (n.part c k p y).contacts c = some { k with presence := k.presence.erase p } :=
    Notify.setContact_self n
  rw [hself] at hk'
  cases hk'
  rw [show ({ k with presence := k.presence.erase p } : NotifyContact).presence = _ from hlast]
    at hmem
  cases hmem

/-- `map_pure` of a presence that nobody has signed. -/
lemma purePresence_eq (h : Sound n) (hy : n.presences p = some y) (hnil : y.signature = []) :
    purePresence pick n p = .ok (n.dropPresence p) := by
  have hkeys : ∀ q ∈ n.presence, n.presenceKey q = .ok (n.presenceUrl q) := fun q hq => by
    obtain ⟨y', hy'⟩ := h.presence_live hq
    exact presenceKey_eq hy'
  have hp := h.presence_stored hy
  obtain ⟨q, hq⟩ := picked_isSome pick hp (sameUrl_refl (n.presenceUrl p))
  obtain ⟨hmem, hsame⟩ := picked_some hq
  obtain rfl := h.presence_apart.eq_of_same sameUrl_symm hp hmem hsame
  have hget : getBy pick sameUrl n.presenceKey (n.presenceUrl p) n.presence =
      .ok (some (p, n.presence.erase p)) := by
    rw [getBy_eq hkeys, hq]
    rfl
  let n₁ : Notify := { n with presence := n.presence.erase p }
  rw [purePresence, presenceKey_eq hy]
  simp only [bind, Except.bind]
  rw [hget]
  show presenceFree pick n₁ p = _
  rw [presenceFree, fetch_eq (show n₁.presences p = some y from hy)]
  simp only [bind, Except.bind, hnil]
  rfl

/-- **A contact takes its signature off a presence.** -/
lemma deletePresence_eq (h : Sound n) (hk : n.contacts c = some k)
    (hfound : findContact pick n s contact = .ok (some c))
    (hp : picked pick sameUrl n.presenceUrl to_ k.presence = some p)
    (hy : n.presences p = some y) :
    deletePresence pick n s contact to_ =
      .ok (decide (k.presence.erase p = []), n.unlink c k p y) := by
  have hkeys : ∀ p ∈ k.presence, n.presenceKey p = .ok (n.presenceUrl p) := fun p hp => by
    obtain ⟨y, hy, -⟩ := h.referred hk hp
    exact presenceKey_eq hy
  have hc : c ∈ y.signers := by
    obtain ⟨y', hy', hc⟩ := h.referred hk (picked_some hp).1
    rw [hy] at hy'
    cases hy'
    exact hc
  let n₁ := n.setContact c { k with presence := k.presence.erase p }
  have hurl : n₁.contactUrl = n.contactUrl := contactUrl_setContact hk rfl
  have hlive : ∀ d ∈ y.signers, ∃ k, n₁.contacts d = some k := fun d hd => by
    by_cases hdc : d = c
    · subst hdc
      exact ⟨_, Notify.setContact_self n⟩
    · obtain ⟨k', hk', -⟩ := h.signed hy hd
      exact ⟨k', (Notify.setContact_ne hdc).trans hk'⟩
  obtain ⟨g, hg, rfl, htake⟩ := take_signature pick (n := n₁) hlive
    (by rw [hurl]; exact h.apart hy) hc
  rw [hurl, contactUrl_eq hk] at htake
  have hwithout := erase_signature (h.apart hy) hg
  have hstart : deletePresence pick n s contact to_ = (do
      let n ← if (y.without [g.contact]).signature = [] then
          purePresence pick (n.part g.contact k p y) p
        else pure (n.part g.contact k p y)
      return (decide (k.presence.erase p = []), n)) := by
    rw [deletePresence, hfound]
    simp only [bind, Except.bind, fetch_eq hk, getBy_eq hkeys, hp, Option.map_some]
    rw [fetch_eq (show n₁.presences p = some y from hy)]
    simp only
    rw [show getBy pick sameUrl (n.setContact g.contact _).signatureKey k.url y.signature = _
      from htake]
    simp only
    rw [hwithout, show y.signature.erase g = _ from congrArg Presence.signature hwithout]
    rfl
  rw [hstart, Notify.unlink]
  split_ifs with hnil
  · rw [purePresence_eq (h.part hk hy) part_self hnil]
    rfl
  · rfl

variable (pick contact to_) in
/-- **A presence of a contact goes**: no presence stays without a signature, and a contact that is
to go as well has signed nothing any more. -/
lemma deletePresence_spec (h : Sound n) (hsigning : Signing n) (hx : n.subscribes s = some x) :
    ∃ go n', deletePresence pick n s contact to_ = .ok (go, n') ∧ Sound n' ∧ Signing n' ∧
      n'.subscribe = n.subscribe ∧ n'.subscribes = n.subscribes ∧
      (∀ d, n'.contactUrl d = n.contactUrl d) ∧
      (go = true → ∃ c, findContact pick n s contact = .ok (some c) ∧
        ∀ p y, n'.presences p = some y → c ∉ y.signers) := by
  cases hfind : picked pick sameUrl n.contactUrl contact x.contact with
  | none =>
      rw [deletePresence, findContact_eq h.toOwned hx, hfind]
      exact ⟨false, n, rfl, h, hsigning, rfl, rfl, fun _ => rfl, by simp⟩
  | some c =>
      have hfound : findContact pick n s contact = .ok (some c) := by
        rw [findContact_eq h.toOwned hx, hfind]
      obtain ⟨-, k, hk⟩ := h.found_contact hx hfound
      cases hp : picked pick sameUrl n.presenceUrl to_ k.presence with
      | none =>
          have hkeys : ∀ p ∈ k.presence, n.presenceKey p = .ok (n.presenceUrl p) := fun p hp => by
            obtain ⟨y, hy, -⟩ := h.referred hk hp
            exact presenceKey_eq hy
          rw [deletePresence, hfound]
          simp only [bind, Except.bind, fetch_eq hk, getBy_eq hkeys, hp, Option.map_none]
          exact ⟨false, n, rfl, h, hsigning, rfl, rfl, fun _ => rfl, by simp⟩
      | some p =>
          obtain ⟨y, hy, -⟩ := h.referred hk (picked_some hp).1
          refine ⟨_, _, deletePresence_eq h hk hfound hp hy, h.unlink hk hy, hsigning.unlink,
            ?_, ?_, fun d => ?_, fun hgo => ⟨c, hfound, fun q y' hq => ?_⟩⟩
          · rw [Notify.unlink]
            split_ifs <;> rfl
          · rw [Notify.unlink]
            split_ifs <;> rfl
          · have hurl : (n.unlink c k p y).contactUrl d = (n.part c k p y).contactUrl d := by
              rw [Notify.unlink]
              split_ifs <;> rfl
            have hset : (n.setContact c { k with presence := k.presence.erase p }).contactUrl =
                n.contactUrl := contactUrl_setContact hk rfl
            exact hurl.trans (congrFun hset d)
          · exact unlink_unsigned h hk hy (of_decide_eq_true hgo) hq

end SipEcho
