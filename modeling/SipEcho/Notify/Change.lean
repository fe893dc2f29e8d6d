import SipEcho.Notify.Refinement

/-!
Who is told what, over sequences of calls.

* `Watch.Told`: the notes that a call may make, in terms of who watches whom;
* `Refines.change`: **`notify_change` tells everybody who watches the target**, each once, and
  nobody else;
* `notify_run_told`: so does every call of a sequence, and the notes of all of them are numbered
  one after the other.
-/

namespace SipEcho

open Lib

variable {status : NotifyStatus} {pick : Pick} {caller : NotifyCaller} {n n' : Notify} {w : Watch}
  {f c t to_ : SipAddress} {id : SipCallId} {p : ℕ} {y : Presence} {url : SipUri}

/-! ### What calls mean -/

namespace Watch

/-- What a call means. -/
def call (w : Watch) : NotifyCall → Watch
  | .delete pick from_ contact to_ => w.step (.delete pick from_ contact to_)
  | .update pick _ from_ contact to_ id => w.step (.update pick from_ contact to_ id)
  | .change .. => w

/-- The calls the store can take. -/
def AdmitsCall (w : Watch) : NotifyCall → Prop
  | .delete pick from_ contact to_ => w.Admits (.delete pick from_ contact to_)
  | .update pick _ from_ contact to_ id => w.Admits (.update pick from_ contact to_ id)
  | .change _ _ to_ => ∀ t, to_ = some t → t.Named

/-- Every call of a sequence is one the store can take. -/
def AllAdmitCalls : Watch → List NotifyCall → Prop
  | _, [] => True
  | w, call :: calls => w.AdmitsCall call ∧ AllAdmitCalls (w.call call) calls

/-- Everybody who watches the target is told so, each once, and nobody else is. -/
structure ToldAll (w : Watch) (status : NotifyStatus) (caller : NotifyCaller) (number : ℕ)
    (t : SipAddress) (notes : List SipQuery) : Prop where
  all : ∀ {f c id}, f.Named → c.Named → w f c t = some id →
    ∃ i, ∃ note : SipQuery, notes[i]? = some note ∧
      note.Tells status caller (number + i + 1) f c t id
  only : ∀ {i : ℕ} {note : SipQuery}, notes[i]? = some note →
    ∃ f c id, f.Named ∧ c.Named ∧ w f c t = some id ∧
      note.Tells status caller (number + i + 1) f c t id
  once : notes.Pairwise fun a b => ¬ sameUrl { url := a.request } { url := b.request }

/-- **The notes of a call**, when `number` notes were made before. -/
def Told (w : Watch) (status : NotifyStatus) (number : ℕ) : NotifyCall → List SipQuery → Prop
  | .update _ caller (some from_) (some contact) (some to_) (some id), notes =>
      ∃ note, notes = [note] ∧ note.Tells status caller (number + 1) from_ contact to_ id
  | .change _ caller (some to_), notes => w.ToldAll status caller number to_ notes
  | _, notes => notes = []

/-- The notes of a sequence of calls. -/
def AllTold (status : NotifyStatus) : Watch → ℕ → List NotifyCall → List (List SipQuery) → Prop
  | _, _, [], notes => notes = []
  | _, _, _ :: _, [] => False
  | w, number, call :: calls, notes :: rest =>
      w.Told status number call notes ∧
        AllTold status (w.call call) (number + notes.length) calls rest

end Watch

/-! ### The notes to those who signed -/

/-- The store where the next note has another number. -/
lemma Sound.of_sequence (h : Sound n) (r : ℕ) : Sound { n with sequence := r } :=
  ⟨h.toSigned.of_eq rfl rfl,
    ⟨h.subscribe_nodup, h.subscribe_live, h.contact_nodup, h.contact_live, h.owner⟩,
    ⟨h.presence_live, h.presence_stored, h.presence_apart, h.named⟩, h.free⟩

variable (status caller) in
/-- **The loop of `notify_change`** makes one note for each signature. -/
lemma changeNotes_eq {gs : List Signature} (hy : n.presences p = some y)
    (hurl : y.url.url = some url) (hlive : ∀ g ∈ gs, ∃ k, n.contacts g.contact = some k)
    (number : ℕ) :
    ∃ notes, changeNotes status caller p gs { n with sequence := number } =
        .ok (notes, { n with sequence := number + notes.length }) ∧
      notes.length = gs.length ∧
      ∀ i g, gs[i]? = some g → ∃ k, n.contacts g.contact = some k ∧
        notes[i]? = some (notifyNote status caller (number + i + 1) k g y.url url) := by
  induction gs generalizing number with
  | nil => exact ⟨[], rfl, rfl, fun i g hg => by cases hg⟩
  | cons g gs ih =>
      obtain ⟨k, hk⟩ := hlive g List.mem_cons_self
      obtain ⟨notes, hnotes, hlength, hall⟩ :=
        ih (fun b hb => hlive b (List.mem_cons_of_mem _ hb)) (number + 1)
      refine ⟨notifyNote status caller (number + 1) k g y.url url :: notes, ?_,
        congrArg (· + 1) hlength, fun i b hb => ?_⟩
      · have hmake : makeNote status caller { n with sequence := number } p g g.contact =
            .ok (notifyNote status caller (number + 1) k g y.url url,
              { n with sequence := number + 1 }) := makeNote_eq hk hy hurl
        rw [changeNotes, hmake]
        simp only [bind, Except.bind, hnotes, List.length_cons]
        rw [show number + 1 + notes.length = number + (notes.length + 1) by omega]
        rfl
      · cases i with
        | zero =>
            obtain rfl : g = b := Option.some.inj hb
            exact ⟨k, hk, rfl⟩
        | succ i =>
            obtain ⟨l, hl, hnote⟩ := hall i b hb
            refine ⟨l, hl, ?_⟩
            rw [List.getElem?_cons_succ, hnote]
            congr 2
            omega

/-! ### No note is made of a deletion -/

lemma foldlM_sequence {α : Type} {step : Notify → α → Except Fault Notify} {l : List α}
    (hstep : ∀ n a n', step n a = .ok n' → n'.sequence = n.sequence)
    (h : l.foldlM step n = .ok n') : n'.sequence = n.sequence := by
  induction l generalizing n with
  | nil =>
      cases h
      rfl
  | cons a l ih =>
      rw [List.foldlM_cons] at h
      obtain ⟨n₁, h₁, h⟩ := ok_of_bind h
      rw [ih h, hstep n a n₁ h₁]

lemma contactUnref_sequence {d : ℕ} (h : contactUnref pick d n p = .ok n') :
    n'.sequence = n.sequence := by
  obtain ⟨y, -, h⟩ := ok_of_bind h
  obtain ⟨k, -, h⟩ := ok_of_bind h
  obtain ⟨r, -, h⟩ := ok_of_bind h
  rcases r with _ | ⟨g, rest⟩ <;> cases h <;> rfl

lemma contactFree_sequence {d : ℕ} (h : contactFree pick n d = .ok n') :
    n'.sequence = n.sequence := by
  obtain ⟨k, -, h⟩ := ok_of_bind h
  obtain ⟨n₁, hn₁, h⟩ := ok_of_bind h
  cases h
  exact (foldlM_sequence (fun m q m' hm => contactUnref_sequence hm) hn₁ :)

lemma subscribeFree_sequence {s : ℕ} (h : subscribeFree pick n s = .ok n') :
    n'.sequence = n.sequence := by
  obtain ⟨x, -, h⟩ := ok_of_bind h
  obtain ⟨n₁, hn₁, h⟩ := ok_of_bind h
  cases h
  exact (foldlM_sequence (fun m d m' hm => contactFree_sequence hm) hn₁ :)

lemma deleteSubscribe_sequence {from_ : SipAddress} (h : deleteSubscribe pick n from_ = .ok n') :
    n'.sequence = n.sequence := by
  obtain ⟨r, -, h⟩ := ok_of_bind h
  rcases r with _ | ⟨s, rest⟩
  · cases h
    rfl
  · exact (subscribeFree_sequence h :)

lemma deleteContact_sequence {from_ contact : SipAddress} {s : ℕ}
    (h : deleteContact pick n from_ s contact = .ok n') : n'.sequence = n.sequence := by
  obtain ⟨x, -, h⟩ := ok_of_bind h
  obtain ⟨r, -, h⟩ := ok_of_bind h
  rcases r with _ | ⟨d, rest⟩
  · cases h
    rfl
  · obtain ⟨n₁, hfree, h⟩ := ok_of_bind h
    have hsame : n₁.sequence = n.sequence := (contactFree_sequence hfree :)
    split at h
    · rw [deleteSubscribe_sequence h, hsame]
    · cases h
      exact hsame

lemma presenceUnref_sequence {g : Signature} (h : presenceUnref pick p n g = .ok n') :
    n'.sequence = n.sequence := by
  obtain ⟨k, -, h⟩ := ok_of_bind h
  obtain ⟨y, -, h⟩ := ok_of_bind h
  obtain ⟨r, -, h⟩ := ok_of_bind h
  rcases r with _ | ⟨b, rest⟩ <;> cases h <;> rfl

lemma purePresence_sequence (h : purePresence pick n p = .ok n') : n'.sequence = n.sequence := by
  obtain ⟨u, -, h⟩ := ok_of_bind h
  obtain ⟨r, -, h⟩ := ok_of_bind h
  rcases r with _ | ⟨q, rest⟩
  · cases h
    rfl
  · obtain ⟨y, -, h⟩ := ok_of_bind h
    obtain ⟨n₁, hn₁, h⟩ := ok_of_bind h
    cases h
    exact (foldlM_sequence (fun m g m' hm => presenceUnref_sequence hm) hn₁ :)

lemma deletePresence_sequence {contact : SipAddress} {s : ℕ} {go : Bool}
    (h : deletePresence pick n s contact to_ = .ok (go, n')) : n'.sequence = n.sequence := by
  obtain ⟨r, -, h⟩ := ok_of_bind h
  rcases r with _ | d
  · cases h
    rfl
  obtain ⟨k, -, h⟩ := ok_of_bind h
  obtain ⟨r, -, h⟩ := ok_of_bind h
  rcases r with _ | ⟨p, rest⟩
  · cases h
    rfl
  obtain ⟨y, -, h⟩ := ok_of_bind h
  obtain ⟨r, -, h⟩ := ok_of_bind h
  rcases r with _ | ⟨g, signature⟩
  · cases h
    rfl
  dsimp only at h
  split at h
  · obtain ⟨n₁, hn₁, h⟩ := ok_of_bind h
    cases h
    exact (purePresence_sequence hn₁ :)
  · cases h
    rfl

/-- `notify_delete` makes no note. -/
lemma notifyDelete_sequence {from_ contact to_ : Option SipAddress} {r : ℤ}
    (h : notifyDelete pick n from_ contact to_ = .ok (r, n')) : n'.sequence = n.sequence := by
  rcases from_ with _ | from_
  · cases h
    rfl
  rcases contact with _ | contact
  · obtain ⟨n₁, hn₁, h⟩ := ok_of_bind h
    cases h
    exact deleteSubscribe_sequence hn₁
  obtain ⟨found, -, h⟩ := ok_of_bind h
  rcases found with _ | s
  · cases h
    rfl
  rcases to_ with _ | to_
  · obtain ⟨n₁, hn₁, h⟩ := ok_of_bind h
    cases h
    exact deleteContact_sequence hn₁
  obtain ⟨⟨go, n₁⟩, hn₁, h⟩ := ok_of_bind h
  have hsame := deletePresence_sequence hn₁
  cases go with
  | false =>
      cases h
      exact hsame
  | true =>
      obtain ⟨n₂, hn₂, h⟩ := ok_of_bind h
      cases h
      rw [deleteContact_sequence hn₂, hsame]

namespace Refines

/-- **The notes to those who have signed the target** are those to who watches it. -/
lemma toldAll (h : Refines n w) (hto : to_.Named) (hy : n.presences p = some y)
    (hsame : sameUrl to_ y.url) (hurl : y.url.url = some url) {notes : List SipQuery} {number : ℕ}
    (hlength : notes.length = y.signature.length)
    (hall : ∀ i g, y.signature[i]? = some g → ∃ k, n.contacts g.contact = some k ∧
      notes[i]? = some (notifyNote status caller (number + i + 1) k g y.url url)) :
    w.ToldAll status caller number to_ notes := by
  have hnote {i : ℕ} {note : SipQuery} (hi : notes[i]? = some note) :
      ∃ g k, y.signature[i]? = some g ∧ n.contacts g.contact = some k ∧
        note = notifyNote status caller (number + i + 1) k g y.url url := by
    have hlt : i < y.signature.length := hlength ▸ (List.getElem?_eq_some_iff.mp hi).1
    obtain ⟨k, hk, hgk⟩ := hall i _ (List.getElem?_eq_getElem hlt)
    exact ⟨_, k, List.getElem?_eq_getElem hlt, hk, Option.some.inj (hi.symm.trans hgk)⟩
  constructor
  · intro f c id hf hc hw
    obtain ⟨d, ⟨k, hk, hfk, hck⟩, q, z, hz, htz, g, hg, hgd, hgi⟩ := (h.watch hf hc hto id).mp hw
    obtain rfl := presence_unique h.sound hto hy hz hsame htz
    obtain rfl : y = z := Option.some.inj (hy.symm.trans hz)
    obtain ⟨i, hi, rfl⟩ := List.mem_iff_getElem.mp hg
    obtain ⟨l, hl, hnote⟩ := hall i _ (List.getElem?_eq_getElem hi)
    obtain rfl : k = l := Option.some.inj ((hgd ▸ hk).symm.trans hl)
    refine ⟨i, _, hnote, k, _, y.url, url, rfl, hurl, ?_, hck, hsame, hgi⟩
    obtain ⟨hsigner, -⟩ := h.known.signer hy hg hl
    exact sameUrl_trans (h.known.subscribe_named (h.sound.owner hk).1) hfk
      (sameUrl_symm _ _ hsigner)
  · intro i note hi
    obtain ⟨g, k, hg, hk, rfl⟩ := hnote hi
    have hmem : g ∈ y.signature := List.mem_of_getElem? hg
    obtain ⟨hsigner, hnamed⟩ := h.known.signer hy hmem hk
    have hkurl := h.known.contact_named hk
    refine ⟨g.url, k.url, g.id, hnamed, hkurl, (h.watch hnamed hkurl hto g.id).mpr
      ⟨g.contact, ⟨k, hk, hsigner, sameUrl_refl _⟩, p, y, hy, hsame, g, hmem, rfl, rfl⟩,
      k, g, y.url, url, rfl, hurl, sameUrl_refl _, sameUrl_refl _, hsame, rfl⟩
  · refine List.pairwise_iff_getElem.mpr fun i j hi hj hij hreq => ?_
    obtain ⟨g, k, hg, hk, hgk⟩ := hnote (List.getElem?_eq_getElem hi)
    obtain ⟨b, l, hb, hl, hbl⟩ := hnote (List.getElem?_eq_getElem hj)
    rw [hgk, hbl] at hreq
    have hapart := List.pairwise_map.mp (h.sound.apart hy)
    have hne := List.pairwise_iff_getElem.mp hapart i j (hlength ▸ hi) (hlength ▸ hj) hij
    rw [(List.getElem?_eq_some_iff.mp hg).2, (List.getElem?_eq_some_iff.mp hb).2,
      contactUrl_eq hk, contactUrl_eq hl] at hne
    exact hne hreq

/-- **`notify_change` tells everybody who watches the target.** -/
lemma change (h : Refines n w) (status : NotifyStatus) (pick : Pick) (caller : NotifyCaller)
    (hto : to_.Named) :
    ∃ notes, notifyChange status pick caller n (some to_) =
        .ok (0, notes, { n with sequence := n.sequence + notes.length }) ∧
      w.ToldAll status caller n.sequence to_ notes := by
  have hkeys : ∀ q ∈ n.presence, n.presenceKey q = .ok (n.presenceUrl q) := fun q hq => by
    obtain ⟨y, hy⟩ := h.sound.presence_live hq
    exact presenceKey_eq hy
  cases hp : picked pick sameUrl n.presenceUrl to_ n.presence with
  | none =>
      refine ⟨[], ?_, ⟨fun {f c id} hf hc hw => ?_, fun {i note} hi => ?_, List.Pairwise.nil⟩⟩
      · rw [notifyChange]
        simp only [bind, Except.bind, findBy_eq hkeys, hp]
        rfl
      · obtain ⟨d, -, q, z, hz, htz, -⟩ := (h.watch hf hc hto id).mp hw
        refine absurd ?_ (picked_none hp q (h.sound.presence_stored hz))
        rwa [presenceUrl_eq hz]
      · cases hi
  | some p =>
      obtain ⟨hmem, hsame⟩ := picked_some hp
      obtain ⟨y, hy⟩ := h.sound.presence_live hmem
      rw [presenceUrl_eq hy] at hsame
      obtain ⟨url, hurl⟩ := Option.isSome_iff_exists.mp (h.sound.named hy)
      obtain ⟨notes, hnotes, hlength, hall⟩ := changeNotes_eq status caller hy hurl (fun g hg => by
          obtain ⟨k, hk, -⟩ := h.sound.signed hy (List.mem_map_of_mem hg)
          exact ⟨k, hk⟩) n.sequence
      refine ⟨notes, ?_, h.toldAll hto hy hsame hurl hlength hall⟩
      rw [notifyChange]
      simp only [bind, Except.bind, findBy_eq hkeys, hp, fetch_eq hy]
      rw [hnotes]
      rfl

/-- **One call.** -/
lemma call (h : Refines n w) (status : NotifyStatus) {c : NotifyCall} (hc : w.AdmitsCall c) :
    ∃ notes n', c.step status n = .ok (notes, n') ∧ Refines n' (w.call c) ∧
      n'.sequence = n.sequence + notes.length ∧ w.Told status n.sequence c notes := by
  cases c with
  | delete pick from_ contact to_ =>
      obtain ⟨n', hn', h'⟩ := h.delete hc
      obtain ⟨⟨r, n₁⟩, hdelete, hn'⟩ := ok_of_bind hn'
      cases hn'
      refine ⟨[], n₁, ?_, h', notifyDelete_sequence hdelete, rfl⟩
      rw [NotifyCall.step, hdelete]
      rfl
  | update pick caller from_ contact to_ id =>
      rcases from_ with _ | from_
      · exact ⟨[], n, rfl, h, rfl, rfl⟩
      rcases contact with _ | contact
      · exact ⟨[], n, rfl, h, rfl, rfl⟩
      rcases to_ with _ | to_
      · exact ⟨[], n, rfl, h, rfl, rfl⟩
      rcases id with _ | id
      · exact ⟨[], n, rfl, h, rfl, rfl⟩
      obtain ⟨note, n', hn', h', hsequence, htells⟩ := h.updateNote status caller hc
      exact ⟨[note], n', by rw [NotifyCall.step, hn']; rfl, h', hsequence, note, rfl, htells⟩
  | change pick caller to_ =>
      rcases to_ with _ | to_
      · exact ⟨[], n, rfl, h, rfl, rfl⟩
      obtain ⟨notes, hn', htold⟩ := h.change status pick caller (hc to_ rfl)
      exact ⟨notes, _, by rw [NotifyCall.step, hn']; rfl, h.of_sequence _, rfl, htold⟩

/-- **A sequence of calls.** -/
lemma calls (h : Refines n w) (status : NotifyStatus) {cs : List NotifyCall}
    (hcs : w.AllAdmitCalls cs) :
    ∃ notes n', NotifyCall.run status n cs = .ok (notes, n') ∧
      Refines n' (cs.foldl Watch.call w) ∧ n'.sequence = n.sequence + notes.flatten.length ∧
      Watch.AllTold status w n.sequence cs notes := by
  induction cs generalizing n w with
  | nil => exact ⟨[], n, rfl, h, rfl, rfl⟩
  | cons c cs ih =>
      obtain ⟨notes, n₁, hstep, h₁, hsequence, htold⟩ := h.call status hcs.1
      obtain ⟨rest, n', hrun, h', hsequence', hrest⟩ := ih h₁ hcs.2
      refine ⟨notes :: rest, n', ?_, h', ?_, htold, hsequence ▸ hrest⟩
      · rw [NotifyCall.run, hstep]
        simp only [bind, Except.bind, hrun]
        rfl
      · rw [hsequence', hsequence, List.flatten_cons, List.length_append, Nat.add_assoc]

end Refines

/-- A subscriber watches a presence that is online, with one of its contacts. -/
def watchesNote (from_ contact to_ : UInt8) : NotifyCall :=
  .update firstPick ⟨1, fun _ => []⟩ (addressOf from_) (addressOf contact) (addressOf to_) (some {})

/-- A presence goes offline. -/
def changes (to_ : UInt8) : NotifyCall :=
  .change firstPick ⟨0, fun _ => []⟩ (addressOf to_)

namespace WatchTable

/-- What a call means. -/
def call (l : WatchTable) : NotifyCall → WatchTable
  | .delete pick from_ contact to_ => l.step (.delete pick from_ contact to_)
  | .update pick _ from_ contact to_ id => l.step (.update pick from_ contact to_ id)
  | .change .. => l

/-- The calls the store can take, computed. -/
def admitsCall (l : WatchTable) : NotifyCall → Bool
  | .delete pick from_ contact to_ => l.admits (.delete pick from_ contact to_)
  | .update pick _ from_ contact to_ id => l.admits (.update pick from_ contact to_ id)
  | .change _ _ to_ => to_.all fun t => t.url.isSome

def allAdmitCalls (l : WatchTable) : List NotifyCall → Bool
  | [] => true
  | c :: calls => l.admitsCall c && allAdmitCalls (l.call c) calls

variable {l : WatchTable}

lemma admitsCall_sound (h : w.Listed l) {c : NotifyCall} (hc : l.admitsCall c) :
    w.AdmitsCall c ∧ (w.call c).Listed (l.call c) := by
  cases c with
  | delete => exact ⟨admits_sound h hc, h.step (admits_sound h hc)⟩
  | update => exact ⟨admits_sound h hc, h.step (admits_sound h hc)⟩
  | change pick caller to_ =>
      refine ⟨?_, h⟩
      rintro t rfl
      exact hc

lemma allAdmitCalls_sound (h : w.Listed l) {calls : List NotifyCall}
    (hcalls : l.allAdmitCalls calls) : w.AllAdmitCalls calls := by
  induction calls generalizing w l with
  | nil => trivial
  | cons c calls ih =>
      rw [allAdmitCalls, Bool.and_eq_true] at hcalls
      obtain ⟨hc, h'⟩ := admitsCall_sound h hcalls.1
      exact ⟨hc, ih h' hcalls.2⟩

end WatchTable

/-- Two subscribers, one of them with two contacts, watch a target; it changes, the subscriber with
two contacts goes, and it changes again. -/
def tidings : List NotifyCall :=
  [watchesNote 97 120 116, watchesNote 97 121 116, watchesNote 98 122 116, watchesNote 98 122 117,
    changes 116, .delete firstPick (addressOf 97) none none, changes 116]

end SipEcho
