import SipEcho.Sip.Bookkeeping

/-!
The bus answers under the uuid of a query, and may do so at any time.

* `Issued x s`: the session is that of a server transaction, held or gone;
* `Issued.kept`, `Issued.run`: **it stays so**, whatever happens: neither its transaction nor its
  uuid is given to another;
* `replies_reach_their_transaction`: **a reply executes the transaction that made the query**, or
  does nothing.
-/

namespace SipEcho.Transactions

variable {s s' : Sip} {x : Session} {a : Transaction} {id n c : ℕ} {accepted : Bool}

/-! ### Sessions by their keys -/

/-- Two sessions that agree in a key are one. -/
lemma session_unique {ses : Sessions} {y : Session} (hx : x ∈ ses.list) (hy : y ∈ ses.list)
    (hkey : y.id = x.id ∨ y.uuid = x.uuid) : y = x := by
  by_contra hne
  have hsymm : Std.Symm Session.Apart := ⟨fun _ _ h => ⟨h.1.symm, h.2.symm⟩⟩
  obtain ⟨hid, huuid⟩ := ses.apart.forall hy hx hne
  exact hkey.elim hid huuid

lemma byId_of_mem {ses : Sessions} (hx : x ∈ ses.list) : ses.byId x.id = some x := by
  obtain ⟨y, hy⟩ := Option.isSome_iff_exists.mp (Sessions.byId_isSome.mpr ⟨x, hx, rfl⟩)
  have hid : y.id = x.id := by simpa using List.find?_some hy
  rw [hy, session_unique hx (List.mem_of_find?_eq_some hy) (.inl hid)]

/-- A session is found by its uuid. -/
lemma sessionFind_of_mem {ses : Sessions} (hx : x ∈ ses.list) :
    cmdSessionFind ses x.uuid = some x.id := by
  rw [cmdSessionFind]
  cases h : ses.list.find? fun y => y.uuid = x.uuid with
  | none => exact absurd (decide_eq_true rfl) (List.find?_eq_none.mp h x hx)
  | some y =>
      have huuid : y.uuid = x.uuid := by simpa using List.find?_some h
      rw [session_unique hx (List.mem_of_find?_eq_some h) (.inr huuid)]
      rfl

lemma sessionGet_mem_list {ses : Sessions} {memory : Bool} {uuid : Uuid} (hx : x ∈ ses.list) :
    x ∈ (cmdSessionGet ses memory uuid id).2.list := by
  rw [cmdSessionGet]
  split
  · exact hx
  · split
    · rename_i hp
      obtain ⟨-, -, hl⟩ := Sessions.push_eq_some.mp hp
      rw [hl]
      exact List.mem_cons_of_mem _ hx
    · exact hx

/-! ### The sessions of server transactions -/

/-- The session is that of a server transaction, held or gone. -/
structure Issued (x : Session) (s : Sip) : Prop where
  mem : x ∈ s.sessions.list
  id_lt : x.id < s.next
  server : ∀ a ∈ s.held, a.id = x.id → a.closure = none

namespace Issued

/-- Destroying a client transaction takes the session of that one away. -/
lemma destroy (h : Issued x s) (hd : sipDestroy id s = .ok s') : Issued x s' := by
  have hheld {b : Transaction} {s : Sip} (hb : b ∈ (s.remove id).held) : b ∈ s.held :=
    (List.mem_filter.mp hb).1
  obtain ⟨a, hfind, ⟨-, rfl⟩ | ⟨c, hc, ⟨-, rfl⟩ | ⟨-, rfl⟩⟩⟩ := sipDestroy_cases hd
  · exact ⟨h.mem, h.id_lt, fun b hb => h.server b (hheld hb)⟩
  · exact ⟨h.mem, h.id_lt, h.server⟩
  · have hne : x.id ≠ id := fun heq => by
      have := h.server a (Sip.mem_of_find hfind) ((Sip.find_id hfind).trans heq.symm)
      rw [hc] at this
      cases this
    exact ⟨List.mem_filter.mpr ⟨h.mem, decide_eq_true hne⟩, h.id_lt,
      fun b hb => h.server b (hheld hb)⟩

/-- A new transaction has another id. -/
lemma create (h : Issued x s) (hid : a.id = s.next) : Issued x (s.create a) where
  mem := h.mem
  id_lt := Nat.lt_succ_of_lt h.id_lt
  server b hb hbx := by
    rcases List.mem_cons.mp hb with rfl | hb
    · exact absurd (hid.symm.trans hbx) h.id_lt.ne'
    · exact h.server b hb hbx

lemma modify (h : Issued x s) {f : Transaction → Transaction}
    (hf : ∀ a, (f a).id = a.id ∧ (f a).closure = a.closure) : Issued x (s.modify id f) where
  mem := h.mem
  id_lt := h.id_lt
  server b hb hbx := by
    obtain ⟨d, hd, rfl⟩ := List.mem_map.mp hb
    split at hbx
    · rename_i hid
      rw [if_pos hid, (hf d).2]
      exact h.server d hd ((hf d).1.symm.trans hbx)
    · rename_i hid
      rw [if_neg hid]
      exact h.server d hd hbx

lemma execute (h : Issued x s) {o : Outcome} :
    Issued x { s.modify a.id o.execute with sessions := o.sessions a s.sessions } where
  mem := by
    show x ∈ (o.sessions a s.sessions).list
    rw [Outcome.sessions]
    split
    · exact sessionGet_mem_list h.mem
    · exact h.mem
  id_lt := h.id_lt
  server := (h.modify (f := o.execute) fun _ => ⟨rfl, rfl⟩).server

/-- **Every call keeps the session.** -/
lemma kept (x : Session) : Kept False fun _ s => Issued x s where
  destroyed h _ hd := h.destroy hd
  taken h _ := ⟨h.mem, h.id_lt, h.server⟩
  dropped h _ := ⟨h.mem, h.id_lt, h.server⟩
  made h hid _ := h.create hid
  entered h _ _ _ := ⟨h.mem, h.id_lt, h.server⟩
  lost _ h := h
  executed h _ := h.execute
  retried h := h.modify fun _ => ⟨rfl, rfl⟩
  accepted h := ⟨h.mem, h.id_lt, h.server⟩

/-! ### Requests of the bus -/

lemma relayFailed (h : Issued x s) (hf : relayFailed n s = .ok (accepted, s')) : Issued x s' := by
  rw [Transactions.relayFailed] at hf
  split at hf
  · cases hf
  · split at hf
    · obtain ⟨s₁, h₁, hf⟩ := Lib.ok_of_bind hf
      obtain ⟨-, rfl⟩ := Prod.mk.inj (Except.ok.inj hf)
      exact (kept x).free h False.elim h₁
    · obtain ⟨-, rfl⟩ := Prod.mk.inj (Except.ok.inj hf)
      exact h

lemma route (h : Issued x s) {r : RelayAnswer} {s₀ : Sip} {i : Option ℕ}
    (hroute : r.route s = (i, s₀)) : Issued x s₀ := by
  rcases route_cases hroute with rfl | rfl
  · exact h
  · exact ⟨h.mem, h.id_lt, h.server⟩

lemma relayRun (h : Issued x s) {r : RelayAnswer} {s₁ s₂ s₃ : Sip}
    (hrun : RelayRun r c n s s₁ s₂ s₃) : Issued x s₃ :=
  (kept x).update ((kept x).loopNew (w := r.loop) (h.create (a := relayTransaction r c n s) rfl)
    False.elim hrun.push hrun.calls) hrun.update

lemma relay (h : Issued x s) {r : RelayAnswer} {uuid : Uuid}
    (hr : sipRelay r c uuid s = .ok (accepted, s')) : Issued x s' := by
  cases sipRelay_cases hr with
  | refused => exact h
  | unrouted hroute => exact h.route hroute
  | failed hforwards hroute hnone hfailed => exact (h.route hroute).relayFailed hfailed
  | stranded hforwards hroute hmade hrun => exact (h.route hroute).relayRun hrun
  | registered hforwards hroute hmade hrun hadd =>
      have h₃ := (h.route hroute).relayRun hrun
      obtain ⟨-, -, hl⟩ := Sessions.push_eq_some.mp hadd
      exact ⟨by rw [hl]; exact List.mem_cons_of_mem _ h₃.mem, h₃.id_lt, h₃.server⟩

lemma reject (h : Issued x s) {code : Option ℕ} : Issued x (s.reject c code) :=
  ⟨h.mem, h.id_lt, h.server⟩

lemma request (h : Issued x s) {q : BusRequest} (hq : cmdMaintainRequest q s = .ok s') :
    Issued x s' := by
  have harrive : Issued x { s with requests := s.requests + 1 } := ⟨h.mem, h.id_lt, h.server⟩
  cases cmdMaintainRequest_cases hq with
  | unread => exact h
  | replied htoken hreply h₁ => exact ((kept x).finalise harrive False.elim h₁).reject
  | rejected code => exact harrive.reject
  | @relayed r accepted s₁ htoken hreply hconverts hrelay h₁ =>
      cases accepted with
      | true => exact harrive.relay h₁
      | false => exact (harrive.relay h₁).reject

/-- **The session stays, whatever happens.** -/
lemma run (h : Issued x s) {ops : List SipOp} (hr : sipRun s ops = .ok s') : Issued x s' := by
  induction ops generalizing s with
  | nil =>
      obtain rfl := Except.ok.inj hr
      exact h
  | cons op ops ih =>
      obtain ⟨s₁, h₁, hr⟩ := Lib.ok_of_bind hr
      exact ih ((kept x).step h False.elim (fun _ _ hq => h.request hq) h₁) hr

end Issued

/-! ### A reply -/

/-- Nothing but a server transaction changes, and no closure is called. -/
structure Alone (id : ℕ) (s s' : Sip) : Prop where
  others : ∀ i, i ≠ id → s'.find i = s.find i
  answers : s'.answers = s.answers
  rejected : s'.rejected = s.rejected
  deleted : s'.deleted = s.deleted

lemma Alone.refl (id : ℕ) (s : Sip) : Alone id s s := ⟨fun _ _ => rfl, rfl, rfl, rfl⟩

lemma Alone.trans {s₁ : Sip} (h₁ : Alone id s s₁) (h₂ : Alone id s₁ s') : Alone id s s' where
  others i hi := (h₂.others i hi).trans (h₁.others i hi)
  answers := h₂.answers.trans h₁.answers
  rejected := h₂.rejected.trans h₁.rejected
  deleted := h₂.deleted.trans h₁.deleted

lemma Alone.delete (hfind : s.find id = some a) (hc : a.closure = none)
    (h : sipDelete id s = .ok s') : Alone id s s' := by
  obtain ⟨b, -, -, hd⟩ := sipDelete_cases h
  obtain ⟨d, hfind', ⟨-, rfl⟩ | ⟨c, hc', -⟩⟩ := sipDestroy_cases hd
  · exact ⟨fun i hi => by rw [find_remove, if_neg hi, find_entities], rfl, rfl, rfl⟩
  · rw [find_entities, hfind] at hfind'
    rw [← Option.some.inj hfind', hc] at hc'
    cases hc'

/-- **What `sip_call` does with a server transaction** is that one's own. -/
lemma Alone.call {o : Outcome} {ended : Bool} (hfind : s.find a.id = some a)
    (hc : a.closure = none) (h : sipCall a.id o s = .ok (ended, s')) : Alone a.id s s' := by
  have hexec : Alone a.id s
      { s.modify a.id o.execute with sessions := o.sessions a s.sessions } := by
    refine ⟨fun i hi => ?_, rfl, rfl, rfl⟩
    show (s.modify a.id o.execute).find i = _
    rw [find_modify (f := o.execute) fun _ => rfl]
    cases hb : s.find i with
    | none => rfl
    | some b =>
        have hne : b.id ≠ a.id := fun heq => hi ((Sip.find_id hb).symm.trans heq)
        rw [Option.map_some, if_neg hne]
  rw [sipCall] at h
  simp only [hfind] at h
  split at h
  · obtain ⟨s₁, h₁, h⟩ := Lib.ok_of_bind h
    obtain ⟨-, rfl⟩ := Prod.mk.inj (Except.ok.inj h)
    exact hexec.trans (.delete (execute_find hfind) hc h₁)
  · obtain ⟨-, rfl⟩ := Prod.mk.inj (Except.ok.inj h)
    exact hexec

lemma Alone.update {quiet : Bool} (h : netEventUpdate n quiet s = .ok s') : Alone id s s' := by
  rw [netEventUpdate] at h
  cases hnet : s.net n with
  | none =>
      rw [hnet] at h
      cases h
  | some e =>
      simp only [hnet] at h
      split at h
      · rename_i hidle
        rw [netEventFree, hnet] at h
        simp only [hidle.2.2] at h
        obtain rfl := Except.ok.inj h
        exact ⟨fun _ _ => rfl, rfl, rfl, rfl⟩
      · obtain rfl := Except.ok.inj h
        exact .refl id s

lemma Alone.callUpdate {o : Outcome} {quiet : Bool} (hfind : s.find a.id = some a)
    (hc : a.closure = none)
    (h : (do
      let (_, s) ← sipCall a.id o s
      netEventUpdate a.net quiet s) = .ok s') : Alone a.id s s' := by
  obtain ⟨⟨ended, s₁⟩, h₁, h⟩ := Lib.ok_of_bind h
  exact (Alone.call hfind hc h₁).trans (.update h)

/-- **A reply under the uuid of a session** changes the transaction of the session alone, and
nothing if that is gone. -/
lemma Issued.reply (h : Issued x s) {r : BusReply} (hr : r.uuid = x.uuid)
    (hf : cmdFinaliseRequest r s = .ok s') :
    Alone x.id s s' ∧ (s.find x.id = none → s' = s) := by
  simp only [cmdFinaliseRequest, sipFinalizeFailure, sipFinalize, hr, sessionFind_of_mem h.mem,
    Option.bind_some] at hf
  cases hfind : s.find x.id with
  | none =>
      simp only [hfind, ite_self] at hf
      obtain rfl := Except.ok.inj hf
      exact ⟨.refl _ _, fun _ => rfl⟩
  | some a =>
      have hid := Sip.find_id hfind
      have hc := h.server a (Sip.mem_of_find hfind) hid
      simp only [hfind] at hf
      rw [← hid] at hfind ⊢
      refine ⟨?_, fun hnone => by cases hnone⟩
      split at hf
      · split at hf
        · exact .callUpdate hfind hc hf
        · exact .delete hfind hc hf
      · split at hf
        · exact .callUpdate hfind hc hf
        · obtain rfl := Except.ok.inj hf
          exact .refl _ _

/-- **A reply executes the transaction that made the query.**  The uuid under which a server
transaction was made known to the bus is its own for ever: every later query of it bears the same,
and a reply under it, however late it comes and whatever happened since, changes no other
transaction, calls no closure, and does nothing at all when the transaction is gone. -/
theorem replies_reach_their_transaction {ops ops' : List SipOp}
    (h : sipRun sipInitial ops = .ok s) (hx : x ∈ s.sessions.list)
    (hserver : ∀ a ∈ s.held, a.id = x.id → a.closure = none) (h' : sipRun s ops' = .ok s') :
    (∀ memory uuid, cmdSessionGet s'.sessions memory uuid x.id = (some x.uuid, s'.sessions)) ∧
      cmdSessionFind s'.sessions x.uuid = some x.id ∧
      ∀ (r : BusReply) (s'' : Sip), r.uuid = x.uuid → cmdFinaliseRequest r s' = .ok s'' →
        Alone x.id s' s'' ∧ (s'.find x.id = none → s'' = s') := by
  have hlt : x.id < s.next :=
    (Answers.initial.run (False.elim : False → _) h).session_lt x.id ⟨x, hx, rfl⟩
  have hissued : Issued x s' := Issued.run ⟨hx, hlt, hserver⟩ h'
  exact ⟨fun memory uuid => sessionGet_of_byId (byId_of_mem hissued.mem),
    sessionFind_of_mem hissued.mem, fun r s'' hr hf => hissued.reply hr hf⟩

/-- Behind the query of an INVITE another request is received and its query published; a request of
the bus is relayed; the other request is answered; the relayed one ends. -/
def meanwhile : List SipOp :=
  [.receive 1 ⟨none, true, true, [{ query := some (true, ⟨3, 4⟩) }]⟩ false,
    .request { relayed [] with uuid := ⟨5, 6⟩ },
    .request ⟨true, some ⟨⟨3, 4⟩, 200, true, true,
      { lastResponse := some 200, ended := true }, false⟩, false, ⟨0, 0⟩, none, 0⟩,
    .redo 3 { lastResponse := some 200, ended := true } false]

/-- The INVITE alone is held then, and the reply is its own. -/
theorem replies_reach_their_transaction_meanwhile :
    ∃ s s', sipRun sipInitial (servedRun.take 2) = .ok s ∧ sipRun s meanwhile = .ok s' ∧
      s'.held.map (·.id) = [1] ∧ s'.next = 4 ∧
      (∀ memory uuid, cmdSessionGet s'.sessions memory uuid 1 = (some ⟨1, 2⟩, s'.sessions)) ∧
      cmdSessionFind s'.sessions ⟨1, 2⟩ = some 1 ∧
      ∀ (r : BusReply) (s'' : Sip), r.uuid = ⟨1, 2⟩ → cmdFinaliseRequest r s' = .ok s'' →
        Alone 1 s' s'' ∧ (s'.find 1 = none → s'' = s') := by
  refine ⟨_, _, rfl, rfl, rfl, rfl, @replies_reach_their_transaction _ _ ⟨1, ⟨1, 2⟩⟩
    (servedRun.take 2) meanwhile rfl (List.mem_singleton.mpr rfl) (fun a ha _ => ?_) rfl⟩
  exact (congrArg Transaction.closure (List.mem_singleton.mp ha)).trans rfl

end SipEcho.Transactions
