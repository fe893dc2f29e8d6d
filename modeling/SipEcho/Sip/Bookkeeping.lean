import SipEcho.Sip.Answers

/-!
Three books are kept on a transaction: osip holds it, its event has it among its entities, and
the map of sessions knows it.

`sip_destroy` takes away the session of a transaction with a closure alone, and frees no such
transaction without a session.

* `Sip.Booked`: every session is that of a transaction osip holds, and every such transaction is
  among the entities of its event;
* `Book ids s`: the same with the transactions `ids` in hand, and what it rests on;
* `transactions_booked`: the books agree in every state of a run of careful steps;
* `answered_session_stays`, `failed_relay_strands`: a session without a transaction, and a
  transaction that no event knows.
-/

namespace SipEcho.Transactions

/-- **The books agree.** -/
structure Sip.Booked (s : Sip) : Prop where
  session_held : ∀ x ∈ s.sessions.list, ∃ a ∈ s.held, a.id = x.id
  entered : ∀ a ∈ s.held, ∃ e ∈ s.nets, e.id = a.net ∧ a.id ∈ e.entities

/-- The books agree but for the transactions `ids`, which are in no map of entities. -/
structure Book (ids : List ℕ) (s : Sip) : Prop where
  id_lt : ∀ a ∈ s.held, a.id < s.next
  id_inj : ∀ a ∈ s.held, ∀ b ∈ s.held, a.id = b.id → a = b
  net_le : ∀ e ∈ s.nets, e.id ≤ s.netId
  net_inj : ∀ e ∈ s.nets, ∀ f ∈ s.nets, e.id = f.id → e = f
  session_held : ∀ i, s.sessions.Has i → ∃ a ∈ s.held, a.id = i
  entered : ∀ a ∈ s.held, a.id ∈ ids ∨ ∃ e ∈ s.nets, e.id = a.net ∧ a.id ∈ e.entities
  entity : ∀ e ∈ s.nets, ∀ i ∈ e.entities, i ∉ ids ∧ ∃ a ∈ s.held, a.id = i ∧ a.net = e.id
  ids_nodup : ids.Nodup
  nodup : ∀ e ∈ s.nets, e.entities.Nodup

namespace Book

variable {s s' : Sip} {ids : List ℕ} {a : Transaction} {e : NetEvent} {id n c : ℕ}
  {accepted : Bool}

lemma booked (h : Book [] s) : s.Booked where
  session_held x hx := h.session_held x.id ⟨x, hx, rfl⟩
  entered a ha := (h.entered a ha).resolve_left List.not_mem_nil

/-- A transaction leaves osip, and its session goes too. -/
lemma remove (h : Book (id :: ids) s) (sessions : Sessions)
    (hses : ∀ i, sessions.Has i → i ≠ id ∧ s.sessions.Has i) :
    Book ids (({ s with sessions } : Sip).remove id) := by
  have hsub : ∀ b ∈ (({ s with sessions } : Sip).remove id).held, b ∈ s.held ∧ b.id ≠ id :=
    fun b hb => by simpa [Sip.remove] using hb
  have hkeep : ∀ b ∈ s.held, b.id ≠ id → b ∈ (({ s with sessions } : Sip).remove id).held :=
    fun b hb hne => by simpa [Sip.remove] using ⟨hb, hne⟩
  obtain ⟨hnotin, hids⟩ := List.nodup_cons.mp h.ids_nodup
  refine
    { id_lt := fun b hb => h.id_lt b (hsub b hb).1
      id_inj := fun b hb b' hb' => h.id_inj b (hsub b hb).1 b' (hsub b' hb').1
      net_le := h.net_le
      net_inj := h.net_inj
      session_held := fun i hi => ?_
      entered := fun b hb => ?_
      entity := fun e he i hi => ?_
      ids_nodup := hids
      nodup := h.nodup }
  · obtain ⟨hne, hold⟩ := hses i hi
    obtain ⟨b, hb, rfl⟩ := h.session_held i hold
    exact ⟨b, hkeep b hb hne, rfl⟩
  · obtain ⟨hold, hne⟩ := hsub b hb
    rcases h.entered b hold with hmem | he
    · exact .inl ((List.mem_cons.mp hmem).resolve_left hne)
    · exact .inr he
  · obtain ⟨hno, b, hb, hbid, hbnet⟩ := h.entity e he i hi
    obtain ⟨hne, hnot⟩ := not_or.mp (fun hor => hno (List.mem_cons.mpr hor))
    exact ⟨hnot, b, hkeep b hb (by rw [hbid]; exact hne), hbid, hbnet⟩

/-- What is destroyed leaves all books, if it is balanced. -/
lemma destroy (h : Book (id :: ids) s) (hbalanced : s.BalancedAt id)
    (hd : sipDestroy id s = .ok s') : Book ids s' := by
  obtain ⟨a, hfind, ⟨hc, rfl⟩ | ⟨c, hc, ⟨hno, rfl⟩ | ⟨hhas, rfl⟩⟩⟩ := sipDestroy_cases hd
  · -- a server transaction: there is no session
    have hno : ¬ s.sessions.Has id := fun hhas => by
      have := (hbalanced a hfind).mpr (by rw [Sip.find_id hfind]; exact hhas)
      rw [hc] at this
      cases this
    refine h.remove s.sessions fun i hi => ⟨?_, hi⟩
    rintro rfl
    exact hno hi
  · -- a client transaction without a session is not balanced
    have := (hbalanced a hfind).mp (by rw [hc]; rfl)
    rw [Sip.find_id hfind] at this
    exact absurd this hno
  · have hgone := h.remove (cmdSessionDestroy s.sessions id).2
      fun i hi => mem_sessionDestroy.mp hi
    exact { hgone with }

/-- The events of a state in which the entities of one are written. -/
lemma mem_entities {f : List ℕ → List ℕ} (he : e ∈ (s.entities n f).nets) :
    ∃ e₀ ∈ s.nets, e.id = e₀.id ∧
      e.entities = if e₀.id = n then f e₀.entities else e₀.entities := by
  obtain ⟨e₀, he₀, rfl⟩ := List.mem_map.mp he
  refine ⟨e₀, he₀, ?_, ?_⟩
  · split <;> rfl
  · split <;> rfl

lemma entities_mem {f : List ℕ → List ℕ} (he : e ∈ s.nets) :
    ∃ e₁ ∈ (s.entities n f).nets, e₁.id = e.id ∧
      e₁.entities = if e.id = n then f e.entities else e.entities := by
  refine ⟨_, List.mem_map.mpr ⟨e, he, rfl⟩, ?_, ?_⟩
  · split <;> rfl
  · split <;> rfl

/-- The events keep their ids while their entities are written. -/
lemma entities_net_le (h : Book ids s) {f : List ℕ → List ℕ} :
    ∀ e ∈ (s.entities n f).nets, e.id ≤ (s.entities n f).netId := by
  intro e he
  obtain ⟨e₀, he₀, hid, -⟩ := mem_entities he
  rw [hid]
  exact h.net_le e₀ he₀

/-- Two events with one id are one after their entities were written. -/
lemma entities_inj (h : Book ids s) {f : List ℕ → List ℕ} :
    ∀ e ∈ (s.entities n f).nets, ∀ e' ∈ (s.entities n f).nets, e.id = e'.id → e = e' := by
  intro e he e' he' heq
  obtain ⟨e₀, he₀, rfl⟩ := List.mem_map.mp he
  obtain ⟨e₁, he₁, rfl⟩ := List.mem_map.mp he'
  have hid : ∀ x : NetEvent, (if x.id = n then { x with entities := f x.entities } else x).id =
      x.id := fun x => by split <;> rfl
  rw [hid, hid] at heq
  obtain rfl := h.net_inj e₀ he₀ e₁ he₁ heq
  rfl

/-- A transaction is taken out of the map of its event, into hand. -/
lemma take (h : Book [] s) (hfind : s.find a.id = some a) :
    Book [a.id] (s.entities a.net (·.erase a.id)) := by
  have hmem := Sip.mem_of_find hfind
  refine
    { id_lt := h.id_lt
      id_inj := h.id_inj
      net_le := h.entities_net_le
      net_inj := h.entities_inj
      session_held := h.session_held
      entered := fun b hb => ?_
      entity := fun e he i hi => ?_
      ids_nodup := List.nodup_singleton _
      nodup := fun e he => ?_ }
  · by_cases hid : b.id = a.id
    · exact .inl (List.mem_singleton.mpr hid)
    · obtain ⟨e, he, hnet, hin⟩ := (h.entered b hb).resolve_left List.not_mem_nil
      obtain ⟨e₁, he₁, hid₁, hent⟩ := entities_mem (n := a.net) (f := (·.erase a.id)) he
      refine .inr ⟨e₁, he₁, hid₁.trans hnet, ?_⟩
      rw [hent]
      split
      · exact (List.mem_erase_of_ne hid).mpr hin
      · exact hin
  · obtain ⟨e₀, he₀, hid, hent⟩ := mem_entities he
    rw [hent] at hi
    have hin : i ∈ e₀.entities := by
      split at hi
      · exact List.mem_of_mem_erase hi
      · exact hi
    obtain ⟨-, b, hb, hbid, hbnet⟩ := h.entity e₀ he₀ i hin
    refine ⟨fun hia => ?_, b, hb, hbid, hbnet.trans hid.symm⟩
    obtain rfl := List.mem_singleton.mp hia
    obtain rfl := h.id_inj b hb a hmem hbid
    rw [if_pos hbnet.symm] at hi
    exact (h.nodup e₀ he₀).not_mem_erase hi
  · obtain ⟨e₀, he₀, -, hent⟩ := mem_entities he
    rw [hent]
    split
    · exact (h.nodup e₀ he₀).erase _
    · exact h.nodup e₀ he₀

/-- An event is gone, its transactions are in hand. -/
lemma drop (h : Book [] s) (hnet : s.net e.id = some e) : Book e.entities (s.drop e.id) := by
  have he := List.mem_of_find?_eq_some hnet
  have hsub : ∀ f ∈ (s.drop e.id).nets, f ∈ s.nets ∧ f.id ≠ e.id := fun f hf => by
    simpa [Sip.drop] using hf
  refine
    { id_lt := h.id_lt
      id_inj := h.id_inj
      net_le := fun f hf => h.net_le f (hsub f hf).1
      net_inj := fun f hf g hg => h.net_inj f (hsub f hf).1 g (hsub g hg).1
      session_held := h.session_held
      entered := fun b hb => ?_
      entity := fun f hf i hi => ?_
      ids_nodup := h.nodup e he
      nodup := fun f hf => h.nodup f (hsub f hf).1 }
  · obtain ⟨f, hf, hid, hin⟩ := (h.entered b hb).resolve_left List.not_mem_nil
    by_cases hfe : f.id = e.id
    · obtain rfl := h.net_inj f hf e he hfe
      exact .inl hin
    · refine .inr ⟨f, ?_, hid, hin⟩
      simpa [Sip.drop] using ⟨hf, hfe⟩
  · obtain ⟨hold, hne⟩ := hsub f hf
    obtain ⟨-, b, hb, hbid, hbnet⟩ := h.entity f hold i hi
    refine ⟨fun hie => ?_, b, hb, hbid, hbnet⟩
    obtain ⟨-, b', hb', hbid', hbnet'⟩ := h.entity e he i hie
    obtain rfl := h.id_inj b hb b' hb' (hbid.trans hbid'.symm)
    exact hne (hbnet.symm.trans hbnet')

/-- A new transaction is in hand. -/
lemma create (h : Book [] s) (hid : a.id = s.next) : Book [a.id] (s.create a) := by
  have hnew : ∀ b ∈ s.held, b.id ≠ a.id := fun b hb => by
    have := h.id_lt b hb
    omega
  refine
    { id_lt := fun b hb => ?_
      id_inj := fun b hb b' hb' heq => ?_
      net_le := h.net_le
      net_inj := h.net_inj
      session_held := fun i hi => ?_
      entered := fun b hb => ?_
      entity := fun e he i hi => ?_
      ids_nodup := List.nodup_singleton _
      nodup := h.nodup }
  · rcases List.mem_cons.mp hb with rfl | hold
    · exact hid ▸ Nat.lt_succ_self _
    · exact Nat.lt_succ_of_lt (h.id_lt b hold)
  · rcases List.mem_cons.mp hb with rfl | hold <;> rcases List.mem_cons.mp hb' with rfl | hold'
    · rfl
    · exact absurd heq.symm (hnew b' hold')
    · exact absurd heq (hnew b hold)
    · exact h.id_inj b hold b' hold' heq
  · obtain ⟨b, hb, hbi⟩ := h.session_held i hi
    exact ⟨b, List.mem_cons_of_mem _ hb, hbi⟩
  · rcases List.mem_cons.mp hb with rfl | hold
    · exact .inl (List.mem_singleton.mpr rfl)
    · exact .inr ((h.entered b hold).resolve_left List.not_mem_nil)
  · obtain ⟨-, b, hb, hbid, hbnet⟩ := h.entity e he i hi
    refine ⟨fun hia => ?_, b, List.mem_cons_of_mem _ hb, hbid, hbnet⟩
    exact hnew b hb (hbid.trans (List.mem_singleton.mp hia))

/-- What is in a map that a transaction has entered. -/
lemma mem_enter {i k : ℕ} {l : List ℕ} : i ∈ Transactions.enter k l ↔ i = k ∨ i ∈ l := by
  rw [Transactions.enter]
  split
  · rename_i hin
    exact ⟨.inr, fun hor => hor.elim (fun heq => heq ▸ hin) fun hi => hi⟩
  · exact List.mem_cons

lemma nodup_enter {k : ℕ} {l : List ℕ} (h : l.Nodup) : (Transactions.enter k l).Nodup := by
  rw [Transactions.enter]
  split
  · exact h
  · exact h.cons ‹_›

/-- A transaction enters the map of its event. -/
lemma enter (h : Book ids s) (hids : ids = [] ∨ ids = [a.id]) (hfind : s.find a.id = some a)
    (hlive : (s.net a.net).isSome = true) :
    Book [] (s.entities a.net (Transactions.enter a.id)) := by
  have hmem := Sip.mem_of_find hfind
  refine
    { id_lt := h.id_lt
      id_inj := h.id_inj
      net_le := h.entities_net_le
      net_inj := h.entities_inj
      session_held := h.session_held
      entered := fun b hb => .inr ?_
      entity := fun e he i hi => ⟨List.not_mem_nil, ?_⟩
      ids_nodup := List.nodup_nil
      nodup := fun e he => ?_ }
  · by_cases hid : b.id = a.id
    · obtain rfl := h.id_inj b hb a hmem hid
      obtain ⟨e, hnet⟩ := Option.isSome_iff_exists.mp hlive
      have he := List.mem_of_find?_eq_some hnet
      have hen : e.id = b.net := by simpa using List.find?_some hnet
      obtain ⟨e₁, he₁, hid₁, hent⟩ :=
        entities_mem (n := b.net) (f := Transactions.enter b.id) he
      refine ⟨e₁, he₁, hid₁.trans hen, ?_⟩
      rw [hent, if_pos hen, mem_enter]
      exact .inl rfl
    · have hold : b.id ∉ ids := by
        rcases hids with rfl | rfl
        · exact List.not_mem_nil
        · exact fun hin => hid (List.mem_singleton.mp hin)
      obtain ⟨e, he, hnet, hin⟩ := (h.entered b hb).resolve_left hold
      obtain ⟨e₁, he₁, hid₁, hent⟩ :=
        entities_mem (n := a.net) (f := Transactions.enter a.id) he
      refine ⟨e₁, he₁, hid₁.trans hnet, ?_⟩
      rw [hent]
      split
      · rw [mem_enter]
        exact .inr hin
      · exact hin
  · obtain ⟨e₀, he₀, hid, hent⟩ := mem_entities he
    rw [hent] at hi
    rw [hid]
    split at hi
    · rename_i hnet
      rcases mem_enter.mp hi with rfl | hin
      · exact ⟨a, hmem, rfl, hnet.symm⟩
      · exact (h.entity e₀ he₀ i hin).2
    · exact (h.entity e₀ he₀ i hi).2
  · obtain ⟨e₀, he₀, -, hent⟩ := mem_entities he
    rw [hent]
    split
    · exact nodup_enter (h.nodup e₀ he₀)
    · exact h.nodup e₀ he₀

/-- Writing a transaction, and making the session of one that is held, keeps the books. -/
lemma modify (h : Book ids s) {f : Transaction → Transaction}
    (hf : ∀ a, (f a).id = a.id ∧ (f a).net = a.net) {sessions : Sessions}
    (hses : ∀ i, sessions.Has i → s.sessions.Has i ∨ ∃ a ∈ s.held, a.id = i) :
    Book ids { s.modify id f with sessions } := by
  have hmap : ∀ b ∈ (s.modify id f).held, ∃ b' ∈ s.held, b = if b'.id = id then f b' else b' := by
    intro b hb
    obtain ⟨b', hb', rfl⟩ := List.mem_map.mp hb
    exact ⟨b', hb', rfl⟩
  have hsame : ∀ b : Transaction, (if b.id = id then f b else b).id = b.id ∧
      (if b.id = id then f b else b).net = b.net := fun b => by
    split
    · exact hf b
    · exact ⟨rfl, rfl⟩
  have hkeep : ∀ b ∈ s.held, ∃ b' ∈ (s.modify id f).held, b'.id = b.id ∧ b'.net = b.net :=
    fun b hb => ⟨_, List.mem_map.mpr ⟨b, hb, rfl⟩, hsame b⟩
  refine
    { id_lt := fun b hb => ?_
      id_inj := fun b hb b' hb' heq => ?_
      net_le := h.net_le
      net_inj := h.net_inj
      session_held := fun i hi => ?_
      entered := fun b hb => ?_
      entity := fun e he i hi => ?_
      ids_nodup := h.ids_nodup
      nodup := h.nodup }
  · obtain ⟨b', hb', rfl⟩ := hmap b hb
    rw [(hsame b').1]
    exact h.id_lt b' hb'
  · obtain ⟨x, hx, rfl⟩ := hmap b hb
    obtain ⟨y, hy, rfl⟩ := hmap b' hb'
    rw [(hsame x).1, (hsame y).1] at heq
    obtain rfl := h.id_inj x hx y hy heq
    rfl
  · have hold : ∃ a ∈ s.held, a.id = i := by
      rcases hses i hi with hold | hheld
      · exact h.session_held i hold
      · exact hheld
    obtain ⟨a, ha, rfl⟩ := hold
    obtain ⟨b, hb, hid, -⟩ := hkeep a ha
    exact ⟨b, hb, hid⟩
  · obtain ⟨b', hb', rfl⟩ := hmap b hb
    rw [(hsame b').1, (hsame b').2]
    exact h.entered b' hb'
  · obtain ⟨hno, a, ha, rfl, hnet⟩ := h.entity e he i hi
    obtain ⟨b, hb, hid, hbnet⟩ := hkeep a ha
    exact ⟨hno, b, hb, hid, hbnet.trans hnet⟩

/-- A new event has no transactions. -/
lemma accept (h : Book [] s) {b : Bool} :
    Book [] { s with nets := ⟨s.netId + 1, b, []⟩ :: s.nets, netId := s.netId + 1 } := by
  have hnew : ∀ e ∈ s.nets, e.id ≠ s.netId + 1 := fun e he => by
    have := h.net_le e he
    omega
  refine { h with net_le := fun e he => ?_, net_inj := fun e he f hf heq => ?_,
                  entered := fun a ha => .inr ?_, entity := fun e he i hi => ?_,
                  nodup := fun e he => ?_ }
  · rcases List.mem_cons.mp he with rfl | hold
    · exact le_rfl
    · exact Nat.le_succ_of_le (h.net_le e hold)
  · rcases List.mem_cons.mp he with rfl | hold <;> rcases List.mem_cons.mp hf with rfl | hold'
    · rfl
    · exact absurd heq.symm (hnew f hold')
    · exact absurd heq (hnew e hold)
    · exact h.net_inj e hold f hold' heq
  · obtain ⟨e, he, hent⟩ := (h.entered a ha).resolve_left List.not_mem_nil
    exact ⟨e, List.mem_cons_of_mem _ he, hent⟩
  · rcases List.mem_cons.mp he with rfl | hold
    · cases hi
    · exact h.entity e hold i hi
  · rcases List.mem_cons.mp he with rfl | hold
    · exact List.nodup_nil
    · exact h.nodup e hold

/-- The books as what every careful call keeps. -/
lemma kept : Kept True Book where
  destroyed h hC hd := h.destroy (hC trivial) hd
  taken h hfind := h.take hfind
  dropped h hnet := h.drop hnet
  made h hid _ := h.create hid
  entered h hids hfind hlive := h.enter hids hfind hlive
  lost hC _ := absurd trivial hC
  executed {s a o} h hfind := by
    refine h.modify (f := o.execute) (fun _ => ⟨rfl, rfl⟩) fun i hi => ?_
    rw [Outcome.sessions] at hi
    split at hi
    · rcases sessionGet_has hi with rfl | hold
      · exact .inr ⟨a, Sip.mem_of_find hfind, rfl⟩
      · exact .inl hold
    · exact .inl hi
  retried {s id n} h :=
    h.modify (f := fun a => { a with retry := n }) (fun _ => ⟨rfl, rfl⟩) fun _ => .inl
  accepted h := h.accept

/-! ### Requests of the bus -/

lemma relayFailed (h : Book [] s)
    (hC : ∀ e, s.net n = some e → e.connect = true → EventSettles s n)
    (hf : relayFailed n s = .ok (accepted, s')) : Book [] s' := by
  rw [Transactions.relayFailed] at hf
  split at hf
  · cases hf
  · rename_i e hnet
    split at hf
    · rename_i hconnect
      obtain ⟨s₁, h₁, hf⟩ := Lib.ok_of_bind hf
      obtain ⟨-, rfl⟩ := Prod.mk.inj (Except.ok.inj hf)
      exact kept.free h (fun _ => hC e hnet hconnect) h₁
    · obtain ⟨-, rfl⟩ := Prod.mk.inj (Except.ok.inj hf)
      exact h

lemma route (h : Book [] s) {r : RelayAnswer} {s₀ : Sip} {i : Option ℕ}
    (hroute : r.route s = (i, s₀)) : Book [] s₀ := by
  rcases route_cases hroute with rfl | rfl
  · exact h
  · exact h.accept

/-- `sip_relay` up to the session. -/
lemma relayRun (h : Book [] s) {r : RelayAnswer} {n : ℕ} {s₁ s₂ s₃ : Sip}
    (hsettles : LoopSettles s { r.loop with found := none } (relayTransaction r c n s))
    (hcreated : r.loop.created = true) (hrun : RelayRun r c n s s₁ s₂ s₃) : Book [] s₃ := by
  simp only [LoopSettles, Option.bind_none] at hsettles
  exact kept.update (kept.loopNew (w := r.loop) (h.create (a := relayTransaction r c n s) rfl)
    (fun _ => hsettles hcreated) hrun.push hrun.calls) hrun.update

lemma relay (h : Book [] s) {r : RelayAnswer} {uuid : Uuid} (hC : RelaySettles s r c)
    (hr : sipRelay r c uuid s = .ok (accepted, s')) : Book [] s' := by
  cases sipRelay_cases hr with
  | refused => exact h
  | unrouted hroute => exact h.route hroute
  | failed hforwards hroute hnone hfailed =>
      have hsettles := hC hforwards _ _ hroute
      rw [if_neg hnone] at hsettles
      exact (h.route hroute).relayFailed hsettles hfailed
  | stranded hforwards hroute hmade hrun =>
      have hsettles := hC hforwards _ _ hroute
      rw [if_pos hmade] at hsettles
      exact (h.route hroute).relayRun hsettles hmade.2 hrun
  | registered hforwards hroute hmade hrun hadd =>
      have hsettles := hC hforwards _ _ hroute
      rw [if_pos hmade] at hsettles
      have hs₀ := h.route hroute
      have hs₃ := hs₀.relayRun hsettles hmade.2 hrun
      -- the transaction is still held when its session is registered
      obtain ⟨-, -, b, hb, hbid, -⟩ := hrun.stays fun hhas => by
        obtain ⟨b, hb, hbid⟩ := hs₀.session_held _ hhas
        exact absurd (hs₀.id_lt b hb) (by rw [hbid]; exact lt_irrefl _)
      refine { hs₃ with session_held := fun i hi => ?_ }
      rcases (sessionAdd_eq_some hadd).mp hi with rfl | hold
      · exact ⟨b, hb, hbid⟩
      · exact hs₃.session_held i hold

lemma reject (h : Book [] s) {code : Option ℕ} : Book [] (s.reject c code) := { h with }

lemma request (h : Book [] s) {q : BusRequest} (hC : Careful s (.request q))
    (hq : cmdMaintainRequest q s = .ok s') : Book [] s' := by
  have harrive : Book [] { s with requests := s.requests + 1 } := { h with }
  cases cmdMaintainRequest_cases hq with
  | unread => exact h
  | replied htoken hreply h₁ =>
      exact (kept.finalise harrive (fun _ => (hC htoken).1 _ hreply) h₁).reject
  | rejected code => exact harrive.reject
  | @relayed r accepted s₁ htoken hreply hconverts hrelay h₁ =>
      have hrelayed := harrive.relay ((hC htoken).2 hreply hconverts r hrelay) h₁
      cases accepted with
      | true => exact hrelayed
      | false => exact hrelayed.reject

lemma step (h : Book [] s) {op : SipOp} (hC : Careful s op) (hs : sipStep s op = .ok s') :
    Book [] s' :=
  kept.step h (fun _ => hC) (fun _ hop hq => h.request (hop ▸ hC) hq) hs

lemma run (h : Book [] s) {ops : List SipOp} (hC : CarefulRun s ops)
    (hr : sipRun s ops = .ok s') : Book [] s' := by
  induction ops generalizing s with
  | nil =>
      obtain rfl := Except.ok.inj hr
      exact h
  | cons op ops ih =>
      obtain ⟨s₁, h₁, hr⟩ := Lib.ok_of_bind hr
      exact ih (h.step hC.1 h₁) (hC.2 s₁ h₁) hr

lemma initial : Book [] sipInitial := by
  constructor <;> simp [sipInitial, Sessions.empty, Sessions.Has]

end Book

/-- **In every run of careful steps every session is that of a transaction osip holds, and every
transaction osip holds is among the entities of its event.** -/
theorem transactions_booked {ops : List SipOp} {s : Sip} (h : sipRun sipInitial ops = .ok s)
    (hC : CarefulRun sipInitial ops) : s.Booked :=
  (Book.initial.run hC h).booked

/-- The run is careful: the transaction that ends has a closure and a session. -/
theorem relayedRun_booked : ∃ s, sipRun sipInitial relayedRun = .ok s ∧ s.Booked := by
  have hC : CarefulRun sipInitial relayedRun := by
    refine ⟨trivial, fun s₁ h₁ => ?_⟩
    obtain rfl := Except.ok.inj h₁
    refine ⟨fun _ => ⟨fun r hr => absurd hr (by simp [relayed]), fun _ _ r hr _ n s hs => ?_⟩,
      fun s₂ h₂ => ?_⟩
    · -- the transaction of the request enters the map and does not end
      obtain rfl := Option.some.inj hr
      obtain ⟨-, rfl⟩ := Prod.mk.inj hs
      rw [if_pos ⟨rfl, rfl⟩]
      rintro -
      refine ⟨rfl, fun ⟨o, ho, hended⟩ => ?_⟩
      obtain rfl := List.mem_singleton.mp ho
      cases hended
    · obtain rfl := Except.ok.inj h₂
      refine ⟨fun _ => ?_, fun _ _ => trivial⟩
      exact iff_of_true rfl ⟨⟨1, ⟨1, 2⟩⟩, List.mem_singleton.mpr rfl, rfl⟩
  exact ⟨_, rfl, transactions_booked rfl hC⟩

/-- An INVITE is received, its query published, and the bus replies `200`. -/
def servedRun : List SipOp :=
  [.accept false, .receive 1 ⟨none, true, true, [{ query := some (true, ⟨1, 2⟩) }]⟩ true,
    .request ⟨true, some ⟨⟨1, 2⟩, 200, true, true,
      { lastResponse := some 200, ended := true }, false⟩, false, ⟨0, 0⟩, none, 0⟩]

/-- **The session of a server transaction stays when the transaction is gone.** -/
theorem answered_session_stays : ∃ s, sipRun sipInitial servedRun = .ok s ∧
    s.held = [] ∧ s.sessions.Has 1 ∧ ¬ s.Booked := by
  refine ⟨_, rfl, rfl, ⟨⟨1, ⟨1, 2⟩⟩, List.mem_singleton.mpr rfl, rfl⟩, fun h => ?_⟩
  obtain ⟨a, ha, -⟩ := h.session_held ⟨1, ⟨1, 2⟩⟩ (List.mem_singleton.mpr rfl)
  cases ha

/-- **A transaction that ends inside `sip_relay` stays in osip, in no map of entities.** -/
theorem failed_relay_strands :
    ∃ s, sipRun sipInitial [.accept false, .request (relayed [{ ended := true }])] = .ok s ∧
      s.held.map (·.id) = [1] ∧ s.nets.map (·.entities) = [[]] ∧ ¬ s.Booked := by
  refine ⟨_, rfl, rfl, rfl, fun h => ?_⟩
  obtain ⟨e, he, -, hin⟩ := h.entered _ (List.mem_singleton.mpr rfl)
  obtain rfl := List.mem_singleton.mp he
  cases hin

end SipEcho.Transactions
