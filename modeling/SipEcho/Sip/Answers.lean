import SipEcho.Sip.TransactionRules

/-!
How often the closure of a request of the bus is called.

`sip_relay` registers the session of a transaction after it was executed; until then
`sip_destroy` finds no session and answers nothing.

* `LosesAnswer`: the transaction of a request ends inside `sip_relay`, and its session is
  registered all the same;
* `Answers D p s`: the closure of a transaction with a session was not called, that of one without
  was called once, but for the request `p` that is being relayed;
* `answered_at_most_once`: no closure is called twice, in any run;
* `answered_once`: if no step loses its answer, the closure of every request that was rejected, or
  whose transaction was deleted, was called exactly once.
-/

namespace SipEcho.Transactions

/-- The transaction of the request ends in the loop of `sip_relay`, and its session is registered
after that. -/
def LosesAnswer (s : Sip) (r : RelayAnswer) (uuid : Uuid) : Prop :=
  r.forwards = true ∧ (r.route s).1.isSome = true ∧ r.prepared = true ∧ r.loop.created = true ∧
    Ends r.loop.outcomes ∧ (cmdSessionAdd s.sessions r.memory s.next uuid).isSome = true

/-- The step is no request that loses its answer. -/
def KeepsAnswer (s : Sip) : SipOp → Prop
  | .request q => q.token = true → q.reply = none → q.converts = true →
      ∀ r, q.relay = some r → ¬ LosesAnswer s r q.uuid
  | _ => True

/-- No step of a run is. -/
def AnsweringRun (s : Sip) : List SipOp → Prop
  | [] => True
  | op :: ops => KeepsAnswer s op ∧ ∀ s', sipStep s op = .ok s' → AnsweringRun s' ops

/-- The closures and the calls of them, while the request `p` is being relayed; in runs that lose
no answer (`D`) a deleted transaction is answered. -/
structure Answers (D : Prop) (p : Option ℕ) (s : Sip) : Prop where
  id_lt : ∀ a ∈ s.held, a.id < s.next
  id_inj : ∀ a ∈ s.held, ∀ b ∈ s.held, a.id = b.id → a = b
  session_lt : ∀ i, s.sessions.Has i → i < s.next
  closure_lt : ∀ a ∈ s.held, ∀ c, a.closure = some c → c < s.requests
  closure_inj : ∀ a ∈ s.held, ∀ b ∈ s.held, ∀ c, a.closure = some c → b.closure = some c →
    a.id = b.id
  waiting : ∀ a ∈ s.held, ∀ c, a.closure = some c → p ≠ some c → s.sessions.Has a.id →
    s.answered c = 0 ∧ c ∉ s.rejected
  answered : ∀ a ∈ s.held, ∀ c, a.closure = some c → p ≠ some c → ¬ s.sessions.Has a.id →
    s.answered c = 1
  pending : ∀ c, p = some c → s.answered c = 0 ∧ c ∉ s.rejected
  unregistered : ∀ c, p = some c → ∀ a ∈ s.held, a.closure = some c → ¬ s.sessions.Has a.id
  pending_lt : ∀ c, p = some c → c < s.requests
  le_one : ∀ c, s.answered c ≤ 1
  rejected : ∀ c ∈ s.rejected, s.answered c = 1
  deleted : D → ∀ c ∈ s.deleted, p ≠ some c → s.answered c = 1
  new : ∀ c, s.requests ≤ c → s.answered c = 0 ∧ c ∉ s.rejected ∧ c ∉ s.deleted

@[simp] lemma answered_answer {s : Sip} {c d : ℕ} {code : Option ℕ} :
    (s.answer d code).answered c = s.answered c + if d = c then 1 else 0 := by
  simp [Sip.answered, Sip.answer, List.countP_cons]

namespace Answers

variable {D : Prop} {p : Option ℕ} {s s' : Sip} {a : Transaction} {id c : ℕ}

/-- The closures, the sessions and the calls are all that matters. -/
lemma congr (h : Answers D p s) {s' : Sip}
    (hheld : ∀ a ∈ s'.held, ∃ b ∈ s.held, b.id = a.id ∧ b.closure = a.closure)
    (hinj : ∀ a ∈ s'.held, ∀ b ∈ s'.held, a.id = b.id → a = b)
    (hnext : s.next ≤ s'.next)
    (hses : ∀ i, s'.sessions.Has i → i < s'.next)
    (hhas : ∀ a ∈ s'.held, a.closure.isSome = true →
      (s'.sessions.Has a.id ↔ s.sessions.Has a.id))
    (hrequests : s'.requests = s.requests) (hanswers : s'.answers = s.answers)
    (hrejected : s'.rejected = s.rejected) (hdeleted : s'.deleted = s.deleted) :
    Answers D p s' where
  id_lt a ha := by
    obtain ⟨b, hb, hid, -⟩ := hheld a ha
    rw [← hid]
    exact lt_of_lt_of_le (h.id_lt b hb) hnext
  id_inj := hinj
  session_lt := hses
  closure_lt a ha c hc := by
    obtain ⟨b, hb, -, hcl⟩ := hheld a ha
    rw [hrequests]
    exact h.closure_lt b hb c (hcl.trans hc)
  closure_inj a ha b hb c hac hbc := by
    obtain ⟨a', ha', haid, hacl⟩ := hheld a ha
    obtain ⟨b', hb', hbid, hbcl⟩ := hheld b hb
    rw [← haid, ← hbid]
    exact h.closure_inj a' ha' b' hb' c (hacl.trans hac) (hbcl.trans hbc)
  waiting a ha c hc hp hs := by
    obtain ⟨b, hb, hid, hcl⟩ := hheld a ha
    rw [hhas a ha (by rw [hc]; rfl), ← hid] at hs
    rw [Sip.answered, hanswers, hrejected]
    exact h.waiting b hb c (hcl.trans hc) hp hs
  answered a ha c hc hp hs := by
    obtain ⟨b, hb, hid, hcl⟩ := hheld a ha
    rw [hhas a ha (by rw [hc]; rfl), ← hid] at hs
    rw [Sip.answered, hanswers]
    exact h.answered b hb c (hcl.trans hc) hp hs
  pending c hp := by
    rw [Sip.answered, hanswers, hrejected]
    exact h.pending c hp
  unregistered c hp a ha hc := by
    obtain ⟨b, hb, hid, hcl⟩ := hheld a ha
    rw [hhas a ha (by rw [hc]; rfl), ← hid]
    exact h.unregistered c hp b hb (hcl.trans hc)
  pending_lt c hp := by
    rw [hrequests]
    exact h.pending_lt c hp
  le_one c := by
    rw [Sip.answered, hanswers]
    exact h.le_one c
  rejected c hc := by
    rw [hrejected] at hc
    rw [Sip.answered, hanswers]
    exact h.rejected c hc
  deleted d c hc hp := by
    rw [hdeleted] at hc
    rw [Sip.answered, hanswers]
    exact h.deleted d c hc hp
  new c hc := by
    rw [hrequests] at hc
    rw [Sip.answered, hanswers, hrejected, hdeleted]
    exact h.new c hc

/-- A transaction without a session ends in silence: its closure was called already, or the request
is still being relayed. -/
lemma destroySilent (h : Answers D p s) (ha : a ∈ s.held) (hc : a.closure = some c)
    (hno : ¬ s.sessions.Has a.id) : Answers D p { s with deleted := c :: s.deleted } := by
  have hlt := h.closure_lt a ha c hc
  refine { h with deleted := fun d c' hc' hp => ?_, new := fun c' hc' => ?_ }
  · rcases List.mem_cons.mp hc' with rfl | hc'
    · exact h.answered a ha c' hc hp hno
    · exact h.deleted d c' hc' hp
  · obtain ⟨hzero, hrej, hdel⟩ := h.new c' hc'
    refine ⟨hzero, hrej, fun hc'' => ?_⟩
    rcases List.mem_cons.mp hc'' with rfl | hc''
    · exact absurd hlt (not_lt_of_ge hc')
    · exact hdel hc''

/-- A transaction with a session ends with the call of its closure. -/
lemma destroyAnswering (h : Answers D p s) (ha : a ∈ s.held) (hc : a.closure = some c)
    (hhas : s.sessions.Has a.id) (code : Option ℕ) :
    Answers D p (({ s with
      deleted := c :: s.deleted
      sessions := (cmdSessionDestroy s.sessions a.id).2
      answers := (c, code) :: s.answers } : Sip).remove a.id) := by
  have hlt := h.closure_lt a ha c hc
  have hpc : p ≠ some c := fun hp => h.unregistered c hp a ha hc hhas
  obtain ⟨hzero, hrej⟩ := h.waiting a ha c hc hpc hhas
  set t : Sip := ({ s with
    deleted := c :: s.deleted
    sessions := (cmdSessionDestroy s.sessions a.id).2
    answers := (c, code) :: s.answers } : Sip).remove a.id with ht
  have hsub : ∀ b ∈ t.held, b ∈ s.held ∧ b.id ≠ a.id := fun b hb => by
    simpa [ht, Sip.remove] using hb
  have hcount : ∀ c', t.answered c' = s.answered c' + if c = c' then 1 else 0 := fun c' => by
    simp [ht, Sip.answered, Sip.remove, List.countP_cons]
  have hother : ∀ b ∈ t.held, ∀ c', b.closure = some c' → c ≠ c' := by
    rintro b hb c hb' rfl
    exact (hsub b hb).2 (h.closure_inj b (hsub b hb).1 a ha c hb' hc)
  have hses : ∀ i, t.sessions.Has i ↔ i ≠ a.id ∧ s.sessions.Has i := fun i => mem_sessionDestroy
  refine
    { id_lt := fun b hb => h.id_lt b (hsub b hb).1
      id_inj := fun b hb b' hb' => h.id_inj b (hsub b hb).1 b' (hsub b' hb').1
      session_lt := fun i hi => h.session_lt i ((hses i).mp hi).2
      closure_lt := fun b hb => h.closure_lt b (hsub b hb).1
      closure_inj := fun b hb b' hb' => h.closure_inj b (hsub b hb).1 b' (hsub b' hb').1
      waiting := fun b hb c' hc' hp hs => ?_
      answered := fun b hb c' hc' hp hs => ?_
      pending := fun c' hp => ?_
      unregistered := fun c' hp b hb hc' hs =>
        h.unregistered c' hp b (hsub b hb).1 hc' ((hses b.id).mp hs).2
      pending_lt := h.pending_lt
      le_one := fun c' => ?_
      rejected := fun c' hc' => ?_
      deleted := fun d c' hc' hp => ?_
      new := fun c' hc' => ?_ }
  · rw [hcount, if_neg (hother b hb c' hc'), Nat.add_zero]
    exact h.waiting b (hsub b hb).1 c' hc' hp ((hses b.id).mp hs).2
  · rw [hcount, if_neg (hother b hb c' hc'), Nat.add_zero]
    refine h.answered b (hsub b hb).1 c' hc' hp fun hhas' => hs ?_
    exact (hses b.id).mpr ⟨(hsub b hb).2, hhas'⟩
  · rw [hcount, if_neg (fun heq => hpc (by rw [hp, heq])), Nat.add_zero]
    exact h.pending c' hp
  · rw [hcount]
    split
    · rename_i heq
      rw [← heq, hzero]
    · exact h.le_one c'
  · have hne : c ≠ c' := by
      rintro rfl
      exact hrej hc'
    rw [hcount, if_neg hne, Nat.add_zero]
    exact h.rejected c' hc'
  · rw [hcount]
    split
    · rename_i heq
      rw [← heq, hzero]
    · rename_i hne
      rcases List.mem_cons.mp hc' with rfl | hc'
      · exact absurd rfl hne
      · exact h.deleted d c' hc' hp
  · obtain ⟨hnew, hrej', hdel⟩ := h.new c' hc'
    have hlt' : c < c' := lt_of_lt_of_le hlt hc'
    refine ⟨?_, hrej', fun hmem' => ?_⟩
    · rw [hcount, if_neg hlt'.ne, Nat.add_zero]
      exact hnew
    · rcases List.mem_cons.mp hmem' with rfl | hmem'
      · omega
      · exact hdel hmem'

/-- `sip_destroy` answers for a transaction with a session, and for no other. -/
lemma destroy (h : Answers D p s) (hd : sipDestroy id s = .ok s') : Answers D p s' := by
  obtain ⟨a, hfind, ⟨hc, rfl⟩ | ⟨c, hc, ⟨hno, rfl⟩ | ⟨hhas, rfl⟩⟩⟩ := sipDestroy_cases hd
  · -- a server transaction
    have hsub : ∀ b ∈ (s.remove id).held, b ∈ s.held := fun b hb => (List.mem_filter.mp hb).1
    exact h.congr (fun b hb => ⟨b, hsub b hb, rfl, rfl⟩)
      (fun a ha b hb => h.id_inj a (hsub a ha) b (hsub b hb)) le_rfl h.session_lt
      (fun _ _ _ => Iff.rfl) rfl rfl rfl rfl
  · obtain rfl := Sip.find_id hfind
    exact h.destroySilent (Sip.mem_of_find hfind) hc hno
  · obtain rfl := Sip.find_id hfind
    exact h.destroyAnswering (Sip.mem_of_find hfind) hc hhas _

/-- A transaction with a new id. -/
lemma create (h : Answers D p s) (hid : a.id = s.next)
    (hclosure : a.closure = none ∨
      a.closure = p ∧ ∀ b ∈ s.held, ∀ c, p = some c → b.closure ≠ some c) :
    Answers D p (s.create a) := by
  have hnew : ∀ b ∈ s.held, b.id ≠ a.id := fun b hb => by
    have := h.id_lt b hb
    omega
  have hno : ¬ s.sessions.Has a.id := fun hhas => by
    have := h.session_lt a.id hhas
    omega
  have hpending : ∀ c, a.closure = some c → p = some c := fun c hc => by
    rcases hclosure with hnone | ⟨hp, -⟩
    · rw [hnone] at hc
      cases hc
    · rw [← hp, hc]
  have hunique : ∀ b ∈ s.held, ∀ c, a.closure = some c → b.closure ≠ some c :=
    fun b hb c hc => by
      rcases hclosure with hnone | ⟨-, hp⟩
      · rw [hnone] at hc
        cases hc
      · exact hp b hb c (hpending c hc)
  refine { h with id_lt := ?_, id_inj := ?_, session_lt := ?_, closure_lt := ?_,
                  closure_inj := ?_, waiting := ?_, answered := ?_, unregistered := ?_ }
  · intro b hb
    rcases List.mem_cons.mp hb with rfl | hb
    · exact hid ▸ Nat.lt_succ_self _
    · exact Nat.lt_succ_of_lt (h.id_lt b hb)
  · intro b hb b' hb' heq
    rcases List.mem_cons.mp hb with rfl | hold <;> rcases List.mem_cons.mp hb' with rfl | hold'
    · rfl
    · exact absurd heq.symm (hnew b' hold')
    · exact absurd heq (hnew b hold)
    · exact h.id_inj b hold b' hold' heq
  · exact fun i hi => Nat.lt_succ_of_lt (h.session_lt i hi)
  · intro b hb c hc
    rcases List.mem_cons.mp hb with rfl | hb
    · exact h.pending_lt c (hpending c hc)
    · exact h.closure_lt b hb c hc
  · intro b hb b' hb' c hc hc'
    rcases List.mem_cons.mp hb with rfl | hold <;> rcases List.mem_cons.mp hb' with rfl | hold'
    · rfl
    · exact absurd hc' (hunique b' hold' c hc)
    · exact absurd hc (hunique b hold c hc')
    · exact h.closure_inj b hold b' hold' c hc hc'
  · intro b hb c hc hp hs
    rcases List.mem_cons.mp hb with rfl | hb
    · exact absurd (hpending c hc) hp
    · exact h.waiting b hb c hc hp hs
  · intro b hb c hc hp hs
    rcases List.mem_cons.mp hb with rfl | hb
    · exact absurd (hpending c hc) hp
    · exact h.answered b hb c hc hp hs
  · intro c hp b hb hc
    rcases List.mem_cons.mp hb with rfl | hb
    · exact hno
    · exact h.unregistered c hp b hb hc

/-- Writing a transaction keeps the answers, and so does a session of a server transaction. -/
lemma modify (h : Answers D p s) (f : Transaction → Transaction)
    (hf : ∀ a, (f a).id = a.id ∧ (f a).closure = a.closure) {sessions : Sessions}
    (hlt : ∀ i, sessions.Has i → i < s.next)
    (hclient : ∀ b ∈ s.held, b.closure.isSome = true →
      (sessions.Has b.id ↔ s.sessions.Has b.id)) :
    Answers D p { s.modify id f with sessions } := by
  have hmap : ∀ b ∈ (s.modify id f).held,
      ∃ b' ∈ s.held, b'.id = b.id ∧ b'.closure = b.closure ∧
        b = if b'.id = id then f b' else b' := by
    intro b hb
    obtain ⟨b', hb', rfl⟩ := List.mem_map.mp hb
    refine ⟨b', hb', ?_, ?_, rfl⟩
    · split
      · exact (hf b').1.symm
      · rfl
    · split
      · exact (hf b').2.symm
      · rfl
  refine h.congr (fun b hb => ?_) (fun b hb b' hb' heq => ?_) le_rfl hlt (fun b hb hc => ?_)
    rfl rfl rfl rfl
  · obtain ⟨b', hb', hid, hc, -⟩ := hmap b hb
    exact ⟨b', hb', hid, hc⟩
  · obtain ⟨x, hx, hxid, -, rfl⟩ := hmap b hb
    obtain ⟨y, hy, hyid, -, rfl⟩ := hmap b' hb'
    obtain rfl := h.id_inj x hx y hy (hxid.trans (heq.trans hyid.symm))
    rfl
  · obtain ⟨b', hb', hid, hcl, -⟩ := hmap b hb
    rw [← hid]
    exact hclient b' hb' (by rw [hcl]; exact hc)

/-- The sessions a call makes are those of server transactions. -/
lemma execute (h : Answers D p s) {o : Outcome} (hfind : s.find a.id = some a) :
    Answers D p { s.modify a.id o.execute with sessions := o.sessions a s.sessions } := by
  have hmem := Sip.mem_of_find hfind
  have hhas : ∀ i, (o.sessions a s.sessions).Has i → i = a.id ∨ s.sessions.Has i := by
    intro i hi
    rw [Outcome.sessions] at hi
    split at hi
    · exact sessionGet_has hi
    · exact .inr hi
  refine h.modify o.execute (fun _ => ⟨rfl, rfl⟩) (fun i hi => ?_) fun b hb hc =>
    ⟨fun hi => ?_, fun hi => ?_⟩
  · rcases hhas i hi with rfl | hi
    · exact h.id_lt a hmem
    · exact h.session_lt i hi
  · rcases hhas b.id hi with heq | hi'
    · -- then `a` is a client too and makes no session
      obtain rfl := h.id_inj b hb a hmem heq
      rw [Outcome.sessions] at hi
      split at hi
      · rename_i hnone _
        rw [hnone] at hc
        cases hc
      · exact hi
    · exact hi'
  · rw [Outcome.sessions]
    split
    · exact sessionGet_keeps hi
    · exact hi

/-- The invariant as what every call keeps. -/
lemma kept (D : Prop) (p : Option ℕ) : Kept False fun _ s => Answers D p s where
  destroyed h _ hd := h.destroy hd
  taken h _ := { h with }
  dropped h _ := { h with }
  made h hid hc := h.create hid (.inl hc)
  entered h _ _ _ := { h with }
  lost _ h := h
  executed h hfind := h.execute hfind
  retried {_ _ n} h := h.modify (fun a => { a with retry := n }) (fun _ => ⟨rfl, rfl⟩) h.session_lt
    fun _ _ _ => Iff.rfl
  accepted h := { h with }

end Answers

/-! ### Relaying a request -/

/-- The count of the requests has no part in it. -/
lemma losesAnswer_requests {s : Sip} {r : RelayAnswer} {uuid : Uuid} {k : ℕ}
    (h : LosesAnswer { s with requests := k } r uuid) : LosesAnswer s r uuid := by
  obtain ⟨hforwards, hroute, hrest⟩ := h
  refine ⟨hforwards, ?_, hrest⟩
  have hnets : r.net.bind { s with requests := k }.net = r.net.bind s.net := rfl
  rw [RelayAnswer.route] at hroute ⊢
  rw [hnets] at hroute
  cases hnet : r.net.bind s.net with
  | some e => rfl
  | none =>
      simp only [hnet] at hroute
      cases hconnects : r.connects with
      | true => rfl
      | false => simp [hconnects] at hroute

namespace Answers

variable {D : Prop} {p : Option ℕ} {s s' : Sip} {id c n : ℕ} {uuid : Uuid} {code : Option ℕ}
  {accepted : Bool} {r : RelayAnswer}

/-- The session of the transaction of the request that is being relayed is registered. -/
lemma register (h : Answers D (some c) s) {a : Transaction} (ha : a ∈ s.held)
    (hc : a.closure = some c) (hdel : D → c ∉ s.deleted) {memory : Bool} {sessions : Sessions}
    (hadd : cmdSessionAdd s.sessions memory a.id uuid = some sessions) :
    Answers D none { s with sessions } := by
  have hhas : ∀ i, sessions.Has i ↔ i = a.id ∨ s.sessions.Has i := fun i => sessionAdd_eq_some hadd
  have hother : ∀ b ∈ s.held, ∀ c', b.closure = some c' → b.id ≠ a.id → some c ≠ some c' := by
    rintro b hb c' hb' hne heq
    obtain rfl := Option.some.inj heq
    exact hne (h.closure_inj b hb a ha c hb' hc)
  refine { h with session_lt := ?_, waiting := ?_, answered := ?_, pending := ?_,
                  unregistered := ?_, pending_lt := ?_, deleted := ?_ }
  · intro i hi
    rcases (hhas i).mp hi with rfl | hi
    · exact h.id_lt a ha
    · exact h.session_lt i hi
  · intro b hb c' hb' _ hs
    by_cases hid : b.id = a.id
    · obtain rfl := h.id_inj b hb a ha hid
      obtain rfl := Option.some.inj (hc.symm.trans hb')
      exact h.pending c rfl
    · exact h.waiting b hb c' hb' (hother b hb c' hb' hid)
        (((hhas b.id).mp hs).resolve_left hid)
  · intro b hb c' hb' _ hs
    have hid : b.id ≠ a.id := fun heq => hs ((hhas b.id).mpr (.inl heq))
    exact h.answered b hb c' hb' (hother b hb c' hb' hid)
      fun hold => hs ((hhas b.id).mpr (.inr hold))
  · intro c' hp
    cases hp
  · intro c' hp
    cases hp
  · intro c' hp
    cases hp
  · intro d c' hc' _
    refine h.deleted d c' hc' fun heq => ?_
    obtain rfl := Option.some.inj heq
    exact hdel d hc'

/-- The request that was being relayed is rejected: its closure is called. -/
lemma reject (h : Answers D (some c) s) : Answers D none (s.reject c code) := by
  have hcount : ∀ c', (s.reject c code).answered c' = s.answered c' + if c = c' then 1 else 0 :=
    fun c' => answered_answer
  have hzero := (h.pending c rfl).1
  have hlt := h.pending_lt c rfl
  refine { h with waiting := ?_, answered := ?_, pending := ?_, unregistered := ?_,
                  pending_lt := ?_, le_one := ?_, rejected := ?_, deleted := ?_, new := ?_ }
  · intro a ha c' hc' _ hs
    have hne : c ≠ c' := by
      rintro rfl
      exact h.unregistered c rfl a ha hc' hs
    obtain ⟨hans, hrej⟩ := h.waiting a ha c' hc' (fun heq => hne (Option.some.inj heq)) hs
    refine ⟨?_, fun hmem => ?_⟩
    · rw [hcount, if_neg hne, hans]
    · rcases List.mem_cons.mp hmem with heq | hmem
      · exact hne heq.symm
      · exact hrej hmem
  · intro a ha c' hc' _ hs
    rw [hcount]
    split
    · rename_i heq
      rw [← heq, hzero]
    · rename_i hne
      rw [h.answered a ha c' hc' (fun heq => hne (Option.some.inj heq)) hs]
  · intro c' hp
    cases hp
  · intro c' hp
    cases hp
  · intro c' hp
    cases hp
  · intro c'
    rw [hcount]
    split
    · rename_i heq
      rw [← heq, hzero]
    · exact h.le_one c'
  · intro c' hmem
    rw [hcount]
    split
    · rename_i heq
      rw [← heq, hzero]
    · rename_i hne
      rcases List.mem_cons.mp hmem with heq | hmem
      · exact absurd heq.symm hne
      · exact h.rejected c' hmem
  · intro d c' hmem _
    rw [hcount]
    split
    · rename_i heq
      rw [← heq, hzero]
    · rename_i hne
      exact h.deleted d c' hmem fun heq => hne (Option.some.inj heq)
  · intro c' hle
    have hle' : s.requests ≤ c' := hle
    obtain ⟨hans, hrej, hdel⟩ := h.new c' hle'
    refine ⟨?_, fun hmem => ?_, hdel⟩
    · rw [hcount, if_neg (by omega), hans]
    · rcases List.mem_cons.mp hmem with heq | hmem
      · omega
      · exact hrej hmem

/-- A request arrives. -/
lemma arrive (h : Answers D none s) :
    Answers D (some s.requests) { s with requests := s.requests + 1 } := by
  have hnew := h.new s.requests le_rfl
  refine { h with closure_lt := ?_, waiting := ?_, answered := ?_, pending := ?_,
                  unregistered := ?_, pending_lt := ?_, deleted := ?_, new := ?_ }
  · exact fun a ha c hc => Nat.lt_succ_of_lt (h.closure_lt a ha c hc)
  · exact fun a ha c hc _ => h.waiting a ha c hc (by simp)
  · exact fun a ha c hc _ => h.answered a ha c hc (by simp)
  · intro c hp
    obtain rfl := Option.some.inj hp
    exact ⟨hnew.1, hnew.2.1⟩
  · intro c hp a ha hc
    obtain rfl := Option.some.inj hp
    exact absurd (h.closure_lt a ha _ hc) (lt_irrefl _)
  · intro c hp
    obtain rfl := Option.some.inj hp
    exact Nat.lt_succ_self _
  · exact fun d c hc _ => h.deleted d c hc (by simp)
  · exact fun c hc => h.new c (le_trans (Nat.le_succ _) hc)

lemma relayFailed (h : Answers D p s) (hf : relayFailed n s = .ok (accepted, s')) :
    accepted = false ∧ Answers D p s' := by
  rw [Transactions.relayFailed] at hf
  split at hf
  · cases hf
  · split at hf
    · obtain ⟨s₁, h₁, hf⟩ := Lib.ok_of_bind hf
      obtain ⟨rfl, rfl⟩ := Prod.mk.inj (Except.ok.inj hf)
      exact ⟨rfl, (kept D p).free h False.elim h₁⟩
    · obtain ⟨rfl, rfl⟩ := Prod.mk.inj (Except.ok.inj hf)
      exact ⟨rfl, h⟩

lemma route (h : Answers D (some c) s) {s₀ : Sip} {i : Option ℕ} (hroute : r.route s = (i, s₀)) :
    Answers D (some c) s₀ := by
  rcases route_cases hroute with rfl | rfl
  · exact h
  · exact (kept D (some c)).accepted h

/-- `sip_relay` up to the session. -/
lemma relayRun (h : Answers D (some c) s) (hfirst : ∀ b ∈ s.held, b.closure ≠ some c)
    {s₁ s₂ s₃ : Sip} (hrun : RelayRun r c n s s₁ s₂ s₃) : Answers D (some c) s₃ := by
  have hmade : Answers D (some c) (s.create (relayTransaction r c n s)) :=
    h.create rfl (.inr ⟨rfl, fun b hb c' hp => by
      obtain rfl := Option.some.inj hp
      exact hfirst b hb⟩)
  exact (kept D (some c)).update
    ((kept D (some c)).loopNew (w := r.loop) hmade False.elim hrun.push hrun.calls) hrun.update

/-- `sip_relay`: either the session is registered and the closure waits, or the request is still
to be answered. -/
lemma relay (h : Answers D (some c) s) (hfirst : ∀ b ∈ s.held, b.closure ≠ some c)
    (hdel : c ∉ s.deleted) (hD : D → ¬ LosesAnswer s r uuid)
    (hr : sipRelay r c uuid s = .ok (accepted, s')) :
    Answers D (if accepted then none else some c) s' := by
  cases sipRelay_cases hr with
  | refused => exact h
  | unrouted hroute => exact h.route hroute
  | failed hforwards hroute hnone hfailed =>
      obtain ⟨rfl, hs'⟩ := (h.route hroute).relayFailed hfailed
      exact hs'
  | stranded hforwards hroute hmade hrun =>
      have hheld := (route_frame hroute).1
      exact (h.route hroute).relayRun (fun b hb => hfirst b (hheld ▸ hb)) hrun
  | registered hforwards hroute hmade hrun hadd =>
      have hs₀ := h.route hroute
      obtain ⟨hheld, hses, hdeleted, hnext⟩ := route_frame hroute
      have hno := fun hhas => lt_irrefl _ (hs₀.session_lt _ hhas)
      obtain ⟨hses₃, hdel₃, b, hb, hbid, hbc⟩ := hrun.stays hno
      rw [← hbid] at hadd
      refine (hs₀.relayRun (fun b hb => hfirst b (hheld ▸ hb)) hrun).register hb hbc
        (fun d => ?_) hadd
      -- had the transaction ended, the answer would be lost
      have hgo : ¬ Ends r.loop.outcomes := by
        intro hends
        refine hD d ⟨hforwards, by rw [hroute]; rfl, hmade.1, hmade.2, hends, ?_⟩
        rw [← hses, ← hses₃, ← hnext, ← hbid]
        exact Option.isSome_iff_exists.mpr ⟨_, hadd⟩
      rw [hdel₃ hgo, hdeleted]
      exact hdel

/-- A request of the bus. -/
lemma request (h : Answers D none s) {q : BusRequest} (hD : D → KeepsAnswer s (.request q))
    (hq : cmdMaintainRequest q s = .ok s') : Answers D none s' := by
  have harrive := h.arrive
  cases cmdMaintainRequest_cases hq with
  | unread => exact h
  | replied htoken hreply h₁ => exact ((kept D _).finalise harrive False.elim h₁).reject
  | rejected code => exact harrive.reject
  | @relayed r accepted s₁ htoken hreply hconverts hrelay h₁ =>
      have hnew := h.new s.requests le_rfl
      have hrelayed := harrive.relay
        (fun b hb hc => absurd (h.closure_lt b hb _ hc) (lt_irrefl _)) hnew.2.2
        (fun d hloses => hD d htoken hreply hconverts r hrelay (losesAnswer_requests hloses)) h₁
      cases accepted with
      | true => exact hrelayed
      | false => exact hrelayed.reject

lemma step (h : Answers D none s) {op : SipOp} (hD : D → KeepsAnswer s op)
    (hs : sipStep s op = .ok s') : Answers D none s' :=
  (kept D none).step h False.elim (fun _ hop hq => h.request (fun d => hop ▸ hD d) hq) hs

lemma initial : Answers D none sipInitial := by
  have hno : ∀ i, ¬ sipInitial.sessions.Has i := fun i => by
    simp [sipInitial, Sessions.empty, Sessions.Has]
  constructor <;> simp [sipInitial, Sip.answered, Sessions.empty, Sessions.Has]

lemma run (h : Answers D none s) {ops : List SipOp} (hD : D → AnsweringRun s ops)
    (hr : sipRun s ops = .ok s') : Answers D none s' := by
  induction ops generalizing s with
  | nil =>
      obtain rfl := Except.ok.inj hr
      exact h
  | cons op ops ih =>
      obtain ⟨s₁, h₁, hr⟩ := Lib.ok_of_bind hr
      exact ih (h.step (fun d => (hD d).1) h₁) (fun d => (hD d).2 s₁ h₁) hr

end Answers

/-- **In every run, the closure of a request is called at most once.** -/
theorem answered_at_most_once {ops : List SipOp} {s : Sip} (h : sipRun sipInitial ops = .ok s)
    (c : ℕ) : s.answered c ≤ 1 :=
  ((Answers.initial (D := False)).run False.elim h).le_one c

/-- **In every run that loses no answer the closure of a request is called at most once, and
exactly once if the request was rejected or its transaction deleted.** -/
theorem answered_once {ops : List SipOp} {s : Sip} (h : sipRun sipInitial ops = .ok s)
    (hruns : AnsweringRun sipInitial ops) (c : ℕ) :
    s.answered c ≤ 1 ∧ (c ∈ s.rejected ∨ c ∈ s.deleted → s.answered c = 1) := by
  have hs := (Answers.initial (D := True)).run (fun _ => hruns) h
  refine ⟨hs.le_one c, ?_⟩
  rintro (hrej | hdel)
  · exact hs.rejected c hrej
  · exact hs.deleted trivial c hdel (by simp)

/-- A request that is relayed over the event `1`; the calls of its transaction do `os`. -/
def relayed (os : List Outcome) : BusRequest where
  token := true
  reply := none
  converts := true
  uuid := ⟨1, 2⟩
  relay := some ⟨true, some 1, false, true, true, ⟨none, true, true, os⟩, false, true⟩
  code := 500

/-- An INVITE of the bus is sent, answered with `200`, and its transaction deleted. -/
def relayedRun : List SipOp :=
  [.accept false, .request (relayed [{ }]),
    .receive 1 ⟨some 1, false, true, [{ lastResponse := some 200, ended := true }]⟩ true]

/-- The run loses no answer, and the bus has its answer once. -/
theorem relayedRun_answered : ∃ s, sipRun sipInitial relayedRun = .ok s ∧
    s.deleted = [0] ∧ s.answers = [(0, some 200)] ∧ s.answered 0 = 1 := by
  have hruns : AnsweringRun sipInitial relayedRun := by
    refine ⟨trivial, fun _ _ => ⟨?_, fun _ _ => ⟨trivial, fun _ _ => trivial⟩⟩⟩
    rintro - - - r hr ⟨-, -, -, -, hends, -⟩
    obtain rfl := Option.some.inj hr
    obtain ⟨o, ho, hended⟩ := hends
    obtain rfl := List.mem_singleton.mp ho
    cases hended
  refine ⟨_, rfl, rfl, rfl, (answered_once rfl hruns 0).2 (.inr ?_)⟩
  exact List.mem_singleton.mpr rfl

/-- **The sending fails at once: the transaction is deleted inside `sip_relay`, its session is
registered after that, and the closure is never called.** -/
theorem failed_relay_loses_answer :
    ∃ s, sipRun sipInitial [.accept false, .request (relayed [{ ended := true }])] = .ok s ∧
      s.deleted = [0] ∧ s.sessions.Has 1 ∧ s.answered 0 = 0 :=
  ⟨_, rfl, rfl, ⟨⟨1, ⟨1, 2⟩⟩, List.mem_singleton.mpr rfl, rfl⟩, rfl⟩

end SipEcho.Transactions
