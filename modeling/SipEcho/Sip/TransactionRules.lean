import SipEcho.Sip.Transactions

/-!
What the calls of the transaction layer keep.

* `Balanced`: a transaction has a session exactly when it has a closure;
* `Careful`: what a step destroys is balanced, and a new transaction enters the map of its event;
* `Kept C P`: what is kept by destroying, making, entering and executing a transaction is kept by
  every call and by every step that is no request of the bus (`Kept.step`), in careful runs if `C`.
  `P ids` is the state with the transactions `ids` in no map of entities.
-/

namespace SipEcho.Transactions

/-! ### What a step changes -/

section Frame

variable {s s' : Sip} {a : Transaction} {id i n : ℕ}

lemma Sip.find_id (h : s.find id = some a) : a.id = id := by
  simpa using List.find?_some h

lemma Sip.mem_of_find (h : s.find id = some a) : a ∈ s.held := List.mem_of_find?_eq_some h

@[simp] lemma find_entities (f : List ℕ → List ℕ) : (s.entities n f).find id = s.find id := rfl

@[simp] lemma find_drop : (s.drop n).find id = s.find id := rfl

lemma find_modify {f : Transaction → Transaction} (hf : ∀ a, (f a).id = a.id) :
    (s.modify i f).find id = (s.find id).map fun a => if a.id = i then f a else a := by
  have hid : ∀ a : Transaction, (if a.id = i then f a else a).id = a.id := by
    intro a
    split
    · exact hf a
    · rfl
  simp only [Sip.find, Sip.modify, List.find?_map, Function.comp_def, hid]

lemma find_remove : (s.remove i).find id = if id = i then none else s.find id := by
  simp only [Sip.find, Sip.remove, List.find?_filter]
  split
  · rename_i h
    subst h
    simp
  · rename_i hne
    congr 1
    funext a
    by_cases ha : a.id = id
    · simp [ha, hne]
    · simp [ha]

/-- What `sip_destroy` does: it frees a server transaction; without a session it leaves a client
transaction alone; with one it answers, and frees the transaction and the session. -/
lemma sipDestroy_cases (h : sipDestroy id s = .ok s') :
    ∃ a, s.find id = some a ∧
      ((a.closure = none ∧ s' = s.remove id) ∨
        ∃ c, a.closure = some c ∧
          ((¬ s.sessions.Has id ∧ s' = { s with deleted := c :: s.deleted }) ∨
            (s.sessions.Has id ∧
              s' = ({ s with
                  deleted := c :: s.deleted
                  sessions := (cmdSessionDestroy s.sessions id).2
                  answers := (c, some a.answerCode) :: s.answers } : Sip).remove id))) := by
  rw [sipDestroy] at h
  cases hfind : s.find id with
  | none =>
      rw [hfind] at h
      cases h
  | some a =>
      rw [hfind] at h
      refine ⟨a, rfl, ?_⟩
      cases hc : a.closure with
      | none =>
          simp only [hc] at h
          exact .inl ⟨rfl, (Except.ok.inj h).symm⟩
      | some c =>
          simp only [hc] at h
          refine .inr ⟨c, rfl, ?_⟩
          cases hses : (cmdSessionDestroy s.sessions id).1 with
          | none =>
              have hpair : cmdSessionDestroy s.sessions id =
                  (none, (cmdSessionDestroy s.sessions id).2) := Prod.ext hses rfl
              rw [hpair] at h
              exact .inl ⟨sessionDestroy_eq_none.mp hses, (Except.ok.inj h).symm⟩
          | some u =>
              have hpair : cmdSessionDestroy s.sessions id =
                  (some u, (cmdSessionDestroy s.sessions id).2) := Prod.ext hses rfl
              rw [hpair] at h
              refine .inr ⟨?_, (Except.ok.inj h).symm⟩
              by_contra hno
              rw [sessionDestroy_eq_none.mpr hno] at hses
              cases hses

/-- `sip_destroy` leaves the other transactions and their sessions alone. -/
lemma sipDestroy_frame (h : sipDestroy id s = .ok s') (hne : i ≠ id) :
    s'.find i = s.find i ∧ (s'.sessions.Has i ↔ s.sessions.Has i) := by
  obtain ⟨a, -, ⟨-, rfl⟩ | ⟨c, -, ⟨-, rfl⟩ | ⟨-, rfl⟩⟩⟩ := sipDestroy_cases h
  · exact ⟨by rw [find_remove, if_neg hne], Iff.rfl⟩
  · exact ⟨rfl, Iff.rfl⟩
  · refine ⟨by rw [find_remove, if_neg hne]; rfl, ?_⟩
    show (cmdSessionDestroy s.sessions id).2.Has i ↔ _
    rw [mem_sessionDestroy]
    exact and_iff_right hne

/-- `sip_delete` takes the transaction out of the map of its event and destroys it. -/
lemma sipDelete_cases (h : sipDelete id s = .ok s') :
    ∃ a, s.find id = some a ∧ (s.net a.net).isSome ∧
      sipDestroy id (s.entities a.net (·.erase id)) = .ok s' := by
  rw [sipDelete] at h
  cases hfind : s.find id with
  | none =>
      rw [hfind] at h
      cases h
  | some a =>
      simp only [hfind] at h
      cases hnet : s.net a.net with
      | none =>
          rw [hnet] at h
          cases h
      | some e =>
          rw [hnet] at h
          exact ⟨a, rfl, by rw [hnet]; rfl, h⟩

end Frame

/-! ### Careful steps -/

/-- A transaction has a session exactly when it has a closure. -/
def Balanced (ses : Sessions) (a : Transaction) : Prop := a.closure.isSome = true ↔ ses.Has a.id

/-- The transaction with an id is balanced. -/
def Sip.BalancedAt (s : Sip) (id : ℕ) : Prop := ∀ a, s.find id = some a → Balanced s.sessions a

/-- The sessions after the calls of a transaction, up to the one that ends it. -/
def callsSessions (a : Transaction) : List Outcome → Sessions → Sessions
  | [], ses => ses
  | o :: os, ses =>
      if o.ended then o.sessions a ses else callsSessions a os (o.sessions a ses)

/-- One of the calls ends the transaction. -/
def Ends (os : List Outcome) : Prop := ∃ o ∈ os, o.ended = true

/-- If the calls end the transaction `a` it is balanced then. -/
def CallsSettle (ses : Sessions) (a : Transaction) (os : List Outcome) : Prop :=
  Ends os → Balanced (callsSessions a os ses) a

/-- The calls of `sip_loop` settle, and a new transaction enters the map of its event. -/
def LoopSettles (s : Sip) (w : LoopAnswer) (new : Transaction) : Prop :=
  match w.found.bind s.find with
  | some a => CallsSettle s.sessions a w.outcomes
  | none => w.created = true → w.memory = true ∧ CallsSettle s.sessions new w.outcomes

/-- All transactions of an event are balanced. -/
def EventSettles (s : Sip) (n : ℕ) : Prop :=
  ∀ e, s.net n = some e → ∀ id ∈ e.entities, s.BalancedAt id

/-- `sip_relay`: the transaction it makes for the request `c` settles, and where it makes none and
frees the event all of those are balanced. -/
def RelaySettles (s : Sip) (r : RelayAnswer) (c : ℕ) : Prop :=
  r.forwards = true → ∀ n s₁, r.route s = (some n, s₁) →
    if r.prepared = true ∧ r.loop.created = true then
      LoopSettles s₁ { r.loop with found := none }
        { id := s₁.next, invite := r.invite, net := n, closure := some c }
    else ∀ e, s₁.net n = some e → e.connect = true → EventSettles s₁ n

/-- `cmd_finalise_request`: the transaction settles. -/
def ReplySettles (s : Sip) (r : BusReply) : Prop :=
  ∀ a, (cmdSessionFind s.sessions r.uuid).bind s.find = some a →
    if r.code = 0 ∧ r.build = false then Balanced s.sessions a
    else if r.code ≠ 0 ∧ ¬ (r.found = true ∧ a.closure = none) then True
    else CallsSettle s.sessions a [r.outcome]

/-- What the step destroys is balanced, and a new transaction enters the map of its event. -/
def Careful (s : Sip) : SipOp → Prop
  | .accept _ => True
  | .request q => q.token = true →
      (∀ r, q.reply = some r → ReplySettles { s with requests := s.requests + 1 } r) ∧
      (q.reply = none → q.converts = true → ∀ r, q.relay = some r →
        RelaySettles { s with requests := s.requests + 1 } r s.requests)
  | .receive n w invite =>
      LoopSettles s w { id := s.next, invite, net := n, closure := none }
  | .redo id o _ => ∀ a, s.find id = some a →
      if a.ctxType = .nist then Balanced s.sessions a else CallsSettle s.sessions a [o]
  | .timeout n old => ∀ e, s.net n = some e → ∀ id ∈ e.entities, old id = true → s.BalancedAt id
  | .update _ _ => True
  | .lose n => EventSettles s n

/-- Every step of a run is. -/
def CarefulRun (s : Sip) : List SipOp → Prop
  | [] => True
  | op :: ops => Careful s op ∧ ∀ s', sipStep s op = .ok s' → CarefulRun s' ops

/-! ### What is kept -/

/-- `P` is kept by what a call does to the transactions; in a run that is careful (`C`) what is
destroyed is balanced and no new transaction misses its map. -/
structure Kept (C : Prop) (P : List ℕ → Sip → Prop) : Prop where
  destroyed {ids : List ℕ} {s s' : Sip} {id : ℕ} : P (id :: ids) s → (C → s.BalancedAt id) →
    sipDestroy id s = .ok s' → P ids s'
  taken {s : Sip} {a : Transaction} : P [] s → s.find a.id = some a →
    P [a.id] (s.entities a.net (·.erase a.id))
  dropped {s : Sip} {e : NetEvent} : P [] s → s.net e.id = some e → P e.entities (s.drop e.id)
  made {s : Sip} {a : Transaction} : P [] s → a.id = s.next → a.closure = none →
    P [a.id] (s.create a)
  entered {ids : List ℕ} {s : Sip} {a : Transaction} : P ids s → ids = [] ∨ ids = [a.id] →
    s.find a.id = some a → (s.net a.net).isSome = true → P [] (s.entities a.net (enter a.id))
  lost {s : Sip} {id : ℕ} : ¬ C → P [id] s → P [] s
  executed {s : Sip} {a : Transaction} {o : Outcome} : P [] s → s.find a.id = some a →
    P [] { s.modify a.id o.execute with sessions := o.sessions a s.sessions }
  retried {s : Sip} {id n : ℕ} : P [] s → P [] (s.modify id fun a => { a with retry := n })
  accepted {s : Sip} {b : Bool} : P [] s →
    P [] { s with nets := ⟨s.netId + 1, b, []⟩ :: s.nets, netId := s.netId + 1 }

/-- What was balanced is, after a transaction was destroyed. -/
lemma Sip.BalancedAt.destroy {s s' : Sip} {id i : ℕ} (hi : s.BalancedAt i)
    (h : sipDestroy id s = .ok s') : s'.BalancedAt i := by
  intro a ha
  by_cases hne : i = id
  · subst hne
    obtain ⟨b, -, ⟨-, rfl⟩ | ⟨c, -, ⟨-, rfl⟩ | ⟨-, rfl⟩⟩⟩ := sipDestroy_cases h
    · rw [find_remove, if_pos rfl] at ha
      cases ha
    · exact hi a ha
    · rw [find_remove, if_pos rfl] at ha
      cases ha
  · obtain ⟨hfind, hhas⟩ := sipDestroy_frame h hne
    rw [hfind] at ha
    rw [Balanced, Sip.find_id ha, hhas, ← Sip.find_id ha]
    exact hi a ha

/-- Nor does `sip_delete` unbalance anything. -/
lemma Sip.BalancedAt.delete {s s' : Sip} {id i : ℕ} (hi : s.BalancedAt i)
    (h : sipDelete id s = .ok s') : s'.BalancedAt i := by
  obtain ⟨a, -, -, h⟩ := sipDelete_cases h
  have hi' : (s.entities a.net (·.erase id)).BalancedAt i := hi
  exact hi'.destroy h

lemma execute_find {s : Sip} {a : Transaction} {o : Outcome} (hfind : s.find a.id = some a) :
    ({ s.modify a.id o.execute with sessions := o.sessions a s.sessions } : Sip).find a.id =
      some (o.execute a) := by
  show (s.modify a.id o.execute).find a.id = _
  rw [find_modify (f := o.execute) (fun _ => rfl), hfind]
  simp

/-- The sessions of a call depend on the id and on whether there is a closure. -/
lemma outcome_sessions_congr {a b : Transaction} (hid : a.id = b.id)
    (hc : a.closure = b.closure) (o : Outcome) (ses : Sessions) :
    o.sessions a ses = o.sessions b ses := by
  rw [Outcome.sessions, Outcome.sessions, hid, hc]

lemma callsSessions_congr {a b : Transaction} (hid : a.id = b.id) (hc : a.closure = b.closure)
    (os : List Outcome) (ses : Sessions) : callsSessions a os ses = callsSessions b os ses := by
  induction os generalizing ses with
  | nil => rfl
  | cons o os ih =>
      rw [callsSessions, callsSessions, outcome_sessions_congr hid hc, ih]

namespace Kept

variable {C : Prop} {P : List ℕ → Sip → Prop} {s s' : Sip} {a : Transaction} {id n : ℕ}
  {ids : List ℕ} {quiet ended : Bool} {o : Outcome} {os : List Outcome}

lemma delete (hP : Kept C P) (hs : P [] s) (hC : C → s.BalancedAt id)
    (h : sipDelete id s = .ok s') : P [] s' := by
  obtain ⟨a, hfind, -, h⟩ := sipDelete_cases h
  obtain rfl := Sip.find_id hfind
  exact hP.destroyed (hP.taken hs hfind) hC h

lemma destroyAll (hP : Kept C P) (hs : P ids s) (hC : C → ∀ id ∈ ids, s.BalancedAt id)
    (h : destroyAll ids s = .ok s') : P [] s' := by
  induction ids generalizing s with
  | nil =>
      obtain rfl := Except.ok.inj h
      exact hs
  | cons id ids ih =>
      obtain ⟨s₁, h₁, h⟩ := Lib.ok_of_bind h
      refine ih (hP.destroyed hs (fun c => hC c id (by simp)) h₁) (fun c i hi => ?_) h
      exact (hC c i (List.mem_cons_of_mem _ hi)).destroy h₁

lemma deleteAll (hP : Kept C P) (hs : P [] s) (hC : C → ∀ id ∈ ids, s.BalancedAt id)
    (h : deleteAll ids s = .ok s') : P [] s' := by
  induction ids generalizing s with
  | nil =>
      obtain rfl := Except.ok.inj h
      exact hs
  | cons id ids ih =>
      obtain ⟨s₁, h₁, h⟩ := Lib.ok_of_bind h
      refine ih (hP.delete hs (fun c => hC c id (by simp)) h₁) (fun c i hi => ?_) h
      exact (hC c i (List.mem_cons_of_mem _ hi)).delete h₁

lemma free (hP : Kept C P) (hs : P [] s) (hC : C → EventSettles s n)
    (h : netEventFree n s = .ok s') : P [] s' := by
  rw [netEventFree] at h
  cases hnet : s.net n with
  | none =>
      rw [hnet] at h
      cases h
  | some e =>
      rw [hnet] at h
      have hid : e.id = n := by simpa using List.find?_some hnet
      subst hid
      exact hP.destroyAll (hP.dropped hs hnet) (fun c id hmem => hC c e hnet id hmem) h

/-- Only an event without transactions is freed by `net_event_update`. -/
lemma update (hP : Kept C P) (hs : P [] s) (h : netEventUpdate n quiet s = .ok s') :
    P [] s' := by
  rw [netEventUpdate] at h
  cases hnet : s.net n with
  | none =>
      rw [hnet] at h
      cases h
  | some e =>
      simp only [hnet] at h
      split at h
      · rename_i hidle
        refine hP.free hs (fun _ e' he' id hid => ?_) h
        rw [hnet] at he'
        obtain rfl := Option.some.inj he'
        rw [hidle.2.2] at hid
        cases hid
      · obtain rfl := Except.ok.inj h
        exact hs

lemma call (hP : Kept C P) (hs : P [] s) (hfind : s.find a.id = some a)
    (hC : C → o.ended = true → Balanced (o.sessions a s.sessions) a)
    (h : sipCall a.id o s = .ok (ended, s')) : P [] s' := by
  rw [sipCall] at h
  simp only [hfind] at h
  have hexec := hP.executed (o := o) hs hfind
  split at h
  · rename_i hended
    obtain ⟨s₁, h₁, h⟩ := Lib.ok_of_bind h
    obtain ⟨-, rfl⟩ := Prod.mk.inj (Except.ok.inj h)
    refine hP.delete hexec (fun c b hb => ?_) h₁
    rw [execute_find hfind] at hb
    obtain rfl := Option.some.inj hb
    exact hC c hended
  · obtain ⟨-, rfl⟩ := Prod.mk.inj (Except.ok.inj h)
    exact hexec

lemma calls (hP : Kept C P) (hs : P [] s) (hfind : s.find a.id = some a)
    (hC : C → CallsSettle s.sessions a os) (h : sipCalls a.id os s = .ok s') : P [] s' := by
  induction os generalizing s a with
  | nil =>
      obtain rfl := Except.ok.inj h
      exact hs
  | cons o os ih =>
      obtain ⟨⟨ended, s₁⟩, h₁, h⟩ := Lib.ok_of_bind h
      have hs₁ := hP.call hs hfind (fun c hended => by
        have := hC c ⟨o, by simp, hended⟩
        rwa [callsSessions, if_pos hended] at this) h₁
      cases hended : ended with
      | true =>
          rw [hended] at h
          obtain rfl := Except.ok.inj h
          exact hs₁
      | false =>
          rw [hended] at h
          -- the transaction goes on: it is the executed one
          have hgo : o.ended = false ∧
              s₁ = { s.modify a.id o.execute with sessions := o.sessions a s.sessions } := by
            rw [sipCall] at h₁
            simp only [hfind] at h₁
            split at h₁
            · obtain ⟨s₂, -, h₂⟩ := Lib.ok_of_bind h₁
              have := congrArg Prod.fst (Except.ok.inj h₂)
              rw [hended] at this
              cases this
            · exact ⟨by simpa using ‹¬ o.ended = true›, (Prod.mk.inj (Except.ok.inj h₁)).2.symm⟩
          obtain ⟨hno, rfl⟩ := hgo
          refine ih (a := o.execute a) hs₁ (execute_find hfind) (fun c hends => ?_) h
          have := hC c (hends.imp fun o' ho' => ⟨List.mem_cons_of_mem _ ho'.1, ho'.2⟩)
          rw [callsSessions, if_neg (by simp [hno])] at this
          rw [Balanced, callsSessions_congr (a := o.execute a) (b := a) rfl rfl]
          exact this

/-- A transaction that is in no map yet is entered and executed. -/
lemma enter {memory : Bool} (hP : Kept C P) (hs : P ids s) (hids : ids = [] ∨ ids = [a.id])
    (hfind : s.find a.id = some a) (hm : C → ids = [] ∨ memory = true)
    (hC : C → CallsSettle s.sessions a os) {s₁ : Sip} (h₁ : pushEntity memory a s = .ok s₁)
    (h : sipCalls a.id os s₁ = .ok s') : P [] s' := by
  rw [pushEntity] at h₁
  cases hnet : s.net a.net with
  | none =>
      rw [hnet] at h₁
      cases h₁
  | some e =>
      simp only [hnet] at h₁
      obtain rfl := Except.ok.inj h₁
      cases memory with
      | true =>
          rw [if_pos rfl] at h
          exact hP.calls (hP.entered hs hids hfind (by rw [hnet]; rfl)) hfind hC h
      | false =>
          rw [if_neg (by simp)] at h
          rcases hids with rfl | rfl
          · exact hP.calls hs hfind hC h
          · refine hP.calls (hP.lost (fun c => ?_) hs) hfind hC h
            rcases hm c with hnil | hm
            · cases hnil
            · cases hm

/-- `sip_loop` for a new transaction; `made` is what its making keeps. -/
lemma loopNew {w : LoopAnswer} (hP : Kept C P) (hs : P [a.id] (s.create a))
    (hC : C → w.memory = true ∧ CallsSettle s.sessions a w.outcomes) {s₁ : Sip}
    (h₁ : pushEntity w.memory a (s.create a) = .ok s₁)
    (h : sipCalls a.id w.outcomes s₁ = .ok s') : P [] s' :=
  have hfind : (s.create a).find a.id = some a := by simp [Sip.find, Sip.create]
  hP.enter hs (.inr rfl) hfind (fun c => .inr (hC c).1) (fun c => (hC c).2) h₁ h

/-- `sip_loop` for an event that arrived. -/
lemma receive {w : LoopAnswer} {invite : Bool} {r : Option ℕ} (hP : Kept C P) (hs : P [] s)
    (hC : C → LoopSettles s w { id := s.next, invite, net := n, closure := none })
    (h : sipLoop w invite n none s = .ok (r, s')) : P [] s' := by
  rw [sipLoop] at h
  simp only [LoopSettles] at hC
  cases hfound : w.found.bind s.find with
  | some a =>
      simp only [hfound] at h hC
      obtain ⟨i, -, hfind⟩ := Option.bind_eq_some_iff.mp hfound
      obtain rfl := Sip.find_id hfind
      obtain ⟨s₁, h₁, h⟩ := Lib.ok_of_bind h
      obtain ⟨s₂, h₂, h⟩ := Lib.ok_of_bind h
      obtain ⟨-, rfl⟩ := Prod.mk.inj (Except.ok.inj h)
      exact hP.enter hs (.inl rfl) hfind (fun _ => .inl rfl) hC h₁ h₂
  | none =>
      simp only [hfound] at h hC
      split at h
      · rename_i hcreated
        obtain ⟨s₁, h₁, h⟩ := Lib.ok_of_bind h
        obtain ⟨s₂, h₂, h⟩ := Lib.ok_of_bind h
        obtain ⟨-, rfl⟩ := Prod.mk.inj (Except.ok.inj h)
        exact hP.loopNew (hP.made hs rfl rfl) (fun c => hC c hcreated) h₁ h₂
      · obtain ⟨-, rfl⟩ := Prod.mk.inj (Except.ok.inj h)
        exact hs

/-- A transaction is executed once and its event looked at. -/
lemma callUpdate (hP : Kept C P) (hs : P [] s) (hfind : s.find a.id = some a)
    (hC : C → CallsSettle s.sessions a [o])
    (h : (do
      let (_, s) ← sipCall a.id o s
      netEventUpdate a.net quiet s) = .ok s') : P [] s' := by
  obtain ⟨⟨ended, s₁⟩, h₁, h⟩ := Lib.ok_of_bind h
  refine hP.update (hP.call hs hfind (fun c hended => ?_) h₁) h
  have := hC c ⟨o, List.mem_singleton.mpr rfl, hended⟩
  rwa [callsSessions, if_pos hended] at this

/-- `cmd_finalise_request`. -/
lemma finalise {r : BusReply} (hP : Kept C P) (hs : P [] s) (hC : C → ReplySettles s r)
    (h : cmdFinaliseRequest r s = .ok s') : P [] s' := by
  simp only [cmdFinaliseRequest, sipFinalizeFailure, sipFinalize] at h
  cases hfound : (cmdSessionFind s.sessions r.uuid).bind s.find with
  | none =>
      simp only [hfound, ite_self] at h
      obtain rfl := Except.ok.inj h
      exact hs
  | some a =>
      obtain ⟨i, -, hfind⟩ := Option.bind_eq_some_iff.mp hfound
      obtain rfl := Sip.find_id hfind
      simp only [hfound] at h
      have hsettles := fun c => hC c a hfound
      by_cases hcode : r.code = 0
      · rw [if_pos hcode] at h
        cases hbuild : r.build with
        | true =>
            rw [if_pos hbuild] at h
            refine hP.callUpdate hs hfind (fun c => ?_) h
            simpa [hcode, hbuild] using hsettles c
        | false =>
            rw [if_neg (by simp [hbuild])] at h
            refine hP.delete hs (fun c b hb => ?_) h
            rw [hfind] at hb
            obtain rfl := Option.some.inj hb
            simpa [hcode, hbuild] using hsettles c
      · rw [if_neg hcode] at h
        split at h
        · rename_i hserver
          refine hP.callUpdate hs hfind (fun c => ?_) h
          simpa [hcode, hserver] using hsettles c
        · obtain rfl := Except.ok.inj h
          exact hs

/-- `sip_redo`. -/
lemma redo (hP : Kept C P) (hs : P [] s)
    (hC : C → ∀ a, s.find id = some a →
      if a.ctxType = .nist then Balanced s.sessions a else CallsSettle s.sessions a [o])
    (h : sipRedo id o quiet s = .ok s') : P [] s' := by
  rw [sipRedo] at h
  cases hfind : s.find id with
  | none =>
      simp only [hfind] at h
      obtain rfl := Except.ok.inj h
      exact hs
  | some a =>
      simp only [hfind] at h
      obtain rfl := Sip.find_id hfind
      split at h
      · rename_i hnist
        refine hP.delete hs (fun c b hb => ?_) h
        rw [hfind] at hb
        obtain rfl := Option.some.inj hb
        simpa [hnist] using hC c a hfind
      · rename_i hnist
        obtain ⟨⟨ended, s₁⟩, h₁, h⟩ := Lib.ok_of_bind h
        have hs₁ := hP.call hs hfind (fun c hended => by
          have := hC c a hfind
          rw [if_neg hnist] at this
          have := this ⟨o, List.mem_singleton.mpr rfl, hended⟩
          rwa [callsSessions, if_pos hended] at this) h₁
        refine hP.update ?_ h
        dsimp only
        split
        · exact hs₁
        · exact hP.retried hs₁

/-- **Every step but a request of the bus keeps `P`.** -/
lemma step {op : SipOp} (hP : Kept C P) (hs : P [] s) (hC : C → Careful s op)
    (hrequest : ∀ q, op = .request q → cmdMaintainRequest q s = .ok s' → P [] s')
    (h : sipStep s op = .ok s') : P [] s' := by
  cases op with
  | accept b =>
      obtain rfl := Except.ok.inj h
      exact hP.accepted hs
  | request q => exact hrequest q rfl h
  | receive n w invite =>
      rw [sipStep] at h
      split at h
      · obtain rfl := Except.ok.inj h
        exact hs
      · obtain ⟨⟨r, s₁⟩, h₁, h⟩ := Lib.ok_of_bind h
        obtain rfl := Except.ok.inj h
        exact hP.receive hs hC h₁
  | redo id o quiet => exact hP.redo hs hC h
  | timeout n old =>
      simp only [sipStep, sipTimeout] at h
      split at h
      · obtain rfl := Except.ok.inj h
        exact hs
      · rename_i e hnet
        refine hP.deleteAll hs (fun c id hid => ?_) h
        obtain ⟨hmem, hold⟩ := List.mem_filter.mp (List.mem_reverse.mp hid)
        exact hC c e hnet id hmem hold
  | update n quiet =>
      rw [sipStep] at h
      split at h
      · exact hP.update hs h
      · obtain rfl := Except.ok.inj h
        exact hs
  | lose n =>
      rw [sipStep] at h
      split at h
      · exact hP.free hs hC h
      · obtain rfl := Except.ok.inj h
        exact hs

end Kept

/-! ### Relaying a request -/

section Relay

variable {D : Prop} {s s' : Sip} {a : Transaction} {c n : ℕ} {o : Outcome} {os : List Outcome}
  {ended quiet : Bool}

/-- What the calls of a client transaction without a session leave alone: it stays, and no session
and no other transaction changes; unless one of the calls ends it nothing is deleted. -/
structure Relayed (os : List Outcome) (a : Transaction) (s s' : Sip) : Prop where
  sessions : s'.sessions = s.sessions
  stays : ∃ b, s'.find a.id = some b ∧ b.id = a.id ∧ b.closure = a.closure
  deleted : ¬ Ends os → s'.deleted = s.deleted

/-- A call of a client transaction without a session never frees it. -/
lemma call_relayed (hfind : s.find a.id = some a) (hc : a.closure = some c)
    (hno : ¬ s.sessions.Has a.id) (h : sipCall a.id o s = .ok (ended, s')) :
    Relayed [o] a s s' := by
  rw [sipCall] at h
  simp only [hfind] at h
  have hses : o.sessions a s.sessions = s.sessions := by simp [Outcome.sessions, hc]
  have hexec := execute_find (o := o) hfind
  rw [hses] at h hexec
  split at h
  · rename_i hended
    obtain ⟨s₁, h₁, h⟩ := Lib.ok_of_bind h
    obtain ⟨-, rfl⟩ := Prod.mk.inj (Except.ok.inj h)
    obtain ⟨b, hb, -, hd⟩ := sipDelete_cases h₁
    rw [hexec] at hb
    obtain rfl := Option.some.inj hb
    obtain ⟨b, hb, ⟨hnone, -⟩ | ⟨c', -, ⟨-, rfl⟩ | ⟨hhas, -⟩⟩⟩ := sipDestroy_cases hd
    · rw [find_entities, hexec] at hb
      obtain rfl := Option.some.inj hb
      rw [Outcome.execute, hc] at hnone
      cases hnone
    · exact ⟨rfl, ⟨o.execute a, hexec, rfl, rfl⟩, fun hno => absurd ⟨o, by simp, hended⟩ hno⟩
    · exact absurd hhas hno
  · obtain ⟨-, rfl⟩ := Prod.mk.inj (Except.ok.inj h)
    exact ⟨rfl, ⟨o.execute a, hexec, rfl, rfl⟩, fun _ => rfl⟩

lemma calls_relayed (hfind : s.find a.id = some a) (hc : a.closure = some c)
    (hno : ¬ s.sessions.Has a.id) (h : sipCalls a.id os s = .ok s') : Relayed os a s s' := by
  induction os generalizing s a with
  | nil =>
      obtain rfl := Except.ok.inj h
      exact ⟨rfl, ⟨a, hfind, rfl, rfl⟩, fun _ => rfl⟩
  | cons o os ih =>
      obtain ⟨⟨ended, s₁⟩, h₁, h⟩ := Lib.ok_of_bind h
      have hone := call_relayed hfind hc hno h₁
      cases ended with
      | true =>
          obtain rfl := Except.ok.inj h
          refine ⟨hone.sessions, hone.stays, fun hends => hone.deleted fun hends' => hends ?_⟩
          obtain ⟨o', ho', hended⟩ := hends'
          exact ⟨o', by simp [List.mem_singleton.mp ho'], hended⟩
      | false =>
          obtain ⟨b, hb, hid, hcl⟩ := hone.stays
          rw [← hid] at hb h
          have hmore := ih hb (hcl.trans hc) (by rw [hone.sessions, hid]; exact hno) h
          refine ⟨hmore.sessions.trans hone.sessions, ?_, fun hends => ?_⟩
          · obtain ⟨b', hb', hid', hcl'⟩ := hmore.stays
            exact ⟨b', by rw [← hid]; exact hb', hid'.trans hid, hcl'.trans hcl⟩
          · have hrest : ¬ Ends os := fun ⟨o', ho', he⟩ =>
              hends ⟨o', List.mem_cons_of_mem _ ho', he⟩
            have hfirst : ¬ Ends [o] := fun ⟨o', ho', he⟩ =>
              hends ⟨o', by simp [List.mem_singleton.mp ho'], he⟩
            rw [hmore.deleted hrest, hone.deleted hfirst]

/-- `net_event_update` changes the events alone. -/
lemma update_frame (h : netEventUpdate n quiet s = .ok s') :
    s'.held = s.held ∧ s'.sessions = s.sessions ∧ s'.deleted = s.deleted := by
  rw [netEventUpdate] at h
  cases hnet : s.net n with
  | none =>
      rw [hnet] at h
      cases h
  | some e =>
      simp only [hnet] at h
      split at h
      · rename_i hidle
        rw [netEventFree, hnet] at h
        simp only [hidle.2.2] at h
        obtain rfl := Except.ok.inj h
        exact ⟨rfl, rfl, rfl⟩
      · obtain rfl := Except.ok.inj h
        exact ⟨rfl, rfl, rfl⟩

/-- The new transaction of a request enters the map of its event. -/
lemma push_frame {memory : Bool} (h : pushEntity memory a s = .ok s') :
    s'.held = s.held ∧ s'.sessions = s.sessions ∧ s'.deleted = s.deleted := by
  rw [pushEntity] at h
  split at h
  · cases h
  · obtain rfl := Except.ok.inj h
    split <;> exact ⟨rfl, rfl, rfl⟩

/-- Choosing an event makes one at most. -/
lemma route_cases {r : RelayAnswer} {i : Option ℕ} (h : r.route s = (i, s')) : s' = s ∨
    s' = { s with nets := ⟨s.netId + 1, true, []⟩ :: s.nets, netId := s.netId + 1 } := by
  rw [RelayAnswer.route] at h
  split at h
  · exact .inl (congrArg Prod.snd h).symm
  · split at h
    · exact .inr (congrArg Prod.snd h).symm
    · exact .inl (congrArg Prod.snd h).symm

/-- Choosing an event leaves the rest. -/
lemma route_frame {r : RelayAnswer} {i : Option ℕ} (h : r.route s = (i, s')) :
    s'.held = s.held ∧ s'.sessions = s.sessions ∧ s'.deleted = s.deleted ∧ s'.next = s.next := by
  rcases route_cases h with rfl | rfl <;> exact ⟨rfl, rfl, rfl, rfl⟩

/-- The transaction that `sip_relay` makes for the request `c`. -/
def relayTransaction (r : RelayAnswer) (c n : ℕ) (s : Sip) : Transaction :=
  { id := s.next, invite := r.invite, net := n, closure := some c }

/-- What `sip_relay` does with it before the session is registered. -/
structure RelayRun (r : RelayAnswer) (c n : ℕ) (s s₁ s₂ s₃ : Sip) : Prop where
  push : pushEntity r.loop.memory (relayTransaction r c n s) (s.create (relayTransaction r c n s)) =
    .ok s₁
  calls : sipCalls s.next r.loop.outcomes s₁ = .ok s₂
  update : netEventUpdate n r.quiet s₂ = .ok s₃

/-- **The ways through `sip_relay`.** -/
inductive RelayCase (r : RelayAnswer) (c : ℕ) (uuid : Uuid) (s : Sip) : Bool → Sip → Prop
  | refused : RelayCase r c uuid s false s
  | unrouted {s₀ : Sip} (hroute : r.route s = (none, s₀)) : RelayCase r c uuid s false s₀
  | failed {n : ℕ} {s₀ s' : Sip} {accepted : Bool} (hforwards : r.forwards = true)
      (hroute : r.route s = (some n, s₀)) (hnone : ¬ (r.prepared = true ∧ r.loop.created = true))
      (h : relayFailed n s₀ = .ok (accepted, s')) : RelayCase r c uuid s accepted s'
  | stranded {n : ℕ} {s₀ s₁ s₂ s₃ : Sip} (hforwards : r.forwards = true)
      (hroute : r.route s = (some n, s₀)) (hmade : r.prepared = true ∧ r.loop.created = true)
      (hrun : RelayRun r c n s₀ s₁ s₂ s₃) : RelayCase r c uuid s false s₃
  | registered {n : ℕ} {s₀ s₁ s₂ s₃ : Sip} {sessions : Sessions} (hforwards : r.forwards = true)
      (hroute : r.route s = (some n, s₀)) (hmade : r.prepared = true ∧ r.loop.created = true)
      (hrun : RelayRun r c n s₀ s₁ s₂ s₃)
      (hadd : cmdSessionAdd s₃.sessions r.memory s₀.next uuid = some sessions) :
      RelayCase r c uuid s true { s₃ with sessions }

lemma sipRelay_cases {r : RelayAnswer} {uuid : Uuid} {accepted : Bool}
    (h : sipRelay r c uuid s = .ok (accepted, s')) : RelayCase r c uuid s accepted s' := by
  rw [sipRelay] at h
  split at h
  · obtain ⟨rfl, rfl⟩ := Prod.mk.inj (Except.ok.inj h)
    exact .refused
  · rename_i hforwards
    have hforwards : r.forwards = true := by simpa using hforwards
    rcases hroute : r.route s with ⟨_ | n, s₀⟩ <;> simp only [hroute] at h
    · obtain ⟨rfl, rfl⟩ := Prod.mk.inj (Except.ok.inj h)
      exact .unrouted hroute
    · split at h
      · rename_i hprepared
        exact .failed hforwards hroute (by simp [hprepared]) h
      · rename_i hprepared
        obtain ⟨⟨i, s₂⟩, hloop, h⟩ := Lib.ok_of_bind h
        simp only [sipLoop, Option.bind_none] at hloop
        split at hloop
        · rename_i hcreated
          have hmade : r.prepared = true ∧ r.loop.created = true :=
            ⟨by simpa using hprepared, hcreated⟩
          obtain ⟨s₁, hpush, hloop⟩ := Lib.ok_of_bind hloop
          obtain ⟨s₂', hcalls, hloop⟩ := Lib.ok_of_bind hloop
          obtain ⟨rfl, rfl⟩ := Prod.mk.inj (Except.ok.inj hloop)
          obtain ⟨s₃, hupdate, h⟩ := Lib.ok_of_bind h
          have hrun : RelayRun r c n s₀ s₁ s₂' s₃ := ⟨hpush, hcalls, hupdate⟩
          split at h
          · rename_i sessions hadd
            obtain ⟨rfl, rfl⟩ := Prod.mk.inj (Except.ok.inj h)
            exact .registered hforwards hroute hmade hrun hadd
          · obtain ⟨rfl, rfl⟩ := Prod.mk.inj (Except.ok.inj h)
            exact .stranded hforwards hroute hmade hrun
        · rename_i hcreated
          obtain ⟨rfl, rfl⟩ := Prod.mk.inj (Except.ok.inj hloop)
          exact .failed hforwards hroute (fun hand => hcreated hand.2) h

/-- The transaction is still held when its session is registered, and no session was taken away. -/
lemma RelayRun.stays {r : RelayAnswer} {s₁ s₂ s₃ : Sip} (h : RelayRun r c n s s₁ s₂ s₃)
    (hno : ¬ s.sessions.Has s.next) :
    s₃.sessions = s.sessions ∧ (¬ Ends r.loop.outcomes → s₃.deleted = s.deleted) ∧
      ∃ b ∈ s₃.held, b.id = s.next ∧ b.closure = some c := by
  obtain ⟨hheld₁, hses₁, hdel₁⟩ := push_frame h.push
  have hfind : s₁.find (relayTransaction r c n s).id = some (relayTransaction r c n s) := by
    rw [Sip.find, hheld₁]
    simp [Sip.create]
  have hcalled := calls_relayed hfind rfl (by rw [hses₁]; exact hno) h.calls
  obtain ⟨hheld₃, hses₃, hdel₃⟩ := update_frame h.update
  obtain ⟨b, hb, hbid, hbc⟩ := hcalled.stays
  refine ⟨hses₃.trans (hcalled.sessions.trans hses₁),
    fun hends => hdel₃.trans ((hcalled.deleted hends).trans hdel₁), b, ?_, hbid, hbc⟩
  rw [hheld₃]
  exact Sip.mem_of_find hb

/-! ### Requests of the bus -/

/-- **The ways through `cmd_maintain_request`**, from the state with the request counted. -/
inductive RequestCase (q : BusRequest) (s : Sip) : Sip → Prop
  | unread : RequestCase q s s
  | replied {reply : BusReply} {s₁ : Sip} (htoken : q.token = true) (hreply : q.reply = some reply)
      (h : cmdFinaliseRequest reply { s with requests := s.requests + 1 } = .ok s₁) :
      RequestCase q s (s₁.reject s.requests none)
  | rejected (code : Option ℕ) :
      RequestCase q s (({ s with requests := s.requests + 1 } : Sip).reject s.requests code)
  | relayed {r : RelayAnswer} {accepted : Bool} {s₁ : Sip} (htoken : q.token = true)
      (hreply : q.reply = none) (hconverts : q.converts = true) (hrelay : q.relay = some r)
      (h : sipRelay r s.requests q.uuid { s with requests := s.requests + 1 } =
        .ok (accepted, s₁)) :
      RequestCase q s (if accepted then s₁ else s₁.reject s.requests (some q.code))

lemma cmdMaintainRequest_cases {q : BusRequest} (h : cmdMaintainRequest q s = .ok s') :
    RequestCase q s s' := by
  rw [cmdMaintainRequest] at h
  split at h
  · obtain rfl := Except.ok.inj h
    exact .unread
  · rename_i htoken
    have htoken : q.token = true := by simpa using htoken
    dsimp only at h
    cases hreply : q.reply with
    | some reply =>
        simp only [hreply] at h
        obtain ⟨s₁, h₁, h⟩ := Lib.ok_of_bind h
        obtain rfl := Except.ok.inj h
        exact .replied htoken hreply h₁
    | none =>
        simp only [hreply] at h
        split at h
        · obtain rfl := Except.ok.inj h
          exact .rejected none
        · rename_i hconverts
          cases hrelay : q.relay with
          | none =>
              simp only [hrelay, sipProxy] at h
              obtain rfl := Except.ok.inj h
              exact .rejected (some q.code)
          | some r =>
              simp only [hrelay, sipProxy] at h
              obtain ⟨⟨accepted, s₁⟩, h₁, h⟩ := Lib.ok_of_bind h
              obtain rfl := Except.ok.inj h
              exact .relayed htoken hreply (by simpa using hconverts) hrelay h₁

end Relay

end SipEcho.Transactions
