import SipEcho.Sip.Transactions

/-!
The timers of a transaction that gets no reply: `sip_redo`, which retransmits or terminates,
`sip_transaction_retransmit_begin`, which arms the next timer, and what `sip_destroy` then answers.

osip calls `*_SENT_AGAIN` while it executes the timer event that retransmits.  So the count of the
retries is read, for the next delay, before `sip_redo` has raised it.

* `sipRedo`, `redoTimes`: one timer that fires, and several;
* `redoTimes_udp`, `redoTimes_reliable`: the states they lead through;
* `schedule_iff`: over UDP the delay after the `k`-th retransmission is `min(T1 * 2^k, T2)` exactly
  for the first one and from the fourth on, if there is a timer at all; nine retransmissions are
  made, and no shift overflows;
* `failureCause_iff`: when the answer to the bus tells a transaction that ran into its terminating
  timer from one that ended before.
-/

namespace SipEcho.Retransmission

/-- The timer events of osip that `sip_redo` makes. -/
inductive TimerEvent where
  | timeoutA | timeoutB | timeoutE | timeoutF | timeoutG | timeoutH
  deriving DecidableEq, Repr

/-- The event `sip_redo` makes: it retransmits or it terminates; none for a server transaction
that is not an INVITE's. -/
def redoEvent (a : CallbackState) : Option TimerEvent :=
  match a.ctxType with
  | .ict => some (if a.retry < sipRetry then .timeoutA else .timeoutB)
  | .nict => some (if a.retry < sipRetry then .timeoutE else .timeoutF)
  | .ist => some (if a.retry < sipRetry then .timeoutG else .timeoutH)
  | .nist => none

/-- What an unanswered transaction meets: what the bus answers, the message, whether there is
memory for an ACK. -/
structure Surroundings where
  bus : BusAnswer
  ack : Bool
  message : CallbackMessage

variable (w : Surroundings)

/-- `osip_transaction_execute` of a timer event: the message is sent again and the callback made,
or the transaction is terminated. -/
def execute (e : TimerEvent) (a : CallbackState) : Option CallbackState :=
  match e with
  | .timeoutA => some (sipCallbackSwitch .ictInviteSentAgain w.bus w.ack a w.message).2.2
  | .timeoutE => some (sipCallbackSwitch .nictRequestSentAgain w.bus w.ack a w.message).2.2
  | .timeoutG => some (sipCallbackSwitch .istStatus3456xxSentAgain w.bus w.ack a w.message).2.2
  | .timeoutB | .timeoutF | .timeoutH => none

/-- `sip_redo`, when the timer of the transaction fires; `none` if the transaction is deleted. -/
def sipRedo (a : CallbackState) : Option CallbackState :=
  match redoEvent a with
  | none => none
  | some e => (execute w e a).map fun a' => { a' with retry := a.retry + 1 }

/-- The message goes out for the first time: osip makes the callback `sent`. -/
def firstSend (sent : CallbackType) (a : CallbackState) : CallbackState :=
  (sipCallbackSwitch sent w.bus w.ack a w.message).2.2

/-- The timer fires so many times, and every time the message is sent again; `none` if there is
no timer, or a time at which it is not. -/
def redoTimes : ℕ → CallbackState → Option CallbackState
  | 0, a => some a
  | k + 1, a => do
      let a ← redoTimes k a
      let _ ← a.timer
      sipRedo w a

/-- The callbacks at which osip has sent the message of a transaction for the first time. -/
def sentTypes : FsmType → List CallbackType
  | .ict => [.ictInviteSent]
  | .nict => [.nictRegisterSent, .nictByeSent, .nictOptionsSent, .nictInfoSent, .nictCancelSent,
      .nictNotifySent, .nictSubscribeSent, .nictUnknownRequestSent]
  | .ist => [.istStatus2xxSent, .istStatus3xxSent, .istStatus4xxSent, .istStatus5xxSent,
      .istStatus6xxSent]
  | .nist => []

/-- `sip_callback_switch` does not know the callback, and no timer is begun. -/
def Unhandled (sent : CallbackType) : Prop :=
  sent = .nictRegisterSent ∨ sent = .nictSubscribeSent ∨ sent = .nictUnknownRequestSent

instance : DecidablePred Unhandled := fun _ => inferInstanceAs (Decidable (_ ∨ _))

/-- The delay armed after the `k`-th retransmission, after the first sending for `0`. -/
def armed (sent : CallbackType) (k : ℕ) (a : CallbackState) : Option ℕ :=
  (redoTimes w k (firstSend w sent a)).bind CallbackState.timer

/-- The delay RFC 3261 asks for after the `k`-th retransmission. -/
def expectedDelay (k : ℕ) : ℕ := min (defaultT1 * 2 ^ k) defaultT2

/-- A transaction for which nothing was sent yet. -/
structure Fresh (a : CallbackState) : Prop where
  retry : a.retry = 0
  timer : a.timer = none

/-- The shift `1 << r`, and the product with it, are an `int`. -/
def ShiftFits (a : CallbackState) : Prop := a.retry < 31 ∧ defaultT1 * 2 ^ a.retry < 2 ^ 31

section Steps

variable {w} {a : CallbackState} {sent : CallbackType}

/-- The first sending begins a timer, unless the callback is not known. -/
lemma firstSend_eq (hsent : sent ∈ sentTypes a.ctxType) :
    firstSend w sent a = if Unhandled sent then a else sipTransactionRetransmitBegin a := by
  have hall : ∀ t : FsmType, ∀ s ∈ sentTypes t,
      (sipCallbackSwitch s w.bus w.ack a w.message).2.2 =
        if Unhandled s then a else sipTransactionRetransmitBegin a := by
    intro t s hs
    cases t <;> simp only [sentTypes, List.mem_cons, List.not_mem_nil, or_false] at hs
    · subst hs
      rfl
    · rcases hs with rfl | rfl | rfl | rfl | rfl <;> rfl
    · rcases hs with rfl | rfl | rfl | rfl | rfl | rfl | rfl | rfl <;> rfl
  exact hall _ _ hsent

/-- While there are retries left the timer sends the message again and arms the next timer, with
the count it had. -/
lemma sipRedo_again (htype : a.ctxType ≠ .nist) (hretry : a.retry < sipRetry) :
    sipRedo w a = some { sipTransactionRetransmitBegin a with retry := a.retry + 1 } := by
  cases h : a.ctxType with
  | nist => exact absurd h htype
  | ict => simp only [sipRedo, redoEvent, h, if_pos hretry]; rfl
  | ist => simp only [sipRedo, redoEvent, h, if_pos hretry]; rfl
  | nict => simp only [sipRedo, redoEvent, h, if_pos hretry]; rfl

/-- Without retries left it terminates the transaction. -/
lemma sipRedo_terminates (hretry : sipRetry ≤ a.retry) : sipRedo w a = none := by
  have hlt : ¬ a.retry < sipRetry := Nat.not_lt.mpr hretry
  cases h : a.ctxType with
  | nist => simp only [sipRedo, redoEvent, h]
  | ict => simp only [sipRedo, redoEvent, h, if_neg hlt]; rfl
  | ist => simp only [sipRedo, redoEvent, h, if_neg hlt]; rfl
  | nict => simp only [sipRedo, redoEvent, h, if_neg hlt]; rfl

/-- Over UDP the delay follows the count of the retries. -/
lemma begin_udp (hudp : a.reliable = false) : sipTransactionRetransmitBegin a =
    { a with timer := some (min (defaultT1 * 2 ^ a.retry) defaultT2) } := by
  rw [sipTransactionRetransmitBegin, hudp]
  rfl

/-- Over another protocol there are no retries left. -/
lemma begin_reliable (hrel : a.reliable = true) : sipTransactionRetransmitBegin a =
    { a with retry := 1 + sipRetry, timer := some (defaultT1 * 64) } := by
  rw [sipTransactionRetransmitBegin, hrel]
  rfl

/-- **Over UDP**: the timer behind the `k`-th retransmission was armed with a count of `k - 1`. -/
lemma redoTimes_udp (hfresh : Fresh a) (hudp : a.reliable = false) (htype : a.ctxType ≠ .nist) :
    ∀ k ≤ sipRetry, redoTimes w k (sipTransactionRetransmitBegin a) =
      some { a with retry := k, timer := some (min (defaultT1 * 2 ^ (k - 1)) defaultT2) } := by
  intro k
  induction k with
  | zero =>
      intro _
      rw [redoTimes, begin_udp hudp, hfresh.retry]
  | succ k ih =>
      intro hk
      have hlast : ∀ b : CallbackState, b.retry = k → b.ctxType = a.ctxType →
          b.reliable = false → sipRedo w b = some { b with
            retry := k + 1, timer := some (min (defaultT1 * 2 ^ k) defaultT2) } := by
        intro b hb hctx hrel
        rw [sipRedo_again (hctx ▸ htype) (by omega), begin_udp hrel, hb]
      rw [redoTimes, ih (by omega)]
      exact hlast _ rfl rfl hudp

/-- No timer sends a message when there are no retries left. -/
lemma redoTimes_succ_eq_none {k : ℕ} {a' : CallbackState} (h : redoTimes w k a = some a')
    (hretry : sipRetry ≤ a'.retry) : ∀ j, k < j → redoTimes w j a = none := by
  intro j hj
  induction j with
  | zero => omega
  | succ j ih =>
      rcases Nat.lt_or_ge k j with hlt | hge
      · rw [redoTimes, ih hlt]
        rfl
      · obtain rfl : k = j := by omega
        rw [redoTimes, h]
        show (a'.timer.bind fun _ => sipRedo w a') = none
        rw [sipRedo_terminates hretry]
        cases a'.timer <;> rfl

/-- Nor when there is no timer. -/
lemma redoTimes_untimed (htimer : a.timer = none) : ∀ k, 0 < k → redoTimes w k a = none := by
  intro k hk
  induction k with
  | zero => omega
  | succ k ih =>
      rcases Nat.eq_zero_or_pos k with rfl | hpos
      · rw [redoTimes, redoTimes]
        show (a.timer.bind fun _ => sipRedo w a) = none
        rw [htimer]
        rfl
      · rw [redoTimes, ih hpos]
        rfl

/-- **What a transaction over UDP goes through**: with a timer, nine retransmissions at most, the
count of the retries being their number; without, none. -/
lemma redoTimes_sent (hfresh : Fresh a) (hudp : a.reliable = false)
    (hsent : sent ∈ sentTypes a.ctxType) {k : ℕ} {a' : CallbackState} :
    redoTimes w k (firstSend w sent a) = some a' ↔
      if Unhandled sent then k = 0 ∧ a' = a
      else k ≤ sipRetry ∧
        a' = { a with retry := k, timer := some (min (defaultT1 * 2 ^ (k - 1)) defaultT2) } := by
  have htype : a.ctxType ≠ .nist := by
    intro h
    rw [h] at hsent
    exact absurd hsent (by simp [sentTypes])
  rw [firstSend_eq hsent]
  split
  · rcases Nat.eq_zero_or_pos k with rfl | hpos
    · rw [redoTimes, Option.some.injEq, eq_comm]
      simp
    · rw [redoTimes_untimed hfresh.timer k hpos]
      simp only [reduceCtorEq, false_iff]
      omega
  · have hall := redoTimes_udp (w := w) hfresh hudp htype
    rcases Nat.lt_or_ge sipRetry k with hlt | hle
    · rw [redoTimes_succ_eq_none (hall sipRetry le_rfl) le_rfl k hlt]
      simp only [reduceCtorEq, false_iff]
      omega
    · rw [hall k hle, Option.some.injEq, eq_comm]
      simp [hle]

/-- Over another protocol nothing is sent again. -/
lemma redoTimes_reliable (hfresh : Fresh a) (hrel : a.reliable = true)
    (hsent : sent ∈ sentTypes a.ctxType) {k : ℕ} {a' : CallbackState}
    (h : redoTimes w k (firstSend w sent a) = some a') :
    k = 0 ∧ (a' = a ∨ a' = { a with retry := 1 + sipRetry, timer := some (defaultT1 * 64) }) := by
  rw [firstSend_eq hsent] at h
  rcases Nat.eq_zero_or_pos k with rfl | hpos
  · rw [redoTimes, Option.some.injEq] at h
    refine ⟨rfl, ?_⟩
    split at h
    · exact .inl h.symm
    · rw [begin_reliable hrel] at h
      exact .inr h.symm
  · split at h
    · rw [redoTimes_untimed hfresh.timer k hpos] at h
      cases h
    · rw [begin_reliable hrel] at h
      rw [redoTimes_succ_eq_none (k := 0) rfl (by simp) k hpos] at h
      cases h

end Steps

/-! ### The schedule -/

/-- The delays agree for the first sending and from the fourth retransmission on. -/
lemma delay_iff : ∀ k ≤ sipRetry,
    (min (defaultT1 * 2 ^ (k - 1)) defaultT2 = expectedDelay k ↔ k = 0 ∨ 4 ≤ k) := by
  decide

/-- **The retransmission schedule**: over UDP the delay armed after the `k`-th retransmission is
that of RFC 3261 exactly when the first sending begins a timer at all, and `k` is `0` or at least
`4`.  At most nine retransmissions are made, the next timer then terminates the transaction, and
no shift overflows. -/
theorem schedule_iff (w : Surroundings) {a : CallbackState} (hfresh : Fresh a)
    (hudp : a.reliable = false) {sent : CallbackType} (hsent : sent ∈ sentTypes a.ctxType) :
    (∀ k ≤ sipRetry, (armed w sent k a = some (expectedDelay k) ↔
      ¬ Unhandled sent ∧ (k = 0 ∨ 4 ≤ k))) ∧
    (∀ k a', redoTimes w k (firstSend w sent a) = some a' →
      k ≤ sipRetry ∧ ShiftFits a' ∧ (k = sipRetry → sipRedo w a' = none)) := by
  constructor
  · intro k hk
    rw [armed]
    by_cases hun : Unhandled sent
    · refine iff_of_false (fun h => ?_) (by simp [hun])
      obtain ⟨a', h1, h2⟩ := Option.bind_eq_some_iff.mp h
      rw [redoTimes_sent hfresh hudp hsent, if_pos hun] at h1
      obtain ⟨-, rfl⟩ := h1
      rw [hfresh.timer] at h2
      cases h2
    · have hstate := (redoTimes_sent (w := w) hfresh hudp hsent).mpr (by
        rw [if_neg hun]
        exact ⟨hk, rfl⟩)
      rw [hstate]
      show some _ = some _ ↔ _
      rw [Option.some.injEq, delay_iff k hk]
      simp [hun]
  · intro k a' h
    rw [redoTimes_sent hfresh hudp hsent] at h
    split at h
    · obtain ⟨rfl, rfl⟩ := h
      refine ⟨Nat.zero_le _, ?_, fun h => absurd h (by decide)⟩
      rw [ShiftFits, hfresh.retry]
      decide
    · obtain ⟨hk, rfl⟩ := h
      refine ⟨hk, ⟨?_, ?_⟩, fun h => sipRedo_terminates h.ge⟩
      · exact hk.trans_lt (by decide)
      · calc defaultT1 * 2 ^ k ≤ defaultT1 * 2 ^ sipRetry :=
              Nat.mul_le_mul_left _ (Nat.pow_le_pow_right (by decide) hk)
          _ < 2 ^ 31 := by decide

/-! ### The cause of a failure -/

/-- What becomes of a transaction before it is destroyed, with `k` retransmissions: nothing was
sent, or the first sending and `k` timers. -/
inductive Reached (w : Surroundings) (a : CallbackState) : ℕ → CallbackState → Prop
  | unsent : Reached w a 0 a
  | sent {sent : CallbackType} {k : ℕ} {a' : CallbackState} (hsent : sent ∈ sentTypes a.ctxType)
      (h : redoTimes w k (firstSend w sent a) = some a') : Reached w a k a'

/-- How a transaction ends without a response: by its terminating timer, or earlier. -/
inductive Ending where
  | timer | earlier
  deriving DecidableEq, Repr

/-- The terminating timer is one that fires and is not followed by another. -/
def Ending.Of (e : Ending) (w : Surroundings) (a : CallbackState) : Prop :=
  e = .timer → a.timer.isSome ∧ sipRedo w a = none

/-- The status for the requester. -/
def Ending.status : Ending → ℕ
  | .timer => 408
  | .earlier => 502

/-- The status `sip_destroy` hands to the closure of a transaction without a response. -/
def closureStatus (a : CallbackState) : ℕ :=
  Transactions.Transaction.answerCode
    { id := a.transactionid, invite := a.ctxType = .ict, net := 0, closure := some 0,
      retry := a.retry }

lemma closureStatus_eq (a : CallbackState) :
    closureStatus a = if a.retry = sipRetry then 408 else 502 := by
  rw [closureStatus, Transactions.Transaction.answerCode]
  by_cases h : a.retry = sipRetry <;> simp [h]

/-- The count of the retries tells them apart where it is `SIP_RETRY` exactly at the terminating
timer. -/
lemma closureStatus_eq_status {a : CallbackState} {e : Ending} :
    closureStatus a = e.status ↔ (a.retry = sipRetry ↔ e = .timer) := by
  rw [closureStatus_eq]
  cases e <;> by_cases h : a.retry = sipRetry <;> simp [h, Ending.status]

/-- **The cause reported to the requester** is right, over UDP, unless the transaction ended
earlier than by its terminating timer with all nine retransmissions made; over another protocol
exactly when it ended earlier. -/
theorem failureCause_iff (w : Surroundings) {a : CallbackState} (hfresh : Fresh a)
    (hclient : a.ctxType = .ict ∨ a.ctxType = .nict) {k : ℕ} {a' : CallbackState}
    (h : Reached w a k a') {e : Ending} (he : e.Of w a') :
    closureStatus a' = e.status ↔
      if a.reliable then e = .earlier else e = .timer ∨ k ≠ sipRetry := by
  have hretry : (0 : ℕ) ≠ sipRetry := by decide
  have hnoTimer : a'.timer = none → e = .earlier := by
    intro hnone
    cases e with
    | earlier => rfl
    | timer =>
        have := (he rfl).1
        rw [hnone] at this
        cases this
  have hnist : a.ctxType ≠ .nist := by
    rcases hclient with hc | hc <;> (rw [hc]; decide)
  rw [closureStatus_eq_status]
  cases h with
  | unsent =>
      obtain rfl := hnoTimer hfresh.timer
      rw [hfresh.retry]
      split <;> simp [hretry]
  | @sent sent k a' hsent h =>
      cases hrel : a.reliable with
      | true =>
          obtain ⟨-, rfl | rfl⟩ := redoTimes_reliable hfresh hrel hsent h
          · obtain rfl := hnoTimer hfresh.timer
            rw [hfresh.retry]
            simp [hretry]
          · cases e <;> simp
      | false =>
          rw [redoTimes_sent hfresh hrel hsent] at h
          split at h
          · obtain ⟨rfl, rfl⟩ := h
            obtain rfl := hnoTimer hfresh.timer
            rw [hfresh.retry]
            simp [hretry]
          · obtain ⟨hk, rfl⟩ := h
            cases e with
            | earlier => simp
            | timer =>
                -- the timer that terminates is the one behind the ninth retransmission
                have hlast : ¬ k < sipRetry := by
                  intro hlt
                  have hagain : ∀ b : CallbackState, b.ctxType = a.ctxType → b.retry = k →
                      (sipRedo w b).isSome := by
                    intro b hctx hb
                    rw [sipRedo_again (hctx ▸ hnist) (by omega)]
                    rfl
                  have hnone := (he rfl).2
                  have hsome := hagain { a with
                    retry := k
                    timer := some (min (defaultT1 * 2 ^ (k - 1)) defaultT2) } rfl rfl
                  rw [hnone] at hsome
                  cases hsome
                have hk9 : k = sipRetry := by omega
                simp [hk9]

/-! ### Two transactions -/

section Example

/-- Nothing of interest. -/
def quiet : Surroundings :=
  ⟨⟨true, true, ⟨0, 0⟩, true, true, true⟩, true, ⟨true, 0, 1⟩⟩

/-- An INVITE that is to be sent over UDP, or over another protocol. -/
def inviteOver (reliable : Bool) : CallbackState where
  ctxType := .ict
  transactionid := 1
  reliable := reliable
  sessions := .empty

lemma inviteOver_fresh (reliable : Bool) : Fresh (inviteOver reliable) := ⟨rfl, rfl⟩

/-- The schedule of an INVITE over UDP: right at first, and wrong after the first retransmission. -/
theorem invite_schedule :
    armed quiet .ictInviteSent 0 (inviteOver false) = some (expectedDelay 0) ∧
    armed quiet .ictInviteSent 1 (inviteOver false) ≠ some (expectedDelay 1) := by
  have hsent : CallbackType.ictInviteSent ∈ sentTypes (inviteOver false).ctxType := by decide
  have h := (schedule_iff quiet (inviteOver_fresh false) rfl hsent).1
  exact ⟨(h 0 (by decide)).mpr (by decide),
    fun heq => absurd ((h 1 (by decide)).mp heq) (by decide)⟩

/-- **The first retransmission arms 500 ms again**, where 1000 ms are due. -/
theorem second_delay_not_doubled :
    armed quiet .ictInviteSent 1 (inviteOver false) = some 500 ∧ expectedDelay 1 = 1000 ∧
      ¬ ∀ k, (redoTimes quiet k (firstSend quiet .ictInviteSent (inviteOver false))).isSome →
        armed quiet .ictInviteSent k (inviteOver false) = some (expectedDelay k) := by
  have h500 : armed quiet .ictInviteSent 1 (inviteOver false) = some 500 := by rfl
  have hmade : (redoTimes quiet 1
      (firstSend quiet .ictInviteSent (inviteOver false))).isSome := by rfl
  refine ⟨h500, by decide, fun h => ?_⟩
  have h1 := h 1 hmade
  rw [h500] at h1
  exact absurd h1 (by decide)

/-- An INVITE over UDP whose connection is lost before anything is sent again: 502. -/
theorem lost_invite_reported : closureStatus (inviteOver false) = Ending.earlier.status := by
  have hends : Ending.earlier.Of quiet (inviteOver false) := fun h => absurd h (by decide)
  exact (failureCause_iff quiet (inviteOver_fresh false) (.inl rfl) .unsent hends).mpr (by decide)

/-- **A timeout over TCP is reported as 502**: the terminating timer is the first one. -/
theorem tcp_timeout_reported_502 :
    ∃ a, redoTimes quiet 0 (firstSend quiet .ictInviteSent (inviteOver true)) = some a ∧
      Ending.timer.Of quiet a ∧ closureStatus a = 502 ∧ Ending.timer.status = 408 := by
  refine ⟨_, rfl, fun _ => ⟨by rfl, by rfl⟩, by rfl, by rfl⟩

end Example

end SipEcho.Retransmission
