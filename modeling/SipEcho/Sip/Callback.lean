import SipEcho.Cmd.Session

/-!
The message callbacks of osip: what `sip_callback_switch` does for each type of them, and what
becomes of an INVITE that is sent again before the final response.

A response made for a transaction is its status code, the rest is copied from the request.  osip
itself, the conversion of a message for the bus and the transport are parameters: `BusAnswer`.

* `cmdInitiate_takes`, `cmdInitiate_refuses`: a query is published, or the result is not `0`;
* `again_spoils`: a retransmission publishes a second query, or answers with something else than
  the last provisional response;
* `invite_once_iff`: one query is published and nothing is answered but repetitions exactly when
  the query of the INVITE goes out and no retransmission arrives before the final response;
* `published_uuid`: however often the INVITE is received, its queries go out under one uuid;
* `switch_quiet`: the retransmission of any other request publishes nothing.
-/

namespace SipEcho

/-- `osip_fsm_type_t`. -/
inductive FsmType where
  | ict | ist | nict | nist
  deriving DecidableEq, Repr

/-- `osip_message_callback_type_t`, as far as `sip_callback_switch` and `sip_callback_type` name
its values. -/
inductive CallbackType where
  | ictInviteSent | ictInviteSentAgain | ictAckSent | ictAckSentAgain
  | ictStatus1xxReceived | ictStatus2xxReceived | ictStatus2xxReceivedAgain
  | ictStatus3xxReceived | ictStatus4xxReceived | ictStatus5xxReceived | ictStatus6xxReceived
  | ictStatus3456xxReceivedAgain | ictStatusTimeout
  | istInviteReceived | istInviteReceivedAgain | istAckReceived | istAckReceivedAgain
  | istStatus1xxSent | istStatus2xxSent | istStatus2xxSentAgain
  | istStatus3xxSent | istStatus4xxSent | istStatus5xxSent | istStatus6xxSent
  | istStatus3456xxSentAgain
  | nictRegisterSent | nictByeSent | nictOptionsSent | nictInfoSent | nictCancelSent
  | nictNotifySent | nictSubscribeSent | nictUnknownRequestSent | nictRequestSentAgain
  | nictStatus1xxReceived | nictStatus2xxReceived | nictStatus2xxReceivedAgain
  | nictStatus3xxReceived | nictStatus4xxReceived | nictStatus5xxReceived
  | nictStatus6xxReceived | nictStatus3456xxReceivedAgain | nictStatusTimeout
  | nistRegisterReceived | nistByeReceived | nistOptionsReceived | nistInfoReceived
  | nistCancelReceived | nistNotifyReceived | nistSubscribeReceived
  | nistUnknownRequestReceived | nistRequestReceivedAgain
  | nistStatus1xxSent | nistStatus2xxSent | nistStatus2xxSentAgain
  | nistStatus3xxSent | nistStatus4xxSent | nistStatus5xxSent | nistStatus6xxSent
  | nistStatus3456xxSentAgain
  deriving DecidableEq, Repr

/-- The methods of the service `sip` that are called for a request. -/
inductive BusMethod where
  | registration | invite | options | cancel | bye | info | subscribe
  deriving DecidableEq, Repr

/-- The message of a callback. -/
structure CallbackMessage where
  request : Bool
  status : ℕ
  vias : ℕ
  deriving DecidableEq, Repr

/-- What the bus and the surroundings answer to one `cmd_initiate_*`: whether there is a
connection and whether it is ready, the random uuid and whether the map of sessions has memory,
whether the message can be converted, and whether `invoke` relays the call. -/
structure BusAnswer where
  con : Bool
  ready : Bool
  uuid : Uuid
  memory : Bool
  proto : Bool
  relay : Bool
  deriving DecidableEq, Repr

/-- A transaction, with the map of sessions and the queries published for it.  `reliable` tells
whether its event uses another protocol than UDP, `timer` is the pending timeout in
milliseconds, and `acks` counts the ACKs sent. -/
structure CallbackState where
  ctxType : FsmType
  transactionid : ℕ
  reliable : Bool
  sessions : Sessions
  published : List (BusMethod × Uuid) := []
  timer : Option ℕ := none
  retry : ℕ := 0
  acks : ℕ := 0

/-! ### Requests for the bus -/

/-- `cmd_initiate_*`: the result, and the state after it. -/
def cmdInitiate (method : BusMethod) (b : BusAnswer) (a : CallbackState) : ℤ × CallbackState :=
  if b.con = false then (-1, a)
  else if b.ready = false then (-1, a)
  else
    match cmdSessionGet a.sessions b.memory b.uuid a.transactionid with
    | (none, sessions) => (-2, { a with sessions })
    | (some id, sessions) =>
        if b.proto = false then (-2, { a with sessions })
        else if b.relay then (0, { a with sessions, published := a.published ++ [(method, id)] })
        -- the closure is called without a message and writes the result
        else (-1, { a with sessions })

/-- The responses to a request that the bus did not take. -/
def refuse (n : ℤ) : List ℕ :=
  if n = 0 then [] else if n = -1 then [503] else [500]

/-- `sip_callback_invite`: `100` and `180`, or the refusal. -/
def sipCallbackInvite (b : BusAnswer) (a : CallbackState) : List ℕ × CallbackState :=
  let r := cmdInitiate .invite b a
  (if r.1 = 0 then [100, 180] else refuse r.1, r.2)

/-- `sip_callback_register` and its siblings. -/
def sipCallbackRequest (method : BusMethod) (b : BusAnswer) (a : CallbackState) :
    List ℕ × CallbackState :=
  let r := cmdInitiate method b a
  (refuse r.1, r.2)

/-- `sip_callback_register`. -/
def sipCallbackRegister := sipCallbackRequest .registration

/-- `sip_callback_options`. -/
def sipCallbackOptions := sipCallbackRequest .options

/-- `sip_callback_cancel`. -/
def sipCallbackCancel := sipCallbackRequest .cancel

/-- `sip_callback_bye`. -/
def sipCallbackBye := sipCallbackRequest .bye

/-- `sip_callback_info`. -/
def sipCallbackInfo := sipCallbackRequest .info

/-- `sip_callback_subscribe`. -/
def sipCallbackSubscribe := sipCallbackRequest .subscribe

/-! ### The callbacks -/

/-- `DEFAULT_T1` of osip, in milliseconds. -/
def defaultT1 : ℕ := 500

/-- `DEFAULT_T2` of osip, in milliseconds. -/
def defaultT2 : ℕ := 4000

/-- `SIP_RETRY`. -/
def sipRetry : ℕ := 9

/-- `sip_transaction_retransmit_begin`. -/
def sipTransactionRetransmitBegin (a : CallbackState) : CallbackState :=
  if a.reliable then { a with retry := 1 + sipRetry, timer := some (defaultT1 * 64) }
  else { a with timer := some (min (defaultT1 * 2 ^ a.retry) defaultT2) }

/-- `sip_transaction_retransmit_end`. -/
def sipTransactionRetransmitEnd (a : CallbackState) : CallbackState :=
  { a with timer := none }

/-- `sip_message_remove_top_via`. -/
def sipMessageRemoveTopVia (q : CallbackMessage) : CallbackMessage :=
  { q with vias := q.vias - 1 }

/-- The last case of the switch: `501` for a request of a server transaction. -/
def sipCallbackUnknown (a : CallbackState) (q : CallbackMessage) : List ℕ :=
  if (a.ctxType = .ist ∨ a.ctxType = .nist) ∧ q.request = true then [501] else []

/-- `sip_callback_switch`: the responses, the message and the transaction after it; `ack` tells
whether `ict_create_ack` makes a message. -/
def sipCallbackSwitch (type : CallbackType) (b : BusAnswer) (ack : Bool) (a : CallbackState)
    (q : CallbackMessage) : List ℕ × CallbackMessage × CallbackState :=
  match type with
  | .ictStatusTimeout | .ictAckSent | .ictAckSentAgain => ([], q, a)
  | .ictInviteSent | .ictInviteSentAgain => ([], q, sipTransactionRetransmitBegin a)
  | .ictStatus1xxReceived => ([], q, sipTransactionRetransmitEnd a)
  | .ictStatus2xxReceived | .ictStatus2xxReceivedAgain | .ictStatus3xxReceived
  | .ictStatus4xxReceived | .ictStatus5xxReceived | .ictStatus6xxReceived
  | .ictStatus3456xxReceivedAgain =>
      ([], sipMessageRemoveTopVia q,
        if q.status / 100 = 2 ∧ ack = true then { a with acks := a.acks + 1 } else a)
  | .istAckReceived | .istAckReceivedAgain => ([], q, a)
  | .istInviteReceived | .istInviteReceivedAgain =>
      let r := sipCallbackInvite b a
      (r.1, q, r.2)
  | .istStatus1xxSent => ([], q, a)
  | .istStatus2xxSent | .istStatus2xxSentAgain | .istStatus3xxSent | .istStatus4xxSent
  | .istStatus5xxSent | .istStatus6xxSent | .istStatus3456xxSentAgain =>
      ([], q, sipTransactionRetransmitBegin a)
  | .nistInfoReceived => let r := sipCallbackInfo b a; (r.1, q, r.2)
  | .nistByeReceived => let r := sipCallbackBye b a; (r.1, q, r.2)
  | .nistCancelReceived => let r := sipCallbackCancel b a; (r.1, q, r.2)
  | .nistOptionsReceived => let r := sipCallbackOptions b a; (r.1, q, r.2)
  | .nistRegisterReceived => let r := sipCallbackRegister b a; (r.1, q, r.2)
  | .nistSubscribeReceived => let r := sipCallbackSubscribe b a; (r.1, q, r.2)
  | .nistStatus1xxSent | .nistStatus2xxSent | .nistStatus2xxSentAgain | .nistStatus3xxSent
  | .nistStatus4xxSent | .nistStatus5xxSent | .nistStatus6xxSent | .nistStatus3456xxSentAgain =>
      ([], q, a)
  | .nictNotifySent | .nictInfoSent | .nictByeSent | .nictCancelSent | .nictOptionsSent
  | .nictRequestSentAgain => ([], q, sipTransactionRetransmitBegin a)
  | .nictStatus1xxReceived => ([], q, sipTransactionRetransmitEnd a)
  | .nictStatus2xxReceived | .nictStatus2xxReceivedAgain | .nictStatus3xxReceived
  | .nictStatus4xxReceived | .nictStatus5xxReceived | .nictStatus6xxReceived
  | .nictStatus3456xxReceivedAgain => ([], sipMessageRemoveTopVia q, a)
  | .nictStatusTimeout => ([], q, a)
  -- the default case, then the two it falls into
  | .nictRegisterSent | .nictSubscribeSent | .nictUnknownRequestSent | .nistNotifyReceived
  | .nistUnknownRequestReceived | .nistRequestReceivedAgain => (sipCallbackUnknown a q, q, a)

/-- The types of callback at which a query is made: a request was received, and of the requests
received again the INVITE alone. -/
def CallbackType.queries : List CallbackType :=
  [.istInviteReceived, .istInviteReceivedAgain, .nistInfoReceived, .nistByeReceived,
    .nistCancelReceived, .nistOptionsReceived, .nistRegisterReceived, .nistSubscribeReceived]

/-- At no other callback is anything published. -/
theorem switch_quiet {type : CallbackType} (h : type ∉ CallbackType.queries) (b : BusAnswer)
    (ack : Bool) (a : CallbackState) (q : CallbackMessage) :
    (sipCallbackSwitch type b ack a q).2.2.published = a.published := by
  have hbegin : (sipTransactionRetransmitBegin a).published = a.published := by
    rw [sipTransactionRetransmitBegin]
    split <;> rfl
  cases type
  all_goals
    first
    | rfl
    | exact hbegin
    | exact (h (by decide)).elim
    | simp only [sipCallbackSwitch]; split <;> rfl

section Initiate

variable {b : BusAnswer} {a : CallbackState}

/-- The bus takes a query for the transaction `id`. -/
def BusAnswer.Takes (b : BusAnswer) (ses : Sessions) (id : ℕ) : Prop :=
  b.con = true ∧ b.ready = true ∧ (cmdSessionGet ses b.memory b.uuid id).1.isSome = true ∧
    b.proto = true ∧ b.relay = true

instance (b : BusAnswer) (ses : Sessions) (id : ℕ) : Decidable (b.Takes ses id) :=
  inferInstanceAs (Decidable (_ ∧ _))

/-- A query the bus takes is published under the uuid of the session. -/
lemma cmdInitiate_takes (method : BusMethod) (h : b.Takes a.sessions a.transactionid) :
    ∃ u, cmdInitiate method b a =
      (0, { a with
        sessions := (cmdSessionGet a.sessions b.memory b.uuid a.transactionid).2
        published := a.published ++ [(method, u)] }) := by
  obtain ⟨hcon, hready, hid, hproto, hrelay⟩ := h
  obtain ⟨u, hu⟩ := Option.isSome_iff_exists.mp hid
  refine ⟨u, ?_⟩
  have hget : cmdSessionGet a.sessions b.memory b.uuid a.transactionid =
      (some u, (cmdSessionGet a.sessions b.memory b.uuid a.transactionid).2) :=
    Prod.ext hu rfl
  rw [cmdInitiate, if_neg (by simp [hcon]), if_neg (by simp [hready]), hget]
  simp [hproto, hrelay]

/-- Where the bus does not take the query, the result is `-1` or `-2` and nothing is published. -/
lemma cmdInitiate_refuses (method : BusMethod) (h : ¬ b.Takes a.sessions a.transactionid) :
    ((cmdInitiate method b a).1 = -1 ∨ (cmdInitiate method b a).1 = -2) ∧
      (cmdInitiate method b a).2.published = a.published := by
  rw [cmdInitiate]
  split
  · simp
  · split
    · simp
    · rename_i hcon hready
      split
      · simp
      · rename_i u ses hget
        split
        · simp
        · split
          · rename_i hproto hrelay
            refine absurd ⟨?_, ?_, ?_, ?_, hrelay⟩ h
            · simpa using hcon
            · simpa using hready
            · rw [hget]
              rfl
            · simpa using hproto
          · simp

/-- `cmd_initiate_*` leaves the id alone and makes the session of its transaction at most. -/
lemma cmdInitiate_frame (method : BusMethod) (b : BusAnswer) (a : CallbackState) :
    (cmdInitiate method b a).2.transactionid = a.transactionid ∧
    ((cmdInitiate method b a).2.sessions = a.sessions ∨
      (cmdInitiate method b a).2.sessions =
        (cmdSessionGet a.sessions b.memory b.uuid a.transactionid).2) := by
  rw [cmdInitiate]
  split
  · simp
  · split
    · simp
    · split
      · rename_i ses hget
        simp [hget]
      · rename_i u ses hget
        split
        · simp [hget]
        · split <;> simp [hget]

/-- Once there is a session `cmd_initiate_*` leaves the sessions as they are. -/
lemma cmdInitiate_sessions (method : BusMethod) (h : a.sessions.Has a.transactionid) :
    (cmdInitiate method b a).2.sessions = a.sessions := by
  obtain ⟨x, hx⟩ := Option.isSome_iff_exists.mp (Sessions.byId_isSome.mpr h)
  rcases cmdInitiate_frame method b a with ⟨-, hs | hs⟩
  · exact hs
  · rw [hs, sessionGet_of_byId hx]

/-- What `cmd_initiate_*` publishes goes under the uuid of the session. -/
lemma cmdInitiate_published (method : BusMethod) {x : BusMethod × Uuid}
    (hx : x ∈ (cmdInitiate method b a).2.published) :
    x ∈ a.published ∨
      (cmdInitiate method b a).2.sessions.byId a.transactionid = some ⟨a.transactionid, x.2⟩ := by
  by_cases h : b.Takes a.sessions a.transactionid
  · obtain ⟨u, hget⟩ := Option.isSome_iff_exists.mp h.2.2.1
    have hpair : cmdSessionGet a.sessions b.memory b.uuid a.transactionid =
        (some u, (cmdSessionGet a.sessions b.memory b.uuid a.transactionid).2) :=
      Prod.ext hget rfl
    have hinit : cmdInitiate method b a = (0, { a with
        sessions := (cmdSessionGet a.sessions b.memory b.uuid a.transactionid).2
        published := a.published ++ [(method, u)] }) := by
      rw [cmdInitiate, if_neg (by simp [h.1]), if_neg (by simp [h.2.1]), hpair]
      simp [h.2.2.2.1, h.2.2.2.2]
    rw [hinit] at hx ⊢
    rcases List.mem_append.mp hx with hold | hnew
    · exact .inl hold
    · obtain rfl := List.mem_singleton.mp hnew
      exact .inr (sessionGet_mem hpair)
  · rw [(cmdInitiate_refuses method h).2] at hx
    exact .inl hx

end Initiate

/-! ### INVITE server transactions -/

/-- An INVITE server transaction: the responses given to it, and for each retransmission the last
provisional response before it and the responses it brought forth. -/
structure Ist where
  call : CallbackState
  responses : List ℕ := []
  repeats : List (Option ℕ × List ℕ) := []

/-- The last provisional response. -/
def lastProvisional (responses : List ℕ) : Option ℕ := responses.reverse.find? (· < 200)

/-- A final response was given. -/
def Ist.Final (s : Ist) : Prop := ∃ c ∈ s.responses, 200 ≤ c

instance (s : Ist) : Decidable s.Final :=
  inferInstanceAs (Decidable (∃ c ∈ s.responses, 200 ≤ c))

/-- `sip_callback` for an INVITE: the responses go to the transaction, one after the other. -/
def sipCallback (type : CallbackType) (b : BusAnswer) (s : Ist) : Ist × List ℕ :=
  let r := sipCallbackSwitch type b false s.call ⟨true, 0, 1⟩
  ({ s with call := r.2.2, responses := s.responses ++ r.1 }, r.1)

/-- `sip_finalize` and `sip_finalize_failure` for a reply of the bus. -/
def sipFinalize (id : Uuid) (code : ℕ) (s : Ist) : Ist :=
  if cmdSessionFind s.call.sessions id = some s.call.transactionid then
    { s with responses := s.responses ++ [if code = 0 then 500 else code] }
  else s

/-- What happens to an INVITE server transaction after the INVITE was received. -/
inductive IstEvent where
  /-- The INVITE is received again. -/
  | inviteReceivedAgain (b : BusAnswer)
  /-- A provisional response was sent. -/
  | status1xxSent
  /-- The bus replies under a uuid. -/
  | reply (id : Uuid) (code : ℕ)
  deriving DecidableEq, Repr

/-- One event. -/
def istStep (e : IstEvent) (s : Ist) : Ist :=
  match e with
  | .inviteReceivedAgain b =>
      let r := sipCallback .istInviteReceivedAgain b s
      { r.1 with repeats := s.repeats ++ [(lastProvisional s.responses, r.2)] }
  | .status1xxSent =>
      (sipCallback .istStatus1xxSent ⟨false, false, ⟨0, 0⟩, false, false, false⟩ s).1
  | .reply id code => sipFinalize id code s

/-- The events up to the final response. -/
def istRun : List IstEvent → Ist → Ist
  | [], s => s
  | e :: es, s => if s.Final then s else istRun es (istStep e s)

/-- The INVITE of a new transaction is received. -/
def inviteReceived (ses : Sessions) (id : ℕ) (reliable : Bool) (b : BusAnswer) : Ist :=
  (sipCallback .istInviteReceived b ⟨⟨.ist, id, reliable, ses, [], none, 0, 0⟩, [], []⟩).1

/-- **One query is published for the transaction, and a retransmission brings forth nothing but a
repetition of the last provisional response.** -/
def Ist.Idempotent (s : Ist) : Prop :=
  s.call.published.length = 1 ∧ ∀ x ∈ s.repeats, ∀ c ∈ x.2, x.1 = some c

instance (s : Ist) : Decidable s.Idempotent :=
  inferInstanceAs (Decidable (_ ∧ _))

/-- A reply of the bus that is the final response of the transaction `id`. -/
def IstEvent.Ends (ses : Sessions) (id : ℕ) : IstEvent → Prop
  | .reply u code => cmdSessionFind ses u = some id ∧ (code = 0 ∨ 200 ≤ code)
  | _ => False

instance (ses : Sessions) (id : ℕ) : (e : IstEvent) → Decidable (e.Ends ses id)
  | .inviteReceivedAgain _ => .isFalse False.elim
  | .status1xxSent => .isFalse False.elim
  | .reply _ _ => inferInstanceAs (Decidable (_ ∧ _))

/-- The event is a retransmission of the INVITE. -/
def IstEvent.Again : IstEvent → Prop
  | .inviteReceivedAgain _ => True
  | _ => False

/-- The events before the final response that the bus gives to the transaction `id`. -/
def beforeFinal (ses : Sessions) (id : ℕ) (es : List IstEvent) : List IstEvent :=
  es.takeWhile fun e => ¬ e.Ends ses id

section Run

variable {b : BusAnswer} {s : Ist} {e : IstEvent} {es : List IstEvent}

/-- What an INVITE brings forth when the bus takes the query. -/
lemma sipCallbackInvite_takes {a : CallbackState} (h : b.Takes a.sessions a.transactionid) :
    (sipCallbackInvite b a).1 = [100, 180] ∧
      (sipCallbackInvite b a).2.published.length = a.published.length + 1 := by
  obtain ⟨u, hu⟩ := cmdInitiate_takes .invite h
  simp [sipCallbackInvite, hu]

/-- What an INVITE brings forth when the bus does not take it: one final response. -/
lemma sipCallbackInvite_refuses {a : CallbackState} (h : ¬ b.Takes a.sessions a.transactionid) :
    ((sipCallbackInvite b a).1 = [503] ∨ (sipCallbackInvite b a).1 = [500]) ∧
      (sipCallbackInvite b a).2.published = a.published := by
  obtain ⟨hr | hr, hp⟩ := cmdInitiate_refuses .invite h
  · exact ⟨.inl (by simp [sipCallbackInvite, refuse, hr]), hp⟩
  · exact ⟨.inr (by simp [sipCallbackInvite, refuse, hr]), hp⟩

/-- A second query was published, or a retransmission was answered with something else than the
last provisional response. -/
def Ist.Spoiled (s : Ist) : Prop :=
  2 ≤ s.call.published.length ∨ ∃ x ∈ s.repeats, ∃ c ∈ x.2, x.1 ≠ some c

lemma Ist.Spoiled.not_idempotent (h : s.Spoiled) : ¬ s.Idempotent := by
  rintro ⟨hone, hrep⟩
  rcases h with htwo | ⟨x, hx, c, hc, hne⟩
  · omega
  · exact hne (hrep x hx c hc)

/-- Queries and responses are only added. -/
lemma published_le_callback {a : CallbackState} :
    a.published.length ≤ (sipCallbackInvite b a).2.published.length := by
  by_cases h : b.Takes a.sessions a.transactionid
  · rw [(sipCallbackInvite_takes h).2]
    exact Nat.le_succ _
  · rw [(sipCallbackInvite_refuses h).2]

/-- **A retransmission spoils the transaction**, whatever the bus answers. -/
lemma again_spoils (hone : 1 ≤ s.call.published.length) :
    (istStep (.inviteReceivedAgain b) s).Spoiled := by
  by_cases h : b.Takes s.call.sessions s.call.transactionid
  · left
    show 2 ≤ (sipCallbackInvite b s.call).2.published.length
    rw [(sipCallbackInvite_takes h).2]
    omega
  · right
    refine ⟨(lastProvisional s.responses, (sipCallbackInvite b s.call).1), ?_, ?_⟩
    · exact List.mem_append_right _ (List.mem_singleton.mpr rfl)
    · have hlast : ∀ c, 200 ≤ c → lastProvisional s.responses ≠ some c := by
        intro c hc heq
        have := List.find?_some heq
        simp only [decide_eq_true_eq] at this
        omega
      rcases (sipCallbackInvite_refuses h).1 with hr | hr
      · exact ⟨503, by simp [hr], hlast 503 (by omega)⟩
      · exact ⟨500, by simp [hr], hlast 500 (by omega)⟩

/-- Nothing repairs a spoiled transaction. -/
lemma Ist.Spoiled.step (h : s.Spoiled) : (istStep e s).Spoiled := by
  cases e with
  | inviteReceivedAgain b =>
      rcases h with htwo | ⟨x, hx, hbad⟩
      · exact .inl (le_trans htwo published_le_callback)
      · exact .inr ⟨x, List.mem_append_left _ hx, hbad⟩
  | status1xxSent => exact h
  | reply id code =>
      rw [istStep, sipFinalize]
      split
      · exact h
      · exact h

lemma Ist.Spoiled.run (h : s.Spoiled) : (istRun es s).Spoiled := by
  induction es generalizing s with
  | nil => exact h
  | cons e es ih =>
      rw [istRun]
      split
      · exact h
      · exact ih h.step

/-- A reply publishes nothing and is no retransmission. -/
lemma finalize_frame (s : Ist) (id : Uuid) (code : ℕ) :
    (sipFinalize id code s).call = s.call ∧
    (sipFinalize id code s).repeats = s.repeats := by
  rw [sipFinalize]
  split <;> exact ⟨rfl, rfl⟩

/-- A reply is final exactly when it ends the transaction. -/
lemma finalize_final {id : Uuid} {code : ℕ} (h : ¬ s.Final) : (sipFinalize id code s).Final ↔
    (IstEvent.reply id code).Ends s.call.sessions s.call.transactionid := by
  rw [sipFinalize, IstEvent.Ends]
  split
  · rename_i hfind
    simp only [Ist.Final, List.mem_append, List.mem_singleton] at h ⊢
    constructor
    · rintro ⟨c, hc | rfl, hle⟩
      · exact absurd ⟨c, hc, hle⟩ h
      · refine ⟨hfind, ?_⟩
        split at hle
        · exact .inl ‹_›
        · exact .inr hle
    · rintro ⟨-, hcode⟩
      refine ⟨_, .inr rfl, ?_⟩
      split
      · omega
      · rcases hcode with hzero | hle
        · contradiction
        · exact hle
  · rename_i hfind
    exact iff_of_false h fun hends => hfind hends.1

/-- While no retransmission arrives the transaction stays as it is; the first one spoils it. -/
lemma idempotent_run_iff (hfinal : ¬ s.Final) (h : s.Idempotent) :
    (istRun es s).Idempotent ↔
      ∀ e ∈ beforeFinal s.call.sessions s.call.transactionid es, ¬ e.Again := by
  induction es generalizing s with
  | nil => exact iff_of_true h (by simp [beforeFinal])
  | cons e es ih =>
      rw [istRun, if_neg hfinal]
      cases e with
      | inviteReceivedAgain b =>
          refine iff_of_false ((again_spoils h.1.ge).run.not_idempotent) fun hno => ?_
          refine hno (.inviteReceivedAgain b) ?_ trivial
          simp [beforeFinal, IstEvent.Ends]
      | status1xxSent =>
          have hstep : istStep .status1xxSent s = s := by
            simp [istStep, sipCallback, sipCallbackSwitch]
          rw [hstep, ih hfinal h]
          simp [beforeFinal, IstEvent.Ends, IstEvent.Again]
      | reply id code =>
          obtain ⟨hcall, hrep⟩ := finalize_frame s id code
          have hstep : (sipFinalize id code s).Idempotent := by
            rw [Ist.Idempotent, hcall, hrep]
            exact h
          show (istRun es (sipFinalize id code s)).Idempotent ↔ _
          by_cases hends : (IstEvent.reply id code).Ends s.call.sessions s.call.transactionid
          · -- the final response: the run is over
            have hover : istRun es (sipFinalize id code s) = sipFinalize id code s := by
              cases es with
              | nil => rfl
              | cons e es => rw [istRun, if_pos ((finalize_final hfinal).mpr hends)]
            rw [hover]
            refine iff_of_true hstep ?_
            simp [beforeFinal, hends]
          · have hmore := ih (fun hf => hends ((finalize_final hfinal).mp hf)) hstep
            rw [hmore, hcall]
            simp [beforeFinal, hends, IstEvent.Again]

end Run

/-- The queries of the transaction went under the uuid of its session. -/
def Ist.OneUuid (s : Ist) : Prop :=
  ∀ x ∈ s.call.published,
    s.call.sessions.byId s.call.transactionid = some ⟨s.call.transactionid, x.2⟩

lemma Ist.OneUuid.step {s : Ist} {e : IstEvent} (h : s.OneUuid) : (istStep e s).OneUuid := by
  cases e with
  | inviteReceivedAgain b =>
      intro x hx
      have hid : (cmdInitiate .invite b s.call).2.transactionid = s.call.transactionid :=
        (cmdInitiate_frame .invite b s.call).1
      show (cmdInitiate .invite b s.call).2.sessions.byId _ = _
      rw [show (istStep (.inviteReceivedAgain b) s).call.transactionid = s.call.transactionid
        from hid]
      rcases cmdInitiate_published .invite hx with hold | hnew
      · -- there is a session, and it stays
        have hses := h x hold
        rw [cmdInitiate_sessions .invite (Sessions.byId_isSome.mp (by rw [hses]; rfl))]
        exact hses
      · exact hnew
  | status1xxSent => exact h
  | reply id code =>
      obtain ⟨hcall, -⟩ := finalize_frame s id code
      rw [istStep, Ist.OneUuid, hcall]
      exact h

/-- **However often the INVITE is received, its queries go out under one uuid.** -/
theorem published_uuid (ses : Sessions) (id : ℕ) (reliable : Bool) (b : BusAnswer)
    (es : List IstEvent) : (istRun es (inviteReceived ses id reliable b)).OneUuid := by
  have hrun : ∀ s : Ist, s.OneUuid → (istRun es s).OneUuid := by
    induction es with
    | nil => exact fun _ h => h
    | cons e es ih =>
        intro s h
        rw [istRun]
        split
        · exact h
        · exact ih _ h.step
  refine hrun _ fun x hx => ?_
  have hid := (cmdInitiate_frame .invite b ⟨.ist, id, reliable, ses, [], none, 0, 0⟩).1
  show (cmdInitiate .invite b ⟨.ist, id, reliable, ses, [], none, 0, 0⟩).2.sessions.byId _ = _
  rw [show (inviteReceived ses id reliable b).call.transactionid = id from hid]
  exact (cmdInitiate_published .invite hx).resolve_left List.not_mem_nil

/-- **One query is published for an INVITE, and a retransmission brings forth nothing but a
repetition of the last provisional response, exactly when the bus takes the query of the INVITE
and no retransmission arrives before the final response.** -/
theorem invite_once_iff (ses : Sessions) (id : ℕ) (reliable : Bool) (b : BusAnswer)
    (es : List IstEvent) :
    (istRun es (inviteReceived ses id reliable b)).Idempotent ↔
      b.Takes ses id ∧
        ∀ e ∈ beforeFinal (cmdSessionGet ses b.memory b.uuid id).2 id es, ¬ e.Again := by
  let a : CallbackState := ⟨.ist, id, reliable, ses, [], none, 0, 0⟩
  have hstart : inviteReceived ses id reliable b =
      ⟨(sipCallbackInvite b a).2, (sipCallbackInvite b a).1, []⟩ := rfl
  by_cases htakes : b.Takes ses id
  · obtain ⟨hresponses, hone⟩ := sipCallbackInvite_takes (a := a) htakes
    have hses : (sipCallbackInvite b a).2.sessions =
        (cmdSessionGet ses b.memory b.uuid id).2 := by
      obtain ⟨u, hu⟩ := cmdInitiate_takes (a := a) .invite htakes
      simp [sipCallbackInvite, hu, a]
    have hid : (sipCallbackInvite b a).2.transactionid = id := (cmdInitiate_frame _ _ a).1
    have hfinal : ¬ (inviteReceived ses id reliable b).Final := by
      simp [hstart, Ist.Final, hresponses]
    have hidem : (inviteReceived ses id reliable b).Idempotent :=
      ⟨hone, fun x hx => absurd hx (by simp [hstart])⟩
    rw [idempotent_run_iff hfinal hidem]
    simp only [hstart, hses, hid, htakes, true_and]
  · obtain ⟨hresponses, hnone⟩ := sipCallbackInvite_refuses (a := a) htakes
    have hfinal : (inviteReceived ses id reliable b).Final := by
      rcases hresponses with hr | hr <;> simp [hstart, Ist.Final, hr]
    have hover : istRun es (inviteReceived ses id reliable b) =
        inviteReceived ses id reliable b := by
      cases es with
      | nil => rfl
      | cons e es => rw [istRun, if_pos hfinal]
    rw [hover]
    refine iff_of_false (fun h => ?_) fun h => htakes h.1
    have hone : (sipCallbackInvite b a).2.published.length = 1 := h.1
    rw [hnone] at hone
    cases hone

/-- A bus that takes every query. -/
def busUp : BusAnswer := ⟨true, true, ⟨1, 2⟩, true, true, true⟩

/-- One retransmission: the query is published twice, and the INVITE is answered with `100` and
`180` once more. -/
theorem retransmission_publishes_again :
    busUp.Takes Sessions.empty 1 ∧
      (istRun [.status1xxSent, .status1xxSent, .inviteReceivedAgain busUp]
        (inviteReceived Sessions.empty 1 false busUp)).call.published =
          [(.invite, ⟨1, 2⟩), (.invite, ⟨1, 2⟩)] ∧
      ¬ (istRun [.status1xxSent, .status1xxSent, .inviteReceivedAgain busUp]
        (inviteReceived Sessions.empty 1 false busUp)).Idempotent := by
  decide

end SipEcho
