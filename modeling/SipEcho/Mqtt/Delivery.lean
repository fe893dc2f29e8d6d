import SipEcho.Mqtt.Calls

/-!
What the client promises the broker and the program that uses it, over any run of its calls.

* `ledger`: the requests that are open, as the log tells them: a request is open from when it is
  queued until it has been sent if it needs no acknowledgement, and until it is acknowledged else;
* `requests_accounted`: **the messages in the queue that are not complete are the open requests**,
  in their order: none is lost, none is invented and none is sent again when it has been released;
* `acks_unambiguous`: an acknowledgement with an id fits at most one of them;
* `qos2_delivered_once`: **a message at quality of service 2 is delivered at most once** before the
  broker releases its id;
* `one_qos2_in_flight`: at most one PUBLISH message at quality of service 2 is on its way.
-/

namespace SipEcho

open Lib Relation

/-- What an event does to the open requests. -/
def ledgerStep (entries : List QueuedMessage) : ClientEvent → List QueuedMessage
  | .queued m => entries ++ [m.lasting]
  | .sentWhole m => if m.needsAck then entries else entries.erase m.lasting
  | .received r =>
      match r.acks with
      | some (t, packetId) => entries.eraseP (QueuedMessage.matches t.toNat packetId)
      | none => entries
  | .sent _ | .released _ | .delivered _ => entries

/-- **The open requests**, as the log tells them. -/
def ledger (log : List ClientEvent) : List QueuedMessage := log.foldl ledgerStep []

@[simp] lemma ledger_snoc (log : List ClientEvent) (x : ClientEvent) :
    ledger (log ++ [x]) = ledgerStep (ledger log) x := by
  rw [ledger, List.foldl_append, List.foldl_cons, List.foldl_nil, ledger]

/-- The messages in the queue that are not complete. -/
def ClientView.openRequests (v : ClientView) : List QueuedMessage :=
  openEntries QueuedMessage.isComplete QueuedMessage.lasting v.mq

/-! ### The queue and the log -/

section Ledger

variable {r : Response} {m m' w : QueuedMessage} {l₁ l₂ mq : List QueuedMessage}
  {t : ControlType} {packetId : Option ℕ}

lemma isComplete_of_unsent (h : m.state = .unsent) : m.isComplete = false := by
  rw [QueuedMessage.isComplete, h]
  rfl

lemma matches_lasting (h : m.isComplete = false) :
    m.lasting.matches t.toNat packetId = m.matches t.toNat packetId := by
  have hstate : m.state ≠ .complete := by simpa [QueuedMessage.isComplete] using h
  rw [QueuedMessage.matches, QueuedMessage.matches, QueuedMessage.lasting_controlType,
    QueuedMessage.lasting_packetId, decide_eq_decide]
  simp [QueuedMessage.lasting, hstate]

/-- Messages that are acknowledged by their ids are looked for by them. -/
lemma acks_numbered {packetId : ℕ} (h : r.acks = some (t, some packetId)) :
    t.isNumbered = true := by
  rw [Response.acks] at h
  split at h <;> cases h <;> rfl

/-- Nothing that is open is acknowledged. -/
lemma openEntries_unacked (hacks : r.acks = some (t, packetId))
    (h : ∀ w ∈ mq, r.Acks w → w.isComplete = true) :
    (openEntries QueuedMessage.isComplete QueuedMessage.lasting mq).eraseP
        (QueuedMessage.matches t.toNat packetId) =
      openEntries QueuedMessage.isComplete QueuedMessage.lasting mq := by
  refine openEntries_eraseP_of_forall fun w hw => ?_
  cases hopen : w.isComplete with
  | true => exact .inl rfl
  | false =>
      refine .inr (Bool.eq_false_iff.mpr fun hm => ?_)
      rw [matches_lasting hopen] at hm
      rw [h w hw ((acks_iff hacks).mpr hm)] at hopen
      cases hopen

/-- A message behind one with the same id does not fit. -/
lemma not_acks_behind (hacks : r.acks = some (t, packetId)) (hm : r.Acks m)
    (hdone : m.isComplete = true) (hbehind : m.Behind w) : ¬ r.Acks w := by
  rw [acks_iff hacks] at hm ⊢
  cases packetId with
  | none =>
      rw [QueuedMessage.matches, decide_eq_true_iff] at hm
      obtain ⟨-, ⟨-, hstate⟩ | hid⟩ := hm
      · exact absurd (QueuedMessage.isComplete_iff.mp hdone) hstate
      · cases hid
  | some id =>
      obtain ⟨htype, hid⟩ := matches_some.mp hm
      intro hw
      obtain ⟨hwtype, hwid⟩ := matches_some.mp hw
      exact hbehind.numbered t (acks_numbered hacks) htype hwtype (hid.trans hwid.symm)

end Ledger

namespace ClientView

variable {P : QueuedMessage → Prop} {v v' : ClientView}

/-- **What is open stays in step with the log.** -/
lemma Moves.accounted (h : Moves P v v') (hsound : SoundQueue v.mq)
    (hv : v.openRequests = ledger v.log) : v'.openRequests = ledger v'.log := by
  have happend : ∀ m : QueuedMessage, m.state = .unsent →
      openEntries QueuedMessage.isComplete QueuedMessage.lasting (v.mq ++ [m]) =
        ledger v.log ++ [m.lasting] := fun m hm => by
    rw [openEntries_append, openEntries_cons_open (isComplete_of_unsent hm), ← hv]
    rfl
  rw [openRequests] at hv ⊢
  cases h with
  | rewound => exact hv
  | queued hm =>
      rw [ledger_snoc]
      exact happend _ hm.unsent
  | deliveredOnce hm =>
      rw [ledger_snoc, ledger_snoc]
      exact happend _ hm.unsent
  | cleaned => exact (openEntries_dropWhile fun _ h => h).trans hv
  | sent | delivered =>
      rw [ledger_snoc]
      exact hv
  | @sentWhole l₁ l₂ m m' n t hreach _ hm' =>
      obtain ⟨hlasting, hstate⟩ := QueuedMessage.afterSending_eq hm'
      have hopen := hreach.isOpen
      rw [ledger_snoc, ledgerStep, ledger_snoc, ← hv, hreach.split, ledgerStep]
      split_ifs at hstate ⊢ with hack
      · refine openEntries_update (hopen.trans ?_) hlasting
        rw [QueuedMessage.isComplete, hstate]
        rfl
      · rw [List.erase_eq_eraseP]
        refine openEntries_finish hopen (QueuedMessage.isComplete_iff.mpr hstate)
          (beq_self_eq_true _) fun w hw => (hreach.served w hw).imp_right fun hneeds => ?_
        refine beq_eq_false_iff_ne.mpr fun heq => hack ?_
        rw [← QueuedMessage.needsAck_lasting, heq, QueuedMessage.needsAck_lasting, hneeds]
  | ignored hdone =>
      rw [ledger_snoc, ← hv, ledgerStep]
      split
      · rename_i hacks
        exact (openEntries_unacked hacks hdone).symm
      · rfl
  | @released l₁ l₂ m r hmq hm hbefore =>
      obtain ⟨t, packetId, hacks, hfit⟩ := id hm
      rw [ledger_snoc, ledgerStep, ledger_snoc, ← hv, hmq, ledgerStep, hacks]
      cases hopen : m.isComplete with
      | true =>
          -- nothing that is open fits, as the one that fits has its id to itself
          have hbehind := (List.pairwise_cons.mp (List.pairwise_append.mp (hmq ▸ hsound.two)).2.1).1
          have hdone : ∀ w ∈ l₁ ++ m :: l₂, r.Acks w → w.isComplete = true := fun w hw hack => by
            rcases List.mem_append.mp hw with hw | hw
            · exact absurd hack (hbefore w hw)
            · rcases List.mem_cons.mp hw with rfl | hw
              · exact hopen
              · exact absurd hack (not_acks_behind hacks hm hopen (hbehind w hw))
          have hupdate : openEntries QueuedMessage.isComplete QueuedMessage.lasting
              (l₁ ++ { m with state := .complete } :: l₂) =
            openEntries QueuedMessage.isComplete QueuedMessage.lasting (l₁ ++ m :: l₂) :=
              openEntries_update hopen rfl
          exact hupdate.trans (openEntries_unacked hacks hdone).symm
      | false =>
          refine openEntries_finish hopen rfl ((matches_lasting hopen).trans hfit) fun w hw => ?_
          cases hw' : w.isComplete with
          | true => exact .inl rfl
          | false =>
              rw [matches_lasting hw', Bool.eq_false_iff, ne_eq, ← acks_iff hacks]
              exact .inr (hbefore w hw)

lemma Evolves.accounted (h : Evolves P v v') (hsound : SoundQueue v.mq)
    (hv : v.openRequests = ledger v.log) : v'.openRequests = ledger v'.log := by
  induction h with
  | refl => exact hv
  | tail hbefore hmove ih => exact hmove.accounted (Evolves.sound hbefore hsound) ih

end ClientView

/-! ### Quality of service 2 -/

/-- A delivery at quality of service 2 stands behind the PUBREC message that answers it, and no
other was open for its id. -/
def Answered (before : List ClientEvent) (p : Publish) : Prop :=
  ∃ before' m, before = before' ++ [.queued m] ∧ m.Is .pubrec ∧ m.packetId = p.packetId ∧
    ∀ w ∈ ledger before', w.Is .pubrec → w.packetId ≠ p.packetId

/-- Each delivery at quality of service 2 in the log is answered. -/
def AllAnswered (log : List ClientEvent) : Prop :=
  ∀ before p, before ++ [.delivered p] <+: log → p.qosLevel = 2 → Answered before p

lemma AllAnswered.snoc {log : List ClientEvent} {x : ClientEvent} (h : AllAnswered log)
    (hx : ∀ p, x = .delivered p → p.qosLevel = 2 → Answered log p) : AllAnswered (log ++ [x]) := by
  intro before p hprefix hp
  rcases List.prefix_concat_iff.mp hprefix with heq | hprefix
  · obtain ⟨rfl, hx'⟩ := List.append_inj' heq rfl
    exact hx p (List.singleton_inj.mp hx').symm hp
  · exact h before p hprefix hp

/-- What is open stays open until it is acknowledged, if it needs that. -/
lemma acks_of_closed {m : QueuedMessage} {entries : List QueuedMessage} {log : List ClientEvent}
    (hm : m ∈ entries) (hneeds : m.needsAck = true) (hclosed : m ∉ log.foldl ledgerStep entries) :
    ∃ r, .received r ∈ log ∧ r.Acks m := by
  induction log generalizing entries with
  | nil => exact absurd hm hclosed
  | cons x log ih =>
      have hstep : m ∈ ledgerStep entries x ∨ ∃ r, x = .received r ∧ r.Acks m := by
        cases x with
        | queued w => exact .inl (List.mem_append_left _ hm)
        | sent bytes => exact .inl hm
        | released w => exact .inl hm
        | delivered p => exact .inl hm
        | sentWhole w =>
            left
            rw [ledgerStep]
            split_ifs with hw
            · exact hm
            · refine (List.mem_erase_of_ne fun heq => hw ?_).mpr hm
              rw [← QueuedMessage.needsAck_lasting, ← heq, hneeds]
        | received r =>
            by_cases hack : r.Acks m
            · exact .inr ⟨r, rfl, hack⟩
            · left
              rw [ledgerStep]
              split
              · rename_i hacks
                exact (List.mem_eraseP_of_neg fun hfit => hack ((acks_iff hacks).mpr hfit)).mpr hm
              · exact hm
      rcases hstep with hstep | ⟨r, rfl, hack⟩
      · obtain ⟨r, hr, hack⟩ := ih hstep hclosed
        exact ⟨r, List.mem_cons_of_mem _ hr, hack⟩
      · exact ⟨r, List.mem_cons_self, hack⟩

/-- A PUBREC message is acknowledged by a PUBREL packet. -/
lemma pubrel_of_acks {r : Response} {m : QueuedMessage} (h : r.Acks m) (hm : m.Is .pubrec) :
    r.fixedHeader.controlType = .pubrel ∧ r.decoded = .pubxxx m.packetId := by
  obtain ⟨t, packetId, hacks, hfit⟩ := h
  have htype : m.Is t := by
    rw [QueuedMessage.matches, decide_eq_true_iff] at hfit
    exact hfit.1
  obtain rfl := htype.unique hm
  rw [Response.acks] at hacks
  split at hacks <;> cases hacks
  rename_i hrel hdecoded
  rw [(matches_some.mp hfit).2]
  exact ⟨hrel, hdecoded⟩

namespace ClientView

variable {P : QueuedMessage → Prop} {v v' : ClientView}

lemma Moves.allAnswered (h : Moves P v v') (hv : v.openRequests = ledger v.log)
    (hlog : AllAnswered v.log) : AllAnswered v'.log := by
  cases h with
  | rewound | cleaned => exact hlog
  | queued | sent | ignored => exact hlog.snoc fun p hp => by cases hp
  | sentWhole | released =>
      exact (hlog.snoc fun p hp => by cases hp).snoc fun p hp => by cases hp
  | delivered hp =>
      refine hlog.snoc fun p' hp' hqos => ?_
      cases hp'
      exact absurd hqos hp
  | @deliveredOnce p m hm _ htype hid =>
      refine (hlog.snoc fun p hp => by cases hp).snoc fun p' hp' _ => ?_
      cases hp'
      refine ⟨v.log, m, rfl, htype, hid, fun w hw hrec => ?_⟩
      rw [← hv] at hw
      obtain ⟨w, hmem, -, rfl⟩ := mem_openEntries.mp hw
      exact hid ▸ (hm.behind w hmem).numbered .pubrec rfl hrec htype

lemma Evolves.allAnswered (h : Evolves P v v') (hsound : SoundQueue v.mq)
    (hv : v.openRequests = ledger v.log) (hlog : AllAnswered v.log) : AllAnswered v'.log := by
  induction h with
  | refl => exact hlog
  | tail hbefore hmove ih =>
      exact hmove.allAnswered (Evolves.accounted hbefore hsound hv) ih

end ClientView

namespace Client

variable {c : Client}

lemma sound_of_run {ops : List ClientOp} {sendbufsz recvbufsz timeOfLastSend keepAlive : ℕ}
    (h : (mqttInit sendbufsz recvbufsz timeOfLastSend keepAlive).run ops = .ok c) :
    SoundQueue c.mq :=
  ClientView.Evolves.sound (evolves_of_run .nil h) .nil

lemma accounted_of_run {ops : List ClientOp} {sendbufsz recvbufsz timeOfLastSend keepAlive : ℕ}
    (h : (mqttInit sendbufsz recvbufsz timeOfLastSend keepAlive).run ops = .ok c) :
    c.view.openRequests = ledger c.log :=
  ClientView.Evolves.accounted (evolves_of_run .nil h) .nil rfl

end Client

section Run

variable {ops : List ClientOp} {sendbufsz recvbufsz timeOfLastSend keepAlive : ℕ} {c : Client}

/-- **The messages in the queue that are not complete are the open requests**, in their order,
after any calls with any answers of the socket and of the broker. -/
theorem requests_accounted
    (h : (mqttInit sendbufsz recvbufsz timeOfLastSend keepAlive).run ops = .ok c) :
    c.view.openRequests = ledger c.log :=
  Client.accounted_of_run h

/-- A socket that takes some bytes of each packet, at once. -/
def SocketEnv.taking (n : ℕ) : SocketEnv where
  timeChecked _ := 0
  timeSent _ := 0
  sendall _ := .ok n
  timeEnd := 0

/-- A turn that reads a packet, and one that finds nothing more. -/
def oneRead (bytes : Str) : List (Unset × Except ClientError Str) :=
  [(⟨0, 0⟩, .ok bytes), (⟨0, 0⟩, .ok [])]

/-- The broker sends a message, releases its id, and uses it again. -/
def redelivered : List ClientOp :=
  [.connect ⟨0, 0⟩ [97] none none 2 60, .sync (oneRead [32, 2, 0, 0]) (.taking 100) ⟨0, 0⟩,
    .sync (oneRead [52, 5, 0, 1, 97, 0, 5]) (.taking 100) ⟨0, 0⟩,
    .sync (oneRead [98, 2, 0, 5]) (.taking 100) ⟨0, 0⟩, .ping ⟨0, 0⟩,
    .sync (oneRead [52, 5, 0, 1, 97, 0, 5]) (.taking 100) ⟨0, 0⟩]

/-- What that makes of a client with a small block to send from. -/
def redeliveredClient : Client :=
  ((mqttInit 160 100 0 60).run redelivered).toOption.getD (mqttInit 160 100 0 60)

set_option maxRecDepth 100000 in
lemma redelivered_run : (mqttInit 160 100 0 60).run redelivered = .ok redeliveredClient := rfl

/-- A PINGREQ and a PUBREC message are open then. -/
theorem requests_accounted_redelivered :
    redeliveredClient.view.openRequests = ledger redeliveredClient.log ∧
      redeliveredClient.view.openRequests.map QueuedMessage.bytes = [[192, 0], [80, 2, 0, 5]] :=
  ⟨requests_accounted redelivered_run, rfl⟩

/-- **An acknowledgement is unambiguous**: at most one open request fits a packet with an id. -/
theorem acks_unambiguous
    (h : (mqttInit sendbufsz recvbufsz timeOfLastSend keepAlive).run ops = .ok c) {r : Response}
    {t : ControlType} {packetId : ℕ} (hacks : r.acks = some (t, some packetId)) :
    ((ledger c.log).filter fun m => m.matches t.toNat (some packetId)).length ≤ 1 := by
  have hnumbered : (ledger c.log).Pairwise fun m w : QueuedMessage =>
      m.Is t → w.Is t → m.packetId ≠ w.packetId := by
    rw [← Client.accounted_of_run h, ClientView.openRequests, openEntries, List.pairwise_map]
    exact ((Client.sound_of_run h).two.imp fun hbehind => hbehind.numbered t
      (acks_numbered hacks)).filter _
  refine length_filter_le_one hnumbered fun m w hne hm hw => ?_
  obtain ⟨htype, hid⟩ := matches_some.mp hm
  obtain ⟨hwtype, hwid⟩ := matches_some.mp hw
  exact hne htype hwtype (hid.trans hwid.symm)

/-- A PUBREL packet behind the second delivery. -/
theorem acks_unambiguous_redelivered :
    ((ledger redeliveredClient.log).filter fun m =>
      m.matches ControlType.pubrec.toNat (some 5)).length ≤ 1 :=
  acks_unambiguous redelivered_run (r := ⟨⟨.pubrel, 2, 2⟩, .pubxxx 5⟩) rfl

/-- **One PUBLISH message at quality of service 2 is on its way at a time.** -/
theorem one_qos2_in_flight
    (h : (mqttInit sendbufsz recvbufsz timeOfLastSend keepAlive).run ops = .ok c) :
    (c.mq.filter fun m => m.qos2 ∧ m.state = .awaitingAck).length ≤ 1 := by
  refine length_filter_le_one (Client.sound_of_run h).two fun m w hbehind hm hw => ?_
  obtain ⟨hm2, -⟩ := of_decide_eq_true hm
  obtain ⟨hw2, hstate⟩ := of_decide_eq_true hw
  exact hbehind.waits hm2 (QueuedMessage.qos2_iff.mp hw2).1 hstate

/-- Two messages are published at quality of service 2. -/
def publishedTwice : List ClientOp :=
  [.connect ⟨0, 0⟩ [97] none none 2 60, .sync (oneRead [32, 2, 0, 0]) (.taking 100) ⟨0, 0⟩,
    .publish ⟨0, 0⟩ [98] [1] 4, .publish ⟨0, 0⟩ [98] [2] 4,
    .sync [(⟨0, 0⟩, .ok [])] (.taking 100) ⟨0, 0⟩]

/-- What that makes of a client. -/
def publishedTwiceClient : Client :=
  ((mqttInit 300 100 0 60).run publishedTwice).toOption.getD (mqttInit 300 100 0 60)

set_option maxRecDepth 100000 in
lemma publishedTwice_run :
    (mqttInit 300 100 0 60).run publishedTwice = .ok publishedTwiceClient := rfl

/-- The second one waits, unsent. -/
theorem one_qos2_in_flight_published :
    (publishedTwiceClient.mq.filter fun m => m.qos2 ∧ m.state = .awaitingAck).length ≤ 1 ∧
      publishedTwiceClient.mq.map QueuedMessage.state = [.complete, .awaitingAck, .unsent] :=
  ⟨one_qos2_in_flight publishedTwice_run, rfl⟩

/-- **A message at quality of service 2 is delivered at most once**: between two deliveries with one
id the broker has released the id. -/
theorem qos2_delivered_once
    (h : (mqttInit sendbufsz recvbufsz timeOfLastSend keepAlive).run ops = .ok c)
    {before between after : List ClientEvent} {p p' : Publish}
    (hlog : c.log = before ++ .delivered p :: (between ++ .delivered p' :: after))
    (hp : p.qosLevel = 2) (hp' : p'.qosLevel = 2) (hid : p'.packetId = p.packetId) :
    ∃ r, .received r ∈ between ∧ r.fixedHeader.controlType = .pubrel ∧
      r.decoded = .pubxxx p.packetId := by
  have hstart : AllAnswered [] := fun before p hprefix => by
    have hnil := List.prefix_nil.mp hprefix
    simp at hnil
  have hall : AllAnswered c.log :=
    ClientView.Evolves.allAnswered (Client.evolves_of_run .nil h) .nil rfl hstart
  rw [hlog] at hall
  obtain ⟨first, m, rfl, hm, hmid, -⟩ := hall before p
    ⟨between ++ .delivered p' :: after, by simp⟩ hp
  obtain ⟨second, m', hsecond, -, -, hnone⟩ :=
    hall (first ++ [.queued m] ++ .delivered p :: between) p' ⟨after, by simp⟩ hp'
  rcases List.eq_nil_or_concat between with rfl | ⟨between, x, rfl⟩
  · cases (List.append_inj' hsecond rfl).2
  -- the answer to the first delivery has been acknowledged before the second one
  rw [List.concat_eq_append, ← List.cons_append, ← List.append_assoc] at hsecond
  obtain ⟨hsplit, -⟩ := List.append_inj' hsecond rfl
  have hmem : m.lasting ∈ ledger (first ++ [.queued m]) := by
    rw [ledger_snoc]
    exact List.mem_append_right _ (List.mem_singleton_self _)
  have hneeds : m.lasting.needsAck = true := by
    rw [QueuedMessage.needsAck, QueuedMessage.lasting_controlType, hm, ControlType.ofNat?_toNat]
  have hclosed : m.lasting ∉ (.delivered p :: between : List ClientEvent).foldl ledgerStep
      (ledger (first ++ [.queued m])) := by
    intro hopen
    rw [ledger, ← List.foldl_append, hsplit] at hopen
    exact hnone m.lasting hopen hm (hmid.trans hid.symm)
  obtain ⟨r, hr, hack⟩ := acks_of_closed hmem hneeds hclosed
  obtain ⟨hrel, hdecoded⟩ := pubrel_of_acks hack hm
  rcases List.mem_cons.mp hr with hr | hr
  · cases hr
  · refine ⟨r, ?_, hrel, hmid ▸ hdecoded⟩
    rw [List.concat_eq_append]
    exact List.mem_append_left _ hr

/-- The PUBREL packet is between the two deliveries. -/
theorem qos2_delivered_once_redelivered :
    ∃ r, .received r ∈ (redeliveredClient.log.drop 6).take 10 ∧
      r.fixedHeader.controlType = .pubrel ∧ r.decoded = .pubxxx 5 := by
  have hlog : redeliveredClient.log =
      redeliveredClient.log.take 5 ++ .delivered ⟨0, 2, 0, [97], 5, []⟩ ::
        ((redeliveredClient.log.drop 6).take 10 ++ .delivered ⟨0, 2, 0, [97], 5, []⟩ ::
          redeliveredClient.log.drop 17) := rfl
  exact qos2_delivered_once redelivered_run hlog rfl rfl rfl

end Run

end SipEcho
