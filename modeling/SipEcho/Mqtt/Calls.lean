import SipEcho.Mqtt.Moves
import SipEcho.Mqtt.RoundTrip

/-!
Every call of the client is a sequence of small steps.

* `tryPack_cases`, `mqttSendMessage_cases`, `acknowledge_cases`: what queueing, sending and an
  acknowledgement can do;
* `evolves_mqttSendFrom`: the loop of `__mqtt_send`, which passes over nothing that could be sent;
* `evolves_mqttHandle`: the answers to the packets of the broker;
* `ClientOp`, `Client.run`: the calls of a program; `evolves_run`: **any run is a sequence of small
  steps**.
-/

namespace SipEcho

open Lib Relation

/-- A call is a sequence of small steps. -/
abbrev Client.Evolves (P : QueuedMessage → Prop) (c c' : Client) : Prop :=
  ClientView.Evolves P c.view c'.view

namespace Client

variable {P : QueuedMessage → Prop} {c c' : Client} {e : Option ClientError} {u : Unset}

lemma evolves_fail (c : Client) (e : ClientError) : c.Evolves P (c.fail e).2 := .refl

lemma evolves_clean (c : Client) : c.Evolves P c.clean := .single .cleaned

/-! ### Queueing -/

/-- **What `MQTT_CLIENT_TRY_PACK` can do**: fail, or queue a packet, before which it may clean the
queue. -/
lemma tryPack_cases {t : ControlType} {packetId : Option ℕ} {pack : ℕ → Except Fault Request}
    (h : c.tryPack u t packetId pack = .ok (e, c')) :
    e ≠ none ∧ c.Evolves P c' ∨
      e = none ∧ ∃ c₁ packet, c.Evolves P c₁ ∧ c₁.mq.Sublist c.mq ∧
        pack (queueRoom c₁.mqSize c₁.mq) = .ok (.ok (some packet)) ∧
        c' = c₁.register u packet t packetId := by
  have hclean := evolves_clean (P := P) c
  have hsub : c.clean.mq.Sublist c.mq := List.dropWhile_sublist _
  rw [tryPack] at h
  cases herr : c.error with
  | some err =>
      rw [herr] at h
      cases h
      exact .inl ⟨by simp, .refl⟩
  | none =>
      rw [herr] at h
      obtain ⟨first, hfirst, h⟩ := ok_of_bind h
      cases first with
      | error err =>
          cases h
          exact .inl ⟨by simp, evolves_fail ..⟩
      | ok first =>
          cases first with
          | some packet =>
              cases h
              exact .inr ⟨rfl, c, packet, .refl, .refl _, hfirst, rfl⟩
          | none =>
              obtain ⟨second, hsecond, h⟩ := ok_of_bind h
              cases second with
              | error err =>
                  cases h
                  exact .inl ⟨by simp, hclean.trans (evolves_fail ..)⟩
              | ok second =>
                  cases second with
                  | some packet =>
                      cases h
                      exact .inr ⟨rfl, c.clean, packet, hclean, hsub, hsecond, rfl⟩
                  | none =>
                      cases h
                      exact .inl ⟨by simp, hclean.trans (evolves_fail ..)⟩

/-- Whatever a packer writes for a message of a type has the property. -/
def Packs (P : QueuedMessage → Prop) (t : ControlType) (pack : ℕ → Except Fault Request) : Prop :=
  ∀ room m, m.Is t → pack room = .ok (.ok (some m.bytes)) → P m

/-- So does what the client packs by itself. -/
structure OwnPackets (P : QueuedMessage → Prop) : Prop where
  pubxxx : ∀ t packetId, t.Acknowledges →
    Packs P t fun room => mqttPackPubxxxAt room room t packetId
  ping : Packs P .pingreq fun room => mqttPackPingAt room room
  disconnect : Packs P .disconnect fun room => mqttPackDisconnectAt room room

/-- A packet is queued. -/
lemma evolves_tryPack {t : ControlType} {packetId : Option ℕ}
    {pack : ℕ → Except Fault Request}
    (hm : ∀ m : QueuedMessage, m.state = .unsent → m.Is t →
      m.packetId = packetId.getD u.packetId → MayQueue c.mq m) (hpack : Packs P t pack)
    (hfits : FitsRoom pack) (h : c.tryPack u t packetId pack = .ok (e, c')) : c.Evolves P c' := by
  rcases tryPack_cases (P := P) h with ⟨-, h⟩ | ⟨-, c₁, packet, hc₁, hsub, hpacket, rfl⟩
  · exact h
  · have hmay := hm ⟨packet, .unsent, u.timeSent, t.toNat, packetId.getD u.packetId⟩ rfl rfl rfl
    exact hc₁.tail (.queued (hmay.sublist hsub) (hpack _ _ rfl hpacket) (hfits _ _ hpacket))

/-- A packet that is not looked for by its id is queued. -/
lemma evolves_tryPack_plain {t : ControlType} {packetId : Option ℕ}
    {pack : ℕ → Except Fault Request} (ht : t.isSendable = true) (hplain : t.isNumbered = false)
    (hpack : Packs P t pack) (hfits : FitsRoom pack)
    (h : c.tryPack u t packetId pack = .ok (e, c')) : c.Evolves P c' :=
  evolves_tryPack (fun _ hstate htype _ => mayQueue_of_plain hstate htype ht hplain) hpack hfits h

/-- **A request with a new id is queued.** -/
lemma evolves_withPacketId {t : ControlType} {pack : ℕ → ℕ → Except Fault Request}
    (ht : t.isSendable = true) (hrel : t ≠ .pubrel) (hpack : ∀ packetId, Packs P t (pack packetId))
    (hfits : ∀ packetId, FitsRoom (pack packetId))
    (h : withPacketId c (fun packetId c => c.tryPack u t (some packetId) (pack packetId)) =
      .ok (e, c')) : c.Evolves P c' := by
  rw [withPacketId] at h
  cases hid : mqttNextPid 65535 (c.mq.map QueuedMessage.packetId) c.pidLfsr with
  | none =>
      rw [hid] at h
      cases h
  | some packetId =>
      rw [hid] at h
      obtain ⟨_, _, _, hnew, _⟩ := mqttNextPid_turns hid
      have hmay : ∀ m : QueuedMessage, m.state = .unsent → m.Is t → m.packetId = packetId →
          MayQueue c.mq m := fun m hstate htype hm =>
        mayQueue_of_new hstate htype ht hrel (hm ▸ hnew)
      exact evolves_tryPack (c := { c with pidLfsr := packetId }) hmay (hpack packetId)
        (hfits packetId) h

/-! ### Sending -/

/-- The client when the loop of `__mqtt_send` is left. -/
def leftBy : Sending → Client
  | .failed _ c => c
  | .rest c => c

/-- **One message is sent**: in part, for which the loop is left, or wholly. -/
lemma mqttSendMessage_cases {env : SocketEnv} {i : ℕ} {m : QueuedMessage} {s : Sum Sending Client}
    (hi : c.mq[i]? = some m) (hm : m.Sound)
    (hreach : c.view.Reaches (c.mq.take i) m (c.mq.drop (i + 1)))
    (h : mqttSendMessage env i m c = .ok s) :
    (∃ s', s = .inl s' ∧ c.Evolves P (leftBy s')) ∨
      ∃ c₁ t m', s = .inr c₁ ∧ c.Evolves P c₁ ∧ c₁.mq = c.mq.set i m' ∧
        ({ m with timeSent := t } : QueuedMessage).afterSending = some m' := by
  rw [mqttSendMessage] at h
  split_ifs at h with hlong
  cases hsend : env.sendall i with
  | error err =>
      rw [hsend] at h
      cases h
      exact .inl ⟨_, rfl, .refl⟩
  | ok n =>
      rw [hsend] at h
      dsimp only at h
      split_ifs at h with hpart
      · cases h
        exact .inl ⟨_, rfl, .single (.sent hreach hpart)⟩
      split at h
      · rename_i hnone
        obtain ⟨t, htype, ht⟩ := hm.sendable
        have hsome := QueuedMessage.isSome_afterSending
          (m := { m with timeSent := env.timeSent i }) htype ht
        rw [hnone] at hsome
        cases hsome
      · rename_i m' hm'
        cases h
        have hoffset : c.sendOffset + min n (m.bytes.length - c.sendOffset) = m.bytes.length := by
          omega
        have hwhole := ClientView.Moves.sentWhole (P := P) hreach hoffset hm'
        rw [← set_split hi m'] at hwhole
        exact .inr ⟨_, _, m', rfl, .single hwhole, rfl, hm'⟩

/-- What the loop has passed: nothing that could still be sent but messages at quality of service 2
behind another one, which is noted. -/
structure PassedBy (inflight : Bool) (passed : List QueuedMessage) : Prop where
  served : ∀ w ∈ passed, w.isComplete = true ∨ w.needsAck = true
  waiting : ∀ w ∈ passed, w.state = .unsent → w.IsQos2
  noted : inflight = false → ∀ w ∈ passed, w.qos2 = false

lemma PassedBy.snoc {inflight inflight' : Bool} {passed : List QueuedMessage} {m : QueuedMessage}
    (h : PassedBy inflight passed) (hserved : m.isComplete = true ∨ m.needsAck = true)
    (hwaiting : m.state = .unsent → m.IsQos2)
    (hinflight : inflight' = false → inflight = false ∧ m.qos2 = false) :
    PassedBy inflight' (passed ++ [m]) where
  served w hw := by
    rcases List.mem_append.mp hw with hw | hw
    · exact h.served w hw
    · rwa [List.mem_singleton.mp hw]
  waiting w hw hstate := by
    rcases List.mem_append.mp hw with hw | hw
    · exact h.waiting w hw hstate
    · rw [List.mem_singleton.mp hw] at hstate ⊢
      exact hwaiting hstate
  noted hnot w hw := by
    obtain ⟨hbefore, hm⟩ := hinflight hnot
    rcases List.mem_append.mp hw with hw | hw
    · exact h.noted hbefore w hw
    · rwa [List.mem_singleton.mp hw]

/-- What is not sent is passed by. -/
lemma PassedBy.skipped {inflight timedOut : Bool} {passed : List QueuedMessage}
    {m : QueuedMessage} (h : PassedBy inflight passed) (hm : m.Sound)
    (hskip : ¬ ((m.state = .unsent ∨ timedOut = true) ∧
      ¬ (m.qos2 = true ∧ inflight = true))) : PassedBy (inflight || m.qos2) (passed ++ [m]) := by
  have hunsent : m.state = .unsent → m.IsQos2 := fun hstate => by
    by_contra hne
    exact hskip ⟨.inl hstate, fun hboth => hne (QueuedMessage.qos2_iff.mp hboth.1).1⟩
  refine h.snoc ?_ hunsent Bool.or_eq_false_iff.mp
  cases hstate : m.state with
  | complete => exact .inl (QueuedMessage.isComplete_iff.mpr hstate)
  | awaitingAck => exact .inr (hm.unawaited hstate)
  | unsent => exact .inr (hunsent hstate).needsAck

/-- What has been sent is passed by. -/
lemma PassedBy.sent {inflight : Bool} {passed : List QueuedMessage} {m m' : QueuedMessage} {t : ℕ}
    (h : PassedBy inflight passed) (hopen : m.isComplete = false)
    (hm' : ({ m with timeSent := t } : QueuedMessage).afterSending = some m') :
    PassedBy (inflight || m.qos2) (passed ++ [m']) := by
  obtain ⟨hlasting, hstate⟩ := QueuedMessage.afterSending_eq hm'
  have hserved : m'.isComplete = true ∨ m'.needsAck = true := by
    rw [QueuedMessage.needsAck_of_lasting hlasting]
    by_cases hack : QueuedMessage.needsAck { m with timeSent := t } = true
    · exact .inr hack
    · rw [if_neg hack] at hstate
      exact .inl (QueuedMessage.isComplete_iff.mpr hstate)
  refine h.snoc hserved (fun hunsent => ?_) fun hnot => ?_
  · rw [hstate] at hunsent
    split_ifs at hunsent
  · obtain ⟨hbefore, hm⟩ := Bool.or_eq_false_iff.mp hnot
    refine ⟨hbefore, Bool.eq_false_iff.mpr fun hqos => ?_⟩
    have hqos' := (QueuedMessage.isQos2_of_lasting hlasting).mp (QueuedMessage.qos2_iff.mp hqos).1
    have hm2 : m.qos2 = true := QueuedMessage.qos2_iff.mpr ⟨hqos', hopen⟩
    rw [hm] at hm2
    cases hm2

@[simp] lemma rewound_mq {timedOut : Bool} : (c.rewound timedOut).mq = c.mq := by
  rw [rewound]
  split <;> rfl

lemma evolves_rewound (timedOut : Bool) : c.Evolves P (c.rewound timedOut) := by
  rw [rewound]
  split
  · exact .single .rewound
  · exact .refl

/-- A message is sent for the first time, or because it has timed out. -/
lemma due_of_sent {env : SocketEnv} {i : ℕ} {m : QueuedMessage}
    (h : m.state = .unsent ∨ c.timesOut env i m = true) : m.state = .unsent ∨
      m.state = .awaitingAck ∧ 0 < (c.rewound (c.timesOut env i m)).numberOfTimeouts := by
  refine h.imp_right fun hout => ⟨?_, ?_⟩
  · rw [timesOut, decide_eq_true_iff] at hout
    exact hout.1
  · rw [rewound, if_pos hout]
    exact Nat.succ_pos _

/-- **The loop of `__mqtt_send`.** -/
lemma evolves_mqttSendFrom {env : SocketEnv} {count i : ℕ} {inflight : Bool} {s : Sending}
    (hc : SoundQueue c.mq) (hpassed : PassedBy inflight (c.mq.take i))
    (h : mqttSendFrom env count i inflight c = .ok s) : c.Evolves P (leftBy s) := by
  induction count generalizing i inflight c with
  | zero =>
      cases h
      exact .refl
  | succ count ih =>
      rw [mqttSendFrom] at h
      cases hm : c.mq[i]? with
      | none =>
          rw [hm] at h
          cases h
      | some m =>
          rw [hm] at h
          dsimp only at h
          have hsound := hc.each m (List.mem_of_getElem? hm)
          have hrewound := evolves_rewound (P := P) (c := c) (c.timesOut env i m)
          have hmq : (c.rewound (c.timesOut env i m)).mq = c.mq := rewound_mq
          split at h
          · rename_i hsend
            obtain ⟨r, hr, h⟩ := ok_of_bind h
            have hdue := due_of_sent hsend.1
            generalize c.rewound (c.timesOut env i m) = c₀ at hrewound hmq hr hdue
            rw [← hmq] at hm hpassed
            have hreach : c₀.view.Reaches (c₀.mq.take i) m (c₀.mq.drop (i + 1)) :=
              ⟨split_of_getElem? hm, hdue, hpassed.served, hpassed.waiting, fun hqos =>
                hpassed.noted (Bool.eq_false_iff.mpr fun hinflight => hsend.2
                  ⟨QueuedMessage.qos2_iff.mpr ⟨hqos, ClientView.isOpen_of_due hdue⟩, hinflight⟩)⟩
            rcases mqttSendMessage_cases hm hsound hreach hr with
              ⟨s', rfl, hs'⟩ | ⟨c₁, t, m', rfl, hc₁, hmq₁, hm'⟩
            · cases h
              exact hrewound.trans hs'
            · have hevolves := hrewound.trans hc₁
              refine hevolves.trans (ih (ClientView.Evolves.sound hevolves hc) ?_ h)
              rw [hmq₁, take_succ_set hm m']
              exact hpassed.sent hreach.isOpen hm'
          · rename_i hskip
            refine hrewound.trans (ih (c := c.rewound _) (hmq ▸ hc) ?_ h)
            rw [hmq, take_succ_of_getElem? hm]
            exact hpassed.skipped hsound hskip

lemma evolves_mqttPing (hown : OwnPackets P) (h : mqttPing c u = .ok (e, c')) :
    c.Evolves P c' :=
  evolves_tryPack_plain rfl rfl hown.ping fits_packFixedHeaderAt h

lemma evolves_mqttSend {env : SocketEnv} (hown : OwnPackets P) (hc : SoundQueue c.mq)
    (h : mqttSend env u c = .ok (e, c')) : c.Evolves P c' := by
  have hsending (h : mqttSend.sending env u c = .ok (e, c')) : c.Evolves P c' := by
    rw [mqttSend.sending] at h
    obtain ⟨s, hs, h⟩ := ok_of_bind h
    have hloop := evolves_mqttSendFrom (P := P) hc ⟨by simp, by simp, by simp⟩ hs
    cases s with
    | failed err c₁ =>
        cases h
        exact hloop
    | rest c₁ =>
        dsimp only at h
        split at h
        · obtain ⟨r, hr, h⟩ := ok_of_bind h
          have hping := hloop.trans (evolves_mqttPing hown hr)
          cases hr1 : r.1 with
          | none =>
              rw [hr1] at h
              cases h
              exact hping
          | some err =>
              rw [hr1] at h
              cases h
              exact hping.trans (evolves_fail ..)
        · cases h
          exact hloop
  rw [mqttSend] at h
  split at h
  · split at h
    · exact hsending h
    · cases h
      exact .refl
  · exact hsending h

/-! ### Receiving -/

lemma find_none_iff {t : ControlType} {packetId : ℕ} :
    c.find t (some packetId) = none ↔ ∀ w ∈ c.mq, w.Is t → w.packetId ≠ packetId := by
  rw [find, List.findIdx?_eq_none_iff]
  refine forall₂_congr fun w hw => ?_
  rw [Bool.eq_false_iff, ne_eq, matches_some, not_and]

/-- A packet that acknowledges nothing. -/
lemma evolves_ignored {r : Response} (h : ∀ m ∈ c.mq, r.Acks m → m.isComplete = true) :
    c.Evolves P { c with log := c.log ++ [.received r] } :=
  .single (.ignored h)

lemma evolves_unacked {r : Response} (h : r.acks = none) :
    c.Evolves P { c with log := c.log ++ [.received r] } := by
  refine evolves_ignored fun m _ hm => ?_
  obtain ⟨_, _, hacks, _⟩ := hm
  rw [h] at hacks
  cases hacks

/-- The first message that fits is completed. -/
lemma release_cases {t : ControlType} {packetId : Option ℕ} (h : c.release t packetId = some c') :
    ∃ l₁ m l₂, c.mq = l₁ ++ m :: l₂ ∧ m.matches t.toNat packetId = true ∧
      (∀ w ∈ l₁, w.matches t.toNat packetId = false) ∧
      c' = { c with
        mq := l₁ ++ { m with state := .complete } :: l₂
        log := c.log ++ [.released m] } := by
  rw [release] at h
  simp only [Option.bind_eq_bind, Option.bind_eq_some_iff, Option.pure_def, Option.some_inj] at h
  obtain ⟨i, hi, m, hm, rfl⟩ := h
  obtain ⟨l₁, m', l₂, hmq, rfl, hfit, hbefore⟩ := exists_split_of_findIdx? hi
  rw [hmq, List.getElem?_append_right le_rfl, Nat.sub_self, List.getElem?_cons_zero,
    Option.some_inj] at hm
  obtain rfl := hm
  refine ⟨l₁, m', l₂, hmq, hfit, hbefore, ?_⟩
  rw [hmq, List.set_append_right _ _ le_rfl, Nat.sub_self, List.set_cons_zero]

lemma release_none {t : ControlType} {packetId : Option ℕ} (h : c.release t packetId = none) :
    ∀ w ∈ c.mq, w.matches t.toNat packetId = false := by
  cases hi : c.find t packetId with
  | none => exact List.findIdx?_eq_none_iff.mp hi
  | some i =>
      obtain ⟨hlt, -⟩ := List.findIdx?_eq_some_iff_getElem.mp hi
      rw [release, hi] at h
      simp [List.getElem?_eq_getElem hlt] at h

/-- **An acknowledgement** completes the first message that fits, or is of an unknown one. -/
lemma acknowledge_cases {r : Response} {t : ControlType} {packetId : Option ℕ}
    {go : Client → Except Fault ClientResult} (hacks : r.acks = some (t, packetId))
    (h : acknowledge { c with log := c.log ++ [.received r] } t packetId go = .ok (e, c')) :
    c.Evolves P c' ∨ ∃ c₁ l₁ m l₂, c.Evolves P c₁ ∧ c.mq = l₁ ++ m :: l₂ ∧
      m.matches t.toNat packetId = true ∧ (∀ w ∈ l₁, w.matches t.toNat packetId = false) ∧
      c₁.mq = l₁ ++ { m with state := .complete } :: l₂ ∧ go c₁ = .ok (e, c') := by
  rw [acknowledge] at h
  split at h
  · rename_i hnone
    cases h
    refine .inl (evolves_ignored fun m hm hack => ?_)
    rw [acks_iff hacks, release_none hnone m hm] at hack
    cases hack
  · rename_i c₁ hc₁
    obtain ⟨l₁, m, l₂, hmq, hm, hbefore, rfl⟩ := release_cases hc₁
    have hmove := ClientView.Moves.released (P := P) (v := c.view) hmq ((acks_iff hacks).mpr hm)
      fun w hw => by
        rw [acks_iff hacks, hbefore w hw]
        exact Bool.false_ne_true
    refine .inr ⟨_, l₁, m, l₂, ?_, hmq, hm, hbefore, rfl, h⟩
    exact .single hmove

/-- What is done behind an acknowledgement. -/
lemma evolves_acknowledge {r : Response} {t : ControlType} {packetId : Option ℕ}
    {go : Client → Except Fault ClientResult} (hacks : r.acks = some (t, packetId))
    (hgo : ∀ c₁, go c₁ = .ok (e, c') → c₁.Evolves P c')
    (h : acknowledge { c with log := c.log ++ [.received r] } t packetId go = .ok (e, c')) :
    c.Evolves P c' := by
  rcases acknowledge_cases hacks h with h | ⟨c₁, _, _, _, hc₁, _, _, _, _, h⟩
  · exact h
  · exact hc₁.trans (hgo c₁ h)

/-- Nothing else is done. -/
lemma evolves_done (c₁ : Client) (h : (pure (none, c₁) : Except Fault ClientResult) = .ok (e, c')) :
    c₁.Evolves P c' := by
  cases h
  exact .refl

/-- An answer is queued. -/
lemma evolves_answered {t : ControlType} {packetId : ℕ} (hown : OwnPackets P)
    (ht : t.Acknowledges)
    (hm : ∀ m : QueuedMessage, m.state = .unsent → m.Is t → m.packetId = packetId →
      MayQueue c.mq m)
    (h : (do
      let result ← mqttPubxxx t c u packetId
      return answered result id) = Except.ok (e, c')) : c.Evolves P c' := by
  obtain ⟨result, hresult, h⟩ := ok_of_bind h
  obtain ⟨err, c₁⟩ := result
  have hpack := evolves_tryPack hm (hown.pubxxx t packetId ht) fits_pubxxx hresult
  cases err with
  | none =>
      cases h
      exact hpack
  | some err =>
      cases h
      exact hpack.trans (evolves_fail ..)

/-- A message at quality of service 1 is answered and delivered. -/
lemma evolves_delivered {p : Publish} {result : ClientResult} (hown : OwnPackets P)
    (hp : p.qosLevel ≠ 2)
    (h : mqttPubxxx .puback c u p.packetId = .ok result) :
    c.Evolves P (answered result fun c => c.deliver p).2 := by
  obtain ⟨err, c₁⟩ := result
  have hpack := evolves_tryPack_plain rfl rfl (hown.pubxxx .puback p.packetId (.inl rfl))
    fits_pubxxx h
  cases err with
  | none => exact hpack.tail (.delivered hp)
  | some err => exact hpack.trans (evolves_fail ..)

/-- **A message at quality of service 2 is answered and delivered**, unless its answer is still in
the queue. -/
lemma evolves_deliveredOnce {p : Publish} {result : ClientResult} (hown : OwnPackets P)
    (hfind : c.find .pubrec (some p.packetId) = none)
    (h : mqttPubxxx .pubrec c u p.packetId = .ok result) :
    c.Evolves P (answered result fun c => c.deliver p).2 := by
  obtain ⟨err, c₁⟩ := result
  rcases tryPack_cases (P := P) h with ⟨herr, hc⟩ | ⟨rfl, c₂, packet, hc₂, hsub, hpacket, rfl⟩
  · obtain ⟨err, rfl⟩ := Option.ne_none_iff_exists'.mp herr
    exact hc.trans (evolves_fail ..)
  · have hmay : MayQueue c.mq
        ⟨packet, .unsent, u.timeSent, ControlType.pubrec.toNat, p.packetId⟩ :=
      mayQueue_of_type (t := .pubrec) rfl rfl rfl (fun _ => find_none_iff.mp hfind)
        (fun h => by cases h) fun h => by cases h
    exact hc₂.tail (.deliveredOnce (v := c₂.view) (hmay.sublist hsub)
      (hown.pubxxx .pubrec p.packetId (.inr (.inl rfl)) _ _ rfl hpacket) rfl rfl
      (fits_pubxxx _ _ hpacket))

/-- While a release is in the queue, nothing that it releases is open. -/
lemma complete_of_pubrel (hc : SoundQueue c.mq) : ∀ ⦃w⦄, w ∈ c.mq → ∀ ⦃m⦄, m ∈ c.mq →
    w.Is .pubrel → m.Is .publish → w.packetId = m.packetId → m.isComplete = true := by
  refine List.Pairwise.forall_of_forall_of_flip (R := fun w m : QueuedMessage => w.Is .pubrel →
    m.Is .publish → w.packetId = m.packetId → m.isComplete = true) (fun w _ hrel hpub => ?_)
    (hc.two.imp fun h hrel hpub hid => absurd hid (h.unreleased hrel hpub))
    (hc.two.imp fun h hrel hpub hid => h.acknowledged hpub hrel hid.symm)
  cases hrel.unique hpub

/-- **A PUBREC packet**: its message is released, and the release is queued. -/
lemma evolves_pubrec {r : Response} {packetId : ℕ} (hown : OwnPackets P) (hc : SoundQueue c.mq)
    (hacks : r.acks = some (.publish, some packetId))
    (hfind : c.find .pubrel (some packetId) = none)
    (h : acknowledge { c with log := c.log ++ [.received r] } .publish (some packetId)
      (fun c => do
        let result ← mqttPubxxx .pubrel c u packetId
        return answered result id) = .ok (e, c')) : c.Evolves P c' := by
  rcases acknowledge_cases (P := P) hacks h with h | ⟨c₁, l₁, m, l₂, hc₁, hmq, hm, hbefore, hmq₁, h⟩
  · exact h
  refine hc₁.trans
    (evolves_answered hown (.inr (.inr (.inl rfl))) (fun m' hstate htype hid => ?_) h)
  have hnone := find_none_iff.mp hfind
  obtain ⟨hpub, hmid⟩ := matches_some.mp hm
  rw [hmq] at hc hnone
  rw [hmq₁]
  -- the messages are those there were, and the one that is released is the only one of its id
  refine mayQueue_of_type hstate htype rfl (fun _ w hw hrel => ?_) (fun h => by cases h)
    fun _ w hw hwpub hwid => ?_
  · rw [hid]
    rcases List.mem_append.mp hw with hw | hw
    · exact hnone w (List.mem_append_left _ hw) hrel
    · rcases List.mem_cons.mp hw with rfl | hw
      · cases QueuedMessage.Is.unique (m := m) hrel hpub
      · exact hnone w (List.mem_append_right _ (List.mem_cons_of_mem _ hw)) hrel
  · rw [hid] at hwid
    obtain ⟨-, hbehind, -⟩ := List.pairwise_append.mp hc.two
    rcases List.mem_append.mp hw with hw | hw
    · have hnot := hbefore w hw
      rw [matches_some.mpr ⟨hwpub, hwid⟩] at hnot
      cases hnot
    · rcases List.mem_cons.mp hw with rfl | hw
      · rfl
      · have hne := ((List.pairwise_cons.mp hbehind).1 w hw).numbered .publish rfl hpub hwpub
        exact absurd (hmid.trans hwid.symm) hne

/-- **A packet of the broker is handled.** -/
lemma evolves_mqttHandle {r : Response} (hown : OwnPackets P) (hc : SoundQueue c.mq)
    (h : mqttHandle { c with log := c.log ++ [.received r] } u r = .ok (e, c')) :
    c.Evolves P c' := by
  rw [mqttHandle] at h
  split at h
  case h_1 htype hdecoded =>
    refine evolves_acknowledge (by rw [Response.acks, htype, hdecoded]) (fun c₁ h => ?_) h
    split_ifs at h
    · exact evolves_done c₁ h
    · cases h
      exact evolves_fail ..
    · cases h
      exact evolves_fail ..
  case h_2 p htype hdecoded =>
    have hread : c.Evolves P { c with log := c.log ++ [.received r] } :=
      evolves_unacked (by rw [Response.acks, htype, hdecoded])
    split_ifs at h with h1 h2 hfind
    · obtain ⟨result, hresult, h⟩ := ok_of_bind h
      obtain rfl := congrArg Prod.snd (Except.ok.inj h)
      exact hread.trans (evolves_delivered hown (by omega) hresult)
    · exact hread.trans (evolves_done _ h)
    · obtain ⟨result, hresult, h⟩ := ok_of_bind h
      obtain rfl := congrArg Prod.snd (Except.ok.inj h)
      exact hread.trans
        (evolves_deliveredOnce hown (Option.not_isSome_iff_eq_none.mp hfind) hresult)
    · cases h
      exact hread.tail (.delivered h2)
  case h_4 packetId htype hdecoded =>
    have hacks : r.acks = some (.publish, some packetId) := by rw [Response.acks, htype, hdecoded]
    split_ifs at h with hfind
    · obtain ⟨i, hi⟩ := Option.isSome_iff_exists.mp hfind
      obtain ⟨l₁, w, l₂, hmq, -, hw, -⟩ := exists_split_of_findIdx? hi
      obtain ⟨hrel, hwid⟩ := matches_some.mp hw
      refine (evolves_ignored fun m hm hack => ?_).trans (evolves_done _ h)
      obtain ⟨hpub, hmid⟩ := matches_some.mp ((acks_iff hacks).mp hack)
      have hmem : w ∈ c.mq := by
        rw [show c.mq = _ from hmq]
        simp
      exact complete_of_pubrel hc hmem hm hrel hpub (hwid.trans hmid.symm)
    · exact evolves_pubrec hown hc hacks (Option.not_isSome_iff_eq_none.mp hfind) h
  case h_5 packetId htype hdecoded =>
    exact evolves_acknowledge (by rw [Response.acks, htype, hdecoded])
      (fun c₁ => evolves_answered hown (.inr (.inr (.inr rfl)))
        fun m hstate htype _ => mayQueue_of_plain hstate htype rfl rfl) h
  case h_7 packetId returnCodes htype hdecoded =>
    refine evolves_acknowledge (by rw [Response.acks, htype, hdecoded]) (fun c₁ h => ?_) h
    split_ifs at h
    · cases h
      exact evolves_fail ..
    · exact evolves_done c₁ h
  case h_9 _ htype =>
    exact evolves_acknowledge (by rw [Response.acks, htype]) evolves_done h
  case h_10 =>
    cases h
    refine evolves_unacked (c := c) ?_
    rw [Response.acks]
    split <;> first | rfl | (exfalso; solve_by_elim)
  -- PUBACK, PUBCOMP and UNSUBACK
  all_goals
    rename_i htype hdecoded
    exact evolves_acknowledge (by rw [Response.acks, htype, hdecoded]) evolves_done h

lemma evolves_mqttRecvTurn {read : Except ClientError Str} {again : Bool} (hown : OwnPackets P)
    (hc : SoundQueue c.mq) (h : mqttRecvTurn u read c = .ok (again, e, c')) : c.Evolves P c' := by
  unfold mqttRecvTurn at h
  split at h
  · cases h
    exact evolves_fail ..
  · rename_i bytes
    dsimp only at h
    let c₀ : Client := { c with
      recvBuffer := c.recvBuffer ++ bytes.take (c.recvSize - c.recvBuffer.length) }
    split at h
    · cases h
      exact .refl
    · split at h
      · cases h
        exact .refl
      · cases h
        exact .refl
    · obtain ⟨result, hresult, h⟩ := ok_of_bind h
      obtain ⟨err, c₁⟩ := result
      have hhandled := evolves_mqttHandle (c := c₀) hown hc hresult
      dsimp only at h
      split at h
      · cases h
      · cases h
        exact hhandled

lemma evolves_mqttRecv {turns : List (Unset × Except ClientError Str)} (hown : OwnPackets P)
    (hc : SoundQueue c.mq) (h : mqttRecv turns c = .ok (e, c')) : c.Evolves P c' := by
  induction turns generalizing c with
  | nil => cases h
  | cons turn turns ih =>
      obtain ⟨u, read⟩ := turn
      rw [mqttRecv] at h
      obtain ⟨result, hresult, h⟩ := ok_of_bind h
      obtain ⟨again, err, c₁⟩ := result
      have hturn := evolves_mqttRecvTurn hown hc hresult
      dsimp only at h
      split at h
      · exact hturn.trans (ih (ClientView.Evolves.sound hturn hc) h)
      · cases h
        exact hturn

end Client

/-! ### The calls -/

/-- A call of the program, with what its surroundings answer. -/
inductive ClientOp where
  | connect (u : Unset) (clientId : Str) (userName password : Option Str)
      (connectFlags keepAlive : ℕ)
  | publish (u : Unset) (topicName applicationMessage : Str) (publishFlags : ℕ)
  | subscribe (u : Unset) (topicName : Str) (maxQosLevel : ℕ)
  | unsubscribe (u : Unset) (topicName : Str)
  | ping (u : Unset)
  | disconnect (u : Unset)
  | reconnect (u : Unset)
  | sync (turns : List (Unset × Except ClientError Str)) (env : SocketEnv) (u : Unset)

/-- What the call does. -/
def ClientOp.apply : ClientOp → Client → Except Fault ClientResult
  | connect u clientId userName password connectFlags keepAlive, c =>
      mqttConnect c u clientId userName password connectFlags keepAlive
  | publish u topicName applicationMessage publishFlags, c =>
      mqttPublish c u topicName applicationMessage publishFlags
  | subscribe u topicName maxQosLevel, c => mqttSubscribe c u topicName maxQosLevel
  | unsubscribe u topicName, c => mqttUnsubscribe c u topicName
  | ping u, c => mqttPing c u
  | disconnect u, c => mqttDisconnect c u
  | reconnect u, c => mqttReconnect c u
  | sync turns env u, c => mqttSync turns env u c

/-- Whatever the packer of the call writes has the property. -/
def ClientOp.Packs (P : QueuedMessage → Prop) : ClientOp → Prop
  | connect _ clientId userName password connectFlags keepAlive =>
      Client.Packs P .connect fun room => Request.ofPacking <$>
        packConnectionRequestAt room room clientId userName password connectFlags keepAlive
  | publish _ topicName applicationMessage publishFlags => ∀ packetId,
      Client.Packs P .publish fun room =>
        mqttPackPublishAt room room topicName packetId applicationMessage publishFlags
  | subscribe _ topicName maxQosLevel => ∀ packetId, Client.Packs P .subscribe fun room =>
      mqttPackSubscribeAt room room packetId [(topicName, maxQosLevel)]
  | unsubscribe _ topicName => ∀ packetId, Client.Packs P .unsubscribe fun room =>
      mqttPackUnsubscribeAt room room packetId [topicName]
  | _ => True

/-- The calls of a program, one after the other. -/
def Client.run (c : Client) (ops : List ClientOp) : Except Fault Client :=
  ops.foldlM (fun c op => Prod.snd <$> op.apply c) c

namespace Client

variable {P : QueuedMessage → Prop} {c c' : Client} {e : Option ClientError} {u : Unset}

lemma evolves_mqttConnect {clientId : Str} {userName password : Option Str}
    {connectFlags keepAlive : ℕ}
    (hpack : Packs P .connect fun room => Request.ofPacking <$>
      packConnectionRequestAt room room clientId userName password connectFlags keepAlive)
    (h : mqttConnect c u clientId userName password connectFlags keepAlive = .ok (e, c')) :
    c.Evolves P c' := by
  rw [mqttConnect] at h
  have hstart := evolves_tryPack_plain rfl rfl hpack fits_connect h
  split_ifs at hstart
  · exact hstart
  · exact hstart

lemma evolves_mqttDisconnect (hown : OwnPackets P) (h : mqttDisconnect c u = .ok (e, c')) :
    c.Evolves P c' :=
  evolves_tryPack_plain rfl rfl hown.disconnect fits_packFixedHeaderAt h

lemma evolves_mqttReconnect (hown : OwnPackets P) (h : mqttReconnect c u = .ok (e, c')) :
    c.Evolves P c' := by
  rw [mqttReconnect] at h
  obtain ⟨result, hresult, h⟩ := ok_of_bind h
  obtain ⟨err, c₁⟩ := result
  have hdisconnect := evolves_mqttDisconnect hown hresult
  dsimp only at h
  split_ifs at h
  · cases h
    exact hdisconnect
  · cases h
    exact hdisconnect

lemma evolves_mqttSync {turns : List (Unset × Except ClientError Str)} {env : SocketEnv}
    (hown : OwnPackets P) (hc : SoundQueue c.mq) (h : mqttSync turns env u c = .ok (e, c')) :
    c.Evolves P c' := by
  rw [mqttSync] at h
  obtain ⟨result, hresult, h⟩ := ok_of_bind h
  obtain ⟨err, c₁⟩ := result
  have hrecv : c.Evolves P c₁ := by
    split_ifs at hresult
    · exact evolves_mqttRecv (c := { c with error := none }) hown hc hresult
    · exact evolves_mqttRecv hown hc hresult
  dsimp only at h
  split_ifs at h
  · exact hrecv.trans (evolves_mqttSend hown (ClientView.Evolves.sound hrecv hc) h)
  · cases h
    exact hrecv

/-- **Every call is a sequence of small steps.** -/
lemma evolves_apply {op : ClientOp} (hown : OwnPackets P) (hop : op.Packs P)
    (hc : SoundQueue c.mq) (h : op.apply c = .ok (e, c')) : c.Evolves P c' := by
  cases op with
  | connect => exact evolves_mqttConnect hop h
  | publish => exact evolves_withPacketId rfl (by decide) hop (fun _ => fits_publish) h
  | subscribe => exact evolves_withPacketId rfl (by decide) hop (fun _ => fits_subscribe) h
  | unsubscribe => exact evolves_withPacketId rfl (by decide) hop (fun _ => fits_unsubscribe) h
  | ping => exact evolves_mqttPing hown h
  | disconnect => exact evolves_mqttDisconnect hown h
  | reconnect => exact evolves_mqttReconnect hown h
  | sync => exact evolves_mqttSync hown hc h

/-- **Any run is a sequence of small steps.** -/
lemma evolves_run {ops : List ClientOp} (hown : OwnPackets P) (hops : ∀ op ∈ ops, op.Packs P)
    (hc : SoundQueue c.mq) (h : c.run ops = .ok c') : c.Evolves P c' := by
  induction ops generalizing c with
  | nil =>
      cases h
      exact .refl
  | cons op ops ih =>
      rw [run, List.foldlM_cons] at h
      obtain ⟨c₁, hop, h⟩ := ok_of_bind h
      cases happly : op.apply c with
      | error f =>
          rw [happly] at hop
          cases hop
      | ok result =>
          rw [happly] at hop
          cases hop
          have hcall := evolves_apply hown (hops op List.mem_cons_self) hc happly
          exact hcall.trans (ih (fun op hop => hops op (List.mem_cons_of_mem _ hop))
            (ClientView.Evolves.sound hcall hc) h)

/-- The small steps of a run, whatever is packed. -/
lemma evolves_of_run {ops : List ClientOp} (hc : SoundQueue c.mq) (h : c.run ops = .ok c') :
    c.Evolves (fun _ => True) c' := by
  refine evolves_run ⟨fun _ _ _ _ _ _ _ => trivial, fun _ _ _ _ => trivial,
    fun _ _ _ _ => trivial⟩ (fun op _ => ?_) hc h
  cases op with
  | connect => exact fun _ _ _ _ => trivial
  | publish | subscribe | unsubscribe => exact fun _ _ _ _ _ => trivial
  | ping | disconnect | reconnect | sync => trivial

end Client

end SipEcho
