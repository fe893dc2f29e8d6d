import SipEcho.Proto.Transport

/-!
Readiness of the bus: `subscribe` asks for one topic a method, and `command` counts the SUBACKs
that grant one.

* `BusSession`: the protocol object, with which SUBSCRIBE packets are answered, and which granted;
* `Arrives`: a packet of the broker; `late` says whether a SUBSCRIBE packet sent before the last
  accepting CONNACK may still be answered;
* `Counted`: the invariant, `subscribes` is the number of packets granted;
* `bus_ready_iff`: without late answers, the bus is ready exactly when every method has been
  granted, a refusal is an error, and an accepting CONNACK resets readiness;
* `late_suback_ready`: with them, the bus is ready too early.
-/

namespace SipEcho

/-- `cmd_ready`. -/
def cmdReady : Option Transport → ℕ
  | some t => if t.ready then 1 else 0
  | none => 0

/-- The protocol object, and the answers of the broker.  A SUBSCRIBE packet is its place in
`relayed`; the ones behind `since` were sent by the last accepting CONNACK. -/
structure BusSession where
  transport : Transport
  since : ℕ := 0
  answered : Finset ℕ := ∅
  granted : Finset ℕ := ∅

/-- The subscription of every method has been granted since the last accepting CONNACK. -/
def BusSession.AllGranted (s : BusSession) : Prop :=
  ∀ i < s.transport.methods.length,
    ∃ k ∈ s.granted, (s.transport.relayed[k]?).map (·.packetId) = some (i + 1)

instance (s : BusSession) : Decidable s.AllGranted :=
  inferInstanceAs (Decidable (∀ i < s.transport.methods.length,
    ∃ k ∈ s.granted, (s.transport.relayed[k]?).map (·.packetId) = some (i + 1)))

/-- The buffer starts with a CONNACK that accepts the connection. -/
def AcceptingConnack (buf : Str) : Prop :=
  ∃ r len flag, mqttUnpackResponse buf = .packet r len ∧ r.decoded = .connack flag 0

/-- The buffer starts with a SUBACK of one return code. -/
def Suback (buf : Str) (packetId code : ℕ) : Prop :=
  ∃ r len, mqttUnpackResponse buf = .packet r len ∧ r.decoded = .suback packetId [code]

/-- The buffer starts with neither: a PUBLISH, a PINGRESP, anything else. -/
def OtherPacket (buf : Str) : Prop :=
  ∀ r len, mqttUnpackResponse buf = .packet r len →
    (∀ flag, r.decoded ≠ .connack flag 0) ∧ ∀ packetId codes, r.decoded ≠ .suback packetId codes

variable (b : Bus)

/-- An accepting CONNACK: nothing has been granted since. -/
def BusSession.connack (s : BusSession) (buf : Str) : BusSession :=
  { s with
    transport := (command b s.transport buf).1
    since := s.transport.relayed.length
    granted := ∅ }

/-- A SUBACK for the packet at place `k`. -/
def BusSession.suback (s : BusSession) (buf : Str) (k code : ℕ) : BusSession :=
  { s with
    transport := (command b s.transport buf).1
    answered := insert k s.answered
    granted := if code ≤ 2 then insert k s.granted else s.granted }

/-- A packet arrives.  No SUBSCRIBE packet is answered twice; its number is sixteen bits on the
wire. -/
inductive Arrives (late : Prop) : BusSession → BusSession → Prop
  | connack {s : BusSession} {buf : Str} : AcceptingConnack buf →
      Arrives late s (s.connack b buf)
  | suback {s : BusSession} {buf : Str} {k code : ℕ} {p : SubscribeRequest} :
      s.transport.relayed[k]? = some p → k ∉ s.answered → late ∨ s.since ≤ k →
      Suback buf (p.packetId % 65536) code → Arrives late s (s.suback b buf k code)
  | other {s : BusSession} {buf : Str} : OtherPacket buf →
      Arrives late s { s with transport := (command b s.transport buf).1 }

variable {b}

/-! ### What a packet does to the protocol object -/

/-- The packets relayed and the readiness are as before. -/
structure Transport.SameReadiness (t t' : Transport) : Prop where
  methods : t'.methods = t.methods
  relayed : t'.relayed = t.relayed
  subscribes : t'.subscribes = t.subscribes
  ready : t'.ready = t.ready

lemma Transport.SameReadiness.refl (t : Transport) : t.SameReadiness t := ⟨rfl, rfl, rfl, rfl⟩

lemma sameReadiness_error (t : Transport) (e : MqttError) : t.SameReadiness (t.error e).1 :=
  ⟨rfl, rfl, rfl, rfl⟩

lemma sameReadiness_input (t : Transport) (p : Publish) : t.SameReadiness (input b t p) := by
  rw [input]
  split
  · exact .refl t
  · split
    · exact ⟨rfl, rfl, rfl, rfl⟩
    · exact sameReadiness_error t _

/-- The SUBSCRIBE packets `subscribe` sends: from the last method down, as far as `relay` takes
them. -/
lemma subscribeFrom_relayed (i : ℕ) (t : Transport) :
    (subscribeFrom b i t).1.methods = t.methods ∧
      (subscribeFrom b i t).1.subscribes = t.subscribes ∧
      (subscribeFrom b i t).1.ready = t.ready ∧
      ∃ ps, (subscribeFrom b i t).1.relayed = t.relayed ++ ps ∧
        ps.map (·.packetId) <+: (List.range' 1 i).reverse := by
  induction i generalizing t with
  | zero => exact ⟨rfl, rfl, rfl, [], by simp [subscribeFrom], by simp⟩
  | succ i ih =>
      rw [subscribeFrom]
      dsimp only
      split
      · exact ⟨rfl, rfl, rfl, [], by simp [Transport.error], by simp⟩
      · split
        · obtain ⟨h1, h2, h3, ps, h4, h5⟩ :=
            ih { t with relayed := t.relayed ++ [⟨i + 1, t.topic (t.methods.getD i [])⟩] }
          refine ⟨h1, h2, h3, ⟨i + 1, t.topic (t.methods.getD i [])⟩ :: ps, ?_, ?_⟩
          · rw [h4, List.append_assoc, List.singleton_append]
          · rw [List.range'_concat, List.reverse_append, List.map_cons]
            simpa [Nat.add_comm] using h5
        · exact ⟨rfl, rfl, rfl, [], by simp, by simp⟩

/-! ### Short packets -/

lemma unpackRemaining_le {i acc r n : ℕ} {l : Str} (hi : i ≤ 4)
    (h : unpackRemaining i acc l = .packet r n) : n ≤ 4 := by
  induction l generalizing i acc with
  | nil =>
      rw [unpackRemaining] at h
      split at h <;> exact absurd h (by simp)
  | cons c l ih =>
      rw [unpackRemaining] at h
      split at h
      · exact absurd h (by simp)
      · dsimp only at h
        split at h
        · exact ih (by omega) h
        · cases h
          omega

/-- A fixed header is five bytes at most. -/
lemma mqttUnpackFixedHeader_le {l : Str} {h : FixedHeader} {n : ℕ}
    (hl : mqttUnpackFixedHeader l = .packet h n) : n ≤ 5 := by
  obtain ⟨b, rest, k, rfl, hk, rfl, -⟩ := mqttUnpackFixedHeader_parts hl
  have := unpackRemaining_le (by omega) hk
  omega

lemma mqttUnpackResponse_parts {l : Str} {r : Response} {n : ℕ}
    (h : mqttUnpackResponse l = .packet r n) :
    ∃ k j, mqttUnpackFixedHeader l = .packet r.fixedHeader k ∧
      mqttUnpackBody r.fixedHeader (l.drop k) = .packet r.decoded j ∧ n = k + j := by
  rw [mqttUnpackResponse] at h
  split at h
  · exact absurd h (by simp)
  · exact absurd h (by simp)
  · rename_i hdr k hk
    split at h
    · exact absurd h (by simp)
    · exact absurd h (by simp)
    · rename_i d j hj
      cases h
      exact ⟨k, j, hk, hj, rfl⟩

/-- How much a body consumes, for the two packets readiness depends on. -/
lemma mqttUnpackBody_consumes {h : FixedHeader} {l : Str} {d : Decoded} {j : ℕ}
    (hd : mqttUnpackBody h l = .packet d j) :
    (∀ flag code, d = .connack flag code → j = 2) ∧
      ∀ id codes, d = .suback id codes →
        j = h.remainingLength ∧ codes.length = min (h.remainingLength - 2) (l.length - 2) := by
  rw [mqttUnpackBody] at hd
  split at hd
  · rw [mqttUnpackConnackResponse] at hd
    split_ifs at hd
    cases hd
    exact ⟨fun _ _ _ => rfl, by simp⟩
  · simp only [mqttUnpackPublishResponse] at hd
    split at hd
    · exact absurd hd (by simp)
    · cases hd
      exact ⟨by simp, by simp⟩
  all_goals try
    rw [mqttUnpackPubxxxResponse] at hd
    split_ifs at hd
    cases hd
    exact ⟨by simp, by simp⟩
  · rw [mqttUnpackSubackResponse] at hd
    split_ifs at hd
    cases hd
    refine ⟨by simp, fun _ _ h => ?_⟩
    cases h
    simp
  · rw [mqttUnpackUnsubackResponse] at hd
    split_ifs at hd
    cases hd
    exact ⟨by simp, by simp⟩
  · cases hd
    exact ⟨by simp, by simp⟩
  · exact absurd hd (by simp)

/-- A CONNACK is seven bytes at most. -/
lemma connack_length {l : Str} {r : Response} {n flag code : ℕ}
    (h : mqttUnpackResponse l = .packet r n) (hr : r.decoded = .connack flag code) : n ≤ 7 := by
  obtain ⟨k, j, hk, hj, rfl⟩ := mqttUnpackResponse_parts h
  have hk5 := mqttUnpackFixedHeader_le hk
  have hj2 := (mqttUnpackBody_consumes hj).1 flag code hr
  omega

/-- A SUBACK is seven bytes at most, and one for each return code. -/
lemma suback_length {l : Str} {r : Response} {n id : ℕ} {codes : List ℕ}
    (h : mqttUnpackResponse l = .packet r n) (hr : r.decoded = .suback id codes) :
    n ≤ codes.length + 7 := by
  obtain ⟨k, j, hk, hj, rfl⟩ := mqttUnpackResponse_parts h
  have hk5 := mqttUnpackFixedHeader_le hk
  obtain ⟨-, hl⟩ := mqttUnpackFixedHeader_packet hk
  obtain ⟨hj1, hcodes⟩ := (mqttUnpackBody_consumes hj).2 id codes hr
  rw [List.length_drop] at hcodes
  omega

/-! ### Packets, as `command` takes them -/

lemma command_fst {t : Transport} {buf : Str} {r : Response} {len : ℕ}
    (h : mqttUnpackResponse buf = .packet r len) (hlen : len ≤ 32767) :
    (command b t buf).1 = (commandPacket b t r).1 := by
  simp only [SipEcho.command, h, if_neg (show ¬ 32767 < len by omega)]
  split <;> rfl

/-- An accepting CONNACK makes `command` subscribe. -/
lemma AcceptingConnack.command {t : Transport} {buf : Str} (h : AcceptingConnack buf) :
    ∃ e, (command b t buf).1 =
      { (subscribe b { t with subscribes := 0, ready := false }).1 with err := e } := by
  obtain ⟨r, len, flag, h, hr⟩ := h
  have hlen := connack_length h hr
  rw [command_fst h (by omega)]
  simp only [commandPacket, hr]
  split
  · exact ⟨_, rfl⟩
  · exact ⟨_, rfl⟩

/-- A SUBACK of one return code is counted, or refuses. -/
lemma Suback.command {t : Transport} {buf : Str} {id code : ℕ} (h : Suback buf id code) :
    (command b t buf).1 =
      if code ≤ 2 then
        { t with
          subscribes := t.subscribes + 1
          ready := if t.subscribes + 1 = t.methods.length then true else t.ready }
      else (t.error .subscribeFailed).1 := by
  obtain ⟨r, len, h, hr⟩ := h
  have hlen := suback_length h hr
  rw [List.length_singleton] at hlen
  rw [command_fst h (by omega)]
  simp only [commandPacket, hr, List.reverse_singleton, SipEcho.suback]
  split <;> rfl

/-- Any other packet leaves the readiness alone. -/
lemma OtherPacket.command {t : Transport} {buf : Str} (h : OtherPacket buf) :
    t.SameReadiness (command b t buf).1 := by
  rw [SipEcho.command]
  split
  · exact sameReadiness_error t _
  · exact sameReadiness_error t _
  · rename_i r len hr
    split
    · exact sameReadiness_error t _
    · have hpacket : t.SameReadiness (commandPacket b t r).1 := by
        rw [commandPacket]
        split
        · rename_i hd
          exact absurd hd ((h r len hr).1 _)
        · exact sameReadiness_error t _
        · rename_i hd
          exact absurd hd ((h r len hr).2 _ _)
        · exact sameReadiness_input t _
        all_goals exact .refl t
      dsimp only
      split <;> exact hpacket

/-- **A refused subscription is an error.** -/
lemma suback_refused {cs : List ℕ} {c : ℕ} (t : Transport) (hc : c ∈ cs) (h : 2 < c) :
    (suback cs t).2 < 0 := by
  induction cs generalizing t with
  | nil => exact absurd hc (by simp)
  | cons d cs ih =>
      rw [suback]
      by_cases hd : d ≤ 2
      · rw [if_pos hd]
        refine ih _ ((List.mem_cons.mp hc).resolve_left ?_)
        omega
      · rw [if_neg hd]
        simp [Transport.error]

lemma command_refused {t : Transport} {buf : Str} {r : Response} {len id c : ℕ} {codes : List ℕ}
    (h : mqttUnpackResponse buf = .packet r len) (hr : r.decoded = .suback id codes)
    (hc : c ∈ codes) (h2 : 2 < c) : (command b t buf).2 < 0 := by
  rw [command, h]
  dsimp only
  split
  · simp [Transport.error]
  · have hneg : (commandPacket b t r).2 < 0 := by
      rw [commandPacket, hr]
      exact suback_refused t (List.mem_reverse.mpr hc) h2
    rw [if_pos hneg]
    exact hneg

/-! ### The invariant -/

/-- **The count is the number of packets granted**, and these are packets of the last CONNACK,
one for each method at most. -/
structure Counted (s : BusSession) : Prop where
  granted_since : ∀ k ∈ s.granted, s.since ≤ k ∧ k < s.transport.relayed.length
  granted_answered : s.granted ⊆ s.answered
  subscribes : s.transport.subscribes = s.granted.card
  ready : s.transport.ready = true ↔
    s.transport.methods ≠ [] ∧ s.granted.card = s.transport.methods.length
  sent : ∃ old ps, s.transport.relayed = old ++ ps ∧ old.length = s.since ∧
    ps.map (·.packetId) <+: (List.range' 1 s.transport.methods.length).reverse

namespace Counted

variable {s : BusSession} {k : ℕ}

/-- The number of the packet at place `k`. -/
def number (s : BusSession) (k : ℕ) : ℕ := ((s.transport.relayed[k]?).map (·.packetId)).getD 0

lemma number_of {p : SubscribeRequest} (h : s.transport.relayed[k]? = some p) :
    number s k = p.packetId := by
  rw [number, h]
  rfl

/-- The numbers of the last CONNACK's packets are those of methods, from the last one down. -/
lemma number_eq (hs : Counted s) (h1 : s.since ≤ k) (h2 : k < s.transport.relayed.length) :
    number s k + (k - s.since) = s.transport.methods.length ∧ 1 ≤ number s k := by
  obtain ⟨old, ps, hrel, hold, hps⟩ := hs.sent
  have hk : k - old.length < ps.length := by
    rw [hrel, List.length_append] at h2
    omega
  have hget : s.transport.relayed[k]? = some ps[k - old.length] := by
    rw [hrel, List.getElem?_append_right (by omega), List.getElem?_eq_getElem hk]
  have hlen : ps.length ≤ s.transport.methods.length := by
    simpa using hps.length_le
  have hnum : (List.range' 1 s.transport.methods.length).reverse[k - old.length]? =
      some ps[k - old.length].packetId := by
    obtain ⟨rest, hrest⟩ := hps
    rw [← hrest, List.getElem?_append_left (by simpa using hk), List.getElem?_map,
      List.getElem?_eq_getElem hk]
    rfl
  rw [List.getElem?_reverse (by rw [List.length_range']; omega), List.length_range',
    List.getElem?_range' (by omega), Option.some.injEq] at hnum
  rw [number_of hget]
  omega

/-- There are as many packets as methods at most. -/
lemma card_le (hs : Counted s) {places : Finset ℕ}
    (h : ∀ k ∈ places, s.since ≤ k ∧ k < s.transport.relayed.length) :
    places.card ≤ s.transport.methods.length := by
  have hsub : places ⊆ Finset.Ico s.since (s.since + s.transport.methods.length) := by
    intro k hk
    obtain ⟨h1, h2⟩ := h k hk
    have := hs.number_eq h1 h2
    exact Finset.mem_Ico.mpr (by omega)
  have hcard := Finset.card_le_card hsub
  rwa [Nat.card_Ico, Nat.add_sub_cancel_left] at hcard

lemma number_inj (hs : Counted s) : Set.InjOn (number s) s.granted := by
  intro j hj k hk h
  obtain ⟨hj1, hj2⟩ := hs.granted_since j hj
  obtain ⟨hk1, hk2⟩ := hs.granted_since k hk
  have h1 := (hs.number_eq hj1 hj2).1
  have h2 := (hs.number_eq hk1 hk2).1
  omega

/-- Every method is granted exactly when as many packets are granted as there are methods. -/
lemma allGranted_iff (hs : Counted s) :
    s.AllGranted ↔ s.granted.card = s.transport.methods.length := by
  have hsub : s.granted.image (number s) ⊆ Finset.Icc 1 s.transport.methods.length := by
    intro n hn
    obtain ⟨k, hk, rfl⟩ := Finset.mem_image.mp hn
    obtain ⟨h1, h2⟩ := hs.granted_since k hk
    have := hs.number_eq h1 h2
    exact Finset.mem_Icc.mpr (by omega)
  have hcard : (s.granted.image (number s)).card = s.granted.card :=
    Finset.card_image_of_injOn hs.number_inj
  have hall : s.AllGranted ↔ Finset.Icc 1 s.transport.methods.length ⊆
      s.granted.image (number s) := by
    constructor
    · intro h n hn
      rw [Finset.mem_Icc] at hn
      obtain ⟨k, hk, hid⟩ := h (n - 1) (by omega)
      refine Finset.mem_image.mpr ⟨k, hk, ?_⟩
      rw [number, hid, Option.getD_some]
      omega
    · intro h i hi
      obtain ⟨k, hk, hnum⟩ := Finset.mem_image.mp (h (Finset.mem_Icc.mpr (by omega :
        1 ≤ i + 1 ∧ i + 1 ≤ s.transport.methods.length)))
      have hp := List.getElem?_eq_getElem (hs.granted_since k hk).2
      rw [number_of hp] at hnum
      exact ⟨k, hk, by rw [hp, Option.map_some, hnum]⟩
  rw [hall]
  constructor
  · intro h
    rw [← hcard, hsub.antisymm h, Nat.card_Icc, Nat.add_sub_cancel]
  · intro h
    refine (Finset.eq_of_subset_of_card_le hsub ?_).ge
    rw [hcard, h, Nat.card_Icc, Nat.add_sub_cancel]

end Counted

/-- An accepting CONNACK starts the count. -/
lemma counted_connack (s : BusSession) {buf : Str} (h : AcceptingConnack buf) :
    Counted (s.connack b buf) := by
  obtain ⟨e, he⟩ := h.command (b := b) (t := s.transport)
  obtain ⟨h1, h2, h3, ps, h4, h5⟩ := subscribeFrom_relayed (b := b) s.transport.methods.length
    { s.transport with subscribes := 0, ready := false }
  refine ⟨fun k hk => absurd hk (by simp [BusSession.connack]), ?_, ?_, ?_, ?_⟩
  · exact Finset.empty_subset _
  · simp only [BusSession.connack, he, Finset.card_empty]
    exact h2
  · simp only [BusSession.connack, he, Finset.card_empty]
    rw [show (subscribe b { s.transport with subscribes := 0, ready := false }).1.ready = false
      from h3]
    rw [show (subscribe b { s.transport with subscribes := 0, ready := false }).1.methods =
      s.transport.methods from h1]
    simp [eq_comm]
  · refine ⟨s.transport.relayed, ps, ?_, rfl, ?_⟩
    · simp only [BusSession.connack, he]
      exact h4
    · simp only [BusSession.connack, he]
      rw [show (subscribe b { s.transport with subscribes := 0, ready := false }).1.methods =
        s.transport.methods from h1]
      exact h5

/-- **Every packet keeps the count**, if no late one does. -/
lemma Counted.arrives {s s' : BusSession} (hs : Counted s) (h : Arrives b False s s') :
    Counted s' := by
  cases h with
  | connack h => exact counted_connack s h
  | suback hp hk hlate h =>
      rename_i k code p
      have hkg : k ∉ s.granted := fun hg => hk (hs.granted_answered hg)
      have hklen : k < s.transport.relayed.length := (List.getElem?_eq_some_iff.mp hp).1
      by_cases hc : code ≤ 2
      · have hcard : (insert k s.granted).card = s.granted.card + 1 :=
          Finset.card_insert_of_notMem hkg
        have hsince : ∀ j ∈ insert k s.granted,
            s.since ≤ j ∧ j < s.transport.relayed.length := by
          intro j hj
          rcases Finset.mem_insert.mp hj with rfl | hj
          · exact ⟨hlate.resolve_left id, hklen⟩
          · exact hs.granted_since j hj
        have hle := hs.card_le hsince
        refine ⟨?_, ?_, ?_, ?_, ?_⟩ <;>
          simp only [BusSession.suback, h.command, if_pos hc]
        · exact hsince
        · exact Finset.insert_subset_insert k hs.granted_answered
        · rw [hcard, hs.subscribes]
        · rw [hcard] at hle ⊢
          rw [hs.subscribes, ← List.length_pos_iff_ne_nil]
          by_cases hall : s.granted.card + 1 = s.transport.methods.length
          · simp only [if_pos hall, true_iff]
            exact ⟨by omega, hall⟩
          · -- it was not ready before: there was a packet more to be granted
            rw [if_neg hall, hs.ready]
            constructor <;> intro h <;> omega
        · exact hs.sent
      · refine ⟨?_, ?_, ?_, ?_, ?_⟩ <;>
          simp only [BusSession.suback, h.command, if_neg hc]
        · exact hs.granted_since
        · exact hs.granted_answered.trans (Finset.subset_insert k _)
        · exact hs.subscribes
        · exact hs.ready
        · exact hs.sent
  | other h =>
      have hsame := h.command (b := b) (t := s.transport)
      refine ⟨?_, hs.granted_answered, ?_, ?_, ?_⟩
      · rw [hsame.relayed]
        exact hs.granted_since
      · rw [hsame.subscribes]
        exact hs.subscribes
      · rw [hsame.ready, hsame.methods]
        exact hs.ready
      · rw [hsame.relayed, hsame.methods]
        exact hs.sent

/-- The count is right in every state behind an accepting CONNACK. -/
lemma counted_run {s₀ s : BusSession} {buf : Str} (hbuf : AcceptingConnack buf)
    (h : Relation.ReflTransGen (Arrives b False) (s₀.connack b buf) s) : Counted s := by
  induction h with
  | refl => exact counted_connack s₀ hbuf
  | tail _ hstep ih => exact ih.arrives hstep

lemma cmdReady_eq_one (t : Transport) : cmdReady (some t) = 1 ↔ t.ready = true := by
  rw [cmdReady]
  cases t.ready <;> simp

/-- **Readiness of the bus.**  Behind an accepting CONNACK, whatever the order in which the
packets arrive, the bus is ready exactly when the subscription of every method has been granted
since; a refusal is an error, and the next accepting CONNACK starts over.  No SUBSCRIBE packet is
answered twice, nor one of an earlier CONNACK. -/
theorem bus_ready_iff {s₀ s : BusSession} {buf : Str} (hbuf : AcceptingConnack buf)
    (h : Relation.ReflTransGen (Arrives b False) (s₀.connack b buf) s) :
    (cmdReady (some s.transport) = 1 ↔ s.transport.methods ≠ [] ∧ s.AllGranted) ∧
      (∀ buf' r len id codes c, mqttUnpackResponse buf' = .packet r len →
        r.decoded = .suback id codes → c ∈ codes → 2 < c → (command b s.transport buf').2 < 0) ∧
      ∀ buf', AcceptingConnack buf' → cmdReady (some (s.connack b buf').transport) = 0 := by
  have hs := counted_run hbuf h
  refine ⟨?_, fun buf' r len id codes c h1 h2 h3 h4 => command_refused h1 h2 h3 h4, ?_⟩
  · rw [cmdReady_eq_one, hs.ready, hs.allGranted_iff]
  · intro buf' hbuf'
    have hs' := counted_connack (b := b) s hbuf'
    have hready : (s.connack b buf').transport.ready ≠ true := by
      rw [Ne, hs'.ready, ← List.length_pos_iff_ne_nil]
      simp only [BusSession.connack, Finset.card_empty]
      omega
    rw [cmdReady, if_neg hready]

/-! ### Runs -/

/-- A service of two methods, connected. -/
def pairSession : BusSession :=
  { transport :=
      { name := str "pair", methods := [str "left", str "right"], host := str "home", port := 7 } }

/-- A connection that takes every packet. -/
def openBus : Bus := ⟨fun _ _ => true, fun _ _ => true⟩

/-- A CONNACK that accepts the connection. -/
def connackBytes : Str := [32, 2, 0, 0]

/-- A SUBACK that grants one topic. -/
def subackBytes (packetId : UInt8) : Str := [144, 3, 0, packetId, 0]

lemma acceptingConnack_bytes : AcceptingConnack connackBytes := ⟨_, _, _, rfl, rfl⟩

lemma suback_bytes : Suback (subackBytes 2) 2 0 := ⟨_, _, rfl, rfl⟩

/-- Both methods are granted, the second one first. -/
theorem bus_ready_pair :
    cmdReady (some (((pairSession.connack openBus connackBytes).suback openBus
      (subackBytes 2) 0 0).suback openBus (subackBytes 1) 1 0).transport) = 1 :=
  ((bus_ready_iff (b := openBus) acceptingConnack_bytes
    ((Relation.ReflTransGen.single
      (.suback (p := ⟨2, str "pair/right/home/7"⟩) (by decide) (by decide) (Or.inr (by decide))
        ⟨_, _, rfl, rfl⟩)).tail
      (.suback (p := ⟨1, str "pair/left/home/7"⟩) (by decide) (by decide) (Or.inr (by decide))
        ⟨_, _, rfl, rfl⟩))).1).mpr
    ⟨by decide, by decide⟩

/-- **Late answers make the bus ready too early.**  The broker accepts twice; then it grants the
second method for each, and the first method never. -/
theorem late_suback_ready :
    ¬ ∀ (b : Bus) (s₀ s : BusSession) (buf : Str), AcceptingConnack buf →
      Relation.ReflTransGen (Arrives b True) (s₀.connack b buf) s →
      (cmdReady (some s.transport) = 1 ↔ s.AllGranted) := by
  intro h
  have hrun : Relation.ReflTransGen (Arrives openBus True)
      (pairSession.connack openBus connackBytes)
      ((((pairSession.connack openBus connackBytes).connack openBus connackBytes).suback openBus
        (subackBytes 2) 0 0).suback openBus (subackBytes 2) 2 0) :=
    ((Relation.ReflTransGen.single (.connack acceptingConnack_bytes)).tail
      (.suback (p := ⟨2, str "pair/right/home/7"⟩) (by decide) (by decide) (Or.inl trivial)
        suback_bytes)).tail
      (.suback (p := ⟨2, str "pair/right/home/7"⟩) (by decide) (by decide) (Or.inl trivial)
        suback_bytes)
  have hall := (h openBus pairSession _ connackBytes acceptingConnack_bytes hrun).mp (by decide)
  exact absurd hall (by decide)

end SipEcho
