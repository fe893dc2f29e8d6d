import SipEcho.Bridge.Message

/-!
The five typed payloads across the bridge: `__content__unproto` writes each as a body,
`__content__proto` finds them again by their content types.

* `SipPayloads.kinds`, `SipMessage.HeadTyped`: the payloads set, and the content type a sender
  gives the message;
* `payloadEntries`, `addPayload_foldl`: the bodies written, each with its kind; only the first body
  of a message without other parts goes without a content type of its own;
* `collect_entries`: bodies of different kinds are all found;
* `SipMessage.Survives`, `SipMessage.Deliverable`: what is wanted, and when it holds;
* `payloads_survive`: the two are the same;
* `DtmfStable`: the body written for a DTMF event that was read gives the event again, and its
  length is that of its text; `dtmf_stable_iff`: **that is so exactly for the stable keys**.
-/

namespace SipEcho

open Lib

/-! ### What is sent -/

/-- The payloads that are set. -/
def SipPayloads.kinds (p : SipPayloads) : List Payload :=
  Payload.all.filter fun k => (p.value k).isSome

lemma SipPayloads.mem_kinds {p : SipPayloads} {k : Payload} :
    k ∈ p.kinds ↔ (p.value k).isSome := by
  simp [SipPayloads.kinds]

lemma SipPayloads.nodup_kinds (p : SipPayloads) : p.kinds.Nodup := by
  have : Payload.all.Nodup := by decide
  exact this.filter _

/-- The content type of the message: the payload's own when it is the only part, and
`multipart/mixed` otherwise. -/
def SipMessage.HeadTyped (p : SipMessage) : Prop :=
  ∀ head, p.head = some head →
    match p.kinds, p.content with
    | [k], [] => contentEqual (head.contentType.map contentTypeUnproto) k.contentType = true
    | _, _ => contentEqual (head.contentType.map contentTypeUnproto) multipartMixed = true

/-- The payloads that can be written, with their texts. -/
def payloadTexts (osip : OsipParser) (p : SipPayloads) (ks : List Payload) :
    List (Payload × Str × ℕ) :=
  ks.filterMap fun k => ((p.value k).bind (payloadText osip)).map fun t => (k, t)

/-- Their bodies, each with its kind: all but the first have a content type of their own, and the
first has one when `own` says so. -/
def payloadEntries (osip : OsipParser) (own : Bool) :
    List (Payload × Str × ℕ) → List (Payload × Body)
  | [] => []
  | (k, text, length) :: rest =>
      (k, { body := text, length
            contentType := if own then osip.bodySetContenttype k.contentType else none }) ::
        payloadEntries osip true rest

section Entries

variable {osip : OsipParser}

/-- **The blocks of `__content__unproto`**, one after the other. -/
lemma addPayload_foldl (p : SipPayloads) (n : ℕ) (ks : List Payload) (bodies : List Body) :
    ks.foldl (addPayload osip p n) bodies =
      ((payloadEntries osip (decide (n ≠ 0 ∨ bodies.length ≠ 0)) (payloadTexts osip p ks)).map
        Prod.snd).reverse ++ bodies := by
  induction ks generalizing bodies with
  | nil => rfl
  | cons k ks ih =>
      rw [List.foldl_cons, ih]
      cases ht : (p.value k).bind (payloadText osip) with
      | none =>
          have htexts : payloadTexts osip p (k :: ks) = payloadTexts osip p ks := by
            rw [payloadTexts, List.filterMap_cons, ht]
            rfl
          have hstep : addPayload osip p n bodies k = bodies := by rw [addPayload, ht]
          rw [htexts, hstep]
      | some t =>
          obtain ⟨text, length⟩ := t
          have htexts : payloadTexts osip p (k :: ks) =
              (k, text, length) :: payloadTexts osip p ks := by
            rw [payloadTexts, List.filterMap_cons, ht]
            rfl
          simp [addPayload, htexts, payloadEntries, ht]

variable (osip) in
lemma payloadEntries_kinds (own : Bool) (l : List (Payload × Str × ℕ)) :
    (payloadEntries osip own l).map Prod.fst = l.map Prod.fst := by
  induction l generalizing own with
  | nil => rfl
  | cons e l ih => simp [payloadEntries, ih]

/-- Each entry comes from its text, with its own content type or none. -/
lemma of_mem_payloadEntries {own : Bool} {l : List (Payload × Str × ℕ)} {k : Payload} {b : Body}
    (h : (k, b) ∈ payloadEntries osip own l) :
    (k, b.body, b.length) ∈ l ∧
      (b.contentType = osip.bodySetContenttype k.contentType ∨ b.contentType = none) := by
  induction l generalizing own with
  | nil => simp [payloadEntries] at h
  | cons e l ih =>
      obtain ⟨k', text, length⟩ := e
      rcases List.mem_cons.mp h with h | h
      · cases h
        cases own <;> simp
      · obtain ⟨h1, h2⟩ := ih h
        exact ⟨by simp [h1], h2⟩

/-- With other parts there, every entry has its own content type. -/
lemma own_of_mem_payloadEntries {l : List (Payload × Str × ℕ)} {k : Payload} {b : Body}
    (h : (k, b) ∈ payloadEntries osip true l) :
    b.contentType = osip.bodySetContenttype k.contentType := by
  induction l with
  | nil => simp [payloadEntries] at h
  | cons e l ih =>
      obtain ⟨k', text, length⟩ := e
      rcases List.mem_cons.mp h with h | h
      · cases h
        rfl
      · exact ih h

end Entries

/-! ### What is found -/

section Found

variable {osip : OsipParser} {xml : XmlReader} {messageType : Option ContentType}

variable (osip xml messageType) in
/-- **Bodies of different kinds, each of its own type and readable, are all found**, and nothing
else changes. -/
lemma collect_entries {entries : List (Payload × Body)} {s : Collected}
    (hnodup : (entries.map Prod.fst).Nodup)
    (hempty : ∀ k ∈ entries.map Prod.fst, s.value k = none)
    (htyped : ∀ e ∈ entries, contentEqual (partType messageType e.2) e.1.contentType = true)
    (hread : ∀ e ∈ entries, (readPayload osip xml e.2 e.1).isSome) :
    let t := (entries.map Prod.snd).foldl (fun s b => contentStep osip xml messageType b s) s
    (∀ e ∈ entries, t.value e.1 = readPayload osip xml e.2 e.1) ∧
      ∀ k ∉ entries.map Prod.fst, t.value k = s.value k := by
  induction entries generalizing s with
  | nil => simp
  | cons e entries ih =>
      obtain ⟨k, b⟩ := e
      rw [List.map_cons, List.nodup_cons] at hnodup
      obtain ⟨v, hv⟩ := Option.isSome_iff_exists.mp (hread (k, b) (by simp))
      have hkind := kind_of_readPayload hv
      have hstep : contentStep osip xml messageType b s = s.set v :=
        contentStep_typed (htyped (k, b) (by simp)) (hempty k (by simp)) hv
      have hempty' : ∀ j ∈ entries.map Prod.fst, (s.set v).value j = none := by
        intro j hj
        have hjk : j ≠ k := by
          rintro rfl
          exact hnodup.1 hj
        rw [Collected.set_value, hkind, if_neg hjk]
        exact hempty j (by simp [hj])
      obtain ⟨h1, h2⟩ := ih hnodup.2 hempty' (fun e he => htyped e (by simp [he]))
        fun e he => hread e (by simp [he])
      simp only [List.map_cons, List.foldl_cons, hstep]
      constructor
      · intro e he
        rcases List.mem_cons.mp he with rfl | he
        · rw [h2 k hnodup.1, Collected.set_value, if_pos hkind.symm, hv]
        · exact h1 e he
      · intro j hj
        simp only [List.mem_cons, not_or] at hj
        rw [h2 j hj.2, Collected.set_value, hkind, if_neg hj.1]

/-- **What is found was there**: a payload collected was read from a body of its type. -/
lemma exists_of_collect {bodies : List Body} {k : Payload}
    (h : ((collect osip xml messageType bodies).value k).isSome) :
    ∃ b ∈ bodies, contentEqual (partType messageType b) k.contentType = true ∧
      (readPayload osip xml b k).isSome := by
  induction bodies with
  | nil => cases k <;> exact absurd h (by simp [collect, SipPayloads.value])
  | cons b bodies ih =>
      rcases contentStep_value osip xml messageType b (collect osip xml messageType bodies) k
        with hs | hs
      · rw [collect, List.foldr_cons] at h
        rw [collect] at hs
        rw [hs] at h
        obtain ⟨c, hc, hc'⟩ := ih h
        exact ⟨c, by simp [hc], hc'⟩
      · exact ⟨b, by simp, hs⟩

end Found

/-! ### What is wanted, and when it holds -/

/-- What osip documents of `osip_body_set_contenttype`: the type before the slash and the subtype
after it. -/
def OsipParser.SetsContentTypes (osip : OsipParser) : Prop :=
  ∀ k : Payload, osip.bodySetContenttype k.contentType =
    some { type := some (k.contentType.takeWhile (· ≠ 47))
           subtype := some (subtypeOf k.contentType) }

/-- The printer and the parser are inverse on this description. -/
def OsipParser.InvertsSdp (osip : OsipParser) (q : SdpMessage) : Prop :=
  ∃ s, osip.sdpMessageToStr q = some s ∧ osip.sdpMessageParse (cstr s) = q

/-- The document fits into the buffer. -/
def OsipParser.Fits (osip : OsipParser) (members : List PbMember) : Prop :=
  (render (some 34) (protobufCMessageToXml members)).length ≤ osip.bodyMessageMaxSize - 1

/-- **Every payload that is set survives**: there is one body for each, of the payload's type
whenever there is more than one body, and the payloads found in the result are the ones set. -/
def SipMessage.Survives (p : SipMessage) (osip : OsipParser) (xml : XmlReader) : Prop :=
  ∃ m id typed kinds, messageUnproto osip p fullRequestBitset = some (m, id) ∧
    m.bodies = typed ++ p.content.map contentUnproto ∧ kinds.Perm p.kinds ∧
    List.Forall₂
      (fun b k => 1 < m.bodies.length → contentEqual b.contentType k.contentType = true)
      typed kinds ∧
    ∀ k, ((collect osip xml m.contentType m.bodies).value k).isSome = (p.value k).isSome

/-- The message converts; when more than one payload is set there is another part; every document
fits; the signal is a key. -/
structure SipMessage.Deliverable (p : SipMessage) (osip : OsipParser) : Prop where
  convertible : p.Convertible
  typed : p.content ≠ [] ∨ p.kinds.length ≤ 1
  vfu : ∀ v, p.vfu = some v → osip.Fits v.members
  pidf : ∀ v, p.pidf = some v → osip.Fits v.members
  rl : ∀ v, p.rl = some v → osip.Fits v.members
  dtmf : ∀ v, p.dtmf = some v → v.signal < 0x10

section Survive

variable {osip : OsipParser} {xml : XmlReader} {p : SipMessage}

/-- The bodies of the payloads in the order written, each with its kind. -/
def SipMessage.entries (p : SipMessage) (osip : OsipParser) : List (Payload × Body) :=
  payloadEntries osip (decide (p.content ≠ [])) (payloadTexts osip p.toSipPayloads Payload.all)

/-- A document is written exactly when it fits, for none is empty. -/
lemma xmlText_isSome {members : List PbMember} :
    (xmlText osip members).isSome ↔ osip.Fits members := by
  rw [xmlText, xmlSeed_eq, OsipParser.Fits]
  have hne := render_toXml_ne_nil (some 34) members
  split_ifs with h
  · simpa [h] using List.length_pos_iff.mpr hne
  · simp [h]

/-- The bodies and the content type of the message for osip. -/
lemma messageUnproto_content {m : Message} {id : Uuid} {head : SipHead}
    (h : messageUnproto osip p fullRequestBitset = some (m, id)) (hhead : p.head = some head) :
    m.contentType = head.contentType.map contentTypeUnproto ∧
      m.bodies = ((p.entries osip).map Prod.snd).reverse ++ p.content.map contentUnproto := by
  obtain ⟨start, head', _, _, hh, rfl⟩ := messageUnproto_eq_some.mp h
  cases hh.symm.trans hhead
  constructor
  · simp [headUnproto, hasBit_full]
  · simp only [headUnproto_bodies, contentBodies, arrayUnproto]
    rw [addPayload_foldl]
    simp [SipMessage.entries]

/-- The types that osip sets are the payloads' own. -/
lemma contentEqual_set (hset : osip.SetsContentTypes) (j k : Payload) :
    contentEqual (osip.bodySetContenttype j.contentType) k.contentType = true ↔ j = k := by
  have own : ∀ k : Payload, contentEqual (osip.bodySetContenttype k.contentType)
      k.contentType = true := by
    intro k
    rw [hset k]
    cases k <;> decide
  constructor
  · intro h
    exact contentEqual_payload (own j) h
  · rintro rfl
    exact own j

/-- The texts are those of the payloads set. -/
lemma mem_payloadTexts {p : SipPayloads} {k : Payload} {text : Str} {length : ℕ} :
    (k, text, length) ∈ payloadTexts osip p Payload.all ↔
      ∃ v, p.value k = some v ∧ payloadText osip v = some (text, length) := by
  simp only [payloadTexts, List.mem_filterMap, Payload.mem_all, true_and, Option.map_eq_some_iff,
    Option.bind_eq_some_iff, Prod.mk.injEq]
  constructor
  · rintro ⟨_, _, ⟨v, hv, ht⟩, rfl, rfl⟩
    exact ⟨v, hv, ht⟩
  · rintro ⟨v, hv, ht⟩
    exact ⟨k, (text, length), ⟨v, hv, ht⟩, rfl, rfl⟩

/-- The kinds that are written, among those that are set. -/
lemma payloadTexts_kinds (p : SipPayloads) :
    (payloadTexts osip p Payload.all).map Prod.fst =
      Payload.all.filter fun k => ((p.value k).bind (payloadText osip)).isSome := by
  have h : ∀ (f : Payload → Option (Str × ℕ)) (ks : List Payload),
      (ks.filterMap fun k => (f k).map fun t => (k, t)).map Prod.fst =
        ks.filter fun k => (f k).isSome := by
    intro f ks
    induction ks with
    | nil => rfl
    | cons k ks ih =>
        rw [List.filterMap_cons]
        cases hf : f k <;> simp [hf, ih]
  exact h _ _

lemma payloadTexts_sublist (p : SipPayloads) :
    ((payloadTexts osip p Payload.all).map Prod.fst).Sublist p.kinds := by
  rw [payloadTexts_kinds]
  refine List.monotone_filter_right _ fun k hk => ?_
  cases hv : p.value k with
  | none => simp [hv] at hk
  | some v => rfl

/-- **Every payload that is set is written** exactly when every document fits; the description is
printed and the event always has a text. -/
lemma payloadTexts_eq_kinds
    (hsdp : ∀ v, p.sdp = some v → osip.InvertsSdp (sdpUnproto v)) :
    (payloadTexts osip p.toSipPayloads Payload.all).map Prod.fst = p.kinds ↔
      (∀ v, p.vfu = some v → osip.Fits v.members) ∧
        (∀ v, p.pidf = some v → osip.Fits v.members) ∧
          ∀ v, p.rl = some v → osip.Fits v.members := by
  have hall : (payloadTexts osip p.toSipPayloads Payload.all).map Prod.fst = p.kinds ↔
      ∀ k v, p.value k = some v → (payloadText osip v).isSome := by
    constructor
    · intro h k v hv
      have hk : k ∈ p.kinds := SipPayloads.mem_kinds.mpr (by simp [hv])
      rw [← h, payloadTexts_kinds, List.mem_filter] at hk
      simpa [hv] using hk.2
    · intro h
      rw [payloadTexts_kinds, SipPayloads.kinds]
      refine List.filter_congr fun k _ => ?_
      cases hv : p.value k with
      | none => rfl
      | some v => simpa using h k v hv
  rw [hall]
  constructor
  · intro h
    refine ⟨fun v hv => ?_, fun v hv => ?_, fun v hv => ?_⟩
    · exact xmlText_isSome.mp (h .vfu (.vfu v) (by simp [SipPayloads.value, hv]))
    · exact xmlText_isSome.mp (h .pidf (.pidf v) (by simp [SipPayloads.value, hv]))
    · exact xmlText_isSome.mp (h .rl (.rl v) (by simp [SipPayloads.value, hv]))
  · rintro ⟨hvfu, hpidf, hrl⟩ k v hv
    cases k with
    | sdp =>
        obtain ⟨w, hw, rfl⟩ := Option.map_eq_some_iff.mp hv
        obtain ⟨s, hs, -⟩ := hsdp w hw
        simp [payloadText, hs]
    | vfu =>
        obtain ⟨w, hw, rfl⟩ := Option.map_eq_some_iff.mp hv
        exact xmlText_isSome.mpr (hvfu w hw)
    | dtmf =>
        obtain ⟨w, hw, rfl⟩ := Option.map_eq_some_iff.mp hv
        rfl
    | pidf =>
        obtain ⟨w, hw, rfl⟩ := Option.map_eq_some_iff.mp hv
        exact xmlText_isSome.mpr (hpidf w hw)
    | rl =>
        obtain ⟨w, hw, rfl⟩ := Option.map_eq_some_iff.mp hv
        exact xmlText_isSome.mpr (hrl w hw)

/-- **What a body that was written is read back as**: an event when its signal is a key, and every
other payload always; a description and an event come back as they were. -/
lemma readPayload_text {k : Payload} {v : PayloadValue} {b : Body} (hv : p.value k = some v)
    (ht : payloadText osip v = some (b.body, b.length))
    (hsdp : ∀ v, p.sdp = some v → osip.InvertsSdp (sdpUnproto v)) :
    ((readPayload osip xml b k).isSome ↔ ∀ d, v = .dtmf d → d.signal < 0x10) ∧
      ((readPayload osip xml b k).isSome → k = .sdp ∨ k = .dtmf →
        readPayload osip xml b k = some v) := by
  cases k with
  | sdp =>
      obtain ⟨w, hw, rfl⟩ := Option.map_eq_some_iff.mp hv
      obtain ⟨s, hs, hparse⟩ := hsdp w hw
      have hbody : b.body = s := by
        rw [payloadText, hs] at ht
        exact (congrArg Prod.fst (Option.some.inj ht)).symm
      have hread : readPayload osip xml b .sdp = some (.sdp w) := by
        simp [readPayload, hbody, hparse, sdp_restores w trivial]
      simp [hread]
  | vfu =>
      obtain ⟨w, _, rfl⟩ := Option.map_eq_some_iff.mp hv
      simp [readPayload]
  | dtmf =>
      obtain ⟨w, _, rfl⟩ := Option.map_eq_some_iff.mp hv
      have hbody : b.body = cstr (dtmfText w) :=
        (congrArg Prod.fst (Option.some.inj ht)).symm
      by_cases hsignal : w.signal < 0x10
      · have hread : readPayload osip xml b .dtmf = some (.dtmf w) := by
          simp [readPayload, hbody, cstr_cstr, dtmfProto_text hsignal]
        simp [hread, hsignal]
      · have hread : readPayload osip xml b .dtmf = none := by
          simp [readPayload, hbody, cstr_cstr, dtmfProto_text_of_le (UInt32.not_lt.mp hsignal)]
        simpa [hread] using UInt32.not_lt.mp hsignal
  | pidf =>
      obtain ⟨w, _, rfl⟩ := Option.map_eq_some_iff.mp hv
      simp [readPayload]
  | rl =>
      obtain ⟨w, _, rfl⟩ := Option.map_eq_some_iff.mp hv
      simp [readPayload]

/-- More than one part, or none that is typed. -/
lemma SipMessage.HeadTyped.multipart (h : p.HeadTyped) {head : SipHead}
    (hhead : p.head = some head) (hparts : p.content ≠ [] ∨ p.kinds.length ≠ 1) :
    contentEqual (head.contentType.map contentTypeUnproto) multipartMixed = true := by
  have h := h head hhead
  split at h
  · rename_i hk hc
    simp [hk, hc] at hparts
  · exact h

/-- One payload and nothing else. -/
lemma SipMessage.HeadTyped.single (h : p.HeadTyped) {head : SipHead}
    (hhead : p.head = some head) {k : Payload} (hk : p.kinds = [k]) (hc : p.content = []) :
    contentEqual (head.contentType.map contentTypeUnproto) k.contentType = true := by
  have h := h head hhead
  rw [hk, hc] at h
  exact h

variable (osip xml) in
/-- The other parts are not taken for payloads. -/
lemma collect_parts (h : p.HeadTyped) {head : SipHead} (hhead : p.head = some head) :
    collect osip xml (head.contentType.map contentTypeUnproto)
      (p.content.map contentUnproto) = { content := p.content.map contentUnproto } := by
  refine collect_untyped osip xml fun b hb k => ?_
  obtain ⟨c, hc, rfl⟩ := List.mem_map.mp hb
  have hne : p.content ≠ [] := List.ne_nil_of_mem hc
  exact contentEqual_multipart (h.multipart hhead (Or.inl hne)) k

/-- What is collected from the bodies written. -/
lemma collect_message (h : p.HeadTyped) {m : Message} {id : Uuid} {head : SipHead}
    (hm : messageUnproto osip p fullRequestBitset = some (m, id)) (hhead : p.head = some head) :
    collect osip xml m.contentType m.bodies =
      ((p.entries osip).map Prod.snd).foldl (fun s b => contentStep osip xml m.contentType b s)
        { content := p.content.map contentUnproto } := by
  obtain ⟨hct, hbodies⟩ := messageUnproto_content hm hhead
  have hparts := collect_parts osip xml h hhead
  rw [← hct] at hparts
  rw [hbodies, collect, List.foldr_append, List.foldr_reverse]
  rw [collect] at hparts
  rw [hparts]

lemma of_mem_entries {k : Payload} {b : Body} (h : (k, b) ∈ p.entries osip) :
    ∃ v, p.value k = some v ∧ payloadText osip v = some (b.body, b.length) :=
  mem_payloadTexts.mp (of_mem_payloadEntries h).1

lemma entries_kinds :
    (p.entries osip).map Prod.fst =
      (payloadTexts osip p.toSipPayloads Payload.all).map Prod.fst :=
  payloadEntries_kinds osip _ _

/-- Every body counts as one of its kind, by its own content type or by the message's. -/
lemma entries_typed (hset : osip.SetsContentTypes) (h : p.HeadTyped) {head : SipHead}
    (hhead : p.head = some head) (hkinds : p.content ≠ [] ∨ p.kinds.length ≤ 1) {k : Payload}
    {b : Body} (hb : (k, b) ∈ p.entries osip) :
    contentEqual (partType (head.contentType.map contentTypeUnproto) b) k.contentType = true := by
  have own : b.contentType = osip.bodySetContenttype k.contentType →
      contentEqual (partType (head.contentType.map contentTypeUnproto) b) k.contentType = true := by
    intro hown
    rw [partType, hown, hset k]
    rw [Option.isSome_some, if_pos rfl, ← hset k]
    exact (contentEqual_set hset k k).mpr rfl
  rcases (of_mem_payloadEntries hb).2 with hown | hnone
  · exact own hown
  · by_cases hc : p.content = []
    · -- the only part, under the message's type
      obtain ⟨v, hv, -⟩ := of_mem_entries hb
      have hk : k ∈ p.kinds := SipPayloads.mem_kinds.mpr (by simp [hv])
      obtain ⟨j, hj⟩ := List.length_eq_one_iff.mp
        (le_antisymm (hkinds.resolve_left (not_not.mpr hc)) (List.length_pos_of_mem hk))
      rw [hj, List.mem_singleton] at hk
      rw [partType, hnone]
      exact h.single hhead (hk ▸ hj) hc
    · rw [SipMessage.entries, decide_eq_true hc] at hb
      exact own (own_of_mem_payloadEntries hb)

lemma exists_of_forall₂ {α β : Type} {R : α → β → Prop} {l : List α} {l' : List β}
    (h : List.Forall₂ R l l') {a : α} (ha : a ∈ l) : ∃ b, R a b := by
  induction h with
  | nil => simp at ha
  | cons hab _ ih =>
      rcases List.mem_cons.mp ha with rfl | ha
      · exact ⟨_, hab⟩
      · exact ih ha

/-- A relation between the bodies and the kinds of the entries, last entry first. -/
lemma forall₂_entries {R : Body → Payload → Prop} {entries : List (Payload × Body)}
    (h : ∀ e ∈ entries, R e.2 e.1) :
    List.Forall₂ R (entries.map Prod.snd).reverse (entries.map Prod.fst).reverse := by
  rw [List.forall₂_reverse_iff, List.forall₂_map_left_iff, List.forall₂_map_right_iff,
    List.forall₂_same]
  exact h

variable (xml) in
/-- Deliverable payloads survive, and a description and an event are found as they were. -/
lemma survives_of_deliverable (hset : osip.SetsContentTypes)
    (hsdp : ∀ v, p.sdp = some v → osip.InvertsSdp (sdpUnproto v)) (htyped : p.HeadTyped)
    (h : p.Deliverable osip) :
    p.Survives osip xml ∧ ∀ m id, messageUnproto osip p fullRequestBitset = some (m, id) →
      ∀ k, k = .sdp ∨ k = .dtmf →
        (collect osip xml m.contentType m.bodies).value k = p.value k := by
  have hsome : (messageUnproto osip p fullRequestBitset).isSome :=
    messageUnproto_isSome.mpr h.convertible
  obtain ⟨⟨m, id⟩, hm⟩ := Option.isSome_iff_exists.mp hsome
  obtain ⟨head, hhead⟩ := Option.isSome_iff_exists.mp h.convertible.2.1
  obtain ⟨hct, hbodies⟩ := messageUnproto_content hm hhead
  have hkinds : (p.entries osip).map Prod.fst = p.kinds :=
    entries_kinds.trans ((payloadTexts_eq_kinds hsdp).mpr ⟨h.vfu, h.pidf, h.rl⟩)
  have hread : ∀ e ∈ p.entries osip, (readPayload osip xml e.2 e.1).isSome := by
    rintro ⟨k, b⟩ he
    obtain ⟨v, hv, ht⟩ := of_mem_entries he
    refine (readPayload_text hv ht hsdp).1.mpr fun d hd => h.dtmf d ?_
    rw [hd] at hv
    have hkind := SipPayloads.kind_of_value hv
    cases hkind
    obtain ⟨w, hw, hwd⟩ := Option.map_eq_some_iff.mp hv
    cases hwd
    exact hw
  have hfound := collect_entries osip xml m.contentType
    (s := { content := p.content.map contentUnproto }) (by rw [hkinds]; exact p.nodup_kinds)
    (fun k _ => by cases k <;> rfl)
    (fun e he => by rw [hct]; exact entries_typed hset htyped hhead h.typed he) hread
  rw [← collect_message htyped hm hhead] at hfound
  obtain ⟨hset', hunset⟩ := hfound
  -- every kind set is found, and no other
  have hvalue : ∀ k, (p.value k).isSome → ∃ b, (k, b) ∈ p.entries osip := by
    intro k hk
    have : k ∈ (p.entries osip).map Prod.fst := by rw [hkinds]; exact SipPayloads.mem_kinds.mpr hk
    obtain ⟨⟨k', b⟩, he, rfl⟩ := List.mem_map.mp this
    exact ⟨b, he⟩
  have hnone : ∀ k, p.value k = none →
      (collect osip xml m.contentType m.bodies).value k = none := by
    intro k hk
    have : k ∉ (p.entries osip).map Prod.fst := by
      rw [hkinds, SipPayloads.mem_kinds, hk]
      simp
    rw [hunset k this]
    cases k <;> rfl
  refine ⟨⟨m, id, _, ((p.entries osip).map Prod.fst).reverse, hm, hbodies, ?_, ?_, ?_⟩, ?_⟩
  · exact (List.reverse_perm _).trans (List.Perm.of_eq hkinds)
  · refine forall₂_entries fun e he hmany => ?_
    by_cases hc : p.content = []
    · have hlen := congrArg List.length hbodies
      have hle := h.typed.resolve_left (not_not.mpr hc)
      rw [← hkinds, List.length_map] at hle
      simp [hc] at hlen
      omega
    · rw [SipMessage.entries, decide_eq_true hc] at he
      rw [own_of_mem_payloadEntries he]
      exact (contentEqual_set hset _ _).mpr rfl
  · intro k
    cases hv : p.value k with
    | none => rw [hnone k hv]
    | some v =>
        obtain ⟨b, hb⟩ := hvalue k (by simp [hv])
        rw [hset' (k, b) hb]
        exact hread (k, b) hb
  · intro m' id' hm' k hk
    cases hm.symm.trans hm'
    cases hv : p.value k with
    | none => exact hnone k hv
    | some v =>
        obtain ⟨b, hb⟩ := hvalue k (by simp [hv])
        obtain ⟨w, hw, ht⟩ := of_mem_entries hb
        cases hv.symm.trans hw
        rw [hset' (k, b) hb]
        exact (readPayload_text hv ht hsdp).2 (hread (k, b) hb) hk

/-- Payloads that survive were deliverable. -/
lemma deliverable_of_survives (hset : osip.SetsContentTypes)
    (hsdp : ∀ v, p.sdp = some v → osip.InvertsSdp (sdpUnproto v)) (htyped : p.HeadTyped)
    (h : p.Survives osip xml) : p.Deliverable osip := by
  obtain ⟨m, id, typed, kinds, hm, hbodies, hperm, hown, hfound⟩ := h
  have hconv : p.Convertible := by
    have : (messageUnproto osip p fullRequestBitset).isSome := by simp [hm]
    exact messageUnproto_isSome.mp this
  obtain ⟨head, hhead⟩ := Option.isSome_iff_exists.mp hconv.2.1
  obtain ⟨hct, hbodies'⟩ := messageUnproto_content hm hhead
  have htypedBodies : typed = ((p.entries osip).map Prod.snd).reverse :=
    List.append_cancel_right (hbodies.symm.trans hbodies')
  have hlength : (p.entries osip).length = p.kinds.length := by
    have h1 := hown.length_eq
    rw [htypedBodies, List.length_reverse, List.length_map] at h1
    rw [h1, hperm.length_eq]
  -- as many bodies as payloads: every payload was written
  have hkinds : (payloadTexts osip p.toSipPayloads Payload.all).map Prod.fst = p.kinds := by
    refine (payloadTexts_sublist p.toSipPayloads).eq_of_length ?_
    rw [← entries_kinds, List.length_map, hlength]
  obtain ⟨hvfu, hpidf, hrl⟩ := (payloadTexts_eq_kinds hsdp).mp hkinds
  -- the first body written has a type of its own, or there is no second
  have hcount : p.content ≠ [] ∨ p.kinds.length ≤ 1 := by
    by_contra hno
    rw [not_or, not_not, not_le] at hno
    obtain ⟨hc, hmany⟩ := hno
    have hbodiesLength : 1 < m.bodies.length := by
      rw [hbodies', hc]
      simpa [hlength] using hmany
    cases ht : payloadTexts osip p.toSipPayloads Payload.all with
    | nil =>
        rw [ht] at hkinds
        simp [← hkinds] at hmany
    | cons e rest =>
        obtain ⟨k, text, length⟩ := e
        have hfirst : ({ body := text, length := length, contentType := none } : Body) ∈ typed := by
          rw [htypedBodies, SipMessage.entries, ht]
          simp [payloadEntries, hc]
        obtain ⟨j, hj⟩ := exists_of_forall₂ hown hfirst
        have := hj hbodiesLength
        rw [contentEqual_none] at this
        exact absurd this (by simp)
  refine ⟨hconv, hcount, hvfu, hpidf, hrl, fun d hd => ?_⟩
  -- the event found can only have been read from the body written for it
  have hvalue : p.value .dtmf = some (.dtmf d) := by simp [SipPayloads.value, hd]
  have hset' := hfound .dtmf
  rw [hvalue, Option.isSome_some] at hset'
  obtain ⟨b, hb, hbtype, hbread⟩ := exists_of_collect hset'
  rw [hct] at hbtype
  rw [hbodies', List.mem_append, List.mem_reverse, List.mem_map] at hb
  rcases hb with ⟨⟨k, b⟩, he, rfl⟩ | hb
  · obtain rfl : k = .dtmf :=
      contentEqual_payload (entries_typed hset htyped hhead hcount he) hbtype
    obtain ⟨v, hv, ht⟩ := of_mem_entries he
    cases hvalue.symm.trans hv
    exact (readPayload_text hv ht hsdp).1.mp hbread d rfl
  · obtain ⟨c, hc, rfl⟩ := List.mem_map.mp hb
    have hmixed := htyped.multipart hhead (Or.inl (List.ne_nil_of_mem hc))
    have hno := contentEqual_multipart hmixed .dtmf
    rw [show partType (head.contentType.map contentTypeUnproto) (contentUnproto c) =
      head.contentType.map contentTypeUnproto from rfl, hno] at hbtype
    exact absurd hbtype (by simp)

end Survive

/-! ### Samples -/

lemma sampleParser_setsContentTypes : sampleParser.SetsContentTypes := by
  intro k
  cases k <;> decide

/-- A multipart response with a description, an event and one more part. -/
def sampleParts : SipMessage where
  id := some ⟨1, 2⟩
  response := 200
  head := some
    { contentType := some { type := some (str "multipart"), subtype := some (str "mixed") } }
  sdp := some { vVersion := some (str "0") }
  dtmf := some { signal := 11, duration := 250 }
  content := [{ body := str "hello" }]

/-- The same description and event without the other part. -/
def sampleTwo : SipMessage where
  id := some ⟨1, 2⟩
  response := 200
  head := some
    { contentType := some { type := some (str "multipart"), subtype := some (str "mixed") } }
  sdp := some { vVersion := some (str "0") }
  dtmf := some { signal := 11, duration := 250 }

/-- The body written for an event that was read from a text is read as the same event, and the
length recorded is that of its text. -/
def DtmfStable (osip : OsipParser) (q : Str) : Prop :=
  ∀ e, dtmfProto (cstr q) = some e → ∃ text length,
    payloadText osip (.dtmf e) = some (text, length) ∧ dtmfProto (cstr text) = some e ∧
      length = text.length

/-- **A DTMF body is stable exactly when its key is.** -/
theorem dtmf_stable_iff (osip : OsipParser) (q : Str) :
    DtmfStable osip q ↔
      ∀ key duration, dtmfScan (cstr q) = some (key, duration) → StableKey key := by
  have hproto (e : SipDtmf) : dtmfProto (cstr q) = some e ↔ ∃ key duration,
      dtmfScan (cstr q) = some (key, duration) ∧ ⟨dtmfSignal key, duration⟩ = e := by
    simp only [dtmfProto, Option.bind_eq_bind, Option.bind_eq_some_iff, Option.some.injEq,
      Prod.exists]
  constructor
  · intro h key duration hscan
    obtain ⟨text, length, htext, hread, -⟩ := h _ ((hproto _).mpr ⟨key, duration, hscan, rfl⟩)
    obtain ⟨hne, hlength, hkey⟩ := dtmfScan_key hscan
    rw [← dtmfSignal_lt_iff hne hlength hkey]
    by_contra hsignal
    have hlost := dtmfProto_text_of_le (p := ⟨dtmfSignal key, duration⟩)
      (UInt32.not_lt.mp hsignal)
    obtain ⟨rfl, -⟩ := Prod.mk.inj (Option.some.inj htext)
    rw [cstr_cstr, hlost] at hread
    exact absurd hread (by simp)
  · intro h e he
    obtain ⟨key, duration, hscan, rfl⟩ := (hproto e).mp he
    obtain ⟨hne, hlength, hkey⟩ := dtmfScan_key hscan
    have hsignal := (dtmfSignal_lt_iff hne hlength hkey).mpr (h key duration hscan)
    have hnul := nul_not_mem_dtmfText (p := ⟨dtmfSignal key, duration⟩) hsignal
    refine ⟨_, _, rfl, ?_, ?_⟩
    · rw [cstr_cstr]
      exact dtmfProto_text hsignal
    · rw [cstr_of_not_mem hnul]

/-- The key `16`: the signal 16 has no byte, and the NUL in its place ends the text. -/
theorem signal_sixteen_lost :
    dtmfProto (cstr (str "Signal=16\r\nDuration=250")) = some ⟨16, 250⟩ ∧
      ¬ DtmfStable sampleParser (str "Signal=16\r\nDuration=250") := by
  have hread : dtmfProto (cstr (str "Signal=16\r\nDuration=250")) = some ⟨16, 250⟩ := by decide
  refine ⟨hread, fun h => ?_⟩
  obtain ⟨text, length, htext, hagain, -⟩ := h _ hread
  obtain ⟨rfl, -⟩ := Prod.mk.inj (Option.some.inj htext)
  revert hagain
  decide

end SipEcho
