import SipEcho.Bridge.Dtmf
import SipEcho.Bridge.Sdp
import SipEcho.Xml.Print

/-!
The bodies of a message: five kinds of payload that the bus knows, and parts that it carries as
they are.

* `Payload`, `contentEqual`: the five content types, and the test `__content__equal`; a content
  type is at most one of them (`contentEqual_unique`);
* `OsipParser`, `XmlReader`: the functions of osip this rests on, and the readers of the XML
  payloads, of which only this is used, that they return;
* `contentStep`, `collect`: the walk of `__content__proto` over the bodies, from the last to the
  first;
* `addPayload`, `contentBodies`: the bodies `__content__unproto` leaves;
* `contentStep_typed`, `contentStep_untyped`, `contentStep_value`: what one body does to the
  payloads collected so far.
-/

namespace SipEcho

open Lib

/-! ### The five payloads -/

/-- The payloads with a type of their own. -/
inductive Payload where
  | sdp | vfu | dtmf | pidf | rl
  deriving DecidableEq, Repr

/-- `SIP__TYPE__CONTENT_TYPE__*`. -/
def Payload.contentType : Payload → Str
  | .sdp => str "application/sdp"
  | .vfu => str "application/media_control+xml"
  | .dtmf => str "application/dtmf-relay"
  | .pidf => str "application/pidf+xml"
  | .rl => str "application/resource-lists+xml"

/-- In the order in which both converters try them. -/
def Payload.all : List Payload := [.sdp, .vfu, .dtmf, .pidf, .rl]

@[simp] lemma Payload.mem_all (k : Payload) : k ∈ Payload.all := by cases k <;> decide

/-- The payloads of `Sip__Message`. -/
structure SipPayloads where
  sdp : Option SipSdp := none
  vfu : Option SipVfu := none
  dtmf : Option SipDtmf := none
  pidf : Option SipPidf := none
  rl : Option SipRl := none

/-- A payload with its kind. -/
inductive PayloadValue where
  | sdp (v : SipSdp)
  | vfu (v : SipVfu)
  | dtmf (v : SipDtmf)
  | pidf (v : SipPidf)
  | rl (v : SipRl)

/-- The payload of a kind, where it is set. -/
def SipPayloads.value (s : SipPayloads) : Payload → Option PayloadValue
  | .sdp => s.sdp.map .sdp
  | .vfu => s.vfu.map .vfu
  | .dtmf => s.dtmf.map .dtmf
  | .pidf => s.pidf.map .pidf
  | .rl => s.rl.map .rl

/-! ### Content types -/

/-- `__content__equal`. -/
def contentEqual (content : Option ContentType) (type : Str) : Bool :=
  match type.idxOf? 47 with
  | none => false
  | some n =>
      if n = 0 then false
      else
        match content with
        | some { type := some t, subtype := some s, .. } =>
            strncasecmp t type n = 0 ∧ t.getD n 0 = 0 ∧ strcasecmp s (type.drop (n + 1)) = 0
        | _ => false

/-- What of a type is compared. -/
def subtypeOf (type : Str) : Str := type.drop (type.idxOf 47 + 1)

lemma contentEqual_none (type : Str) : contentEqual none type = false := by
  rw [contentEqual]
  split
  · rfl
  · split <;> rfl

/-- The subtype of a content type that is equal to a type is, in any case, the type's. -/
lemma contentEqual_subtype {content : Option ContentType} {type : Str}
    (h : contentEqual content type = true) :
    ∃ c s, content = some c ∧ c.subtype = some s ∧ strcasecmp s (subtypeOf type) = 0 := by
  rw [contentEqual] at h
  split at h
  · exact absurd h (by simp)
  · rename_i n hn
    split at h
    · exact absurd h (by simp)
    · split at h
      · rename_i t s _
        have hidx : type.idxOf 47 = n := by
          rw [List.idxOf_eq_getD_idxOf?, hn]
          rfl
        simp only [decide_eq_true_eq] at h
        exact ⟨_, s, rfl, rfl, by rw [subtypeOf, hidx]; exact h.2.2⟩
      · exact absurd h (by simp)

/-- A content type equal to two types makes their subtypes equal. -/
lemma contentEqual_unique {content : Option ContentType} {a b : Str}
    (ha : contentEqual content a = true) (hb : contentEqual content b = true) :
    strcasecmp (subtypeOf a) (subtypeOf b) = 0 := by
  obtain ⟨c, s, hc, hs, h1⟩ := contentEqual_subtype ha
  obtain ⟨c', s', hc', hs', h2⟩ := contentEqual_subtype hb
  rw [hc] at hc'
  cases hc'
  rw [hs] at hs'
  cases hs'
  have swap := strcmpBy_neg (f := tolower) tolower_eq_zero
  refine le_antisymm ?_ ?_
  · exact strcmpBy_trans tolower_eq_zero (by rw [swap, ← strcasecmp, h1]; rfl) h2.le
  · have h : strcasecmp (subtypeOf b) (subtypeOf a) ≤ 0 :=
      strcmpBy_trans tolower_eq_zero (by rw [swap, ← strcasecmp, h2]; rfl) h1.le
    rw [strcasecmp, swap] at h
    exact neg_nonpos.mp h

/-- `multipart/mixed`. -/
def multipartMixed : Str := str "multipart/mixed"

/-- **A content type is at most one of the five.** -/
lemma contentEqual_payload {content : Option ContentType} {j k : Payload}
    (hj : contentEqual content j.contentType = true)
    (hk : contentEqual content k.contentType = true) : j = k := by
  have h := contentEqual_unique hj hk
  revert h
  cases j <;> cases k <;> decide

/-- A multipart message is none of them. -/
lemma contentEqual_multipart {content : Option ContentType}
    (h : contentEqual content multipartMixed = true) (k : Payload) :
    contentEqual content k.contentType = false := by
  by_contra hk
  have h1 := contentEqual_unique h (by simpa using hk : contentEqual content k.contentType = true)
  revert h1
  cases k <;> decide

/-! ### The readers -/

/-- The functions of osip's parser library. -/
structure OsipParser extends OsipQuote where
  /-- `sdp_message_parse` into an empty description -/
  sdpMessageParse : Str → SdpMessage
  /-- `sdp_message_to_str`, when it succeeds -/
  sdpMessageToStr : SdpMessage → Option Str
  /-- the content type `osip_body_set_contenttype` sets -/
  bodySetContenttype : Str → Option ContentType
  /-- `BODY_MESSAGE_MAX_SIZE` -/
  bodyMessageMaxSize : ℕ

/-- `xml_feed` and `protobuf_c_message_from_xml` for the XML payloads, on a block and its length;
they always make a record. -/
structure XmlReader where
  vfu : Str → ℕ → SipVfu
  pidf : Str → ℕ → SipPidf
  rl : Str → ℕ → SipRl

section Proto

variable (osip : OsipParser) (xml : XmlReader)

/-- The payload of a kind read from a body. -/
def readPayload (body : Body) : Payload → Option PayloadValue
  | .sdp => (sdpProto (osip.sdpMessageParse (cstr body.body))).map .sdp
  | .vfu => some (.vfu (xml.vfu body.body body.length))
  | .dtmf => (dtmfProto (cstr body.body)).map .dtmf
  | .pidf => some (.pidf (xml.pidf body.body body.length))
  | .rl => some (.rl (xml.rl body.body body.length))

/-- The content type that counts for a body: its own, else the message's. -/
def partType (messageType : Option ContentType) (body : Body) : Option ContentType :=
  if body.contentType.isSome then body.contentType else messageType

/-- What `__content__proto` has collected. -/
structure Collected extends SipPayloads where
  content : List Body := []

/-- Set a payload. -/
def Collected.set (s : Collected) : PayloadValue → Collected
  | .sdp v => { s with sdp := some v }
  | .vfu v => { s with vfu := some v }
  | .dtmf v => { s with dtmf := some v }
  | .pidf v => { s with pidf := some v }
  | .rl v => { s with rl := some v }

/-- One of the five blocks: a body of this content type is taken out when the payload is not set
yet and can be read. -/
def takePayload (ct : Option ContentType) (body : Body) (s : Collected) (k : Payload) :
    Option Collected :=
  if contentEqual ct k.contentType ∧ (s.value k).isNone then
    (readPayload osip xml body k).map s.set
  else none

/-- One turn of the loop of `__content__proto`: the blocks are tried in order, and a body none of
them takes joins the others, in front. -/
def contentStep (messageType : Option ContentType) (body : Body) (s : Collected) : Collected :=
  match Payload.all.findSome? (takePayload osip xml (partType messageType body) body s) with
  | some s => s
  | none => { s with content := body :: s.content }

/-- The loop, from the last body to the first. -/
def collect (messageType : Option ContentType) (bodies : List Body) : Collected :=
  bodies.foldr (contentStep osip xml messageType) {}

end Proto

/-- `__binary__proto`. -/
def binaryProto (data : Str) (length : ℕ) : Str := data.take length

/-- `sip__type__content__proto`. -/
def contentProto (q : Body) : Option SipContent := do
  let contentType ← partProto contentTypeProto q.contentType
  let headers ← arrayProto pairProto q.headers
  some { contentType, headers, body := binaryProto q.body q.length }

/-- `sip__type__content__unproto`: the bytes, and nothing else. -/
def contentUnproto (p : SipContent) : Body := { body := p.body, length := p.body.length }

/-! ### The writers -/

/-- The text of an XML payload in the buffer of the message, and its length. -/
def xmlText (osip : OsipParser) (members : List PbMember) : Option (Str × ℕ) :=
  match xmlSeed (protobufCMessageToXml members) (osip.bodyMessageMaxSize - 1) (some 34) with
  | none => none
  | some buff => if 0 < buff.length then some (cstr buff, buff.length) else none

/-- The text of a payload and its recorded length, where it can be written. -/
def payloadText (osip : OsipParser) : PayloadValue → Option (Str × ℕ)
  | .sdp p => (osip.sdpMessageToStr (sdpUnproto p)).map fun s => (s, s.length)
  | .vfu p => xmlText osip p.members
  | .dtmf p => some (cstr (dtmfText p), (dtmfText p).length)
  | .pidf p => xmlText osip p.members
  | .rl p => xmlText osip p.members

/-- One block of `__content__unproto`: a payload that is set and can be written becomes the first
body, with a content type of its own when there are other parts already. -/
def addPayload (osip : OsipParser) (p : SipPayloads) (nContent : ℕ) (bodies : List Body)
    (k : Payload) : List Body :=
  match (p.value k).bind (payloadText osip) with
  | none => bodies
  | some (text, length) =>
      { body := text, length
        contentType :=
          if nContent ≠ 0 ∨ bodies.length ≠ 0 then osip.bodySetContenttype k.contentType
          else none } :: bodies

/-- `__content__unproto` on a message without bodies. -/
def contentBodies (osip : OsipParser) (p : SipPayloads) (content : List SipContent) : List Body :=
  arrayUnproto (Payload.all.foldl (addPayload osip p content.length) []) content contentUnproto

/-! ### What one body does -/

/-- The kind of a payload. -/
def PayloadValue.kind : PayloadValue → Payload
  | .sdp _ => .sdp
  | .vfu _ => .vfu
  | .dtmf _ => .dtmf
  | .pidf _ => .pidf
  | .rl _ => .rl

lemma SipPayloads.kind_of_value {s : SipPayloads} {k : Payload} {v : PayloadValue}
    (h : s.value k = some v) : v.kind = k := by
  cases k <;> (obtain ⟨w, _, rfl⟩ := Option.map_eq_some_iff.mp h; rfl)

@[simp] lemma Collected.set_content (s : Collected) (v : PayloadValue) :
    (s.set v).content = s.content := by
  cases v <;> rfl

/-- Setting a payload changes that payload only. -/
lemma Collected.set_value (s : Collected) (v : PayloadValue) (k : Payload) :
    (s.set v).value k = if k = v.kind then some v else s.value k := by
  cases v <;> cases k <;> rfl

section Step

variable {osip : OsipParser} {xml : XmlReader} {messageType : Option ContentType} {body : Body}
  {s : Collected}

lemma kind_of_readPayload {k : Payload} {v : PayloadValue}
    (h : readPayload osip xml body k = some v) : v.kind = k := by
  cases k with
  | sdp => obtain ⟨w, _, rfl⟩ := Option.map_eq_some_iff.mp h; rfl
  | vfu => cases h; rfl
  | dtmf => obtain ⟨w, _, rfl⟩ := Option.map_eq_some_iff.mp h; rfl
  | pidf => cases h; rfl
  | rl => cases h; rfl

/-- A body of none of the five types joins the others. -/
lemma contentStep_untyped
    (h : ∀ k : Payload, contentEqual (partType messageType body) k.contentType = false) :
    contentStep osip xml messageType body s = { s with content := body :: s.content } := by
  have hnone : Payload.all.findSome?
      (takePayload osip xml (partType messageType body) body s) = none := by
    rw [List.findSome?_eq_none_iff]
    intro k _
    simp [takePayload, h k]
  rw [contentStep, hnone]

/-- **A body of a type not seen before, that can be read, becomes that payload.** -/
lemma contentStep_typed {k : Payload} {v : PayloadValue}
    (hk : contentEqual (partType messageType body) k.contentType = true) (hs : s.value k = none)
    (hv : readPayload osip xml body k = some v) :
    contentStep osip xml messageType body s = s.set v := by
  have htake : takePayload osip xml (partType messageType body) body s k = some (s.set v) := by
    simp [takePayload, hk, hs, hv]
  have hother : ∀ j, j ≠ k → takePayload osip xml (partType messageType body) body s j = none := by
    intro j hj
    have : ¬ contentEqual (partType messageType body) j.contentType = true :=
      fun h => hj (contentEqual_payload h hk)
    simp [takePayload, this]
  have hfind : Payload.all.findSome? (takePayload osip xml (partType messageType body) body s) =
      some (s.set v) := by
    obtain ⟨t, ht⟩ : ∃ t, Payload.all.findSome?
        (takePayload osip xml (partType messageType body) body s) = some t := by
      rw [← Option.isSome_iff_exists, List.findSome?_isSome_iff]
      exact ⟨k, by simp, by simp [htake]⟩
    obtain ⟨j, -, hj⟩ := List.exists_of_findSome?_eq_some ht
    by_cases hjk : j = k
    · rw [hjk, htake] at hj
      rw [ht, ← hj]
    · rw [hother j hjk] at hj
      exact absurd hj (by simp)
  rw [contentStep, hfind]

variable (osip xml messageType body s) in
/-- A payload that one body brings in is of the body's type and was read from it. -/
lemma contentStep_value (k : Payload) :
    (contentStep osip xml messageType body s).value k = s.value k ∨
      contentEqual (partType messageType body) k.contentType = true ∧
        (readPayload osip xml body k).isSome := by
  rw [contentStep]
  split
  · rename_i t ht
    obtain ⟨j, -, hj⟩ := List.exists_of_findSome?_eq_some ht
    rw [takePayload] at hj
    split at hj
    · rename_i hct
      obtain ⟨v, hv, rfl⟩ := Option.map_eq_some_iff.mp hj
      rw [Collected.set_value]
      split
      · rename_i hk
        rw [hk, kind_of_readPayload hv]
        exact Or.inr ⟨hct.1, by simp [hv]⟩
      · exact Or.inl rfl
    · exact absurd hj (by simp)
  · exact Or.inl rfl

end Step

end SipEcho
