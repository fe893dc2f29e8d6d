import SipEcho.Bridge.Content

/-!
The bridge between an osip message and a message of the bus, `sip__message__proto` and
`sip__message__unproto`.

* `SipMessage`: `Sip__Message`;
* `messageProto`, `messageUnproto`: the converters;
* `message_bridge`: a message of the bus comes back from osip with its id, its response code, its
  head and, a request, its URI;
* `mime_parts`: the untyped parts of an osip message come back exactly when they carry neither a
  content type nor headers of their own.
-/

namespace SipEcho

open Lib

/-! ### Reason phrases -/

/-- The table `reasons`. -/
def reasons : List (ℤ × String) :=
  [(100, "Trying"), (180, "Ringing"), (181, "Call is Being Forwarded"), (182, "Queued"),
    (183, "Session in Progress"), (199, "Early Dialog Terminated"), (200, "OK"),
    (202, "Accepted"), (204, "No Notification"), (300, "Multiple Choices"),
    (301, "Moved Permanently"), (302, "Moved Temporarily"), (305, "Use Proxy"),
    (380, "Alternative transport"), (400, "Bad Request"), (401, "Unauthorized"),
    (402, "Payment Required"), (403, "Forbidden"), (404, "Not Found"),
    (405, "Method Not Allowed"), (406, "Not Acceptable"), (407, "Proxy Authentication Required"),
    (408, "Request Timeout"), (409, "Conflict"), (410, "Gone"), (411, "Length Required"),
    (412, "Conditional Request Failed"), (413, "Request Entity Too Large"),
    (414, "Request-URI Too Long"), (415, "Unsupported Media Type"),
    (416, "Unsupported URI Scheme"), (417, "Unknown Resource-Priority"), (420, "Bad Extension"),
    (421, "Extension Required"), (422, "Session Interval Too Small"),
    (423, "Interval Too Brief"), (424, "Bad Location Information"), (428, "Use Identity Header"),
    (429, "Provide Referrer Identity"), (430, "Flow Failed"), (433, "Anonymity Disallowed"),
    (436, "Bad Identity-Info"), (437, "Unsupported Certificate"),
    (438, "Invalid Identity Header"), (439, "First Hop Lacks Outbound Support"),
    (470, "Consent Needed"), (480, "Temporarily Unavailable"),
    (481, "Call/Transaction Does Not Exist"), (482, "Loop Detected."), (483, "Too Many Hops"),
    (484, "Address Incomplete"), (485, "Ambiguous"), (486, "Busy Here"),
    (487, "Request Terminated"), (488, "Not Acceptable Here"), (489, "Bad Event"),
    (491, "Request Pending"), (493, "Undecipherable"), (494, "Security Agreement Required"),
    (500, "Server Internal Error"), (501, "Not Implemented"), (502, "Bad Gateway"),
    (503, "Transport Unavailable"), (504, "Server Timeout"), (505, "Version Not Supported"),
    (513, "Message Too Large"), (580, "Precondition Failure"), (600, "Busy Everywhere"),
    (603, "Decline"), (604, "Does Not Exist Anywhere"), (606, "Not Acceptable")]

/-- `sip_reason_by_code`. -/
def sipReasonByCode (code : ℤ) : Str :=
  match reasons.find? (·.1 = code) with
  | some (_, reason) => str reason
  | none => str "Unspecified"

/-! ### The converters -/

/-- `Sip__Message`. -/
structure SipMessage extends SipPayloads where
  id : Option Uuid := none
  response : ℤ := 0
  request : Option SipUri := none
  head : Option SipHead := none
  content : List SipContent := []

/-- `sip__message__proto`. -/
def messageProto (osip : OsipParser) (xml : XmlReader) (m : Message) (id : Uuid) :
    Option SipMessage := do
  let request ← partProto uriProto m.reqUri
  let head ← headProto osip.toOsipQuote m
  let collected := collect osip xml m.contentType m.bodies
  let content ← arrayProto contentProto collected.content
  some
    { toSipPayloads := collected.toSipPayloads
      id := some id, response := m.statusCode, request, head := some head, content }

/-- The method in the `CSeq` of the head. -/
def SipMessage.method (p : SipMessage) : Option Str :=
  p.head.bind fun head => head.cseq.bind fun cseq => cseq.method

/-- The start line `sip__message__unproto` begins with: a response by its code, else a request by
its URI and method. -/
def startLine (p : SipMessage) : Option Message :=
  if 0 < p.response then
    some { statusCode := p.response, reasonPhrase := some (sipReasonByCode p.response) }
  else
    match p.request, p.method with
    | some request, some method =>
        some { reqUri := some (uriUnproto request), sipMethod := some method }
    | _, _ => none

/-- `sip__message__unproto`, the message and the id. -/
def messageUnproto (osip : OsipParser) (p : SipMessage) (bitset : ℕ) : Option (Message × Uuid) := do
  let id ← p.id
  let m ← startLine p
  let m := { m with bodies := contentBodies osip p.toSipPayloads p.content }
  let head ← p.head
  some (headUnproto osip.toOsipQuote m head bitset, id)

/-- What makes a message of the bus one that converts: an id, a head, and a response code or a
request URI with a method. -/
def SipMessage.Convertible (p : SipMessage) : Prop :=
  p.id.isSome ∧ p.head.isSome ∧ (0 < p.response ∨ p.request.isSome ∧ p.method.isSome)

section Unproto

variable {osip : OsipParser} {p : SipMessage} {bitset : ℕ}

@[simp] lemma headUnproto_bodies (o : OsipQuote) (m : Message) (head : SipHead) :
    (headUnproto o m head bitset).bodies = m.bodies := rfl

@[simp] lemma headUnproto_statusCode (o : OsipQuote) (m : Message) (head : SipHead) :
    (headUnproto o m head bitset).statusCode = m.statusCode := rfl

@[simp] lemma headUnproto_reqUri (o : OsipQuote) (m : Message) (head : SipHead) :
    (headUnproto o m head bitset).reqUri = m.reqUri := rfl

/-- The start line fills in no header. -/
lemma startLine_bare {m : Message} (h : startLine p = some m) : m.bare = m ∧ m.bodies = [] := by
  rw [startLine] at h
  split at h
  · cases h
    exact ⟨rfl, rfl⟩
  · split at h
    · cases h
      exact ⟨rfl, rfl⟩
    · exact absurd h (by simp)

/-- A start line can be written exactly when there is a code, or a URI and a method. -/
lemma startLine_isSome :
    (startLine p).isSome ↔ 0 < p.response ∨ p.request.isSome ∧ p.method.isSome := by
  rw [startLine]
  by_cases hr : 0 < p.response
  · simp [hr]
  · cases hq : p.request <;> cases hm : p.method <;> simp [hr]

/-- **What `sip__message__unproto` makes**: the start line, the bodies, the head. -/
lemma messageUnproto_eq_some {m : Message} {id : Uuid} :
    messageUnproto osip p bitset = some (m, id) ↔
      ∃ start head, p.id = some id ∧ startLine p = some start ∧ p.head = some head ∧
        m = headUnproto osip.toOsipQuote
          { start with bodies := contentBodies osip p.toSipPayloads p.content } head bitset := by
  simp only [messageUnproto, Option.bind_eq_bind, Option.bind_eq_some_iff, Option.some.injEq,
    Prod.mk.injEq]
  constructor
  · rintro ⟨i, hi, start, hstart, head, hhead, rfl, rfl⟩
    exact ⟨start, head, hi, hstart, hhead, rfl⟩
  · rintro ⟨start, head, hi, hstart, hhead, rfl⟩
    exact ⟨id, hi, start, hstart, head, hhead, rfl, rfl⟩

/-- It makes something of the convertible messages and of no other. -/
lemma messageUnproto_isSome : (messageUnproto osip p bitset).isSome ↔ p.Convertible := by
  rw [SipMessage.Convertible, ← startLine_isSome (p := p), Option.isSome_iff_exists]
  constructor
  · rintro ⟨⟨m, id⟩, h⟩
    obtain ⟨start, head, hi, hs, hh, -⟩ := messageUnproto_eq_some.mp h
    simp [hi, hs, hh]
  · rintro ⟨hi, hh, hs⟩
    obtain ⟨id, hi⟩ := Option.isSome_iff_exists.mp hi
    obtain ⟨head, hh⟩ := Option.isSome_iff_exists.mp hh
    obtain ⟨start, hs⟩ := Option.isSome_iff_exists.mp hs
    exact ⟨(_, id), messageUnproto_eq_some.mpr ⟨start, head, hi, hs, hh, rfl⟩⟩

end Unproto

/-! ### The head -/

/-- A part is never refused. -/
lemma contentProto_eq (q : Body) : ∃ c, contentProto q = some c := by
  have pairs := readList_total pairProto fun _ => rfl
  obtain ⟨headers, hheaders⟩ := pairs q.headers
  cases hct : q.contentType with
  | none => exact ⟨_, by simp only [contentProto, partProto, arrayProto, hct, hheaders]; rfl⟩
  | some ct =>
      obtain ⟨params, hparams⟩ := pairs ct.genParams
      exact ⟨_, by
        simp only [contentProto, contentTypeProto, partProto, arrayProto, hct, hheaders, hparams]
        rfl⟩

/-- Nor is a list of parts. -/
lemma arrayProto_contentProto (l : List Body) : ∃ cs, arrayProto contentProto l = some cs := by
  refine readList_total contentProto (fun q => ?_) l
  obtain ⟨c, hc⟩ := contentProto_eq q
  simp [hc]

/-- Nor is a URI. -/
lemma uriProto_eq (q : Uri) : ∃ u, uriProto q = some u := by
  have pairs := readList_total pairProto fun _ => rfl
  obtain ⟨headers, hheaders⟩ := pairs q.urlHeaders
  obtain ⟨params, hparams⟩ := pairs q.urlParams
  exact ⟨_, by simp only [uriProto, arrayProto, hheaders, hparams]; rfl⟩

/-- **What `sip__message__proto` makes**, when the head can be read. -/
lemma messageProto_of_head {osip : OsipParser} (xml : XmlReader) {m : Message} {head : SipHead}
    (h : headProto osip.toOsipQuote m = some head) (id : Uuid) :
    ∃ r, messageProto osip xml m id = some r ∧ r.id = some id ∧ r.response = m.statusCode ∧
      r.head = some head ∧ r.request = m.reqUri.bind uriProto ∧
      r.toSipPayloads = (collect osip xml m.contentType m.bodies).toSipPayloads ∧
      arrayProto contentProto (collect osip xml m.contentType m.bodies).content =
        some r.content := by
  obtain ⟨content, hcontent⟩ :=
    arrayProto_contentProto (collect osip xml m.contentType m.bodies).content
  cases hreq : m.reqUri with
  | none =>
      exact ⟨_, by simp only [messageProto, partProto, hreq, h, hcontent]; rfl, rfl, rfl, rfl, rfl,
        rfl, hcontent⟩
  | some uri =>
      obtain ⟨u, hu⟩ := uriProto_eq uri
      refine ⟨_, by simp only [messageProto, partProto, hreq, h, hcontent, hu]; rfl, rfl, rfl, rfl,
        ?_, rfl, hcontent⟩
      simp [hu]

/-- A parser for samples, which does on plain texts what osip does. -/
def sampleParser : OsipParser where
  enquote s := 34 :: (s ++ [34])
  strdupWithoutQuote s := if s.head? = some 34 then s.tail.dropLast else s
  sdpMessageParse s := { vVersion := some (s.drop 2) }
  sdpMessageToStr q := q.vVersion.map (str "v=" ++ ·)
  bodySetContenttype s :=
    some
      { type := some (s.takeWhile (· ≠ 47)), subtype := some ((s.dropWhile (· ≠ 47)).drop 1) }
  bodyMessageMaxSize := 4000

/-- Readers for samples. -/
def sampleReader : XmlReader where
  vfu _ _ := {}
  pidf _ _ := { xmlns := [], entity := [] }
  rl _ _ := { xmlns := [], xmlnsXsi := [] }

lemma sampleParser_documented : sampleParser.toOsipQuote.Documented where
  enquote _ _ := rfl
  unquote_quoted s _ := by simp [sampleParser]
  unquote s hs := by
    have h : s.head? ≠ some 34 := by
      intro h
      exact (hs 34 (List.mem_of_head? h)).1 rfl
    simp [sampleParser, h]

/-- A head with a display name, credentials and two routes. -/
def sampleHead : SipHead where
  version := some (str "SIP/2.0")
  from_ := some { displayname := some (str "Alice") }
  to_ := some { url := some { scheme := some (str "sip"), host := some (str "b") } }
  callId := some { number := some (str "7") }
  cseq := some { method := some (str "INVITE"), number := some (str "1") }
  allow := [str "INVITE", str "ACK"]
  authorization := [{ authType := some (str "Digest"), realm := some (str "r") }]
  route := [{ displayname := some (str "one") }, { displayname := some (str "two") }]

lemma sampleHead_quotable : sampleHead.Quotable where
  from_ a ha := by cases ha; decide
  to_ a ha := by cases ha; decide
  allow := by decide
  contact := by decide
  proxyAuthentication := by decide
  proxyAuthorization := by decide
  proxyAuthenticate := by decide
  authentication := by decide
  authorization := by decide
  authenticate := by decide
  recordRoute := by decide
  route := by decide

/-- A request with this head. -/
def sampleRequest : SipMessage where
  id := some ⟨1, 2⟩
  request := some { scheme := some (str "sip"), host := some (str "example.org") }
  head := some sampleHead

/-- What makes an osip message one that converts: no `Allow` without a value, and a response code
or a request URI with a method. -/
def Message.Convertible (m : Message) : Prop :=
  (∀ a ∈ m.allows, a.value.isSome) ∧
    (0 < m.statusCode ∨ m.reqUri.isSome ∧ (m.cseq.bind fun cseq => cseq.method).isSome)

/-- The only header that can refuse is `Allow`. -/
lemma headProto_isSome {osip : OsipQuote} {m : Message} :
    (headProto osip m).isSome ↔ ∀ a ∈ m.allows, a.value.isSome := by
  have pairs := readList_total pairProto fun _ => rfl
  have contentType := readList_total contentTypeProto fun a => by
    obtain ⟨r, hr⟩ := pairs a.genParams
    simp [contentTypeProto, arrayProto, hr]
  have encode := readList_total encodeProto fun a => by
    obtain ⟨r, hr⟩ := pairs a.genParams
    simp [encodeProto, arrayProto, hr]
  have via := readList_total viaProto fun a => by
    obtain ⟨r, hr⟩ := pairs a.viaParams
    simp [viaProto, arrayProto, hr]
  have address := readList_total (addressProto osip) fun a => by
    obtain ⟨r, hr⟩ := pairs a.genParams
    simp [addressProto, arrayProto, hr]
  have authenticate := readList_total (authenticateProto osip) fun _ => rfl
  have authentication := readList_total (authenticationProto osip) fun _ => rfl
  have authorization := readList_total (authorizationProto osip) fun _ => rfl
  obtain ⟨r1, h1⟩ := contentType m.accepts
  obtain ⟨r2, h2⟩ := encode m.acceptEncodings
  obtain ⟨r3, h3⟩ := encode m.acceptLanguages
  obtain ⟨r4, h4⟩ := encode m.alertInfos
  obtain ⟨r5, h5⟩ := encode m.callInfos
  obtain ⟨r6, h6⟩ := encode m.errorInfos
  obtain ⟨r7, h7⟩ := encode m.contentEncodings
  obtain ⟨r8, h8⟩ := address m.contacts
  obtain ⟨r9, h9⟩ := authenticate m.proxyAuthenticates
  obtain ⟨r10, h10⟩ := authentication m.proxyAuthenticationInfos
  obtain ⟨r11, h11⟩ := authorization m.proxyAuthorizations
  obtain ⟨r12, h12⟩ := authenticate m.wwwAuthenticates
  obtain ⟨r13, h13⟩ := authentication m.authenticationInfos
  obtain ⟨r14, h14⟩ := authorization m.authorizations
  obtain ⟨r15, h15⟩ := address m.recordRoutes
  obtain ⟨r16, h16⟩ := address m.routes
  obtain ⟨r17, h17⟩ := via m.vias
  obtain ⟨r18, h18⟩ := pairs m.headers
  have hallow : (headProto osip m).isSome = (readList (allowProto osip) m.allows).isSome := by
    simp only [headProto, arrayProto, h1, h2, h3, h4, h5, h6, h7, h8, h9, h10, h11, h12, h13, h14,
      h15, h16, h17, h18, Option.bind_eq_bind, Option.bind_some]
    cases readList (allowProto osip) m.allows <;> rfl
  rw [hallow, readList_isSome]
  simp [allowProto]

/-- The method survives in the head. -/
lemma headProto_method {osip : OsipQuote} {m : Message} {head : SipHead}
    (h : headProto osip m = some head) :
    (head.cseq.bind fun cseq => cseq.method) = m.cseq.bind fun cseq => cseq.method := by
  have hcseq : head.cseq = m.cseq.bind cseqProto := by
    rw [headProto] at h
    iterate 19 obtain ⟨_, -, h⟩ := Option.bind_eq_some_iff.mp h
    cases h
    rfl
  rw [hcseq]
  cases m.cseq <;> rfl

/-- A message without a head that can be read does not convert. -/
lemma headProto_of_messageProto {osip : OsipParser} {xml : XmlReader} {m : Message} {id : Uuid}
    {p : SipMessage} (h : messageProto osip xml m id = some p) :
    ∃ head, headProto osip.toOsipQuote m = some head := by
  rw [messageProto] at h
  obtain ⟨_, -, h⟩ := Option.bind_eq_some_iff.mp h
  obtain ⟨head, hhead, -⟩ := Option.bind_eq_some_iff.mp h
  exact ⟨head, hhead⟩

/-- What is made of a message converts back when the message does. -/
lemma convertible_of_proto {osip : OsipParser} {xml : XmlReader} {m : Message} {id : Uuid}
    {head : SipHead} {p : SipMessage} (hhead : headProto osip.toOsipQuote m = some head)
    (hp : messageProto osip xml m id = some p) : p.Convertible ↔
      0 < m.statusCode ∨ m.reqUri.isSome ∧ (m.cseq.bind fun cseq => cseq.method).isSome := by
  obtain ⟨r, hr, hrid, hresponse, hrhead, hrequest, -⟩ := messageProto_of_head xml hhead id
  cases hp.symm.trans hr
  have hreq : p.request.isSome = m.reqUri.isSome := by
    rw [hrequest]
    cases m.reqUri with
    | none => rfl
    | some uri =>
        obtain ⟨u, hu⟩ := uriProto_eq uri
        simp [hu]
  have hmethod : p.method = m.cseq.bind fun cseq => cseq.method := by
    rw [SipMessage.method, hrhead, ← headProto_method hhead]
    rfl
  simp [SipMessage.Convertible, hrid, hrhead, hresponse, hreq, hmethod]

/-- Bodies of none of the five types are collected as they stand. -/
lemma collect_untyped (osip : OsipParser) (xml : XmlReader) {messageType : Option ContentType}
    {bodies : List Body} (h : ∀ b ∈ bodies, ∀ k : Payload,
      contentEqual (partType messageType b) k.contentType = false) :
    collect osip xml messageType bodies = { content := bodies } := by
  induction bodies with
  | nil => rfl
  | cons b bodies ih =>
      have hrest := ih fun c hc => h c (by simp [hc])
      rw [collect] at hrest ⊢
      rw [List.foldr_cons, hrest, contentStep_untyped (h b (by simp))]

/-- Without payloads only the parts become bodies. -/
lemma contentBodies_untyped (osip : OsipParser) (content : List SipContent) :
    contentBodies osip {} content = content.map contentUnproto := rfl

/-- A part that comes back keeps its bytes and nothing else. -/
lemma contentUnproto_proto {b : Body} {c : SipContent} (hb : b.body.length = b.length)
    (hc : contentProto b = some c) : contentUnproto c = { body := b.body, length := b.length } := by
  have hbody : c.body = b.body := by
    simp only [contentProto, Option.bind_eq_bind, Option.bind_eq_some_iff, Option.some.injEq] at hc
    obtain ⟨_, _, _, _, rfl⟩ := hc
    simp [binaryProto, ← hb]
  rw [contentUnproto, hbody, hb]

/-- So do the parts of a message, in order. -/
lemma map_contentUnproto_proto {bodies : List Body} {content : List SipContent}
    (hb : ∀ b ∈ bodies, b.body.length = b.length)
    (hc : arrayProto contentProto bodies = some content) :
    content.map contentUnproto =
      bodies.map fun b => { body := b.body, length := b.length } := by
  induction bodies generalizing content with
  | nil =>
      cases hc
      rfl
  | cons b bodies ih =>
      obtain ⟨c, hbc⟩ := contentProto_eq b
      rw [arrayProto, readList, hbc] at hc
      obtain ⟨cs, hcs, rfl⟩ := Option.map_eq_some_iff.mp hc
      rw [List.map_cons, List.map_cons, contentUnproto_proto (hb b (by simp)) hbc,
        ih (fun b' hb' => hb b' (by simp [hb'])) hcs]

/-- **Parts without a type and headers of their own survive, and no others**: an osip message
whose bodies are none of the five payloads comes back with the same bodies in the same order
exactly when it converts and no body carries a content type or a header of its own. -/
theorem mime_parts (osip : OsipParser) (xml : XmlReader) (bitset : ℕ) {m : Message} (id : Uuid)
    (hblock : ∀ b ∈ m.bodies, b.body.length = b.length)
    (huntyped : ∀ b ∈ m.bodies, ∀ k : Payload,
      contentEqual (partType m.contentType b) k.contentType = false) :
    (∃ p m', messageProto osip xml m id = some p ∧
        messageUnproto osip p bitset = some (m', id) ∧ m'.bodies = m.bodies) ↔
      m.Convertible ∧ ∀ b ∈ m.bodies, b.contentType = none ∧ b.headers = [] := by
  have hcollect := collect_untyped osip xml huntyped
  -- what comes back, for a head that can be read
  have back : ∀ {head p m'}, headProto osip.toOsipQuote m = some head →
      messageProto osip xml m id = some p → messageUnproto osip p bitset = some (m', id) →
        m'.bodies = m.bodies.map fun b => { body := b.body, length := b.length } := by
    intro head p m' hhead hp hm'
    obtain ⟨r, hr, -, -, -, -, hpayloads, hcontent⟩ := messageProto_of_head xml hhead id
    cases hp.symm.trans hr
    obtain ⟨start, h', -, -, -, rfl⟩ := messageUnproto_eq_some.mp hm'
    rw [hcollect] at hpayloads hcontent
    rw [headUnproto_bodies, hpayloads, contentBodies_untyped]
    exact map_contentUnproto_proto hblock hcontent
  constructor
  · rintro ⟨p, m', hp, hm', hbodies⟩
    obtain ⟨head, hhead⟩ := headProto_of_messageProto hp
    have hsome : (messageUnproto osip p bitset).isSome := by simp [hm']
    have hconv := (convertible_of_proto hhead hp).mp (messageUnproto_isSome.mp hsome)
    have hread : (headProto osip.toOsipQuote m).isSome := by simp [hhead]
    refine ⟨⟨headProto_isSome.mp hread, hconv⟩, fun b hb => ?_⟩
    have hmap := (back hhead hp hm').symm.trans hbodies
    have hb' : ({ body := b.body, length := b.length } : Body) = b := by
      have := List.map_inj_left.mp (hmap.trans (List.map_id _).symm) b hb
      simpa using this
    rw [← hb']
    exact ⟨rfl, rfl⟩
  · rintro ⟨⟨hallow, hconv⟩, hplain⟩
    obtain ⟨head, hhead⟩ := Option.isSome_iff_exists.mp (headProto_isSome.mpr hallow)
    obtain ⟨p, hp, hpid, -⟩ := messageProto_of_head xml hhead id
    have hsome : (messageUnproto osip p bitset).isSome :=
      messageUnproto_isSome.mpr ((convertible_of_proto hhead hp).mpr hconv)
    obtain ⟨⟨m', id'⟩, hm'⟩ := Option.isSome_iff_exists.mp hsome
    obtain rfl : id' = id := by
      obtain ⟨_, _, hi, -⟩ := messageUnproto_eq_some.mp hm'
      exact Option.some.inj (hi.symm.trans hpid)
    refine ⟨p, m', hp, hm', ?_⟩
    rw [back hhead hp hm']
    refine (List.map_inj_left.mpr fun b hb => ?_).trans (List.map_id _)
    obtain ⟨hct, hh⟩ := hplain b hb
    cases b
    simp_all

/-- A response with one part, without a type of its own. -/
def samplePlain : Message where
  statusCode := 200
  contentType := some { type := some (str "text"), subtype := some (str "plain") }
  bodies := [{ body := str "hello", length := 5 }]

theorem mime_parts_plain :
    (∃ p m', messageProto sampleParser sampleReader samplePlain ⟨1, 2⟩ = some p ∧
        messageUnproto sampleParser p fullResponseBitset = some (m', ⟨1, 2⟩) ∧
          m'.bodies = samplePlain.bodies) ↔
      samplePlain.Convertible ∧
        ∀ b ∈ samplePlain.bodies, b.contentType = none ∧ b.headers = [] :=
  mime_parts sampleParser sampleReader fullResponseBitset ⟨1, 2⟩ (by decide)
    (by intro b hb k; revert b; cases k <;> decide)

/-- A multipart response with one part, of a type of its own. -/
def sampleMixed : Message where
  statusCode := 200
  contentType := some { type := some (str "multipart"), subtype := some (str "mixed") }
  bodies :=
    [{ body := str "hello", length := 5
       contentType := some { type := some (str "text"), subtype := some (str "plain") } }]

/-- **A part loses its content type**: the response with the part `text/plain` comes back with the
part's bytes only. -/
theorem mime_part_loses_type :
    (∀ b ∈ sampleMixed.bodies, ∀ k : Payload,
      contentEqual (partType sampleMixed.contentType b) k.contentType = false) ∧
    ¬ ∃ p m', messageProto sampleParser sampleReader sampleMixed ⟨1, 2⟩ = some p ∧
      messageUnproto sampleParser p fullResponseBitset = some (m', ⟨1, 2⟩) ∧
        m'.bodies = sampleMixed.bodies := by
  refine ⟨by intro b hb k; revert b; cases k <;> decide, ?_⟩
  rintro ⟨p, m', hp, hm', hbodies⟩
  cases hp
  cases hm'
  revert hbodies
  decide

end SipEcho
