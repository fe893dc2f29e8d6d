import SipEcho.Lib.RoundTrip
import SipEcho.Osip.Message
import SipEcho.Bridge.Types

/-!
The header bridge: every header family of an osip message to the record of the bus and back, and
the two tables that apply the converters, `headProto` and `headUnproto`.

No allocation fails here, so a converter answers `NULL` for `NULL` and where the source says so,
which is for an `Allow` without a value only.

* `OsipQuote`, `OsipQuote.Documented`: the two osip functions on quoted strings and what is known
  of them;
* `SipBit`, `hasBit`: which headers a bit set asks for; the full set asks for all;
* `*_restores`: one fact for each converter;
* `headProto_unproto`: the two tables name the same families.
-/

namespace SipEcho

open Lib

/-! ### Strings -/

/-- osip's functions on quoted strings. -/
structure OsipQuote where
  /-- `osip_enquote` -/
  enquote : Str → Str
  /-- `osip_strdup_without_quote` -/
  strdupWithoutQuote : Str → Str

/-- No quote, backslash or line break. -/
def Plain (s : Str) : Prop := ∀ c ∈ s, c ≠ 34 ∧ c ≠ 92 ∧ c ≠ 10 ∧ c ≠ 13

instance (s : Str) : Decidable (Plain s) :=
  List.decidableBAll (fun c => c ≠ 34 ∧ c ≠ 92 ∧ c ≠ 10 ∧ c ≠ 13) s

/-- On plain strings the one adds the surrounding quotes and the other removes them. -/
structure OsipQuote.Documented (osip : OsipQuote) : Prop where
  enquote : ∀ s, Plain s → osip.enquote s = 34 :: (s ++ [34])
  unquote_quoted : ∀ s, Plain s → osip.strdupWithoutQuote (34 :: (s ++ [34])) = s
  unquote : ∀ s, Plain s → osip.strdupWithoutQuote s = s

/-- Every string of the list that is there is plain. -/
def AllPlain (l : List (Option Str)) : Prop := ∀ o ∈ l, ∀ s, o = some s → Plain s

lemma allPlain_iff {l : List (Option Str)} : AllPlain l ↔ ∀ o ∈ l, Plain (o.getD []) := by
  constructor
  · intro h o ho
    cases o with
    | none => exact fun c hc => absurd hc (by simp)
    | some s => exact h _ ho s rfl
  · rintro h o ho s rfl
    exact h _ ho

instance (l : List (Option Str)) : Decidable (AllPlain l) := decidable_of_iff _ allPlain_iff.symm

section Quote

variable {osip : OsipQuote} (hosip : osip.Documented)
include hosip

lemma unquote_enquote {o : Option Str} (h : ∀ s, o = some s → Plain s) :
    (o.map osip.enquote).map osip.strdupWithoutQuote = o := by
  cases o with
  | none => rfl
  | some s =>
      have hs := h s rfl
      simp [hosip.enquote s hs, hosip.unquote_quoted s hs]

lemma unquote_plain {o : Option Str} (h : ∀ s, o = some s → Plain s) :
    o.map osip.strdupWithoutQuote = o := by
  cases o with
  | none => rfl
  | some s => simp [hosip.unquote s (h s rfl)]

end Quote

/-! ### Lists -/

/-- `__array__proto`. -/
def arrayProto {α β : Type} (call : α → Option β) (l : List α) : Option (List β) :=
  readList call l

/-- `__array__unproto`. -/
def arrayUnproto {α β : Type} (l : List α) (a : List β) (call : β → α) : List α :=
  l ++ a.map call

/-- A part that may be absent, converted by a caller that asks whether a conversion failed. -/
def partProto {α β : Type} (call : α → Option β) : Option α → Option (Option β)
  | none => some none
  | some a => (call a).map some

lemma arrayProto_unproto {α β : Type} {P : β → Prop} {uncall : β → α} {call : α → Option β}
    (h : Restores P uncall call) {a : List β} (ha : ∀ b ∈ a, P b) :
    arrayProto call (arrayUnproto [] a uncall) = some a :=
  h.list a ha

/-! ### Converters that copy -/

/-- `sip__type__pair__proto`, and `other`, `via_params`, `headers`, `gen_params`, `url_params`,
`url_headers`. -/
def pairProto (q : GenericParam) : Option SipPair := some { name := q.gname, value := q.gvalue }

/-- `sip__type__pair__unproto`. -/
def pairUnproto (p : SipPair) : GenericParam := { gname := p.name, gvalue := p.value }

lemma pair_restores : Restores (fun _ => True) pairUnproto pairProto := fun _ _ => rfl

/-- The parameters of a record come back. -/
lemma pairs_restored (a : List SipPair) :
    arrayProto pairProto (arrayUnproto [] a pairUnproto) = some a :=
  arrayProto_unproto pair_restores fun _ _ => trivial

/-- `sip__type__call_id__proto`. -/
def callIdProto (q : CallId) : Option SipCallId := some { number := q.number, host := q.host }

/-- `sip__type__call_id__unproto`. -/
def callIdUnproto (p : SipCallId) : CallId := { host := p.host, number := p.number }

lemma callId_restores : Restores (fun _ => True) callIdUnproto callIdProto := fun _ _ => rfl

/-- `sip__type__cseq__proto`. -/
def cseqProto (q : Cseq) : Option SipCseq := some { method := q.method, number := q.number }

/-- `sip__type__cseq__unproto`. -/
def cseqUnproto (p : SipCseq) : Cseq := { method := p.method, number := p.number }

lemma cseq_restores : Restores (fun _ => True) cseqUnproto cseqProto := fun _ _ => rfl

/-- `sip__type__uri__proto`. -/
def uriProto (q : Uri) : Option SipUri := do
  let urlHeaders ← arrayProto pairProto q.urlHeaders
  let urlParams ← arrayProto pairProto q.urlParams
  some
    { scheme := q.scheme, username := q.username, password := q.password, host := q.host
      port := q.port, other := q.string, urlHeaders, urlParams }

/-- `sip__type__uri__unproto`. -/
def uriUnproto (p : SipUri) : Uri :=
  { host := p.host, password := p.password, port := p.port, scheme := p.scheme
    string := p.other, username := p.username
    urlHeaders := arrayUnproto [] p.urlHeaders pairUnproto
    urlParams := arrayUnproto [] p.urlParams pairUnproto }

lemma uri_restores : Restores (fun _ => True) uriUnproto uriProto := by
  intro p _
  simp [uriProto, uriUnproto, pairs_restored]

/-- `sip__type__content_type__proto`, and `accept`. -/
def contentTypeProto (q : ContentType) : Option SipContentType := do
  let genParams ← arrayProto pairProto q.genParams
  some { type := q.type, subtype := q.subtype, genParams }

/-- `sip__type__content_type__unproto`, and `accept`. -/
def contentTypeUnproto (p : SipContentType) : ContentType :=
  { type := p.type, subtype := p.subtype
    genParams := arrayUnproto [] p.genParams pairUnproto }

lemma contentType_restores : Restores (fun _ => True) contentTypeUnproto contentTypeProto := by
  intro p _
  simp [contentTypeProto, contentTypeUnproto, pairs_restored]

/-- `sip__type__encode__proto`, and `accept_encoding`, `accept_language`, `alert_info`,
`call_info`, `error_info`, `content_encoding`. -/
def encodeProto (q : AcceptEncoding) : Option SipEncode := do
  let genParams ← arrayProto pairProto q.genParams
  some { element := q.element, genParams }

/-- `sip__type__encode__unproto`. -/
def encodeUnproto (p : SipEncode) : AcceptEncoding :=
  { element := p.element, genParams := arrayUnproto [] p.genParams pairUnproto }

lemma encode_restores : Restores (fun _ => True) encodeUnproto encodeProto := by
  intro p _
  simp [encodeProto, encodeUnproto, pairs_restored]

/-- `sip__type__via__proto`. -/
def viaProto (q : Via) : Option SipVia := do
  let viaParams ← arrayProto pairProto q.viaParams
  some
    { host := q.host, port := q.port, protocol := q.protocol, version := q.version
      comment := q.comment, viaParams }

/-- `sip__type__via__unproto`. -/
def viaUnproto (p : SipVia) : Via :=
  { comment := p.comment, host := p.host, port := p.port, protocol := p.protocol
    version := p.version, viaParams := arrayUnproto [] p.viaParams pairUnproto }

lemma via_restores : Restores (fun _ => True) viaUnproto viaProto := by
  intro p _
  simp [viaProto, viaUnproto, pairs_restored]

/-! ### Converters that quote -/

section Quoting

variable (osip : OsipQuote)

/-- `sip__type__allow__proto`. -/
def allowProto (q : Allow) : Option Str := q.value.map osip.strdupWithoutQuote

/-- `sip__type__allow__unproto`, which takes quotes off like the way out. -/
def allowUnproto (p : Str) : Allow := { value := some (osip.strdupWithoutQuote p) }

/-- `sip__type__address__proto`, and `contact`, `record_route`, `route`. -/
def addressProto (q : From) : Option SipAddress := do
  let genParams ← arrayProto pairProto q.genParams
  some
    { displayname := q.displayname.map osip.strdupWithoutQuote
      url := q.url.bind uriProto, genParams }

/-- `sip__type__address__unproto`. -/
def addressUnproto (p : SipAddress) : From :=
  { displayname := p.displayname.map osip.enquote
    url := p.url.map uriUnproto
    genParams := arrayUnproto [] p.genParams pairUnproto }

/-- `sip__type__authorization__proto`, and `proxy_authorization`. -/
def authorizationProto (q : Authorization) : Option SipAuthorization :=
  let unquote := Option.map osip.strdupWithoutQuote
  some
    { algorithm := unquote q.algorithm
      authParam := unquote q.authParam
      authType := unquote q.authType
      cnonce := unquote q.cnonce
      digest := unquote q.digest
      messageQop := unquote q.messageQop
      nonce := unquote q.nonce
      nonceCount := unquote q.nonceCount
      opaqueVal := unquote q.opaqueVal
      realm := unquote q.realm
      response := unquote q.response
      uri := unquote q.uri
      username := unquote q.username }

/-- `sip__type__authorization__unproto`. -/
def authorizationUnproto (p : SipAuthorization) : Authorization :=
  let enquote := Option.map osip.enquote
  { algorithm := p.algorithm
    authParam := p.authParam
    authType := p.authType
    cnonce := enquote p.cnonce
    digest := p.digest
    messageQop := enquote p.messageQop
    nonce := enquote p.nonce
    nonceCount := p.nonceCount
    opaqueVal := enquote p.opaqueVal
    realm := enquote p.realm
    response := enquote p.response
    uri := enquote p.uri
    username := enquote p.username }

/-- `sip__type__authenticate__proto`, and `proxy_authenticate`. -/
def authenticateProto (q : WwwAuthenticate) : Option SipAuthenticate :=
  let unquote := Option.map osip.strdupWithoutQuote
  some
    { algorithm := unquote q.algorithm
      authParam := unquote q.authParam
      authType := unquote q.authType
      domain := unquote q.domain
      nonce := unquote q.nonce
      opaqueVal := unquote q.opaqueVal
      qopOptions := unquote q.qopOptions
      realm := unquote q.realm
      stale := unquote q.stale }

/-- `sip__type__authenticate__unproto`. -/
def authenticateUnproto (p : SipAuthenticate) : WwwAuthenticate :=
  let enquote := Option.map osip.enquote
  { algorithm := p.algorithm
    authParam := p.authParam
    authType := p.authType
    domain := enquote p.domain
    nonce := enquote p.nonce
    opaqueVal := enquote p.opaqueVal
    qopOptions := enquote p.qopOptions
    realm := enquote p.realm
    stale := p.stale }

/-- `sip__type__authentication__proto`, and `proxy_authentication`. -/
def authenticationProto (q : AuthenticationInfo) : Option SipAuthentication :=
  let unquote := Option.map osip.strdupWithoutQuote
  some
    { cnonce := unquote q.cnonce
      nextnonce := unquote q.nextnonce
      nonceCount := unquote q.nonceCount
      qopOptions := unquote q.qopOptions
      rspauth := unquote q.rspauth }

/-- `sip__type__authentication__unproto`. -/
def authenticationUnproto (p : SipAuthentication) : AuthenticationInfo :=
  let enquote := Option.map osip.enquote
  { cnonce := enquote p.cnonce
    nextnonce := enquote p.nextnonce
    nonceCount := p.nonceCount
    qopOptions := enquote p.qopOptions
    rspauth := enquote p.rspauth }

end Quoting

/-- The strings of an address that go through quoting. -/
def SipAddress.quoted (p : SipAddress) : List (Option Str) := [p.displayname]

def SipAuthorization.quoted (p : SipAuthorization) : List (Option Str) :=
  [p.algorithm, p.authParam, p.authType, p.cnonce, p.digest, p.messageQop, p.nonce,
    p.nonceCount, p.opaqueVal, p.realm, p.response, p.uri, p.username]

def SipAuthenticate.quoted (p : SipAuthenticate) : List (Option Str) :=
  [p.algorithm, p.authParam, p.authType, p.domain, p.nonce, p.opaqueVal, p.qopOptions, p.realm,
    p.stale]

def SipAuthentication.quoted (p : SipAuthentication) : List (Option Str) :=
  [p.cnonce, p.nextnonce, p.nonceCount, p.qopOptions, p.rspauth]

section Restored

variable {osip : OsipQuote} (hosip : osip.Documented)
include hosip

lemma allow_restores : Restores Plain (allowUnproto osip) (allowProto osip) := by
  intro s hs
  simp [allowProto, allowUnproto, hosip.unquote s hs]

lemma address_restores :
    Restores (fun p => AllPlain p.quoted) (addressUnproto osip) (addressProto osip) := by
  intro p hp
  have hurl := uri_restores.option (o := p.url) fun _ _ => trivial
  have hname := unquote_enquote hosip (o := p.displayname) (hp _ (by simp [SipAddress.quoted]))
  simp only [addressProto, addressUnproto, pairs_restored, hurl, hname]
  rfl

lemma authorization_restores : Restores (fun p => AllPlain p.quoted) (authorizationUnproto osip)
    (authorizationProto osip) := by
  intro p hp
  have quoted := fun o ho => unquote_enquote hosip (hp o ho)
  have plain := fun o ho => unquote_plain hosip (hp o ho)
  simp only [SipAuthorization.quoted, List.forall_mem_cons] at quoted plain
  simp [authorizationProto, authorizationUnproto, quoted, plain, -Option.map_map]

lemma authenticate_restores : Restores (fun p => AllPlain p.quoted) (authenticateUnproto osip)
    (authenticateProto osip) := by
  intro p hp
  have quoted := fun o ho => unquote_enquote hosip (hp o ho)
  have plain := fun o ho => unquote_plain hosip (hp o ho)
  simp only [SipAuthenticate.quoted, List.forall_mem_cons] at quoted plain
  simp [authenticateProto, authenticateUnproto, quoted, plain, -Option.map_map]

lemma authentication_restores : Restores (fun p => AllPlain p.quoted)
    (authenticationUnproto osip) (authenticationProto osip) := by
  intro p hp
  have quoted := fun o ho => unquote_enquote hosip (hp o ho)
  have plain := fun o ho => unquote_plain hosip (hp o ho)
  simp only [SipAuthentication.quoted, List.forall_mem_cons] at quoted plain
  simp [authenticationProto, authenticationUnproto, quoted, plain, -Option.map_map]

end Restored

/-! ### Which headers -/

/-- The `SIP__BIT__*` enumeration, `URI` being `REQUEST` again. -/
inductive SipBit where
  | from_ | to_ | callid | cseq | method | request | response | reason | version | via | allow
  | content | contentType | authenticate | authentication | authorization | proxyAuthenticate
  | proxyAuthentication | proxyAuthorization | contact | recordRoute | route | contentEncoding
  | accept | acceptEncoding | acceptLanguage | alertInfo | callInfo | errorInfo | other
  deriving DecidableEq, Repr

/-- Its numbers. -/
def SipBit.index : SipBit → ℕ
  | .from_ => 0 | .to_ => 1 | .callid => 2 | .cseq => 3 | .method => 4 | .request => 5
  | .response => 6 | .reason => 7 | .version => 8 | .via => 9 | .allow => 10 | .content => 11
  | .contentType => 12 | .authenticate => 13 | .authentication => 14 | .authorization => 15
  | .proxyAuthenticate => 16 | .proxyAuthentication => 17 | .proxyAuthorization => 18
  | .contact => 19 | .recordRoute => 20 | .route => 21 | .contentEncoding => 22 | .accept => 23
  | .acceptEncoding => 24 | .acceptLanguage => 25 | .alertInfo => 26 | .callInfo => 27
  | .errorInfo => 28 | .other => 29

/-- `BITOF`. -/
def bitOf (b : SipBit) : ℕ := 1 <<< b.index

/-- The test `bitset & BIT`. -/
def hasBit (bitset : ℕ) (b : SipBit) : Bool := bitset &&& bitOf b ≠ 0

/-- `FULL_RESPONSE_BITSET`. -/
def fullResponseBitset : ℕ := 0xFFFFFFFF

/-- `FULL_REQUEST_BITSET`. -/
def fullRequestBitset : ℕ := 0xFFFFFFFF

lemma hasBit_full (b : SipBit) : hasBit fullRequestBitset b = true := by
  cases b <;> decide

/-! ### The two tables -/

/-- `sip__head__proto`. -/
def headProto (osip : OsipQuote) (m : Message) : Option SipHead := do
  let accept ← arrayProto contentTypeProto m.accepts
  let acceptEncoding ← arrayProto encodeProto m.acceptEncodings
  let acceptLanguage ← arrayProto encodeProto m.acceptLanguages
  let alertInfo ← arrayProto encodeProto m.alertInfos
  let callInfo ← arrayProto encodeProto m.callInfos
  let errorInfo ← arrayProto encodeProto m.errorInfos
  let contentEncoding ← arrayProto encodeProto m.contentEncodings
  let allow ← arrayProto (allowProto osip) m.allows
  let contact ← arrayProto (addressProto osip) m.contacts
  let proxyAuthenticate ← arrayProto (authenticateProto osip) m.proxyAuthenticates
  let proxyAuthentication ← arrayProto (authenticationProto osip) m.proxyAuthenticationInfos
  let proxyAuthorization ← arrayProto (authorizationProto osip) m.proxyAuthorizations
  let authenticate ← arrayProto (authenticateProto osip) m.wwwAuthenticates
  let authentication ← arrayProto (authenticationProto osip) m.authenticationInfos
  let authorization ← arrayProto (authorizationProto osip) m.authorizations
  let recordRoute ← arrayProto (addressProto osip) m.recordRoutes
  let route ← arrayProto (addressProto osip) m.routes
  let via ← arrayProto viaProto m.vias
  let other ← arrayProto pairProto m.headers
  some
    { version := m.sipVersion
      callId := m.callId.bind callIdProto
      cseq := m.cseq.bind cseqProto
      from_ := m.from_.bind (addressProto osip)
      to_ := m.to_.bind (addressProto osip)
      contentType := m.contentType.bind contentTypeProto
      accept, acceptEncoding, acceptLanguage, alertInfo, callInfo, errorInfo, contentEncoding,
      allow, contact, proxyAuthenticate, proxyAuthentication, proxyAuthorization, authenticate,
      authentication, authorization, recordRoute, route, via, other }

/-- `sip__head__unproto`. -/
def headUnproto (osip : OsipQuote) (m : Message) (p : SipHead) (bitset : ℕ) : Message :=
  let single {α : Type} (b : SipBit) (old new : α) : α := if hasBit bitset b then new else old
  let array {α β : Type} (b : SipBit) (l : List α) (a : List β) (call : β → α) : List α :=
    if hasBit bitset b then arrayUnproto l a call else l
  { m with
    sipVersion := single .version m.sipVersion p.version
    callId := single .callid m.callId (p.callId.map callIdUnproto)
    cseq := single .cseq m.cseq (p.cseq.map cseqUnproto)
    from_ := single .from_ m.from_ (p.from_.map (addressUnproto osip))
    to_ := single .to_ m.to_ (p.to_.map (addressUnproto osip))
    contentType := single .contentType m.contentType (p.contentType.map contentTypeUnproto)
    accepts := array .accept m.accepts p.accept contentTypeUnproto
    acceptEncodings := array .acceptEncoding m.acceptEncodings p.acceptEncoding encodeUnproto
    acceptLanguages := array .acceptLanguage m.acceptLanguages p.acceptLanguage encodeUnproto
    alertInfos := array .alertInfo m.alertInfos p.alertInfo encodeUnproto
    callInfos := array .callInfo m.callInfos p.callInfo encodeUnproto
    errorInfos := array .errorInfo m.errorInfos p.errorInfo encodeUnproto
    contentEncodings := array .contentEncoding m.contentEncodings p.contentEncoding encodeUnproto
    allows := array .allow m.allows p.allow (allowUnproto osip)
    contacts := array .contact m.contacts p.contact (addressUnproto osip)
    proxyAuthenticates :=
      array .proxyAuthenticate m.proxyAuthenticates p.proxyAuthenticate (authenticateUnproto osip)
    proxyAuthenticationInfos :=
      array .proxyAuthentication m.proxyAuthenticationInfos p.proxyAuthentication
        (authenticationUnproto osip)
    proxyAuthorizations :=
      array .proxyAuthorization m.proxyAuthorizations p.proxyAuthorization
        (authorizationUnproto osip)
    wwwAuthenticates :=
      array .authenticate m.wwwAuthenticates p.authenticate (authenticateUnproto osip)
    authenticationInfos :=
      array .authentication m.authenticationInfos p.authentication (authenticationUnproto osip)
    authorizations :=
      array .authorization m.authorizations p.authorization (authorizationUnproto osip)
    recordRoutes := array .recordRoute m.recordRoutes p.recordRoute (addressUnproto osip)
    routes := array .route m.routes p.route (addressUnproto osip)
    vias := array .via m.vias p.via viaUnproto
    headers := array .other m.headers p.other pairUnproto }

/-- The strings of a head that go through quoting, family by family, are plain. -/
structure SipHead.Quotable (p : SipHead) : Prop where
  from_ : ∀ a, p.from_ = some a → AllPlain a.quoted
  to_ : ∀ a, p.to_ = some a → AllPlain a.quoted
  allow : ∀ s ∈ p.allow, Plain s
  contact : ∀ a ∈ p.contact, AllPlain a.quoted
  proxyAuthentication : ∀ a ∈ p.proxyAuthentication, AllPlain a.quoted
  proxyAuthorization : ∀ a ∈ p.proxyAuthorization, AllPlain a.quoted
  proxyAuthenticate : ∀ a ∈ p.proxyAuthenticate, AllPlain a.quoted
  authentication : ∀ a ∈ p.authentication, AllPlain a.quoted
  authorization : ∀ a ∈ p.authorization, AllPlain a.quoted
  authenticate : ∀ a ∈ p.authenticate, AllPlain a.quoted
  recordRoute : ∀ a ∈ p.recordRoute, AllPlain a.quoted
  route : ∀ a ∈ p.route, AllPlain a.quoted

/-- A message whose headers are still to be filled in. -/
def Message.bare (m : Message) : Message :=
  { statusCode := m.statusCode, reasonPhrase := m.reasonPhrase, sipMethod := m.sipMethod
    reqUri := m.reqUri, bodies := m.bodies }

/-- **The two tables name the same families**: written into a bare message with the full set of
bits, a head is read back as it was. -/
lemma headProto_unproto {osip : OsipQuote} (hosip : osip.Documented) {p : SipHead}
    (hp : p.Quotable) (m : Message) :
    headProto osip (headUnproto osip m.bare p fullRequestBitset) = some p := by
  have address := address_restores hosip
  have authorization := authorization_restores hosip
  have authenticate := authenticate_restores hosip
  have authentication := authentication_restores hosip
  have encode : ∀ a, arrayProto encodeProto (arrayUnproto [] a encodeUnproto) = some a :=
    fun a => arrayProto_unproto encode_restores fun _ _ => trivial
  simp only [headProto, headUnproto, Message.bare, hasBit_full, if_true, encode, pairs_restored,
    arrayProto_unproto contentType_restores fun _ _ => trivial,
    arrayProto_unproto via_restores fun _ _ => trivial,
    arrayProto_unproto (allow_restores hosip) hp.allow,
    arrayProto_unproto address hp.contact,
    arrayProto_unproto address hp.recordRoute,
    arrayProto_unproto address hp.route,
    arrayProto_unproto authentication hp.proxyAuthentication,
    arrayProto_unproto authentication hp.authentication,
    arrayProto_unproto authorization hp.proxyAuthorization,
    arrayProto_unproto authorization hp.authorization,
    arrayProto_unproto authenticate hp.proxyAuthenticate,
    arrayProto_unproto authenticate hp.authenticate,
    address.option hp.from_, address.option hp.to_,
    callId_restores.option fun _ _ => trivial, cseq_restores.option fun _ _ => trivial,
    contentType_restores.option fun _ _ => trivial]
  rfl

end SipEcho
