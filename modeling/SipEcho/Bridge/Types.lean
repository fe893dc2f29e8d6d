import SipEcho.Common.Libc

/-!
The records of the bus, `Sip__Message` and what it is made of, as protobuf-c lays them out for
`type.proto` and `message.proto`.  A `char *` or a pointer to a record is an `Option`, required
or not; a repeated field is a list, and its elements are never `NULL`.  In the payloads that
travel as XML what `type.proto` requires is there.
-/

namespace SipEcho

/-- `Sip__Type__Pair`. -/
structure SipPair where
  name : Option Str := none
  value : Option Str := none
  deriving DecidableEq, Repr

/-- `Sip__Type__Uri`. -/
structure SipUri where
  scheme : Option Str := none
  username : Option Str := none
  password : Option Str := none
  host : Option Str := none
  port : Option Str := none
  urlParams : List SipPair := []
  urlHeaders : List SipPair := []
  other : Option Str := none
  deriving DecidableEq, Repr

/-- `Sip__Type__Address`. -/
structure SipAddress where
  displayname : Option Str := none
  url : Option SipUri := none
  genParams : List SipPair := []
  deriving DecidableEq, Repr

/-- `Sip__Type__CallId`. -/
structure SipCallId where
  number : Option Str := none
  host : Option Str := none
  deriving DecidableEq, Repr

/-- `Sip__Type__Cseq`. -/
structure SipCseq where
  method : Option Str := none
  number : Option Str := none
  deriving DecidableEq, Repr

/-- `Sip__Type__ContentType`. -/
structure SipContentType where
  type : Option Str := none
  subtype : Option Str := none
  genParams : List SipPair := []
  deriving DecidableEq, Repr

/-- `Sip__Type__Encode`. -/
structure SipEncode where
  element : Option Str := none
  genParams : List SipPair := []
  deriving DecidableEq, Repr

/-- `Sip__Type__Via`. -/
structure SipVia where
  version : Option Str := none
  protocol : Option Str := none
  host : Option Str := none
  port : Option Str := none
  comment : Option Str := none
  viaParams : List SipPair := []
  deriving DecidableEq, Repr

/-- `Sip__Type__Authorization`. -/
structure SipAuthorization where
  authType : Option Str := none
  username : Option Str := none
  realm : Option Str := none
  nonce : Option Str := none
  uri : Option Str := none
  response : Option Str := none
  digest : Option Str := none
  algorithm : Option Str := none
  cnonce : Option Str := none
  opaqueVal : Option Str := none
  messageQop : Option Str := none
  nonceCount : Option Str := none
  authParam : Option Str := none
  deriving DecidableEq, Repr

/-- `Sip__Type__Authenticate`. -/
structure SipAuthenticate where
  authType : Option Str := none
  realm : Option Str := none
  domain : Option Str := none
  nonce : Option Str := none
  opaqueVal : Option Str := none
  stale : Option Str := none
  algorithm : Option Str := none
  qopOptions : Option Str := none
  authParam : Option Str := none
  deriving DecidableEq, Repr

/-- `Sip__Type__Authentication`. -/
structure SipAuthentication where
  nextnonce : Option Str := none
  qopOptions : Option Str := none
  rspauth : Option Str := none
  cnonce : Option Str := none
  nonceCount : Option Str := none
  deriving DecidableEq, Repr

/-- `Sip__Type__Content`. -/
structure SipContent where
  body : Str := []
  contentType : Option SipContentType := none
  headers : List SipPair := []
  deriving DecidableEq, Repr

/-- `Sip__Head`. -/
structure SipHead where
  version : Option Str := none
  from_ : Option SipAddress := none
  to_ : Option SipAddress := none
  callId : Option SipCallId := none
  cseq : Option SipCseq := none
  accept : List SipContentType := []
  acceptEncoding : List SipEncode := []
  acceptLanguage : List SipEncode := []
  alertInfo : List SipEncode := []
  allow : List Str := []
  callInfo : List SipEncode := []
  contact : List SipAddress := []
  contentEncoding : List SipEncode := []
  errorInfo : List SipEncode := []
  proxyAuthentication : List SipAuthentication := []
  proxyAuthorization : List SipAuthorization := []
  proxyAuthenticate : List SipAuthenticate := []
  authentication : List SipAuthentication := []
  authorization : List SipAuthorization := []
  authenticate : List SipAuthenticate := []
  recordRoute : List SipAddress := []
  route : List SipAddress := []
  via : List SipVia := []
  other : List SipPair := []
  contentType : Option SipContentType := none
  deriving DecidableEq, Repr

/-- `Sip__UUID`, and a `uuid_t`: the two words `memcpy` moves at once. -/
structure Uuid where
  upper : UInt64
  lower : UInt64
  deriving DecidableEq, Repr

/-- `To_encoder` of `Sip__Type__Vfu`. -/
inductive SipToEncoder where
  | pictureFastUpdate | pictureFreeze
  deriving DecidableEq, Repr

/-- `Vc_primitive`. -/
structure SipVcPrimitive where
  toEncoder : SipToEncoder
  streamId : List Str := []
  deriving DecidableEq, Repr

/-- `Sip__Type__Vfu`, with its `Media_control`. -/
structure SipVfu where
  mediaControl : List SipVcPrimitive := []
  deriving DecidableEq, Repr

/-- `Tuple` of `Sip__Type__Pidf`, with the `basic` of its `Status`. -/
structure SipTuple where
  id : Str
  basic : Option Str := none
  contact : Option Str := none
  note : List Str := []
  timestamp : Option Str := none
  deriving DecidableEq, Repr

/-- `Sip__Type__Pidf`, with its `Presence`. -/
structure SipPidf where
  xmlns : Str
  entity : Str
  tuple : List SipTuple := []
  deriving DecidableEq, Repr

/-- `Entry` of a resource list. -/
structure SipEntry where
  uri : Str
  displayName : Option Str := none
  deriving DecidableEq, Repr

/-- `List` of `Sip__Type__Rl`: the name, the display name, the entries, the lists inside. -/
inductive SipList where
  | mk (name displayName : Option Str) (entry : List SipEntry) (list : List SipList)

/-- `Sip__Type__Rl`, with its `Resource`. -/
structure SipRl where
  xmlns : Str
  xmlnsXsi : Str
  list : List SipList := []

/-- `Sip__Type__Dtmf`, its two `uint32` fields. -/
structure SipDtmf where
  signal : UInt32
  duration : UInt32
  deriving DecidableEq, Repr

end SipEcho
