import SipEcho.Common.Libc

/-!
The parsed SIP message of the osip library, `osip_message_t` and the records it is made of, with
the fields the sources read or write.  A pointer that may be `NULL` is an `Option`, an
`osip_list_t` is a list.

`osip_to_t`, `osip_contact_t`, `osip_route_t` and `osip_record_route_t` are `osip_from_t`,
`osip_accept_t` is `osip_content_type_t`, the header families built on `osip_accept_encoding_t`
share one record, and `osip_header_t` is read as an `osip_generic_param_t` throughout, as the
sources do.
-/

namespace SipEcho

/-- `osip_generic_param_t`, `osip_uri_param_t`, `osip_header_t`. -/
structure GenericParam where
  gname : Option Str := none
  gvalue : Option Str := none
  deriving DecidableEq, Repr

/-- `osip_uri_t`. -/
structure Uri where
  scheme : Option Str := none
  username : Option Str := none
  password : Option Str := none
  host : Option Str := none
  port : Option Str := none
  urlParams : List GenericParam := []
  urlHeaders : List GenericParam := []
  string : Option Str := none
  deriving DecidableEq, Repr

/-- `osip_from_t`, and the address headers that are it. -/
structure From where
  displayname : Option Str := none
  url : Option Uri := none
  genParams : List GenericParam := []
  deriving DecidableEq, Repr

/-- `osip_call_id_t`. -/
structure CallId where
  number : Option Str := none
  host : Option Str := none
  deriving DecidableEq, Repr

/-- `osip_cseq_t`. -/
structure Cseq where
  method : Option Str := none
  number : Option Str := none
  deriving DecidableEq, Repr

/-- `osip_content_type_t`, `osip_accept_t`. -/
structure ContentType where
  type : Option Str := none
  subtype : Option Str := none
  genParams : List GenericParam := []
  deriving DecidableEq, Repr

/-- `osip_accept_encoding_t`, and the header families that are it. -/
structure AcceptEncoding where
  element : Option Str := none
  genParams : List GenericParam := []
  deriving DecidableEq, Repr

/-- `osip_allow_t`. -/
structure Allow where
  value : Option Str := none
  deriving DecidableEq, Repr

/-- `osip_via_t`. -/
structure Via where
  version : Option Str := none
  protocol : Option Str := none
  host : Option Str := none
  port : Option Str := none
  comment : Option Str := none
  viaParams : List GenericParam := []
  deriving DecidableEq, Repr

/-- `osip_authorization_t`. -/
structure Authorization where
  authType : Option Str := none
  username : Option Str := none
  realm : Option Str := none
  nonce : Option Str := none
  uri : Option Str := none
  response : Option Str := none
  digest : Option Str := none
  algorithm : Option Str := none
  cnonce : Option Str := none
  opaqueVal : Option Str := none
  messageQop : Option Str := none
  nonceCount : Option Str := none
  authParam : Option Str := none
  deriving DecidableEq, Repr

/-- `osip_www_authenticate_t`. -/
structure WwwAuthenticate where
  authType : Option Str := none
  realm : Option Str := none
  domain : Option Str := none
  nonce : Option Str := none
  opaqueVal : Option Str := none
  stale : Option Str := none
  algorithm : Option Str := none
  qopOptions : Option Str := none
  authParam : Option Str := none
  deriving DecidableEq, Repr

/-- `osip_authentication_info_t`. -/
structure AuthenticationInfo where
  nextnonce : Option Str := none
  qopOptions : Option Str := none
  rspauth : Option Str := none
  cnonce : Option Str := none
  nonceCount : Option Str := none
  deriving DecidableEq, Repr

/-- `osip_body_t`; the block holds `length` bytes. -/
structure Body where
  body : Str := []
  length : ℕ := 0
  headers : List GenericParam := []
  contentType : Option ContentType := none
  deriving DecidableEq, Repr

/-- `osip_message_t`. -/
structure Message where
  statusCode : ℤ := 0
  reasonPhrase : Option Str := none
  sipVersion : Option Str := none
  sipMethod : Option Str := none
  reqUri : Option Uri := none
  vias : List Via := []
  from_ : Option From := none
  to_ : Option From := none
  callId : Option CallId := none
  cseq : Option Cseq := none
  contentType : Option ContentType := none
  accepts : List ContentType := []
  acceptEncodings : List AcceptEncoding := []
  acceptLanguages : List AcceptEncoding := []
  alertInfos : List AcceptEncoding := []
  allows : List Allow := []
  callInfos : List AcceptEncoding := []
  contacts : List From := []
  contentEncodings : List AcceptEncoding := []
  errorInfos : List AcceptEncoding := []
  proxyAuthenticationInfos : List AuthenticationInfo := []
  proxyAuthorizations : List Authorization := []
  proxyAuthenticates : List WwwAuthenticate := []
  authenticationInfos : List AuthenticationInfo := []
  authorizations : List Authorization := []
  wwwAuthenticates : List WwwAuthenticate := []
  recordRoutes : List From := []
  routes : List From := []
  headers : List GenericParam := []
  bodies : List Body := []
  deriving DecidableEq, Repr

end SipEcho
