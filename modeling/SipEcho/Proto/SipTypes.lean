import SipEcho.Proto.Clone

/-!
The message types of `type.proto` and `message.proto`, and what `protobuf_c_message_clone` makes of
their messages.

* `MessageType`, `sipSchema`: the descriptors;
* `message_clone_faithful_iff`: **a copy is faithful exactly when nothing of the message is lost**:
  an enumeration or a byte string in it that is not as `message_init` leaves it is;
  `freeze_clone` is such a message;
* `clone_faithful_of_not_lossy`: the messages that hold neither are copied faithfully.
-/

namespace SipEcho

/-- The message types, those of `type.proto` first. -/
inductive MessageType where
  | cseq | callId | pair | encode | uri | address
  | authentication | authenticate | authorization | via | contentType | content
  | sdp | connection | bandwidth | time | key | attribute_ | media
  | vfu | mediaControl | vcPrimitive
  | dtmf
  | pidf | presence | tuple | status
  | rl | resource | list | entry
  | head | uuid | message
  deriving DecidableEq, Repr

section Fields

variable (name : String) (type : ProtobufCType MessageType)

/-- A `required` field. -/
def requiredField (default_ : Option PbDefault := none) : ProtobufCFieldDescriptor MessageType :=
  ⟨str name, .required, type, default_⟩

/-- An `optional` field. -/
def optionalField : ProtobufCFieldDescriptor MessageType := ⟨str name, .optional, type, none⟩

/-- A `repeated` field. -/
def repeatedField : ProtobufCFieldDescriptor MessageType := ⟨str name, .repeated, type, none⟩

end Fields

/-- The fields of a message, in the order of their numbers. -/
def MessageType.fields : MessageType → List (ProtobufCFieldDescriptor MessageType)
  | .cseq => [requiredField "method" .string, requiredField "number" .string]
  | .callId => [requiredField "number" .string, optionalField "host" .string]
  | .pair => [requiredField "name" .string, optionalField "value" .string]
  | .encode => [requiredField "element" .string, repeatedField "gen_params" (.message .pair)]
  | .uri =>
      [requiredField "scheme" .string, optionalField "username" .string,
        optionalField "password" .string, requiredField "host" .string,
        optionalField "port" .string, repeatedField "url_params" (.message .pair),
        repeatedField "url_headers" (.message .pair), optionalField "other" .string]
  | .address =>
      [optionalField "displayname" .string, optionalField "url" (.message .uri),
        repeatedField "gen_params" (.message .pair)]
  | .authentication =>
      [requiredField "nextnonce" .string, requiredField "qop_options" .string,
        requiredField "rspauth" .string, requiredField "cnonce" .string,
        requiredField "nonce_count" .string]
  | .authenticate =>
      [requiredField "auth_type" .string, requiredField "realm" .string,
        optionalField "domain" .string, optionalField "nonce" .string,
        optionalField "opaque" .string, optionalField "stale" .string,
        optionalField "algorithm" .string, optionalField "qop_options" .string,
        optionalField "auth_param" .string]
  | .authorization =>
      [requiredField "auth_type" .string, requiredField "username" .string,
        requiredField "realm" .string, requiredField "nonce" .string,
        requiredField "uri" .string, requiredField "response" .string,
        optionalField "digest" .string, optionalField "algorithm" .string,
        optionalField "cnonce" .string, optionalField "opaque" .string,
        optionalField "message_qop" .string, optionalField "nonce_count" .string,
        optionalField "auth_param" .string]
  | .via =>
      [requiredField "version" .string, requiredField "protocol" .string,
        requiredField "host" .string, optionalField "port" .string,
        optionalField "comment" .string, repeatedField "via_params" (.message .pair)]
  | .contentType =>
      [requiredField "type" .string, requiredField "subtype" .string,
        repeatedField "gen_params" (.message .pair)]
  | .content =>
      [requiredField "body" .bytes, optionalField "content_type" (.message .contentType),
        repeatedField "headers" (.message .pair)]
  | .connection =>
      [requiredField "c_nettype" .string, requiredField "c_addrtype" .string,
        requiredField "c_addr" .string, optionalField "c_addr_multicast_ttl" .string,
        optionalField "c_addr_multicast_int" .string]
  | .bandwidth => [requiredField "b_bwtype" .string, requiredField "b_bandwidth" .string]
  | .time =>
      [requiredField "t_start_time" .string, requiredField "t_stop_time" .string,
        repeatedField "r_repeats" .string]
  | .key => [requiredField "k_keytype" .string, optionalField "k_keydata" .string]
  | .attribute_ => [requiredField "a_att_field" .string, optionalField "a_att_value" .string]
  | .media =>
      [requiredField "m_media" .string, requiredField "m_port" .string,
        optionalField "m_number_of_port" .string, requiredField "m_proto" .string,
        repeatedField "m_payloads" .string, optionalField "i_info" .string,
        repeatedField "c_connections" (.message .connection),
        repeatedField "b_bandwidths" (.message .bandwidth),
        repeatedField "a_attributes" (.message .attribute_),
        optionalField "k_key" (.message .key)]
  | .sdp =>
      [requiredField "v_version" .string, requiredField "o_username" .string,
        requiredField "o_sess_id" .string, requiredField "o_sess_version" .string,
        requiredField "o_nettype" .string, requiredField "o_addrtype" .string,
        requiredField "o_addr" .string, optionalField "s_name" .string,
        optionalField "i_info" .string, optionalField "u_uri" .string,
        repeatedField "e_emails" .string, repeatedField "p_phones" .string,
        optionalField "c_connection" (.message .connection),
        repeatedField "b_bandwidths" (.message .bandwidth),
        repeatedField "t_descrs" (.message .time), optionalField "z_adjustments" .string,
        optionalField "k_key" (.message .key),
        repeatedField "a_attributes" (.message .attribute_),
        repeatedField "m_medias" (.message .media)]
  | .vcPrimitive =>
      -- `picture_fast_update`, the first of the enumeration
      [requiredField "to_encoder" (.enum 0), repeatedField "stream_id" .string]
  | .mediaControl => [repeatedField "vc_primitive" (.message .vcPrimitive)]
  | .vfu => [requiredField "media_control" (.message .mediaControl)]
  | .dtmf =>
      [requiredField "signal" (.scalar .uint32),
        requiredField "duration" (.scalar .uint32) (some (.number 250))]
  | .status => [optionalField "basic" .string]
  | .tuple =>
      [requiredField "__id" .string (some (.text (str "1"))),
        requiredField "status" (.message .status), optionalField "contact" .string,
        repeatedField "note" .string, optionalField "timestamp" .string]
  | .presence =>
      [requiredField "__xmlns" .string (some (.text (str "urn:ietf:params:xml:ns:pidf"))),
        requiredField "__entity" .string, repeatedField "tuple" (.message .tuple)]
  | .pidf => [requiredField "presence" (.message .presence)]
  | .entry => [requiredField "__uri" .string, optionalField "display__name" .string]
  | .list =>
      [optionalField "__name" .string, optionalField "display__name" .string,
        repeatedField "entry" (.message .entry), repeatedField "list" (.message .list)]
  | .resource =>
      [requiredField "__xmlns" .string
          (some (.text (str "urn:ietf:params:xml:ns:resource-lists"))),
        requiredField "__xmlns___xsi" .string
          (some (.text (str "http://www.w3.org/2001/XMLSchema-instance"))),
        repeatedField "list" (.message .list)]
  | .rl => [requiredField "resource__lists" (.message .resource)]
  | .head =>
      [requiredField "version" .string, requiredField "from" (.message .address),
        requiredField "to" (.message .address), requiredField "call_id" (.message .callId),
        requiredField "cseq" (.message .cseq), repeatedField "accept" (.message .contentType),
        repeatedField "accept_encoding" (.message .encode),
        repeatedField "accept_language" (.message .encode),
        repeatedField "alert_info" (.message .encode), repeatedField "allow" .string,
        repeatedField "call_info" (.message .encode),
        repeatedField "contact" (.message .address),
        repeatedField "content_encoding" (.message .encode),
        repeatedField "error_info" (.message .encode),
        repeatedField "proxy_authentication" (.message .authentication),
        repeatedField "proxy_authorization" (.message .authorization),
        repeatedField "proxy_authenticate" (.message .authenticate),
        repeatedField "authentication" (.message .authentication),
        repeatedField "authorization" (.message .authorization),
        repeatedField "authenticate" (.message .authenticate),
        repeatedField "record_route" (.message .address),
        repeatedField "route" (.message .address), repeatedField "via" (.message .via),
        repeatedField "other" (.message .pair),
        optionalField "content_type" (.message .contentType)]
  | .uuid => [requiredField "upper" (.scalar .uint64), requiredField "lower" (.scalar .uint64)]
  | .message =>
      [requiredField "id" (.message .uuid), requiredField "response" (.scalar .int32),
        optionalField "request" (.message .uri), requiredField "head" (.message .head),
        repeatedField "content" (.message .content), optionalField "sdp" (.message .sdp),
        optionalField "vfu" (.message .vfu), optionalField "dtmf" (.message .dtmf),
        optionalField "pidf" (.message .pidf), optionalField "rl" (.message .rl)]

/-- The descriptors of both files. -/
def sipSchema : Schema MessageType where
  fields := MessageType.fields
  plain := by
    intro d
    cases d <;>
      simp [MessageType.fields, requiredField, optionalField, repeatedField,
        ProtobufCFieldDescriptor.Plain]

/-! ### The copies -/

/-- **`protobuf_c_message_clone` is faithful exactly of the messages of which nothing is lost.** -/
theorem message_clone_faithful_iff (low : MessageType → ℕ) (call : CloneCall sipSchema low) :
    call.Faithful ↔ CellClonable sipSchema low (.message call.type) call.tree :=
  call.faithful_iff

/-- The types that hold an enumeration or bytes, at some depth. -/
def MessageType.Lossy : MessageType → Prop
  | .message | .content | .vfu | .mediaControl | .vcPrimitive => True
  | _ => False

/-- No other type leads to these. -/
lemma within_of_not_lossy {d : MessageType} (h : ¬ d.Lossy) :
    ∀ f ∈ sipSchema.fields d, f.type.Within fun e => ¬ e.Lossy := by
  cases d <;>
    simp_all [sipSchema, MessageType.fields, MessageType.Lossy, requiredField, optionalField,
      repeatedField, ProtobufCType.Within]

/-- **A message of any other type is copied faithfully**, an address or a call id among them, when
no descriptor lies at a multiple of 2^32. -/
theorem clone_faithful_of_not_lossy {low : MessageType → ℕ} (hlow : ∀ d, low d ≠ 0)
    (call : CloneCall sipSchema low) (h : ¬ call.type.Lossy) : call.Faithful :=
  call.faithful_iff.mpr (cellClonable_of_within (R := fun d : MessageType => ¬ d.Lossy)
    (fun d hd => ⟨hlow d, within_of_not_lossy hd⟩) (.message call.type) h call.tree)

/-- A `picture_freeze`, and room for its copy behind it. -/
def freezeCall : CloneCall sipSchema fun _ => 1 where
  heap := [.message .vcPrimitive 1 [⟨.word 1, 0⟩, ⟨.pointer .null, 0⟩], .text []]
  to_ := 1
  from_ := 0
  type := .vcPrimitive
  tree := .message [[.word 1], []]
  room := by decide
  holds := by
    refine .message (by decide) rfl (.cons ?_ (.single .enum) (.cons ?_ .nil .nil))
    · rfl
    · exact ⟨rfl, fun hne => absurd rfl hne⟩

/-- The copy of it is a `picture_fast_update`. -/
theorem freeze_clone : protobufCMessageClone sipSchema (fun _ => 1) 1 freezeCall.heap 1 0 =
    .ok [.message .vcPrimitive 1 [⟨.word 1, 0⟩, ⟨.pointer .null, 0⟩],
      .message .vcPrimitive 1 [⟨.word 0, 0⟩, ⟨.pointer .null, 0⟩]] ∧ ¬ freezeCall.Faithful := by
  refine ⟨rfl, fun h => ?_⟩
  rw [freezeCall.faithful_iff] at h
  exact absurd (show 1 = 0 from h.2.1.1) (by decide)

end SipEcho
