import SipEcho.Lib.Quoting
import SipEcho.Bridge.Message

/-!
Quoted strings across the bridge: display names and Digest parameters, which the way to the bus
takes out of their quotes, and which the way back puts into quotes or not, by a table of its own.

* `OsipQuote.Escapes`: the two functions of osip, on any string;
* `Message.requoted`, `Message.kept`: the display names and parameters of a message that come back
  in quotes, and those that do not;
* `relay`, `relays`: a message over the bridge and back, once and any number of times;
* `relays_requoted`, `relays_kept`: what becomes of these strings;
* `QuotesKept`: they always mean the same; `quotes_kept_iff`: **that is so exactly of a message
  with no quote and no backslash in the one, and no escape in the other**;
  `quoted_name_grows` is a display name that changes with every pass.
-/

namespace SipEcho

open Lib

/-- A string that stands for a token or a quoted string, as a value. -/
def stringValue (s : Str) : Str := meaning 34 92 s

/-- osip's functions on quoted strings: `osip_enquote` escapes quotes and backslashes,
`osip_strdup_without_quote` takes off the surrounding quotes only. -/
structure OsipQuote.Escapes (osip : OsipQuote) : Prop where
  enquote : ∀ s, osip.enquote s = enquoted 34 (escaped 34 92 s)
  unquote : ∀ s, osip.strdupWithoutQuote s = unquoted 34 s

/-! ### The strings -/

/-- The display name of an address. -/
def From.requoted (q : From) : List (Option Str) := [q.displayname]

/-- The parameters that come back in quotes. -/
def Authorization.requoted (q : Authorization) : List (Option Str) :=
  [q.cnonce, q.messageQop, q.nonce, q.opaqueVal, q.realm, q.response, q.uri, q.username]

/-- The parameters that come back without. -/
def Authorization.kept (q : Authorization) : List (Option Str) :=
  [q.algorithm, q.authParam, q.authType, q.digest, q.nonceCount]

def WwwAuthenticate.requoted (q : WwwAuthenticate) : List (Option Str) :=
  [q.domain, q.nonce, q.opaqueVal, q.qopOptions, q.realm]

def WwwAuthenticate.kept (q : WwwAuthenticate) : List (Option Str) :=
  [q.algorithm, q.authParam, q.authType, q.stale]

def AuthenticationInfo.requoted (q : AuthenticationInfo) : List (Option Str) :=
  [q.cnonce, q.nextnonce, q.qopOptions, q.rspauth]

def AuthenticationInfo.kept (q : AuthenticationInfo) : List (Option Str) := [q.nonceCount]

/-- **The display names and Digest parameters that come back in quotes.** -/
def Message.requoted (m : Message) : List (Option Str) :=
  m.from_.toList.flatMap From.requoted ++ m.to_.toList.flatMap From.requoted ++
    m.contacts.flatMap From.requoted ++ m.recordRoutes.flatMap From.requoted ++
    m.routes.flatMap From.requoted ++
    m.proxyAuthorizations.flatMap Authorization.requoted ++
    m.authorizations.flatMap Authorization.requoted ++
    m.proxyAuthenticates.flatMap WwwAuthenticate.requoted ++
    m.wwwAuthenticates.flatMap WwwAuthenticate.requoted ++
    m.proxyAuthenticationInfos.flatMap AuthenticationInfo.requoted ++
    m.authenticationInfos.flatMap AuthenticationInfo.requoted

/-- **The Digest parameters that do not.** -/
def Message.kept (m : Message) : List (Option Str) :=
  m.proxyAuthorizations.flatMap Authorization.kept ++
    m.authorizations.flatMap Authorization.kept ++
    m.proxyAuthenticates.flatMap WwwAuthenticate.kept ++
    m.wwwAuthenticates.flatMap WwwAuthenticate.kept ++
    m.proxyAuthenticationInfos.flatMap AuthenticationInfo.kept ++
    m.authenticationInfos.flatMap AuthenticationInfo.kept

/-! ### One pass -/

/-- To the bus and back, every header asked for. -/
def relay (osip : OsipParser) (xml : XmlReader) (id : Uuid) (m : Message) : Option Message := do
  let p ← messageProto osip xml m id
  let (m, _) ← messageUnproto osip p fullRequestBitset
  return m

/-- So many times. -/
def relays (osip : OsipParser) (xml : XmlReader) (id : Uuid) : ℕ → Message → Option Message
  | 0, m => some m
  | n + 1, m => (relay osip xml id m).bind (relays osip xml id n)

/-- The strings of a list of records, after each has been converted and converted back. -/
lemma flatMap_readList {α β : Type} {read : α → Option β} {write : β → α}
    {strings : α → List (Option Str)} {f : Option Str → Option Str}
    (h : ∀ a b, read a = some b → strings (write b) = (strings a).map f) {l : List α}
    {r : List β} (hr : arrayProto read l = some r) :
    (arrayUnproto [] r write).flatMap strings = (l.flatMap strings).map f := by
  rw [arrayUnproto, List.nil_append]
  induction l generalizing r with
  | nil =>
      cases hr
      rfl
  | cons a l ih =>
      rw [arrayProto, readList] at hr
      cases hb : read a with
      | none => simp [hb] at hr
      | some b =>
          rw [hb] at hr
          obtain ⟨bs, hbs, rfl⟩ := Option.map_eq_some_iff.mp hr
          rw [List.map_cons, List.flatMap_cons, List.flatMap_cons, List.map_append, h a b hb,
            ih hbs]

section Records

variable {osip : OsipQuote}

/-- What becomes of a string that comes back in quotes, where there is one. -/
def passQuoted (osip : OsipQuote) (o : Option Str) : Option Str :=
  (o.map osip.strdupWithoutQuote).map osip.enquote

lemma address_requoted (a : From) (b : SipAddress) (h : addressProto osip a = some b) :
    (addressUnproto osip b).requoted = a.requoted.map (passQuoted osip) := by
  obtain ⟨_, -, h⟩ := Option.bind_eq_some_iff.mp h
  cases h
  rfl

lemma authorization_requoted (a : Authorization) (b : SipAuthorization)
    (h : authorizationProto osip a = some b) :
    (authorizationUnproto osip b).requoted = a.requoted.map (passQuoted osip) := by
  cases h
  rfl

lemma authorization_kept (a : Authorization) (b : SipAuthorization)
    (h : authorizationProto osip a = some b) :
    (authorizationUnproto osip b).kept = a.kept.map (Option.map osip.strdupWithoutQuote) := by
  cases h
  rfl

lemma authenticate_requoted (a : WwwAuthenticate) (b : SipAuthenticate)
    (h : authenticateProto osip a = some b) :
    (authenticateUnproto osip b).requoted = a.requoted.map (passQuoted osip) := by
  cases h
  rfl

lemma authenticate_kept (a : WwwAuthenticate) (b : SipAuthenticate)
    (h : authenticateProto osip a = some b) :
    (authenticateUnproto osip b).kept = a.kept.map (Option.map osip.strdupWithoutQuote) := by
  cases h
  rfl

lemma authentication_requoted (a : AuthenticationInfo) (b : SipAuthentication)
    (h : authenticationProto osip a = some b) :
    (authenticationUnproto osip b).requoted = a.requoted.map (passQuoted osip) := by
  cases h
  rfl

lemma authentication_kept (a : AuthenticationInfo) (b : SipAuthentication)
    (h : authenticationProto osip a = some b) :
    (authenticationUnproto osip b).kept = a.kept.map (Option.map osip.strdupWithoutQuote) := by
  cases h
  rfl

/-- The families of a head that has been read, with strings that go through quoting. -/
structure HeadRead (osip : OsipQuote) (m : Message) (head : SipHead) : Prop where
  from_ : head.from_ = m.from_.bind (addressProto osip)
  to_ : head.to_ = m.to_.bind (addressProto osip)
  contact : arrayProto (addressProto osip) m.contacts = some head.contact
  recordRoute : arrayProto (addressProto osip) m.recordRoutes = some head.recordRoute
  route : arrayProto (addressProto osip) m.routes = some head.route
  proxyAuthorization :
    arrayProto (authorizationProto osip) m.proxyAuthorizations = some head.proxyAuthorization
  authorization : arrayProto (authorizationProto osip) m.authorizations = some head.authorization
  proxyAuthenticate :
    arrayProto (authenticateProto osip) m.proxyAuthenticates = some head.proxyAuthenticate
  authenticate : arrayProto (authenticateProto osip) m.wwwAuthenticates = some head.authenticate
  proxyAuthentication : arrayProto (authenticationProto osip) m.proxyAuthenticationInfos =
    some head.proxyAuthentication
  authentication :
    arrayProto (authenticationProto osip) m.authenticationInfos = some head.authentication

lemma headProto_read {m : Message} {head : SipHead} (h : headProto osip m = some head) :
    HeadRead osip m head := by
  rw [headProto] at h
  iterate 7 obtain ⟨_, -, h⟩ := Option.bind_eq_some_iff.mp h
  obtain ⟨_, -, h⟩ := Option.bind_eq_some_iff.mp h
  obtain ⟨_, contact, h⟩ := Option.bind_eq_some_iff.mp h
  obtain ⟨_, proxyAuthenticate, h⟩ := Option.bind_eq_some_iff.mp h
  obtain ⟨_, proxyAuthentication, h⟩ := Option.bind_eq_some_iff.mp h
  obtain ⟨_, proxyAuthorization, h⟩ := Option.bind_eq_some_iff.mp h
  obtain ⟨_, authenticate, h⟩ := Option.bind_eq_some_iff.mp h
  obtain ⟨_, authentication, h⟩ := Option.bind_eq_some_iff.mp h
  obtain ⟨_, authorization, h⟩ := Option.bind_eq_some_iff.mp h
  obtain ⟨_, recordRoute, h⟩ := Option.bind_eq_some_iff.mp h
  obtain ⟨_, route, h⟩ := Option.bind_eq_some_iff.mp h
  iterate 2 obtain ⟨_, -, h⟩ := Option.bind_eq_some_iff.mp h
  cases h
  exact ⟨rfl, rfl, contact, recordRoute, route, proxyAuthorization, authorization,
    proxyAuthenticate, authenticate, proxyAuthentication, authentication⟩

/-- An address that may be absent. -/
lemma option_requoted (o : Option From) :
    ((o.bind (addressProto osip)).map (addressUnproto osip)).toList.flatMap From.requoted =
      (o.toList.flatMap From.requoted).map (passQuoted osip) := by
  cases o with
  | none => rfl
  | some a =>
      obtain ⟨params, hparams⟩ := readList_total pairProto (fun _ => rfl) a.genParams
      have ha : addressProto osip a = some
          { displayname := a.displayname.map osip.strdupWithoutQuote
            url := a.url.bind uriProto, genParams := params } := by
        simp only [addressProto, arrayProto, hparams]
        rfl
      simp only [Option.bind_some, ha, Option.map_some, Option.toList_some, List.flatMap_cons,
        List.flatMap_nil, List.append_nil]
      exact address_requoted a _ ha

end Records

section Pass

variable {osip : OsipParser} {xml : XmlReader} {id : Uuid} {m m' : Message}

/-- **One pass**, string by string. -/
lemma relay_strings (h : relay osip xml id m = some m') :
    m'.requoted = m.requoted.map (passQuoted osip.toOsipQuote) ∧
      m'.kept = m.kept.map (Option.map osip.strdupWithoutQuote) := by
  obtain ⟨p, hp, h⟩ := Option.bind_eq_some_iff.mp h
  obtain ⟨⟨m₁, id₁⟩, hm, h⟩ := Option.bind_eq_some_iff.mp h
  cases h
  obtain ⟨head, hhead⟩ := headProto_of_messageProto hp
  obtain ⟨r, hr, -, -, hrhead, -⟩ := messageProto_of_head xml hhead id
  cases hp.symm.trans hr
  obtain ⟨start, head', -, hstart, hhead', rfl⟩ := messageUnproto_eq_some.mp hm
  cases hhead'.symm.trans hrhead
  have hread := headProto_read hhead
  obtain ⟨hbare, -⟩ := startLine_bare hstart
  rw [← hbare]
  constructor
  · simp only [Message.requoted, headUnproto, Message.bare, hasBit_full, if_true, List.map_append,
      flatMap_readList address_requoted hread.contact,
      flatMap_readList address_requoted hread.recordRoute,
      flatMap_readList address_requoted hread.route,
      flatMap_readList authorization_requoted hread.proxyAuthorization,
      flatMap_readList authorization_requoted hread.authorization,
      flatMap_readList authenticate_requoted hread.proxyAuthenticate,
      flatMap_readList authenticate_requoted hread.authenticate,
      flatMap_readList authentication_requoted hread.proxyAuthentication,
      flatMap_readList authentication_requoted hread.authentication,
      hread.from_, hread.to_, option_requoted]
  · simp only [Message.kept, headUnproto, Message.bare, hasBit_full, if_true, List.map_append,
      flatMap_readList authorization_kept hread.proxyAuthorization,
      flatMap_readList authorization_kept hread.authorization,
      flatMap_readList authenticate_kept hread.proxyAuthenticate,
      flatMap_readList authenticate_kept hread.authenticate,
      flatMap_readList authentication_kept hread.proxyAuthentication,
      flatMap_readList authentication_kept hread.authentication]

/-- A message that converts is passed on, and what is passed on converts. -/
lemma relay_convertible (osip : OsipParser) (xml : XmlReader) (id : Uuid) {m : Message}
    (h : m.Convertible) : ∃ m', relay osip xml id m = some m' ∧ m'.Convertible := by
  obtain ⟨head, hhead⟩ := Option.isSome_iff_exists.mp (headProto_isSome.mpr h.1)
  obtain ⟨p, hp, -, -, hphead, -⟩ := messageProto_of_head xml hhead id
  have hconvertible := (convertible_of_proto hhead hp).mpr h.2
  have hsome : (messageUnproto osip p fullRequestBitset).isSome :=
    messageUnproto_isSome.mpr hconvertible
  obtain ⟨⟨m', id'⟩, hm⟩ := Option.isSome_iff_exists.mp hsome
  refine ⟨m', by rw [relay, hp]; simp [hm], ?_⟩
  obtain ⟨start, head', -, hstart, hhead', rfl⟩ := messageUnproto_eq_some.mp hm
  cases hhead'.symm.trans hphead
  obtain ⟨hbare, -⟩ := startLine_bare hstart
  constructor
  · intro a ha
    rw [← hbare] at ha
    simp only [headUnproto, Message.bare, hasBit_full, if_true, arrayUnproto, List.nil_append,
      List.mem_map] at ha
    obtain ⟨s, -, rfl⟩ := ha
    rfl
  · rw [startLine] at hstart
    split at hstart
    · cases hstart
      exact .inl ‹_›
    · split at hstart
      · rename_i request method hrequest hmethod
        cases hstart
        refine .inr ⟨rfl, ?_⟩
        simp only [headUnproto, hasBit_full, if_true]
        rw [SipMessage.method, hphead, Option.bind_some] at hmethod
        obtain ⟨cseq, hcseq, hmethod⟩ := Option.bind_eq_some_iff.mp hmethod
        simp [hcseq, cseqUnproto, hmethod]
      · exact absurd hstart (by simp)

/-- It is passed on any number of times. -/
lemma relays_isSome (osip : OsipParser) (xml : XmlReader) (id : Uuid) (n : ℕ) {m : Message}
    (h : m.Convertible) : ∃ m', relays osip xml id n m = some m' := by
  induction n generalizing m with
  | zero => exact ⟨m, rfl⟩
  | succ n ih =>
      obtain ⟨m₁, hrelay, hconvertible⟩ := relay_convertible osip xml id h
      obtain ⟨m', hm'⟩ := ih hconvertible
      exact ⟨m', by rw [relays, hrelay, Option.bind_some, hm']⟩

/-- **Any number of passes**, string by string. -/
lemma relays_strings {n : ℕ} (h : relays osip xml id n m = some m') :
    m'.requoted = m.requoted.map (passQuoted osip.toOsipQuote)^[n] ∧
      m'.kept = m.kept.map (Option.map osip.strdupWithoutQuote)^[n] := by
  induction n generalizing m with
  | zero =>
      cases h
      simp
  | succ n ih =>
      obtain ⟨m₁, hrelay, h⟩ := Option.bind_eq_some_iff.mp h
      obtain ⟨hrequoted, hkept⟩ := relay_strings hrelay
      obtain ⟨ihrequoted, ihkept⟩ := ih h
      rw [ihrequoted, ihkept, hrequoted, hkept, List.map_map, List.map_map,
        ← Function.iterate_succ, ← Function.iterate_succ]
      exact ⟨rfl, rfl⟩

/-- A message that does not convert is not passed on. -/
lemma relays_eq_none (h : ¬ m.Convertible) (n : ℕ) : relays osip xml id (n + 1) m = none := by
  suffices hrelay : relay osip xml id m = none by rw [relays, hrelay, Option.bind_none]
  rw [relay, Option.bind_eq_bind, Option.bind_eq_none_iff]
  intro p hp
  obtain ⟨head, hhead⟩ := headProto_of_messageProto hp
  have hallow := headProto_isSome.mp (Option.isSome_iff_exists.mpr ⟨head, hhead⟩)
  have hnot : ¬ p.Convertible := fun hp' => h ⟨hallow, (convertible_of_proto hhead hp).mp hp'⟩
  have hiff : (messageUnproto osip p fullRequestBitset).isSome ↔ p.Convertible :=
    messageUnproto_isSome
  rw [← hiff, Option.not_isSome_iff_eq_none] at hnot
  rw [hnot]
  rfl

end Pass

/-! ### What the strings mean -/

/-- After any number of passes every display name and Digest parameter means what it meant. -/
def QuotesKept (osip : OsipParser) (xml : XmlReader) (id : Uuid) (m : Message) : Prop :=
  ∀ n m', relays osip xml id n m = some m' →
    m'.requoted.map (Option.map stringValue) = m.requoted.map (Option.map stringValue) ∧
      m'.kept.map (Option.map stringValue) = m.kept.map (Option.map stringValue)

/-- No quote and no backslash within the quotes of what comes back in quotes; in what does not, no
backslash that escapes and no quotes directly within the quotes, if there are any. -/
def Message.QuotesPlain (m : Message) : Prop :=
  (∀ s, some s ∈ m.requoted → ∀ c ∈ unquoted 34 s, c ≠ 34 ∧ c ≠ 92) ∧
    ∀ s, some s ∈ m.kept → ∀ body, s = enquoted 34 body →
      ¬ InQuotes 34 body ∧ 92 ∉ body.dropLast

lemma option_map_iterate {α : Type} (f : α → α) (n : ℕ) (o : Option α) :
    (Option.map f)^[n] o = o.map f^[n] := by
  induction n generalizing o with
  | zero => simp
  | succ n ih =>
      rw [Function.iterate_succ_apply, ih, Option.map_map]
      rfl

/-- A list of strings keeps its meaning when each string does. -/
lemma strings_kept_iff (f : Str → Str) (l : List (Option Str)) :
    (∀ n, (l.map (Option.map f)^[n]).map (Option.map stringValue) =
        l.map (Option.map stringValue)) ↔
      ∀ s, some s ∈ l → ∀ n, stringValue (f^[n] s) = stringValue s := by
  simp only [List.map_map, List.map_inj_left, Function.comp_apply, option_map_iterate,
    Option.map_map]
  constructor
  · intro h s hs n
    simpa using h n (some s) hs
  · intro h n o ho
    cases o with
    | none => rfl
    | some s => simpa using h s ho n

/-- **The strings keep their meaning exactly in a message where they are plain**, or in one that
the bridge refuses. -/
theorem quotes_kept_iff {osip : OsipParser} (hosip : osip.toOsipQuote.Escapes) (xml : XmlReader)
    (id : Uuid) (m : Message) :
    QuotesKept osip xml id m ↔ (m.Convertible → m.QuotesPlain) := by
  have hpass : passQuoted osip.toOsipQuote = Option.map (requoted 34 92) := by
    funext o
    cases o with
    | none => rfl
    | some s => simp only [passQuoted, Option.map_some, hosip.enquote, hosip.unquote, requoted]
  have hunquote : osip.strdupWithoutQuote = unquoted 34 := funext hosip.unquote
  have hplain : m.QuotesPlain ↔
      (∀ n, (m.requoted.map (passQuoted osip.toOsipQuote)^[n]).map (Option.map stringValue) =
          m.requoted.map (Option.map stringValue)) ∧
        ∀ n, (m.kept.map (Option.map osip.strdupWithoutQuote)^[n]).map (Option.map stringValue) =
          m.kept.map (Option.map stringValue) := by
    rw [hpass, hunquote, strings_kept_iff, strings_kept_iff, Message.QuotesPlain]
    refine and_congr ?_ ?_
    · exact forall_congr' fun s => imp_congr_right fun _ => requoted_iff.symm
    · exact forall_congr' fun s => imp_congr_right fun _ => (unquoted_iff (by decide)).symm
  constructor
  · intro h hconvertible
    refine hplain.mpr ⟨fun n => ?_, fun n => ?_⟩
    all_goals
      obtain ⟨m', hm'⟩ := relays_isSome osip xml id n hconvertible
      obtain ⟨hrequoted, hkept⟩ := relays_strings hm'
    · rw [← hrequoted]
      exact (h n m' hm').1
    · rw [← hkept]
      exact (h n m' hm').2
  · intro h n m' hm'
    cases n with
    | zero =>
        cases hm'
        exact ⟨rfl, rfl⟩
    | succ n =>
        by_cases hconvertible : m.Convertible
        · obtain ⟨hrequoted, hkept⟩ := relays_strings hm'
          obtain ⟨hall, hall'⟩ := hplain.mp (h hconvertible)
          rw [hrequoted, hkept]
          exact ⟨hall (n + 1), hall' (n + 1)⟩
        · rw [relays_eq_none hconvertible] at hm'
          exact absurd hm' (by simp)

/-- A parser for samples, with the two functions on quoted strings. -/
def escapingParser : OsipParser :=
  { sampleParser with
    enquote := fun s => enquoted 34 (escaped 34 92 s)
    strdupWithoutQuote := unquoted 34 }

lemma escapingParser_escapes : escapingParser.toOsipQuote.Escapes := ⟨fun _ => rfl, fun _ => rfl⟩

/-- A refused request of `"Bob B."`, with the answer to one challenge and two new ones, the second
with its algorithm in quotes. -/
def challenged : Message where
  statusCode := 401
  from_ := some { displayname := some (enquoted 34 (str "Bob B.")) }
  to_ := some { displayname := some (str "bob") }
  proxyAuthorizations :=
    [{ authType := some (str "Digest"), username := some (enquoted 34 (str "bob")),
       realm := some (enquoted 34 (str "h")), nonce := some (enquoted 34 (str "7f")),
       uri := some (enquoted 34 (str "sip:h")), response := some (enquoted 34 (str "0a")),
       algorithm := some (str "MD5"), nonceCount := some (str "00000001") }]
  wwwAuthenticates :=
    [{ authType := some (str "Digest"), realm := some (enquoted 34 (str "h")),
       nonce := some (enquoted 34 (str "80")), stale := some (str "false") },
     { authType := some (str "Digest"), realm := some (enquoted 34 (str "h")),
       nonce := some (enquoted 34 (str "81")), algorithm := some (enquoted 34 (str "MD5")),
       qopOptions := some (enquoted 34 (str "auth,auth-int")) }]

lemma challenged_plain : challenged.QuotesPlain := by
  have hrequoted : ∀ o ∈ challenged.requoted, ∀ c ∈ unquoted 34 (o.getD []),
      c ≠ 34 ∧ c ≠ 92 := by decide +kernel
  have hkept : ∀ o ∈ challenged.kept, (unquoted 34 (o.getD [])).head? ≠ some 34 ∧
      92 ∉ (unquoted 34 (o.getD [])).dropLast := by decide +kernel
  refine ⟨fun s hs => hrequoted (some s) hs, fun s hs body hbody => ?_⟩
  have h := hkept (some s) hs
  rw [Option.getD_some, hbody, unquoted_enquoted] at h
  refine ⟨?_, h.2⟩
  rintro ⟨inner, rfl⟩
  exact h.1 rfl

/-- However often it passes, its name and the parameters mean the same. -/
theorem quotes_kept_challenged :
    QuotesKept escapingParser sampleReader ⟨1, 2⟩ challenged ∧
      ∀ n, (relays escapingParser sampleReader ⟨1, 2⟩ n challenged).isSome := by
  refine ⟨(quotes_kept_iff escapingParser_escapes sampleReader ⟨1, 2⟩ challenged).mpr
    fun _ => challenged_plain, fun n => ?_⟩
  exact Option.isSome_iff_exists.mpr (relays_isSome _ _ _ n ⟨by decide, Or.inl (by decide)⟩)

/-- A response from `"a\"b"`, a name with a quote in it. -/
def quotedName : Message where
  statusCode := 200
  from_ := some { displayname := some [34, 97, 92, 34, 98, 34] }

/-- **A name with a quote in it changes with every pass**: `"a\"b"` comes back as `"a\\\"b"`. -/
theorem quoted_name_grows :
    escapingParser.toOsipQuote.Escapes ∧
      relay escapingParser sampleReader ⟨1, 2⟩ quotedName = some
        { quotedName with
          reasonPhrase := some (str "OK")
          from_ := some { displayname := some [34, 97, 92, 92, 92, 34, 98, 34] } } ∧
      ¬ QuotesKept escapingParser sampleReader ⟨1, 2⟩ quotedName := by
  have hrelay : relay escapingParser sampleReader ⟨1, 2⟩ quotedName = some
      { quotedName with
        reasonPhrase := some (str "OK")
        from_ := some { displayname := some [34, 97, 92, 92, 92, 34, 98, 34] } } := by decide
  refine ⟨escapingParser_escapes, hrelay, fun h => ?_⟩
  have hone := (h 1 _ (by rw [relays, hrelay]; rfl)).1
  revert hone
  decide

end SipEcho
