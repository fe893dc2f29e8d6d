import SipEcho.Bridge.Message
import SipEcho.Lib.Scan
import SipEcho.Mqtt.Emit
import SipEcho.Net.Sockets

/-!
The sending half of `transport_t`: `begin`, `subscribe` and `invoke`, with the buffers they write.

Each of them prints a text into an array of its own and packs a packet into a block of its own;
`invoke` packs the message into a third one, of 4096 bytes.

* `strcatAt`: text printed behind text, with the terminating NUL;
* `transportBegin_returns`, `transportSubscribe_ok`, `invoke_returns`: where each of them stays in
  its buffers;
* `transport_buffers_iff`: all three do exactly when the message and its topic are short enough;
* `long_host_overflows`: a name of the host that `main` admits is not.
-/

namespace SipEcho

open Lib Sockets

/-- `transport_t`: what the sending half knows. -/
structure Sender extends BusArgs where
  to_ : Str
  methods : List Str
  flags : ℕ := 2
  alive : ℕ := 60
  id : UInt16 := 0
  port : UInt16 := 0

/-- What the surroundings answer: whether there is memory, and whether `relay` takes a packet. -/
structure SendEnv where
  malloc : Bool
  relay : Str → Bool

/-- `sprintf`, at the start of an array of `cap` bytes, or `strcat` behind what is there: the text
so far, without its NUL. -/
def strcatAt (cap : ℕ) (s out : Str) : Except Fault Str := do
  let _ ← emit Fault.crash cap (s ++ [0]) out
  return out ++ s

/-- The client id `begin` prints, into an array as long as the names and eight bytes. -/
def Sender.clientIdAt (t : Sender) : Except Fault Str := do
  let cap := t.name.length + t.host.length + 8
  let id ← strcatAt cap (portDigits t.port.toNat) []
  let id ← strcatAt cap (str "@") id
  let id ← strcatAt cap t.host id
  let id ← strcatAt cap (str "@") id
  strcatAt cap t.name id

/-- `begin`; `-2` stands for the answer of `ERROR`. -/
def Sender.begin (env : SendEnv) (t : Sender) (port : UInt16) : Except Fault (Sender × ℤ) :=
  if env.malloc = false then return (t, -1)
  else do
    let t := { t with port }
    let id ← t.clientIdAt
    match ← packConnectionRequestAt 256 256 id t.user t.password t.flags t.alive with
    | .ok (some p) => return (t, if env.relay p then 0 else -1)
    | .ok none => return (t, -1)
    | .error _ => return (t, -2)

/-- The topic of a method under a name: `name/method/host/port`. -/
def Sender.topic (t : Sender) (name : Str) (i : ℕ) : Str :=
  name ++ str "/" ++ t.methods.getD i [] ++ str "/" ++ t.host ++ str "/" ++
    portDigits t.port.toNat

/-- `snprintf`: as much of the text as fits, and the NUL. -/
def snprintfAt (cap n : ℕ) (s : Str) : Except Fault Str := strcatAt cap (s.take (n - 1)) []

/-- The loop of `subscribe`, from the method below `i` down, with the packets relayed. -/
def Sender.subscribeFrom (env : SendEnv) (t : Sender) : ℕ → List Str → Except Fault (ℤ × List Str)
  | 0, out => return (0, out)
  | i + 1, out => do
      let topic ← snprintfAt 256 256 (t.topic t.name i)
      if 256 ≤ (t.topic t.name i).length then return (-2, out)
      else if env.malloc = false then return (-1, out)
      else
        match ← packSubscribeRequestAt 512 512 (i + 1) topic with
        | .ok (some p) =>
            if env.relay p then Sender.subscribeFrom env t i (out ++ [p]) else return (-1, out)
        | .ok none => return (-1, out)
        | .error _ => return (-2, out)

/-- `subscribe`. -/
def Sender.subscribe (env : SendEnv) (t : Sender) : Except Fault (ℤ × List Str) :=
  t.subscribeFrom env t.methods.length []

/-- What a call of `invoke` comes to: the packet that was relayed, the error that was raised, and
whether the closure was called with `NULL`. -/
structure Invoked where
  relayed : Option Str := none
  err : Option PackError := none
  closed : Bool
  deriving Repr

/-- `invoke`, of a message that `protobuf_c_message_pack` packs as `packed`. -/
def Sender.invoke (env : SendEnv) (t : Sender) (index : ℕ) (packed : Str) (closure : Bool) :
    Except Fault (Sender × Invoked) := do
  let message ← emit Fault.crash 4096 packed []
  if message = [] ∨ env.malloc = false then return (t, { closed := closure })
  else do
    let topic ← strcatAt 128 (t.topic t.to_ index) []
    let t := { t with id := t.id + 1 }
    let size := 256 + message.length
    match ← packPublishRequestAt size size topic message with
    | .ok (some p) =>
        if env.relay p then return (t, { relayed := some p, closed := false })
        else return (t, { closed := closure })
    | .ok none => return (t, { closed := closure })
    | .error e => return (t, { err := some e, closed := closure })

/-! ### Texts -/

lemma strcatAt_eq {cap : ℕ} {s out : Str} :
    strcatAt cap s out =
      if out.length + s.length < cap then .ok (out ++ s) else .error .crash := by
  rw [strcatAt, emit, List.length_append, List.length_singleton]
  by_cases h : out.length + s.length < cap
  · rw [if_pos h, if_pos (by omega)]
    rfl
  · rw [if_neg h, if_neg (by omega)]
    rfl

/-- A port has five digits at most. -/
lemma length_portDigits (port : UInt16) : (portDigits port.toNat).length ≤ 5 := by
  have hport : port.toNat < 65536 := port.toNat_lt
  rw [portDigits, str, List.length_map, Nat.toString_eq_ofList_toDigits, String.toList_ofList]
  exact (Nat.length_toDigits_le_iff (by omega) (by omega)).mpr (by omega)

/-! ### Each of the three -/

variable {env : SendEnv} {t : Sender}

lemma clientId_ne_nil (t : BusArgs) (port : ℕ) : t.clientId port ≠ [] := by
  simp [BusArgs.clientId, str]

/-- **The client id fits**, whatever the names. -/
lemma clientIdAt_eq (t : Sender) : t.clientIdAt = .ok (t.clientId t.port.toNat) := by
  have hport := length_portDigits t.port
  have hone : (str "@").length = 1 := rfl
  -- each piece is appended, and the rest of the call goes on with what is there
  have step {s out : Str} (f : Str → Except Fault Str)
      (h : out.length + s.length < t.name.length + t.host.length + 8) :
      (strcatAt (t.name.length + t.host.length + 8) s out >>= f) = f (out ++ s) := by
    rw [strcatAt_eq, if_pos h]
    rfl
  rw [Sender.clientIdAt, BusArgs.clientId, step _ (by rw [List.length_nil]; omega),
    step _ (by rw [List.length_append, List.length_nil]; omega),
    step _ (by simp only [List.length_append, List.length_nil]; omega),
    step _ (by simp only [List.length_append, List.length_nil]; omega), strcatAt_eq,
    if_pos (by simp only [List.length_append, List.length_nil]; omega), List.nil_append]

/-- So the CONNECT packet decides. -/
lemma transportBegin_returns (env : SendEnv) (t : Sender) (port : UInt16) :
    (∃ r, t.begin env port = .ok r) ↔
      (env.malloc = true → connectCount (t.clientId port.toNat) t.user t.password ≤ 253 →
        connectWritten (t.clientId port.toNat) t.user t.password ≤ 253) := by
  rw [Sender.begin]
  cases env.malloc with
  | false => exact iff_of_true ⟨_, rfl⟩ (by simp)
  | true =>
      rw [if_neg (by simp),
        ← packConnectionRequestAt_returns t.flags t.alive (clientId_ne_nil t.toBusArgs _)]
      dsimp only
      rw [clientIdAt_eq]
      dsimp only [bind, Except.bind]
      cases packConnectionRequestAt 256 256 (t.clientId port.toNat) t.user t.password t.flags
          t.alive with
      | error e => simp
      | ok p =>
          refine iff_of_true ?_ (fun _ => ⟨p, rfl⟩)
          rcases p with e | p | p <;> exact ⟨_, rfl⟩

/-- **`subscribe` stays in its buffers.** -/
lemma subscribeFrom_ok (env : SendEnv) (t : Sender) (i : ℕ) (out : List Str) :
    ∃ r, t.subscribeFrom env i out = .ok r := by
  induction i generalizing out with
  | zero => exact ⟨_, rfl⟩
  | succ i ih =>
      have htake : ((t.topic t.name i).take (256 - 1)).length ≤ 255 := List.length_take_le _ _
      rw [Sender.subscribeFrom, snprintfAt, strcatAt_eq, if_pos (by rw [List.length_nil]; omega),
        List.nil_append]
      show ∃ r, (if 256 ≤ (t.topic t.name i).length then _ else _) = _
      by_cases hlong : 256 ≤ (t.topic t.name i).length
      · rw [if_pos hlong]
        exact ⟨_, rfl⟩
      · rw [if_neg hlong]
        cases env.malloc with
        | false => exact ⟨_, rfl⟩
        | true =>
            obtain ⟨p, hp⟩ := packSubscribeRequestAt_ok 512 (i + 1)
              (show ((t.topic t.name i).take (256 - 1)).length < 65536 by omega)
            rw [if_neg (by simp), hp]
            rcases p with e | p | p
            · exact ⟨_, rfl⟩
            · exact ⟨_, rfl⟩
            · show ∃ r, (if env.relay p then _ else _) = _
              split
              · exact ih _
              · exact ⟨_, rfl⟩

/-- **`invoke` stays in its buffers** exactly when the message is short enough, and its topic is,
unless it is not printed; a message that is not relayed is reported by the closure. -/
lemma invoke_returns (env : SendEnv) (t : Sender) (index : ℕ) (packed : Str) (closure : Bool) :
    Returns (packed.length ≤ 4096 ∧
        (packed = [] ∨ env.malloc = false ∨ (t.topic t.to_ index).length < 128))
      (fun r => r.2.relayed = none → r.2.closed = closure)
      (t.invoke env index packed closure) := by
  rw [Sender.invoke, emit, List.length_nil, Nat.zero_add, List.nil_append]
  by_cases hlen : packed.length ≤ 4096
  · rw [if_pos hlen]
    show Returns _ _ (if packed = [] ∨ env.malloc = false then _ else
      strcatAt 128 (t.topic t.to_ index) [] >>= _)
    by_cases hnone : packed = [] ∨ env.malloc = false
    · rw [if_pos hnone]
      exact Returns.ok ⟨hlen, by tauto⟩ (fun _ => rfl)
    · rw [if_neg hnone, strcatAt_eq, List.length_nil, Nat.zero_add, List.nil_append]
      by_cases htopic : (t.topic t.to_ index).length < 128
      · have hC : packed.length ≤ 4096 ∧
            (packed = [] ∨ env.malloc = false ∨ (t.topic t.to_ index).length < 128) :=
          ⟨hlen, Or.inr (Or.inr htopic)⟩
        obtain ⟨p, hp⟩ := packPublishRequestAt_ok (256 + packed.length)
          (show (t.topic t.to_ index).length < 65536 by omega)
          (show packed.length < 65536 by omega)
        rw [if_pos htopic]
        show Returns _ _ (packPublishRequestAt _ _ (t.topic t.to_ index) packed >>= _)
        rw [hp]
        rcases p with e | p | p
        · exact Returns.ok hC (fun _ => rfl)
        · exact Returns.ok hC (fun _ => rfl)
        · show Returns _ _ (if env.relay p then _ else _)
          split
          · exact Returns.ok hC (fun h => absurd h (by simp))
          · exact Returns.ok hC (fun _ => rfl)
      · rw [if_neg htopic]
        exact fun h => htopic ((h.2.resolve_left (by tauto)).resolve_left (by tauto))
  · rw [if_neg hlen]
    exact fun h => hlen h.1

/-! ### All three -/

/-- `begin`, `subscribe` and `invoke` write within their buffers, and a message that is not relayed
is reported by calling the closure, whatever the surroundings answer. -/
structure BuffersSuffice (t : Sender) (index : ℕ) (packed : Str) : Prop where
  begin : ∀ env, ∃ r, t.begin env t.port = .ok r
  subscribe : ∀ env, ∃ r, t.subscribe env = .ok r
  invoke : ∀ env closure, ∃ t' r, t.invoke env index packed closure = .ok (t', r) ∧
    (r.relayed = none → r.closed = closure)

/-- **The buffers suffice** exactly when the packed message has at most 4096 bytes, its topic at
most 127, and a user name or a password of gigabytes does not make a long CONNECT packet count as
a short one. -/
theorem transport_buffers_iff (pack : SipMessage → Str) (t : Sender) (index : ℕ)
    (p : SipMessage) :
    BuffersSuffice t index (pack p) ↔
      (pack p).length ≤ 4096 ∧ (pack p = [] ∨ (t.topic t.to_ index).length < 128) ∧
        (connectCount (t.clientId t.port.toNat) t.user t.password ≤ 253 →
          connectWritten (t.clientId t.port.toNat) t.user t.password ≤ 253) := by
  constructor
  · intro h
    obtain ⟨t', r, hr, -⟩ := h.invoke ⟨true, fun _ => true⟩ true
    obtain ⟨⟨h1, h2⟩, -⟩ := (invoke_returns _ t index (pack p) true).of_eq hr
    exact ⟨h1, h2.imp id (fun h => h.resolve_left (by simp)),
      (transportBegin_returns ⟨true, fun _ => true⟩ t t.port).mp (h.begin _) rfl⟩
  · rintro ⟨h1, h2, h3⟩
    refine ⟨fun env => (transportBegin_returns env t t.port).mpr fun _ => h3,
      fun env => subscribeFrom_ok env t _ _, fun env closure => ?_⟩
    obtain ⟨⟨t', r⟩, hr, hclosed⟩ := (invoke_returns env t index (pack p) closure).exists
      ⟨h1, h2.imp id Or.inr⟩
    exact ⟨t', r, hr, hclosed⟩

/-- The service of the program. -/
def sipMethods : List Str :=
  [str "registration", str "invite", str "options", str "cancel", str "bye", str "info",
    str "subscribe", str "notify"]

/-- The bus connection of a host with a name of 120 letters. -/
def longHost : Sender where
  name := str "Sip"
  host := List.replicate 120 97
  user := none
  password := none
  to_ := str "Route"
  methods := sipMethods
  port := 40000

/-- **A long name of the host overflows the topic**, whatever the message is packed as. -/
theorem long_host_overflows :
    longHost.host.length ≤ 255 ∧
      ∃ p, messageProto sampleParser sampleReader samplePlain ⟨1, 2⟩ = some p ∧
        ∀ pack : SipMessage → Str, pack p ≠ [] → ¬ BuffersSuffice longHost 0 (pack p) := by
  refine ⟨by decide, _, rfl, fun pack hpack h => ?_⟩
  obtain ⟨t', r, hr, -⟩ := h.invoke ⟨true, fun _ => true⟩ true
  obtain ⟨⟨-, h2⟩, -⟩ := (invoke_returns _ longHost 0 _ true).of_eq hr
  have htopic := (h2.resolve_left hpack).resolve_left (by simp)
  have hname : (longHost.to_).length = 5 := rfl
  have hmethod : (longHost.methods.getD 0 []).length = 12 := rfl
  have hhost : longHost.host.length = 120 := List.length_replicate
  simp only [Sender.topic, List.length_append] at htopic
  omega

end SipEcho
