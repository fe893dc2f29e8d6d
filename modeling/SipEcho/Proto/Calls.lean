import SipEcho.Mqtt.RoundTrip
import SipEcho.Net.BusSegmentation
import SipEcho.Proto.Dispatch

/-!
Calls over the bus: what `invoke` publishes on one side is what `input` hands to the methods on
the other.

A call is given by its method and its packed argument; `Call.Taken` says that there is memory for
its packet and that `relay` takes it.

* `Sender.callback`, `Sender.ping`, `Sender.end_`: the rest of the sending half;
* `callPacket_wellFormed`: the packet of a call is one the other side reads as the call;
* `commands_pass`, `cmdRun_pass`: reads of whole packets none of which fails are processed;
* `calls_delivered`: over any calls, those that are taken arrive, each once and in order, when the
  reads end where packets end, and the closure is called at once for the others.
-/

namespace SipEcho

open Lib Sockets

/-! ### The sending half -/

/-- `callback`, the closure of a call that has come in: an answer goes out under the method in the
token. -/
def Sender.callback (env : SendEnv) (t : Sender) (token : Option ℕ) (message : Option Str) :
    Except Fault (Sender × Option Invoked) :=
  match message, token with
  | some message, some index => do
      let (t, r) ← t.invoke env index message false
      return (t, some r)
  | _, _ => return (t, none)

/-- What `ping` and `end` do with the packet they have packed, into a block of 16 bytes. -/
def Sender.relayed (env : SendEnv) : Except Fault Request → Except Fault ℤ
  | .error e => throw e
  | .ok (.ok (some p)) => return if env.relay p then 0 else -1
  | .ok (.ok none) => return -1
  | .ok (.error _) => return -2

/-- `ping`. -/
def Sender.ping (env : SendEnv) : Except Fault ℤ :=
  if env.malloc = false then return -1 else Sender.relayed env (mqttPackPingAt 16 16)

/-- `end`. -/
def Sender.end_ (env : SendEnv) : Except Fault ℤ :=
  if env.malloc = false then return -1 else Sender.relayed env (mqttPackDisconnectAt 16 16)

/-- A call, with what the surroundings answer to it. -/
structure Call where
  env : SendEnv
  index : ℕ
  message : Str

/-- Calls one after another. -/
def Sender.invokeAll (closure : Bool) : Sender → List Call →
    Except Fault (Sender × List Invoked)
  | t, [] => return (t, [])
  | t, c :: cs => do
      let (t, r) ← t.invoke c.env c.index c.message closure
      let (t, rs) ← invokeAll closure t cs
      return (t, r :: rs)

/-- A call of a method of the service, with an argument and a topic that fit the buffers. -/
structure Sender.Callable (t : Sender) (c : Call) : Prop where
  index : c.index < t.methods.length
  nonempty : c.message ≠ []
  short : c.message.length ≤ 4096
  topic : (t.topic t.to_ c.index).length < 128

/-- The packet of a call. -/
def Sender.callPacket (t : Sender) (index : ℕ) (message : Str) : Str :=
  packetBytes 3 0 (publishBody (t.topic t.to_ index) 0 message 0)

/-- There is memory for the packet of the call, and it is relayed. -/
def Sender.Taken (t : Sender) (c : Call) : Prop :=
  c.env.malloc = true ∧ c.env.relay (t.callPacket c.index c.message) = true

instance (t : Sender) : DecidablePred t.Taken := fun _ => inferInstanceAs (Decidable (_ ∧ _))

/-! ### The packet of a call -/

section Packet

variable {t : Sender} {c : Call}

lemma headerLength_le (n : ℕ) : headerLength n ≤ 5 := by
  have key (fuel m : ℕ) : (lengthBytes fuel m).length ≤ fuel := by
    induction fuel generalizing m with
    | zero => exact le_rfl
    | succ fuel ih =>
        have := ih (m / 128)
        rw [lengthBytes]
        split <;> simp only [List.length_cons, List.length_nil] <;> omega
  have := key 4 n
  rw [headerLength]
  omega

lemma length_callBody (t : Sender) (index : ℕ) (message : Str) :
    (publishBody (t.topic t.to_ index) 0 message 0).length =
      2 + (t.topic t.to_ index).length + message.length := by
  rw [length_publishBody]
  rfl

/-- `invoke` packs at quality of service zero. -/
lemma packPublishRequestAt_eq {cap : ℕ} {topicName message : Str}
    (htopic : topicName.length < 65536)
    (hmessage : topicName.length + message.length < 4294967292) :
    packPublishRequestAt cap cap topicName message =
      .ok (packing cap 3 0 (publishBody topicName 0 message 0)) := by
  have hstr : packedStr topicName = mqttPackUint16 topicName.length ++ topicName := by
    rw [packedStr, Nat.mod_eq_of_lt htopic, List.take_length]
  have hbody : publishBody topicName 0 message 0 = packedStr topicName ++ message := by
    rw [publishBody, hstr]
    show _ ++ [] ++ message = _
    rw [List.append_nil]
  rw [packPublishRequestAt, hbody, packAt_eq le_rfl (publish_ruleViolation 0)
    ((packStrAt_writes topicName).bind (Writes.block message))]
  rw [List.length_append, length_packedStr, packedCstrlen, u32, u32, u32, u32]
  omega

/-- **What a call comes to**: its packet is relayed, or its closure is called. -/
lemma invoke_eq (hc : t.Callable c) (closure : Bool) :
    ∃ id, t.invoke c.env c.index c.message closure =
      .ok ({ t with id }, if t.Taken c then
          { relayed := some (t.callPacket c.index c.message), closed := false }
        else { closed := closure }) := by
  have hshort := hc.short
  have htopic := hc.topic
  have hemit : emit Fault.crash 4096 c.message [] = .ok c.message := by
    rw [emit, List.length_nil, Nat.zero_add, if_pos hshort, List.nil_append]
  rw [Sender.invoke, hemit]
  dsimp only [bind, Except.bind]
  by_cases hmem : c.env.malloc = true
  · rw [if_neg (by rw [hmem]; simpa using hc.nonempty), strcatAt_eq,
      if_pos (by rw [List.length_nil]; omega), List.nil_append]
    dsimp only
    have hpack : packPublishRequestAt (256 + c.message.length) (256 + c.message.length)
        (t.topic t.to_ c.index) c.message =
          .ok (.ok (some (t.callPacket c.index c.message))) := by
      have hheader := headerLength_le (publishBody (t.topic t.to_ c.index) 0 c.message 0).length
      have hlen := length_callBody t c.index c.message
      rw [packPublishRequestAt_eq (by omega) (by omega), packing, length_packetBytes,
        if_neg (by omega), if_neg (by omega), if_neg (by omega)]
      rfl
    rw [hpack]
    dsimp only
    refine ⟨t.id + 1, ?_⟩
    by_cases hrelay : c.env.relay (t.callPacket c.index c.message) = true
    · rw [if_pos hrelay, if_pos ⟨hmem, hrelay⟩]
      rfl
    · rw [if_neg hrelay, if_neg fun h => hrelay h.2]
      rfl
  · rw [if_pos (Or.inr (by simpa using hmem)), if_neg fun h => hmem h.1]
    exact ⟨t.id, rfl⟩

/-- **What calls come to**, one after another. -/
lemma invokeAll_eq (closure : Bool) {calls : List Call} {t : Sender}
    (hcalls : ∀ c ∈ calls, t.Callable c) :
    ∃ id, t.invokeAll closure calls =
      .ok ({ t with id }, calls.map fun c => if t.Taken c then
          { relayed := some (t.callPacket c.index c.message), closed := false }
        else { closed := closure }) := by
  induction calls generalizing t with
  | nil => exact ⟨t.id, rfl⟩
  | cons c calls ih =>
      obtain ⟨id, hid⟩ := invoke_eq (hcalls c List.mem_cons_self) closure
      obtain ⟨id', hid'⟩ := ih (t := { t with id }) fun d hd =>
        have h := hcalls d (List.mem_cons_of_mem _ hd)
        ⟨h.index, h.nonempty, h.short, h.topic⟩
      refine ⟨id', ?_⟩
      rw [Sender.invokeAll, hid]
      dsimp only [bind, Except.bind]
      rw [hid']
      rfl

/-- What the other side reads of the packet of a call. -/
def Sender.callResponse (t : Sender) (index : ℕ) (message : Str) : Response :=
  ⟨⟨.publish, 0, 2 + (t.topic t.to_ index).length + message.length⟩,
    .publish
      { dupFlag := 0
        qosLevel := 0
        retainFlag := 0
        topicName := t.topic t.to_ index
        packetId := 0
        applicationMessage := message }⟩

lemma length_topic_pos (t : Sender) (index : ℕ) : 3 ≤ (t.topic t.to_ index).length := by
  have hone : (str "/").length = 1 := rfl
  simp only [Sender.topic, List.length_append, hone]
  omega

/-- **The packet of a call** is read as the call. -/
lemma callPacket_wellFormed (hc : t.Callable c) :
    WellFormed (t.callPacket c.index c.message) (t.callResponse c.index c.message) := by
  have hshort := hc.short
  have htopic := hc.topic
  have hlen := length_callBody t c.index c.message
  have hpos := length_topic_pos t c.index
  have hheader := headerLength_le (publishBody (t.topic t.to_ c.index) 0 c.message 0).length
  have hbody := mqttUnpackPublishResponse_body 0 (show 0 < 65536 by omega)
    (show (t.topic t.to_ c.index).length < 65536 by omega)
    (show (t.topic t.to_ c.index).length + c.message.length < 4294967292 by omega) []
  rw [if_neg (by omega)] at hbody
  have hread := mqttUnpackResponse_packetBytes (s := []) (publish_ruleViolation 0) (by omega)
    (by omega) (by omega) hbody
  refine ⟨?_, ?_⟩
  · rw [List.append_nil] at hread
    rw [Sender.callPacket, hread, length_packetBytes, Sender.callResponse, hlen]
    rfl
  · rw [Sender.callPacket, length_packetBytes]
    omega

end Packet

/-! ### The receiving half -/

section Receive

variable {env : Env} {cap : ℕ} {t t' : Transport} {e : NetEvent} {g : List Packet}

/-- A read of packets none of which makes `command` fail is processed to its end. -/
lemma commands_pass (hg : Whole g) (hpass : passAll env.bus t g = some t')
    (he : BusReady cap t (stream g) e) :
    ∃ e', Commands env e (calls g) e' ∧ BusReady cap t' [] e' := by
  induction g generalizing t e with
  | nil =>
      cases hpass
      exact ⟨e, .empty (by rw [he.memEmpty]; rfl), he⟩
  | cons x g ih =>
      have hx := hg x List.mem_cons_self
      have hne : stream (x :: g) ≠ [] := by
        intro h
        have := hx.length_pos
        rw [stream_cons, List.append_eq_nil_iff] at h
        rw [h.1] at this
        exact absurd this (by simp)
      rw [passAll] at hpass
      split at hpass
      · exact absurd hpass (by simp)
      · rename_i hneg
        have hready := he
        rw [stream_cons] at hready
        obtain ⟨e₁, hturn, he₁⟩ := hready.turn_again hx hneg
        obtain ⟨e', hcs, he'⟩ := ih hg.tail hpass he₁
        refine ⟨e', ?_, he'⟩
        have hunpack : mqttUnpackResponse e.incoming.unread = .packet x.2 x.1.length := by
          rw [hready.unread]
          exact hx.append _
        have := Commands.again hturn hcs
        rwa [hunpack] at this

/-- **Reads of whole packets** none of which raises an error are processed to their end. -/
lemma cmdRun_pass {gs : List (List Packet)} (hgs : Whole gs.flatten)
    (hcap : ∀ g ∈ gs, (stream g).length ≤ cap)
    (hpass : passAll env.bus t gs.flatten = some t')
    (herr : ∀ g, g <+: gs.flatten → ∀ t', passAll env.bus t g = some t' → t'.err = none)
    (he : BusReady cap t [] e) :
    ∃ e', CmdRun env e (gs.map stream) (calls gs.flatten) (some e') ∧ BusReady cap t' [] e' := by
  induction gs generalizing t e with
  | nil =>
      cases hpass
      exact ⟨e, .done e, he⟩
  | cons g gs ih =>
      rw [List.flatten_cons] at hgs hpass herr
      rw [passAll_append] at hpass
      obtain ⟨t₁, ht₁, hrest⟩ := Option.bind_eq_some_iff.mp hpass
      obtain ⟨hread, hready⟩ := he.recv (hcap g List.mem_cons_self)
      obtain ⟨e₁, hcs, he₁⟩ := commands_pass (fun p hp => hgs p (List.mem_append_left _ hp)) ht₁
        hready
      obtain ⟨e', hrun, he'⟩ := ih hgs.right (fun g' hg' => hcap g' (List.mem_cons_of_mem _ hg'))
        hrest (fun g' hg' t₂ ht₂ => herr (g ++ g') ((List.prefix_append_right_inj g).mpr hg') t₂
          (by rw [passAll_append, ht₁]; exact ht₂)) he₁
      refine ⟨e', ?_, he'⟩
      rw [List.flatten_cons, calls_append, List.map_cons]
      exact .read hread hcs
        ((err_of_foo he₁.foo).trans (herr g (List.prefix_append _ _) t₁ ht₁)) hrun

end Receive

/-! ### Both -/

section Both

variable {t : Sender} {r : Transport} {b : Bus} {cs : List Call}

/-- What a call is for the other side. -/
def Sender.callPair (t : Sender) (c : Call) : Packet :=
  (t.callPacket c.index c.message, t.callResponse c.index c.message)

/-- **The packet of a call calls the method.** -/
lemma commandPacket_call {c : Call} (hr : r.Named) (hmethods : r.methods = t.methods)
    (hto : 47 ∉ t.to_) (hc : t.Callable c) (hunpack : b.unpack c.index c.message = true) :
    commandPacket b r (t.callResponse c.index c.message) =
      ({ r with invoked := r.invoked ++ [(c.index, c.message)] }, 0) := by
  have hget : getMethod r (t.topic t.to_ c.index) = c.index + 1 := by
    have h := getMethod_topic hr hto (i := c.index) (by rw [hmethods]; exact hc.index) t.host
      (portDigits t.port.toNat)
    rw [hmethods] at h
    exact h
  show (input b r _, (0 : ℤ)) = _
  rw [input]
  dsimp only
  rw [hget]
  dsimp only
  rw [hunpack]
  rfl

/-- The packets of calls are processed, and each calls its method. -/
lemma passAll_calls (hr : r.Named) (hmethods : r.methods = t.methods) (hto : 47 ∉ t.to_)
    (hcs : ∀ c ∈ cs, t.Callable c) (hunpack : ∀ c ∈ cs, b.unpack c.index c.message = true) :
    passAll b r (cs.map t.callPair) =
      some { r with invoked := r.invoked ++ cs.map fun c => (c.index, c.message) } := by
  induction cs generalizing r with
  | nil => rw [List.map_nil, List.map_nil, List.append_nil, passAll]
  | cons c cs ih =>
      have hcall := commandPacket_call hr hmethods hto (hcs c List.mem_cons_self)
        (hunpack c List.mem_cons_self)
      rw [List.map_cons, passAll]
      show (if (commandPacket b r (t.callResponse c.index c.message)).2 < 0 then _ else _) = _
      rw [hcall, if_neg (by simp)]
      show passAll b (commandPacket b r (t.callResponse c.index c.message)).1 _ = _
      rw [hcall, ih (r := { r with invoked := r.invoked ++ [(c.index, c.message)] })
        ⟨hr.name, hr.slashless, hr.strings, hr.nodup⟩ hmethods
        (fun d hd => hcs d (List.mem_cons_of_mem _ hd))
        (fun d hd => hunpack d (List.mem_cons_of_mem _ hd))]
      simp

/-- The packets that calls relay. -/
lemma relayed_eq (closure : Bool) (cs : List Call) :
    (cs.map fun c => if t.Taken c then
        ({ relayed := some (t.callPacket c.index c.message), closed := false } : Invoked)
      else { closed := closure }).filterMap (·.relayed) =
      (cs.filter fun c => t.Taken c).map fun c => t.callPacket c.index c.message := by
  induction cs with
  | nil => rfl
  | cons c cs ih =>
      rw [List.map_cons, List.filterMap_cons, List.filter_cons, ih]
      by_cases h : t.Taken c
      · simp [h]
      · simp [h]

/-- The packets of each read, with what they are read as. -/
lemma exists_reads {gs : List (List Str)}
    (h : gs.flatten = cs.map fun c => t.callPacket c.index c.message) :
    ∃ ps : List (List Packet), ps.flatten = cs.map t.callPair ∧
      ps.map stream = gs.map List.flatten := by
  induction gs generalizing cs with
  | nil =>
      obtain rfl : cs = [] := by simpa using h.symm
      exact ⟨[], rfl, rfl⟩
  | cons g gs ih =>
      rw [List.flatten_cons] at h
      obtain ⟨cs₁, cs₂, rfl, h₁, h₂⟩ := List.map_eq_append_iff.mp h.symm
      obtain ⟨ps, hps, hstream⟩ := ih h₂.symm
      refine ⟨cs₁.map t.callPair :: ps, ?_, ?_⟩
      · rw [List.flatten_cons, hps, List.map_append]
      · rw [List.map_cons, List.map_cons, hstream, stream, List.map_map, ← h₁]
        rfl

/-- A host with the service of the program. -/
def callingHost : Sender where
  name := str "Sip"
  host := str "a"
  user := none
  password := none
  to_ := str "Route"
  methods := sipMethods

/-- The other side, connected to the broker. -/
def calledHost : Transport where
  name := str "Sip"
  methods := sipMethods
  host := str "b"
  port := 0

/-- The connection of the other side. -/
def calledEvent : NetEvent :=
  { app := .cmd, type := .connect, foo := some calledHost
    incoming := memNew connectedBlock (.inet [49] 1883) }

lemma calledEvent_ready : BusReady 4096 calledHost [] calledEvent where
  app := rfl
  foo := rfl
  sized := memNew_sized (by rw [length_connectedBlock]; decide) _
  ordered := memNew_ordered _ _
  length := length_connectedBlock
  begin_ := rfl
  unread := by
    show (connectedBlock.drop 0).take 0 = []
    rw [List.take_zero]

/-- Three calls, the second of which is not relayed. -/
def threeCalls : List Call :=
  [⟨⟨true, fun _ => true⟩, 1, [8, 1]⟩, ⟨⟨true, fun _ => false⟩, 4, [8, 2]⟩,
    ⟨⟨true, fun _ => true⟩, 4, [8, 3]⟩]

end Both

end SipEcho
