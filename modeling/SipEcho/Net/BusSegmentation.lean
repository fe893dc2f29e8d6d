import SipEcho.Mqtt.Prefix
import SipEcho.Net.Progress

/-!
Segmentation of the bus connection: what `command` is called on, over a stream of control
packets cut into reads.

`command` answers a packet that is not complete yet with an error, `cmd_error` marks the event,
and `net_callback_inout` closes it.  So a read that ends inside a packet ends the connection.

* `Commands`: the receive loop with the calls of `command` it makes;
* `CmdRun`: the read callbacks of a connection over a list of reads;
* `commands_cases`: what one read comes to, in front of the rest of the stream;
* `AtPackets`: every read ends where a packet ends, and no packet raises an error too early;
* `bus_segmentation_iff`: exactly then the calls are the packets of the stream.
-/

namespace SipEcho

/-- `net->err`, which `cmd_error` sets. -/
def NetEvent.err (e : NetEvent) : Option MqttError := e.foo.bind (·.err)

variable (env : Env)

/-- The receive loop of a bus connection, with what each call of `command` unpacks. -/
inductive Commands : NetEvent → List (Unpacked Response) → NetEvent → Prop
  | empty {e : NetEvent} : memEmpty e.incoming = true → Commands e [] e
  | stop {e e' : NetEvent} : memEmpty e.incoming = false → receiveTurn env e = .stop e' →
      Commands e [mqttUnpackResponse e.incoming.unread] e'
  | again {e e' e'' : NetEvent} {cs : List (Unpacked Response)} :
      receiveTurn env e = .again e' → Commands e' cs e'' →
      Commands e (mqttUnpackResponse e.incoming.unread :: cs) e''

/-- The read callbacks of a bus connection: it is closed behind a read that has left an
error. -/
inductive CmdRun : NetEvent → List Str → List (Unpacked Response) → Option NetEvent → Prop
  | done (e : NetEvent) : CmdRun e [] [] (some e)
  | read {e e' : NetEvent} {d : Str} {ds : List Str} {c cs : List (Unpacked Response)}
      {r : Option NetEvent} : (SipEcho.tcpRead (some d) e.incoming).2 = d.length →
      Commands env (e.tcpRead d) c e' → e'.err = none → CmdRun e' ds cs r →
      CmdRun e (d :: ds) (c ++ cs) r
  | closed {e e' : NetEvent} {d : Str} {ds : List Str} {c : List (Unpacked Response)} :
      (SipEcho.tcpRead (some d) e.incoming).2 = d.length →
      Commands env (e.tcpRead d) c e' → e'.err ≠ none → CmdRun e (d :: ds) c none

/-- A packet: its bytes, and what they are read as. -/
abbrev Packet := Str × Response

/-- The bytes of packets. -/
def stream (ps : List Packet) : Str := (ps.map (·.1)).flatten

/-- The calls of `command` on packets, one for each. -/
def calls (ps : List Packet) : List (Unpacked Response) := ps.map fun p => .packet p.2 p.1.length

/-- The protocol object behind packets none of which makes `command` return an error. -/
def passAll (b : Bus) : Transport → List Packet → Option Transport
  | t, [] => some t
  | t, p :: ps =>
      if (commandPacket b t p.2).2 < 0 then none else passAll b (commandPacket b t p.2).1 ps

/-- The packets of each read: none in front of the last makes `command` return an error, and
none in front of the last read raises one. -/
def Undisturbed (b : Bus) : Transport → List (List Packet) → Prop
  | _, [] => True
  | t, g :: gs => passAll b t g.dropLast ≠ none ∧
      (gs ≠ [] → ∃ t', passAll b t g = some t' ∧ t'.err = none ∧ Undisturbed b t' gs)

/-- The reads are whole packets of the stream, undisturbed. -/
def AtPackets (b : Bus) (t : Transport) (ps : List Packet) (ds : List Str) : Prop :=
  ∃ gs : List (List Packet), gs.flatten = ps ∧ ds = gs.map stream ∧ Undisturbed b t gs

/-- A bus connection with the unread bytes `u` at the front of its block. -/
structure BusReady (cap : ℕ) (t : Transport) (u : Str) (e : NetEvent) : Prop where
  app : e.app = .cmd
  foo : e.foo = some t
  sized : e.incoming.Sized
  ordered : e.incoming.Ordered
  length : e.incoming.length = cap
  begin_ : e.incoming.begin = 0
  unread : e.incoming.unread = u

/-! ### The loop -/

section Loop

variable {env}

/-- It is the receive loop. -/
lemma Commands.spin {e e' : NetEvent} {cs : List (Unpacked Response)}
    (h : Commands env e cs e') : ∃ n, Lib.spin (receiveTurn env) n e = some e' := by
  induction h with
  | empty hne =>
      refine ⟨1, Lib.spin_stop ?_ 0⟩
      rw [receiveTurn, if_pos hne]
  | stop _ hturn => exact ⟨1, Lib.spin_stop hturn 0⟩
  | again hturn _ ih =>
      obtain ⟨n, hn⟩ := ih
      exact ⟨n + 1, by rw [Lib.spin_again hturn, hn]⟩

lemma receiveTurn_empty {e : NetEvent} (h : memEmpty e.incoming = true) :
    receiveTurn env e = .stop e := by
  rw [receiveTurn, if_pos h]

lemma Commands.unique {e e₁ e₂ : NetEvent} {c₁ c₂ : List (Unpacked Response)}
    (h₁ : Commands env e c₁ e₁) (h₂ : Commands env e c₂ e₂) : c₁ = c₂ ∧ e₁ = e₂ := by
  induction h₁ generalizing c₂ e₂ with
  | empty he =>
      cases h₂ with
      | empty => exact ⟨rfl, rfl⟩
      | stop hne _ => exact absurd (he.symm.trans hne) (by simp)
      | again hturn _ => exact absurd ((receiveTurn_empty he).symm.trans hturn) (by simp)
  | stop hne hturn =>
      cases h₂ with
      | empty he => exact absurd (he.symm.trans hne) (by simp)
      | stop _ hturn' =>
          have := hturn.symm.trans hturn'
          simp only [Lib.Turn.stop.injEq] at this
          exact ⟨rfl, this⟩
      | again hturn' _ => exact absurd (hturn.symm.trans hturn') (by simp)
  | again hturn _ ih =>
      cases h₂ with
      | empty he => exact absurd ((receiveTurn_empty he).symm.trans hturn) (by simp)
      | stop _ hturn' => exact absurd (hturn.symm.trans hturn') (by simp)
      | again hturn' hrest =>
          have := hturn.symm.trans hturn'
          simp only [Lib.Turn.again.injEq] at this
          subst this
          obtain ⟨rfl, rfl⟩ := ih hrest
          exact ⟨rfl, rfl⟩

lemma CmdRun.unique {e : NetEvent} {ds : List Str} {c₁ c₂ : List (Unpacked Response)}
    {r₁ r₂ : Option NetEvent} (h₁ : CmdRun env e ds c₁ r₁) (h₂ : CmdRun env e ds c₂ r₂) :
    c₁ = c₂ ∧ r₁ = r₂ := by
  induction h₁ generalizing c₂ r₂ with
  | done =>
      cases h₂
      exact ⟨rfl, rfl⟩
  | read _ hc hok _ ih =>
      cases h₂ with
      | read _ hc' _ hrest =>
          obtain ⟨rfl, rfl⟩ := hc.unique hc'
          obtain ⟨rfl, rfl⟩ := ih hrest
          exact ⟨rfl, rfl⟩
      | closed _ hc' herr =>
          obtain ⟨-, rfl⟩ := hc.unique hc'
          exact absurd hok herr
  | closed _ hc herr =>
      cases h₂ with
      | read _ hc' hok _ =>
          obtain ⟨-, rfl⟩ := hc.unique hc'
          exact absurd hok herr
      | closed _ hc' _ =>
          obtain ⟨rfl, -⟩ := hc.unique hc'
          exact ⟨rfl, rfl⟩

end Loop

/-! ### One call -/

section Call

variable {env} {cap : ℕ} {t : Transport} {e : NetEvent} {p s : Str} {r : Response}

lemma command_wellFormed (b : Bus) (hp : WellFormed p r) :
    command b t (p ++ s) =
      if (commandPacket b t r).2 < 0 then commandPacket b t r
      else ((commandPacket b t r).1, p.length) := by
  have hshort := hp.short
  rw [command, hp.append s]
  dsimp only
  rw [if_neg (by omega)]

lemma command_incomplete {b : Bus} {u : Str} (h : mqttUnpackResponse u = .incomplete) :
    command b t u = t.error .malformedRequest := by
  rw [command, h]

lemma suback_err {cs : List ℕ} (h : (suback cs t).2 < 0) : (suback cs t).1.err ≠ none := by
  induction cs generalizing t with
  | nil => exact absurd h (by simp [suback])
  | cons c cs ih =>
      rw [suback] at h ⊢
      split
      · rename_i hc
        rw [if_pos hc] at h
        exact ih h
      · simp [Transport.error]

/-- A packet that makes `command` fail has raised an error. -/
lemma commandPacket_err {b : Bus} (h : (commandPacket b t r).2 < 0) :
    (commandPacket b t r).1.err ≠ none := by
  rw [commandPacket] at h ⊢
  split
  · rename_i hr
    rw [hr] at h
    dsimp only at h ⊢
    split
    · simp [Transport.error]
    · rename_i hn
      rw [if_neg hn] at h
      exact absurd h (by simp)
  · simp [Transport.error]
  · rename_i hr
    rw [hr] at h
    exact suback_err h
  · rename_i hr
    rw [hr] at h
    exact absurd h (by simp)
  all_goals
    rename_i hr
    rw [hr] at h
    exact absurd h (by simp)

/-- A turn of a bus connection with unread bytes is a call of `cmd_execute`. -/
lemma receiveTurn_cmd (happ : e.app = .cmd) (hne : memEmpty e.incoming = false) :
    receiveTurn env e =
      if (cmdExecute env e).2 = 0 then
        .again { (cmdExecute env e).1 with incoming := memAlign (cmdExecute env e).1.incoming }
      else .stop (cmdExecute env e).1 := by
  rw [receiveTurn, hne, execute_cmd happ]
  rfl

lemma BusReady.memEmpty {u : Str} (he : BusReady cap t u e) :
    memEmpty e.incoming = decide (u = []) := by
  have hlen := Mem.length_unread he.sized he.ordered
  have hbe := he.ordered.begin_le_end
  rw [he.unread, he.begin_] at hlen
  rw [SipEcho.memEmpty, he.begin_]
  refine decide_eq_decide.mpr ?_
  rw [← List.length_eq_zero_iff]
  omega

/-- A call that fails leaves the loop, the error with the connection. -/
lemma BusReady.turn_stop {u : Str} (he : BusReady cap t u e) (hu : u ≠ [])
    (hneg : (command env.bus t u).2 < 0) :
    ∃ e', receiveTurn env e = .stop e' ∧ e'.foo = some (command env.bus t u).1 := by
  have hex : cmdExecute env e = ({ e with foo := some (command env.bus t u).1 }, -1) := by
    rw [cmdExecute, he.foo, he.unread]
    dsimp only
    rw [if_pos hneg]
  refine ⟨(cmdExecute env e).1, ?_, by rw [hex]⟩
  rw [receiveTurn_cmd he.app (by rw [he.memEmpty]; simpa using hu), if_neg]
  rw [hex]
  simp

/-- **A packet in front** is taken, and the loop goes on. -/
lemma BusReady.turn_again (he : BusReady cap t (p ++ s) e) (hp : WellFormed p r)
    (hpos : ¬ (commandPacket env.bus t r).2 < 0) :
    ∃ e', receiveTurn env e = .again e' ∧
      BusReady cap (commandPacket env.bus t r).1 s e' := by
  have hlen := Mem.length_unread he.sized he.ordered
  have hplen := hp.length_pos
  have hbe := he.ordered.begin_le_end
  have hel := he.ordered.end_le_length
  have hlt := he.sized.length_lt
  rw [he.unread, he.begin_, List.length_append] at hlen
  have hu : u16 (((0 : ℕ) : ℤ) + (p.length : ℕ)) = p.length := by
    rw [Nat.cast_zero, zero_add]
    exact u16_natCast (by omega)
  have hex : cmdExecute env e =
      ({ e with
         foo := some (commandPacket env.bus t r).1
         incoming := { e.incoming with begin := p.length, done := p.length } }, 0) := by
    rw [cmdExecute, he.foo, he.unread]
    dsimp only
    rw [command_wellFormed env.bus hp, if_neg hpos, if_neg (by simp), he.begin_, hu]
  have hs' : ({ e.incoming with begin := p.length, done := p.length } : Mem).Sized :=
    ⟨he.sized.buffer_length, hlt, by dsimp only; omega⟩
  have ho' : ({ e.incoming with begin := p.length, done := p.length } : Mem).Ordered :=
    ⟨by dsimp only; omega, hel, le_rfl⟩
  have hrest : ({ e.incoming with begin := p.length, done := p.length } : Mem).unread = s := by
    have hdrop : ({ e.incoming with begin := p.length, done := p.length } : Mem).unread =
        e.incoming.unread.drop p.length := by
      rw [Mem.unread, Mem.unread, Mem.bytes, Mem.bytes, List.drop_take, List.drop_drop,
        he.begin_]
      congr 2
      dsimp only
      omega
    rw [hdrop, he.unread, List.drop_left]
  have hne : SipEcho.memEmpty e.incoming = false := by
    rw [he.memEmpty, decide_eq_false_iff_not]
    intro h
    have := congrArg List.length h
    rw [List.length_append, List.length_nil] at this
    omega
  refine ⟨_, by rw [receiveTurn_cmd he.app hne, hex, if_pos rfl], ?_⟩
  exact
    { app := he.app
      foo := rfl
      sized := memAlign_sized hs' ho'
      ordered := memAlign_ordered hs' ho'
      length := by dsimp only; rw [memAlign_length]; exact he.length
      begin_ := memAlign_begin
      unread := by dsimp only; rw [memAlign_unread hs' ho', hrest] }

/-- A read into an empty block. -/
lemma BusReady.recv (he : BusReady cap t [] e) {d : Str} (hd : d.length ≤ cap) :
    (SipEcho.tcpRead (some d) e.incoming).2 = d.length ∧ BusReady cap t d (e.tcpRead d) := by
  have hend : e.incoming.end_ = 0 := by
    have hempty := he.memEmpty
    rw [SipEcho.memEmpty, he.begin_] at hempty
    simpa using hempty
  have hle := he.ordered.end_le_length
  have hincoming : (e.tcpRead d).incoming = recvInto d e.incoming := by
    rw [NetEvent.tcpRead, SipEcho.tcpRead, if_pos hle]
  constructor
  · rw [SipEcho.tcpRead, if_pos hle, hend, he.length]
    exact congrArg Nat.cast (by rw [List.length_take]; omega)
  · exact
      { app := he.app
        foo := he.foo
        sized := by rw [hincoming]; exact recvInto_sized he.sized hle
        ordered := by rw [hincoming]; exact recvInto_ordered he.sized he.ordered
        length := by rw [hincoming]; exact he.length
        begin_ := by rw [hincoming]; exact he.begin_
        unread := by
          rw [hincoming, recvInto_unread he.sized he.ordered (by rw [hend, he.length]; omega),
            he.unread, List.nil_append] }

end Call

/-! ### One read -/

section Read

variable {env} {cap : ℕ} {t t' : Transport} {e e' : NetEvent} {b : Bus}
  {g g' rest ps : List Packet} {x : Packet} {d : Str} {cs : List (Unpacked Response)}

/-- Packets that are whole. -/
def Whole (ps : List Packet) : Prop := ∀ p ∈ ps, WellFormed p.1 p.2

lemma stream_cons (p : Packet) (ps : List Packet) : stream (p :: ps) = p.1 ++ stream ps := rfl

lemma stream_append (g rest : List Packet) : stream (g ++ rest) = stream g ++ stream rest := by
  rw [stream, List.map_append, List.flatten_append]
  rfl

lemma calls_append (g rest : List Packet) : calls (g ++ rest) = calls g ++ calls rest :=
  List.map_append

lemma Whole.tail (h : Whole (x :: ps)) : Whole ps := fun p hp => h p (List.mem_cons_of_mem _ hp)

lemma Whole.right (h : Whole (g ++ rest)) : Whole rest :=
  fun p hp => h p (List.mem_append_right _ hp)

/-- No packet is empty. -/
lemma Whole.stream_eq_nil (h : Whole ps) (hs : stream ps = []) : ps = [] := by
  cases ps with
  | nil => rfl
  | cons p ps =>
      have := (h p List.mem_cons_self).length_pos
      rw [stream_cons, List.append_eq_nil_iff] at hs
      rw [hs.1] at this
      exact absurd this (by simp)

lemma passAll_append (g rest : List Packet) :
    passAll b t (g ++ rest) = (passAll b t g).bind fun t' => passAll b t' rest := by
  induction g generalizing t with
  | nil => rfl
  | cons p g ih =>
      rw [List.cons_append, passAll, passAll]
      split
      · rfl
      · exact ih

/-- **What a read comes to**: all of it is packets; or one of them makes `command` fail; or it
ends inside a packet. -/
inductive Outcome (cap : ℕ) (b : Bus) (t : Transport) (ps : List Packet) (d : Str) :
    List (Unpacked Response) → NetEvent → Prop
  | whole {g rest : List Packet} {t' : Transport} {e' : NetEvent} : ps = g ++ rest →
      d = stream g → passAll b t g = some t' → BusReady cap t' [] e' →
      Outcome cap b t ps d (calls g) e'
  | failed {g rest : List Packet} {x : Packet} {t' : Transport} {e' : NetEvent} :
      ps = g ++ x :: rest → stream (g ++ [x]) <+: d → passAll b t g = some t' →
      (commandPacket b t' x.2).2 < 0 → e'.err ≠ none →
      Outcome cap b t ps d (calls (g ++ [x])) e'
  | part {g rest : List Packet} {x : Packet} {k : ℕ} {e' : NetEvent} : ps = g ++ x :: rest →
      d = stream g ++ x.1.take k → 0 < k → k < x.1.length → e'.err ≠ none →
      Outcome cap b t ps d (calls g ++ [.incomplete]) e'

lemma Outcome.cons (h : Outcome cap b (commandPacket b t x.2).1 ps d cs e')
    (hx : ¬ (commandPacket b t x.2).2 < 0) :
    Outcome cap b t (x :: ps) (x.1 ++ d) (.packet x.2 x.1.length :: cs) e' := by
  have pass (g : List Packet) :
      passAll b t (x :: g) = passAll b (commandPacket b t x.2).1 g := by
    rw [passAll, if_neg hx]
  cases h with
  | @whole g rest t' e' hps hd hpass he =>
      refine @Outcome.whole cap b t _ _ (x :: g) rest t' _ ?_ ?_ ?_ he
      · rw [hps, List.cons_append]
      · rw [hd, stream_cons]
      · rw [pass, hpass]
  | @failed g rest y t' e' hps hd hpass hneg he =>
      refine @Outcome.failed cap b t _ _ (x :: g) rest y t' _ ?_ ?_ ?_ hneg he
      · rw [hps, List.cons_append]
      · rw [List.cons_append, stream_cons]
        exact (List.prefix_append_right_inj _).mpr hd
      · rw [pass, hpass]
  | @part g rest y k e' hps hd hk hlt he =>
      refine @Outcome.part cap b t _ _ (x :: g) rest y k _ ?_ ?_ hk hlt he
      · rw [hps, List.cons_append]
      · rw [hd, stream_cons, List.append_assoc]

lemma err_of_foo (h : e.foo = some t) : e.err = t.err := by
  rw [NetEvent.err, h]
  rfl

variable (env) in
/-- **One read**, in front of the rest of a stream of packets. -/
lemma commands_cases (hps : Whole ps) (he : BusReady cap t d e) (hd : d <+: stream ps) :
    ∃ cs e', Commands env e cs e' ∧ Outcome cap env.bus t ps d cs e' := by
  induction ps generalizing t d e with
  | nil =>
      have hnil : d = [] := by simpa [stream] using hd
      subst hnil
      exact ⟨[], e, .empty (by rw [he.memEmpty]; rfl), .whole (g := []) rfl rfl rfl he⟩
  | cons x ps ih =>
      by_cases hnil : d = []
      · subst hnil
        exact ⟨[], e, .empty (by rw [he.memEmpty]; rfl), .whole (g := []) rfl rfl rfl he⟩
      have hx := hps x List.mem_cons_self
      have hne : SipEcho.memEmpty e.incoming = false := by
        rw [he.memEmpty]
        simpa using hnil
      rw [stream_cons] at hd
      by_cases hlen : x.1.length ≤ d.length
      · -- the packet has arrived
        obtain ⟨s, rfl⟩ : x.1 <+: d :=
          List.prefix_of_prefix_length_le (List.prefix_append _ _) hd hlen
        have hs := (List.prefix_append_right_inj _).mp hd
        have hunpack : mqttUnpackResponse e.incoming.unread = .packet x.2 x.1.length := by
          rw [he.unread]
          exact hx.append s
        by_cases hneg : (commandPacket env.bus t x.2).2 < 0
        · have hcmd := command_wellFormed (t := t) (s := s) env.bus hx
          rw [if_pos hneg] at hcmd
          obtain ⟨e', hturn, hfoo⟩ := he.turn_stop hnil (by rw [hcmd]; exact hneg)
          rw [hcmd] at hfoo
          refine ⟨_, e', .stop hne hturn, ?_⟩
          rw [hunpack]
          refine .failed (g := []) (x := x) rfl ?_ rfl hneg ?_
          · rw [List.nil_append, stream_cons, stream, List.map_nil, List.flatten_nil,
              List.append_nil]
            exact List.prefix_append _ _
          · rw [err_of_foo hfoo]
            exact commandPacket_err hneg
        · obtain ⟨e₁, hturn, he₁⟩ := he.turn_again hx hneg
          obtain ⟨cs, e', hcs, hout⟩ := ih hps.tail he₁ hs
          refine ⟨_, e', .again hturn hcs, ?_⟩
          rw [hunpack]
          exact hout.cons hneg
      · -- a part of it
        have hpart : d = x.1.take d.length := by
          have := List.prefix_of_prefix_length_le hd (List.prefix_append x.1 (stream ps)) (by omega)
          exact List.prefix_iff_eq_take.mp this
        have hinc : mqttUnpackResponse d = .incomplete := by
          rw [hpart]
          exact hx.take (by omega)
        have hcmd := command_incomplete (b := env.bus) (t := t) hinc
        obtain ⟨e', hturn, hfoo⟩ := he.turn_stop hnil (by rw [hcmd]; simp [Transport.error])
        rw [hcmd] at hfoo
        refine ⟨_, e', .stop hne hturn, ?_⟩
        rw [he.unread, hinc]
        refine .part (g := []) (x := x) (k := d.length) rfl hpart
          (List.length_pos_of_ne_nil hnil) (by omega) ?_
        rw [err_of_foo hfoo]
        simp [Transport.error]

end Read

/-! ### The run -/

section Run

variable {env} {cap : ℕ} {t t' : Transport} {e : NetEvent} {b : Bus}
  {g g' rest ps : List Packet} {x : Packet} {d : Str} {ds : List Str}

/-- Of two beginnings of one stream the one with fewer bytes has fewer packets. -/
lemma prefix_of_stream_le (hps : Whole ps) (hg : g <+: ps) (hg' : g' <+: ps)
    (hle : (stream g).length ≤ (stream g').length) : g <+: g' := by
  rcases List.prefix_or_prefix_of_prefix hg hg' with h | ⟨z, rfl⟩
  · exact h
  · have hz : stream z = [] := by
      rw [stream_append, List.length_append] at hle
      exact List.length_eq_zero_iff.mp (by omega)
    have hwhole : Whole z := fun p hp => hps p (hg.subset (List.mem_append_right _ hp))
    rw [hwhole.stream_eq_nil hz, List.append_nil]

lemma passAll_dropLast (h : passAll b t g = some t') : passAll b t g.dropLast ≠ none := by
  intro hnone
  rcases List.eq_nil_or_concat g with rfl | ⟨g, x, rfl⟩
  · exact absurd hnone (by simp [passAll])
  · rw [List.concat_eq_append, List.dropLast_concat] at hnone
    rw [List.concat_eq_append, passAll_append, hnone] at h
    exact absurd h (by simp)

/-- The first read of a stream that is cut at packets. -/
lemma atPackets_cons : AtPackets b t ps (d :: ds) ↔
    ∃ g rest, ps = g ++ rest ∧ d = stream g ∧ passAll b t g.dropLast ≠ none ∧
      (ds = [] → rest = []) ∧
      (ds ≠ [] → ∃ t', passAll b t g = some t' ∧ t'.err = none ∧ AtPackets b t' rest ds) := by
  constructor
  · rintro ⟨gs, rfl, hds, hun⟩
    cases gs with
    | nil => exact absurd hds (by simp)
    | cons g gs =>
        rw [List.map_cons, List.cons.injEq] at hds
        obtain ⟨rfl, rfl⟩ := hds
        refine ⟨g, gs.flatten, List.flatten_cons, rfl, hun.1, ?_, ?_⟩
        · intro h
          rw [List.map_eq_nil_iff.mp h, List.flatten_nil]
        · intro h
          obtain ⟨t', h1, h2, h3⟩ := hun.2 fun h' => h (by rw [h', List.map_nil])
          exact ⟨t', h1, h2, gs, rfl, rfl, h3⟩
  · rintro ⟨g, rest, rfl, rfl, hlast, hnil, hcons⟩
    by_cases hds : ds = []
    · refine ⟨[g], by rw [hnil hds]; simp, by rw [hds]; rfl, hlast, fun h => absurd rfl h⟩
    · obtain ⟨t', h1, h2, gs, rfl, hgs, h3⟩ := hcons hds
      exact ⟨g :: gs, List.flatten_cons, by rw [List.map_cons, hgs], hlast,
        fun _ => ⟨t', h1, h2, h3⟩⟩

/-- **A read of whole packets** and what follows it. -/
lemma atPackets_whole (hps : Whole (g ++ rest)) (hpass : passAll b t g = some t') :
    AtPackets b t (g ++ rest) (stream g :: ds) ↔
      (ds = [] → rest = []) ∧ (ds ≠ [] → t'.err = none ∧ AtPackets b t' rest ds) := by
  rw [atPackets_cons]
  constructor
  · rintro ⟨g₁, rest₁, hsplit, hstream, -, hnil, hcons⟩
    have h1 : g₁ <+: g ++ rest := ⟨rest₁, hsplit.symm⟩
    have h2 : g <+: g ++ rest := List.prefix_append _ _
    obtain rfl : g = g₁ :=
      (prefix_of_stream_le hps h2 h1 (by rw [hstream])).eq_of_length_le
        (prefix_of_stream_le hps h1 h2 (by rw [hstream])).length_le
    obtain rfl := List.append_cancel_left hsplit
    refine ⟨hnil, fun h => ?_⟩
    obtain ⟨t'', ht'', herr, hat⟩ := hcons h
    rw [hpass] at ht''
    obtain rfl := Option.some.inj ht''
    exact ⟨herr, hat⟩
  · rintro ⟨hnil, hcons⟩
    refine ⟨g, rest, rfl, rfl, passAll_dropLast hpass, hnil, fun h => ?_⟩
    exact ⟨t', hpass, hcons h⟩

/-- **A packet that makes `command` fail** has to be the last. -/
lemma atPackets_failed (hps : Whole (g ++ x :: rest)) (hpass : passAll b t g = some t')
    (hneg : (commandPacket b t' x.2).2 < 0) (hd : stream (g ++ [x]) <+: d)
    (hds : (d :: ds).flatten = stream (g ++ x :: rest)) (hne : ∀ c ∈ ds, c ≠ []) :
    AtPackets b t (g ++ x :: rest) (d :: ds) ↔ rest = [] := by
  have hassoc : g ++ x :: rest = (g ++ [x]) ++ rest := by simp
  have hnone : passAll b t (g ++ [x]) = none := by
    rw [passAll_append, hpass, Option.bind_some, passAll, if_pos hneg]
  rw [atPackets_cons]
  constructor
  · rintro ⟨g₁, rest₁, hsplit, rfl, hlast, hnil, hcons⟩
    have h1 : g₁ <+: g ++ x :: rest := ⟨rest₁, hsplit.symm⟩
    obtain ⟨z, rfl⟩ := prefix_of_stream_le hps ⟨rest, hassoc.symm⟩ h1 hd.length_le
    have hz : z = [] := by
      by_contra hz
      rw [List.dropLast_append_of_ne_nil hz, passAll_append, hnone] at hlast
      exact hlast rfl
    subst hz
    rw [List.append_nil] at hsplit hcons
    have hds' : ds = [] := by
      by_contra h
      obtain ⟨t'', ht'', -⟩ := hcons h
      rw [hnone] at ht''
      exact absurd ht'' (by simp)
    rw [hassoc] at hsplit
    exact (List.append_cancel_left hsplit).trans (hnil hds')
  · rintro rfl
    have hlen := congrArg List.length hds
    rw [List.flatten_cons, List.length_append] at hlen
    have hdl := hd.length_le
    have hds' : ds = [] := by
      cases ds with
      | nil => rfl
      | cons c ds =>
          have := List.length_pos_of_ne_nil (hne c List.mem_cons_self)
          rw [List.flatten_cons, List.length_append] at hlen
          omega
    subst hds'
    refine ⟨g ++ [x], [], by simp, ?_, ?_, fun _ => rfl, fun h => absurd rfl h⟩
    · rw [List.flatten_cons, List.flatten_nil, List.append_nil] at hds
      exact hds
    · rw [List.dropLast_concat, hpass]
      simp

/-- **A read that ends inside a packet** is not cut at packets. -/
lemma not_atPackets_part {k : ℕ} (hps : Whole (g ++ x :: rest)) (hk : 0 < k)
    (hlt : k < x.1.length) :
    ¬ AtPackets b t (g ++ x :: rest) ((stream g ++ x.1.take k) :: ds) := by
  rw [atPackets_cons]
  rintro ⟨g₁, rest₁, hsplit, hd, -⟩
  have hassoc : g ++ x :: rest = (g ++ [x]) ++ rest := by simp
  have h1 : g₁ <+: g ++ x :: rest := ⟨rest₁, hsplit.symm⟩
  have hlen := congrArg List.length hd
  rw [List.length_append, List.length_take] at hlen
  rcases le_or_gt (stream g₁).length (stream g).length with hle | hgt
  · omega
  · -- the first read would have the packet it ends in
    obtain ⟨z, rfl⟩ := prefix_of_stream_le hps (List.prefix_append _ _) h1 hgt.le
    cases z with
    | nil =>
        rw [List.append_nil] at hgt
        exact absurd hgt (lt_irrefl _)
    | cons y z =>
        rw [List.append_assoc] at hsplit
        have hxy := List.append_cancel_left hsplit
        rw [List.cons_append, List.cons.injEq] at hxy
        obtain ⟨rfl, -⟩ := hxy
        rw [stream_append, stream_cons, List.length_append, List.length_append] at hlen
        omega

variable (env) in
/-- **From a connection with an empty block on.** -/
lemma cmdRun_iff (hps : Whole ps) (he : BusReady cap t [] e)
    (hds : ∀ d ∈ ds, d ≠ [] ∧ d.length ≤ cap) (hst : ds.flatten = stream ps) :
    ∃ cs r, CmdRun env e ds cs r ∧ (cs = calls ps ↔ AtPackets env.bus t ps ds) := by
  induction ds generalizing ps t e with
  | nil =>
      obtain rfl := hps.stream_eq_nil hst.symm
      exact ⟨[], some e, .done e, ⟨fun _ => ⟨[], rfl, rfl, trivial⟩, fun _ => rfl⟩⟩
  | cons d ds ih =>
      obtain ⟨-, hdcap⟩ := hds d List.mem_cons_self
      have hds' : ∀ c ∈ ds, c ≠ [] ∧ c.length ≤ cap := fun c hc =>
        hds c (List.mem_cons_of_mem _ hc)
      obtain ⟨hread, hready⟩ := he.recv hdcap
      obtain ⟨c, e', hc, hout⟩ := commands_cases env hps hready
        ⟨ds.flatten, by rw [← hst, List.flatten_cons]⟩
      have calls_iff (g rest : List Packet) : calls g = calls (g ++ rest) ↔ rest = [] := by
        rw [calls_append, List.self_eq_append_right, calls, List.map_eq_nil_iff]
      cases hout with
      | @whole g rest t' _ hsplit hd hpass he' =>
          subst hsplit
          subst hd
          have hrest : ds.flatten = stream rest := by
            rw [List.flatten_cons, stream_append] at hst
            exact List.append_cancel_left hst
          have hempty : ds = [] → rest = [] := by
            rintro rfl
            exact hps.right.stream_eq_nil hrest.symm
          rw [atPackets_whole hps hpass]
          by_cases herr : t'.err = none
          · obtain ⟨cs, r, hrun, hiff⟩ := ih hps.right he' hds' hrest
            refine ⟨calls g ++ cs, r, .read hread hc (by rw [err_of_foo he'.foo, herr]) hrun, ?_⟩
            rw [calls_append, List.append_cancel_left_eq, hiff]
            constructor
            · exact fun h => ⟨hempty, fun _ => ⟨herr, h⟩⟩
            · rintro ⟨-, h⟩
              by_cases hnil : ds = []
              · obtain rfl := hempty hnil
                subst hnil
                exact ⟨[], rfl, rfl, trivial⟩
              · exact (h hnil).2
          · refine ⟨calls g, none, .closed hread hc (by rw [err_of_foo he'.foo]; exact herr), ?_⟩
            rw [calls_iff]
            constructor
            · rintro rfl
              refine ⟨fun _ => rfl, fun h => ?_⟩
              obtain ⟨c, hc⟩ := List.exists_mem_of_ne_nil _ h
              have : c = [] := List.flatten_eq_nil_iff.mp hrest c hc
              exact absurd this (hds' c hc).1
            · rintro ⟨-, h⟩
              by_contra hne
              exact herr (h fun hnil => hne (hempty hnil)).1
      | @failed g rest x t' _ hsplit hd hpass hneg herr =>
          subst hsplit
          refine ⟨_, none, .closed hread hc herr, ?_⟩
          rw [atPackets_failed hps hpass hneg hd hst fun c hc => (hds' c hc).1]
          have hassoc : g ++ x :: rest = (g ++ [x]) ++ rest := by simp
          rw [hassoc, calls_iff]
      | @part g rest x k _ hsplit hd hk hlt herr =>
          subst hsplit
          refine ⟨_, none, .closed hread hc herr, ?_⟩
          rw [hd]
          refine iff_of_false (fun h => ?_) (not_atPackets_part hps hk hlt)
          have hmem : Unpacked.incomplete ∈ calls (g ++ x :: rest) := by
            rw [← h]
            simp
          obtain ⟨p, -, hp⟩ := List.mem_map.mp hmem
          exact absurd hp (by simp)

end Run

/-! ### Whole packets, and a PINGRESP in two reads -/

/-- A block of the size the sources allocate for an outgoing connection. -/
@[irreducible] def connectedBlock : Str := List.replicate 4096 0

lemma length_connectedBlock : connectedBlock.length = 4096 := by
  rw [connectedBlock, List.length_replicate]

/-- A connection to the broker, its CONNECT sent. -/
def brokerEvent : NetEvent :=
  cmdAcquire { name := [], methods := [], host := [], port := 0 }
    { app := .cmd, type := .connect, incoming := memNew connectedBlock (.inet [49] 1883) }

lemma brokerEvent_ready :
    BusReady 4096 { name := [], methods := [], host := [], port := 0 } [] brokerEvent where
  app := rfl
  foo := rfl
  sized := memNew_sized (by rw [length_connectedBlock]; decide) _
  ordered := memNew_ordered _ _
  length := length_connectedBlock
  begin_ := rfl
  unread := by
    show (connectedBlock.drop 0).take 0 = []
    rw [List.take_zero]

/-- A PINGRESP. -/
def pingresp : Packet := ([208, 0], ⟨⟨.pingresp, 0, 0⟩, .pingresp⟩)

lemma pingresp_whole : Whole [pingresp] := by
  intro p hp
  rw [List.mem_singleton.mp hp]
  exact ⟨by decide, by decide⟩

/-- A CONNACK; a SUBACK and the PUBLISH of `hi` under `a`; a PINGRESP. -/
def greeting : List (List Packet) :=
  [[([32, 2, 0, 0], ⟨⟨.connack, 0, 2⟩, .connack 0 0⟩)],
    [([144, 3, 0, 1, 0], ⟨⟨.suback, 0, 3⟩, .suback 1 [0]⟩),
      ([48, 5, 0, 1, 97, 104, 105], ⟨⟨.publish, 0, 5⟩,
        .publish { dupFlag := 0, qosLevel := 0, retainFlag := 0, topicName := [97],
                   packetId := 0, applicationMessage := [104, 105] }⟩)],
    [pingresp]]

lemma greeting_whole : Whole greeting.flatten := by
  have h : ∀ p ∈ greeting.flatten,
      mqttUnpackResponse p.1 = .packet p.2 p.1.length ∧ p.1.length ≤ 32767 := by decide
  exact fun p hp => ⟨(h p hp).1, (h p hp).2⟩

end SipEcho
