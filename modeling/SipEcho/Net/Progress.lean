import SipEcho.Net.Event

/-!
Progress of the receive loop.

The measure is the number of unread bytes.  `dns_execute` never goes round; `cmd_execute` goes
round after a packet; `sip_execute` after a message, whose frame is not empty because nothing
parses from nothing.  Two turns go round without progress:

* a bus connection without a protocol object consumes nothing and reports success;
* a SIP frame whose `Content-Length` takes `done` below `begin` gives the consumed bytes back.

`receive_progress_iff`: in every other state of the buffer the loop makes progress and is left.
`receive_spins`: in the first case it is never left.
-/

namespace SipEcho

/-- Every turn that goes round from a state of the loop has fewer unread bytes behind it. -/
def Progress (env : Env) (e : NetEvent) : Prop :=
  ∀ e', Lib.Reaches (receiveTurn env) e e' → memEmpty e'.incoming = false →
    (execute env e').2 = 0 →
      (execute env e').1.incoming.unread.length < e'.incoming.unread.length

/-- What the loop needs of the state it begins in. -/
def CanProgress (e : NetEvent) : Prop :=
  memEmpty e.incoming = true ∨
    match e.app with
    | .sip => e.incoming.peer = .other ∨ ForwardLength e.incoming
    | .cmd => e.foo ≠ none
    | .dns => True

/-! ### One call -/

section Call

variable {env : Env} {e : NetEvent}

/-- A successful call has parsed a frame that begins at `begin` and ends at `done`. -/
lemma sipRead_event {o : Osip} {m : Mem} {sip : Message}
    (h : (sipRead o m).event = some sip) :
    ∃ d, sipScan m = some { m with done := d } ∧ d ≤ m.end_ ∧ m.peer ≠ .other ∧
      (sipRead o m).mem = { m with done := d, begin := d } ∧
      ∃ q, o.osipParse { m with done := d } ⟨m.begin, d - m.begin⟩ = some q := by
  rcases sipRead_cases o m with ⟨-, hr⟩ | ⟨m', hm', hr⟩
  · rw [hr] at h
    exact absurd h (by simp)
  · obtain ⟨d, rfl, -⟩ := sipScan_some hm'
    rcases hr with ⟨-, hr⟩ | ⟨-, -, hr⟩ | ⟨hd, hp, ip, port, hr⟩
    · rw [hr] at h
      exact absurd h (by simp)
    · rw [hr] at h
      exact absurd h (by simp)
    · refine ⟨d, hm', hd, hp, by rw [hr, sipFrame_mem], ?_⟩
      rw [hr, sipFrame_event] at h
      obtain ⟨q, hq, -⟩ := Option.map_eq_some_iff.mp h
      exact ⟨q, (Option.filter_eq_some_iff.mp hq).1⟩

/-- A SIP message moves `begin` forward. -/
lemma sipRead_forward {o : Osip} (ho : o.parse [] = none) {m : Mem} (hm : m.Ordered)
    (hf : ForwardLength m) {sip : Message}
    (h : (sipRead o m).event = some sip) :
    m.begin < (sipRead o m).mem.begin ∧ (sipRead o m).mem.end_ = m.end_ := by
  obtain ⟨d, hd, hle, -, hmem, q, hq⟩ := sipRead_event h
  have h1 : m.begin ≤ d := (forwardLength_iff hm).mp hf _ hd
  rw [hmem]
  refine ⟨lt_of_le_of_ne h1 ?_, rfl⟩
  rintro rfl
  have hin : (⟨m.begin, (m.begin : ℤ) - m.begin⟩ : Range).Inside m.length := by
    have := hm.end_le_length
    constructor <;> dsimp only <;> omega
  have hnil : ({ m with done := m.begin } : Mem).slice ⟨m.begin, (m.begin : ℤ) - m.begin⟩ = [] := by
    simp [Mem.slice, Mem.bytes]
  rw [Osip.osipParse, if_pos hin, hnil, ho] at hq
  exact absurd hq (by simp)

/-- The loop keeps the chunk in order. -/
lemma execute_ordered (hs : e.incoming.Sized) (ho : e.incoming.Ordered)
    (hret : (execute env e).2 = 0) :
    (execute env e).1.incoming.Ordered ∧ (execute env e).1.incoming.Sized ∧
      (execute env e).1.app = e.app := by
  cases happ : e.app with
  | sip =>
      rw [execute_sip happ, sipExecute_incoming, sipExecute_app]
      obtain ⟨h1, h2⟩ := sipRead_ordered (o := env.osip) hs ho
      exact ⟨h1, h2, happ⟩
  | cmd =>
      rw [execute_cmd happ] at hret ⊢
      cases hfoo : e.foo with
      | none =>
          rw [cmdExecute_none hfoo]
          exact ⟨ho, hs, happ⟩
      | some t =>
          obtain ⟨t', n, hn, hle, heq⟩ := cmdExecute_some hfoo hs ho hret
          have h1 := ho.end_le_length
          have h2 := hs.length_lt
          rw [heq]
          exact ⟨⟨hle, h1, le_rfl⟩, ⟨hs.buffer_length, h2, by dsimp only; omega⟩, happ⟩
  | dns =>
      rw [execute_dns happ, dnsExecute_ret] at hret
      exact absurd hret (by decide)

/-- **One call**: a success from a state that can make progress has consumed something. -/
theorem execute_progress (henv : env.osip.parse [] = none) (hs : e.incoming.Sized)
    (ho : e.incoming.Ordered) (hc : CanProgress e) (hne : memEmpty e.incoming = false)
    (hret : (execute env e).2 = 0) :
    (execute env e).1.incoming.unread.length < e.incoming.unread.length ∧
      (e.app = .cmd → (execute env e).1.foo ≠ none) := by
  obtain ⟨ho', hs', -⟩ := execute_ordered hs ho hret
  have hc := hc.resolve_left (by simp [hne])
  rw [Mem.length_unread hs' ho', Mem.length_unread hs ho]
  have hlt := ho.begin_le_end
  rw [memEmpty] at hne
  have hne' : e.incoming.end_ ≠ e.incoming.begin := by simpa using hne
  cases happ : e.app with
  | sip =>
      rw [happ] at hc
      rw [execute_sip happ] at hret ho' ⊢
      obtain ⟨sip, hev, -⟩ := sipExecute_ret.mp hret
      have hf : ForwardLength e.incoming := by
        refine hc.resolve_left fun hp => ?_
        obtain ⟨-, -, -, hp', -⟩ := sipRead_event hev
        exact hp' hp
      obtain ⟨h1, h2⟩ := sipRead_forward henv ho hf hev
      have h3 := ho'.begin_le_end
      rw [sipExecute_incoming] at h3 ⊢
      exact ⟨by omega, fun h => absurd h (by decide)⟩
  | cmd =>
      rw [happ] at hc
      rw [execute_cmd happ] at hret ⊢
      obtain ⟨t, ht⟩ := Option.ne_none_iff_exists'.mp hc
      obtain ⟨t', n, hn, hle, heq⟩ := cmdExecute_some ht hs ho hret
      rw [heq]
      exact ⟨by dsimp only; omega, fun _ => by simp⟩
  | dns =>
      rw [execute_dns happ, dnsExecute_ret] at hret
      exact absurd hret (by decide)

end Call

/-! ### The loop -/

section Loop

variable {env : Env} {e : NetEvent}

/-- What holds at the beginning of every turn. -/
structure Turning (e : NetEvent) : Prop where
  sized : e.incoming.Sized
  ordered : e.incoming.Ordered
  can : CanProgress e

lemma receiveTurn_again {e' : NetEvent} (h : receiveTurn env e = .again e') :
    memEmpty e.incoming = false ∧ (execute env e).2 = 0 ∧
      e' = { (execute env e).1 with incoming := memAlign (execute env e).1.incoming } := by
  rw [receiveTurn] at h
  split at h
  · exact absurd h (by simp)
  · rename_i hne
    split at h
    rename_i e₁ ret hex
    split at h
    · rename_i hret
      cases h
      rw [hex]
      exact ⟨by simpa using hne, hret, rfl⟩
    · exact absurd h (by simp)

/-- Once the chunk is aligned no declared length reaches below `begin`. -/
lemma forwardLength_memAlign (m : Mem) : ForwardLength (memAlign m) := by
  intro _ t h _
  rw [memAlign_begin]
  exact Nat.zero_le _

/-- **One turn**: it goes round in order, and with less to read. -/
theorem Turning.step (henv : env.osip.parse [] = none) {e' : NetEvent} (he : Turning e)
    (h : receiveTurn env e = .again e') :
    Turning e' ∧ e'.incoming.unread.length < e.incoming.unread.length := by
  obtain ⟨hne, hret, rfl⟩ := receiveTurn_again h
  obtain ⟨ho, hs, happ⟩ := execute_ordered he.sized he.ordered hret
  obtain ⟨hlt, hfoo⟩ := execute_progress henv he.sized he.ordered he.can hne hret
  refine ⟨⟨memAlign_sized hs ho, memAlign_ordered hs ho, Or.inr ?_⟩, ?_⟩
  · dsimp only
    rw [happ]
    cases h' : e.app with
    | sip => exact Or.inr (forwardLength_memAlign _)
    | cmd => exact hfoo h'
    | dns => trivial
  · dsimp only
    rwa [memAlign_unread hs ho]

/-- A state that can make progress does, in every surroundings, and the loop is left. -/
theorem receive_progress (henv : env.osip.parse [] = none) (he : Turning e) :
    Progress env e ∧ Lib.Halts (receiveTurn env) e := by
  constructor
  · intro e' hr hne hret
    have he' : Turning e' :=
      hr.invariant (fun s s' hs h => (Turning.step henv hs h).1) he
    exact (execute_progress henv he'.sized he'.ordered he'.can hne hret).1
  · exact Lib.Halts.of_measure Turning (fun e => e.incoming.unread.length)
      (fun s s' hs h => Turning.step henv hs h) he

/-- A bus connection without a protocol object, its chunk aligned, is never left. -/
theorem receive_spins (happ : e.app = .cmd) (hfoo : e.foo = none)
    (hne : memEmpty e.incoming = false) (hbegin : e.incoming.begin = 0) :
    ¬ Lib.Halts (receiveTurn env) e := by
  refine Lib.not_halts_of_again ?_
  have hex : execute env e = (e, 0) := by
    rw [execute, happ]
    exact cmdExecute_none hfoo
  have halign : memAlign e.incoming = e.incoming := by rw [memAlign, if_pos hbegin]
  rw [receiveTurn, hne, hex]
  simp only [Bool.false_eq_true, if_false, if_true, halign]

end Loop

/-! ### Exactly the states that make progress -/

/-- Surroundings in which every message is kept, and whatever is no range of the block parses. -/
def lenientEnv : Env where
  osip := { parse := fun _ => none, wild := fun _ _ => some minimalMessage,
            fixLastVia := fun m _ _ => (m, 0) }
  loop := fun _ _ => true
  bus := { relay := fun _ _ => true, unpack := fun _ _ => true }
  ldns := { wire2pkt := fun _ => none, wild := fun _ _ => none }

/-- A declared length below `begin` gives the bytes back and reports success. -/
lemma lenient_backward {e : NetEvent} (ho : e.incoming.Ordered)
    (hp : e.incoming.peer ≠ .other) (hf : ¬ ForwardLength e.incoming) :
    (sipExecute lenientEnv e).2 = 0 ∧
      (sipExecute lenientEnv e).1.incoming.begin < e.incoming.begin ∧
      (sipExecute lenientEnv e).1.incoming.end_ = e.incoming.end_ := by
  have h1 := ho.begin_le_end
  rw [forwardLength_iff ho] at hf
  push Not at hf
  obtain ⟨m', hm', hlt⟩ := hf
  rcases sipRead_cases lenientEnv.osip e.incoming with ⟨hn, -⟩ | ⟨m'', hm'', h⟩
  · rw [hn] at hm'
    exact absurd hm' (by simp)
  · obtain rfl : m' = m'' := Option.some.inj (hm'.symm.trans hm'')
    obtain ⟨d, rfl, -⟩ := sipScan_some hm'
    dsimp only at hlt h
    rcases h with ⟨hd, -⟩ | ⟨-, hp', -⟩ | ⟨-, -, ip, port, h⟩
    · omega
    · exact absurd hp' hp
    · have hwild : lenientEnv.osip.osipParse { e.incoming with done := d }
          ⟨e.incoming.begin, d - e.incoming.begin⟩ = some minimalMessage := by
        rw [Osip.osipParse, if_neg]
        · rfl
        · rintro ⟨h0, -⟩
          dsimp only at h0
          omega
      have hev : (sipRead lenientEnv.osip e.incoming).event = some minimalMessage := by
        rw [h, sipFrame_event, Mem.frame, hwild, Option.filter_some,
          if_pos minimalMessage_isValid]
        rfl
      refine ⟨sipExecute_ret.mpr ⟨_, hev, rfl⟩, ?_, ?_⟩
      · rw [sipExecute_incoming, h, sipFrame_mem]
        exact hlt
      · rw [sipExecute_incoming, h, sipFrame_mem]

/-- **The receive loop makes progress, and is left, in exactly these states**: an empty buffer, a
bus connection with a protocol object, a SIP chunk whose next frame does not end in front of its
begin, and any state of the resolver. -/
theorem receive_progress_iff (e : NetEvent) (hs : e.incoming.Sized) (ho : e.incoming.Ordered) :
    (∀ env : Env, env.osip.parse [] = none →
      Progress env e ∧ Lib.Halts (receiveTurn env) e) ↔ CanProgress e := by
  constructor
  · intro h
    obtain ⟨hprog, -⟩ := h lenientEnv rfl
    by_contra hc
    have hne : memEmpty e.incoming = false := by
      by_contra hne
      exact hc (Or.inl (by simpa using hne))
    have hlt := hprog e .refl hne
    have hc' := fun h => hc (Or.inr h)
    cases happ : e.app with
    | sip =>
        rw [happ] at hc'
        push Not at hc'
        obtain ⟨hp, hf⟩ : e.incoming.peer ≠ .other ∧ ¬ ForwardLength e.incoming :=
          ⟨fun h => hc' (Or.inl h), fun h => hc' (Or.inr h)⟩
        obtain ⟨hret, hbegin, hend⟩ := lenient_backward ho hp hf
        have hord := (sipRead_ordered (o := lenientEnv.osip) hs ho)
        rw [← @sipExecute_incoming lenientEnv e] at hord
        rw [execute_sip happ] at hlt
        have hlt := hlt hret
        rw [Mem.length_unread hord.2 hord.1, Mem.length_unread hs ho] at hlt
        have := ho.begin_le_end
        omega
    | cmd =>
        rw [happ] at hc'
        have hfoo : e.foo = none := by
          by_contra hfoo
          exact hc' hfoo
        rw [execute_cmd happ, cmdExecute_none hfoo] at hlt
        exact lt_irrefl _ (hlt rfl)
    | dns =>
        rw [happ] at hc'
        exact hc' trivial
  · intro hc env henv
    exact receive_progress henv ⟨hs, ho, hc⟩

lemma acceptedEvent_nonempty (app : App) (b : UInt8) :
    memEmpty (recvInto [b] (acceptedEvent app).incoming) = false := by
  have hend := recvInto_end (d := [b]) (acceptedEvent_sized app)
    (acceptedEvent_ordered app).end_le_length
  have h0 : (acceptedEvent app).incoming.end_ = 0 := by cases app <;> rfl
  have hlen : (acceptedEvent app).incoming.length = 16384 := by
    cases app <;> exact length_acceptedBlock
  rw [h0, hlen, List.length_singleton] at hend
  have hbegin : (recvInto [b] (acceptedEvent app).incoming).begin = 0 := acceptedEvent_begin app
  rw [memEmpty, decide_eq_false_iff_not, hend, hbegin]
  decide

/-- Surroundings in which whatever is not empty is a message, and every message is kept. -/
def eagerEnv : Env :=
  { lenientEnv with
    osip := { parse := fun f => if f = [] then none else some minimalMessage,
              wild := fun _ _ => none, fixLastVia := fun m _ _ => (m, 0) } }

/-- A SIP connection with a message and its body of five bytes, a second message, and the
beginning of a third. -/
def twoMessages : NetEvent where
  app := .sip
  type := .accept
  incoming := { buffer := str "x\nl : 5\n\nhellox\n\nx\n.....", length := 24, end_ := 19,
                peer := .inet [49] 5060 }

/-- Both are taken, and the third is not whole. -/
theorem receive_progress_two_messages :
    Progress eagerEnv twoMessages ∧ Lib.Halts (receiveTurn eagerEnv) twoMessages ∧
      (execute eagerEnv twoMessages).2 = 0 := by
  have hforward : ForwardLength twoMessages.incoming := by
    intro _ t h hh
    have hend : headerEnd twoMessages.incoming.unread = some (7, 9) := by decide
    obtain ⟨rfl, rfl⟩ := Prod.mk.inj (Option.some.inj (hend.symm.trans hh))
    decide
  obtain ⟨hprogress, hhalts⟩ := (receive_progress_iff twoMessages
    ⟨by decide, by decide, by decide⟩ ⟨by decide, by decide, by decide⟩).mpr
      (Or.inr (Or.inr hforward)) eagerEnv rfl
  exact ⟨hprogress, hhalts, by decide⟩

/-- An accepted bus connection never leaves the loop after its first byte. -/
theorem accepted_cmd_spins :
    ¬ (Progress lenientEnv ((acceptedEvent .cmd).tcpRead [16]) ∧
      Lib.Halts (receiveTurn lenientEnv) ((acceptedEvent .cmd).tcpRead [16])) := by
  rw [acceptedEvent_tcpRead]
  rintro ⟨-, h⟩
  have happ := acceptedEvent_app .cmd
  have hfoo : (acceptedEvent .cmd).foo = none := netCallbackAccept_foo ..
  have hbegin := acceptedEvent_begin .cmd
  have hne := acceptedEvent_nonempty .cmd 16
  generalize acceptedEvent .cmd = e at h happ hfoo hbegin hne
  exact receive_spins (e := { e with incoming := recvInto [16] e.incoming }) happ hfoo hne hbegin h

end SipEcho
