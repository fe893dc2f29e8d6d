import SipEcho.Net.FrameLength
import SipEcho.Net.Segmentation

/-!
The room in the receive buffer of an accepted SIP connection, over whole frames, each delivered
in a read of its own.

`net_callback_inout` gives consumed bytes back only behind a call of `sip_execute` that returns
`0`.  A frame that is not accepted is consumed, but its bytes stay in front of `begin`, until the
next frame that is accepted.

* `Delivers`: the run of read callbacks over a list of frames;
* `Idle`: between the callbacks everything is consumed, up to some offset;
* `idle_step`: a frame moves that offset behind itself, or back to `0`;
* `Reclaims`: the frames between two accepted ones are together shorter than the buffer;
* `keeps_room_iff`: there is always room exactly under this condition.
-/

namespace SipEcho

/-- A whole frame: a header, whose `Content-Length` is not blank, and the body it declares. -/
def WholeFrame (f : Str) : Prop :=
  ∃ t h, headerEnd f = some (t, h) ∧ Closed (f.take t) ∧
    (f.length : ℤ) = h + contentLength (f.take t) (f.take t).length

variable (env : Env)

/-- The read branch of `net_callback_inout` on a stream socket: `none` when it ends in
`net_event_close`. -/
inductive ReadBranch (got : Option Str) (e : NetEvent) : Option NetEvent → Prop
  | failed : (tcpRead got e.incoming).2 = -1 → ReadBranch got e none
  | closed : (tcpRead got e.incoming).2 = 0 → ReadBranch got e none
  | drained {n : ℕ} {e' : NetEvent} : (tcpRead got e.incoming).2 ≠ -1 →
      (tcpRead got e.incoming).2 ≠ 0 →
      Lib.spin (receiveTurn env) n { e with incoming := (tcpRead got e.incoming).1 } = some e' →
      ReadBranch got e (some e')

/-- Frames arrive on a connection, each in a read of its own. -/
inductive Delivers : NetEvent → List Str → NetEvent → Prop
  | nil (e : NetEvent) : Delivers e [] e
  | cons {e e' e'' : NetEvent} {f : Str} {fs : List Str} :
      (tcpRead (some f) e.incoming).2 = f.length → ReadBranch env (some f) e (some e') →
      Delivers e' fs e'' → Delivers e (f :: fs) e''

/-- `tcp_read` asks for at least one byte. -/
def HasRoom (m : Mem) : Prop := m.end_ < m.length

/-- However many of the frames have arrived, there is room for the next read. -/
def KeepsRoom (e : NetEvent) (fs : List Str) : Prop :=
  ∀ pre, pre <+: fs → ∃ e', Delivers env e pre e' ∧ HasRoom e'.incoming

/-- The frames that are not accepted fit into the block together, up to the next one that is: `p`
bytes of it are used, and the next frame is the `k`-th. -/
def Reclaims (peer : SockAddr) (cap : ℕ) : ℕ → ℕ → List Str → Prop
  | _, _, [] => True
  | k, p, f :: fs =>
      (SipAccepts env peer k f → p + f.length ≤ cap ∧ Reclaims peer cap (k + 1) 0 fs) ∧
      (¬ SipAccepts env peer k f →
        p + f.length < cap ∧ Reclaims peer cap (k + 1) (p + f.length) fs)

/-- Between two callbacks: everything received is consumed, up to the offset `p`. -/
structure Idle (cap : ℕ) (peer : SockAddr) (k p : ℕ) (e : NetEvent) : Prop where
  app : e.app = .sip
  peer : e.incoming.peer = peer
  sized : e.incoming.Sized
  ordered : e.incoming.Ordered
  length : e.incoming.length = cap
  begin_ : e.incoming.begin = p
  done : e.incoming.done = p
  end_ : e.incoming.end_ = p
  handed : e.handed.length = k

/-! ### One frame -/

section Step

variable {env} {cap k p : ℕ} {peer : SockAddr} {e : NetEvent} {f : Str}

lemma WholeFrame.ne_nil (h : WholeFrame f) : f ≠ [] := by
  rintro rfl
  obtain ⟨t, h, hh, -⟩ := h
  exact absurd hh (by rw [show headerEnd [] = none by decide]; simp)

lemma Idle.unread (he : Idle cap peer k p e) : e.incoming.unread = [] := by
  rw [Mem.unread, Mem.bytes, he.begin_, he.end_, Nat.sub_self, List.take_zero]

/-- How many bytes a read gives. -/
lemma Idle.tcpRead_ret (he : Idle cap peer k p e) (f : Str) :
    (tcpRead (some f) e.incoming).2 = (min (cap - p) f.length : ℕ) := by
  rw [tcpRead, if_pos he.ordered.end_le_length, he.length, he.end_]
  exact congrArg Nat.cast List.length_take

/-- A frame that fits is the unread bytes. -/
lemma Idle.recv (he : Idle cap peer k p e) (hfit : p + f.length ≤ cap) :
    ∃ m, (tcpRead (some f) e.incoming).1 = m ∧ m.Sized ∧ m.Ordered ∧ m.peer = peer ∧
      m.length = cap ∧ m.unread = f ∧ m.begin = p ∧ m.done = p ∧ m.end_ = p + f.length := by
  have hend := he.end_
  have hlength := he.length
  refine ⟨recvInto f e.incoming, ?_, recvInto_sized he.sized he.ordered.end_le_length,
    recvInto_ordered he.sized he.ordered, he.peer, he.length, ?_, he.begin_, he.done, ?_⟩
  · rw [tcpRead, if_pos he.ordered.end_le_length]
  · rw [recvInto_unread he.sized he.ordered (by omega), he.unread, List.nil_append]
  · rw [recvInto_end he.sized he.ordered.end_le_length, hend, hlength]
    omega

/-- The scan finds the end of a whole frame. -/
lemma sipScan_whole {m : Mem} (hs : m.Sized) (ho : m.Ordered) (hd : m.done = m.begin)
    (hf : WholeFrame m.unread) :
    sipScan m = some { m with done := m.begin + m.unread.length } := by
  obtain ⟨t, h, hh, hclosed, hlen⟩ := hf
  obtain ⟨c, y, hblock, hc, htake, hhle⟩ := block_of_headerEnd hh
  have hcl := contentLength_append hclosed hc y
  rw [← hblock, htake] at hcl
  rw [htake] at hlen
  have hu := Mem.length_unread hs ho
  have h1 := ho.begin_le_end
  have h2 := ho.end_le_length
  have h3 := hs.length_lt
  have hhead : (u16 (m.begin + h) : ℤ) = m.begin + h := u16_of_lt (by omega) (by omega)
  have hsum : (m.begin : ℤ) + h + contentLength ((m.unread).take t) t =
      (m.begin + m.unread.length : ℕ) := by
    push_cast
    omega
  have hbytes : m.bytes m.done m.end_ = m.unread := by rw [hd, Mem.unread]
  rw [sipScan, if_pos hd, hbytes, hh]
  dsimp only
  rw [hd, hhead, hcl, hsum, u16_natCast (by omega)]

variable (env) in
/-- `sip_execute` hands a whole frame over and consumes it, accepted or not. -/
lemma Idle.execute (hpeer : peer ≠ .other) (he : Idle cap peer k p e) (hf : WholeFrame f)
    (hfit : p + f.length ≤ cap) {e₁ : NetEvent}
    (he₁ : e₁ = { e with incoming := (tcpRead (some f) e.incoming).1 }) :
    ∃ m : Mem, (sipExecute env e₁).1.incoming = m ∧ m.Sized ∧ m.Ordered ∧ m.peer = peer ∧
      m.length = cap ∧ m.begin = p + f.length ∧ m.done = p + f.length ∧ m.end_ = p + f.length ∧
      (sipExecute env e₁).1.handed.length = k + 1 ∧ (sipExecute env e₁).1.app = .sip ∧
      ((sipExecute env e₁).2 = 0 ↔ SipAccepts env peer k f) ∧ memEmpty e₁.incoming = false := by
  obtain ⟨m, hm, hs, ho, hmp, hml, hmu, hmb, hmd, hme⟩ := he.recv hfit
  obtain ⟨ip, port, hip⟩ := sipIpAddressAndPortGet_some hpeer
  have hpos : 0 < f.length := List.length_pos_of_ne_nil hf.ne_nil
  have hlt := hs.length_lt
  obtain rfl : e₁ = { e with incoming := m } := by rw [he₁, hm]
  have hscan := sipScan_whole hs ho (hmd.trans hmb.symm) (by rw [hmu]; exact hf)
  obtain ⟨hmem, hparsed, hevent⟩ := sipRead_scanned (o := env.osip) hs ho hscan le_rfl
    (by rw [hmp]; exact hip)
  rw [List.take_length, hmu] at hparsed hevent
  rw [hmu, hmb] at hmem
  have hacc := sipExecute_accepts (e := { e with incoming := m }) hip hevent
  refine ⟨{ m with done := p + f.length, begin := p + f.length }, ?_,
    ⟨hs.buffer_length, hlt, by dsimp only; omega⟩, ⟨hme.ge, ho.end_le_length, le_rfl⟩, hmp, hml,
    rfl, rfl, hme, ?_, ?_, ?_, ?_⟩
  · rw [sipExecute_incoming]
    exact hmem
  · rw [sipExecute_handed, hparsed, List.length_append, he.handed]
    rfl
  · rw [sipExecute_app]
    exact he.app
  · rw [hacc, he.handed]
  · rw [memEmpty, decide_eq_false_iff_not]
    show ¬ m.end_ = m.begin
    omega

/-- The offset behind a frame: `0` when it is accepted. -/
lemma idle_step (hpeer : peer ≠ .other) (he : Idle cap peer k p e) (hf : WholeFrame f)
    (hfit : p + f.length ≤ cap) :
    ∃ e', ReadBranch env (some f) e (some e') ∧
      (SipAccepts env peer k f → Idle cap peer (k + 1) 0 e') ∧
      (¬ SipAccepts env peer k f → Idle cap peer (k + 1) (p + f.length) e') := by
  have hpos : 0 < f.length := List.length_pos_of_ne_nil hf.ne_nil
  have hread : (tcpRead (some f) e.incoming).2 = f.length := by
    rw [he.tcpRead_ret, Nat.min_eq_right (by omega)]
  set e₁ : NetEvent := { e with incoming := (tcpRead (some f) e.incoming).1 } with he₁
  obtain ⟨m, hincoming, hs, ho, hmp, hml, hmb, hmd, hme, hhanded, happ, hacc, hne⟩ :=
    he.execute env hpeer hf hfit he₁
  have hturn : receiveTurn env e₁ = _ := receiveTurn_sip he.app hne
  have drained {n : ℕ} {e' : NetEvent} (h : Lib.spin (receiveTurn env) n e₁ = some e') :
      ReadBranch env (some f) e (some e') := .drained (n := n) (by omega) (by omega) h
  by_cases ha : SipAccepts env peer k f
  · rw [if_pos (hacc.mpr ha), hincoming] at hturn
    set e₂ : NetEvent := { (sipExecute env e₁).1 with incoming := memAlign m } with he₂
    have hend₂ : e₂.incoming.end_ = 0 := by
      rw [he₂, memAlign_end hs ho, hme, hmb, Nat.sub_self]
    have hidle : Idle cap peer (k + 1) 0 e₂ :=
      { app := happ
        peer := by rw [he₂, memAlign_peer]; exact hmp
        sized := memAlign_sized hs ho
        ordered := memAlign_ordered hs ho
        length := by rw [he₂, memAlign_length]; exact hml
        begin_ := memAlign_begin
        done := by rw [he₂, memAlign_done hs ho, hmd, hmb, Nat.sub_self]
        end_ := hend₂
        handed := hhanded }
    have hstop : receiveTurn env e₂ = .stop e₂ := by
      rw [receiveTurn, if_pos]
      rw [memEmpty, hend₂, hidle.begin_]
      rfl
    refine ⟨e₂, drained (n := 2) ?_, fun _ => hidle, fun h => absurd ha h⟩
    rw [Lib.spin_again hturn, Lib.spin_stop hstop]
  · rw [if_neg (mt hacc.mp ha)] at hturn
    refine ⟨_, drained (n := 1) (Lib.spin_stop hturn 0), fun h => absurd h ha, fun _ => ?_⟩
    exact
      { app := happ
        peer := by rw [hincoming]; exact hmp
        sized := by rw [hincoming]; exact hs
        ordered := by rw [hincoming]; exact ho
        length := by rw [hincoming]; exact hml
        begin_ := by rw [hincoming]; exact hmb
        done := by rw [hincoming]; exact hmd
        end_ := by rw [hincoming]; exact hme
        handed := hhanded }

end Step

/-! ### The run -/

section Run

variable {env} {cap k p : ℕ} {peer : SockAddr} {e : NetEvent} {f : Str} {fs : List Str}

/-- A callback leaves one event. -/
lemma ReadBranch.unique {got : Option Str} {e₁ e₂ : NetEvent}
    (h₁ : ReadBranch env got e (some e₁)) (h₂ : ReadBranch env got e (some e₂)) : e₁ = e₂ := by
  cases h₁ with
  | drained _ _ h₁ =>
      cases h₂ with
      | drained _ _ h₂ => exact Lib.spin_unique h₁ h₂

/-- The room behind a frame, in terms of the connection the frame leaves. -/
lemma keepsRoom_cons {e' : NetEvent} (hroom : HasRoom e.incoming)
    (hread : (tcpRead (some f) e.incoming).2 = f.length)
    (h : ReadBranch env (some f) e (some e')) :
    KeepsRoom env e (f :: fs) ↔ KeepsRoom env e' fs := by
  constructor
  · intro hk pre hpre
    obtain ⟨z, hz, hroomz⟩ := hk (f :: pre) (List.cons_prefix_cons.mpr ⟨rfl, hpre⟩)
    cases hz with
    | cons _ hbranch hrest =>
        rw [hbranch.unique h] at hrest
        exact ⟨z, hrest, hroomz⟩
  · intro hk pre hpre
    cases pre with
    | nil => exact ⟨e, .nil e, hroom⟩
    | cons g pre =>
        obtain ⟨rfl, hpre'⟩ := List.cons_prefix_cons.mp hpre
        obtain ⟨z, hz, hroomz⟩ := hk pre hpre'
        exact ⟨z, .cons hread h hz, hroomz⟩

/-- **From an idle connection on.** -/
lemma keepsRoom_idle (hpeer : peer ≠ .other) (he : Idle cap peer k p e) (hp : p < cap)
    (hfs : ∀ f ∈ fs, WholeFrame f) : KeepsRoom env e fs ↔ Reclaims env peer cap k p fs := by
  induction fs generalizing k p e with
  | nil =>
      refine ⟨fun _ => trivial, fun _ pre hpre => ?_⟩
      rw [List.prefix_nil] at hpre
      subst hpre
      refine ⟨e, .nil e, ?_⟩
      rw [HasRoom, he.end_, he.length]
      exact hp
  | cons f fs ih =>
      have hf := hfs f List.mem_cons_self
      have hfs' : ∀ g ∈ fs, WholeFrame g := fun g hg => hfs g (List.mem_cons_of_mem _ hg)
      have hroom : HasRoom e.incoming := by
        rw [HasRoom, he.end_, he.length]
        exact hp
      -- the frame has to arrive whole
      have fits (hk : KeepsRoom env e (f :: fs)) : p + f.length ≤ cap := by
        obtain ⟨z, hz, -⟩ := hk [f] (List.cons_prefix_cons.mpr ⟨rfl, List.nil_prefix⟩)
        cases hz with
        | cons hread _ _ =>
            rw [he.tcpRead_ret] at hread
            omega
      have hread (hfit : p + f.length ≤ cap) :
          (tcpRead (some f) e.incoming).2 = f.length := by
        rw [he.tcpRead_ret, Nat.min_eq_right (by omega)]
      rw [Reclaims]
      by_cases ha : SipAccepts env peer k f
      · constructor
        · intro hk
          have hfit := fits hk
          obtain ⟨e', hb, hidle, -⟩ := idle_step hpeer he hf hfit
          rw [keepsRoom_cons hroom (hread hfit) hb, ih (hidle ha) (by omega) hfs'] at hk
          exact ⟨fun _ => ⟨hfit, hk⟩, fun h => absurd ha h⟩
        · rintro ⟨h, -⟩
          obtain ⟨hfit, hrest⟩ := h ha
          obtain ⟨e', hb, hidle, -⟩ := idle_step hpeer he hf hfit
          rwa [keepsRoom_cons hroom (hread hfit) hb, ih (hidle ha) (by omega) hfs']
      · constructor
        · intro hk
          have hfit := fits hk
          obtain ⟨e', hb, -, hidle⟩ := idle_step hpeer he hf hfit
          have hidle := hidle ha
          rw [keepsRoom_cons hroom (hread hfit) hb] at hk
          have hlt : p + f.length < cap := by
            obtain ⟨z, hz, hroomz⟩ := hk [] List.nil_prefix
            cases hz
            rwa [HasRoom, hidle.end_, hidle.length] at hroomz
          rw [ih hidle hlt hfs'] at hk
          exact ⟨fun h => absurd h ha, fun _ => ⟨hlt, hk⟩⟩
        · rintro ⟨-, h⟩
          obtain ⟨hlt, hrest⟩ := h ha
          obtain ⟨e', hb, -, hidle⟩ := idle_step hpeer he hf hlt.le
          rwa [keepsRoom_cons hroom (hread hlt.le) hb, ih (hidle ha) hlt hfs']

lemma netCallbackAccept_idle {t : Transport} {buffer : Str} (hlt : buffer.length < 65536) :
    Idle buffer.length peer 0 0 (netCallbackAccept .sip t buffer peer) where
  app := rfl
  peer := rfl
  sized := memNew_sized hlt peer
  ordered := memNew_ordered buffer peer
  length := rfl
  begin_ := rfl
  done := rfl
  end_ := rfl
  handed := rfl

/-- **Room for the next read**: an accepted connection always has it, over any whole frames each
in a read of its own, exactly when the frames between two accepted ones leave some. -/
theorem keeps_room_iff (env : Env) (t : Transport) {buffer : Str} (hpos : buffer ≠ [])
    (hlt : buffer.length < 65536) {peer : SockAddr} (hpeer : peer ≠ .other) {fs : List Str}
    (hfs : ∀ f ∈ fs, WholeFrame f) :
    KeepsRoom env (netCallbackAccept .sip t buffer peer) fs ↔
      Reclaims env peer buffer.length 0 0 fs :=
  keepsRoom_idle hpeer (netCallbackAccept_idle hlt) (List.length_pos_of_ne_nil hpos) hfs

/-- A header without `Content-Length` is a whole frame. -/
lemma wholeFrame_of_header {t : ℕ} (hh : headerEnd f = some (t, f.length))
    (hnone : contentLengthValue ((f.take t).length + 1) (f.take t) (f.take t).length = none) :
    WholeFrame f := by
  refine ⟨t, f.length, hh, fun p hp => ?_, ?_⟩
  · rw [hnone] at hp
    exact absurd hp (by simp)
  · rw [contentLength, hnone, add_zero]

lemma wholeFrame_CRLFCRLF : WholeFrame CRLFCRLF :=
  wholeFrame_of_header (t := 0) (by decide) (by decide)

/-- A frame that is never accepted, often enough, fills the block. -/
lemma not_reclaims_replicate (hrej : ∀ k, ¬ SipAccepts env peer k f) {n : ℕ} (hn : n ≠ 0)
    (hfull : cap ≤ p + n * f.length) :
    ¬ Reclaims env peer cap k p (List.replicate n f) := by
  induction n generalizing k p with
  | zero => exact absurd rfl hn
  | succ n ih =>
      rw [List.replicate_succ, Reclaims]
      rintro ⟨-, h⟩
      obtain ⟨hlt, hrest⟩ := h (hrej k)
      rw [Nat.succ_mul] at hfull
      cases n with
      | zero => omega
      | succ n => exact ih (by simp) (by omega) hrest

/-- A keep-alive and a message. -/
theorem keeps_room_keepalive :
    KeepsRoom talkativeEnv (acceptedEvent .sip) [CRLFCRLF, str "x\n\n"] := by
  have hcap := length_acceptedBlock
  have hkeep : ¬ SipAccepts talkativeEnv (.inet [49] 5060) 0 CRLFCRLF := by
    rintro ⟨-, -, sip, -, h, -⟩
    exact absurd h (by simp [talkativeEnv])
  show KeepsRoom talkativeEnv (netCallbackAccept .sip _ acceptedBlock (.inet [49] 5060)) _
  refine (keeps_room_iff talkativeEnv _ ?_ ?_ (by simp) ?_).mpr ?_
  · intro h
    rw [h] at hcap
    exact absurd hcap (by simp)
  · rw [hcap]
    decide
  · intro f hf
    rcases List.mem_cons.mp hf with rfl | hf
    · exact wholeFrame_CRLFCRLF
    · rw [List.mem_singleton.mp hf]
      exact wholeFrame_of_header (t := 1) (by decide) (by decide)
  · rw [Reclaims, hcap]
    refine ⟨fun h => absurd h hkeep, fun _ => ⟨by decide, fun _ => ⟨by decide, trivial⟩,
      fun _ => ⟨by decide, trivial⟩⟩⟩

/-- **Keep-alives fill the buffer**: after 4096 of them on an idle connection there is no room
for the next read. -/
theorem keepalives_fill_buffer :
    ¬ ∀ (env : Env) (fs : List Str), (∀ f ∈ fs, WholeFrame f ∧ f.length < 16384) →
      KeepsRoom env (acceptedEvent .sip) fs := by
  intro hall
  have hfs : ∀ f ∈ List.replicate 4096 CRLFCRLF, WholeFrame f ∧ f.length < 16384 := by
    intro f hf
    rw [List.eq_of_mem_replicate hf]
    exact ⟨wholeFrame_CRLFCRLF, by decide⟩
  have hidle : Idle 16384 (.inet [49] 5060) 0 0 (acceptedEvent .sip) := by
    rw [← length_acceptedBlock]
    exact netCallbackAccept_idle (by rw [length_acceptedBlock]; decide)
  have hk := hall talkativeEnv _ hfs
  rw [keepsRoom_idle (by simp) hidle (by decide) fun f hf => (hfs f hf).1] at hk
  refine not_reclaims_replicate (fun k => ?_) (by decide) (by decide) hk
  rintro ⟨-, -, sip, -, h, -⟩
  exact absurd h (by simp [talkativeEnv])

end Run

end SipEcho
