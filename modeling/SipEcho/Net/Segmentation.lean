import SipEcho.Lib.Framing
import SipEcho.Net.Event
import SipEcho.Net.Frames

/-!
Segmentation of a SIP stream over TCP: whether the frames handed to `osip_parse` depend on how
the stream is cut into reads.

The receive loop is a reader in the sense of `SipEcho.Lib.Reader` (`sipReader`), and follows every
stream (`sipReader_follows`): it waits for a frame that is not whole, takes one that is, and goes
on if the frame is accepted, `SipAccepts`: parsed, valid and kept by `sip_loop`.  So:

* `sip_segmentation`: on a stream whose frames are delimited and, up to the last whole one,
  accepted, every cut gives the same frames, and no whole frame is left unexamined;
* `sip_rejected_frame`: a frame that is not accepted, a keep-alive for instance, hides the frames
  that arrive with it.
-/

namespace SipEcho

open Lib

variable (env : Env)

/-- The receive loop as a reader; a piece arrives only if there is room for it. -/
def sipReader : Reader UInt8 NetEvent where
  buf e := e.incoming.unread
  log e := e.handed
  recv d e :=
    if d ≠ [] ∧ d.length ≤ e.incoming.length - e.incoming.end_ then some (e.tcpRead d) else none
  turn := receiveTurn env

/-- The `k`-th frame of a connection lets the loop go on. -/
def SipAccepts (peer : SockAddr) (k : ℕ) (f : Str) : Prop :=
  ∃ ip port sip, sipIpAddressAndPortGet peer = some (ip, port) ∧ env.osip.parse f = some sip ∧
    sipMessageIsValid sip = true ∧ env.loop k (env.osip.fixLastVia sip ip port).1 = true

/-- A connection in front of the stream `s`: what is unread is the beginning of `s`, and `done`
either is at its front or has been moved behind its first frame, whose header has arrived. -/
structure Sync (cap : ℕ) (peer : SockAddr) (e : NetEvent) (s : Str) : Prop where
  app : e.app = .sip
  peer : e.incoming.peer = peer
  sized : e.incoming.Sized
  ordered : e.incoming.Ordered
  length : e.incoming.length = cap
  buf : e.incoming.unread <+: s
  done : e.incoming.done = e.incoming.begin ∨
    ∃ n w, Delimited cap s n w ∧ e.incoming.done = e.incoming.begin + n ∧
      w ≤ max e.incoming.unread.length n

variable {env} {cap : ℕ} {peer : SockAddr} {s : Str} {n w : ℕ}

/-- A stream has one first frame. -/
lemma Delimited.unique {m v : ℕ} (h : Delimited cap s n w) (h' : Delimited cap s m v) :
    n = m ∧ w = v := by
  obtain ⟨t, k, ht, -, hn, hw⟩ := h.header
  obtain ⟨t', k', ht', -, hm, hv⟩ := h'.header
  have hk : k ≤ cap := by
    have := h.fits
    omega
  have hk' : k' ≤ cap := by
    have := h'.fits
    omega
  obtain ⟨rfl, rfl⟩ := headerAt_unique ht ht' hk hk'
  omega

lemma Delimited.le (h : Delimited cap s n w) : n ≤ w := by
  obtain ⟨t, k, -, -, -, hw⟩ := h.header
  omega

lemma Delimited.not_headless (h : Delimited cap s n w) : ¬ Headless s := by
  obtain ⟨t, k, ht, -⟩ := h.header
  exact ht.not_headless

/-! ### The scan in front of a stream -/

section Scan

variable {m : Mem}

/-- The unread bytes are a prefix of the stream, with the rest of the block behind them. -/
lemma buffer_drop_begin (ho : m.Ordered) :
    m.buffer.drop m.begin = m.unread ++ m.buffer.drop m.end_ := by
  have h1 := ho.begin_le_end
  have h2 : m.end_ = m.begin + (m.end_ - m.begin) := by omega
  rw [Mem.unread, Mem.bytes]
  conv_rhs => rw [h2]
  rw [← List.drop_drop, Nat.add_sub_cancel_left, List.take_append_drop]

/-- **The scan**: it moves `done` behind the frame if the header is there. -/
lemma sipScan_delimited (hs : m.Sized) (ho : m.Ordered) (hcap : m.length = cap)
    (hlt : cap < 32768) (hd : m.done = m.begin) (hu : m.unread <+: s)
    (h : Delimited cap s n w) :
    (w ≤ m.unread.length → sipScan m = some { m with done := m.begin + n }) ∧
      (m.unread.length < w → sipScan m = none ∨
        sipScan m = some { m with done := m.begin + n } ∧ w ≤ max m.unread.length n) := by
  have h1 := ho.begin_le_end
  have h2 := ho.end_le_length
  have hlen := Mem.length_unread hs ho
  obtain ⟨t, k, ht, hclosed, hn, hw⟩ := h.header
  obtain ⟨htk, hks, c, r, hdrop, hc⟩ := headerAt_byte ht
  have hfits := h.fits
  have hule : m.unread.length ≤ cap := by omega
  have hutake : m.unread = s.take m.unread.length := List.prefix_iff_eq_take.mp hu
  have hbytes : m.bytes m.done m.end_ = m.unread := by rw [hd, Mem.unread]
  have hhead := headerEnd_take ht hule
  rw [← hutake] at hhead
  have hfound (hk : k ≤ m.unread.length) : sipScan m = some { m with done := m.begin + n } := by
    rw [if_pos hk] at hhead
    have hx : (s.take t).length = t := by
      rw [List.length_take]
      omega
    have hblock : m.buffer.drop m.begin =
        s.take t ++ c :: (r.take (m.unread.length - t - 1) ++ m.buffer.drop m.end_) := by
      have hsplit : m.unread = s.take t ++ c :: r.take (m.unread.length - t - 1) := by
        have h3 : m.unread.length = t + (m.unread.length - t) := by omega
        conv_lhs => rw [hutake, h3, List.take_add, hdrop]
        have h4 : m.unread.length - t = m.unread.length - t - 1 + 1 := by omega
        rw [h4, List.take_succ_cons, Nat.add_sub_cancel]
      rw [buffer_drop_begin ho]
      conv_lhs => rw [hsplit]
      rw [List.append_assoc, List.cons_append]
    have hlength := contentLength_append hclosed hc
      (r.take (m.unread.length - t - 1) ++ m.buffer.drop m.end_)
    rw [← hblock, hx] at hlength
    rw [hx] at hn
    rw [sipScan, if_pos hd, hbytes, hhead]
    dsimp only
    rw [hlength, hd]
    have hk' : u16 (m.begin + k) = m.begin + k := by
      exact_mod_cast u16_natCast (n := m.begin + k) (by omega)
    have hsum : ((m.begin + k : ℕ) : ℤ) + contentLength (s.take t) t = (m.begin + n : ℕ) := by
      push_cast
      omega
    rw [hk', hsum, u16_natCast (by omega)]
  constructor
  · intro hle
    exact hfound (by omega)
  · intro hlt'
    by_cases hk : k ≤ m.unread.length
    · exact Or.inr ⟨hfound hk, by omega⟩
    · refine Or.inl ?_
      rw [if_neg hk] at hhead
      rw [sipScan, if_pos hd, hbytes, hhead]

/-- Nothing is found where no header ends. -/
lemma sipScan_headless (hd : m.done = m.begin) (hu : m.unread <+: s) (h : Headless s) :
    sipScan m = none := by
  have hutake : m.unread = s.take m.unread.length := List.prefix_iff_eq_take.mp hu
  have hbytes : m.bytes m.done m.end_ = m.unread := by rw [hd, Mem.unread]
  rw [sipScan, if_pos hd, hbytes, hutake, headerEnd_take_headless h]

/-- **What a call does to a frame that is there**: it is handed to `osip_parse` and consumed. -/
lemma sipRead_scanned {o : Osip} (hs : m.Sized) (ho : m.Ordered)
    (hscan : sipScan m = some { m with done := m.begin + n }) (hle : n ≤ m.unread.length)
    {ip : Str} {port : ℕ} (hpeer : sipIpAddressAndPortGet m.peer = some (ip, port)) :
    (sipRead o m).mem = { m with done := m.begin + n, begin := m.begin + n } ∧
      (sipRead o m).parsed.map m.slice = some (m.unread.take n) ∧
      (sipRead o m).event = ((o.parse (m.unread.take n)).filter sipMessageIsValid).map
        fun sip => (o.fixLastVia sip ip port).1 := by
  have hlen := Mem.length_unread hs ho
  have hend := ho.end_le_length
  have hbe := ho.begin_le_end
  have hslice : ({ m with done := m.begin + n } : Mem).slice
      ⟨m.begin, (m.begin + n : ℕ) - m.begin⟩ = m.unread.take n := by
    have hn : (((m.begin + n : ℕ) : ℤ) - m.begin).toNat = n := by omega
    rw [Mem.slice, hn, Mem.unread, Mem.bytes, Mem.bytes, List.take_take]
    congr 1
    omega
  have hinside : (⟨m.begin, (m.begin + n : ℕ) - m.begin⟩ : Range).Inside m.length := by
    constructor <;> dsimp only <;> omega
  have hread : sipRead o m = sipFrame o { m with done := m.begin + n } ip port := by
    rw [sipRead, hscan]
    dsimp only
    rw [if_neg (by omega), hpeer]
  have hparse : o.osipParse { m with done := m.begin + n }
      ⟨m.begin, (m.begin + n : ℕ) - m.begin⟩ = o.parse (m.unread.take n) := by
    rw [Osip.osipParse, if_pos hinside, hslice]
  refine ⟨by rw [hread, sipFrame_mem], ?_, ?_⟩
  · rw [hread, sipFrame_parsed, Option.map_some]
    exact congrArg some hslice
  · rw [hread, sipFrame_event, Mem.frame]
    dsimp only
    rw [hparse]

end Scan

/-! ### One turn in front of a stream -/

section Turn

variable {e : NetEvent}

lemma Sync.length_unread (he : Sync cap peer e s) :
    e.incoming.unread.length = e.incoming.end_ - e.incoming.begin :=
  Mem.length_unread he.sized he.ordered

/-- The scan finds a whole frame, now or earlier. -/
lemma Sync.scan_whole (he : Sync cap peer e s) (hcap : cap < 32768) (h : Delimited cap s n w)
    (hle : w ≤ e.incoming.unread.length) :
    sipScan e.incoming = some { e.incoming with done := e.incoming.begin + n } := by
  rcases he.done with hd | ⟨n', w', h', hd, -⟩
  · exact (sipScan_delimited he.sized he.ordered he.length hcap hd he.buf h).1 hle
  · obtain ⟨rfl, -⟩ := h.unique h'
    have hne : e.incoming.done ≠ e.incoming.begin := by
      have := h.pos
      omega
    rw [sipScan, if_neg hne, ← hd]

/-- While a frame is not whole, `sip_read` at most moves `done` behind it. -/
lemma Sync.read_part (o : Osip) (he : Sync cap peer e s) (hcap : cap < 32768)
    (hw : Waiting (Delimited cap) Headless s e.incoming.unread.length) :
    ∃ d, sipRead o e.incoming = { mem := { e.incoming with done := d } } ∧ d < 65536 ∧
      (d = e.incoming.begin ∨ ∃ n w, Delimited cap s n w ∧ d = e.incoming.begin + n ∧
        w ≤ max e.incoming.unread.length n) := by
  have hbe := he.ordered.begin_le_end
  have hlen := he.length_unread
  have hdlt := he.sized.done_lt
  rcases sipRead_cases o e.incoming with ⟨-, hr⟩ | ⟨m', hm', hr⟩
  · exact ⟨e.incoming.done, hr, hdlt, he.done⟩
  · -- the scan has found the header of a frame that ends behind the bytes received
    have hpart : ∃ n w, Delimited cap s n w ∧ e.incoming.unread.length < n ∧
        w ≤ max e.incoming.unread.length n ∧
          m' = { e.incoming with done := e.incoming.begin + n } := by
      rcases hw with hidle | ⟨n, w, h, hlt⟩
      · rcases he.done with hd | ⟨n, w, h, -⟩
        · rw [sipScan_headless hd he.buf hidle] at hm'
          exact absurd hm' (by simp)
        · exact absurd hidle h.not_headless
      · rcases he.done with hd | ⟨n', w', h', hd, hw'⟩
        · rcases (sipScan_delimited he.sized he.ordered he.length hcap hd he.buf h).2 hlt with
            hnone | ⟨hsome, hw'⟩
          · rw [hnone] at hm'
            exact absurd hm' (by simp)
          · exact ⟨n, w, h, by omega, hw', (Option.some.inj (hsome.symm.trans hm')).symm⟩
        · obtain ⟨rfl, rfl⟩ := h.unique h'
          have hne : e.incoming.done ≠ e.incoming.begin := by
            have := h.pos
            omega
          rw [sipScan, if_neg hne] at hm'
          exact ⟨n, w, h, by omega, hw', by rw [← hd]; exact (Option.some.inj hm').symm⟩
    obtain ⟨n, w, h, hlt, hw', rfl⟩ := hpart
    have hcapn := h.le.trans h.fits
    have hend := he.ordered.end_le_length
    have hl := he.length
    refine ⟨e.incoming.begin + n, ?_, by omega, Or.inr ⟨n, w, h, rfl, hw'⟩⟩
    rcases hr with ⟨-, hr⟩ | ⟨hd, -, -⟩ | ⟨hd, -, -⟩
    · exact hr
    · dsimp only at hd
      omega
    · dsimp only at hd
      omega

/-- **A whole frame** is handed to `osip_parse` and consumed. -/
lemma Sync.read_whole (he : Sync cap peer e s) (hcap : cap < 32768) (h : Delimited cap s n w)
    (hle : w ≤ e.incoming.unread.length) {ip : Str} {port : ℕ}
    (hpeer : sipIpAddressAndPortGet peer = some (ip, port)) :
    (sipRead env.osip e.incoming).mem =
        { e.incoming with done := e.incoming.begin + n, begin := e.incoming.begin + n } ∧
      (sipRead env.osip e.incoming).parsed.map e.incoming.slice = some (s.take n) ∧
      (sipRead env.osip e.incoming).event =
        ((env.osip.parse (s.take n)).filter sipMessageIsValid).map
          fun sip => (env.osip.fixLastVia sip ip port).1 := by
  have hnw := h.le
  have hsn : e.incoming.unread.take n = s.take n := by
    have hutake : e.incoming.unread = s.take e.incoming.unread.length :=
      List.prefix_iff_eq_take.mp he.buf
    rw [hutake, List.take_take, Nat.min_eq_left (by omega)]
  rw [← hsn]
  exact sipRead_scanned he.sized he.ordered (he.scan_whole hcap h hle) (by omega)
    (by rw [he.peer, hpeer])

/-- The verdict on a frame that has been read. -/
lemma sipExecute_accepts {ip : Str} {port : ℕ} {f : Str}
    (hpeer : sipIpAddressAndPortGet peer = some (ip, port))
    (hevent : (sipRead env.osip e.incoming).event =
      ((env.osip.parse f).filter sipMessageIsValid).map
        fun sip => (env.osip.fixLastVia sip ip port).1) :
    (sipExecute env e).2 = 0 ↔ SipAccepts env peer e.handed.length f := by
  rw [sipExecute_ret, hevent, SipAccepts]
  constructor
  · rintro ⟨sip, hsip, hloop⟩
    obtain ⟨q, hq, rfl⟩ := Option.map_eq_some_iff.mp hsip
    obtain ⟨hq, hvalid⟩ := Option.filter_eq_some_iff.mp hq
    exact ⟨ip, port, q, hpeer, hq, hvalid, hloop⟩
  · rintro ⟨ip', port', q, hip', hq, hvalid, hloop⟩
    obtain ⟨rfl, rfl⟩ := Prod.mk.inj (Option.some.inj (hpeer.symm.trans hip'))
    exact ⟨_, by rw [hq, Option.filter_some, if_pos hvalid, Option.map_some], hloop⟩

/-- A peer of a known family has an address. -/
lemma sipIpAddressAndPortGet_some (hpeer : peer ≠ .other) :
    ∃ ip port, sipIpAddressAndPortGet peer = some (ip, port) := by
  cases peer with
  | inet ip port => exact ⟨_, _, rfl⟩
  | inet6 ip port => exact ⟨_, _, rfl⟩
  | other => exact absurd rfl hpeer

/-- A turn of a SIP connection with unread bytes is a call of `sip_execute`. -/
lemma receiveTurn_sip (happ : e.app = .sip) (hne : memEmpty e.incoming = false) :
    receiveTurn env e =
      if (sipExecute env e).2 = 0 then
        .again { (sipExecute env e).1 with incoming := memAlign (sipExecute env e).1.incoming }
      else .stop (sipExecute env e).1 := by
  rw [receiveTurn, hne, execute_sip happ]
  rfl

/-- The loop is left, with nothing taken, while the frame is not whole. -/
lemma Sync.wait (he : Sync cap peer e s) (hcap : cap < 32768)
    (hw : Waiting (Delimited cap) Headless s e.incoming.unread.length) :
    ∃ y, receiveTurn env e = .stop y ∧ y.incoming.unread = e.incoming.unread ∧
      y.handed = e.handed ∧ Sync cap peer y s := by
  by_cases hne : memEmpty e.incoming = true
  · exact ⟨e, by rw [receiveTurn, if_pos hne], rfl, rfl, he⟩
  · obtain ⟨d, hr, hdlt, hd⟩ := he.read_part env.osip hcap hw
    have hret : (sipExecute env e).2 ≠ 0 := by
      rw [Ne, sipExecute_ret, hr]
      simp
    have hincoming : (sipExecute env e).1.incoming = { e.incoming with done := d } := by
      rw [sipExecute_incoming, hr]
    have hbd : e.incoming.begin ≤ d := by
      rcases hd with hd | ⟨n, w, -, hd, -⟩ <;> omega
    refine ⟨(sipExecute env e).1, ?_, by rw [hincoming]; rfl, ?_, ?_⟩
    · rw [receiveTurn_sip he.app (by simpa using hne), if_neg hret]
    · rw [sipExecute_handed, hr]
      simp
    · refine ⟨by rw [sipExecute_app, he.app], ?_, ?_, ?_, ?_, ?_, ?_⟩ <;> rw [hincoming]
      · exact he.peer
      · exact ⟨he.sized.buffer_length, he.sized.length_lt, hdlt⟩
      · exact ⟨he.ordered.begin_le_end, he.ordered.end_le_length, hbd⟩
      · exact he.length
      · exact he.buf
      · exact hd

/-- A whole frame is taken, and the loop goes on if it is accepted. -/
lemma Sync.take (he : Sync cap peer e s) (hcap : cap < 32768) (hpeer : peer ≠ .other)
    (h : Delimited cap s n w) (hle : w ≤ e.incoming.unread.length) :
    ∃ y, (SipAccepts env peer e.handed.length (s.take n) ∧ receiveTurn env e = .again y ∨
        ¬ SipAccepts env peer e.handed.length (s.take n) ∧ receiveTurn env e = .stop y) ∧
      e.incoming.unread = s.take n ++ y.incoming.unread ∧
      y.handed = e.handed ++ [s.take n] ∧ Sync cap peer y (s.drop n) := by
  obtain ⟨ip, port, hip⟩ := sipIpAddressAndPortGet_some hpeer
  obtain ⟨hmem, hparsed, hevent⟩ := he.read_whole hcap h hle hip
  have hlen := he.length_unread
  have hpos := h.pos
  have hnw := h.le
  have hne : memEmpty e.incoming = false := by
    rw [memEmpty, decide_eq_false_iff_not]
    omega
  have hacc := sipExecute_accepts hip hevent
  have hincoming := (@sipExecute_incoming env e).trans hmem
  have hbe := he.ordered.begin_le_end
  have hend := he.ordered.end_le_length
  have hlt := he.sized.length_lt
  -- the connection behind the frame
  have hbytes : e.incoming.unread = s.take n ++ (sipExecute env e).1.incoming.unread := by
    have hutake : e.incoming.unread = s.take e.incoming.unread.length :=
      List.prefix_iff_eq_take.mp he.buf
    have hsn : s.take n = e.incoming.unread.take n := by
      rw [hutake, List.take_take, Nat.min_eq_left (by omega)]
    have hdrop : (sipExecute env e).1.incoming.unread = e.incoming.unread.drop n := by
      rw [hincoming, Mem.unread, Mem.unread, Mem.bytes, Mem.bytes, List.drop_take,
        List.drop_drop]
      congr 1
      dsimp only
      omega
    rw [hsn, hdrop, List.take_append_drop]
  have hsync : Sync cap peer (sipExecute env e).1 (s.drop n) := by
    refine ⟨by rw [sipExecute_app, he.app], ?_, ?_, ?_, ?_, ?_, ?_⟩
    · rw [hincoming]
      exact he.peer
    · rw [hincoming]
      exact ⟨he.sized.buffer_length, hlt, by dsimp only; omega⟩
    · rw [hincoming]
      exact ⟨by dsimp only; omega, hend, le_rfl⟩
    · rw [hincoming]
      exact he.length
    · obtain ⟨r, hr⟩ := he.buf
      refine ⟨r, ?_⟩
      rw [hbytes, List.append_assoc] at hr
      have hlen' : (s.take n).length = n := by
        have := he.buf.length_le
        rw [List.length_take]
        omega
      rw [← hr, List.drop_left' hlen']
    · rw [hincoming]
      exact Or.inl rfl
  by_cases ha : SipAccepts env peer e.handed.length (s.take n)
  · refine ⟨_, Or.inl ⟨ha, by rw [receiveTurn_sip he.app hne, if_pos (hacc.mpr ha)]⟩, ?_, ?_, ?_⟩
    · dsimp only
      rw [memAlign_unread hsync.sized hsync.ordered]
      exact hbytes
    · dsimp only
      rw [sipExecute_handed, hparsed]
      rfl
    · refine ⟨hsync.app, ?_, memAlign_sized hsync.sized hsync.ordered,
        memAlign_ordered hsync.sized hsync.ordered, ?_, ?_, Or.inl ?_⟩ <;> dsimp only
      · rw [memAlign_peer, hsync.peer]
      · rw [memAlign_length, hsync.length]
      · rw [memAlign_unread hsync.sized hsync.ordered]
        exact hsync.buf
      · rw [memAlign_done hsync.sized hsync.ordered, memAlign_begin, hincoming, Nat.sub_self]
  · refine ⟨(sipExecute env e).1, Or.inr ⟨ha, ?_⟩, hbytes, ?_, hsync⟩
    · rw [receiveTurn_sip he.app hne, if_neg (fun h => ha (hacc.mp h))]
    · rw [sipExecute_handed, hparsed]
      rfl

/-- A piece that fits is appended. -/
lemma Sync.recv (he : Sync cap peer e s) {y : NetEvent} {d : Str}
    (hd : e.incoming.unread ++ d <+: s) (hy : (sipReader env).recv d e = some y) :
    y.incoming.unread = e.incoming.unread ++ d ∧ y.handed = e.handed ∧ Sync cap peer y s := by
  simp only [sipReader] at hy
  split at hy
  · rename_i hfit
    cases hy
    have hincoming : (e.tcpRead d).incoming = recvInto d e.incoming := by
      rw [NetEvent.tcpRead, tcpRead, if_pos he.ordered.end_le_length]
    have hunread := recvInto_unread he.sized he.ordered hfit.2
    refine ⟨by rw [hincoming, hunread], rfl, he.app, ?_, ?_, ?_, ?_, ?_, ?_⟩ <;> rw [hincoming]
    · exact he.peer
    · exact recvInto_sized he.sized he.ordered.end_le_length
    · exact recvInto_ordered he.sized he.ordered
    · exact he.length
    · rw [hunread]
      exact hd
    · rw [hunread, List.length_append]
      refine he.done.imp_right ?_
      rintro ⟨n, w, h, hdone, hw⟩
      exact ⟨n, w, h, hdone, by omega⟩
  · exact absurd hy (by simp)

end Turn

/-- **The receive loop follows every stream.** -/
theorem sipReader_follows (env : Env) {cap : ℕ} (hcap : cap < 32768) {peer : SockAddr}
    (hpeer : peer ≠ .other) :
    (sipReader env).Follows (Delimited cap) Headless (SipAccepts env peer) (Sync cap peer) where
  head_pos h := ⟨h.pos, h.le⟩
  head_unique h h' := h.unique h'
  head_idle h := h.not_headless
  buf_le h := h.buf.length_le
  wait h hw := h.wait hcap hw
  take h hn hle := h.take hcap hpeer hn hle
  recv h hd hy := h.recv hd hy

/-! ### Connections -/

/-- The stream `s` is cut into the frames `fs`: each is delimited, and each that a whole frame
follows is accepted. -/
def SipStream (env : Env) (cap : ℕ) (peer : SockAddr) (k : ℕ) (s : Str) (fs : List Str) : Prop :=
  Framed (Delimited cap) Headless (SipAccepts env peer) k s fs

section Connection

variable {env : Env} {t : Transport} {buffer : Str} {peer : SockAddr}

/-- A new connection stands in front of its stream. -/
lemma netCallbackAccept_sync (hbuffer : buffer.length < 32768) (s : Str) :
    Sync buffer.length peer (netCallbackAccept .sip t buffer peer) s where
  app := rfl
  peer := rfl
  sized := memNew_sized (by omega) peer
  ordered := memNew_ordered buffer peer
  length := rfl
  buf := by
    have : (netCallbackAccept .sip t buffer peer).incoming.unread = [] := by
      show (buffer.drop 0).take 0 = []
      rw [List.take_zero]
    rw [this]
    exact List.nil_prefix
  done := Or.inl rfl

/-- Nothing is unread on a new connection. -/
lemma sipReader_buf_new (env : Env) (t : Transport) (buffer : Str) (peer : SockAddr) :
    (sipReader env).buf (netCallbackAccept .sip t buffer peer) = [] := by
  show (buffer.drop 0).take 0 = []
  rw [List.take_zero]

/-- `sip_read` leaves the end of the chunk where it is. -/
lemma sipRead_end (o : Osip) (m : Mem) :
    (sipRead o m).mem.end_ = m.end_ ∧ (sipRead o m).mem.length = m.length := by
  rcases sipRead_cases o m with ⟨-, h⟩ | ⟨m', hm', h⟩
  · rw [h]
    exact ⟨rfl, rfl⟩
  · obtain ⟨d, rfl, -⟩ := sipScan_some hm'
    rcases h with ⟨-, h⟩ | ⟨-, -, h⟩ | ⟨-, -, ip, port, h⟩
    · rw [h]
      exact ⟨rfl, rfl⟩
    · rw [h]
      exact ⟨rfl, rfl⟩
    · rw [h, sipFrame_mem]
      exact ⟨rfl, rfl⟩

/-- A piece that the block still holds arrives. -/
lemma recv_new {d : Str} (hd : d ≠ []) (hfit : d.length ≤ buffer.length) :
    (sipReader env).recv d (netCallbackAccept .sip t buffer peer) =
      some ((netCallbackAccept .sip t buffer peer).tcpRead d) :=
  if_pos ⟨hd, by simpa [netCallbackAccept, memNew] using hfit⟩

/-- **A frame that is not accepted hides the frames that arrive with it**: in a read of its own
it does not. -/
theorem sip_rejected_frame (hbuffer : buffer.length < 32768) (hpeer : peer ≠ .other) {s : Str}
    {n : ℕ} {fs : List Str} (hn : Delimited buffer.length s n n) (hlt : n < s.length)
    (hfit : s.length ≤ buffer.length) (hrej : ¬ SipAccepts env peer 0 (s.take n))
    (hrest : SipStream env buffer.length peer 1 (s.drop n) fs) (hfs : fs ≠ []) :
    ∃ e₁ e₂, (sipReader env).Fed (netCallbackAccept .sip t buffer peer) [s] e₁ ∧
      (sipReader env).Fed (netCallbackAccept .sip t buffer peer) [s.take n, s.drop n] e₂ ∧
      e₁.handed ≠ e₂.handed := by
  have hR := sipReader_follows env hbuffer hpeer
  have hsync : Sync buffer.length peer (netCallbackAccept .sip t buffer peer) s :=
    netCallbackAccept_sync hbuffer s
  have hpos := hn.pos
  have hs : s ≠ [] := by
    rintro rfl
    simp at hlt
  have htake : s.take n ≠ [] := by
    intro h0
    have := congrArg List.length h0
    rw [List.length_take, List.length_nil] at this
    omega
  have htlen : (s.take n).length = n := by
    rw [List.length_take]
    omega
  refine hR.cut_matters hsync (sipReader_buf_new env t buffer peer) rfl hn hlt.le hrej hrest hfs
    (recv_new hs hfit) (recv_new htake (by omega)) ?_
  intro z' hz'
  -- the first piece has been read, and nothing has been moved
  have hsized := hsync.sized
  have hincoming : ((netCallbackAccept .sip t buffer peer).tcpRead (s.take n)).incoming =
      recvInto (s.take n) (netCallbackAccept .sip t buffer peer).incoming := by
    rw [NetEvent.tcpRead, tcpRead, if_pos hsync.ordered.end_le_length]
  have hend : ((netCallbackAccept .sip t buffer peer).tcpRead (s.take n)).incoming.end_ = n := by
    rw [hincoming, recvInto_end hsized hsync.ordered.end_le_length, htlen]
    show 0 + min (buffer.length - 0) n = n
    omega
  have hlength : ((netCallbackAccept .sip t buffer peer).tcpRead (s.take n)).incoming.length =
      buffer.length := by
    rw [hincoming]
    rfl
  have hne : memEmpty ((netCallbackAccept .sip t buffer peer).tcpRead (s.take n)).incoming =
      false := by
    rw [memEmpty, hend, hincoming, decide_eq_false_iff_not]
    show ¬ n = 0
    omega
  have hturn : receiveTurn env ((netCallbackAccept .sip t buffer peer).tcpRead (s.take n)) =
      .stop z' := hz'
  rw [receiveTurn_sip rfl hne] at hturn
  split at hturn
  · exact absurd hturn (by simp)
  · cases hturn
    refine ⟨_, if_pos ⟨?_, ?_⟩⟩
    · intro h0
      have := congrArg List.length h0
      rw [List.length_drop, List.length_nil] at this
      omega
    · obtain ⟨h1, h2⟩ := sipRead_end env.osip
        ((netCallbackAccept .sip t buffer peer).tcpRead (s.take n)).incoming
      rw [sipExecute_incoming, h1, h2, hend, hlength, List.length_drop]
      omega

end Connection

/-! ### A keep-alive in front of a message -/

/-- A header without `Content-Length` is a frame. -/
lemma delimited_of_header {cap : ℕ} {s : Str} {t h : ℕ} (ht : HeaderAt cap s t h)
    (hcap : h ≤ cap) (hnone : contentLengthValue (t + 1) (s.take t) t = none) :
    Delimited cap s h h where
  header := by
    have hlen : (s.take t).length = t := by
      have := headerAt_byte ht
      rw [List.length_take]
      omega
    refine ⟨t, h, ht, ?_, ?_, (max_self h).symm⟩
    · intro p hp
      rw [hlen, hnone] at hp
      exact absurd hp (by simp)
    · rw [hlen, contentLength, hnone, add_zero]
  pos := by
    have := (headerAt_byte ht).1
    omega
  fits := hcap

/-- Surroundings in which everything but a keep-alive is a message. -/
def talkativeEnv : Env where
  osip := { parse := fun f => if f = CRLFCRLF then none else some minimalMessage,
            wild := fun _ _ => none, fixLastVia := fun m _ _ => (m, 0) }
  loop := fun _ _ => true
  bus := { relay := fun _ _ => true, unpack := fun _ _ => true }
  ldns := { wire2pkt := fun _ => none, wild := fun _ _ => none }

/-- A last message, its header ended by an `LFLF`. -/
lemma sipStream_last (cap k : ℕ) (hcap : 3 ≤ cap) (peer : SockAddr) :
    SipStream talkativeEnv cap peer k (str "x\n\n") [str "x\n\n"] := by
  have ht : HeaderAt cap (str "x\n\n") 1 3 := .lf (by decide) (memmem_take_eq_none (by decide) cap)
  exact .last (delimited_of_header ht hcap (by decide)) (by decide) (Or.inl ⟨by decide, by decide⟩)

/-- A message in front of it. -/
lemma sipStream_two_messages :
    SipStream talkativeEnv acceptedBlock.length (.inet [49] 5060) 0 (str "y\n\nx\n\n")
      [str "y\n\n", str "x\n\n"] := by
  have hcap := length_acceptedBlock
  have ht : HeaderAt acceptedBlock.length (str "y\n\nx\n\n") 1 3 :=
    .lf (by decide) (memmem_take_eq_none (by decide) _)
  have hacc : SipAccepts talkativeEnv (.inet [49] 5060) 0 ((str "y\n\nx\n\n").take 3) :=
    ⟨[49], 5060, minimalMessage, rfl, by decide, minimalMessage_isValid, rfl⟩
  exact .frame (delimited_of_header ht (by rw [hcap]; decide) (by decide)) (by decide) hacc
    (sipStream_last _ _ (by rw [hcap]; decide) _)

end SipEcho
