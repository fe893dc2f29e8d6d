import SipEcho.Net.SipRead

/-!
The cursors of a receive chunk over a whole run: reads of either transport, `sip_execute` and
`mem_align` in any order, with any content.

Between calls the cursors are always in order (`ChunkOp.apply_ordered`).  Inside the calls two
things go wrong, and only these (`ChunkOp.holds_iff`, `cursors_run_iff`):

* a declared length can take `done` below `begin`, and the frame then has a negative length;
* `done` may be beyond `end` while a body is awaited, and `udp_read` then dumps a negative range.
-/

namespace SipEcho

/-- A call that works on a chunk, with what the kernel gives to it. -/
inductive ChunkOp where
  | tcpRead (got : Option Str)
  | udpRead (got : Option (Str × SockAddr))
  | execute
  | align

namespace ChunkOp

variable (o : Osip)

/-- The chunk after the call. -/
def apply : ChunkOp → Mem → Mem
  | tcpRead got, m => (SipEcho.tcpRead got m).1
  | udpRead got, m => (SipEcho.udpRead got m).1
  | execute, m => (sipRead o m).mem
  | align, m => memAlign m

/-- The states the chunk goes through inside a call: `udp_read` drops the leftover before it
reads, `sip_read` moves `done` behind the header and then behind the body. -/
def passes : ChunkOp → Mem → List Mem
  | tcpRead _, _ => []
  | udpRead _, m => [udpReset m]
  | execute, m =>
      (if m.done = m.begin then
        ((headerEnd m.unread).map fun p => { m with done := u16 (m.done + p.2) }).toList
      else []) ++ (sipScan m).toList
  | align, _ => []

/-- The ranges a call hands to `osip_parse`, `memcmp`, `log_dump` and `sip_dump_in`. -/
def touched : ChunkOp → Mem → List Range
  | tcpRead _, _ => []
  | udpRead _, m => udpLeftover m
  | execute, m => (sipRead o m).touched
  | align, _ => []

/-- What is asked of a call: the cursors are in order throughout, and the ranges lie inside the
bytes received. -/
structure Holds (op : ChunkOp) (m : Mem) : Prop where
  before : m.Ordered
  passes : ∀ m' ∈ op.passes m, m'.Ordered
  after : (op.apply o m).Ordered
  inside : ∀ r ∈ op.touched o m, r.Inside m.end_

/-- The state before a call does not lead to a negative range. -/
def Admits : ChunkOp → Mem → Prop
  | udpRead _, m => m.end_ = 0 ∨ m.done ≤ m.end_
  | execute, m => ForwardLength m
  | tcpRead _, _ | align, _ => True

variable {o} {op : ChunkOp} {m : Mem}

/-- **Between calls the cursors are in order.** -/
theorem apply_ordered (op : ChunkOp) (hs : m.Sized) (ho : m.Ordered) :
    (op.apply o m).Ordered ∧ (op.apply o m).Sized := by
  cases op with
  | tcpRead got => exact tcpRead_ordered hs ho got
  | udpRead got => exact udpRead_ordered hs ho got
  | execute => exact sipRead_ordered hs ho
  | align => exact ⟨memAlign_ordered hs ho, memAlign_sized hs ho⟩

/-- The header ends inside the unread bytes. -/
lemma headerEnd_le {u : Str} {t h : ℕ} (hu : headerEnd u = some (t, h)) : h ≤ u.length := by
  rw [headerEnd] at hu
  split at hu
  · rename_i i hi
    cases hu
    exact memmem_length hi
  · obtain ⟨i, hi, hi'⟩ := Option.map_eq_some_iff.mp hu
    cases hi'
    exact memmem_length hi

/-- Behind the header, in front of the body, `done` is in order. -/
lemma header_ordered (hs : m.Sized) (ho : m.Ordered) (hd : m.done = m.begin) {t h : ℕ}
    (hu : headerEnd m.unread = some (t, h)) :
    ({ m with done := u16 (m.done + h) } : Mem).Ordered := by
  have h1 := ho.begin_le_end
  have h2 := ho.end_le_length
  have h3 := hs.length_lt
  have h4 := headerEnd_le hu
  rw [Mem.length_unread hs ho] at h4
  refine ⟨h1, h2, ?_⟩
  have h5 : u16 (m.done + h) = m.done + h := by
    exact_mod_cast u16_natCast (n := m.done + h) (by omega)
  dsimp only
  omega

/-- The frame of an ordered chunk lies inside the bytes received. -/
lemma frame_inside {d : ℕ} (h1 : m.begin ≤ d) (h2 : d ≤ m.end_) :
    ({ m with done := d } : Mem).frame.Inside m.end_ := by
  constructor <;> dsimp only [Mem.frame] <;> omega

/-- **One call**: it holds from exactly the states it admits. -/
theorem holds_iff (hs : m.Sized) (ho : m.Ordered) : op.Holds o m ↔ op.Admits m := by
  have hafter := (apply_ordered (o := o) op hs ho).1
  cases op with
  | tcpRead got =>
      exact ⟨fun _ => trivial, fun _ => ⟨ho, by simp [passes], hafter, by simp [touched]⟩⟩
  | align => exact ⟨fun _ => trivial, fun _ => ⟨ho, by simp [passes], hafter, by simp [touched]⟩⟩
  | udpRead got =>
      have hreset := (udpReset_ordered hs ho).1
      by_cases he : m.end_ = 0
      · exact ⟨fun _ => Or.inl he, fun _ =>
          ⟨ho, by simpa [passes] using hreset, hafter, by simp [touched, udpLeftover, he]⟩⟩
      · have hr : udpLeftover m = [⟨m.done, m.end_ - m.done⟩] := by rw [udpLeftover, if_pos he]
        constructor
        · intro h
          have := (h.inside ⟨m.done, m.end_ - m.done⟩ (by rw [touched, hr]; simp)).1
          exact Or.inr (by dsimp only at this; omega)
        · intro h
          have hd := h.resolve_left he
          refine ⟨ho, by simpa [passes] using hreset, hafter, ?_⟩
          intro r hmem
          rw [touched, hr, List.mem_singleton] at hmem
          subst hmem
          constructor <;> dsimp only <;> omega
  | execute =>
      change _ ↔ ForwardLength m
      rw [forwardLength_iff ho]
      constructor
      · intro h m' hm'
        have hord := h.passes m' (by simp [passes, hm'])
        obtain ⟨d, rfl, -⟩ := sipScan_some hm'
        exact hord.begin_le_done
      · intro hf
        refine ⟨ho, ?_, hafter, ?_⟩
        · intro m' hm'
          rw [passes, List.mem_append] at hm'
          rcases hm' with hm' | hm'
          · split at hm'
            · rename_i hd
              rw [Option.mem_toList, Option.map_eq_some_iff] at hm'
              obtain ⟨⟨t, h⟩, hu, rfl⟩ := hm'
              exact header_ordered hs ho hd hu
            · exact absurd hm' (by simp)
          · rw [Option.mem_toList] at hm'
            have hle := hf m' hm'
            obtain ⟨d, rfl, -⟩ := sipScan_some hm'
            exact ⟨ho.begin_le_end, ho.end_le_length, hle⟩
        · intro r hr
          rw [touched] at hr
          rcases sipRead_cases o m with ⟨-, h⟩ | ⟨m', hm', h⟩
          · rw [h] at hr
            exact absurd hr (by simp)
          · have hle := hf m' hm'
            obtain ⟨d, rfl, -⟩ := sipScan_some hm'
            rcases h with ⟨-, h⟩ | ⟨-, -, h⟩ | ⟨hd, -, ip, port, h⟩
            · rw [h] at hr
              exact absurd hr (by simp)
            · rw [h] at hr
              exact absurd hr (by simp)
            · rw [h] at hr
              rw [sipFrame_touched hr]
              exact frame_inside hle hd

end ChunkOp

/-! ### Runs -/

/-- A property of every call of a run. -/
inductive Along (o : Osip) (P : ChunkOp → Mem → Prop) : List ChunkOp → Mem → Prop
  | nil (m : Mem) : Along o P [] m
  | cons {op : ChunkOp} {ops : List ChunkOp} {m : Mem} : P op m →
      Along o P ops (op.apply o m) → Along o P (op :: ops) m

/-- Two properties that agree in every ordered state agree along every run from one. -/
lemma along_congr {o : Osip} {P Q : ChunkOp → Mem → Prop}
    (hPQ : ∀ op m, m.Sized → m.Ordered → (P op m ↔ Q op m)) {ops : List ChunkOp} {m : Mem}
    (hs : m.Sized) (ho : m.Ordered) : Along o P ops m ↔ Along o Q ops m := by
  induction ops generalizing m with
  | nil => exact ⟨fun _ => .nil m, fun _ => .nil m⟩
  | cons op ops ih =>
      obtain ⟨ho', hs'⟩ := ChunkOp.apply_ordered (o := o) op hs ho
      constructor
      · intro h
        cases h with
        | cons h1 h2 => exact .cons ((hPQ op m hs ho).mp h1) ((ih hs' ho').mp h2)
      · intro h
        cases h with
        | cons h1 h2 => exact .cons ((hPQ op m hs ho).mpr h1) ((ih hs' ho').mpr h2)

/-- **A whole run**: from a fresh chunk the cursors stay in order and every range handed on lies
inside the bytes received, in exactly the runs none of whose calls declares a frame that ends in
front of its begin, or reads a datagram while the bytes of a body are awaited. -/
theorem cursors_run_iff (o : Osip) (ops : List ChunkOp) (buffer : Str) (peer : SockAddr)
    (hbuffer : buffer.length < 65536) :
    Along o (ChunkOp.Holds o) ops (memNew buffer peer) ↔
      Along o ChunkOp.Admits ops (memNew buffer peer) :=
  along_congr (fun _ _ hs ho => ChunkOp.holds_iff hs ho) (memNew_sized hbuffer peer)
    (memNew_ordered buffer peer)

/-- An osip library that parses nothing. -/
def deafOsip : Osip where
  parse _ := none
  wild _ _ := none
  fixLastVia m _ _ := (m, 0)

/-- A datagram whose body is missing, and the next datagram. -/
def truncatedDatagram : List ChunkOp :=
  [.udpRead (some (str "x\nl:9\n\n", .inet [49] 5060)), .execute,
    .udpRead (some (str "x", .inet [49] 5060))]

/-- A keep-alive, taken and answered. -/
theorem cursors_run_keepalive :
    Along deafOsip (ChunkOp.Holds deafOsip)
      [.tcpRead (some CRLFCRLF), .execute, .align] (memNew (List.replicate 16 0) .other) :=
  (cursors_run_iff _ _ _ _ (by decide)).mpr
    (.cons trivial (.cons (fun _ _ _ _ => Nat.zero_le _) (.cons trivial (.nil _))))

/-- The second datagram finds `done` beyond `end`, and a negative range is dumped. -/
theorem truncated_datagram_dump :
    ¬ Along deafOsip (ChunkOp.Holds deafOsip) truncatedDatagram
      (memNew (List.replicate 16 0) .other) := by
  intro h
  cases h with
  | cons _ h =>
      cases h with
      | cons _ h =>
          cases h with
          | cons h _ =>
              have := h.inside ⟨16, -9⟩ (by decide)
              exact absurd this (by decide)

end SipEcho
