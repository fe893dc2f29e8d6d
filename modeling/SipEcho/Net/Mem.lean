import SipEcho.Common.Libc

/-!
`mem_t`, the chunk every connection reads into and every queued message is sent from, and the
functions that move its three cursors: `mem_align`, `tcp_read`, `udp_read`.

The cursors are `unsigned short`; every assignment goes through `u16`.  The block is a list of
`length` bytes, whatever `malloc` left in it.  `Mem.Ordered` is the order of the cursors that
each call leaves behind, `Mem.Sized` that the block has its length.
-/

namespace SipEcho

/-- The peer address of a chunk, by family. -/
inductive SockAddr where
  | inet (ip : Str) (port : ℕ)
  | inet6 (ip : Str) (port : ℕ)
  | other
  deriving DecidableEq, Repr

/-- `mem_t`. -/
structure Mem where
  buffer : Str
  length : ℕ
  begin : ℕ := 0
  done : ℕ := 0
  end_ : ℕ := 0
  peer : SockAddr := .other
  deriving DecidableEq, Repr

/-- A range of the block a function is handed: an offset and the difference of two cursors,
before its conversion to `size_t`. -/
structure Range where
  off : ℕ
  len : ℤ
  deriving DecidableEq, Repr

/-- The range lies inside the first `hi` bytes. -/
def Range.Inside (r : Range) (hi : ℕ) : Prop := 0 ≤ r.len ∧ r.off + r.len ≤ hi

instance (r : Range) (hi : ℕ) : Decidable (r.Inside hi) := by
  unfold Range.Inside
  infer_instance

namespace Mem

/-- The bytes from offset `i` up to offset `j`. -/
def bytes (m : Mem) (i j : ℕ) : Str := (m.buffer.drop i).take (j - i)

/-- The bytes received and not yet consumed. -/
def unread (m : Mem) : Str := m.bytes m.begin m.end_

/-- The bytes of a range. -/
def slice (m : Mem) (r : Range) : Str := m.bytes r.off (r.off + r.len.toNat)

/-- The order of the cursors between calls. -/
structure Ordered (m : Mem) : Prop where
  begin_le_end : m.begin ≤ m.end_
  end_le_length : m.end_ ≤ m.length
  begin_le_done : m.begin ≤ m.done

/-- The block has its length, and the cursors are `unsigned short`s. -/
structure Sized (m : Mem) : Prop where
  buffer_length : m.buffer.length = m.length
  length_lt : m.length < 65536
  done_lt : m.done < 65536

lemma length_bytes {m : Mem} (hs : m.Sized) {i j : ℕ} (hij : i ≤ j) (hj : j ≤ m.length) :
    (m.bytes i j).length = j - i := by
  rw [bytes, List.length_take, List.length_drop, hs.buffer_length]
  omega

lemma length_unread {m : Mem} (hs : m.Sized) (ho : m.Ordered) :
    m.unread.length = m.end_ - m.begin :=
  length_bytes hs ho.begin_le_end ho.end_le_length

end Mem

/-- `mem_new(NULL, length, a, l)`: a fresh chunk over an uninitialised block. -/
def memNew (buffer : Str) (peer : SockAddr) : Mem :=
  { buffer, length := buffer.length, peer }

/-- `mem_empty`. -/
def memEmpty (m : Mem) : Bool := m.end_ = m.begin

/-- `mem_align`: the unread bytes move to the front of the block. -/
def memAlign (m : Mem) : Mem :=
  if m.begin = 0 then m
  else
    { m with
      buffer := m.unread ++ m.buffer.drop (m.end_ - m.begin)
      end_ := u16 (m.end_ - m.begin)
      done := u16 (m.done - m.begin)
      begin := 0 }

/-- What `recv` and `recvfrom` do to the block: the kernel writes no more than the room it was
given, from `end` on. -/
def recvInto (d : Str) (m : Mem) : Mem :=
  let d := d.take (m.length - m.end_)
  { m with
    buffer := m.buffer.take m.end_ ++ d ++ m.buffer.drop (m.end_ + d.length)
    end_ := u16 (m.end_ + d.length) }

/-- `tcp_read`; `got` is what `recv` gave, `none` when it failed. -/
def tcpRead (got : Option Str) (m : Mem) : Mem × ℤ :=
  if m.end_ ≤ m.length then
    match got with
    | some d => (recvInto d m, (d.take (m.length - m.end_)).length)
    | none => (m, -1)
  else (m, -1)

/-- The ranges `udp_read` hands to `log_dump`: what the last datagram left behind. -/
def udpLeftover (m : Mem) : List Range :=
  if m.end_ ≠ 0 then [⟨m.done, m.end_ - m.done⟩] else []

/-- The chunk after `udp_read` has dropped the leftover. -/
def udpReset (m : Mem) : Mem :=
  if m.end_ ≠ 0 then { m with begin := 0, done := 0, end_ := 0 } else m

/-- `udp_read`; `got` is the datagram and its sender, `none` when `recvfrom` failed. -/
def udpRead (got : Option (Str × SockAddr)) (m : Mem) : Mem × ℤ :=
  let m := udpReset m
  if m.end_ < m.length then
    match got with
    | some (d, peer) =>
        ({ recvInto d m with peer }, (d.take (m.length - m.end_)).length)
    | none => (m, -1)
  else (m, -1)

/-! ### What each keeps -/

lemma memNew_ordered (buffer : Str) (peer : SockAddr) : (memNew buffer peer).Ordered :=
  ⟨le_rfl, Nat.zero_le _, le_rfl⟩

lemma memNew_sized {buffer : Str} (h : buffer.length < 65536) (peer : SockAddr) :
    (memNew buffer peer).Sized :=
  ⟨rfl, h, Nat.zero_lt_succ _⟩

section Align

variable {m : Mem}

@[simp] lemma memAlign_length : (memAlign m).length = m.length := by
  rw [memAlign]
  split <;> rfl

@[simp] lemma memAlign_peer : (memAlign m).peer = m.peer := by
  rw [memAlign]
  split <;> rfl

@[simp] lemma memAlign_begin : (memAlign m).begin = 0 := by
  rw [memAlign]
  split
  · assumption
  · rfl

lemma memAlign_end (hs : m.Sized) (ho : m.Ordered) :
    (memAlign m).end_ = m.end_ - m.begin := by
  have h1 := ho.begin_le_end
  have h2 := ho.end_le_length
  have h3 := hs.length_lt
  rw [memAlign]
  split
  · omega
  · show u16 (m.end_ - m.begin) = m.end_ - m.begin
    have := u16_natCast (n := m.end_ - m.begin) (by omega)
    rwa [Nat.cast_sub h1] at this

lemma memAlign_done (hs : m.Sized) (ho : m.Ordered) :
    (memAlign m).done = m.done - m.begin := by
  have h1 := ho.begin_le_done
  have h2 := hs.done_lt
  rw [memAlign]
  split
  · omega
  · show u16 (m.done - m.begin) = m.done - m.begin
    have := u16_natCast (n := m.done - m.begin) (by omega)
    rwa [Nat.cast_sub h1] at this

lemma memAlign_sized (hs : m.Sized) (ho : m.Ordered) : (memAlign m).Sized := by
  have h1 := ho.begin_le_end
  have h2 := ho.end_le_length
  have h3 := Mem.length_unread hs ho
  have h4 := hs.done_lt
  refine ⟨?_, by rw [memAlign_length]; exact hs.length_lt, by rw [memAlign_done hs ho]; omega⟩
  rw [memAlign_length, memAlign]
  split
  · exact hs.buffer_length
  · rw [List.length_append, h3, List.length_drop, hs.buffer_length]
    omega

lemma memAlign_ordered (hs : m.Sized) (ho : m.Ordered) : (memAlign m).Ordered := by
  have h1 := ho.begin_le_end
  have h2 := ho.end_le_length
  refine ⟨?_, ?_, ?_⟩
  · rw [memAlign_begin]
    exact Nat.zero_le _
  · rw [memAlign_end hs ho, memAlign_length]
    omega
  · rw [memAlign_begin]
    exact Nat.zero_le _

/-- The unread bytes are the same. -/
lemma memAlign_unread (hs : m.Sized) (ho : m.Ordered) : (memAlign m).unread = m.unread := by
  have h3 := Mem.length_unread hs ho
  rw [Mem.unread, Mem.bytes, memAlign_begin, memAlign_end hs ho, Nat.sub_zero, List.drop_zero,
    memAlign]
  split
  · rename_i h
    rw [Mem.unread, Mem.bytes, h, List.drop_zero]
  · rw [← h3, List.take_left']
    rfl

end Align

section Recv

variable {m : Mem} {d : Str}

/-- How many bytes a read adds. -/
lemma recvInto_end (hs : m.Sized) (h : m.end_ ≤ m.length) :
    (recvInto d m).end_ = m.end_ + min (m.length - m.end_) d.length := by
  have h3 := hs.length_lt
  show u16 (m.end_ + ((d.take (m.length - m.end_)).length : ℕ)) = _
  rw [List.length_take]
  exact_mod_cast u16_natCast (n := m.end_ + min (m.length - m.end_) d.length) (by omega)

lemma recvInto_sized (hs : m.Sized) (h : m.end_ ≤ m.length) : (recvInto d m).Sized := by
  refine ⟨?_, hs.length_lt, hs.done_lt⟩
  show (m.buffer.take m.end_ ++ _ ++ _).length = m.length
  rw [List.length_append, List.length_append, List.length_take, List.length_drop,
    List.length_take, hs.buffer_length]
  omega

lemma recvInto_ordered (hs : m.Sized) (ho : m.Ordered) : (recvInto d m).Ordered := by
  have h1 := ho.begin_le_end
  have h2 := ho.end_le_length
  refine ⟨?_, ?_, ho.begin_le_done⟩
  · rw [recvInto_end hs h2]
    exact h1.trans (Nat.le_add_right _ _)
  · rw [recvInto_end hs h2]
    show _ ≤ m.length
    omega

/-- A read that fits appends to the unread bytes. -/
lemma recvInto_unread (hs : m.Sized) (ho : m.Ordered) (hd : d.length ≤ m.length - m.end_) :
    (recvInto d m).unread = m.unread ++ d := by
  have h1 := ho.begin_le_end
  have h2 := ho.end_le_length
  have hend : (recvInto d m).end_ = m.end_ + d.length := by
    rw [recvInto_end hs h2, Nat.min_eq_right hd]
  have htake : d.take (m.length - m.end_) = d := List.take_of_length_le hd
  have hlen : (m.buffer.take m.end_).length = m.end_ := by
    rw [List.length_take, hs.buffer_length]
    omega
  have hsplit : m.buffer.take m.end_ = m.buffer.take m.begin ++ m.unread := by
    have : m.end_ = m.begin + (m.end_ - m.begin) := by omega
    conv_lhs => rw [this, List.take_add]
    rfl
  have hbegin : (m.buffer.take m.begin).length = m.begin := by
    rw [List.length_take, hs.buffer_length]
    omega
  rw [Mem.unread, Mem.bytes, hend]
  show ((m.buffer.take m.end_ ++ d.take (m.length - m.end_) ++ _).drop m.begin).take
    (m.end_ + d.length - m.begin) = _
  rw [htake, hsplit, List.append_assoc, List.append_assoc, List.drop_left' hbegin,
    ← List.append_assoc, List.take_left']
  rw [List.length_append, Mem.length_unread hs ho]
  omega

end Recv

lemma tcpRead_ordered {m : Mem} (hs : m.Sized) (ho : m.Ordered) (got : Option Str) :
    (tcpRead got m).1.Ordered ∧ (tcpRead got m).1.Sized := by
  simp only [tcpRead, if_pos ho.end_le_length]
  cases got with
  | none => exact ⟨ho, hs⟩
  | some d => exact ⟨recvInto_ordered hs ho, recvInto_sized hs ho.end_le_length⟩

lemma udpReset_ordered {m : Mem} (hs : m.Sized) (ho : m.Ordered) :
    (udpReset m).Ordered ∧ (udpReset m).Sized := by
  rw [udpReset]
  split
  · exact ⟨⟨le_rfl, Nat.zero_le _, le_rfl⟩,
      ⟨hs.buffer_length, hs.length_lt, Nat.zero_lt_succ _⟩⟩
  · exact ⟨ho, hs⟩

lemma udpRead_ordered {m : Mem} (hs : m.Sized) (ho : m.Ordered)
    (got : Option (Str × SockAddr)) :
    (udpRead got m).1.Ordered ∧ (udpRead got m).1.Sized := by
  obtain ⟨ho', hs'⟩ := udpReset_ordered hs ho
  simp only [udpRead]
  split
  · cases got with
    | none => exact ⟨ho', hs'⟩
    | some p =>
        have h1 := recvInto_ordered (d := p.1) hs' ho'
        have h2 := recvInto_sized (d := p.1) hs' ho'.end_le_length
        exact ⟨⟨h1.begin_le_end, h1.end_le_length, h1.begin_le_done⟩,
          ⟨h2.buffer_length, h2.length_lt, h2.done_lt⟩⟩
  · exact ⟨ho', hs'⟩

end SipEcho
