import SipEcho.Net.Mem
import SipEcho.Osip.Message

/-!
`sip_read`: one SIP message, or one keep-alive, taken from the front of a chunk.

The call has three stages.  `sipScan` looks for the end of the header, unless an earlier call has
found it, and moves `done` behind the body the `Content-Length` header declares.  `sip_read`
returns while `done` is beyond the bytes received.  Then the frame is parsed and consumed,
whatever it was.

`Osip` is what the osip library does to a frame.  `SipRead.touched` are the ranges of the block
handed to `osip_parse`, `memcmp`, `log_dump` and `sip_dump_in`, in the order of the calls.
-/

namespace SipEcho

def CRLF : Str := str "\r\n"

def CRLFCRLF : Str := str "\r\n\r\n"

def LFLF : Str := str "\n\n"

/-! ### Validity -/

/-- `sip_from_is_valid`. -/
def sipFromIsValid (f : Option From) : Bool :=
  match f with
  | none => false
  | some f =>
      match f.url with
      | none => false
      | some url =>
          if url.scheme = none then false
          else
            match url.username with
            | none => false
            | some username =>
                if strcmp username (str "*") = 0 then false
                else if url.host = none then false
                else true

/-- `sip_message_is_valid`. -/
def sipMessageIsValid (m : Message) : Bool :=
  if m.vias.length = 0 then false
  else if !sipFromIsValid m.from_ then false
  else if !sipFromIsValid m.to_ then false
  else if m.callId = none then false
  else if m.cseq = none then false
  else true

/-- The least message that is valid. -/
def minimalMessage : Message :=
  let party : From :=
    { url := some { scheme := some (str "sip"), username := some (str "a"),
                    host := some (str "h") } }
  { vias := [{}], from_ := some party, to_ := some party, callId := some {}, cseq := some {} }

lemma minimalMessage_isValid : sipMessageIsValid minimalMessage = true := by decide

/-! ### The header -/

/-- How many blanks and tabs a text begins with. -/
def blanks (l : Str) : ℕ := (l.takeWhile fun c => c = 32 ∨ c = 9).length

/-- The end of the header in the unread bytes, and the end of its terminator: a `CRLFCRLF`, or
else an `LFLF`. -/
def headerEnd (u : Str) : Option (ℕ × ℕ) :=
  match memmem CRLFCRLF u with
  | some i => some (i, i + 4)
  | none => (memmem LFLF u).map fun i => (i, i + 2)

/-- The end of the next `Content-Length` of a header, or else of its next line that begins with
the short form. -/
def contentLengthName (head : Str) (n : ℕ) : Option ℕ :=
  match strncasestr 10 (str "content-length") head n with
  | some i => some (i + 15)
  | none => (strncasestr 10 (str "l") head n).map (· + 2)

/-- The loop over the names found: the offset of the value of the first one a colon follows.
Every turn moves behind a name, so `n + 1` turns are enough. -/
def contentLengthValue : ℕ → Str → ℕ → Option ℕ
  | 0, _, _ => none
  | fuel + 1, head, n =>
      match contentLengthName head n with
      | none => none
      | some p =>
          let p := p + blanks (head.drop p)
          if (head.drop p).head? = some 58 then
            some (p + 1 + blanks (head.drop (p + 1)))
          else (contentLengthValue fuel (head.drop p) (n - p)).map (p + ·)

/-- The declared length: `head` is the block from the header on, `n` the length of the header.
`atoi` stops where the number does, which may be behind the header. -/
def contentLength (head : Str) (n : ℕ) : ℤ :=
  match contentLengthValue (n + 1) head n with
  | none => 0
  | some p => atoi (head.drop p)

/-- The first stage of `sip_read`; `none` when the header is not complete yet. -/
def sipScan (m : Mem) : Option Mem :=
  if m.done = m.begin then
    match headerEnd (m.bytes m.done m.end_) with
    | none => none
    | some (t, h) =>
        let done := u16 (m.done + h)
        some { m with done := u16 (done + contentLength (m.buffer.drop m.begin) t) }
  else some m

/-! ### The frame -/

/-- The osip library, as far as the receive path uses it.  `wild` is what `osip_parse` makes of
a length that is no range of the block. -/
structure Osip where
  parse : Str → Option Message
  wild : Mem → Range → Option Message
  fixLastVia : Message → Str → ℕ → Message × ℤ

/-- `osip_parse`. -/
def Osip.osipParse (o : Osip) (m : Mem) (r : Range) : Option Message :=
  if r.Inside m.length then o.parse (m.slice r) else o.wild m r

/-- `sip_ip_address_and_port_get`, `none` for `-1`. -/
def sipIpAddressAndPortGet : SockAddr → Option (Str × ℕ)
  | .inet ip port => some (ip, port)
  | .inet6 ip port => some (ip, port)
  | .other => none

/-- What a call of `sip_read` leaves: the chunk, the event, the keep-alive answer pushed to
`output`, the range parsed and the ranges touched. -/
structure SipRead where
  mem : Mem
  event : Option Message := none
  output : Option Str := none
  parsed : Option Range := none
  touched : List Range := []

/-- The unread range up to `done`. -/
def Mem.frame (m : Mem) : Range := ⟨m.begin, m.done - m.begin⟩

/-- The last stage of `sip_read`: the frame `[begin, done)` is parsed and consumed. -/
def sipFrame (o : Osip) (m : Mem) (ip : Str) (port : ℕ) : SipRead :=
  let r := m.frame
  let consumed := { m with begin := m.done }
  match o.osipParse m r with
  | some sip =>
      if sipMessageIsValid sip then
        -- `log_dump` when the header cannot be fixed, `sip_dump_in` otherwise
        { mem := consumed, event := some (o.fixLastVia sip ip port).1,
          parsed := some r, touched := [r, r] }
      else { mem := consumed, parsed := some r, touched := [r, r] }
  | none =>
      if r.len = 4 then
        let four : Range := ⟨m.begin, 4⟩
        if m.slice four = CRLFCRLF then
          { mem := consumed, output := some CRLF, parsed := some r, touched := [r, four] }
        else { mem := consumed, parsed := some r, touched := [r, four, r] }
      else { mem := consumed, parsed := some r, touched := [r, r] }

/-- `sip_read`. -/
def sipRead (o : Osip) (m : Mem) : SipRead :=
  match sipScan m with
  | none => { mem := m }
  | some m =>
      if m.end_ < m.done then { mem := m }
      else
        match sipIpAddressAndPortGet m.peer with
        | none => { mem := { m with begin := m.done } }
        | some (ip, port) => sipFrame o m ip port

/-! ### What the stages do to the cursors -/

section Frame

variable {o : Osip} {m : Mem}

lemma sipFrame_mem (ip : Str) (port : ℕ) :
    (sipFrame o m ip port).mem = { m with begin := m.done } := by
  simp only [sipFrame]
  split
  · split <;> rfl
  · split
    · split <;> rfl
    · rfl

lemma sipFrame_parsed (ip : Str) (port : ℕ) : (sipFrame o m ip port).parsed = some m.frame := by
  simp only [sipFrame]
  split
  · split <;> rfl
  · split
    · split <;> rfl
    · rfl

/-- Every range touched is the frame. -/
lemma sipFrame_touched {ip : Str} {port : ℕ} {r : Range}
    (hr : r ∈ (sipFrame o m ip port).touched) : r = m.frame := by
  have four (h : m.frame.len = 4) : (⟨m.begin, 4⟩ : Range) = m.frame := by
    rw [← h]
    rfl
  simp only [sipFrame] at hr
  split at hr
  · split at hr <;> simpa using hr
  · split at hr
    · rename_i h
      rw [four h] at hr
      split at hr <;> simpa using hr
    · simpa using hr

/-- An event is a parsed and valid message. -/
lemma sipFrame_event (ip : Str) (port : ℕ) :
    (sipFrame o m ip port).event =
      ((o.osipParse m m.frame).filter sipMessageIsValid).map
        fun sip => (o.fixLastVia sip ip port).1 := by
  simp only [sipFrame]
  split
  · rename_i sip h
    rw [h]
    by_cases hv : sipMessageIsValid sip <;> simp [hv]
  · rename_i h
    rw [h]
    split
    · split <;> rfl
    · rfl

/-- The scan moves `done` only. -/
lemma sipScan_some {m' : Mem} (h : sipScan m = some m') :
    ∃ d, m' = { m with done := d } ∧ (m.Sized → d < 65536) := by
  rw [sipScan] at h
  split at h
  · split at h
    · exact absurd h (by simp)
    · cases h
      exact ⟨_, rfl, fun _ => u16_lt _⟩
  · cases h
    exact ⟨m.done, rfl, fun hs => hs.done_lt⟩

/-- The frame a new header declares does not end in front of where it begins. -/
def ForwardLength (m : Mem) : Prop :=
  m.done = m.begin → ∀ t h, headerEnd m.unread = some (t, h) →
    m.begin ≤ u16 (u16 (m.begin + h) + contentLength (m.buffer.drop m.begin) t)

/-- It is what the scan needs to keep `done` in order. -/
lemma forwardLength_iff (ho : m.Ordered) :
    ForwardLength m ↔ ∀ m', sipScan m = some m' → m.begin ≤ m'.done := by
  simp only [ForwardLength, sipScan]
  by_cases hd : m.done = m.begin
  · have hu : m.bytes m.done m.end_ = m.unread := by rw [hd, Mem.unread]
    rw [if_pos hd, hu, hd]
    cases hh : headerEnd m.unread with
    | none => simp
    | some p =>
        obtain ⟨t, h⟩ := p
        constructor
        · rintro hf m' ⟨⟩
          exact hf rfl t h rfl
        · rintro hf - t' h' ⟨⟩
          exact hf _ rfl
  · rw [if_neg hd]
    constructor
    · rintro - m' ⟨⟩
      exact ho.begin_le_done
    · intro _ h
      exact absurd h hd

/-- **Everything a call can do**: nothing but to move `done`, to drop the frame of an unknown
peer, or to parse and consume the frame. -/
theorem sipRead_cases (o : Osip) (m : Mem) :
    (sipScan m = none ∧ sipRead o m = { mem := m }) ∨
    ∃ m', sipScan m = some m' ∧
      ((m'.end_ < m'.done ∧ sipRead o m = { mem := m' }) ∨
       (m'.done ≤ m'.end_ ∧ m'.peer = .other ∧
         sipRead o m = { mem := { m' with begin := m'.done } }) ∨
       (m'.done ≤ m'.end_ ∧ m'.peer ≠ .other ∧
         ∃ ip port, sipRead o m = sipFrame o m' ip port)) := by
  rw [sipRead]
  split
  · rename_i h
    exact Or.inl ⟨h, rfl⟩
  · rename_i m' h
    refine Or.inr ⟨m', h, ?_⟩
    split
    · rename_i h'
      exact Or.inl ⟨h', rfl⟩
    · rename_i h'
      cases hp : m'.peer with
      | inet ip port => exact Or.inr (Or.inr ⟨by omega, by simp, ip, port, rfl⟩)
      | inet6 ip port => exact Or.inr (Or.inr ⟨by omega, by simp, ip, port, rfl⟩)
      | other => exact Or.inr (Or.inl ⟨by omega, rfl, rfl⟩)

/-- **Between calls the cursors are in order**, whatever has been received. -/
theorem sipRead_ordered (hs : m.Sized) (ho : m.Ordered) :
    (sipRead o m).mem.Ordered ∧ (sipRead o m).mem.Sized := by
  have h1 := ho.begin_le_end
  have h2 := ho.end_le_length
  rcases sipRead_cases o m with ⟨-, h⟩ | ⟨m', hm', h⟩
  · rw [h]
    exact ⟨ho, hs⟩
  · obtain ⟨d, rfl, hlt⟩ := sipScan_some hm'
    have hs' : ({ m with done := d } : Mem).Sized := ⟨hs.buffer_length, hs.length_lt, hlt hs⟩
    have consumed (hd : d ≤ m.end_) :
        ({ m with done := d, begin := d } : Mem).Ordered ∧
          ({ m with done := d, begin := d } : Mem).Sized :=
      ⟨⟨hd, h2, le_rfl⟩, ⟨hs.buffer_length, hs.length_lt, hlt hs⟩⟩
    rcases h with ⟨hd, h⟩ | ⟨hd, -, h⟩ | ⟨hd, -, ip, port, h⟩
    · rw [h]
      dsimp only at hd
      exact ⟨⟨h1, h2, h1.trans hd.le⟩, hs'⟩
    · rw [h]
      exact consumed hd
    · rw [h, sipFrame_mem]
      exact consumed hd

end Frame

end SipEcho
