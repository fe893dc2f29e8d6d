import SipEcho.Lib.Loop

/-!
Reading frames off a stream that arrives in pieces.

A reader keeps what has arrived and not been taken in a buffer; a piece is added to the buffer
and a loop then takes frames from its front.  `head s n w` says that the stream `s` begins with a
frame of `n` items, which the reader recognises once `w` items have arrived; `idle s` that nothing
in `s` is recognised as a frame; `acc k f` that the reader goes on after taking `f` as its `k`-th
frame.

* `Framed`: a stream cut into its whole frames, each but the last accepted, and a rest;
* `Reader.Follows`: what one turn of the loop has to do, relative to an invariant `Sync` that
  ties the state of the reader to the stream it stands in;
* `Reader.Follows.drain`: the loop is left, and not before the buffer holds no whole frame;
* `Reader.Follows.fed`: the frames taken are those of the stream, however it is cut;
* `Reader.Follows.cut_matters`: the frames have to be accepted.
-/

namespace SipEcho.Lib

universe u v

variable {α : Type u} {σ : Type v}

section Stream

variable (head : List α → ℕ → ℕ → Prop) (idle : List α → Prop) (acc : ℕ → List α → Prop)

/-- No whole frame at the front of a stream of which `l` items have arrived. -/
def Waiting (s : List α) (l : ℕ) : Prop := idle s ∨ ∃ n w, head s n w ∧ l < w

/-- A stream from its `k`-th frame on, cut into its whole frames: each is accepted, unless no
whole frame follows it. -/
inductive Framed : ℕ → List α → List (List α) → Prop
  | rest {k : ℕ} {s : List α} : Waiting head idle s s.length → Framed k s []
  | last {k n w : ℕ} {s : List α} : head s n w → w ≤ s.length →
      Waiting head idle (s.drop n) (s.drop n).length → Framed k s [s.take n]
  | frame {k n w : ℕ} {s : List α} {fs : List (List α)} : head s n w → w ≤ s.length →
      acc k (s.take n) → Framed (k + 1) (s.drop n) fs → Framed k s (s.take n :: fs)

variable {head idle}

lemma Waiting.mono {s : List α} {l l' : ℕ} (h : Waiting head idle s l) (hl : l' ≤ l) :
    Waiting head idle s l' :=
  h.imp_right fun ⟨n, w, hn, hw⟩ => ⟨n, w, hn, hl.trans_lt hw⟩

end Stream

/-- A reader: its buffer, the frames it has taken, the arrival of a piece, `none` when there is
no room for it, and one turn of its loop. -/
structure Reader (α : Type u) (σ : Type v) where
  buf : σ → List α
  log : σ → List (List α)
  recv : List α → σ → Option σ
  turn : σ → Turn σ

namespace Reader

variable (R : Reader α σ) (head : List α → ℕ → ℕ → Prop) (idle : List α → Prop)
  (acc : ℕ → List α → Prop)

/-- The reader follows a stream: `Sync x s` ties its state to the stream from the next frame on.
A turn waits while the frame is not whole, takes it when it is, and leaves the loop on a frame
that is not accepted. -/
structure Follows (Sync : σ → List α → Prop) : Prop where
  head_pos : ∀ {s n w}, head s n w → 0 < n ∧ n ≤ w
  head_unique : ∀ {s n w m v}, head s n w → head s m v → n = m ∧ w = v
  head_idle : ∀ {s n w}, head s n w → ¬ idle s
  buf_le : ∀ {x s}, Sync x s → (R.buf x).length ≤ s.length
  wait : ∀ {x s}, Sync x s → Waiting head idle s (R.buf x).length →
    ∃ y, R.turn x = .stop y ∧ R.buf y = R.buf x ∧ R.log y = R.log x ∧ Sync y s
  take : ∀ {x s n w}, Sync x s → head s n w → w ≤ (R.buf x).length →
    ∃ y, (acc (R.log x).length (s.take n) ∧ R.turn x = .again y ∨
        ¬ acc (R.log x).length (s.take n) ∧ R.turn x = .stop y) ∧
      R.buf x = s.take n ++ R.buf y ∧ R.log y = R.log x ++ [s.take n] ∧ Sync y (s.drop n)
  recv : ∀ {x y s d}, Sync x s → R.buf x ++ d <+: s → R.recv d x = some y →
    R.buf y = R.buf x ++ d ∧ R.log y = R.log x ∧ Sync y s

/-- Pieces delivered one after the other, the loop run to its end after each. -/
inductive Fed : σ → List (List α) → σ → Prop
  | nil (x : σ) : Fed x [] x
  | cons {x y z w : σ} {d : List α} {ds : List (List α)} {n : ℕ} : R.recv d x = some y →
      spin R.turn n y = some z → Fed z ds w → Fed x (d :: ds) w

/-- Where the loop leaves a reader in front of the stream `s`, whose frames are `fs`: it has
taken the frames `fs₁`, and stands in front of `s'`. -/
structure Stands (Sync : σ → List α → Prop) (k : ℕ) (s : List α) (fs : List (List α)) (x y : σ)
    (s' : List α) (fs₁ fs₂ : List (List α)) : Prop where
  frames : fs = fs₁ ++ fs₂
  stream : s = fs₁.flatten ++ s'
  log : R.log y = R.log x ++ fs₁
  sync : Sync y s'
  framed : Framed head idle acc (k + fs₁.length) s' fs₂
  waiting : Waiting head idle s' (R.buf y).length

variable {R head idle acc} {Sync : σ → List α → Prop}

namespace Follows

lemma not_waiting (hR : R.Follows head idle acc Sync) {s : List α} {n w l : ℕ}
    (hn : head s n w) (hw : w ≤ l) : ¬ Waiting head idle s l := by
  rintro (hi | ⟨m, v, hm, hv⟩)
  · exact hR.head_idle hn hi
  · have := (hR.head_unique hn hm).2
    omega

/-- What the loop does: it halts, has taken what it has logged off its buffer, and stands. -/
def Drains (R : Reader α σ) (head : List α → ℕ → ℕ → Prop) (idle : List α → Prop)
    (acc : ℕ → List α → Prop) (Sync : σ → List α → Prop) (k : ℕ) (s : List α)
    (fs : List (List α)) (x : σ) : Prop :=
  ∃ y s' fs₁ fs₂, (∃ n, spin R.turn n x = some y) ∧ R.buf x = fs₁.flatten ++ R.buf y ∧
    Stands R head idle acc Sync k s fs x y s' fs₁ fs₂

/-- A frame that is not whole is waited for. -/
lemma drain_wait (hR : R.Follows head idle acc Sync) {k : ℕ} {s : List α} {fs : List (List α)}
    {x : σ} (hs : Framed head idle acc k s fs) (hx : Sync x s)
    (hw : Waiting head idle s (R.buf x).length) : Drains R head idle acc Sync k s fs x := by
  obtain ⟨y, hturn, hbuf, hlog, hy⟩ := hR.wait hx hw
  exact ⟨y, s, [], fs, ⟨1, spin_stop hturn 0⟩, hbuf.symm,
    { frames := rfl
      stream := rfl
      log := by rw [hlog, List.append_nil]
      sync := hy
      framed := hs
      waiting := by rwa [hbuf] }⟩

/-- A turn that goes round after a frame is followed by what the loop does next. -/
lemma drain_again {k : ℕ} {s t : List α} {f : List α} {fs : List (List α)} {x x' : σ}
    (hst : s = f ++ t) (hturn : R.turn x = .again x') (hbuf : R.buf x = f ++ R.buf x')
    (hlog : R.log x' = R.log x ++ [f]) (h : Drains R head idle acc Sync (k + 1) t fs x') :
    Drains R head idle acc Sync k s (f :: fs) x := by
  obtain ⟨y, s', fs₁, fs₂, ⟨n, hn⟩, hbuf', hd⟩ := h
  refine ⟨y, s', f :: fs₁, fs₂, ⟨n + 1, by rw [spin_again hturn, hn]⟩, ?_,
    { frames := by rw [hd.frames, List.cons_append]
      stream := by rw [hst, hd.stream, List.flatten_cons, List.append_assoc]
      log := by rw [hd.log, hlog, List.append_assoc, List.singleton_append]
      sync := hd.sync
      framed := ?_
      waiting := hd.waiting }⟩
  · rw [hbuf, hbuf', List.flatten_cons, List.append_assoc]
  · have := hd.framed
    rwa [Nat.add_assoc, Nat.add_comm 1] at this

/-- A turn that leaves the loop after a frame leaves it standing behind the frame. -/
lemma drain_stop {k : ℕ} {s t : List α} {f : List α} {x y : σ} (hst : s = f ++ t)
    (hturn : R.turn x = .stop y) (hbuf : R.buf x = f ++ R.buf y)
    (hlog : R.log y = R.log x ++ [f]) (hy : Sync y t)
    (ht : Framed head idle acc (k + 1) t []) (hw : Waiting head idle t (R.buf y).length) :
    Drains R head idle acc Sync k s [f] x :=
  ⟨y, t, [f], [], ⟨1, spin_stop hturn 0⟩, by simpa using hbuf,
    { frames := rfl
      stream := by simpa using hst
      log := hlog
      sync := hy
      framed := ht
      waiting := hw }⟩

/-- **The loop**: it is left, after it has taken every frame that has arrived. -/
theorem drain (hR : R.Follows head idle acc Sync) {k : ℕ} {s : List α} {fs : List (List α)}
    {x : σ} (hs : Framed head idle acc k s fs) (hx : Sync x s) (hk : (R.log x).length = k) :
    Drains R head idle acc Sync k s fs x := by
  induction hs generalizing x with
  | rest hw => exact hR.drain_wait (.rest hw) hx (hw.mono (hR.buf_le hx))
  | @last k n w s hn hle hw =>
      by_cases hbuf : w ≤ (R.buf x).length
      · obtain ⟨y, hturn, hb, hl, hy⟩ := hR.take hx hn hbuf
        have hst := (List.take_append_drop n s).symm
        have hwy := hw.mono (hR.buf_le hy)
        rcases hturn with ⟨-, hturn⟩ | ⟨-, hturn⟩
        · exact drain_again hst hturn hb hl (hR.drain_wait (.rest hw) hy hwy)
        · exact drain_stop hst hturn hb hl hy (.rest hw) hwy
      · exact hR.drain_wait (.last hn hle hw) hx (Or.inr ⟨n, w, hn, by omega⟩)
  | @frame k n w s fs hn hle hacc hfs ih =>
      by_cases hbuf : w ≤ (R.buf x).length
      · obtain ⟨y, hturn, hb, hl, hy⟩ := hR.take hx hn hbuf
        rcases hturn with ⟨-, hturn⟩ | ⟨hrej, -⟩
        · have hky : (R.log y).length = k + 1 := by
            rw [hl, List.length_append, hk, List.length_singleton]
          exact drain_again (List.take_append_drop n s).symm hturn hb hl (ih hy hky)
        · rw [hk] at hrej
          exact absurd hacc hrej
      · exact hR.drain_wait (.frame hn hle hacc hfs) hx (Or.inr ⟨n, w, hn, by omega⟩)

/-- **A run**: after some of the pieces the reader has taken a first part of the frames of the
stream, and no whole frame is left in its buffer. -/
theorem fed (hR : R.Follows head idle acc Sync) {x y : σ} {ds : List (List α)}
    (h : R.Fed x ds y) {k : ℕ} {s rest : List α} {fs : List (List α)}
    (hs : Framed head idle acc k s fs) (hx : Sync x s) (hk : (R.log x).length = k)
    (hw : Waiting head idle s (R.buf x).length) (hds : s = R.buf x ++ ds.flatten ++ rest) :
    ∃ s' fs₁ fs₂, s' = R.buf y ++ rest ∧ Stands R head idle acc Sync k s fs x y s' fs₁ fs₂ := by
  induction h generalizing k s fs with
  | nil x =>
      exact ⟨s, [], fs, by simpa using hds,
        { frames := rfl
          stream := rfl
          log := (List.append_nil _).symm
          sync := hx
          framed := hs
          waiting := hw }⟩
  | @cons x y z w d ds n hrecv hspin _ ih =>
      have hpre : R.buf x ++ d <+: s := by
        rw [hds, List.flatten_cons, ← List.append_assoc, List.append_assoc]
        exact List.prefix_append _ _
      obtain ⟨hbuf, hlog, hy⟩ := hR.recv hx hpre hrecv
      obtain ⟨y', s', fs₁, fs₂, ⟨m, hm⟩, hbuf', hd⟩ := hR.drain hs hy (by rw [hlog, hk])
      obtain rfl : z = y' := spin_unique hspin hm
      have hstream : s' = R.buf z ++ ds.flatten ++ rest := by
        have h1 : fs₁.flatten ++ s' = fs₁.flatten ++ (R.buf z ++ ds.flatten ++ rest) := by
          rw [← hd.stream, hds, List.flatten_cons, ← List.append_assoc, ← hbuf, hbuf']
          simp only [List.append_assoc]
        exact List.append_cancel_left h1
      have hkz : (R.log z).length = k + fs₁.length := by
        rw [hd.log, List.length_append, hlog, hk]
      obtain ⟨s'', fs₃, fs₄, hs'', hz⟩ := ih hd.framed hd.sync hkz hd.waiting hstream
      refine ⟨s'', fs₁ ++ fs₃, fs₄, hs'',
        { frames := by rw [hd.frames, hz.frames, List.append_assoc]
          stream := by rw [hd.stream, hz.stream, List.flatten_append, List.append_assoc]
          log := by rw [hz.log, hd.log, hlog, List.append_assoc]
          sync := hz.sync
          framed := ?_
          waiting := hz.waiting }⟩
      have := hz.framed
      rwa [Nat.add_assoc, ← List.length_append] at this

/-- **The whole stream**: whatever the pieces, the frames taken are the frames of the stream. -/
theorem fed_all (hR : R.Follows head idle acc Sync) {x y : σ} {ds : List (List α)}
    (h : R.Fed x ds y) {k : ℕ} {s : List α} {fs : List (List α)}
    (hs : Framed head idle acc k s fs) (hx : Sync x s) (hk : (R.log x).length = k)
    (hw : Waiting head idle s (R.buf x).length) (hds : s = R.buf x ++ ds.flatten) :
    R.log y = R.log x ++ fs := by
  have hds' : s = R.buf x ++ ds.flatten ++ [] := by rw [hds, List.append_nil]
  obtain ⟨s', fs₁, fs₂, hs', hst⟩ := hR.fed h hs hx hk hw hds'
  rw [List.append_nil] at hs'
  have hw' := hst.waiting
  rw [← hs'] at hw'
  have hfs₂ : fs₂ = [] := by
    cases hst.framed with
    | rest _ => rfl
    | last hn hle _ => exact absurd hw' (hR.not_waiting hn hle)
    | frame hn hle _ _ => exact absurd hw' (hR.not_waiting hn hle)
  rw [hst.log, hst.frames, hfs₂, List.append_nil]

/-- A stream with a whole frame is waited for while nothing of it has arrived. -/
lemma waiting_zero (hR : R.Follows head idle acc Sync) {k : ℕ} {s : List α}
    {fs : List (List α)} (hs : Framed head idle acc k s fs) : Waiting head idle s 0 := by
  cases hs with
  | rest h => exact h.mono (Nat.zero_le _)
  | last hn _ _ =>
      obtain ⟨h1, h2⟩ := hR.head_pos hn
      exact Or.inr ⟨_, _, hn, by omega⟩
  | frame hn _ _ _ =>
      obtain ⟨h1, h2⟩ := hR.head_pos hn
      exact Or.inr ⟨_, _, hn, by omega⟩

/-- **A frame that is not accepted hides those behind it** when they arrive together: the cut
into that frame and the rest gives more frames than one piece. -/
theorem cut_matters (hR : R.Follows head idle acc Sync) {k n : ℕ} {s : List α}
    {fs : List (List α)} {x y z : σ} (hx : Sync x s) (hbuf : R.buf x = [])
    (hk : (R.log x).length = k) (hn : head s n n) (hle : n ≤ s.length)
    (hrej : ¬ acc k (s.take n)) (hrest : Framed head idle acc (k + 1) (s.drop n) fs)
    (hfs : fs ≠ []) (hy : R.recv s x = some y) (hz : R.recv (s.take n) x = some z)
    (hroom : ∀ z', R.turn z = .stop z' → ∃ t, R.recv (s.drop n) z' = some t) :
    ∃ a b, R.Fed x [s] a ∧ R.Fed x [s.take n, s.drop n] b ∧ R.log a ≠ R.log b := by
  obtain ⟨hbufy, hlogy, hy'⟩ := hR.recv hx (by rw [hbuf]; exact List.prefix_rfl) hy
  obtain ⟨hbufz, hlogz, hz'⟩ := hR.recv hx (by rw [hbuf]; exact List.take_prefix n s) hz
  rw [hbuf, List.nil_append] at hbufy hbufz
  have hlen : (R.buf z).length = n := by rw [hbufz, List.length_take, Nat.min_eq_left hle]
  -- in one piece the loop is left behind the first frame
  obtain ⟨a, hturn, -, hloga, -⟩ := hR.take hy' hn (by rw [hbufy]; exact hle)
  rw [hlogy, hk] at hturn
  have hstop := (hturn.resolve_left fun h => hrej h.1).2
  -- in two pieces the second begins with the second frame
  obtain ⟨b, hturn', hbufb, hlogb, hb⟩ := hR.take hz' hn hlen.ge
  rw [hlogz, hk] at hturn'
  have hstop' := (hturn'.resolve_left fun h => hrej h.1).2
  have hbufb' : R.buf b = [] := by
    rw [hbufz] at hbufb
    simpa using hbufb.symm
  have hkb : (R.log b).length = k + 1 := by
    rw [hlogb, hlogz, List.length_append, hk, List.length_singleton]
  obtain ⟨t, ht⟩ := hroom b hstop'
  obtain ⟨hbuft, hlogt, ht'⟩ := hR.recv hb (by rw [hbufb']; exact List.prefix_rfl) ht
  obtain ⟨c, s', fs₁, fs₂, ⟨m, hm⟩, -, hd⟩ := hR.drain hrest ht' (by rw [hlogt, hkb])
  have hfed : R.Fed b [s.drop n] c := .cons ht hm (.nil c)
  have hlogc := hR.fed_all hfed hrest hb hkb (by rw [hbufb']; exact hR.waiting_zero hrest)
    (by rw [hbufb']; simp)
  refine ⟨a, c, .cons hy (spin_stop hstop 0) (.nil a), .cons hz (spin_stop hstop' 0) hfed, ?_⟩
  rw [hloga, hlogy, hlogc, hlogb, hlogz, List.append_assoc]
  intro h
  have h1 := List.append_cancel_left h
  rw [List.singleton_append] at h1
  exact hfs (List.cons.inj h1).2.symm

end Follows

end Reader

end SipEcho.Lib
