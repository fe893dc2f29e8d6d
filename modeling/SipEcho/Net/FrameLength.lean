import SipEcho.Net.Event
import SipEcho.Net.Frames

/-!
The length of a frame, against what its header says.

A header line is a line break, a name, blanks and a colon, wherever it stands in the header.
`declaredLength` reads the length off the header line by line: `0` without a `Content-Length`,
else the decimal number behind it.  `sip_read` does not go line by line.  It runs through the
lines that begin with the long name, and from the last of these on through the lines that begin
with the short one; it stops at a NUL; and it adds what it finds to an `unsigned short`.

* `strncasestr_spec`: what a search finds, and what it means to find nothing;
* `Reached x i`: the header line at `i` is one the loop comes to;
* `contentLengthValue_reached`, `contentLengthValue_unreached`: the loop finds it, or nothing;
* `contentLengthTurn_halts`: the loop is left;
* `frame_length_iff`: the frame is as long as its header says exactly when the length fits the
  cursors and the loop comes to it.
-/

namespace SipEcho

/-- A blank of a header line. -/
def isblank (c : UInt8) : Bool := c = 32 ∨ c = 9

/-- The names of the header, as the sources spell them. -/
def longName : Str := str "content-length"

def shortName : Str := str "l"

/-- A line begins here, and with this name, in any case. -/
def nameAt (name s : Str) : Bool :=
  s.head? = some 10 && (s.tail.take name.length).map tolower = name

/-- What stands behind the colon of the header line that begins here, if it has this name. -/
def fieldAt (name s : Str) : Option Str :=
  let r := (s.drop (1 + name.length)).dropWhile isblank
  if nameAt name s && r.head? = some 58 then some r.tail else none

/-- What stands behind the colon of a `Content-Length` in either form. -/
def lengthAt (x : Str) (i : ℕ) : Option Str :=
  (fieldAt longName (x.drop i)).or (fieldAt shortName (x.drop i))

/-- The `Content-Length` lines of a header: where each begins and what stands behind its
colon. -/
def lengthLines (x : Str) : List (ℕ × Str) :=
  (List.range x.length).filterMap fun i => (lengthAt x i).map (i, ·)

/-- The value of a numeral. -/
def numeralValue (ds : Str) : ℕ := ds.foldl (fun n c => 10 * n + (c.toNat - 48)) 0

/-- The number a header line declares: digits, with blanks around them. -/
def numeral (w : Str) : Option ℕ :=
  let d := w.dropWhile isblank
  if d.takeWhile isdigit = [] then none
  else if ((d.dropWhile isdigit).takeWhile (· ≠ 10)).all fun c => isblank c || c = 13 then
    some (numeralValue (d.takeWhile isdigit))
  else none

/-- The length a header declares, if it has at most one `Content-Length` and that is a
number. -/
def declaredLength (x : Str) : Option ℕ :=
  match lengthLines x with
  | [] => some 0
  | [(_, w)] => numeral w
  | _ => none

/-- The loop of `sip_read` comes to the header line at `i`: no NUL stands in front of it, and if
it has the short name, no line behind it begins with the long one. -/
def Reached (x : Str) (i : ℕ) : Prop :=
  0 ∉ x.take i ∧
    ((fieldAt longName (x.drop i)).isSome ∨
      (fieldAt shortName (x.drop i)).isSome ∧
        ∀ j < x.length, i < j → nameAt longName (x.drop j) → 0 ∈ x.take j)

instance (x : Str) (i : ℕ) : Decidable (Reached x i) := by
  unfold Reached
  infer_instance

/-- The frame is as long as it should be: where the length fits the cursors, exactly so, and
never shorter.  A length that does not fit cannot meet `not_shorter`, as `done` is an
`unsigned short`. -/
structure FrameLength (m m' : Mem) (n : ℕ) : Prop where
  exact_ : m.begin + n < 65536 → m'.done = m.begin + n
  not_shorter : m.begin + n ≤ m'.done

/-- One turn of the loop in `sip_read`: `head`, as an offset into the block, and the offset of
the value once it is found. -/
def contentLengthTurn (block : Str) (n : ℕ) (s : ℕ × Option ℕ) : Lib.Turn (ℕ × Option ℕ) :=
  match contentLengthName (block.drop s.1) (n - s.1) with
  | none => .stop (s.1, none)
  | some q =>
      let p := s.1 + q + blanks (block.drop (s.1 + q))
      if (block.drop p).head? = some 58 then
        .stop (s.1, some (p + 1 + blanks (block.drop (p + 1))))
      else .again (p, none)

/-! ### The search -/

section Search

variable {name s x : Str} {i j : ℕ}

/-- Texts of one length, the second without a NUL, compare equal exactly when they are, in any
case. -/
lemma strcasecmp_eq_zero {a b : Str} (hlen : a.length = b.length) (hb : 0 ∉ b) :
    strcasecmp a b = 0 ↔ a.map tolower = b.map tolower := by
  induction a generalizing b with
  | nil =>
      rw [List.length_nil, eq_comm, List.length_eq_zero_iff] at hlen
      subst hlen
      simp [strcasecmp, strcmpBy]
  | cons c a ih =>
      cases b with
      | nil => exact absurd hlen (by simp)
      | cons d b =>
          have hd : d ≠ 0 := fun h => hb (h ▸ List.mem_cons_self)
          have ih := ih (by simpa using hlen) fun h => hb (List.mem_cons_of_mem _ h)
          rw [strcasecmp] at ih ⊢
          rw [strcmpBy, List.map_cons, List.map_cons, List.cons.injEq]
          by_cases hcd : tolower c = tolower d
          · have hc : c ≠ 0 := fun h => hd (tolower_eq_zero.mp (hcd ▸ tolower_eq_zero.mpr h))
            rw [if_neg (by simp [hcd, hc]), ih]
            simp [hcd]
          · have hne : (tolower c).toNat ≠ (tolower d).toNat := fun h =>
              hcd (UInt8.toNat_inj.mp h)
            rw [if_pos (Or.inl hcd)]
            constructor
            · intro h
              omega
            · rintro ⟨h, -⟩
              exact absurd h hcd

/-- A name a search can look for: in small letters, without a NUL or a line break. -/
structure SmallName (name : Str) : Prop where
  lower : name.map tolower = name
  not_nul : 0 ∉ name
  not_lf : 10 ∉ name

lemma smallName_longName : SmallName longName := ⟨by decide, by decide, by decide⟩

lemma smallName_shortName : SmallName shortName := ⟨by decide, by decide, by decide⟩

lemma nameAt_head (h : nameAt name s = true) : s.head? = some 10 := by
  rw [nameAt, Bool.and_eq_true] at h
  simpa using h.1

/-- A line that begins with a name has room for it. -/
lemma nameAt_length (h : nameAt name s = true) : 1 + name.length ≤ s.length := by
  have hhead := nameAt_head h
  rw [nameAt, Bool.and_eq_true] at h
  have h2 := congrArg List.length (of_decide_eq_true h.2)
  rw [List.length_map, List.length_take] at h2
  cases s with
  | nil => exact absurd hhead (by simp)
  | cons c s =>
      rw [List.tail_cons] at h2
      rw [List.length_cons]
      omega

/-- The comparison a search makes behind a line break. -/
lemma nameAt_cons (hn : SmallName name) {c : UInt8} (hlen : name.length ≤ s.length) :
    nameAt name (c :: s) = true ↔ c = 10 ∧ strncasecmp s name name.length = 0 := by
  rw [nameAt, strncasecmp, List.take_length, Bool.and_eq_true,
    strcasecmp_eq_zero (by rw [List.length_take]; omega) hn.not_nul, hn.lower]
  simp

/-- **What a search finds**, and what it means to find nothing: the lines in front of the first
NUL that begin with the name. -/
lemma strncasestr_spec (hn : SmallName name) :
    (∀ i, strncasestr 10 name s s.length = some i →
      nameAt name (s.drop i) = true ∧ 0 ∉ s.take i ∧ ∀ j < i, nameAt name (s.drop j) = false) ∧
    (strncasestr 10 name s s.length = none →
      ∀ j, nameAt name (s.drop j) = true → 0 ∈ s.take j) := by
  induction s with
  | nil =>
      refine ⟨fun i h => absurd h (by simp [strncasestr]), fun _ j h => ?_⟩
      exact absurd (nameAt_head h) (by simp)
  | cons c s ih =>
      obtain ⟨ih1, ih2⟩ := ih
      rw [List.length_cons, strncasestr]
      -- the search goes on behind a byte that is no NUL and begins no such line
      have later (hc : c ≠ 0) (hat : nameAt name (c :: s) = false) :
          (∀ i, (strncasestr 10 name s s.length).map (· + 1) = some i →
            nameAt name ((c :: s).drop i) = true ∧ 0 ∉ (c :: s).take i ∧
              ∀ j < i, nameAt name ((c :: s).drop j) = false) ∧
          ((strncasestr 10 name s s.length).map (· + 1) = none →
            ∀ j, nameAt name ((c :: s).drop j) = true → 0 ∈ (c :: s).take j) := by
        constructor
        · intro i h
          obtain ⟨k, hk, rfl⟩ := Option.map_eq_some_iff.mp h
          obtain ⟨h1, h2, h3⟩ := ih1 k hk
          refine ⟨h1, ?_, fun j hj => ?_⟩
          · rw [List.take_succ_cons, List.mem_cons, not_or]
            exact ⟨hc.symm, h2⟩
          · cases j with
            | zero => exact hat
            | succ j => exact h3 j (by omega)
        · intro h j hj
          cases j with
          | zero =>
              rw [List.drop_zero, hat] at hj
              exact absurd hj (by simp)
          | succ j => exact List.mem_cons_of_mem _ (ih2 (Option.map_eq_none_iff.mp h) j hj)
      by_cases hc : c = 0
      · rw [if_pos hc]
        refine ⟨fun i h => absurd h (by simp), fun _ j hj => ?_⟩
        cases j with
        | zero =>
            have := nameAt_head hj
            rw [List.drop_zero, List.head?_cons, hc] at this
            exact absurd this (by decide)
        | succ j =>
            rw [hc]
            exact List.mem_cons_self
      · rw [if_neg hc]
        by_cases h10 : c = 10
        · rw [if_pos h10]
          by_cases hlen : s.length < name.length
          · rw [if_pos hlen]
            refine ⟨fun i h => absurd h (by simp), fun _ j hj => ?_⟩
            have h := nameAt_length hj
            rw [List.length_drop, List.length_cons] at h
            omega
          · have hat := nameAt_cons (s := s) hn (c := c) (by omega)
            rw [if_neg hlen]
            by_cases hcmp : strncasecmp s name name.length = 0
            · rw [if_pos hcmp]
              refine ⟨?_, fun h => absurd h (by simp)⟩
              rintro i ⟨⟩
              exact ⟨hat.mpr ⟨h10, hcmp⟩, by simp, by simp⟩
            · rw [if_neg hcmp]
              exact later hc (Bool.eq_false_iff.mpr fun h => hcmp (hat.mp h).2)
        · rw [if_neg h10]
          refine later hc (Bool.eq_false_iff.mpr fun h => h10 ?_)
          simpa using nameAt_head h

/-- No line begins with both names. -/
lemma nameAt_short_of_long (h : nameAt longName s = true) : nameAt shortName s = false := by
  rw [nameAt, Bool.and_eq_true] at h
  have h2 := of_decide_eq_true h.2
  cases ht : s.tail with
  | nil =>
      rw [ht] at h2
      exact absurd h2 (by decide)
  | cons c l =>
      rw [ht] at h2
      have hc : tolower c = 99 := (List.cons.inj h2).1
      rw [nameAt, ht, Bool.and_eq_false_iff]
      refine Or.inr (decide_eq_false fun h3 => ?_)
      have hl : tolower c = 108 := (List.cons.inj h3).1
      rw [hc] at hl
      exact absurd hl (by decide)

lemma fieldAt_name (h : (fieldAt name s).isSome = true) : nameAt name s = true := by
  rw [fieldAt] at h
  split at h
  · rename_i hc
    exact (Bool.and_eq_true_iff.mp hc).1
  · exact absurd h (by simp)

lemma lengthAt_drop (x : Str) (p i : ℕ) : lengthAt (x.drop p) i = lengthAt x (p + i) := by
  rw [lengthAt, lengthAt, List.drop_drop]

/-- Where the long name stands only the long form can be. -/
lemma lengthAt_of_name (hname : name = longName ∨ name = shortName)
    (h : nameAt name (x.drop i) = true) : lengthAt x i = fieldAt name (x.drop i) := by
  have none_of {n : Str} (h : nameAt n (x.drop i) = false) : fieldAt n (x.drop i) = none := by
    rw [fieldAt, h]
    rfl
  rcases hname with rfl | rfl
  · rw [lengthAt, none_of (nameAt_short_of_long h), Option.or_none]
  · rw [lengthAt, none_of, Option.none_or]
    by_contra hlong
    rw [Bool.not_eq_false] at hlong
    rw [nameAt_short_of_long hlong] at h
    exact absurd h (by simp)

end Search

/-! ### One turn of the loop -/

section Turn

variable {name x : Str} {i j : ℕ}

/-- The name a turn finds: the long one as long as a line begins with it, then the short one. -/
structure FirstName (x name : Str) (j : ℕ) : Prop where
  found : contentLengthName x x.length = some (j + (1 + name.length))
  is_name : name = longName ∨ name = shortName
  at_name : nameAt name (x.drop j) = true
  visible : 0 ∉ x.take j
  first : ∀ k < j, nameAt name (x.drop k) = false
  no_long : name = shortName → ∀ k, nameAt longName (x.drop k) = true → 0 ∈ x.take k

lemma contentLengthName_cases (x : Str) :
    (∃ name j, FirstName x name j) ∨
    (contentLengthName x x.length = none ∧ ∀ name, name = longName ∨ name = shortName →
      ∀ k, nameAt name (x.drop k) = true → 0 ∈ x.take k) := by
  obtain ⟨long1, long2⟩ := strncasestr_spec (s := x) smallName_longName
  obtain ⟨short1, short2⟩ := strncasestr_spec (s := x) smallName_shortName
  rw [longName] at long1 long2
  rw [shortName] at short1 short2
  cases hl : strncasestr 10 (str "content-length") x x.length with
  | some j =>
      obtain ⟨h1, h2, h3⟩ := long1 j hl
      refine Or.inl ⟨longName, j, ?_, Or.inl rfl, h1, h2, h3, ?_⟩
      · rw [contentLengthName, hl]
        rfl
      · intro h
        exact absurd h (by decide)
  | none =>
      cases hs : strncasestr 10 (str "l") x x.length with
      | some j =>
          obtain ⟨h1, h2, h3⟩ := short1 j hs
          refine Or.inl ⟨shortName, j, ?_, Or.inr rfl, h1, h2, h3, fun _ => long2 hl⟩
          rw [contentLengthName, hl, hs]
          rfl
      | none =>
          refine Or.inr ⟨?_, ?_⟩
          · rw [contentLengthName, hl, hs]
            rfl
          · rintro name (rfl | rfl)
            · exact long2 hl
            · exact short2 hs

/-- The blanks of a line, skipped. -/
lemma drop_blanks (l : Str) : l.drop (blanks l) = l.dropWhile isblank := by
  induction l with
  | nil => rfl
  | cons c l ih =>
      by_cases hc : isblank c = true
      · have hc' : c = 32 ∨ c = 9 := by simpa [isblank] using hc
        rw [List.dropWhile_cons_of_pos hc, ← ih, blanks,
          List.takeWhile_cons_of_pos (by simpa using hc')]
        rfl
      · have hc' : ¬ (c = 32 ∨ c = 9) := by simpa [isblank] using hc
        rw [List.dropWhile_cons_of_neg hc, blanks,
          List.takeWhile_cons_of_neg (by simpa using hc')]
        rfl

/-- Where `head` stands behind a name at `j`: behind its blanks. -/
def behind (x name : Str) (j : ℕ) : ℕ :=
  j + (1 + name.length) + blanks (x.drop (j + (1 + name.length)))

lemma drop_behind (x name : Str) (j : ℕ) :
    x.drop (behind x name j) = ((x.drop j).drop (1 + name.length)).dropWhile isblank := by
  rw [behind, ← List.drop_drop, drop_blanks, List.drop_drop]

/-- What a turn skips: a line break, and bytes that are neither a NUL nor a line break. -/
lemma FirstName.split (h : FirstName x name j) :
    ∃ l, x = x.take j ++ 10 :: l ++ x.drop (behind x name j) ∧ (∀ c ∈ l, c ≠ 0 ∧ c ≠ 10) ∧
      behind x name j = j + 1 + l.length := by
  have hsmall : SmallName name := by
    rcases h.is_name with rfl | rfl
    · exact smallName_longName
    · exact smallName_shortName
  have hat := h.at_name
  cases hx : x.drop j with
  | nil =>
      rw [hx] at hat
      exact absurd (nameAt_head hat) (by simp)
  | cons b y =>
      rw [hx] at hat
      have hb : b = 10 := by simpa using nameAt_head hat
      have hlen := nameAt_length hat
      rw [List.length_cons] at hlen
      subst hb
      have hdrop : x.drop (j + (1 + name.length)) = y.drop name.length := by
        rw [← List.drop_drop, hx, Nat.add_comm 1, List.drop_succ_cons]
      have hbehind : x.drop (behind x name j) = (y.drop name.length).dropWhile isblank := by
        rw [drop_behind, hx, Nat.add_comm 1, List.drop_succ_cons]
      refine ⟨y.take name.length ++ (y.drop name.length).takeWhile isblank, ?_, ?_, ?_⟩
      · conv_lhs => rw [← List.take_append_drop j x, hx, ← List.take_append_drop name.length y,
          ← List.takeWhile_append_dropWhile (p := isblank) (l := y.drop name.length)]
        rw [hbehind]
        simp only [List.append_assoc, List.cons_append]
      · intro c hc
        rcases List.mem_append.mp hc with hc | hc
        · -- a byte of the name
          rw [nameAt, Bool.and_eq_true] at hat
          have hname : (y.take name.length).map tolower = name := of_decide_eq_true hat.2
          have hmem : tolower c ∈ name := hname ▸ List.mem_map_of_mem hc
          constructor
          · rintro rfl
            exact hsmall.not_nul hmem
          · rintro rfl
            exact hsmall.not_lf hmem
        · have hc := List.mem_takeWhile_imp hc
          constructor
          · rintro rfl
            exact absurd hc (by decide)
          · rintro rfl
            exact absurd hc (by decide)
      · have hblanks : ((y.drop name.length).takeWhile isblank).length =
            blanks (y.drop name.length) := by
          rw [blanks]
          rfl
        rw [behind, hdrop, List.length_append, List.length_take, hblanks]
        omega

/-- A name with a colon behind it ends the loop. -/
lemma FirstName.turn_found (h : FirstName x name j) (fuel : ℕ) {w : Str}
    (hw : fieldAt name (x.drop j) = some w) :
    ∃ p, contentLengthValue (fuel + 1) x x.length = some p ∧ x.drop p = w.dropWhile isblank := by
  rw [fieldAt] at hw
  rw [← drop_behind] at hw
  split at hw
  · rename_i hc
    cases hw
    have hcolon : (x.drop (behind x name j)).head? = some 58 :=
      of_decide_eq_true (Bool.and_eq_true_iff.mp hc).2
    have htail : (x.drop (behind x name j)).tail = x.drop (behind x name j + 1) := by
      rw [List.tail_drop]
    refine ⟨behind x name j + 1 + blanks (x.drop (behind x name j + 1)), ?_, ?_⟩
    · rw [contentLengthValue, h.found]
      exact if_pos hcolon
    · rw [← List.drop_drop, drop_blanks, htail]
  · exact absurd hw (by simp)

/-- Without a colon the loop goes on behind the name. -/
lemma FirstName.turn_again (h : FirstName x name j) (fuel : ℕ)
    (hw : fieldAt name (x.drop j) = none) :
    contentLengthValue (fuel + 1) x x.length =
      (contentLengthValue fuel (x.drop (behind x name j))
        (x.drop (behind x name j)).length).map (behind x name j + ·) := by
  rw [fieldAt] at hw
  rw [← drop_behind, h.at_name, Bool.true_and] at hw
  have hcolon : ¬ (x.drop (behind x name j)).head? = some 58 := by
    intro hc
    rw [if_pos (decide_eq_true hc)] at hw
    exact absurd hw (by simp)
  rw [contentLengthValue, h.found, List.length_drop]
  exact if_neg hcolon

/-- No line begins, and no NUL stands, in what a turn skips. -/
lemma FirstName.skipped (h : FirstName x name j) :
    j < behind x name j ∧ behind x name j ≤ x.length ∧ 0 ∉ x.take (behind x name j) ∧
      ∀ i, j < i → (x.drop i).head? = some 10 → behind x name j ≤ i := by
  obtain ⟨l, hx, hl, hp⟩ := h.split
  generalize behind x name j = p at hx hp
  have hj : j ≤ x.length := by
    by_contra hj
    have := nameAt_length h.at_name
    rw [List.length_drop] at this
    omega
  have hlen : (x.take j).length = j := List.length_take_of_le hj
  have hple : p ≤ x.length := by
    have := congrArg List.length hx
    simp only [List.length_append, List.length_cons, hlen] at this
    omega
  have htake : x.take p = x.take j ++ 10 :: l := by
    conv_lhs => rw [hx]
    refine List.take_left' ?_
    rw [List.length_append, List.length_cons, hlen]
    omega
  refine ⟨by omega, hple, ?_, fun i hji hi => ?_⟩
  · rw [htake, List.mem_append, List.mem_cons, not_or, not_or]
    exact ⟨h.visible, by decide, fun h0 => (hl 0 h0).1 rfl⟩
  · by_contra hlt
    have hmem : 10 ∈ l := by
      rw [List.head?_drop, hx, List.append_assoc, List.getElem?_append_right (by omega), hlen,
        List.cons_append, show i - j = i - j - 1 + 1 by omega, List.getElem?_cons_succ,
        List.getElem?_append_left (by omega)] at hi
      exact List.mem_of_getElem? hi
    exact (hl 10 hmem).2 rfl

end Turn

/-! ### What the loop finds -/

section Loop

variable {x : Str} {i p : ℕ}

/-- Whether the loop comes to a line does not depend on where it begins, in front of that. -/
lemma reached_drop (hp : p ≤ x.length) (h0 : 0 ∉ x.take p) :
    Reached (x.drop p) i ↔ Reached x (p + i) := by
  have hmem (k : ℕ) : 0 ∈ x.take (p + k) ↔ 0 ∈ (x.drop p).take k := by
    rw [List.take_add, List.mem_append]
    simp [h0]
  simp only [Reached, hmem, List.drop_drop, List.length_drop]
  refine and_congr_right fun _ => or_congr_right (and_congr_right fun _ => ?_)
  constructor
  · intro h j hj hij hat
    have := h (j - p) (by omega) (by omega)
    rw [← hmem, Nat.add_sub_cancel' (by omega : p ≤ j)] at this
    exact this hat
  · intro h j hj hij hat
    rw [← hmem]
    exact h (p + j) (by omega) (by omega) hat

/-- **What the loop comes to, it finds**, if no other line has the header. -/
lemma contentLengthValue_reached {fuel : ℕ} {w : Str} (hfuel : x.length < fuel)
    (hr : Reached x i) (hw : lengthAt x i = some w) (hone : ∀ k, k ≠ i → lengthAt x k = none) :
    ∃ p, contentLengthValue fuel x x.length = some p ∧ x.drop p = w.dropWhile isblank := by
  induction fuel generalizing x i with
  | zero => exact absurd hfuel (by omega)
  | succ fuel ih =>
      -- the line at `i` begins with a name, and the first line found is not behind it
      have hlf : (x.drop i).head? = some 10 := by
        rcases hr.2 with hlong | ⟨hshort, -⟩
        · exact nameAt_head (fieldAt_name hlong)
        · exact nameAt_head (fieldAt_name hshort)
      rcases contentLengthName_cases x with ⟨name, j, h⟩ | ⟨-, hnone⟩
      · have hji : j ≤ i := by
          by_contra hij
          rcases hr.2 with hlong | ⟨hshort, hlast⟩
          · have hat := fieldAt_name hlong
            rcases h.is_name with rfl | rfl
            · rw [h.first i (by omega)] at hat
              exact absurd hat (by simp)
            · exact hr.1 (h.no_long rfl i hat)
          · have hat := fieldAt_name hshort
            rcases h.is_name with rfl | rfl
            · refine h.visible (hlast j ?_ (by omega) h.at_name)
              have := nameAt_length h.at_name
              rw [List.length_drop] at this
              omega
            · rw [h.first i (by omega)] at hat
              exact absurd hat (by simp)
        have hfield := lengthAt_of_name h.is_name h.at_name
        by_cases hij : j = i
        · subst hij
          exact h.turn_found fuel (hfield.symm.trans hw)
        · rw [hone j hij] at hfield
          obtain ⟨h1, h2, h3, h4⟩ := h.skipped
          have hpi := h4 i (by omega) hlf
          rw [h.turn_again fuel hfield.symm]
          generalize behind x name j = p at h1 h2 h3 h4 hpi
          have hi : p + (i - p) = i := by omega
          obtain ⟨q, hq, hdrop⟩ := ih (x := x.drop p) (i := i - p)
            (by rw [List.length_drop]; omega)
            (by rw [reached_drop h2 h3, hi]; exact hr)
            (by rw [lengthAt_drop, hi]; exact hw)
            (fun k hk => by rw [lengthAt_drop]; exact hone _ (by omega))
          refine ⟨p + q, by rw [hq]; rfl, ?_⟩
          rw [← List.drop_drop, hdrop]
      · rcases hr.2 with hlong | ⟨hshort, -⟩
        · exact absurd (hnone _ (Or.inl rfl) i (fieldAt_name hlong)) hr.1
        · exact absurd (hnone _ (Or.inr rfl) i (fieldAt_name hshort)) hr.1

/-- **If it comes to none, it finds nothing.** -/
lemma contentLengthValue_unreached {fuel : ℕ}
    (hno : ∀ i, (lengthAt x i).isSome → ¬ Reached x i) :
    contentLengthValue fuel x x.length = none := by
  induction fuel generalizing x with
  | zero => rfl
  | succ fuel ih =>
      rcases contentLengthName_cases x with ⟨name, j, h⟩ | ⟨hnone, -⟩
      · have hfield := lengthAt_of_name h.is_name h.at_name
        cases hw : fieldAt name (x.drop j) with
        | some w =>
            rw [hw] at hfield
            refine absurd ?_ (hno j (by rw [hfield]; rfl))
            refine ⟨h.visible, ?_⟩
            rcases h.is_name with rfl | rfl
            · exact Or.inl (by rw [hw]; rfl)
            · exact Or.inr ⟨by rw [hw]; rfl, fun k _ _ => h.no_long rfl k⟩
        | none =>
            obtain ⟨h1, h2, h3, -⟩ := h.skipped
            rw [h.turn_again fuel hw, ih, Option.map_none]
            intro i hi
            rw [reached_drop h2 h3]
            rw [lengthAt_drop] at hi
            exact hno _ hi
      · rw [contentLengthValue, hnone]

lemma contentLengthName_pos {n q : ℕ} (h : contentLengthName x n = some q) : 0 < q := by
  rw [contentLengthName] at h
  split at h
  · cases h
    omega
  · obtain ⟨k, -, rfl⟩ := Option.map_eq_some_iff.mp h
    omega

/-- **The loop is left**, and with what `contentLengthValue` computes: `head` moves forward on
every turn that goes round. -/
lemma contentLengthTurn_spin (block : Str) (n k : ℕ) (s : ℕ × Option ℕ) (hk : n - s.1 ≤ k) :
    ∃ q, Lib.spin (contentLengthTurn block n) (k + 1) s =
      some (q, (contentLengthValue (k + 1) (block.drop s.1) (n - s.1)).map (s.1 + ·)) := by
  induction k generalizing s with
  | zero =>
      cases hname : contentLengthName (block.drop s.1) (n - s.1) with
      | none =>
          refine ⟨s.1, ?_⟩
          rw [contentLengthValue, hname]
          refine Lib.spin_stop ?_ 0
          rw [contentLengthTurn, hname]
          rfl
      | some q =>
          have h1 := contentLengthName_pos hname
          have h2 := contentLengthName_le hname
          omega
  | succ k ih =>
      cases hname : contentLengthName (block.drop s.1) (n - s.1) with
      | none =>
          refine ⟨s.1, ?_⟩
          rw [contentLengthValue, hname]
          refine Lib.spin_stop ?_ _
          rw [contentLengthTurn, hname]
          rfl
      | some q =>
          have h1 := contentLengthName_pos hname
          have h2 := contentLengthName_le hname
          rw [contentLengthValue, hname]
          simp only [List.drop_drop]
          by_cases hcolon : (block.drop (s.1 + (q + blanks (block.drop (s.1 + q))))).head? =
              some 58
          · refine ⟨s.1, ?_⟩
            rw [if_pos hcolon]
            refine Lib.spin_stop ?_ _
            rw [contentLengthTurn, hname]
            simp only [Nat.add_assoc] at hcolon ⊢
            rw [if_pos hcolon]
            rfl
          · rw [if_neg hcolon]
            have hturn : contentLengthTurn block n s =
                .again (s.1 + (q + blanks (block.drop (s.1 + q))), none) := by
              rw [contentLengthTurn, hname]
              simp only [Nat.add_assoc] at hcolon ⊢
              rw [if_neg hcolon]
            rw [Lib.spin_again hturn]
            obtain ⟨r, hr⟩ := ih (s.1 + (q + blanks (block.drop (s.1 + q))), none)
              (by dsimp only; omega)
            refine ⟨r, hr.trans ?_⟩
            rw [Option.map_map, Nat.sub_sub]
            congr 3
            funext a
            simp only [Function.comp_apply]
            omega

end Loop

/-! ### The number -/

section Number

variable {w : Str} {v : ℕ}

lemma digits_eq (l : Str) : digits l = numeralValue (l.takeWhile isdigit) := by
  have hfold (ds : Str) (a : ℕ) :
      ds.foldl (fun n c => 10 * n + ((c.toNat - 48 : ℕ) : ℤ)) (a : ℤ) =
        (ds.foldl (fun n c => 10 * n + (c.toNat - 48)) a : ℕ) := by
    induction ds generalizing a with
    | nil => rfl
    | cons c ds ih =>
        rw [List.foldl_cons, List.foldl_cons, ← ih]
        push_cast
        rfl
  rw [digits, numeralValue, ← hfold]
  rfl

/-- A number that fits an `int` is read as it is. -/
lemma atoi_numeral (hw : numeral w = some v) (hv : v < 2 ^ 31) {c : UInt8}
    (hc : c = 13 ∨ c = 10) (y : Str) : atoi (w.dropWhile isblank ++ c :: y) = v := by
  rw [numeral] at hw
  generalize w.dropWhile isblank = d at hw
  split_ifs at hw with hd hline
  cases hw
  have hcd : isdigit c = false := by rcases hc with rfl | rfl <;> decide
  cases d with
  | nil => exact absurd rfl hd
  | cons b d =>
      have hb : isdigit b = true := by
        by_contra hb
        exact hd (List.takeWhile_cons_of_neg hb)
      have hb' : 48 ≤ b.toNat ∧ b.toNat ≤ 57 := by
        simpa [isdigit, UInt8.le_iff_toNat_le] using hb
      have hspace : isspace b = false := by
        simp only [isspace, UInt8.le_iff_toNat_le, ← UInt8.toNat_inj, decide_eq_false_iff_not]
        have h32 : (32 : UInt8).toNat = 32 := rfl
        have h9 : (9 : UInt8).toNat = 9 := rfl
        have h13 : (13 : UInt8).toNat = 13 := rfl
        omega
      rw [atoi_append ⟨b, List.mem_cons_self, hspace⟩ hcd, atoi, strtol,
        List.dropWhile_cons_of_neg (by simp [hspace])]
      have hsign (k : UInt8) (hk : k.toNat < 48) : b ≠ k := by
        rintro rfl
        omega
      split
      · rename_i h
        exact absurd (List.cons.inj h).1 (hsign 45 (by decide))
      · rename_i h
        exact absurd (List.cons.inj h).1 (hsign 43 (by decide))
      · rw [digits_eq, toInt, min_eq_left (by omega), max_eq_right (by omega)]
        exact Int.bmod_eq_of_le (by omega) (by omega)

end Number

/-! ### The frame -/

section Frame

variable {x : Str} {v : ℕ}

lemma mem_lengthLines {i : ℕ} {w : Str} :
    (i, w) ∈ lengthLines x ↔ lengthAt x i = some w := by
  simp only [lengthLines, List.mem_filterMap, List.mem_range, Option.map_eq_some_iff,
    Prod.mk.injEq]
  constructor
  · rintro ⟨k, -, u, hu, rfl, rfl⟩
    exact hu
  · intro h
    refine ⟨i, ?_, w, h, rfl, rfl⟩
    by_contra hi
    rw [lengthAt, List.drop_of_length_le (by omega)] at h
    exact Option.some_ne_none w h.symm

/-- **What the loop makes of a declared length**: the number, if it comes to the line. -/
lemma contentLength_declared (hv : declaredLength x = some v) {c : UInt8}
    (hc : c = 13 ∨ c = 10) (y : Str) :
    if ∃ p ∈ lengthLines x, Reached x p.1 then
      v < 2 ^ 31 → contentLength (x ++ c :: y) x.length = v
    else contentLength (x ++ c :: y) x.length = 0 := by
  rw [contentLength, contentLengthValue_append hc]
  split
  · rename_i h
    intro hlt
    obtain ⟨⟨i, w⟩, hmem, hr⟩ := h
    have hlines : lengthLines x = [(i, w)] := by
      rw [declaredLength] at hv
      split at hv
      · rename_i hnil
        rw [hnil] at hmem
        exact absurd hmem (by simp)
      · rename_i k u hone
        rw [hone] at hmem ⊢
        rw [List.mem_singleton.mp hmem]
      · exact absurd hv (by simp)
    have hw : numeral w = some v := by
      rw [declaredLength, hlines] at hv
      exact hv
    have hone (k : ℕ) (hk : k ≠ i) : lengthAt x k = none := by
      cases hu : lengthAt x k with
      | none => rfl
      | some u =>
          have hmem := mem_lengthLines.mpr hu
          rw [hlines, List.mem_singleton, Prod.mk.injEq] at hmem
          exact absurd hmem.1 hk
    obtain ⟨p, hp, hdrop⟩ := contentLengthValue_reached (Nat.lt_succ_self _) hr
      (mem_lengthLines.mp hmem) hone
    rw [hp]
    dsimp only
    rw [List.drop_append_of_le_length (contentLengthValue_le hp), hdrop]
    exact atoi_numeral hw hlt hc y
  · rename_i h
    rw [contentLengthValue_unreached]
    intro i hi hr
    obtain ⟨w, hw⟩ := Option.isSome_iff_exists.mp hi
    exact h ⟨(i, w), mem_lengthLines.mpr hw, hr⟩

/-- The block behind `begin`: the header, and a line break. -/
lemma block_of_headerEnd {m : Mem} {t h : ℕ} (hh : headerEnd m.unread = some (t, h)) :
    ∃ c y, m.buffer.drop m.begin = m.unread.take t ++ c :: y ∧ (c = 13 ∨ c = 10) ∧
      (m.unread.take t).length = t ∧ h ≤ m.unread.length := by
  have hsplit : m.buffer.drop m.begin = m.unread ++ (m.buffer.drop m.begin).drop
      (m.end_ - m.begin) := (List.take_append_drop _ _).symm
  have found {needle : Str} {b : UInt8} {bs : Str} (hn : needle = b :: bs)
      (hb : b = 13 ∨ b = 10) (hm : memmem needle m.unread = some t) :
      ∃ c y, m.buffer.drop m.begin = m.unread.take t ++ c :: y ∧ (c = 13 ∨ c = 10) ∧
        (m.unread.take t).length = t ∧ t + needle.length ≤ m.unread.length := by
    have hlen := memmem_length hm
    obtain ⟨⟨r, hr⟩, -, -⟩ := memmem_eq_some.mp hm
    refine ⟨b, bs ++ r ++ (m.buffer.drop m.begin).drop (m.end_ - m.begin), ?_, hb,
      List.length_take_of_le (by omega), hlen⟩
    conv_lhs => rw [hsplit, ← List.take_append_drop t m.unread, ← hr, hn]
    simp only [List.append_assoc, List.cons_append]
  rw [headerEnd] at hh
  split at hh
  · rename_i i hi
    cases hh
    exact found (b := 13) rfl (Or.inl rfl) hi
  · obtain ⟨i, hi, hp⟩ := Option.map_eq_some_iff.mp hh
    cases hp
    exact found (b := 10) rfl (Or.inr rfl) hi

/-- **The frame a scan makes**, of a header that declares a length. -/
lemma sipScan_framed {m : Mem} (hs : m.Sized) (ho : m.Ordered) (hd : m.done = m.begin)
    {t h : ℕ} (hh : headerEnd m.unread = some (t, h))
    (hv : declaredLength (m.unread.take t) = some v) :
    ∃ d, sipScan m = some { m with done := d } ∧
      (FrameLength m { m with done := d } (h + v) ↔ m.begin + (h + v) < 65536 ∧
        (v = 0 ∨ ∃ p ∈ lengthLines (m.unread.take t), Reached (m.unread.take t) p.1)) := by
  obtain ⟨c, y, hblock, hc, htake, hhle⟩ := block_of_headerEnd hh
  have hfound := contentLength_declared hv hc y
  rw [← hblock, htake] at hfound
  have h1 := ho.begin_le_end
  have h2 := ho.end_le_length
  have h3 := hs.length_lt
  rw [Mem.length_unread hs ho] at hhle
  have hhead : (u16 (m.begin + h) : ℤ) = m.begin + h := u16_of_lt (by omega) (by omega)
  refine ⟨u16 (u16 (m.begin + h) + contentLength (m.buffer.drop m.begin) t), ?_, ?_⟩
  · rw [Mem.unread, ← hd] at hh
    rw [sipScan, if_pos hd, hh]
    dsimp only
    rw [hd]
  · rw [hhead]
    have hlt := u16_lt (m.begin + h + contentLength (m.buffer.drop m.begin) t)
    by_cases hfit : m.begin + (h + v) < 65536
    · split at hfound
      · rename_i hr
        have hd : u16 (m.begin + h + contentLength (m.buffer.drop m.begin) t) =
            m.begin + (h + v) := by
          rw [hfound (by omega), ← Nat.add_assoc]
          exact_mod_cast u16_natCast (n := m.begin + h + v) (by omega)
        rw [hd]
        exact ⟨fun _ => ⟨hfit, Or.inr hr⟩, fun _ => ⟨fun _ => rfl, le_rfl⟩⟩
      · rename_i hr
        have hd : u16 (m.begin + h + contentLength (m.buffer.drop m.begin) t) =
            m.begin + h := by
          rw [hfound, add_zero]
          exact_mod_cast hhead
        rw [hd]
        constructor
        · intro hf
          have := hf.exact_ hfit
          dsimp only at this
          exact ⟨hfit, Or.inl (by omega)⟩
        · rintro ⟨-, hv0 | hr'⟩
          · subst hv0
            exact ⟨fun _ => rfl, le_rfl⟩
          · exact absurd hr' hr
    · constructor
      · intro hf
        have := hf.not_shorter
        dsimp only at this
        omega
      · rintro ⟨hfit', -⟩
        exact absurd hfit' hfit

/-- **Frame length**: the loop is left, and the scan sets `done` behind the header and the
length it declares exactly when the sum fits the cursor and the loop comes to the line that
declares it, if the length is not `0` anyway. -/
theorem frame_length_iff {m : Mem} (hs : m.Sized) (ho : m.Ordered) (hd : m.done = m.begin)
    {t h : ℕ} (hh : headerEnd m.unread = some (t, h))
    (hv : declaredLength (m.unread.take t) = some v) :
    (∃ q, Lib.spin (contentLengthTurn (m.buffer.drop m.begin) t) (t + 1) (0, none) =
        some (q, contentLengthValue (t + 1) (m.buffer.drop m.begin) t)) ∧
      ∃ d, sipScan m = some { m with done := d } ∧
        (FrameLength m { m with done := d } (h + v) ↔ m.begin + (h + v) < 65536 ∧
          (v = 0 ∨ ∃ p ∈ lengthLines (m.unread.take t), Reached (m.unread.take t) p.1)) := by
  obtain ⟨q, hq⟩ := contentLengthTurn_spin (m.buffer.drop m.begin) t t (0, none) (Nat.sub_le _ _)
  refine ⟨⟨q, ?_⟩, sipScan_framed hs ho hd hh hv⟩
  simpa using hq

/-- What an accepted connection has received. -/
lemma acceptedEvent_received {d : Str} (hd : d.length ≤ 16384) :
    let m := recvInto d (acceptedEvent .sip).incoming
    m.Sized ∧ m.Ordered ∧ m.done = m.begin ∧ m.begin = 0 ∧ m.unread = d := by
  have hs := acceptedEvent_sized .sip
  have ho := acceptedEvent_ordered .sip
  have hnil : (acceptedEvent .sip).incoming.unread = [] := rfl
  have hroom : d.length ≤ (acceptedEvent .sip).incoming.length -
      (acceptedEvent .sip).incoming.end_ := by
    show d.length ≤ acceptedBlock.length - 0
    rw [length_acceptedBlock]
    exact hd
  refine ⟨recvInto_sized hs ho.end_le_length, recvInto_ordered hs ho, rfl, rfl, ?_⟩
  rw [recvInto_unread hs ho hroom, hnil, List.nil_append]

/-- A header of 9 bytes that declares a body of 5. -/
theorem frame_length_five :
    ∃ d, sipScan (recvInto (str "x\nl : 5\n\n") (acceptedEvent .sip).incoming) =
        some { recvInto (str "x\nl : 5\n\n") (acceptedEvent .sip).incoming with done := d } ∧
      (FrameLength (recvInto (str "x\nl : 5\n\n") (acceptedEvent .sip).incoming)
        { recvInto (str "x\nl : 5\n\n") (acceptedEvent .sip).incoming with done := d } (9 + 5) ↔
          (recvInto (str "x\nl : 5\n\n") (acceptedEvent .sip).incoming).begin + (9 + 5) < 65536 ∧
          (5 = 0 ∨ ∃ p ∈ lengthLines (str "x\nl : 5"), Reached (str "x\nl : 5") p.1)) := by
  obtain ⟨hs, ho, hd, -, hu⟩ := acceptedEvent_received (d := str "x\nl : 5\n\n") (by decide)
  have hline : (str "x\nl : 5\n\n").take 7 = str "x\nl : 5" := by decide
  have h := (frame_length_iff hs ho hd (t := 7) (h := 9) (v := 5) (by rw [hu]; decide)
    (by rw [hu]; decide)).2
  rwa [hu, hline] at h

/-- **A length that does not fit the cursor makes the frame shorter**, here shorter than the
header that declares it. -/
theorem wrapped_length :
    ¬ ∀ (m : Mem) (t h v : ℕ), m.Sized → m.Ordered → m.done = m.begin →
      headerEnd m.unread = some (t, h) → declaredLength (m.unread.take t) = some v →
      ∃ d, sipScan m = some { m with done := d } ∧ FrameLength m { m with done := d } (h + v) := by
  intro hall
  obtain ⟨hs, ho, hd, hb, hu⟩ := acceptedEvent_received (d := str "x\nl:65530\n\n") (by decide)
  generalize recvInto (str "x\nl:65530\n\n") (acceptedEvent .sip).incoming = m at *
  have hh : headerEnd m.unread = some (9, 11) := by
    rw [hu]
    decide
  have hv : declaredLength (m.unread.take 9) = some 65530 := by
    rw [hu]
    decide
  obtain ⟨d, hscan, hframed⟩ := hall m 9 11 65530 hs ho hd hh hv
  obtain ⟨d', hscan', hiff⟩ := sipScan_framed hs ho hd hh hv
  rw [hscan] at hscan'
  rw [← Option.some.inj hscan'] at hiff
  have := (hiff.mp hframed).1
  omega

end Frame

end SipEcho
