import Mathlib.Data.List.TakeWhile
import Mathlib.Tactic

/-!
The C library as the sources use it, on byte lists.  A C string is the list of its bytes, the
terminating NUL left out; a function that walks memory stops where the list ends.

* `strcmp`, `strcasecmp`: the difference of the first bytes that differ, and that its sign is a
  total preorder (`strcmpBy_neg`, `strcmpBy_trans`);
* `memcmp`: the difference of the first bytes that differ, in blocks of one length;
* `memmem`: the offset of the first occurrence;
* `strncasestr`: the library's own search in a bounded text, in any case;
* `atoi`: white space, a sign, digits, cut down to an `int`; `atoi_append`: nothing after the
  first byte that is neither blank nor part of the number is looked at;
* `u16`: the conversion to `unsigned short`;
* `strtolBy`, `hexDigits`, `anyDigits`: `strtol` in the bases sixteen and zero;
* `decimal`, `strtoul`: an unsigned number as `printf` writes it, and read back
  (`strtoulDigits_decimal`);
* `cstr`: a block of memory read as a C string.
-/

namespace SipEcho

/-- A C string, or a block of bytes. -/
abbrev Str := List UInt8

/-- The C string in a block: what comes before the first NUL. -/
def cstr (s : Str) : Str := s.takeWhile (· ≠ 0)

lemma cstr_of_not_mem {s : Str} (h : 0 ∉ s) : cstr s = s := by
  rw [cstr, List.takeWhile_eq_self_iff]
  intro c hc
  have hne : c ≠ 0 := by
    rintro rfl
    exact h hc
  simpa using hne

lemma cstr_cstr (s : Str) : cstr (cstr s) = cstr s := by
  refine cstr_of_not_mem fun h => ?_
  have := List.mem_takeWhile_imp h
  simp at this

/-- What a NUL ends. -/
lemma cstr_append_zero {s : Str} (h : 0 ∉ s) (rest : Str) : cstr (s ++ 0 :: rest) = s := by
  have hs : ∀ c ∈ s, decide (c ≠ 0) = true := fun c hc => by
    have hne : c ≠ 0 := ne_of_mem_of_not_mem hc h
    simpa using hne
  rw [cstr, List.takeWhile_append_of_pos hs, List.takeWhile_cons_of_neg (by decide),
    List.append_nil]

/-- The bytes of a string literal. -/
def str (s : String) : Str := s.toList.map fun c => c.toNat.toUInt8

/-- The conversion of an `int` to `unsigned short`. -/
def u16 (x : ℤ) : ℕ := (x % 65536).toNat

lemma u16_of_lt {x : ℤ} (h0 : 0 ≤ x) (h : x < 65536) : (u16 x : ℤ) = x := by
  rw [u16, Int.emod_eq_of_lt h0 h, Int.toNat_of_nonneg h0]

lemma u16_natCast {n : ℕ} (h : n < 65536) : u16 n = n := by
  have := u16_of_lt (x := n) (by omega) (by omega)
  omega

lemma u16_lt (x : ℤ) : u16 x < 65536 := by
  rw [u16]
  omega

/-! ### Character classes of the C locale -/

def tolower (c : UInt8) : UInt8 := if 65 ≤ c ∧ c ≤ 90 then c + 32 else c

def isspace (c : UInt8) : Bool := c = 32 ∨ (9 ≤ c ∧ c ≤ 13)

def isdigit (c : UInt8) : Bool := 48 ≤ c ∧ c ≤ 57

lemma tolower_eq_zero {c : UInt8} : tolower c = 0 ↔ c = 0 := by
  simp only [tolower, ← UInt8.toNat_inj, UInt8.le_iff_toNat_le]
  split
  · rename_i h
    have h1 : (65 : UInt8).toNat = 65 := rfl
    have h2 : (90 : UInt8).toNat = 90 := rfl
    have h3 : (32 : UInt8).toNat = 32 := rfl
    have h4 : (0 : UInt8).toNat = 0 := rfl
    rw [UInt8.toNat_add]
    omega
  · rfl

/-! ### Comparison -/

/-- The loop of `strcmp` and `strcasecmp`: compare byte by byte, after `f`, up to the first
difference or the end of both strings. -/
def strcmpBy (f : UInt8 → UInt8) : Str → Str → ℤ
  | [], [] => 0
  | [], b :: _ => -(f b).toNat
  | a :: _, [] => (f a).toNat
  | a :: as, b :: bs =>
      if f a ≠ f b ∨ a = 0 then ((f a).toNat : ℤ) - (f b).toNat else strcmpBy f as bs

def strcmp : Str → Str → ℤ := strcmpBy id

def strcasecmp : Str → Str → ℤ := strcmpBy tolower

def strncasecmp (a b : Str) (n : ℕ) : ℤ := strcasecmp (a.take n) (b.take n)

section Compare

variable {f : UInt8 → UInt8}

lemma strcmpBy_self (a : Str) : strcmpBy f a a = 0 := by
  induction a with
  | nil => rfl
  | cons x a ih => rw [strcmpBy]; split <;> simp [ih]

/-- Swapping the operands turns the sign. -/
lemma strcmpBy_neg (hf : ∀ {c}, f c = 0 ↔ c = 0) (a b : Str) :
    strcmpBy f b a = -strcmpBy f a b := by
  induction a generalizing b with
  | nil => cases b <;> simp [strcmpBy]
  | cons x a ih =>
      cases b with
      | nil => simp [strcmpBy]
      | cons y b =>
          have hxy : f x = f y → (x = 0 ↔ y = 0) := fun h => by rw [← hf (c := x), ← hf (c := y), h]
          by_cases h : f x = f y
          · by_cases hx : x = 0
            · simp [strcmpBy, hx, (hxy h).mp hx]
            · have hy : y ≠ 0 := fun h0 => hx ((hxy h).mpr h0)
              simp [strcmpBy, h, hx, hy, ih]
          · simp [strcmpBy, h, Ne.symm h]

/-- The comparison, byte by byte: behind its end a string counts as NULs. -/
lemma strcmpBy_nonpos (hf : ∀ {c}, f c = 0 ↔ c = 0) (a b : Str) :
    strcmpBy f a b ≤ 0 ↔ (f (a.headD 0)).toNat < (f (b.headD 0)).toNat ∨
      f (a.headD 0) = f (b.headD 0) ∧ (a.headD 0 = 0 ∨ strcmpBy f a.tail b.tail ≤ 0) := by
  have toNat_eq : ∀ {x y : UInt8}, x.toNat = y.toNat ↔ x = y := UInt8.toNat_inj
  have zero : (f 0).toNat = 0 := by rw [hf.mpr rfl]; rfl
  cases a with
  | nil =>
      cases b with
      | nil => simp [strcmpBy]
      | cons y b =>
          refine iff_of_true (by simp [strcmpBy]) ?_
          rcases Nat.eq_zero_or_pos (f y).toNat with hy | hy
          · exact .inr ⟨toNat_eq.mp (zero.trans hy.symm), .inl rfl⟩
          · exact .inl (zero.trans_lt hy)
  | cons x a =>
      cases b with
      | nil =>
          simp only [strcmpBy, List.headD_nil, List.headD_cons, zero, ← toNat_eq (x := f x)]
          refine ⟨fun h => .inr ⟨by omega, .inl (hf.mp (toNat_eq.mp ?_))⟩, fun h => by omega⟩
          show (f x).toNat = 0
          omega
      | cons y b =>
          simp only [strcmpBy, List.headD_cons, List.tail_cons]
          by_cases hxy : f x = f y
          · rw [hxy]
            by_cases hx : x = 0 <;> simp [hx]
          · have hne : (f x).toNat ≠ (f y).toNat := mt toNat_eq.mp hxy
            rw [if_pos (Or.inl hxy), or_iff_left fun h => hxy h.1]
            omega

/-- `a ≤ b ≤ c` gives `a ≤ c`. -/
lemma strcmpBy_trans (hf : ∀ {c}, f c = 0 ↔ c = 0) {a b c : Str} (hab : strcmpBy f a b ≤ 0)
    (hbc : strcmpBy f b c ≤ 0) : strcmpBy f a c ≤ 0 := by
  induction a generalizing b c with
  | nil => cases c <;> simp [strcmpBy]
  | cons x a ih =>
      rw [strcmpBy_nonpos hf] at hab hbc ⊢
      rcases hab with hab | ⟨hab, hrest⟩ <;> rcases hbc with hbc | ⟨hbc, hrest'⟩
      · exact .inl (hab.trans hbc)
      · exact .inl (hbc ▸ hab)
      · exact .inl (hab ▸ hbc)
      · refine .inr ⟨hab.trans hbc, ?_⟩
        rcases hrest with hx | hrest
        · exact .inl hx
        · rcases hrest' with hy | hrest'
          · exact .inl (hf.mp (hab.trans (hf.mpr hy)))
          · exact .inr (ih hrest hrest')

end Compare

/-- `memcmp`, on blocks of one length. -/
def memcmp : Str → Str → ℤ
  | a :: as, b :: bs => if a ≠ b then (a.toNat : ℤ) - b.toNat else memcmp as bs
  | _, _ => 0

section Memcmp

lemma memcmp_neg (a b : Str) : memcmp b a = -memcmp a b := by
  induction a generalizing b with
  | nil => cases b <;> rfl
  | cons x a ih =>
      cases b with
      | nil => rfl
      | cons y b =>
          by_cases h : x = y
          · simp [memcmp, h, ih]
          · simp [memcmp, h, Ne.symm h]

lemma memcmp_eq_zero {a b : Str} (hlen : a.length = b.length) : memcmp a b = 0 ↔ a = b := by
  induction a generalizing b with
  | nil =>
      rw [List.length_nil, eq_comm, List.length_eq_zero_iff] at hlen
      simp [hlen, memcmp]
  | cons x a ih =>
      cases b with
      | nil => exact absurd hlen (by simp)
      | cons y b =>
          rw [memcmp, List.cons.injEq]
          by_cases h : x = y
          · rw [if_neg (by simp [h]), ih (by simpa using hlen)]
            simp [h]
          · have hne : x.toNat ≠ y.toNat := fun h' => h (UInt8.toNat_inj.mp h')
            rw [if_pos h]
            exact iff_of_false (by omega) fun h' => h h'.1

lemma memcmp_lt_trans {a b c : Str} (hab : a.length = b.length) (hbc : b.length = c.length)
    (h : memcmp a b < 0) (h' : memcmp b c < 0) : memcmp a c < 0 := by
  induction a generalizing b c with
  | nil => exact absurd h (by simp [memcmp])
  | cons x a ih =>
      cases b with
      | nil => exact absurd hab (by simp)
      | cons y b =>
          cases c with
          | nil => exact absurd hbc (by simp)
          | cons z c =>
              have ih := @ih b c (by simpa using hab) (by simpa using hbc)
              rw [memcmp] at h h' ⊢
              by_cases hxy : x = y
              · subst hxy
                rw [if_neg (by simp)] at h
                by_cases hxz : x = z
                · rw [if_neg (by simp [hxz])] at h' ⊢
                  exact ih h h'
                · rwa [if_pos hxz] at h' ⊢
              · rw [if_pos hxy] at h
                by_cases hyz : y = z
                · subst hyz
                  rwa [if_pos hxy]
                · rw [if_pos hyz] at h'
                  have hxz : x ≠ z := by
                    rintro rfl
                    omega
                  rw [if_pos hxz]
                  omega

end Memcmp

/-! ### Search -/

/-- `memmem`: the offset of the first occurrence of `needle`. -/
def memmem (needle : Str) : Str → Option ℕ
  | [] => if needle = [] then some 0 else none
  | b :: l => if needle <+: b :: l then some 0 else (memmem needle l).map (· + 1)

/-- What is found is there, and not earlier. -/
lemma memmem_eq_some {needle l : Str} {i : ℕ} :
    memmem needle l = some i ↔ needle <+: l.drop i ∧ i ≤ l.length ∧
      ∀ j < i, ¬ needle <+: l.drop j := by
  induction l generalizing i with
  | nil =>
      rw [memmem]
      split
      · rename_i h
        subst h
        simp only [Option.some.injEq, List.drop_nil, List.prefix_rfl, List.length_nil,
          not_true_eq_false, true_and]
        constructor
        · rintro rfl
          exact ⟨le_rfl, by simp⟩
        · rintro ⟨h, -⟩
          omega
      · rename_i h
        simp [h]
  | cons b l ih =>
      rw [memmem]
      split
      · rename_i h
        constructor
        · rintro ⟨⟩
          exact ⟨by simpa using h, by simp, by simp⟩
        · rintro ⟨-, -, h3⟩
          rcases Nat.eq_zero_or_pos i with rfl | hi
          · rfl
          · exact absurd h (h3 0 hi)
      · rename_i h
        rw [Option.map_eq_some_iff]
        constructor
        · rintro ⟨k, hk, rfl⟩
          obtain ⟨h1, h2, h3⟩ := ih.mp hk
          refine ⟨h1, by simpa using h2, fun j hj => ?_⟩
          cases j with
          | zero => simpa using h
          | succ j => exact h3 j (by omega)
        · rintro ⟨h1, h2, h3⟩
          cases i with
          | zero => exact absurd h1 h
          | succ i =>
              exact ⟨i, ih.mpr ⟨h1, by simpa using h2, fun j hj => h3 (j + 1) (by omega)⟩, rfl⟩

lemma memmem_eq_none {needle l : Str} :
    memmem needle l = none ↔ ∀ j ≤ l.length, ¬ needle <+: l.drop j := by
  constructor
  · intro h j hj hp
    classical
    have hex : ∃ j, j ≤ l.length ∧ needle <+: l.drop j := ⟨j, hj, hp⟩
    have h1 := Nat.find_spec hex
    have h2 : memmem needle l = some (Nat.find hex) :=
      memmem_eq_some.mpr ⟨h1.2, h1.1, fun k hk hpk =>
        Nat.find_min hex hk ⟨by omega, hpk⟩⟩
    rw [h] at h2
    exact absurd h2 (by simp)
  · intro h
    cases hm : memmem needle l with
    | none => rfl
    | some i =>
        obtain ⟨h1, h2, -⟩ := memmem_eq_some.mp hm
        exact absurd h1 (h i h2)

/-- An occurrence fits. -/
lemma memmem_length {needle l : Str} {i : ℕ} (h : memmem needle l = some i) :
    i + needle.length ≤ l.length := by
  obtain ⟨h1, h2, -⟩ := memmem_eq_some.mp h
  have := h1.length_le
  rw [List.length_drop] at this
  omega

section Take

variable {needle l : Str} {i k : ℕ}

/-- What occurs in a text occurs in the text continued. -/
lemma prefix_drop_of_take {j : ℕ} (h : needle <+: (l.take k).drop j) : needle <+: l.drop j := by
  rw [List.drop_take] at h
  exact h.trans (List.take_prefix _ _)

/-- The first occurrence is found as soon as it has arrived. -/
lemma memmem_take_of_le (h : memmem needle l = some i) (hk : i + needle.length ≤ k) :
    memmem needle (l.take k) = some i := by
  obtain ⟨h1, h2, h3⟩ := memmem_eq_some.mp h
  refine memmem_eq_some.mpr ⟨?_, ?_, fun j hj hp => h3 j hj (prefix_drop_of_take hp)⟩
  · rw [List.drop_take]
    exact List.prefix_take_iff.mpr ⟨h1, by omega⟩
  · rw [List.length_take]
    omega

/-- And not before. -/
lemma memmem_take_of_lt (h : memmem needle l = some i) (hk : k < i + needle.length) :
    memmem needle (l.take k) = none := by
  obtain ⟨-, -, h3⟩ := memmem_eq_some.mp h
  refine memmem_eq_none.mpr fun j hj hp => ?_
  have hij : i ≤ j := by
    by_contra hij
    exact h3 j (by omega) (prefix_drop_of_take hp)
  have := hp.length_le
  rw [List.length_drop, List.length_take] at this
  rw [List.length_take] at hj
  omega

lemma memmem_take_eq_none (h : memmem needle l = none) (k : ℕ) :
    memmem needle (l.take k) = none := by
  refine memmem_eq_none.mpr fun j hj hp => ?_
  refine memmem_eq_none.mp h j ?_ (prefix_drop_of_take hp)
  rw [List.length_take] at hj
  omega

end Take

/-- `strncasestr`: the offset of the first occurrence of `c :: find` in the first `slen` bytes,
the search given up at a NUL or where what is left is too short. -/
def strncasestr (c : UInt8) (find : Str) : Str → ℕ → Option ℕ
  | [], _ => none
  | _ :: _, 0 => none
  | sc :: s, slen + 1 =>
      if sc = 0 then none
      else if sc = c then
        if slen < find.length then none
        else if strncasecmp s find find.length = 0 then some 0
        else (strncasestr c find s slen).map (· + 1)
      else (strncasestr c find s slen).map (· + 1)

/-- An occurrence fits. -/
lemma strncasestr_length {c : UInt8} {find s : Str} {n i : ℕ}
    (h : strncasestr c find s n = some i) : i + 1 + find.length ≤ n := by
  induction s generalizing n i with
  | nil => simp [strncasestr] at h
  | cons sc s ih =>
      cases n with
      | zero => simp [strncasestr] at h
      | succ n =>
          have later : (strncasestr c find s n).map (· + 1) = some i →
              i + 1 + find.length ≤ n + 1 := by
            intro h
            obtain ⟨k, hk, rfl⟩ := Option.map_eq_some_iff.mp h
            have := ih hk
            omega
          rw [strncasestr] at h
          split_ifs at h with h0 hc hlen hcmp
          · cases h
            omega
          · exact later h
          · exact later h

/-- Nothing behind the first `slen` bytes is looked at. -/
lemma strncasestr_append (c : UInt8) (find s rest : Str) :
    strncasestr c find (s ++ rest) s.length = strncasestr c find s s.length := by
  induction s with
  | nil => cases rest <;> simp [strncasestr]
  | cons sc s ih =>
      rw [List.cons_append, List.length_cons, strncasestr, strncasestr, ih]
      by_cases hlen : s.length < find.length
      · simp [hlen]
      · have hcmp : strncasecmp (s ++ rest) find find.length = strncasecmp s find find.length := by
          rw [strncasecmp, List.take_append_of_le_length (by omega), strncasecmp]
        rw [hcmp]

/-! ### Numbers -/

/-- The value of the leading digits, in base ten. -/
def digits (l : Str) : ℤ :=
  (l.takeWhile isdigit).foldl (fun n c => 10 * n + (c.toNat - 48 : ℕ)) 0

/-- `strtol` in base ten: blanks, a sign, digits; clamped to a `long`. -/
def strtol (l : Str) : ℤ :=
  let p := l.dropWhile isspace
  let v := match p with
    | 45 :: q => -digits q
    | 43 :: q => digits q
    | q => digits q
  max (-2 ^ 63) (min v (2 ^ 63 - 1))

/-- The conversion of a `long` to `int`. -/
def toInt (x : ℤ) : ℤ := Int.bmod x (2 ^ 32)

def atoi (l : Str) : ℤ := toInt (strtol l)

lemma dropWhile_append_of_exists {p : UInt8 → Bool} {l : Str} (h : ∃ c ∈ l, p c = false)
    (s : Str) : (l ++ s).dropWhile p = l.dropWhile p ++ s := by
  induction l with
  | nil => simp at h
  | cons c l ih =>
      by_cases hc : p c
      · have h' : ∃ d ∈ l, p d = false := by
          obtain ⟨d, hd, hpd⟩ := h
          rcases List.mem_cons.mp hd with rfl | hd
          · rw [hc] at hpd
            exact absurd hpd (by simp)
          · exact ⟨d, hd, hpd⟩
        simp [hc, ih h']
      · simp [hc]

lemma digits_append {l : Str} {c : UInt8} (hc : isdigit c = false) (s : Str) :
    digits (l ++ c :: s) = digits l := by
  have h : (l ++ c :: s).takeWhile isdigit = l.takeWhile isdigit := by
    induction l with
    | nil => simp [hc]
    | cons d l ih => by_cases hd : isdigit d <;> simp [hd, ih]
  rw [digits, digits, h]

/-- **The number ends in the text**: behind a text that is not all blank, what follows the first
byte that is no digit is not looked at. -/
lemma atoi_append {l : Str} (hl : ∃ b ∈ l, isspace b = false) {c : UInt8}
    (hc : isdigit c = false) (s : Str) : atoi (l ++ c :: s) = atoi l := by
  have hne : l.dropWhile isspace ≠ [] := by
    obtain ⟨b, hb, hb'⟩ := hl
    intro h
    have := List.dropWhile_eq_nil_iff.mp h b hb
    rw [hb'] at this
    exact absurd this (by simp)
  have hdrop : (l ++ c :: s).dropWhile isspace = l.dropWhile isspace ++ c :: s :=
    dropWhile_append_of_exists hl _
  simp only [atoi, strtol, hdrop]
  cases hq : l.dropWhile isspace with
  | nil => exact absurd hq hne
  | cons q qs =>
      rw [List.cons_append]
      by_cases h45 : q = 45
      · subst h45
        simp only [digits_append hc]
      · by_cases h43 : q = 43
        · subst h43
          simp only [digits_append hc]
        · have h1 := digits_append (l := q :: qs) hc s
          rw [List.cons_append] at h1
          split
          · rename_i h
            exact absurd (List.cons.inj h).1 h45
          · rename_i h
            exact absurd (List.cons.inj h).1 h43
          · rw [h1]
            split
            · rename_i h
              exact absurd (List.cons.inj h).1 h45
            · rename_i h
              exact absurd (List.cons.inj h).1 h43
            · rfl

/-! ### Unsigned numbers -/

/-- The value of a byte as a digit, too large for any base when it is none. -/
def digitVal (c : UInt8) : ℕ :=
  if 48 ≤ c ∧ c ≤ 57 then c.toNat - 48
  else if 65 ≤ c ∧ c ≤ 90 then c.toNat - 55
  else if 97 ≤ c ∧ c ≤ 122 then c.toNat - 87
  else 255

/-- The number the leading digits of a base make. -/
def strtoulDigits (base : ℕ) (s : Str) : ℕ :=
  (s.takeWhile (digitVal · < base)).foldl (fun n c => base * n + digitVal c) 0

/-- `strtol`: blanks, a sign, digits, which `digits` reads; clamped to a `long`. -/
def strtolBy (digits : Str → ℕ) (s : Str) : ℤ :=
  let p := s.dropWhile isspace
  let v : ℤ := match p with
    | 45 :: q => -digits q
    | 43 :: q => digits q
    | q => digits q
  max (-2 ^ 63) (min v (2 ^ 63 - 1))

/-- The digits in base sixteen, which may stand behind `0x`. -/
def hexDigits (s : Str) : ℕ :=
  if s.head? = some 48 ∧ (s[1]? = some 120 ∨ s[1]? = some 88) then strtoulDigits 16 (s.drop 2)
  else strtoulDigits 16 s

/-- The digits in base zero: in base sixteen behind `0x`, in base eight behind `0`. -/
def anyDigits (s : Str) : ℕ :=
  if s.head? = some 48 then
    if s[1]? = some 120 ∨ s[1]? = some 88 then hexDigits s else strtoulDigits 8 s
  else strtoulDigits 10 s

/-- `%u`: a number in base ten. -/
def decimal (n : ℕ) : Str :=
  if n = 0 then [48] else ((Nat.digits 10 n).map fun d => (48 + d).toUInt8).reverse

/-- A digit in base ten and its value. -/
lemma digitVal_ascii {d : ℕ} (hd : d < 10) : digitVal (48 + d).toUInt8 = d := by
  interval_cases d <;> rfl

/-- The digits are the bytes from `0` to `9`. -/
lemma digitVal_lt_ten {c : UInt8} (h : digitVal c < 10) : 48 ≤ c ∧ c ≤ 57 := by
  have h48 : (48 : UInt8).toNat = 48 := rfl
  have h57 : (57 : UInt8).toNat = 57 := rfl
  have h65 : (65 : UInt8).toNat = 65 := rfl
  have h97 : (97 : UInt8).toNat = 97 := rfl
  simp only [digitVal, UInt8.le_iff_toNat_le] at h ⊢
  split_ifs at h <;> omega

lemma decimal_ne_nil (n : ℕ) : decimal n ≠ [] := by
  rw [decimal]
  split
  · simp
  · rename_i h
    simpa using Nat.digits_ne_nil_iff_ne_zero.mpr h

lemma isdigit_of_mem_decimal {n : ℕ} {c : UInt8} (hc : c ∈ decimal n) : digitVal c < 10 := by
  rw [decimal] at hc
  split at hc
  · rw [List.mem_singleton.mp hc]
    decide
  · simp only [List.mem_reverse, List.mem_map] at hc
    obtain ⟨d, hd, rfl⟩ := hc
    rw [digitVal_ascii (Nat.digits_lt_base (by omega) hd)]
    exact Nat.digits_lt_base (by omega) hd

/-- **A number printed in base ten is read back**, whatever follows it that is no digit. -/
lemma strtoulDigits_decimal (n : ℕ) : strtoulDigits 10 (decimal n) = n := by
  have hall : (decimal n).takeWhile (fun c => decide (digitVal c < 10)) = decimal n := by
    rw [List.takeWhile_eq_self_iff]
    intro c hc
    simpa using isdigit_of_mem_decimal hc
  have hfold : ∀ l : List ℕ, (∀ d ∈ l, d < 10) →
      ((l.map fun d => (48 + d).toUInt8).reverse).foldl (fun n c => 10 * n + digitVal c) 0 =
        Nat.ofDigits 10 l := by
    intro l hl
    induction l with
    | nil => rfl
    | cons d l ih =>
        rw [List.map_cons, List.reverse_cons, List.foldl_append,
          ih fun e he => hl e (by simp [he]), Nat.ofDigits_cons]
        simp only [List.foldl_cons, List.foldl_nil, digitVal_ascii (hl d (by simp))]
        ring
  rw [strtoulDigits, hall, decimal]
  split
  · rename_i h
    rw [h]
    rfl
  · rw [hfold _ fun d hd => Nat.digits_lt_base (by omega) hd, Nat.ofDigits_digits]

end SipEcho
