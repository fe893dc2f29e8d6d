import SipEcho.Lib.Block

/-!
Stretches of memory and the numbers they hold, lowest byte first.

* `stretch`, `patch`: a stretch, and the memory with another one in its place;
* `stretch_patch_self`, `stretch_patch_before`, `stretch_patch_behind`, `stretch_patch_inside`:
  what a stretch is after a write, by where the write was;
* `leValue_leBytes`: a number that fits is read back.
-/

namespace SipEcho.Lib

universe u v

section Stretch

variable {ε : Type u} {α : Type v}

/-- The `n` cells from an index on. -/
def stretch (mem : List α) (i n : ℕ) : List α := (mem.drop i).take n

/-- The memory with other cells from an index on. -/
def patch (mem : List α) (i : ℕ) (cs : List α) : List α :=
  mem.take i ++ cs ++ mem.drop (i + cs.length)

/-- The cells from an index on, which must be there. -/
def loadAll (fault : ε) (mem : List α) (i n : ℕ) : Except ε (List α) :=
  if i + n ≤ mem.length then .ok (stretch mem i n) else .error fault

variable {fault : ε} {mem cs : List α} {i j n m : ℕ}

lemma loadAll_eq (h : i + n ≤ mem.length) : loadAll fault mem i n = .ok (stretch mem i n) :=
  if_pos h

lemma storeAll_patch (h : i + cs.length ≤ mem.length) :
    storeAll fault mem i cs = .ok (patch mem i cs) :=
  storeAll_eq h

lemma store_patch {c : α} (h : i < mem.length) :
    store fault mem i c = .ok (patch mem i [c]) := by
  rw [store_eq h, patch, List.set_eq_take_append_cons_drop, if_pos h, List.append_assoc,
    List.singleton_append, List.length_singleton]

/-- What stands between two parts is replaced. -/
lemma patch_append {a b c : List α} (h : b.length = cs.length) :
    patch (a ++ b ++ c) a.length cs = a ++ cs ++ c := by
  rw [patch, ← h, ← List.length_append, List.drop_left, List.append_assoc a b, List.take_left]

lemma length_stretch (h : i + n ≤ mem.length) : (stretch mem i n).length = n := by
  rw [stretch, List.length_take, List.length_drop]
  omega

@[simp] lemma length_patch (h : i + cs.length ≤ mem.length) :
    (patch mem i cs).length = mem.length := by
  rw [patch, List.length_append, List.length_append, List.length_take, List.length_drop]
  omega

lemma getElem?_stretch (hj : j < n) : (stretch mem i n)[j]? = mem[i + j]? := by
  rw [stretch, List.getElem?_take_of_lt hj, List.getElem?_drop]

lemma getElem?_patch_before (h : i + cs.length ≤ mem.length) (hj : j < i) :
    (patch mem i cs)[j]? = mem[j]? := by
  rw [patch, List.append_assoc, List.getElem?_append_left, List.getElem?_take_of_lt hj]
  rw [List.length_take]
  omega

lemma getElem?_patch_inside (h : i + cs.length ≤ mem.length) (hj : j < cs.length) :
    (patch mem i cs)[i + j]? = cs[j]? := by
  have hlen : (mem.take i).length = i := List.length_take_of_le (by omega)
  rw [patch, List.append_assoc, List.getElem?_append_right (by omega), hlen,
    Nat.add_sub_cancel_left, List.getElem?_append_left hj]

lemma getElem?_patch_behind (h : i + cs.length ≤ mem.length) (hj : i + cs.length ≤ j) :
    (patch mem i cs)[j]? = mem[j]? := by
  have hlen : (mem.take i ++ cs).length = i + cs.length := by
    rw [List.length_append, List.length_take_of_le (by omega)]
  rw [patch, List.getElem?_append_right (by omega), hlen, List.getElem?_drop]
  congr 1
  omega

/-- Stretches are told apart by their cells. -/
lemma stretch_ext {mem' : List α} (hi : i + n ≤ mem.length) (hj : j + n ≤ mem'.length)
    (h : ∀ k < n, mem[i + k]? = mem'[j + k]?) : stretch mem i n = stretch mem' j n := by
  refine List.ext_getElem? fun k => ?_
  rcases lt_or_ge k n with hk | hk
  · rw [getElem?_stretch hk, getElem?_stretch hk, h k hk]
  · rw [List.getElem?_eq_none, List.getElem?_eq_none]
    · rwa [length_stretch hj]
    · rwa [length_stretch hi]

/-- A stretch of a stretch. -/
lemma stretch_stretch (hj : j + m ≤ n) : stretch (stretch mem i n) j m = stretch mem (i + j) m := by
  rw [stretch, stretch, stretch, List.drop_take, List.take_take, List.drop_drop,
    Nat.min_eq_left (by omega)]

/-- **What was written is there.** -/
lemma stretch_patch_self (h : i + cs.length ≤ mem.length) :
    stretch (patch mem i cs) i cs.length = cs := by
  have hcs : stretch cs 0 cs.length = cs := List.take_length
  calc stretch (patch mem i cs) i cs.length = stretch cs 0 cs.length := by
        refine stretch_ext (by rw [length_patch h]; exact h) (by omega) fun k hk => ?_
        rw [getElem?_patch_inside h hk, Nat.zero_add]
    _ = cs := hcs

lemma stretch_patch_inside (h : i + cs.length ≤ mem.length) (hj : j + n ≤ cs.length) :
    stretch (patch mem i cs) (i + j) n = stretch cs j n := by
  rw [← stretch_stretch hj, stretch_patch_self h]

lemma stretch_patch_before (h : i + cs.length ≤ mem.length) (hj : j + n ≤ i) :
    stretch (patch mem i cs) j n = stretch mem j n :=
  stretch_ext (by rw [length_patch h]; omega) (by omega) fun k hk =>
    getElem?_patch_before h (by omega)

lemma stretch_patch_behind (h : i + cs.length ≤ mem.length) (hi : i + cs.length ≤ j)
    (hj : j + n ≤ mem.length) : stretch (patch mem i cs) j n = stretch mem j n :=
  stretch_ext (by rw [length_patch h]; omega) hj fun k hk =>
    getElem?_patch_behind h (by omega)

/-- **A write within a stretch** is a write to the stretch. -/
lemma stretch_patch_within (h : j + n ≤ mem.length) (hi : i + cs.length ≤ n) :
    stretch (patch mem (j + i) cs) j n = patch (stretch mem j n) i cs := by
  have hlen := length_stretch h
  have hn : stretch (patch (stretch mem j n) i cs) 0 n = patch (stretch mem j n) i cs := by
    refine List.take_of_length_le ?_
    rw [List.drop_zero, length_patch (by omega), hlen]
  rw [← hn]
  refine stretch_ext (by rw [length_patch (by omega)]; exact h)
    (by rw [length_patch (by omega), hlen, Nat.zero_add]) fun k hk => ?_
  rw [Nat.zero_add]
  rcases lt_or_ge k i with hki | hik
  · rw [getElem?_patch_before (by omega) (by omega), getElem?_patch_before (by omega) hki,
      getElem?_stretch hk]
  · rcases lt_or_ge k (i + cs.length) with hkc | hck
    · obtain ⟨d, rfl⟩ := Nat.exists_eq_add_of_le hik
      rw [← Nat.add_assoc, getElem?_patch_inside (by omega) (by omega),
        getElem?_patch_inside (by omega) (by omega)]
    · rw [getElem?_patch_behind (by omega) (by omega), getElem?_patch_behind (by omega) hck,
        getElem?_stretch hk]

/-- Two stretches side by side. -/
lemma stretch_add (mem : List α) (i n m : ℕ) :
    stretch mem i (n + m) = stretch mem i n ++ stretch mem (i + n) m := by
  rw [stretch, stretch, stretch, List.take_add, List.drop_drop]

end Stretch

/-! ### Numbers -/

/-- The `n` bytes of a number, the lowest first. -/
def leBytes : ℕ → ℕ → List UInt8
  | 0, _ => []
  | n + 1, v => v.toUInt8 :: leBytes n (v / 256)

/-- The number with the bytes. -/
def leValue : List UInt8 → ℕ
  | [] => 0
  | b :: l => b.toNat + 256 * leValue l

@[simp] lemma length_leBytes (n v : ℕ) : (leBytes n v).length = n := by
  induction n generalizing v with
  | zero => rfl
  | succ n ih => rw [leBytes, List.length_cons, ih]

/-- **A number that fits is read back.** -/
theorem leValue_leBytes {n v : ℕ} (h : v < 256 ^ n) : leValue (leBytes n v) = v := by
  induction n generalizing v with
  | zero =>
      obtain rfl : v = 0 := by simpa using h
      rfl
  | succ n ih =>
      have hdiv : v / 256 < 256 ^ n := by
        rw [pow_succ] at h
        omega
      rw [leBytes, leValue, ih hdiv, Nat.toUInt8_eq, UInt8.toNat_ofNat']
      omega

end SipEcho.Lib
