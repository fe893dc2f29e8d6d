import SipEcho.Proto.Invoke

/-!
Dispatch of a call by its topic: `get_topic` and `get_method` in the memory of the packet.

`get_topic` looks for three separators, and turns each into a NUL; `get_method` compares what
stands between the first two with the names of the methods.  The block is the topic itself, so
that an access behind its size is a `Fault`.

* `getMethodAt_eq`: on any topic, the two stay in the block, and find what `getMethod` does;
* `getMethod_segments`: what that is, in terms of the segments of the topic;
* `topic_dispatch`: both, and that the topics `subscribe` and `invoke` print are dispatched;
* `nul_in_method`: a NUL byte hides the rest of the segment.
-/

namespace SipEcho

open Lib

/-! ### Memory -/

/-- A byte of the block. -/
def blockGet (mem : Str) (i : ℕ) : Except Fault UInt8 :=
  match mem[i]? with
  | some c => return c
  | none => throw .crash

/-- A byte of the block is set. -/
def blockSet (mem : Str) (i : ℕ) (c : UInt8) : Except Fault Str :=
  if i < mem.length then return mem.set i c else throw .crash

/-- `memchr`, of `n` bytes from offset `i` on. -/
def memchrAt (mem : Str) (c : UInt8) : ℕ → ℕ → Except Fault (Option ℕ)
  | 0, _ => return none
  | n + 1, i => do
      if (← blockGet mem i) = c then return some i else memchrAt mem c n (i + 1)

/-- `strcmp` of the string at offset `i` with a name. -/
def strcmpAt (mem : Str) : ℕ → Str → Except Fault ℤ
  | i, [] => do return (← blockGet mem i).toNat
  | i, b :: bs => do
      let a ← blockGet mem i
      if a ≠ b ∨ a = 0 then return (a.toNat : ℤ) - b.toNat else strcmpAt mem (i + 1) bs

/-! ### The code -/

/-- `struct topic`, with offsets for pointers. -/
structure TopicAt where
  name : Option ℕ := none
  method : Option ℕ := none
  host : Option ℕ := none
  port : Option ℕ := none
  size : ℕ := 0
  deriving DecidableEq, Repr

/-- One cut of `get_topic`: the separator becomes a NUL; the offset behind it, and the `uint16_t`
size that is left. -/
def cutAt (mem : Str) (i size : ℕ) : Except Fault (Option (ℕ × ℕ × Str)) := do
  match ← memchrAt mem 47 size i with
  | none => return none
  | some j =>
      let mem ← blockSet mem j 0
      return some (j + 1, u16 (size - (j + 1 - i : ℕ)), mem)

/-- `get_topic`, and the block it leaves. -/
def getTopicAt (mem : Str) (size : ℕ) : Except Fault (TopicAt × Str) := do
  match ← cutAt mem 0 size with
  | none => return ({}, mem)
  | some (method, size, mem) =>
      match ← cutAt mem method size with
      | none => return ({}, mem)
      | some (host, size, mem) =>
          match ← cutAt mem host size with
          | none => return ({}, mem)
          | some (port, size, mem) =>
              return ({ name := some 0, method, host, port, size }, mem)

/-- The loop of `get_method`, from the method below `i` down. -/
def methodFromAt (mem : Str) (methods : List Str) (method : ℕ) : ℕ → Except Fault ℕ
  | 0 => return 0
  | i + 1 => do
      if (← strcmpAt mem method (methods.getD i [])) = 0 then return i + 1
      else methodFromAt mem methods method i

/-- `get_method`, and the block it leaves. -/
def getMethodAt (methods : List Str) (mem : Str) (size : ℕ) : Except Fault (ℕ × Str) := do
  let (topic, mem) ← getTopicAt mem size
  match topic.method with
  | none => return (0, mem)
  | some method => return (← methodFromAt mem methods method methods.length, mem)

/-! ### In the block -/

lemma blockGet_append (pre : Str) (c : UInt8) (rest : Str) :
    blockGet (pre ++ c :: rest) pre.length = .ok c := by
  rw [blockGet, List.getElem?_append_right le_rfl, Nat.sub_self]
  rfl

lemma blockSet_append (pre : Str) (c d : UInt8) (rest : Str) :
    blockSet (pre ++ c :: rest) pre.length d = .ok (pre ++ d :: rest) := by
  rw [blockSet, if_pos (by rw [List.length_append, List.length_cons]; omega),
    List.set_append_right _ _ le_rfl, Nat.sub_self, List.set_cons_zero]
  rfl

/-- No byte is the one looked for. -/
lemma memchrAt_none (pre : Str) {s : Str} {c : UInt8} (hs : c ∉ s) :
    memchrAt (pre ++ s) c s.length pre.length = .ok none := by
  induction s generalizing pre with
  | nil => rfl
  | cons d s ih =>
      rw [List.mem_cons, not_or] at hs
      rw [List.length_cons, memchrAt, blockGet_append]
      show (if d = c then _ else _) = _
      rw [if_neg (Ne.symm hs.1)]
      have h := ih (pre ++ [d]) hs.2
      rwa [List.append_assoc, List.singleton_append, List.length_append] at h

/-- The first byte that is. -/
lemma memchrAt_some (pre : Str) {s rest : Str} {c : UInt8} {n : ℕ} (hs : c ∉ s)
    (hn : s.length < n) :
    memchrAt (pre ++ (s ++ c :: rest)) c n pre.length = .ok (some (pre.length + s.length)) := by
  induction s generalizing pre n with
  | nil =>
      obtain ⟨n, rfl⟩ : ∃ m, n = m + 1 := ⟨n - 1, by simp at hn; omega⟩
      rw [List.nil_append, memchrAt, blockGet_append]
      show (if c = c then _ else _) = _
      rw [if_pos rfl]
      rfl
  | cons d s ih =>
      rw [List.length_cons] at hn
      obtain ⟨n, rfl⟩ : ∃ m, n = m + 1 := ⟨n - 1, by omega⟩
      rw [List.mem_cons, not_or] at hs
      rw [List.cons_append, memchrAt, blockGet_append]
      show (if d = c then _ else _) = _
      rw [if_neg (Ne.symm hs.1)]
      have h := ih (pre ++ [d]) (n := n) hs.2 (by omega)
      rw [List.append_assoc, List.singleton_append, List.length_append, List.length_singleton] at h
      rw [h, List.length_cons]
      congr 2
      omega

/-- **A string in the block compares as it would by itself.** -/
lemma strcmpAt_eq (pre s rest name : Str) :
    strcmpAt (pre ++ (s ++ 0 :: rest)) pre.length name = .ok (strcmp s name) := by
  induction name generalizing pre s with
  | nil =>
      cases s with
      | nil =>
          rw [List.nil_append, strcmpAt, blockGet_append]
          rfl
      | cons a s =>
          rw [List.cons_append, strcmpAt, blockGet_append]
          rfl
  | cons b name ih =>
      cases s with
      | nil =>
          rw [List.nil_append, strcmpAt, blockGet_append]
          show (if (0 : UInt8) ≠ b ∨ (0 : UInt8) = 0 then _ else _) = _
          rw [if_pos (Or.inr rfl), strcmp, strcmpBy]
          show Except.ok _ = _
          simp
      | cons a s =>
          rw [List.cons_append, strcmpAt, blockGet_append]
          show (if a ≠ b ∨ a = 0 then _ else _) = _
          rw [strcmp, strcmpBy]
          simp only [id]
          split
          · rfl
          · have h := ih (pre ++ [a]) s
            rwa [List.append_assoc, List.singleton_append, List.length_append] at h

lemma methodFromAt_eq (pre s rest : Str) (methods : List Str) (i : ℕ) :
    methodFromAt (pre ++ (s ++ 0 :: rest)) methods pre.length i =
      .ok (methodFrom methods s i) := by
  induction i with
  | zero => rfl
  | succ i ih =>
      rw [methodFromAt, strcmpAt_eq, methodFrom]
      show (if strcmp s (methods.getD i []) = 0 then _ else _) = _
      rw [ih]
      split <;> rfl

/-! ### The cuts -/

lemma cutAt_none (pre : Str) {s : Str} (hs : 47 ∉ s) :
    cutAt (pre ++ s) pre.length s.length = .ok none := by
  rw [cutAt, memchrAt_none pre hs]
  rfl

/-- **A cut** leaves the segment as a string, and what is behind the separator as the rest. -/
lemma cutAt_some (pre : Str) {s rest : Str} (hs : 47 ∉ s)
    (hlen : (s ++ 47 :: rest).length < 65536) :
    cutAt (pre ++ (s ++ 47 :: rest)) pre.length (s ++ 47 :: rest).length =
      .ok (some ((pre ++ (s ++ [0])).length, rest.length, pre ++ (s ++ 0 :: rest))) := by
  have hsize : (s ++ 47 :: rest).length = s.length + 1 + rest.length := by
    rw [List.length_append, List.length_cons]
    omega
  have hend : (pre ++ (s ++ [0])).length = pre.length + s.length + 1 := by
    simp only [List.length_append, List.length_singleton]
    omega
  rw [cutAt, memchrAt_some pre hs (by omega), hend]
  show (blockSet (pre ++ (s ++ 47 :: rest)) (pre.length + s.length) 0 >>= _) = _
  have hset := blockSet_append (pre ++ s) 47 0 rest
  rw [List.append_assoc, List.append_assoc, List.length_append] at hset
  rw [hset, hsize]
  show Except.ok _ = _
  congr 4
  rw [show ((s.length + 1 + rest.length : ℕ) : ℤ) -
    ((pre.length + s.length + 1 - pre.length : ℕ) : ℤ) = (rest.length : ℤ) by omega]
  exact u16_natCast (by omega)

/-- A text without a separator, or its first segment and the rest. -/
lemma cut_cases (l : Str) : 47 ∉ l ∨ ∃ s rest, l = s ++ 47 :: rest ∧ 47 ∉ s := by
  by_cases h : 47 ∈ l
  · exact Or.inr (List.eq_append_cons_of_mem h)
  · exact Or.inl h

lemma memchr_none {l : Str} (h : 47 ∉ l) : memchr 47 l = none := by
  rw [memchr, List.findIdx?_eq_none_iff]
  intro c hc
  have hne : c ≠ 47 := fun h' => h (h' ▸ hc)
  simpa using hne

lemma memchr_some {s : Str} (rest : Str) (hs : 47 ∉ s) :
    memchr 47 (s ++ 47 :: rest) = some s.length := by
  have h := memchr_none hs
  rw [memchr] at h ⊢
  simp [List.findIdx?_append, h, List.findIdx?_cons]

lemma drop_segment (s rest : Str) : (s ++ 47 :: rest).drop (s.length + 1) = rest := by
  rw [← List.drop_drop, List.drop_left]
  rfl

/-- **`get_topic` in terms of segments**: the second of at least four. -/
lemma getTopic_eq (topic : Str) :
    getTopic topic = if 4 ≤ (topic.splitOn 47).length then some ((topic.splitOn 47).getD 1 [])
      else none := by
  rcases cut_cases topic with h | ⟨s, rest, rfl, hs⟩
  · rw [getTopic, memchr_none h, List.splitOn_eq_singleton h]
    rfl
  · rw [getTopic, memchr_some rest hs, List.splitOn_append_cons_self_of_not_mem hs]
    dsimp only
    rw [drop_segment]
    rcases cut_cases rest with h | ⟨s₁, rest, rfl, hs₁⟩
    · rw [memchr_none h, List.splitOn_eq_singleton h]
      rfl
    · rw [memchr_some rest hs₁, List.splitOn_append_cons_self_of_not_mem hs₁]
      dsimp only
      rw [drop_segment]
      rcases cut_cases rest with h | ⟨s₂, rest, rfl, hs₂⟩
      · rw [memchr_none h, List.splitOn_eq_singleton h]
        rfl
      · rw [memchr_some rest hs₂, List.splitOn_append_cons_self_of_not_mem hs₂]
        have hlast : 1 ≤ (rest.splitOn 47).length :=
          List.length_pos_iff_ne_nil.mpr (List.splitOn_ne_nil 47 rest)
        dsimp only
        rw [if_pos (by simp only [List.length_cons]; omega), List.take_left]
        rfl

/-- **`get_topic` stays in its block**: it finds no method, or the method's name is a string
there. -/
lemma getTopicAt_eq {topic : Str} (hlen : topic.length < 65536) :
    ∃ found mem, getTopicAt topic topic.length = .ok (found, mem) ∧ mem.length = topic.length ∧
      match getTopic topic with
      | none => found.method = none
      | some method => ∃ pre rest, mem = pre ++ (method ++ 0 :: rest) ∧
          found.method = some pre.length := by
  rw [getTopic_eq]
  rcases cut_cases topic with h | ⟨s, rest, rfl, hs⟩
  · have hcut := cutAt_none [] h
    simp only [List.nil_append, List.length_nil] at hcut
    rw [List.splitOn_eq_singleton h]
    exact ⟨{}, topic, by simp only [getTopicAt, hcut]; rfl, rfl, rfl⟩
  · have hcut := cutAt_some [] hs hlen
    simp only [List.nil_append, List.length_nil] at hcut
    rw [List.splitOn_append_cons_self_of_not_mem hs]
    have hlen₁ : rest.length < 65536 := by
      rw [List.length_append, List.length_cons] at hlen
      omega
    have hmem : s ++ 0 :: rest = (s ++ [0]) ++ rest := by simp
    rcases cut_cases rest with h | ⟨s₁, rest, rfl, hs₁⟩
    · have hcut₁ := cutAt_none (s ++ [0]) h
      rw [← hmem] at hcut₁
      rw [List.splitOn_eq_singleton h]
      refine ⟨{}, s ++ 0 :: rest, ?_, by simp, rfl⟩
      simp only [getTopicAt, hcut, hcut₁, bind, Except.bind]
      rfl
    · have hcut₁ := cutAt_some (s ++ [0]) hs₁ hlen₁
      rw [← hmem] at hcut₁
      rw [List.splitOn_append_cons_self_of_not_mem hs₁]
      have hlen₂ : rest.length < 65536 := by
        rw [List.length_append, List.length_cons] at hlen₁
        omega
      have hmem₁ : s ++ [0] ++ (s₁ ++ 0 :: rest) = (s ++ [0] ++ (s₁ ++ [0])) ++ rest := by simp
      rcases cut_cases rest with h | ⟨s₂, rest, rfl, hs₂⟩
      · have hcut₂ := cutAt_none (s ++ [0] ++ (s₁ ++ [0])) h
        rw [← hmem₁] at hcut₂
        rw [List.splitOn_eq_singleton h]
        refine ⟨{}, s ++ [0] ++ (s₁ ++ 0 :: rest), ?_, by simp, rfl⟩
        simp only [getTopicAt, hcut, hcut₁, hcut₂, bind, Except.bind]
        rfl
      · have hcut₂ := cutAt_some (s ++ [0] ++ (s₁ ++ [0])) hs₂ hlen₂
        rw [← hmem₁] at hcut₂
        have hlast : 1 ≤ (rest.splitOn 47).length :=
          List.length_pos_iff_ne_nil.mpr (List.splitOn_ne_nil 47 rest)
        rw [List.splitOn_append_cons_self_of_not_mem hs₂,
          if_pos (by simp only [List.length_cons]; omega)]
        refine ⟨⟨some 0, some (s ++ [0]).length, some (s ++ [0] ++ (s₁ ++ [0])).length,
          some (s ++ [0] ++ (s₁ ++ [0]) ++ (s₂ ++ [0])).length, rest.length⟩,
          s ++ [0] ++ (s₁ ++ [0]) ++ (s₂ ++ 0 :: rest), ?_, by simp, s ++ [0], s₂ ++ 0 :: rest,
          by simp, rfl⟩
        simp only [getTopicAt, hcut, hcut₁, hcut₂, bind, Except.bind]
        rfl

/-- **`get_method` stays in its block**, on any topic, and finds what it does in a copy. -/
lemma getMethodAt_eq (t : Transport) {topic : Str} (hlen : topic.length < 65536) :
    ∃ mem, getMethodAt t.methods topic topic.length = .ok (getMethod t topic, mem) ∧
      mem.length = topic.length := by
  obtain ⟨found, mem, h, hmem, hfound⟩ := getTopicAt_eq hlen
  refine ⟨mem, ?_, hmem⟩
  rw [getMethodAt, h, getMethod]
  cases hget : getTopic topic with
  | none =>
      rw [hget] at hfound
      show (match found.method with | none => _ | some method => _) = _
      rw [hfound]
      rfl
  | some method =>
      rw [hget] at hfound
      obtain ⟨pre, rest, rfl, hfound⟩ := hfound
      show (match found.method with | none => _ | some method => _) = _
      rw [hfound]
      show (methodFromAt _ _ _ _ >>= _) = _
      rw [methodFromAt_eq]
      rfl

/-! ### What is found -/

/-- The names of a service: strings, without a separator, the methods' distinct. -/
structure Transport.Named (t : Transport) : Prop where
  name : 47 ∉ t.name
  slashless : ∀ m ∈ t.methods, 47 ∉ m
  strings : ∀ m ∈ t.methods, 0 ∉ m
  nodup : t.methods.Nodup

/-- A block compares equal to a string when it is one, up to its first NUL. -/
lemma strcmp_eq_zero {s name : Str} (hname : 0 ∉ name) : strcmp s name = 0 ↔ cstr s = name := by
  induction s generalizing name with
  | nil =>
      cases name with
      | nil => exact iff_of_true rfl rfl
      | cons b name =>
          have hb : b.toNat ≠ 0 := by
            intro h
            have : b = 0 := UInt8.toNat_inj.mp h
            exact hname (this ▸ List.mem_cons_self)
          refine iff_of_false ?_ (by simp [cstr])
          rw [strcmp, strcmpBy]
          simpa using hb
  | cons a s ih =>
      rw [cstr, List.takeWhile_cons]
      cases name with
      | nil =>
          rw [strcmp, strcmpBy]
          by_cases ha : a = 0
          · simp [ha]
          · have ha' : a.toNat ≠ 0 := fun h => ha (UInt8.toNat_inj.mp h)
            simp [ha, ha']
      | cons b name =>
          rw [List.mem_cons, not_or] at hname
          rw [strcmp, strcmpBy]
          by_cases hab : a = b
          · subst hab
            have ha : a ≠ 0 := Ne.symm hname.1
            rw [if_neg (by simp [ha]), if_pos (by simp [ha]), List.cons_inj_right]
            exact ih hname.2
          · rw [if_pos (Or.inl (by simpa using hab))]
            refine iff_of_false (fun h => hab (UInt8.toNat_inj.mp ?_)) ?_
            · simp only [id] at h
              omega
            split
            · simp [hab]
            · simp

/-- The loop finds the one method of that name. -/
lemma methodFrom_eq_succ {methods : List Str} (hstrings : ∀ m ∈ methods, 0 ∉ m)
    (hnodup : methods.Nodup) (s : Str) {n : ℕ} (hn : n ≤ methods.length) (i : ℕ) :
    methodFrom methods s n = i + 1 ↔ i < n ∧ cstr s = methods.getD i [] := by
  induction n with
  | zero => simp [methodFrom]
  | succ n ih =>
      have hmem : methods.getD n [] = methods[n] := by
        rw [List.getD_eq_getElem?_getD, List.getElem?_eq_getElem hn, Option.getD_some]
      have hzero : strcmp s (methods.getD n []) = 0 ↔ cstr s = methods.getD n [] :=
        strcmp_eq_zero (hmem ▸ hstrings _ (List.getElem_mem hn))
      rw [methodFrom]
      by_cases h : strcmp s (methods.getD n []) = 0
      · rw [if_pos h, hzero.mp h]
        constructor
        · intro hi
          obtain rfl : n = i := by omega
          exact ⟨by omega, rfl⟩
        · rintro ⟨hi, heq⟩
          have hi' : methods.getD i [] = methods[i] := by
            rw [List.getD_eq_getElem?_getD, List.getElem?_eq_getElem (by omega), Option.getD_some]
          rw [hmem, hi', hnodup.getElem_inj_iff] at heq
          omega
      · rw [if_neg h, ih (by omega)]
        refine ⟨fun ⟨hi, heq⟩ => ⟨by omega, heq⟩, fun ⟨hi, heq⟩ => ⟨?_, heq⟩⟩
        rcases Nat.lt_succ_iff_lt_or_eq.mp hi with hi | rfl
        · exact hi
        · exact absurd (hzero.mpr heq) h

/-- **What `get_method` finds**, in terms of the segments of the topic. -/
lemma getMethod_segments {t : Transport} (ht : t.Named) (topic : Str) (i : ℕ) :
    getMethod t topic = i + 1 ↔ i < t.methods.length ∧ 4 ≤ (topic.splitOn 47).length ∧
      cstr ((topic.splitOn 47).getD 1 []) = t.methods.getD i [] := by
  rw [getMethod, getTopic_eq]
  by_cases h : 4 ≤ (topic.splitOn 47).length
  · rw [if_pos h]
    dsimp only
    rw [methodFrom_eq_succ ht.strings ht.nodup _ le_rfl]
    tauto
  · rw [if_neg h]
    simp [h]

/-- A topic of this form is dispatched to its method. -/
lemma getMethod_topic {t : Transport} (ht : t.Named) {name : Str} (hname : 47 ∉ name) {i : ℕ}
    (hi : i < t.methods.length) (host port : Str) :
    getMethod t (name ++ str "/" ++ t.methods.getD i [] ++ str "/" ++ host ++ str "/" ++ port) =
      i + 1 := by
  have hmem : t.methods.getD i [] ∈ t.methods := by
    rw [List.getD_eq_getElem?_getD, List.getElem?_eq_getElem hi, Option.getD_some]
    exact List.getElem_mem hi
  have hslash : str "/" = [47] := by decide
  have hform : name ++ str "/" ++ t.methods.getD i [] ++ str "/" ++ host ++ str "/" ++ port =
      name ++ 47 :: (t.methods.getD i [] ++ 47 :: (host ++ 47 :: port)) := by
    simp only [hslash, List.append_assoc, List.cons_append, List.nil_append]
  rw [hform, getMethod_segments ht, List.splitOn_append_cons_self_of_not_mem hname,
    List.splitOn_append_cons_self_of_not_mem (ht.slashless _ hmem),
    List.splitOn_append_cons_self]
  refine ⟨hi, ?_, cstr_of_not_mem (ht.strings _ hmem)⟩
  have h1 : 1 ≤ (host.splitOn 47).length :=
    List.length_pos_iff_ne_nil.mpr (List.splitOn_ne_nil 47 _)
  have h2 : 1 ≤ (port.splitOn 47).length :=
    List.length_pos_iff_ne_nil.mpr (List.splitOn_ne_nil 47 _)
  simp only [List.length_cons, List.length_append]
  omega

/-- The packets of `subscribe` are for the topics of the methods. -/
lemma subscribeFrom_topics (b : Bus) (i : ℕ) (t : Transport) :
    ∀ p ∈ (subscribeFrom b i t).1.relayed, p ∈ t.relayed ∨
      ∃ j < i, p.packetId = j + 1 ∧ p.topic = t.topic (t.methods.getD j []) ∧
        p.topic.length < 256 := by
  induction i generalizing t with
  | zero => exact fun p hp => Or.inl hp
  | succ i ih =>
      intro p hp
      rw [subscribeFrom] at hp
      dsimp only at hp
      split at hp
      · exact Or.inl hp
      · rename_i hlong
        split at hp
        · rcases ih _ p hp with h | ⟨j, hj, h⟩
          · rcases List.mem_append.mp h with h | h
            · exact Or.inl h
            · rw [List.mem_singleton] at h
              subst h
              exact Or.inr ⟨i, by omega, rfl, rfl, by simpa using hlong⟩
          · exact Or.inr ⟨j, by omega, h⟩
        · exact Or.inl hp

/-- The second of at least four segments of the topic, up to its first NUL, is the name of
method `i`. -/
def NamesMethod (methods : List Str) (topic : Str) (i : ℕ) : Prop :=
  i < methods.length ∧ 4 ≤ (topic.splitOn 47).length ∧
    cstr ((topic.splitOn 47).getD 1 []) = methods.getD i []

/-- The call of `get_method` returns, within its block, the number of method `i`. -/
def Dispatched (t : Transport) (topic : Str) (i : ℕ) : Prop :=
  ∃ mem, getMethodAt t.methods topic topic.length = .ok (i + 1, mem)

/-- **Dispatch of topics.**  On every topic `get_method` stays within its size and finds the method
the second segment names, or none; the topics `subscribe` asks for and the ones the `invoke` of a
peer prints are dispatched to their methods. -/
theorem topic_dispatch {t : Transport} (ht : t.Named) :
    (∀ topic : Str, topic.length < 65536 →
      ∃ r mem, getMethodAt t.methods topic topic.length = .ok (r, mem) ∧
        mem.length = topic.length ∧ (∀ i, NamesMethod t.methods topic i → r = i + 1) ∧
        ((∀ i, ¬ NamesMethod t.methods topic i) → r = 0)) ∧
    (∀ b, ∀ p ∈ (subscribe b { t with relayed := [] }).1.relayed,
      ∃ i, p.packetId = i + 1 ∧ p.topic = t.topic (t.methods.getD i []) ∧
        Dispatched t p.topic i) ∧
    ∀ (s : Sender) (i : ℕ), s.methods = t.methods → 47 ∉ s.to_ → i < t.methods.length →
      (s.topic s.to_ i).length < 65536 → Dispatched t (s.topic s.to_ i) i := by
  have dispatched {topic : Str} {i : ℕ} (hlen : topic.length < 65536)
      (h : getMethod t topic = i + 1) : Dispatched t topic i := by
    obtain ⟨mem, hmem, -⟩ := getMethodAt_eq t hlen
    exact ⟨mem, by rw [hmem, h]⟩
  refine ⟨fun topic hlen => ?_, fun b p hp => ?_, fun s i hmethods hto hi hlen => ?_⟩
  · obtain ⟨mem, hmem, hsize⟩ := getMethodAt_eq t hlen
    refine ⟨_, mem, hmem, hsize, fun i hi => (getMethod_segments ht topic i).mpr hi,
      fun hnone => ?_⟩
    cases hr : getMethod t topic with
    | zero => rfl
    | succ i => exact absurd ((getMethod_segments ht topic i).mp hr) (hnone i)
  · rcases subscribeFrom_topics b _ _ p hp with h | ⟨i, hi, hid, htopic, hlen⟩
    · exact absurd h (by simp)
    · refine ⟨i, hid, htopic, dispatched (by omega) ?_⟩
      rw [htopic]
      exact getMethod_topic ht ht.name hi _ _
  · refine dispatched hlen ?_
    rw [Sender.topic, hmethods]
    exact getMethod_topic ht hto hi _ _

/-- The bus connection of the program, at the broker. -/
def sipTransport : Transport where
  name := str "Sip"
  methods := sipMethods
  host := str "home"
  port := 1883

lemma sipTransport_named : sipTransport.Named := by
  constructor <;> decide

/-- A call of `info` from a peer. -/
theorem topic_dispatch_info :
    ∃ r mem, getMethodAt sipMethods (str "Route/info/peer/4711") 20 = .ok (r, mem) ∧
      mem.length = 20 ∧ (∀ i, NamesMethod sipMethods (str "Route/info/peer/4711") i → r = i + 1) ∧
      ((∀ i, ¬ NamesMethod sipMethods (str "Route/info/peer/4711") i) → r = 0) :=
  (topic_dispatch sipTransport_named).1 (str "Route/info/peer/4711") (by decide)

/-- **A NUL byte hides the rest of the segment**: the topic is dispatched to `info`, though its
second segment is longer. -/
theorem nul_in_method :
    ¬ ∀ (t : Transport) (topic : Str) (i : ℕ), t.Named → topic.length < 65536 →
      Dispatched t topic i → (topic.splitOn 47).getD 1 [] = t.methods.getD i [] := by
  intro h
  have hdispatched : Dispatched sipTransport (str "Route/info" ++ 0 :: str "x/peer/4711") 5 :=
    ⟨_, rfl⟩
  exact absurd (h _ _ _ sipTransport_named (by decide) hdispatched) (by decide)

end SipEcho
