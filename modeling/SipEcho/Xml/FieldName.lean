import SipEcho.Lib.Block
import SipEcho.Map.Delete
import SipEcho.Xml.Print

/-!
`normal_field_name` in the memory of its caller.  Where more than three underscores stand in front
of a character, one colon is written for three of them, and the loop goes back to read the others
again.

* `nameTurn`, `normalFieldNameAt`: the loop, with the indices for its pointers;
* `runsFrom`: the characters of an identifier, each with the underscores in front of it;
* `normalFieldNameAt_ends`: **the loop ends**, and writes what `normalFieldName` says;
* `normal_field_name_spec`: which is one colon for every three underscores, and no more characters
  than the identifier has.
-/

namespace SipEcho

open Lib

/-! ### The code -/

/-- The variables of the loop: how far `in` and `out` have come, and `i`. -/
structure NameState where
  pos : ℕ
  i : ℕ
  mem : Str
  out : ℕ
  deriving DecidableEq, Repr

/-- `*out++ = c`. -/
def NameState.put (s : NameState) (c : UInt8) : Except Fault NameState := do
  let mem ← store .crash s.mem s.out c
  return { s with mem, out := s.out + 1 }

/-- What is written for up to three underscores. -/
def nameSeparator (s : NameState) : Except Fault NameState :=
  if s.i = 1 then s.put 95 else if s.i = 2 then s.put 45 else if s.i = 3 then s.put 58
  else return s

/-- One turn of the loop; the string ends with a NUL. -/
def nameTurn (name : Str) (s : NameState) : Except Fault NameState := do
  let c ← load .crash (name ++ [0]) s.pos
  if c = 95 then return { s with pos := s.pos + 1, i := s.i + 1 }
  else if 3 < s.i then do
    let s ← s.put 58
    -- the underscores that are left are read again
    return { s with pos := s.pos - (s.i - 3), i := 0 }
  else do
    let s ← nameSeparator s
    let s ← s.put c
    return { s with pos := s.pos + 1, i := 0 }

/-- `normal_field_name`: the length it returns, and the memory it leaves. -/
def normalFieldNameAt (name : Str) : ℕ → NameState → Except Fault (ℕ × Str)
  | 0, _ => throw .fuel
  | fuel + 1, s => do
      let s ← nameTurn name s
      let c ← load .crash (name ++ [0]) s.pos
      if c ≠ 0 then normalFieldNameAt name fuel s
      else do
        let mem ← store .crash s.mem s.out c
        return (s.out, mem)

/-! ### Runs of underscores -/

/-- The characters other than `_`, each with the number of underscores in front of it; `i` of them
have been read. -/
def runsFrom : ℕ → Str → List (ℕ × UInt8)
  | _, [] => []
  | i, c :: rest => if c = 95 then runsFrom (i + 1) rest else (i, c) :: runsFrom 0 rest

/-- The underscores at the end. -/
def trailing : ℕ → Str → ℕ
  | i, [] => i
  | i, c :: rest => if c = 95 then trailing (i + 1) rest else trailing 0 rest

/-- The identifier with these runs. -/
def spelled (runs : List (ℕ × UInt8)) : Str :=
  runs.flatMap fun r => List.replicate r.1 95 ++ [r.2]

/-- What takes the place of `k` underscores: a colon for every three, and `_` or `-` for the one or
two left over. -/
def separator (k : ℕ) : Str :=
  List.replicate (k / 3) 58 ++ if k % 3 = 1 then [95] else if k % 3 = 2 then [45] else []

/-- The name with these runs. -/
def mangled (runs : List (ℕ × UInt8)) : Str := runs.flatMap fun r => separator r.1 ++ [r.2]

lemma mangle_eq (k : ℕ) : mangle k = separator k := by
  induction k using Nat.strong_induction_on with
  | _ k ih =>
      match k with
      | 0 => rfl
      | 1 => rfl
      | 2 => rfl
      | k + 3 =>
          rw [mangle, ih k (by omega), separator, separator, Nat.add_mod_right,
            show (k + 3) / 3 = k / 3 + 1 by omega, List.replicate_succ]
          rfl

/-- What the tree of a message has for a name, by its runs. -/
lemma normalFieldNameLoop_eq (i : ℕ) (rest : Str) :
    normalFieldNameLoop i rest = mangled (runsFrom i rest) := by
  induction rest generalizing i with
  | nil => rfl
  | cons c rest ih =>
      rw [normalFieldNameLoop, runsFrom]
      by_cases hc : c = 95
      · rw [if_pos hc, if_pos hc, ih]
      · rw [if_neg hc, if_neg hc, ih, mangle_eq, mangled, mangled, List.flatMap_cons,
          List.append_assoc, List.singleton_append]

/-- **An identifier is its runs**, and the underscores at its end. -/
lemma spelled_runsFrom (i : ℕ) (rest : Str) :
    spelled (runsFrom i rest) ++ List.replicate (trailing i rest) 95 =
      List.replicate i 95 ++ rest := by
  induction rest generalizing i with
  | nil => simp [runsFrom, trailing, spelled]
  | cons c rest ih =>
      rw [runsFrom, trailing]
      by_cases hc : c = 95
      · rw [if_pos hc, if_pos hc, ih, hc, List.replicate_succ', List.append_assoc]
        rfl
      · rw [if_neg hc, if_neg hc, spelled, List.flatMap_cons, List.append_assoc]
        show _ ++ (spelled (runsFrom 0 rest) ++ _) = _
        rw [ih]
        simp

lemma runsFrom_ne (i : ℕ) (rest : Str) : ∀ r ∈ runsFrom i rest, r.2 ≠ 95 := by
  induction rest generalizing i with
  | nil => simp [runsFrom]
  | cons c rest ih =>
      rw [runsFrom]
      by_cases hc : c = 95
      · rw [if_pos hc]
        exact ih (i + 1)
      · rw [if_neg hc]
        intro r hr
        rcases List.mem_cons.mp hr with rfl | hr
        · exact hc
        · exact ih 0 r hr

lemma length_separator_le (k : ℕ) : (separator k).length ≤ k := by
  rw [separator, List.length_append, List.length_replicate]
  split_ifs <;> simp <;> omega

/-- A name is not longer than its identifier. -/
lemma length_mangled_le (runs : List (ℕ × UInt8)) :
    (mangled runs).length ≤ (spelled runs).length := by
  induction runs with
  | nil => simp [mangled]
  | cons r runs ih =>
      have h := length_separator_le r.1
      rw [mangled, spelled] at ih ⊢
      simp only [List.flatMap_cons, List.length_append, List.length_replicate,
        List.length_singleton]
      omega

/-! ### The loop -/

section Loop

variable {name mem pre w rest : Str} {i : ℕ} {c : UInt8}

/-- The loop behind `pre` and `i` underscores, with `w` written. -/
def nameState (mem pre : Str) (i : ℕ) (w : Str) : NameState :=
  ⟨pre.length + i, i, overlay mem w, w.length⟩

/-- What is behind that is `rest`, and there is room. -/
structure NamePlace (name mem pre : Str) (i : ℕ) (w rest : Str) : Prop where
  name_eq : name = pre ++ List.replicate i 95 ++ rest
  written : w.length ≤ pre.length
  room : name.length < mem.length

lemma put_eq (hw : w.length < mem.length) (pos : ℕ) (c : UInt8) :
    (⟨pos, i, overlay mem w, w.length⟩ : NameState).put c =
      .ok ⟨pos, i, overlay mem (w ++ [c]), (w ++ [c]).length⟩ := by
  rw [NameState.put, store_overlay hw, List.length_append]
  rfl

namespace NamePlace

lemma get (h : NamePlace name mem pre i w rest) :
    load Fault.crash (name ++ [0]) (nameState mem pre i w).pos = .ok (rest.headD 0) := by
  refine load_eq ?_
  rw [h.name_eq, nameState, List.append_assoc,
    List.getElem?_append_right (by rw [List.length_append, List.length_replicate]),
    List.length_append, List.length_replicate, Nat.sub_self]
  cases rest <;> rfl

lemma get_cons (h : NamePlace name mem pre i w (c :: rest)) :
    load Fault.crash (name ++ [0]) (nameState mem pre i w).pos = .ok c := h.get

lemma length_eq (h : NamePlace name mem pre i w rest) :
    name.length = pre.length + i + rest.length := by
  rw [h.name_eq, List.length_append, List.length_append, List.length_replicate]

/-- Behind one more underscore. -/
lemma skip (h : NamePlace name mem pre i w (95 :: rest)) :
    NamePlace name mem pre (i + 1) w rest := by
  refine ⟨?_, h.written, h.room⟩
  rw [h.name_eq, List.replicate_succ']
  simp

/-- Behind another character. -/
lemma take (h : NamePlace name mem pre i w (c :: rest)) :
    NamePlace name mem (pre ++ List.replicate i 95 ++ [c]) 0 (w ++ separator i ++ [c]) rest := by
  refine ⟨?_, ?_, h.room⟩
  · rw [h.name_eq]
    simp
  · have h1 := h.written
    have h2 := length_separator_le i
    simp only [List.length_append, List.length_replicate, List.length_singleton]
    omega

/-- Back behind three of the underscores. -/
lemma back (h : NamePlace name mem pre i w rest) (hi : 3 < i) :
    NamePlace name mem (pre ++ List.replicate 3 95) 0 (w ++ [58])
      (List.replicate (i - 3) 95 ++ rest) := by
  refine ⟨?_, ?_, h.room⟩
  · rw [h.name_eq, show i = 3 + (i - 3) by omega, List.replicate_add]
    simp
  · have := h.written
    simp only [List.length_append, List.length_replicate, List.length_singleton]
    omega

end NamePlace

/-- An underscore is counted. -/
lemma nameTurn_skip (h : NamePlace name mem pre i w (95 :: rest)) :
    nameTurn name (nameState mem pre i w) = .ok (nameState mem pre (i + 1) w) := by
  rw [nameTurn, h.get_cons]
  rfl

/-- Another character is written, behind what takes the place of the underscores. -/
lemma nameTurn_take (h : NamePlace name mem pre i w (c :: rest)) (hc : c ≠ 95) (hi : i ≤ 3) :
    nameTurn name (nameState mem pre i w) = .ok (nameState mem
      (pre ++ List.replicate i 95 ++ [c]) 0 (w ++ separator i ++ [c])) := by
  have h1 := h.written
  have h2 := h.length_eq
  have h3 := h.room
  rw [List.length_cons] at h2
  have hpre : nameSeparator (nameState mem pre i w) =
      .ok (nameState mem pre i (w ++ separator i)) := by
    interval_cases i
    · rw [separator]
      simp
      rfl
    · exact put_eq (by omega) _ _
    · exact put_eq (by omega) _ _
    · exact put_eq (by omega) _ _
  have hlen : (w ++ separator i).length < mem.length := by
    have := length_separator_le i
    rw [List.length_append]
    omega
  rw [nameTurn, h.get_cons]
  simp only [bind, Except.bind]
  have hsmall : ¬ 3 < (nameState mem pre i w).i := by
    simp only [nameState]
    omega
  rw [if_neg hc, if_neg hsmall, hpre]
  simp only
  rw [show (nameState mem pre i (w ++ separator i)).put c = _ from put_eq hlen _ c]
  simp only [nameState, pure, Except.pure, List.length_append, List.length_replicate,
    List.length_singleton]

/-- A colon is written, and the loop goes back. -/
lemma nameTurn_back (h : NamePlace name mem pre i w (c :: rest)) (hc : c ≠ 95) (hi : 3 < i) :
    nameTurn name (nameState mem pre i w) =
      .ok (nameState mem (pre ++ List.replicate 3 95) 0 (w ++ [58])) := by
  have h1 := h.written
  have h2 := h.length_eq
  have h3 := h.room
  rw [nameTurn, h.get_cons]
  simp only [bind, Except.bind]
  rw [if_neg hc, if_pos (show 3 < (nameState mem pre i w).i from hi)]
  rw [show (nameState mem pre i w).put 58 = _ from put_eq (by omega) _ 58]
  simp only [nameState, pure, Except.pure, List.length_append, List.length_replicate]
  rw [show pre.length + i - (i - 3) = pre.length + 3 + 0 by omega]

/-- The turn is over: either the string is, or the next turn begins. -/
lemma nameLoop_next {s : NameState} {res : ℕ × Str} (h0 : 0 ∉ name)
    (hturn : nameTurn name s = .ok (nameState mem pre i w))
    (h : NamePlace name mem pre i w rest)
    (hend : rest = [] → res = (w.length, overlay mem (w ++ [0])))
    (hmore : rest ≠ [] → Ends (normalFieldNameAt name) (nameState mem pre i w) res) :
    Ends (normalFieldNameAt name) s res := by
  have hget := h.get
  cases rest with
  | nil =>
      rw [hend rfl]
      refine Ends.last fun fuel => ?_
      have h1 := h.written
      have h2 := h.length_eq
      have h3 := h.room
      rw [normalFieldNameAt, hturn]
      simp only [bind, Except.bind, hget, List.headD_nil]
      rw [if_neg (by simp), show (nameState mem pre i w).mem = overlay mem w from rfl,
        show (nameState mem pre i w).out = w.length from rfl, store_overlay (by omega)]
      rfl
  | cons c rest =>
      refine (hmore (by simp)).turn fun fuel => ?_
      have hc : c ≠ 0 := by
        rintro rfl
        exact h0 (by rw [h.name_eq]; simp)
      rw [normalFieldNameAt, hturn]
      simp only [bind, Except.bind, hget, List.headD_cons]
      rw [if_pos hc]

/-- Underscores are read again. -/
lemma nameLoop_skip {res : ℕ × Str} (h0 : 0 ∉ name) (k : ℕ) (hrest : rest ≠ [])
    (h : NamePlace name mem pre i w (List.replicate k 95 ++ rest))
    (hmore : Ends (normalFieldNameAt name) (nameState mem pre (i + k) w) res) :
    Ends (normalFieldNameAt name) (nameState mem pre i w) res := by
  induction k generalizing i with
  | zero => exact hmore
  | succ k ih =>
      rw [List.replicate_succ, List.cons_append] at h
      refine nameLoop_next h0 (nameTurn_skip h) h.skip (fun hnil => ?_) fun _ => ?_
      · exact absurd hnil (by simp [hrest])
      · refine ih h.skip ?_
        rwa [show i + 1 + k = i + (k + 1) by omega]

/-- **The loop ends**, and what it writes are the runs of underscores, mangled. -/
lemma normalFieldNameAt_ends (h0 : 0 ∉ name) (h : NamePlace name mem pre i w rest)
    (hrest : rest ≠ []) :
    Ends (normalFieldNameAt name) (nameState mem pre i w)
      ((w ++ mangled (runsFrom i rest)).length,
        overlay mem (w ++ mangled (runsFrom i rest) ++ [0])) := by
  -- by the length of what is left, and for a run that is read again, by its length
  induction hn : rest.length using Nat.strong_induction_on generalizing pre i w rest with
  | _ n ih =>
      subst hn
      cases rest with
      | nil => exact absurd rfl hrest
      | cons c rest =>
          by_cases hc : c = 95
          · subst hc
            rw [runsFrom, if_pos rfl]
            refine nameLoop_next h0 (nameTurn_skip h) h.skip (fun hnil => ?_) fun hne => ?_
            · rw [hnil]
              simp [runsFrom, mangled]
            · exact ih rest.length (by simp) h.skip hne rfl
          · induction hi : i using Nat.strong_induction_on generalizing pre i w with
            | _ m ihi =>
                subst hi
                by_cases hlarge : 3 < i
                · -- one colon, and `i - 3` underscores to read again
                  have hback := h.back hlarge
                  have hskip : NamePlace name mem (pre ++ List.replicate 3 95) (i - 3) (w ++ [58])
                      (c :: rest) :=
                    ⟨by rw [hback.name_eq]; simp, hback.written, hback.room⟩
                  have hres : w ++ mangled (runsFrom i (c :: rest)) =
                      w ++ [58] ++ mangled (runsFrom (i - 3) (c :: rest)) := by
                    have hsep : separator i = 58 :: separator (i - 3) := by
                      rw [← mangle_eq, ← mangle_eq, show i = i - 3 + 3 by omega, mangle]
                      rfl
                    rw [runsFrom, runsFrom, if_neg hc, if_neg hc, mangled, mangled,
                      List.flatMap_cons, List.flatMap_cons, hsep]
                    simp
                  rw [hres]
                  refine nameLoop_next h0 (nameTurn_back h hc hlarge) hback (fun hnil => ?_)
                    fun _ => ?_
                  · exact absurd hnil (by simp)
                  · refine nameLoop_skip h0 (i - 3) (by simp) hback ?_
                    rw [Nat.zero_add]
                    exact ihi (i - 3) (by omega) hskip (by simp)
                · have hres : w ++ mangled (runsFrom i (c :: rest)) =
                      w ++ separator i ++ [c] ++ mangled (runsFrom 0 rest) := by
                    rw [runsFrom, if_neg hc, mangled, mangled, List.flatMap_cons]
                    simp
                  rw [hres]
                  refine nameLoop_next h0 (nameTurn_take h hc (by omega)) h.take (fun hnil => ?_)
                    fun hne => ?_
                  · rw [hnil]
                    simp [runsFrom, mangled]
                  · exact ih rest.length (by simp) h.take hne rfl

end Loop

/-- **`normal_field_name`** of an identifier, into memory with room for it and a NUL: it ends, and
writes the identifier with each run of underscores that another character follows replaced by its
separator, and a NUL behind; that is no longer than the identifier, and is what the tree of a
message has for a name. -/
theorem normal_field_name_spec (name mem : Str) (hne : name ≠ []) (h0 : 0 ∉ name)
    (hroom : name.length < mem.length) :
    ∃ runs t, (∀ r ∈ runs, r.2 ≠ 95) ∧ name = spelled runs ++ List.replicate t 95 ∧
      (mangled runs).length ≤ name.length ∧ mangled runs = normalFieldName name ∧
      Ends (normalFieldNameAt name) ⟨0, 0, mem, 0⟩
        ((mangled runs).length, overlay mem (mangled runs ++ [0])) := by
  have hspelled := spelled_runsFrom 0 name
  rw [List.replicate_zero, List.nil_append] at hspelled
  refine ⟨runsFrom 0 name, trailing 0 name, runsFrom_ne 0 name, hspelled.symm, ?_,
    (normalFieldNameLoop_eq 0 name).symm, ?_⟩
  · have h1 := length_mangled_le (runsFrom 0 name)
    have h2 := congrArg List.length hspelled
    rw [List.length_append] at h2
    omega
  · have h : NamePlace name mem [] 0 [] name := ⟨by simp, le_rfl, hroom⟩
    exact normalFieldNameAt_ends h0 h hne

/-- `a____b_c__`. -/
theorem normal_field_name_sample :
    ∃ runs t, (∀ r ∈ runs, r.2 ≠ 95) ∧
      ([97, 95, 95, 95, 95, 98, 95, 99, 95, 95] : Str) = spelled runs ++ List.replicate t 95 ∧
      (mangled runs).length ≤ 10 ∧
      mangled runs = normalFieldName [97, 95, 95, 95, 95, 98, 95, 99, 95, 95] ∧
      Ends (normalFieldNameAt [97, 95, 95, 95, 95, 98, 95, 99, 95, 95])
        ⟨0, 0, List.replicate 11 0, 0⟩
        ((mangled runs).length, overlay (List.replicate 11 0) (mangled runs ++ [0])) :=
  normal_field_name_spec [97, 95, 95, 95, 95, 98, 95, 99, 95, 95] (List.replicate 11 0) (by decide)
    (by decide) (by decide)

end SipEcho
