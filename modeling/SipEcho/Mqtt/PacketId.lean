import Mathlib.Order.Interval.Finset.Nat
import SipEcho.Lib.Cycle
import SipEcho.Lib.Loop

/-!
`__mqtt_next_pid`: the packet ids of a client, from a shift register that passes over the ids of
the messages in the queue.

* `lfsr_cycles`: the register goes through all the `65535` ids that are not zero before it comes
  back to one, which is seen from its columns by repeated squaring;
* `mqttNextPid_turns`, `mqttNextPid_isSome`: what a call passes over, and that it ends;
* `packet_ids`: **over any run of calls** no id is zero or in the queue, and none is given out again
  before every other one has been given out or passed over.
-/

namespace SipEcho

open Lib Function

/-- A turn of the register; `0xB400` are its taps. -/
def lfsrStep (pidLfsr : ℕ) : ℕ :=
  if pidLfsr &&& 1 = 1 then pidLfsr >>> 1 ^^^ 46080 else pidLfsr >>> 1

/-- The body of the loop, among messages with the ids `used`. -/
def nextPidTurn (used : List ℕ) (pidLfsr : ℕ) : Turn ℕ :=
  let pidLfsr := lfsrStep pidLfsr
  if pidLfsr ∈ used then .again pidLfsr else .stop pidLfsr

/-- The register before the first turn. -/
def seeded (pidLfsr : ℕ) : ℕ := if pidLfsr = 0 then 163 else pidLfsr

/-- `__mqtt_next_pid`, with at most `fuel` turns of its loop; the id is the new `pid_lfsr`. -/
def mqttNextPid (fuel : ℕ) (used : List ℕ) (pidLfsr : ℕ) : Option ℕ :=
  spin (nextPidTurn used) fuel (seeded pidLfsr)

/-- The ids of successive calls, each among the messages of its time. -/
def nextPids (fuel : ℕ) : List (List ℕ) → ℕ → Option (List ℕ)
  | [], _ => some []
  | used :: useds, pidLfsr => do
      let packetId ← mqttNextPid fuel used pidLfsr
      let packetIds ← nextPids fuel useds packetId
      return packetId :: packetIds

/-! ### The register -/

/-- The ids there are. -/
abbrev packetIds : Finset ℕ := Finset.Ioo 0 65536

lemma card_packetIds : packetIds.card = 65535 := by
  rw [Nat.card_Ioo]

lemma lfsrStep_xor (u v : ℕ) : lfsrStep (u ^^^ v) = lfsrStep u ^^^ lfsrStep v := by
  have hbit : ((u ^^^ v) &&& 1 = 1) ↔ ¬ ((u &&& 1 = 1) ↔ (v &&& 1 = 1)) := by
    simp only [Nat.and_one_is_mod]
    exact Nat.xor_mod_two_eq_one
  rw [lfsrStep, lfsrStep, lfsrStep, Nat.shiftRight_xor_distrib]
  by_cases hu : u &&& 1 = 1 <;> by_cases hv : v &&& 1 = 1
  · rw [if_neg (by rw [hbit]; tauto), if_pos hu, if_pos hv,
      show ∀ a b c : ℕ, a ^^^ c ^^^ (b ^^^ c) = a ^^^ b ^^^ (c ^^^ c) by intros; ac_rfl,
      Nat.xor_self, Nat.xor_zero]
  · rw [if_pos (by rw [hbit]; tauto), if_pos hu, if_neg hv]
    ac_rfl
  · rw [if_pos (by rw [hbit]; tauto), if_neg hu, if_pos hv, Nat.xor_assoc]
  · rw [if_neg (by rw [hbit]; tauto), if_neg hu, if_neg hv]

/-- The register keeps to the ids. -/
lemma lfsrStep_mem {v : ℕ} (hv : v ∈ packetIds) : lfsrStep v ∈ packetIds := by
  obtain ⟨hpos, hlt⟩ := Finset.mem_Ioo.mp hv
  have hhalf : v >>> 1 = v / 2 := Nat.shiftRight_eq_div_pow v 1
  have hodd : v &&& 1 = v % 2 := Nat.and_one_is_mod v
  rw [Finset.mem_Ioo, lfsrStep, hhalf, hodd]
  split
  · refine ⟨Nat.pos_of_ne_zero fun h => ?_, Nat.xor_lt_two_pow (n := 16) (by omega) (by omega)⟩
    have hself : v / 2 = 46080 := by
      calc v / 2 = v / 2 ^^^ 46080 ^^^ 46080 := by rw [Nat.xor_assoc, Nat.xor_self, Nat.xor_zero]
        _ = 46080 := by rw [h, Nat.zero_xor]
    omega
  · omega

/-- The columns of the register. -/
def lfsrColumns : List ℕ := (List.range 16).map fun i => lfsrStep (2 ^ i)

/-- **The state after any number of turns**, computed from the columns. -/
lemma lfsrStep_iterate {n : ℕ} (hn : n < 65536) :
    lfsrStep^[n] 1 = iterateColumns 16 lfsrColumns n 1 := by
  rw [iterateColumns_eq hn]
  clear hn
  have hmem : ∀ i, lfsrStep^[i] 1 ∈ packetIds :=
    iterate_mem_of_maps (fun _ => lfsrStep_mem) (by decide)
  induction n with
  | zero => rfl
  | succ n ih =>
      rw [iterate_succ_apply', iterate_succ_apply', ← ih]
      exact (combine_eq lfsrStep_xor (Finset.mem_Ioo.mp (hmem n)).2).symm

/-- The period of the register is as long as it can be. -/
lemma lfsrStep_minimalPeriod : minimalPeriod lfsrStep 1 = 65535 := by
  have hiter : ∀ n < 65536, IsPeriodicPt lfsrStep n 1 ↔
      iterateColumns 16 lfsrColumns n 1 = 1 := by
    intro n hn
    rw [IsPeriodicPt, IsFixedPt, lfsrStep_iterate hn]
  refine minimalPeriod_eq_of_prime ?_ fun p hp hdvd => ?_
  · rw [hiter _ (by decide)]
    decide +kernel
  · have hfactors : p = 3 ∨ p = 5 ∨ p = 17 ∨ p = 257 := by
      rw [show 65535 = 3 * (5 * (17 * 257)) from rfl, hp.dvd_mul, hp.dvd_mul, hp.dvd_mul,
        Nat.prime_dvd_prime_iff_eq hp (by norm_num), Nat.prime_dvd_prime_iff_eq hp (by norm_num),
        Nat.prime_dvd_prime_iff_eq hp (by norm_num),
        Nat.prime_dvd_prime_iff_eq hp (by norm_num)] at hdvd
      exact hdvd
    rcases hfactors with rfl | rfl | rfl | rfl
    all_goals
      rw [hiter _ (by decide)]
      decide +kernel

/-- **The register goes through all ids.** -/
theorem lfsr_cycles : Cycles lfsrStep packetIds :=
  Cycles.of_minimalPeriod (fun _ => lfsrStep_mem) (x := 1) (by decide)
    (by rw [lfsrStep_minimalPeriod, card_packetIds])

/-! ### A call -/

lemma nextPidTurn_again {used : List ℕ} {v : ℕ} (h : lfsrStep v ∈ used) :
    nextPidTurn used v = .again (lfsrStep v) := if_pos h

lemma nextPidTurn_stop {used : List ℕ} {v : ℕ} (h : lfsrStep v ∉ used) :
    nextPidTurn used v = .stop (lfsrStep v) := if_neg h

/-- What a call passes over: the ids of messages in the queue, until one is free. -/
lemma nextPidLoop_turns {used : List ℕ} {fuel v p : ℕ}
    (h : spin (nextPidTurn used) fuel v = some p) :
    ∃ n, 0 < n ∧ n ≤ fuel ∧ lfsrStep^[n] v = p ∧ p ∉ used ∧
      ∀ i, 0 < i → i < n → lfsrStep^[i] v ∈ used := by
  induction fuel generalizing v with
  | zero => exact absurd h (by simp [spin])
  | succ fuel ih =>
      by_cases hused : lfsrStep v ∈ used
      · rw [spin_again (nextPidTurn_again hused)] at h
        obtain ⟨n, -, hle, hp, hfree, hall⟩ := ih h
        refine ⟨n + 1, n.succ_pos, by omega, hp, hfree, fun i hi hin => ?_⟩
        obtain ⟨i, rfl⟩ := Nat.exists_eq_succ_of_ne_zero hi.ne'
        rcases Nat.eq_zero_or_pos i with rfl | hpos
        · exact hused
        · exact hall i hpos (by omega)
      · rw [spin_stop (nextPidTurn_stop hused)] at h
        obtain rfl : lfsrStep v = p := Option.some.inj h
        exact ⟨1, one_pos, by omega, rfl, hused, fun i hi hi1 => absurd hi (by omega)⟩

/-- As long as every turn meets an id of the queue the loop goes on. -/
lemma nextPidLoop_none {used : List ℕ} {fuel v : ℕ}
    (h : spin (nextPidTurn used) fuel v = none) :
    ∀ i, 0 < i → i ≤ fuel → lfsrStep^[i] v ∈ used := by
  induction fuel generalizing v with
  | zero => exact fun i hi hi0 => absurd hi (by omega)
  | succ fuel ih =>
      intro i hi hle
      by_cases hused : lfsrStep v ∈ used
      · rw [spin_again (nextPidTurn_again hused)] at h
        obtain ⟨i, rfl⟩ := Nat.exists_eq_succ_of_ne_zero hi.ne'
        rcases Nat.eq_zero_or_pos i with rfl | hpos
        · exact hused
        · exact ih h i hpos (by omega)
      · rw [spin_stop (nextPidTurn_stop hused)] at h
        exact absurd h (by simp)

lemma seeded_mem {v : ℕ} (hv : v < 65536) : seeded v ∈ packetIds := by
  rw [Finset.mem_Ioo, seeded]
  split <;> omega

lemma seeded_of_mem {v : ℕ} (hv : v ∈ packetIds) : seeded v = v :=
  if_neg (Finset.mem_Ioo.mp hv).1.ne'

/-- **A call**: the turns it takes, and what it passes over. -/
lemma mqttNextPid_turns {used : List ℕ} {fuel v p : ℕ}
    (h : mqttNextPid fuel used v = some p) :
    ∃ n, 0 < n ∧ lfsrStep^[n] (seeded v) = p ∧ p ∉ used ∧
      ∀ i, 0 < i → i < n → lfsrStep^[i] (seeded v) ∈ used := by
  obtain ⟨n, hpos, -, hrest⟩ := nextPidLoop_turns h
  exact ⟨n, hpos, hrest⟩

/-- **The call ends** while an id is free, after one round at most. -/
lemma mqttNextPid_isSome {used : List ℕ} {v : ℕ} (hv : v < 65536) (hused : used.length < 65535) :
    ∃ p, mqttNextPid 65535 used v = some p := by
  rw [← Option.ne_none_iff_exists']
  intro h
  have hall := nextPidLoop_none h
  have hsub : packetIds ⊆ used.toFinset := by
    intro q hq
    obtain ⟨i, hi, hle, rfl⟩ := lfsr_cycles.exists_iterate (seeded_mem hv) hq
    rw [card_packetIds] at hle
    exact List.mem_toFinset.mpr (hall i hi hle)
  have hcard := Finset.card_le_card hsub
  have := used.toFinset_card_le
  rw [card_packetIds] at hcard
  omega

/-! ### A run of calls -/

/-- An id that the calls from the `i`-th to the `j`-th give out or pass over. -/
def Passed (useds : List (List ℕ)) (pids : List ℕ) (i j q : ℕ) : Prop :=
  ∃ k, i ≤ k ∧ k ≤ j ∧ (pids[k]? = some q ∨ ∃ used, useds[k]? = some used ∧ q ∈ used)

lemma Passed.succ {useds : List (List ℕ)} {pids : List ℕ} {i j q : ℕ}
    (h : Passed useds pids i j q) (used : List ℕ) (p : ℕ) :
    Passed (used :: useds) (p :: pids) (i + 1) (j + 1) q := by
  obtain ⟨k, hik, hkj, h⟩ := h
  exact ⟨k + 1, by omega, by omega, h⟩

lemma Passed.mono {useds : List (List ℕ)} {pids : List ℕ} {i i' j q : ℕ}
    (h : Passed useds pids i j q) (hi : i' ≤ i) : Passed useds pids i' j q := by
  obtain ⟨k, hik, hkj, h⟩ := h
  exact ⟨k, by omega, hkj, h⟩

lemma nextPids_cons {fuel v : ℕ} {used : List ℕ} {useds : List (List ℕ)} {pids : List ℕ}
    (h : nextPids fuel (used :: useds) v = some pids) :
    ∃ p ps, pids = p :: ps ∧ mqttNextPid fuel used v = some p ∧
      nextPids fuel useds p = some ps := by
  rw [nextPids] at h
  obtain ⟨p, hp, h⟩ := Option.bind_eq_some_iff.mp h
  obtain ⟨ps, hps, h⟩ := Option.bind_eq_some_iff.mp h
  exact ⟨p, ps, (Option.some.inj h).symm, hp, hps⟩

/-- The turns from the register to the id of a call, and what the calls up to it pass over. -/
lemma nextPids_turns {fuel v j p : ℕ} {useds : List (List ℕ)} {pids : List ℕ}
    (hv : v < 65536) (h : nextPids fuel useds v = some pids) (hj : pids[j]? = some p) :
    ∃ n, 0 < n ∧ lfsrStep^[n] (seeded v) = p ∧
      ∀ m, 0 < m → m ≤ n → Passed useds pids 0 j (lfsrStep^[m] (seeded v)) := by
  induction useds generalizing v pids j with
  | nil =>
      cases h
      exact absurd hj (by simp)
  | cons used useds ih =>
      obtain ⟨q, ps, rfl, hq, hps⟩ := nextPids_cons h
      obtain ⟨n, hpos, rfl, -, hall⟩ := mqttNextPid_turns hq
      have hfirst : ∀ m, 0 < m → m ≤ n →
          Passed (used :: useds) (lfsrStep^[n] (seeded v) :: ps) 0 j
            (lfsrStep^[m] (seeded v)) := by
        intro m hm hmn
        refine ⟨0, le_rfl, j.zero_le, ?_⟩
        rcases hmn.lt_or_eq with hlt | rfl
        · exact .inr ⟨used, rfl, hall m hm hlt⟩
        · exact .inl rfl
      cases j with
      | zero => exact ⟨n, hpos, Option.some.inj hj, hfirst⟩
      | succ j =>
          have hmem := lfsr_cycles.iterate_mem (seeded_mem hv) n
          obtain ⟨m, hm, hp, hrest⟩ := ih (Finset.mem_Ioo.mp hmem).2 hps hj
          rw [seeded_of_mem hmem] at hp hrest
          refine ⟨m + n, by omega, by rw [iterate_add_apply, hp], fun k hk hkle => ?_⟩
          rcases Nat.lt_or_ge n k with hlt | hge
          · obtain ⟨d, rfl⟩ := Nat.exists_eq_add_of_lt hlt
            have hlater := (hrest (d + 1) d.succ_pos (by omega)).succ used
              (lfsrStep^[n] (seeded v))
            rw [← iterate_add_apply, show d + 1 + n = n + d + 1 by omega] at hlater
            exact hlater.mono (Nat.zero_le _)
          · exact hfirst k hk hge

/-- The calls behind one, from the id it has given out. -/
lemma nextPids_drop {fuel v i p : ℕ} {useds : List (List ℕ)} {pids : List ℕ}
    (h : nextPids fuel useds v = some pids) (hi : pids[i]? = some p) :
    nextPids fuel (useds.drop (i + 1)) p = some (pids.drop (i + 1)) := by
  induction useds generalizing v pids i with
  | nil =>
      cases h
      exact absurd hi (by simp)
  | cons used useds ih =>
      obtain ⟨q, ps, rfl, -, hps⟩ := nextPids_cons h
      cases i with
      | zero =>
          cases hi
          exact hps
      | succ i => exact ih hps hi

lemma Passed.of_drop {useds : List (List ℕ)} {pids : List ℕ} {n j q : ℕ}
    (h : Passed (useds.drop n) (pids.drop n) 0 j q) : Passed useds pids n (n + j) q := by
  obtain ⟨k, -, hkj, h⟩ := h
  rw [List.getElem?_drop] at h
  simp only [List.getElem?_drop] at h
  exact ⟨n + k, by omega, by omega, h⟩

/-- Every call gives out an id, none of which is in its queue. -/
lemma nextPids_free {useds : List (List ℕ)} {v : ℕ} (hv : v < 65536)
    (hused : ∀ used ∈ useds, used.length < 65535) :
    ∃ pids, nextPids 65535 useds v = some pids ∧
      List.Forall₂ (fun used p => p ∈ packetIds ∧ p ∉ used) useds pids := by
  induction useds generalizing v with
  | nil => exact ⟨[], rfl, .nil⟩
  | cons used useds ih =>
      obtain ⟨p, hp⟩ := mqttNextPid_isSome hv (hused used (List.mem_cons_self ..))
      obtain ⟨n, -, rfl, hfree, -⟩ := mqttNextPid_turns hp
      have hmem := lfsr_cycles.iterate_mem (seeded_mem hv) n
      obtain ⟨ps, hps, hall⟩ := ih (Finset.mem_Ioo.mp hmem).2
        fun u hu => hused u (List.mem_cons_of_mem _ hu)
      exact ⟨_ :: ps, by rw [nextPids, hp, Option.bind_eq_bind, Option.bind_some, hps]; rfl,
        .cons ⟨hmem, hfree⟩ hall⟩

/-- **The ids of a run of calls**, while fewer messages are queued than there are ids: every call
ends, its id is neither zero nor that of a queued message, and an id comes again only after every
other has been given out or been found in the queue. -/
theorem packet_ids {useds : List (List ℕ)} {v : ℕ} (hv : v < 65536)
    (hused : ∀ used ∈ useds, used.length < 65535) :
    ∃ pids, nextPids 65535 useds v = some pids ∧
      List.Forall₂ (fun used p => p ∈ packetIds ∧ p ∉ used) useds pids ∧
      ∀ i j p, i < j → pids[i]? = some p → pids[j]? = some p →
        ∀ q ∈ packetIds, Passed useds pids (i + 1) j q := by
  obtain ⟨pids, hpids, hall⟩ := nextPids_free hv hused
  refine ⟨pids, hpids, hall, fun i j p hij hi hj q hq => ?_⟩
  have hp : p ∈ packetIds := by
    obtain ⟨n, -, rfl, -⟩ := nextPids_turns hv hpids hi
    exact lfsr_cycles.iterate_mem (seeded_mem hv) n
  obtain ⟨d, rfl⟩ := Nat.exists_eq_add_of_lt hij
  have hd : (pids.drop (i + 1))[d]? = some p := by
    rw [List.getElem?_drop, ← hj]
    congr 1
    omega
  obtain ⟨n, hpos, hn, hpassed⟩ :=
    nextPids_turns (Finset.mem_Ioo.mp hp).2 (nextPids_drop hpids hi) hd
  rw [seeded_of_mem hp] at hn hpassed
  -- back at its id the register has been everywhere
  have hround := lfsr_cycles.le_of_iterate_eq hp hpos hn
  obtain ⟨m, hm, hle, rfl⟩ := lfsr_cycles.exists_iterate hp hq
  have := (hpassed m hm (by omega)).of_drop
  rwa [show i + 1 + d = i + d + 1 by omega] at this

/-- A queue with every id but one. -/
def crowded : List ℕ := (List.range 65536).filter fun q => decide (q ≠ 0 ∧ q ≠ 46161)

lemma mem_crowded {q : ℕ} : q ∈ crowded ↔ q ∈ packetIds ∧ q ≠ 46161 := by
  rw [crowded, List.mem_filter, List.mem_range, decide_eq_true_eq, Finset.mem_Ioo]
  omega

lemma length_crowded : crowded.length < 65535 := by
  have hsub : crowded.toFinset ⊆ packetIds.erase 46161 := by
    intro q hq
    obtain ⟨hmem, hne⟩ := mem_crowded.mp (List.mem_toFinset.mp hq)
    exact Finset.mem_erase.mpr ⟨hne, hmem⟩
  have hfirst : 46161 ∈ packetIds := by
    rw [packetIds, Finset.mem_Ioo]
    omega
  have hnodup : crowded.Nodup := List.nodup_range.filter _
  have hcard := Finset.card_le_card hsub
  rw [List.toFinset_card_of_nodup hnodup,
    Finset.card_erase_of_mem hfirst, card_packetIds] at hcard
  omega

/-- A new client gives out an id, and gives it out again when every other is queued. -/
theorem packet_ids_again :
    ∃ pids, nextPids 65535 [[], crowded] 0 = some pids ∧ pids = [46161, 46161] ∧
      ∀ q ∈ packetIds, Passed [[], crowded] pids 1 1 q := by
  have hused : ∀ used ∈ [[], crowded], used.length < 65535 :=
    List.forall_mem_cons.mpr ⟨by decide, List.forall_mem_singleton.mpr length_crowded⟩
  obtain ⟨pids, hpids, hfree, hagain⟩ := packet_ids (show 0 < 65536 by decide) hused
  obtain ⟨p, ps, rfl, hp, -⟩ := nextPids_cons hpids
  have hfirst : mqttNextPid 65535 [] 0 = some 46161 := by decide +kernel
  obtain rfl := Option.some.inj (hfirst.symm.trans hp)
  obtain ⟨-, hrest⟩ := List.forall₂_cons.mp hfree
  obtain ⟨q, qs, ⟨hmem, hq⟩, hqs, rfl⟩ := List.forall₂_cons_left_iff.mp hrest
  obtain rfl := List.forall₂_nil_left_iff.mp hqs
  obtain rfl : q = 46161 := by
    by_contra hne
    exact hq (mem_crowded.mpr ⟨hmem, hne⟩)
  exact ⟨_, hpids, rfl, hagain 0 1 46161 one_pos rfl rfl⟩

end SipEcho
