import SipEcho.Bridge.Message
import SipEcho.Net.SipRead
import SipEcho.Sip.Registrar

/-!
Registrations: what `aor_update` makes of the contacts of an address.

* `TurnsOf.exact`: where a message is `Proper` the turns leave all that is to be left;
* `Registered`, `update_registers`: **the law of a registration**: of equal contacts the first
  listed counts; it has one binding, or none if it is to expire, and no other binding changes;
* `wildcard_unbinds`: a contact whose user name is `*` is not accepted, but `map_pure` removes a
  binding for it;
* `updates_defined`: **no call comes to a missing string** in a run whose events are defined: not
  even where records are removed, each of which is compared with itself;
* `star_crashes`: the contact `*`, which has no URL, in a message that is not to expire.
-/

namespace SipEcho

open Lib

section Law

variable (lib : AorLib) (env : AorEnv) (indexed : Bool) (expired id : ℤ)

/-- The key of a contact equals that of a record. -/
def AorLib.Names (c : From) (y : AorRecord) : Prop :=
  ∃ x, lib.sought c = some x ∧ aorRecordCmp x y 0 = 0

/-- `aor_record_new` rejects a contact since it is to expire. -/
def Expires (c : From) : Prop :=
  c.scheme.isSome = true ∧ c.host.isSome = true ∧ ¬ c.Wild ∧ effective lib c expired = 0

/-- A contact is accepted, or is to expire. -/
def Counts (c : From × ℕ) : Prop :=
  (∃ r, aorRecordNew lib env c.2 c.1 expired id = some r) ∨ Expires lib expired c.1

/-- A contact that is rejected for another reason equals nothing at its turn. -/
def RejectsNothing (xs : List AorRecord) : List (From × ℕ) → Prop
  | [] => True
  | c :: cs => RejectsNothing xs cs ∧ (¬ Counts lib env expired id c →
      ∀ y, Bound lib env indexed expired id xs cs y → ¬ lib.Names c.1 y)

/-- **When a message is a proper registration**: if it lists a contact, its expiry is not the
sentinel and the map has its index; no contact erases the map; no search comes to a missing string;
a contact that is rejected, other than to expire, equals nothing at its turn; and there is memory
for the others. -/
structure Proper (xs : List AorRecord) (cs : List (From × ℕ)) : Prop where
  expiry : cs ≠ [] → expired ≠ -1
  keeps : ∀ c ∈ cs, ¬ Erases expired c.1
  hasIndex : cs ≠ [] → indexed = true
  readable : AllReadable lib env indexed expired id xs cs
  rejected : RejectsNothing lib env indexed expired id xs cs
  memory : ∀ c ∈ cs, ∀ r, aorRecordNew lib env c.2 c.1 expired id = some r → env.Stores c.2

/-- **The law of a registration** that finds the records `xs` and leaves `ys`. -/
structure Registered (xs : List AorRecord) (cs : List (From × ℕ)) (ys : List AorRecord) : Prop where
  /-- A binding that equals no contact that counts is as it was. -/
  untouched : ∀ y, (∀ c ∈ cs, Counts lib env expired id c → ¬ lib.Names c.1 y) →
    (y ∈ ys ↔ y ∈ xs)
  /-- An accepted contact, the first listed of its equals, has exactly one binding. -/
  bound : ∀ cs₁ c cs₂ r, cs = cs₁ ++ c :: cs₂ → aorRecordNew lib env c.2 c.1 expired id = some r →
    (∀ d ∈ cs₁, Counts lib env expired id d → ¬ lib.Names d.1 r) →
    ∃ ys₁ y ys₂, ys = ys₁ ++ y :: ys₂ ∧ (∀ z ∈ ys₁ ++ ys₂, ¬ lib.Names c.1 z) ∧
      lib.Names c.1 y ∧ y.contact = c.1 ∧ y.id = id ∧
      y.expired = env.time + valueOr (lib.byname c.1.genParams (str "expires")) expired
  /-- A contact that is to expire, the first listed of its equals, has no binding. -/
  unbound : ∀ cs₁ c cs₂ x, cs = cs₁ ++ c :: cs₂ → Expires lib expired c.1 →
    lib.sought c.1 = some x → (∀ d ∈ cs₁, Counts lib env expired id d → ¬ lib.Names d.1 x) →
    ∀ y ∈ ys, ¬ lib.Names c.1 y

variable {lib env indexed expired id} {xs ys zs : List AorRecord} {cs : List (From × ℕ)}

lemma Names.of_record {c : From × ℕ} {r : AorRecord}
    (hr : aorRecordNew lib env c.2 c.1 expired id = some r) (y : AorRecord) :
    lib.Names c.1 y ↔ aorRecordCmp r y 0 = 0 := by
  obtain ⟨-, x, hx, rfl⟩ := (aorRecordNew_eq_some lib env).mp hr
  rw [AorLib.Names, hx]
  simp only [Option.some.injEq, exists_eq_left']
  rfl

lemma Names.of_sought {c : From} {x : AorRecord} (hx : lib.sought c = some x) (y : AorRecord) :
    lib.Names c y ↔ aorRecordCmp x y 0 = 0 := by
  rw [AorLib.Names, hx]
  simp only [Option.some.injEq, exists_eq_left']

lemma Names.lookup {c : From} {r : AorRecord} :
    lib.Names c (aorRecordLookup lib r) ↔ lib.Names c r := by
  obtain ⟨hp, hc, -, -⟩ := aorRecordLookup_eq lib r
  simp only [AorLib.Names, (aorRecordCmp_congr hp hc _ 0).2]

/-- What an accepted contact is stored as equals it. -/
lemma StoredAs.names {c : From × ℕ} {y : AorRecord}
    (h : StoredAs lib env indexed expired id c y) : lib.Names c.1 y := by
  obtain ⟨r, hr, -, rfl⟩ := h
  rw [Names.lookup, Names.of_record hr]
  exact aorRecordCmp_comparator.refl r

lemma StoredAs.counts {c : From × ℕ} {y : AorRecord}
    (h : StoredAs lib env indexed expired id c y) : Counts lib env expired id c := by
  obtain ⟨r, hr, -⟩ := h
  exact Or.inl ⟨r, hr⟩

lemma Counts.not_wild {c : From × ℕ} (h : Counts lib env expired id c) : ¬ c.1.Wild := by
  rcases h with ⟨r, hr⟩ | ⟨-, -, hw, -⟩
  · exact ((aorRecordNew_eq_some lib env).mp hr).1.2.2.1
  · exact hw

/-- A message whose contacts all count rejects none. -/
lemma rejectsNothing_of_counts (hcs : ∀ c ∈ cs, Counts lib env expired id c) :
    RejectsNothing lib env indexed expired id xs cs := by
  induction cs with
  | nil => trivial
  | cons c cs ih =>
      obtain ⟨hc, hcs⟩ := List.forall_mem_cons.mp hcs
      exact ⟨ih hcs, fun hnot => absurd hc hnot⟩

namespace Proper

lemma tail {c : From × ℕ} (h : Proper lib env indexed expired id xs (c :: cs)) :
    Proper lib env indexed expired id xs cs where
  expiry _ := h.expiry (List.cons_ne_nil c cs)
  keeps d hd := h.keeps d (List.mem_cons_of_mem _ hd)
  hasIndex _ := h.hasIndex (List.cons_ne_nil c cs)
  readable := h.readable.1
  rejected := h.rejected.1
  memory d hd := h.memory d (List.mem_cons_of_mem _ hd)

/-- A turn overrides what equals its contact, if that counts, and nothing else. -/
lemma overrides_iff {c : From × ℕ} (h : Proper lib env indexed expired id xs (c :: cs))
    {y : AorRecord} (hy : Bound lib env indexed expired id xs cs y) :
    Overrides lib indexed expired c.1 y ↔ Counts lib env expired id c ∧ lib.Names c.1 y := by
  constructor
  · rintro (he | ⟨-, -, -, hnames⟩)
    · exact absurd he (h.keeps c List.mem_cons_self)
    · refine ⟨?_, hnames⟩
      by_contra hcounts
      exact h.rejected.2 hcounts y hy hnames
  · rintro ⟨hcounts, hnames⟩
    have hne := List.cons_ne_nil c cs
    exact Or.inr ⟨h.hasIndex hne, h.expiry hne, hcounts.not_wild, hnames⟩

/-- What is to be left stays so while no contact that counts equals it. -/
lemma bound_append {cs₁ : List (From × ℕ)} {y : AorRecord}
    (h : Proper lib env indexed expired id xs (cs₁ ++ cs))
    (hy : Bound lib env indexed expired id xs cs y)
    (hne : ∀ d ∈ cs₁, Counts lib env expired id d → ¬ lib.Names d.1 y) :
    Bound lib env indexed expired id xs (cs₁ ++ cs) y := by
  induction cs₁ with
  | nil => exact hy
  | cons d cs₁ ih =>
      have hold := ih h.tail fun d' hd' => hne d' (List.mem_cons_of_mem _ hd')
      refine Or.inl ⟨hold, fun hover => ?_⟩
      obtain ⟨hcounts, hnames⟩ := (overrides_iff h hold).mp hover
      exact hne d List.mem_cons_self hcounts hnames

/-- What is to be left, and was not so before, was accepted since. -/
lemma bound_of_append {cs₁ : List (From × ℕ)} {y : AorRecord}
    (hy : Bound lib env indexed expired id xs (cs₁ ++ cs) y) :
    Bound lib env indexed expired id xs cs y ∨
      ∃ d ∈ cs₁, StoredAs lib env indexed expired id d y := by
  induction cs₁ with
  | nil => exact Or.inl hy
  | cons d cs₁ ih =>
      rcases hy with ⟨hy, -⟩ | ⟨-, hstored⟩
      · rcases ih hy with hy | ⟨d', hd', hstored⟩
        · exact Or.inl hy
        · exact Or.inr ⟨d', List.mem_cons_of_mem _ hd', hstored⟩
      · exact Or.inr ⟨d, List.mem_cons_self, hstored⟩

end Proper

/-- **The turn of a proper message** leaves all that is to be left. -/
lemma TurnOf.exact {c : From × ℕ} (h : TurnOf lib env indexed expired id c.2 c.1 zs ys)
    (hproper : Proper lib env indexed expired id xs (c :: cs))
    (hzs : ∀ y, y ∈ zs ↔ Bound lib env indexed expired id xs cs y)
    (hpair : zs.Pairwise fun x y => aorRecordCmp x y 0 ≠ 0) :
    ∀ y, Bound lib env indexed expired id xs (c :: cs) y → y ∈ ys := by
  have hkeep := hproper.keeps c List.mem_cons_self
  have hne := List.cons_ne_nil c cs
  rcases h with ⟨he, -⟩ | ⟨-, ⟨hs, rfl⟩ | ⟨x, zs', hs, hpured, hpushed⟩⟩
  · exact absurd he hkeep
  · rintro y (⟨hy, -⟩ | ⟨-, hstored⟩)
    · exact (hzs y).mpr hy
    · obtain ⟨x, hx, -⟩ := hstored.names
      rw [hs] at hx
      exact absurd hx (by simp)
  · rw [if_pos (hproper.expiry hne)] at hpured
    obtain rfl := hproper.hasIndex hne
    have hwx : x.contact = c.1 := by
      obtain ⟨t, -, rfl⟩ := Option.map_eq_some_iff.mp hs
      rfl
    -- `map_pure` removes what the turn overrides
    have hleft : ∀ y ∈ zs, ¬ Overrides lib true expired c.1 y → y ∈ zs' := by
      intro y hy hover
      by_cases hcounts : Counts lib env expired id c
      · refine (hpured.gone (hwx ▸ hcounts.not_wild) hpair y).mpr ⟨hy, fun h0 => hover ?_⟩
        exact Or.inr ⟨rfl, hproper.expiry hne, hcounts.not_wild, x, hs, h0⟩
      · rcases hpured with ⟨-, xs₁, z, xs₂, rfl, hz, -⟩ | ⟨rfl, -⟩
        · refine absurd ⟨x, hs, hz⟩ (hproper.rejected.2 hcounts z ((hzs z).mp (by simp)))
        · exact hy
    rintro y (⟨hy, hover⟩ | ⟨-, r, hr, -, rfl⟩)
    · have hy' := hleft y ((hzs y).mpr hy) hover
      rcases hpushed.2 with ⟨r, -, -, rfl⟩ | ⟨rfl, -⟩
      · exact List.mem_cons_of_mem _ hy'
      · exact hy'
    · rcases hpushed.2 with ⟨r', hr', -, rfl⟩ | ⟨rfl, hnot⟩
      · obtain rfl := Option.some.inj (hr.symm.trans hr')
        exact List.mem_cons_self
      · have hcounts : Counts lib env expired id c := Or.inl ⟨r, hr⟩
        obtain ⟨hcalloc, hmalloc⟩ := hproper.memory c List.mem_cons_self r hr
        refine absurd ⟨hcalloc, hmalloc, fun y hy h0 => ?_⟩ (hnot rfl r hr)
        refine ((hpured.gone (hwx ▸ hcounts.not_wild) hpair y).mp hy).2 ?_
        rw [← Names.of_sought hs]
        exact (Names.of_record hr y).mpr h0

/-- **The turns of a proper message** leave exactly what is to be left. -/
theorem TurnsOf.exact (h : TurnsOf lib env indexed expired id xs cs ys)
    (hproper : Proper lib env indexed expired id xs cs) :
    ∀ y, y ∈ ys ↔ Bound lib env indexed expired id xs cs y := by
  induction cs generalizing ys with
  | nil =>
      intro y
      rw [show ys = xs from h]
      exact Iff.rfl
  | cons c cs ih =>
      have hsound := h.sound
      obtain ⟨zs, hzs, hpair, hturn⟩ := h
      exact fun y =>
        ⟨hsound y, hturn.exact hproper (ih hzs hproper.tail)
          (hpair (hproper.hasIndex (List.cons_ne_nil c cs))) y⟩

/-- **A proper message keeps the law.** -/
theorem TurnsOf.registered (h : TurnsOf lib env indexed expired id xs cs ys)
    (hproper : Proper lib env indexed expired id xs cs)
    (hpair : indexed = true → ys.Pairwise fun x y => aorRecordCmp x y 0 ≠ 0) :
    Registered lib env expired id xs cs ys where
  untouched := by
    intro y hne
    have hiff := h.exact hproper y
    rw [hiff]
    refine ⟨fun hy => ?_, fun hy => ?_⟩
    · rcases hy.offered with hx | ⟨c, hc, hstored⟩
      · exact hx
      · exact absurd hstored.names (hne c hc hstored.counts)
    · have hnil : Proper lib env indexed expired id xs (cs ++ []) := by rwa [List.append_nil]
      have := hnil.bound_append (y := y) hy hne
      rwa [List.append_nil] at this
  bound := by
    rintro cs₁ c cs₂ r rfl hr hne
    have hmem : c ∈ cs₁ ++ c :: cs₂ := by simp
    have hlisted := List.ne_nil_of_mem hmem
    have hpair := hpair (hproper.hasIndex hlisted)
    have hstored : StoredAs lib env indexed expired id c (aorRecordLookup lib r) :=
      ⟨r, hr, fun _ => hproper.memory c hmem r hr, rfl⟩
    have hbound : Bound lib env indexed expired id xs (cs₁ ++ c :: cs₂) (aorRecordLookup lib r) :=
      hproper.bound_append (Or.inr ⟨hproper.keeps c hmem, hstored⟩) fun d hd hcounts hnames =>
        hne d hd hcounts (Names.lookup.mp hnames)
    obtain ⟨ys₁, ys₂, rfl⟩ := List.append_of_mem ((h.exact hproper _).mpr hbound)
    refine ⟨ys₁, _, ys₂, rfl, fun z hz hnames => ?_, hstored.names, ?_⟩
    · -- two equal bindings would be equal records of the map
      have hw : ¬ r.contact.Wild := by
        have := hstored.complete.2.2
        rwa [(aorRecordLookup_eq lib r).2.1] at this
      obtain ⟨hp, hc, -, -⟩ := aorRecordLookup_eq lib r
      have hz0 : aorRecordCmp (aorRecordLookup lib r) z 0 = 0 := by
        rw [(aorRecordCmp_congr hp hc z 0).1, ← Names.of_record hr]
        exact hnames
      rw [List.pairwise_append, List.pairwise_cons] at hpair
      obtain ⟨-, ⟨hafter, -⟩, hbefore⟩ := hpair
      rcases List.mem_append.mp hz with hz | hz
      · exact hbefore z hz _ List.mem_cons_self (aorRecordCmp_symm hz0)
      · exact hafter z hz hz0
    · obtain ⟨-, hc, hid, hexp⟩ := aorRecordLookup_eq lib r
      obtain ⟨-, x, hx, rfl⟩ := (aorRecordNew_eq_some lib env).mp hr
      obtain ⟨t, -, rfl⟩ := Option.map_eq_some_iff.mp hx
      rw [hc, hid, hexp, effective, if_pos (hproper.expiry hlisted)]
      exact ⟨rfl, rfl, add_comm _ _⟩
  unbound := by
    rintro cs₁ c cs₂ x rfl hexp hx hne y hy hnames
    have hbound := (h.exact hproper y).mp hy
    have hlisted : cs₁ ++ c :: cs₂ ≠ [] := by simp
    have hcounts : Counts lib env expired id c := Or.inr hexp
    have hover : Overrides lib indexed expired c.1 y :=
      Or.inr ⟨hproper.hasIndex hlisted, hproper.expiry hlisted, hcounts.not_wild, hnames⟩
    rcases Proper.bound_of_append hbound with (⟨-, hnot⟩ | hstored) | ⟨d, hd, hstored⟩
    · exact hnot hover
    · obtain ⟨-, r, hr, -⟩ := hstored
      exact ((aorRecordNew_eq_some lib env).mp hr).1.2.2.2.1 hexp.2.2.2
    · obtain ⟨x', hx', h0⟩ := hstored.names
      refine hne d hd hstored.counts ⟨x', hx', ?_⟩
      rw [Names.of_sought hx] at hnames
      exact aorRecordCmp_trans hstored.complete.2.2 h0 (aorRecordCmp_symm hnames)

end Law

/-! ### Every reachable store -/

/-- A turn that returns had a URL, or erased the map. -/
lemma updateContact_ok {lib : AorLib} {env : AorEnv} {expired id : ℤ} {contact contact' :
    Map AorRecord} {n : ℕ} {c : From}
    (h : updateContact lib env expired id contact n c = .ok contact') :
    Erases expired c ∨ c.url.isSome = true := by
  by_contra hnot
  obtain ⟨her, hurl⟩ := not_or.mp hnot
  rw [Erases] at her
  rw [Option.not_isSome_iff_eq_none] at hurl
  rw [updateContact, if_neg her, hurl] at h
  exact absurd h (by simp [throw, throwThe, MonadExceptOf.throw])

lemma updateContacts_ok {lib : AorLib} {env : AorEnv} {expired id : ℤ}
    {contact contact' : Map AorRecord} {cs : List (From × ℕ)}
    (h : cs.reverse.foldlM (fun contact c => updateContact lib env expired id contact c.2 c.1)
      contact = .ok contact') : ∀ c ∈ cs, Erases expired c.1 ∨ c.1.url.isSome = true := by
  induction cs generalizing contact' with
  | nil => simp
  | cons c cs ih =>
      rw [List.reverse_cons, List.foldlM_append] at h
      obtain ⟨m', hm', h⟩ := ok_of_bind h
      rw [List.foldlM_cons] at h
      obtain ⟨m'', hm'', -⟩ := ok_of_bind h
      exact List.forall_mem_cons.mpr ⟨updateContact_ok hm'', ih hm'⟩

/-- **No call comes to a missing string** in a run whose events are defined; and a call for a known
address that returns found a URL in every contact that does not erase the map. -/
theorem updates_defined (lib : AorLib) :
    (∀ evs, (evs.map AorEvent.weight).sum < 2 ^ 49 →
      Throughout lib (fun aors ev => ev.Defined lib aors) aorInit evs →
      ∃ aors l, aorEvents lib aorInit evs = .ok aors ∧
        Registrar (evs.map AorEvent.weight).sum aors l) ∧
    ∀ evs aors env m expired id a, aorEvents lib aorInit evs = .ok aors → Updates aors m a →
      (∃ res, aorUpdate lib env aors m expired id = .ok res) →
      ∀ c ∈ m.contacts, Erases (lib.expiry m expired) c ∨ c.url.isSome = true := by
  refine ⟨fun evs hsize hdef => ?_, fun evs aors env m expired id a hrun hu hok c hc => ?_⟩
  · obtain ⟨aors, hok, l, hl⟩ := (Registrar.init.run evs).returns (by
      rintro (hbig | hnot)
      · omega
      · exact hnot hdef)
    exact ⟨aors, l, hok, hl.mono (by omega)⟩
  · obtain ⟨res, hok⟩ := hok
    rw [aorUpdate_updates hu] at hok
    obtain ⟨contact, hcontact, -⟩ := ok_of_bind hok
    obtain ⟨n, hn⟩ := List.mem_iff_getElem?.mp hc
    exact updateContacts_ok hcontact (c, n) (List.mem_zipIdx_iff_getElem?.mpr hn)

section Example

/-- Every allocation succeeds, at time 0. -/
def plainEnv : AorEnv := ⟨0, true, true, fun _ => true, fun _ => allAlloc, allAlloc⟩

/-- A contact over UDP. -/
def udpContact (user host : String) : From :=
  { url := some (sipUri user host [⟨some (str "transport"), some (str "udp")⟩]) }

/-- A valid message of `sip:a@h` with contacts. -/
def withContacts (contacts : List From) : Message := { minimalMessage with contacts }

/-- A registration for an hour. -/
def registration (contacts : List From) : AorEvent :=
  .call (.update plainEnv (withContacts contacts) 3600 0)

/-- The contact with an expiry and a weight of its own. -/
def From.lasting (c : From) (expires q : String) : From :=
  { c with genParams :=
      [⟨some (str "expires"), some (str expires)⟩, ⟨some (str "q"), some (str q)⟩] }

/-- Two contacts that are to be bound, one of them listed twice, and one that is to expire. -/
def renewals : List From :=
  [(udpContact "c" "g").lasting "60" "0.5", (udpContact "c" "g").lasting "120" "0.1",
    (udpContact "b" "g").lasting "0" "1", udpContact "e" "g"]

/-- The contact `*`, which has no URL. -/
def starContact : From := { displayname := some (str "*") }

/-- A run of a registration and of its removal by the contact `*`. -/
theorem updates_defined_erase :
    ∃ aors l, aorEvents threeNames aorInit
        [registration [udpContact "b" "g", udpContact "d" "g"],
          .call (.update plainEnv (withContacts [starContact]) 0 0)] = .ok aors ∧
      Registrar 5 aors l := by
  refine (updates_defined threeNames).1 _ (by decide) ⟨⟨?_, ?_⟩, fun aors hrun => ⟨⟨?_, ?_⟩,
    fun _ _ => trivial⟩⟩
  · rintro a ⟨name, -, -, hsearch, -⟩
    exact absurd hsearch (by simp [mapSearch, aorInit, mapNew, tfind])
  · rintro name - -
    exact ⟨newReadable_of_given (by decide), Or.inl ⟨rfl, rfl⟩⟩
  · obtain ⟨aors', hrun', hview⟩ := ok_of_toOption (f := fun aors =>
      (mapSearch aors (Aor.key (minimalMessage.from_.getD {})) 0,
        (aors.heap 0).item.contact.items.all fun y => y.protocol.isSome))
      (show (aorEvent threeNames aorInit (registration [udpContact "b" "g",
        udpContact "d" "g"])).toOption.map _ = some (some 0, true) by decide +kernel)
    obtain rfl := Except.ok.inj (hrun'.symm.trans hrun)
    simp only [Prod.mk.injEq, List.all_eq_true] at hview
    rintro a ⟨name, hfrom, -, hsearch, -⟩
    obtain rfl : minimalMessage.from_.getD {} = name := by
      rw [show minimalMessage.from_ = some name from hfrom]
      rfl
    obtain rfl := Option.some.inj (hview.1.symm.trans hsearch)
    have herases : Erases (threeNames.expiry (withContacts [starContact]) 0) starContact := by
      decide
    exact ⟨trivial, Or.inl herases, fun _ _ => hview.2, fun hnot => absurd herases hnot,
      fun hnot => absurd herases hnot⟩
  · rintro name - -
    exact ⟨⟨trivial, fun _ _ r _ y hy => absurd hy (by simp [Offered])⟩, Or.inl ⟨rfl, rfl⟩⟩

/-- A contact whose `transport` has no value. -/
def bareTransport (user host : String) : From :=
  { url := some (sipUri user host [⟨some (str "transport"), none⟩]) }

/-- A removal compares a record with itself, and so it stops at one without a transport value. -/
example : (aorEvents threeNames aorInit [registration [bareTransport "c" "g"],
    .call (.update plainEnv (withContacts [starContact]) 0 0)]).toOption.isNone = true := by
  decide +kernel

/-- **The contact `*` without a URL** in a message that is not to expire, for an address that is
known: its URL is read. -/
theorem star_crashes :
    ∃ aors, aorEvents threeNames aorInit [registration []] = .ok aors ∧
      sipMessageIsValid (withContacts [starContact]) = true ∧
      aorUpdate threeNames plainEnv aors (withContacts [starContact]) 3600 7 =
        .error .crash := by
  obtain ⟨aors, hrun, hview⟩ := ok_of_toOption (f := fun aors =>
    match aorUpdate threeNames plainEnv aors (withContacts [starContact])
      3600 7 with
    | .error .crash => true
    | _ => false)
    (show (aorEvents threeNames aorInit [registration []]).toOption.map _ = some true by
      decide +kernel)
  refine ⟨aors, hrun, by decide, ?_⟩
  split at hview
  · next h => exact h
  · exact absurd hview (by simp)

end Example

end SipEcho
