import SipEcho.Sip.Proxy

/-!
Calls: `aor_update` with the expiry `-1`, as `sip_finalize_invite` makes it.

* `TurnOf.insert`, `NewOf.added`: such a turn removes nothing and may put one record in front;
* `NewOf.readable`: turns that came to their end met no missing string, so that a condition on the
  records before tells when they do;
* `record_origin`: over any run, a record that can be chosen for a call was there before, or a
  registration of the run stored it;
* `deletable_of_delete`: a new address that was deleted again had no transport without a value;
* `invite_leaves_iff`: **a call leaves every record as it was, and what it adds is never chosen for
  a call**, exactly when its contacts come to no missing string;
* `bare_transport_crashes`: a contact whose `transport` has no value.
-/

namespace SipEcho

open Lib

section Insertion

variable {lib : AorLib} {env : AorEnv} {indexed : Bool} {id expired : ℤ}
variable {xs ys zs : List AorRecord} {cs : List (From × ℕ)} {c : From × ℕ}

lemma not_erases (c : From) : ¬ Erases (-1) c := fun h => absurd h.2 (by decide)

/-- A turn for a call is an insertion. -/
lemma TurnOf.insert (h : TurnOf lib env indexed (-1) id c.2 c.1 xs ys) :
    Pushed lib env indexed c.2 (aorRecordNew lib env c.2 c.1 (-1) id) xs ys := by
  rcases h with ⟨he, -⟩ | ⟨-, ⟨hs, rfl⟩ | ⟨x, zs, -, hzs, hpushed⟩⟩
  · exact absurd he (not_erases c.1)
  · have hnone : aorRecordNew lib env c.2 c.1 (-1) id = none := by
      rw [Option.eq_none_iff_forall_ne_some]
      intro r hr
      obtain ⟨-, x, hx, -⟩ := (aorRecordNew_eq_some lib env).mp hr
      rw [hs] at hx
      exact absurd hx (by simp)
    rw [hnone]
    exact ⟨fun r hr => absurd hr (by simp), Or.inr ⟨rfl, fun _ r hr => absurd hr (by simp)⟩⟩
  · rw [if_neg (by simp)] at hzs
    exact hzs ▸ hpushed

lemma TurnsOf.insert (h : TurnsOf lib env indexed (-1) id xs cs ys) :
    NewOf lib env indexed (-1) id xs cs ys := by
  induction cs generalizing ys with
  | nil => exact h
  | cons c cs ih =>
      obtain ⟨zs, hzs, -, hturn⟩ := h
      exact ⟨zs, ih hzs, hturn.insert⟩

/-- **Insertions leave what was there**, behind what they add. -/
lemma NewOf.added (h : NewOf lib env indexed expired id xs cs ys) :
    ∃ added, ys = added ++ xs ∧
      ∀ y ∈ added, ∃ c ∈ cs, StoredAs lib env indexed expired id c y := by
  induction cs generalizing ys with
  | nil => exact ⟨[], h, by simp⟩
  | cons c cs ih =>
      obtain ⟨zs, hzs, hpushed⟩ := h
      obtain ⟨added, rfl, hadded⟩ := ih hzs
      have hold : ∀ y ∈ added, ∃ d ∈ c :: cs, StoredAs lib env indexed expired id d y :=
        fun y hy => by
          obtain ⟨d, hd, hstored⟩ := hadded y hy
          exact ⟨d, List.mem_cons_of_mem _ hd, hstored⟩
      rcases hpushed.2 with ⟨r, hr, hstores, rfl⟩ | ⟨rfl, -⟩
      · exact ⟨aorRecordLookup lib r :: added, rfl,
          List.forall_mem_cons.mpr ⟨⟨c, List.mem_cons_self, r, hr, hstores, rfl⟩, hold⟩⟩
      · exact ⟨added, rfl, hold⟩

/-- What an insertion of a call stores has expired. -/
lemma StoredAs.expired_call {y : AorRecord} (h : StoredAs lib env indexed (-1) id c y) :
    y.expired = env.time - 1 := by
  rw [h.expired_eq, effective, if_neg (by simp)]
  ring

/-! ### Missing strings -/

/-- Of a record that was offered, there is one in the map; and it is itself, if its transport has
no value. -/
lemma NewOf.offered (h : NewOf lib env true expired id xs cs ys) {y : AorRecord}
    (hy : Offered lib env true expired id xs cs y) :
    ys ≠ [] ∧ (y.protocol = none → y ∈ ys) := by
  induction cs generalizing ys with
  | nil =>
      rw [show ys = xs from h]
      rcases hy with hy | ⟨c, hc, -⟩
      · exact ⟨List.ne_nil_of_mem hy, fun _ => hy⟩
      · exact absurd hc (by simp)
  | cons c cs ih =>
      obtain ⟨zs, hzs, hmet, hres⟩ := h
      have hsub : ∀ z ∈ zs, z ∈ ys := by
        rcases hres with ⟨r, -, -, rfl⟩ | ⟨rfl, -⟩
        · exact fun z hz => List.mem_cons_of_mem _ hz
        · exact fun z hz => hz
      have hold (hy : Offered lib env true expired id xs cs y) :
          ys ≠ [] ∧ (y.protocol = none → y ∈ ys) := by
        obtain ⟨hne, hmem⟩ := ih hzs hy
        obtain ⟨z, hz⟩ := List.exists_mem_of_ne_nil zs hne
        exact ⟨List.ne_nil_of_mem (hsub z hz), fun hnone => hsub y (hmem hnone)⟩
      rcases hy with hy | ⟨d, hd, hstored⟩
      · exact hold (Or.inl hy)
      · rcases List.mem_cons.mp hd with rfl | hd
        · obtain ⟨r, hr, hstores, rfl⟩ := hstored
          rcases hres with ⟨r', hr', -, rfl⟩ | ⟨rfl, hnot⟩
          · obtain rfl := Option.some.inj (hr.symm.trans hr')
            exact ⟨by simp, fun _ => List.mem_cons_self⟩
          · -- there is memory for the record, so it equals one that is stored
            have hne : ys ≠ [] := by
              rintro rfl
              exact hnot rfl r hr ⟨(hstores rfl).1, (hstores rfl).2, by simp⟩
            refine ⟨hne, fun hnone => ?_⟩
            obtain ⟨z, -, hread⟩ := hmet r hr rfl (hstores rfl).1 hne
            have hr1 := (readsNull_protocol hread).1
            rw [(aorRecordLookup_eq lib r).1] at hnone
            rw [hnone] at hr1
            exact absurd hr1 (by simp)
        · exact hold (Or.inr ⟨d, hd, hstored⟩)

/-- **Insertions that came to their end met no missing string.** -/
theorem NewOf.readable (h : NewOf lib env indexed expired id xs cs ys)
    (hxs : RecordsInv indexed xs) : NewReadable lib env indexed expired id xs cs := by
  induction cs generalizing ys with
  | nil => trivial
  | cons c cs ih =>
      obtain ⟨zs, hzs, hmet, -⟩ := h
      refine ⟨ih hzs, fun hi halloc r hr y hy => ?_⟩
      subst hi
      obtain ⟨hne, hmem⟩ := hzs.offered hy
      obtain ⟨z, hz, hread⟩ := hmet r hr rfl halloc hne
      obtain ⟨hr1, hz1⟩ := readsNull_protocol hread
      have hrc : r.Complete := by
        obtain ⟨⟨h1, h2, h3, -⟩, x, hx, rfl⟩ := (aorRecordNew_eq_some lib env).mp hr
        obtain ⟨t, -, rfl⟩ := Option.map_eq_some_iff.mp hx
        exact ⟨h1, h2, h3⟩
      refine readsNull_of_complete hrc (hy.complete hxs.complete) hr1 ?_
      by_contra hy1
      rw [Option.not_isSome_iff_eq_none] at hy1
      have halone := (hxs.new hzs).alone rfl y (hmem hy1) hy1
      rw [halone, List.mem_singleton] at hz
      rw [hz, hy1] at hz1
      exact absurd hz1 (by simp)

/-- The turns of a call read what its insertions read. -/
lemma NewReadable.turns (h : NewReadable lib env indexed (-1) id xs cs)
    (hurl : ∀ c ∈ cs, c.1.url.isSome = true) : AllReadable lib env indexed (-1) id xs cs := by
  induction cs with
  | nil => trivial
  | cons c cs ih =>
      refine ⟨ih h.1 fun d hd => hurl d (List.mem_cons_of_mem _ hd), ?_⟩
      exact ⟨Or.inr (hurl c List.mem_cons_self), fun he => absurd he (not_erases c.1),
        fun _ _ he => absurd rfl he,
        fun _ hi halloc r hr y hy => h.2 hi halloc r hr y hy.offered⟩

end Insertion

/-! ### Later runs -/

/-- The event happens at `now` or before. -/
def AorEvent.Before (now : ℤ) : AorEvent → Prop
  | .call (.push env ..) => env.time ≤ now
  | .call (.update env ..) => env.time ≤ now
  | .resolved .. => True

/-- A registration among the events stored the record at the address `a`; its route may be new. -/
def RegisteredSince (lib : AorLib) (a : ℕ) (aors : Map Aor) (evs : List AorEvent) (y : AorRecord) :
    Prop :=
  ∃ evs₁ env m expired id evs₂ aors₁ c z,
    evs = evs₁ ++ .call (.update env m expired id) :: evs₂ ∧
    aorEvents lib aors evs₁ = .ok aors₁ ∧ Updates aors₁ m a ∧ lib.expiry m expired ≠ -1 ∧
    c ∈ m.contacts.zipIdx ∧
    StoredAs lib env (aors₁.heap a).item.contact.indexed (lib.expiry m expired) id c z ∧
    y.unrouted = z.unrouted

/-- **Of the records added at the address `a` to the records `xs`, none is ever chosen for a call**:
a record that is, was there before, or a registration stored it since. -/
def NeverChosen (lib : AorLib) (t : ℤ) (aors : Map Aor) (a : ℕ) (xs : List AorRecord) : Prop :=
  ∀ evs aors' now, aorEvents lib aors evs = .ok aors' → t ≤ now → (∀ ev ∈ evs, ev.Before now) →
    ∀ y ∈ (aors'.heap a).item.contact.items, y.eligible true now = true →
      (∃ x ∈ xs, y.unrouted = x.unrouted) ∨ RegisteredSince lib a aors evs y

section Runs

variable {lib : AorLib} {w : ℕ} {aors aors' : Map Aor} {l : List ℕ} {a : ℕ}

lemma aorEvents_append (evs : List AorEvent) (ev : AorEvent) :
    aorEvents lib aors (evs ++ [ev]) = aorEvents lib aors evs >>= fun aors' =>
      aorEvent lib aors' ev := by
  induction evs generalizing aors with
  | nil =>
      show (aorEvent lib aors ev >>= pure) = aorEvent lib aors ev
      exact bind_pure _
  | cons e evs ih =>
      rw [List.cons_append, aorEvents, aorEvents]
      cases aorEvent lib aors e with
      | error f => rfl
      | ok aors'' => exact ih

lemma RegisteredSince.snoc {evs : List AorEvent} {y z : AorRecord} (ev : AorEvent)
    (h : RegisteredSince lib a aors evs z) (hy : y.unrouted = z.unrouted) :
    RegisteredSince lib a aors (evs ++ [ev]) y := by
  obtain ⟨evs₁, env, m, expired, id, evs₂, aors₁, c, z', rfl, hrest, h1, h2, h3, h4, hz⟩ := h
  exact ⟨evs₁, env, m, expired, id, evs₂ ++ [ev], aors₁, c, z', by simp, hrest, h1, h2, h3, h4,
    hy.trans hz⟩

/-- Where a record comes from that an event leaves. -/
lemma Evolves.origin {ev : AorEvent} {xs ys : List AorRecord} (h : Evolves lib aors a ev xs ys) :
    ∀ y ∈ ys, (∃ x ∈ xs, y.unrouted = x.unrouted) ∨
      ∃ env m expired id c, ev = .call (.update env m expired id) ∧ Updates aors m a ∧
        c ∈ m.contacts.zipIdx ∧
        StoredAs lib env (aors.heap a).item.contact.indexed (lib.expiry m expired) id c y := by
  intro y hy
  rcases h with rfl | ⟨env, m, expired, id, rfl, hu, hturns⟩ | hroutes
  · exact Or.inl ⟨y, hy, rfl⟩
  · rcases (hturns.sound y hy).offered with hx | ⟨c, hc, hstored⟩
    · exact Or.inl ⟨y, hx, rfl⟩
    · exact Or.inr ⟨env, m, expired, id, c, rfl, hu, hc, hstored⟩
  · have hmem := List.mem_map_of_mem (f := AorRecord.unrouted) hy
    rw [hroutes] at hmem
    obtain ⟨x, hx, heq⟩ := List.mem_map.mp hmem
    exact Or.inl ⟨x, hx, heq.symm⟩

/-- **The records of an address over a run**: each was there before, has expired, or is due to a
registration of the run. -/
theorem record_origin (h : Registrar w aors l) (ha : a ∈ l) (xs : List AorRecord) {now : ℤ}
    (hxs : ∀ y ∈ (aors.heap a).item.contact.items,
      (∃ x ∈ xs, y.unrouted = x.unrouted) ∨ y.expired < now)
    (evs : List AorEvent) (hrun : aorEvents lib aors evs = .ok aors')
    (hbefore : ∀ ev ∈ evs, ev.Before now) :
    (∃ w' l', Registrar w' aors' l' ∧ a ∈ l') ∧ ∀ y ∈ (aors'.heap a).item.contact.items,
      ((∃ x ∈ xs, y.unrouted = x.unrouted) ∨ y.expired < now) ∨
        RegisteredSince lib a aors evs y := by
  induction evs using List.reverseRecOn generalizing aors' with
  | nil =>
      obtain rfl : aors = aors' := Except.ok.inj hrun
      exact ⟨⟨w, l, h, ha⟩, fun y hy => Or.inl (hxs y hy)⟩
  | append_singleton evs ev ih =>
      rw [aorEvents_append] at hrun
      obtain ⟨aors₁, hrun₁, hev⟩ := ok_of_bind hrun
      obtain ⟨⟨w₁, l₁, h₁, ha₁⟩, hold⟩ := ih hrun₁ fun e he => hbefore e (by simp [he])
      obtain ⟨l', h', hcont⟩ := (h₁.step ev).ok hev
      obtain ⟨ha', hcont⟩ := hcont a ha₁
      refine ⟨⟨_, l', h', ha'⟩, fun y hy => ?_⟩
      rcases hcont.evolves.origin y hy with ⟨z, hz, hyz⟩ | ⟨env, m, expired, id, c, rfl, hu, hc, hs⟩
      · rcases hold z hz with (⟨x, hx, hzx⟩ | hexp) | hsince
        · exact Or.inl (Or.inl ⟨x, hx, hyz.trans hzx⟩)
        · have heq : y.expired = z.expired := (congrArg AorRecord.expired hyz : _)
          exact Or.inl (Or.inr (heq ▸ hexp))
        · exact Or.inr (hsince.snoc ev hyz)
      · by_cases he : lib.expiry m expired = -1
        · rw [he] at hs
          have hev' : (AorEvent.call (.update env m expired id)).Before now := hbefore _ (by simp)
          have htime : env.time ≤ now := hev'
          have hexp := hs.expired_call
          exact Or.inl (Or.inr (by omega))
        · exact Or.inr ⟨evs, env, m, expired, id, [], aors₁, c, y, rfl, hrun₁, hu, he, hc, hs, rfl⟩

/-- Records that a call added to `xs` are never chosen. -/
lemma neverChosen_of_added (h : Registrar w aors l) (ha : a ∈ l) {t : ℤ}
    {xs : List AorRecord} (added : List AorRecord)
    (hitems : (aors.heap a).item.contact.items = added ++ xs)
    (hadded : ∀ y ∈ added, y.expired = t - 1) : NeverChosen lib t aors a xs := by
  intro evs aors' now hrun hnow hbefore y hy hchosen
  have hfirst : ∀ z ∈ (aors.heap a).item.contact.items,
      (∃ x ∈ xs, z.unrouted = x.unrouted) ∨ z.expired < now := by
    intro z hz
    rw [hitems, List.mem_append] at hz
    rcases hz with hz | hz
    · have := hadded z hz
      exact Or.inr (by omega)
    · exact Or.inl ⟨z, hz, rfl⟩
  obtain ⟨-, horigin⟩ := record_origin h ha xs hfirst evs hrun hbefore
  rcases horigin y hy with (hx | hexp) | hsince
  · exact Or.inl hx
  · simp [AorRecord.eligible, hexp] at hchosen
  · exact Or.inr hsince

end Runs

/-! ### Calls -/

/-- **What a call at the time `t` is to leave**: at every address the records as they were, behind
those it adds, and the expiry of the address; and of what it adds nothing is ever chosen. -/
structure CallLeaves (lib : AorLib) (t : ℤ) (aors aors' : Map Aor) (l l' : List ℕ) : Prop where
  listed : aors.Listed l
  listed' : aors'.Listed l'
  kept : ∀ a ∈ l, a ∈ l' ∧ (aors'.heap a).item.name = (aors.heap a).item.name ∧
    (aors'.heap a).item.expired = (aors.heap a).item.expired ∧
    (∃ added, (aors'.heap a).item.contact.items =
      added ++ (aors.heap a).item.contact.items) ∧
    NeverChosen lib t aors' a (aors.heap a).item.contact.items
  fresh : ∀ a ∈ l', a ∉ l → NeverChosen lib t aors' a []

section Calls

variable {lib : AorLib} {env : AorEnv} {w : ℕ} {aors aors' : Map Aor} {l : List ℕ} {m : Message}
  {id : ℤ}

lemma expiry_call (lib : AorLib) (m : Message) : lib.expiry m (-1) = -1 := by
  rw [AorLib.expiry, if_neg (by simp)]

/-- An address whose records are as they were. -/
lemma callLeaves_same {w' : ℕ} {l' : List ℕ} {a : ℕ} {t : ℤ} (h' : Registrar w' aors' l')
    (ha : a ∈ l') (hitem : (aors'.heap a).item = (aors.heap a).item) :
    (aors'.heap a).item.name = (aors.heap a).item.name ∧
      (aors'.heap a).item.expired = (aors.heap a).item.expired ∧
      (∃ added, (aors'.heap a).item.contact.items =
        added ++ (aors.heap a).item.contact.items) ∧
      NeverChosen lib t aors' a (aors.heap a).item.contact.items := by
  rw [← hitem]
  exact ⟨rfl, rfl, ⟨[], rfl⟩, neverChosen_of_added h' ha [] rfl (by simp)⟩

/-- A call from an address that is known. -/
lemma call_updates (h : Registrar w aors l) {a : ℕ} (hu : Updates aors m a) :
    Meets (2 ^ 49 ≤ w + m.contacts.length ∨
        ¬ AllReadable lib env (aors.heap a).item.contact.indexed (-1) id
          (aors.heap a).item.contact.items m.contacts.zipIdx)
      (fun res => ∃ l', CallLeaves lib env.time aors res.2 l l')
      (aorUpdate lib env aors m (-1) id) := by
  have ha := h.updates_mem hu
  have hupdates := h.updates lib env (-1) id hu
  rw [expiry_call] at hupdates
  refine hupdates.mono ?_
  rintro ⟨node, aors'⟩ ⟨-, contact, hlists, hturns, hres⟩
  dsimp only at hres
  obtain ⟨added, hadded, hstored⟩ := hturns.insert.added
  have hlen := hturns.length_le
  rw [List.length_zipIdx] at hlen
  have hle := h.records_le a ha
  have h' : Registrar (w + m.contacts.length) aors' l := by
    rw [hres]
    refine (h.mono (Nat.le_add_right w _)).setItem rfl
      (.of_lists hlists ((h.contacts a ha).records.turns hturns)) ?_
    show contact.items.length ≤ w + m.contacts.length
    omega
  have hitem : (aors'.heap a).item =
      ⟨(aors.heap a).item.name, (aors.heap a).item.expired, contact⟩ := by
    rw [hres, Map.setItem_item, if_pos rfl, if_neg (by simp)]
  refine ⟨l, h.store.inv.listed, h'.store.inv.listed, fun b hb => ⟨hb, ?_⟩, fun b hb hnot =>
    absurd hb hnot⟩
  by_cases hba : b = a
  · subst hba
    refine ⟨by rw [hitem], by rw [hitem], ⟨added, by rw [hitem]; exact hadded⟩, ?_⟩
    refine neverChosen_of_added h' hb added (by rw [hitem]; exact hadded) fun y hy => ?_
    obtain ⟨c, -, hs⟩ := hstored y hy
    exact hs.expired_call
  · refine callLeaves_same h' hb ?_
    rw [hres, Map.setItem_item, if_neg hba]

/-- A call from an address that is not. -/
lemma call_creates (h : Registrar w aors l) {name : From} (hc : Creates aors m name) :
    Meets (2 ^ 49 ≤ w + m.contacts.length ∨ env.aorNew = true ∧
        ¬ (NewReadable lib env env.addKey (-1) id [] m.contacts.zipIdx ∧
          (env.Keeps ∨ Deletable lib env (-1) id m.contacts.zipIdx)))
      (fun res => ∃ l', CallLeaves lib env.time aors res.2 l l')
      (aorUpdate lib env aors m (-1) id) := by
  have hcreates := h.creates lib env (-1) id hc
  rw [expiry_call] at hcreates
  refine hcreates.mono ?_
  rintro ⟨node, aors'⟩ ⟨hkeep, ⟨x, ys, -, hitem, -, -, hlists, hnew, h'⟩ | ⟨-, h'⟩⟩
  · dsimp only at hkeep hitem h'
    refine ⟨aors.next :: l, h.store.inv.listed, h'.store.inv.listed, fun b hb => ?_,
      fun b hb hnot => ?_⟩
    · have hb' := List.mem_cons_of_mem aors.next hb
      exact ⟨hb', callLeaves_same h' hb' (hkeep b hb)⟩
    · have hnext : b = aors.next := (List.mem_cons.mp hb).resolve_right hnot
      obtain ⟨added, hadded, hstored⟩ := hnew.added
      refine neverChosen_of_added h' hb added ?_ fun y hy => ?_
      · rw [hnext, hitem, hlists.items_eq]
        exact hadded
      · obtain ⟨c, -, hs⟩ := hstored y hy
        exact hs.expired_call
  · exact ⟨l, h.store.inv.listed, h'.store.inv.listed,
      fun b hb => ⟨hb, callLeaves_same h' hb (hkeep b hb)⟩, fun b hb hnot => absurd hb hnot⟩

/-- **A new address that was deleted again** had no transport without a value: one that was offered
would have been stored. -/
lemma deletable_of_delete {expired : ℤ} {aor : Aor} {cs : List (From × ℕ)} {ys : List AorRecord}
    (hys : Lists (recordCmps env.addKey) aor.contact ys)
    (hnew : NewOf lib env env.addKey expired id [] cs ys) {u : Unit}
    (hok : aorDelete (some aor) = .ok u) : Deletable lib env expired id cs := by
  intro hi y hy
  have hvalued : Valued env.addKey ys := (aorDelete_records hys hnew.complete).ok hok
  by_contra hnone
  rw [Option.not_isSome_iff_eq_none] at hnone
  rw [hi] at hnew hy
  have hmem := (hnew.offered hy).2 hnone
  exact absurd (hvalued hi y hmem) (by simp [hnone])

/-- **A call that comes back met no missing string.** -/
lemma call_defined (h : Registrar w aors l) (hurl : ∀ c ∈ m.contacts, c.url.isSome = true)
    {res : Option ℕ × Map Aor} (hok : aorUpdate lib env aors m (-1) id = .ok res) :
    (AorEvent.call (.update env m (-1) id)).Defined lib aors := by
  refine ⟨fun a hu => ?_, fun name hc hnew => ?_⟩
  · have hupdates := h.updates lib env (-1) id hu
    obtain ⟨-, contact, -, hturns, -⟩ := hupdates.ok hok
    rw [expiry_call] at hturns ⊢
    refine (hturns.insert.readable (h.contacts a (h.updates_mem hu)).records).turns fun c hc => ?_
    exact hurl c.1 (List.mem_zipIdx_iff_getElem?.mp hc |> List.mem_of_getElem?)
  · rw [aorUpdate_creates hc] at hok
    obtain ⟨aor, haor, hok⟩ := ok_of_bind hok
    have hspec := (aorNew_records lib env name m.contacts (lib.expiry m (-1)) id).ok haor
    obtain ⟨-, hnamed, hsearch⟩ := hc
    rw [aorNew, hnamed, hnew] at haor
    obtain ⟨contact, -, haor⟩ := ok_of_bind haor
    obtain rfl := (Except.ok.inj haor).symm
    obtain ⟨-, -, -, -, ys, hys, hadded⟩ := hspec _ rfl
    refine ⟨hadded.readable (RecordsInv.nil _), ?_⟩
    by_cases hkeeps : env.Keeps
    · exact Or.inl hkeeps
    · -- the address was not stored, and so it was deleted
      obtain ⟨⟨pushed, aors'⟩, hpush, hok⟩ := ok_of_bind hok
      have hret := (h.store.push_ret env.push _).ok hpush
      rw [if_neg fun h0 => hkeeps ⟨(hret.mp h0).1, (hret.mp h0).2.1⟩] at hok
      obtain ⟨u, hdelete, -⟩ := ok_of_bind hok
      exact Or.inr (deletable_of_delete hys hadded hdelete)

end Calls

/-- **A call alters no registration**, in every store that a run leaves, exactly when it comes to no
missing string. -/
theorem invite_leaves_iff (lib : AorLib) (env : AorEnv) (evs : List AorEvent) {aors : Map Aor}
    (m : Message) (id : ℤ) (hrun : aorEvents lib aorInit evs = .ok aors)
    (hurl : ∀ c ∈ m.contacts, c.url.isSome = true)
    (hsize : (evs.map AorEvent.weight).sum + m.contacts.length < 2 ^ 49) :
    (∃ node aors' l l', aorUpdate lib env aors m (-1) id = .ok (node, aors') ∧
        CallLeaves lib env.time aors aors' l l') ↔
      (AorEvent.call (.update env m (-1) id)).Defined lib aors := by
  obtain ⟨l, hl⟩ := registrar_of_run hrun
  constructor
  · rintro ⟨node, aors', -, -, hok, -⟩
    exact call_defined hl hurl hok
  · rintro ⟨hupdates, hcreates⟩
    have hleaves : ∃ res, aorUpdate lib env aors m (-1) id = .ok res ∧
        ∃ l', CallLeaves lib env.time aors res.2 l l' := by
      by_cases hu : ∃ a, Updates aors m a
      · obtain ⟨a, hu⟩ := hu
        refine (call_updates hl hu).returns ?_
        rintro (hbig | hread)
        · omega
        · have := hupdates a hu
          rw [expiry_call] at this
          exact hread this
      · by_cases hc : ∃ name, Creates aors m name
        · obtain ⟨name, hc⟩ := hc
          refine (call_creates hl hc).returns ?_
          rintro (hbig | ⟨hnew, hdefined⟩)
          · omega
          · have := hcreates name hc hnew
            rw [expiry_call] at this
            exact hdefined this
        · refine ⟨_, aorUpdate_otherwise (not_exists.mp hu) (not_exists.mp hc) (-1) id, l,
            hl.store.inv.listed, hl.store.inv.listed, fun b hb => ⟨hb, callLeaves_same hl hb rfl⟩,
            fun b hb hnot => absurd hb hnot⟩
    obtain ⟨⟨node, aors'⟩, hok, l', hleaves⟩ := hleaves
    exact ⟨node, aors', l, l', hok, hleaves⟩

section Example

/-- A call from an address with one contact. -/
theorem invite_leaves_one :
    ∃ aors node aors' l l',
      aorEvents threeNames aorInit [registration [udpContact "b" "g"]] = .ok aors ∧
      aorUpdate threeNames plainEnv aors (withContacts [udpContact "c" "g"]) (-1) 7 =
        .ok (node, aors') ∧ CallLeaves threeNames 0 aors aors' l l' := by
  obtain ⟨aors, hrun, hview⟩ := ok_of_toOption (f := fun aors =>
    (mapSearch aors (Aor.key (minimalMessage.from_.getD {})) 0,
      (aors.heap 0).item.contact.items.all fun y =>
        (aorRecordNew threeNames plainEnv 0 (udpContact "c" "g") (-1) 7).all fun r =>
          !r.readsNull y))
    (show (aorEvents threeNames aorInit [registration [udpContact "b" "g"]]).toOption.map _ =
      some (some 0, true) by decide +kernel)
  simp only [Prod.mk.injEq, List.all_eq_true] at hview
  obtain ⟨hsearch, hreads⟩ := hview
  have hname : (withContacts [udpContact "c" "g"]).from_ = minimalMessage.from_ := rfl
  have hdefined : (AorEvent.call (.update plainEnv (withContacts [udpContact "c" "g"]) (-1)
      7)).Defined threeNames aors := by
    constructor
    · rintro a ⟨name, hfrom, -, hfound, -⟩
      rw [show minimalMessage.from_.getD {} = name by rw [← hname, hfrom]; rfl] at hsearch
      obtain rfl : 0 = a := Option.some.inj (hsearch.symm.trans hfound)
      rw [expiry_call]
      refine ⟨trivial, Or.inr rfl, fun he => absurd he.2 (by decide), fun _ _ he => absurd rfl he,
        fun _ _ _ r hr y hy => ?_⟩
      have hread := hreads y hy
      rw [show aorRecordNew threeNames plainEnv 0 (udpContact "c" "g") (-1) 7 = some r from hr]
        at hread
      simpa using hread
    · rintro name - -
      rw [expiry_call]
      exact ⟨⟨trivial, fun _ _ r _ y hy => absurd hy (by simp [Offered])⟩, Or.inl ⟨rfl, rfl⟩⟩
  obtain ⟨node, aors', l, l', hok, hleaves⟩ := (invite_leaves_iff threeNames plainEnv
    [registration [udpContact "b" "g"]] (withContacts [udpContact "c" "g"]) 7 hrun
    (by simp [withContacts, udpContact]) (by decide)).mpr hdefined
  exact ⟨aors, node, aors', l, l', hrun, hok, hleaves⟩

/-- **A call whose contact gives a `transport` without a value**, from an address with a contact:
the value is compared. -/
theorem bare_transport_crashes :
    ∃ aors, aorEvents threeNames aorInit [registration [udpContact "b" "g"]] = .ok aors ∧
      sipMessageIsValid (withContacts [bareTransport "c" "g"]) = true ∧
      (∀ c ∈ (withContacts [bareTransport "c" "g"]).contacts, c.url.isSome = true) ∧
      aorUpdate threeNames plainEnv aors (withContacts [bareTransport "c" "g"]) (-1) 7 =
        .error .crash ∧
      ¬ ∃ node aors' l l', aorUpdate threeNames plainEnv aors
          (withContacts [bareTransport "c" "g"]) (-1) 7 = .ok (node, aors') ∧
        CallLeaves threeNames 0 aors aors' l l' := by
  obtain ⟨aors, hrun, hview⟩ := ok_of_toOption (f := fun aors =>
    match aorUpdate threeNames plainEnv aors (withContacts [bareTransport "c" "g"]) (-1) 7 with
    | .error .crash => true
    | _ => false)
    (show (aorEvents threeNames aorInit [registration [udpContact "b" "g"]]).toOption.map _ =
      some true by decide +kernel)
  have hcrash : aorUpdate threeNames plainEnv aors (withContacts [bareTransport "c" "g"]) (-1) 7 =
      .error .crash := by
    split at hview
    · next h => exact h
    · exact absurd hview (by simp)
  refine ⟨aors, hrun, by decide, by simp [withContacts, bareTransport], hcrash, ?_⟩
  rintro ⟨node, aors', l, l', hok, -⟩
  rw [hcrash] at hok
  cases hok

/-- So does one from an address that is new and cannot be stored: it is deleted again. -/
example : (aorUpdate threeNames { plainEnv with push := ⟨false, fun _ => true⟩ } aorInit
    (withContacts [bareTransport "c" "g"]) (-1) 7).toOption.isNone = true := by
  decide +kernel

end Example

end SipEcho
