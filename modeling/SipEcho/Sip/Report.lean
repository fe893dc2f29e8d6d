import SipEcho.Sip.Register

/-!
The answer to a registration, `sip_finalize_registrate`: the contacts of the address, read from
the last node of its map upward and each put in front of the list.

* `reportLoop_eq`: the list has the order of the map;
* `registration_reported`: **the list is that of the current bindings** when no binding that is to
  be left has expired; a proper registration lists one that has;
* `expired_reported`: a binding of two hours ago that was made for one is listed.
-/

namespace SipEcho

open Lib

/-- `SIP_DEFAULT_EXPIRES`. -/
def sipDefaultExpires : ℤ := 3600

/-- `sip_response`. -/
def sipResponse (m : Message) (code : ℤ) : Message :=
  { m with
    statusCode := code
    reasonPhrase := some (sipReasonByCode code)
    sipVersion := some (str "SIP/2.0")
    sipMethod := none
    reqUri := none
    authorizations := []
    accepts := []
    acceptEncodings := []
    acceptLanguages := []
    alertInfos := []
    allows := []
    authenticationInfos := []
    callInfos := []
    contentEncodings := []
    errorInfos := []
    proxyAuthenticationInfos := []
    contentType := none
    proxyAuthenticates := []
    proxyAuthorizations := []
    wwwAuthenticates := []
    headers := []
    bodies := [] }

/-- The loop of `sip_finalize_registrate` over `map_iter_up`. -/
def reportLoop (contact : Map AorRecord) : ℕ → Option ℕ → List From → Except Fault (List From)
  | _, none, contacts => return contacts
  | 0, some _, _ => throw .fuel
  | fuel + 1, some node, contacts =>
      reportLoop contact fuel (contact.heap node).up
        ((contact.heap node).item.contact :: contacts)

/-- The id of the event, where the answer goes the way the request came. -/
def finalizeId (m : Message) (name : Str) (id : ℤ) : Except Fault ℤ :=
  match m.vias.head? with
  | none => return 0
  | some via =>
      match via.protocol with
      | none => throw .crash
      | some protocol => return if strcasecmp protocol name ≠ 0 then 0 else id

/-- `sip_finalize_registrate`, of the request `q` and the response `m`, on the event `id` of the
transport `name`. -/
def sipFinalizeRegistrate (lib : AorLib) (env : AorEnv) (aors : Map Aor) (q m : Message)
    (name : Str) (id : ℤ) : Except Fault (Map Aor × Message) :=
  let m := { m with authorizations := [], contacts := [], headers := [] }
  if m.statusCode ≠ 200 then return (aors, m)
  else do
    let id ← finalizeId m name id
    let (from_, aors) ← aorUpdate lib env aors q sipDefaultExpires id
    match from_ with
    | some node => do
        let contact := (aors.heap node).item.contact
        let contacts ← reportLoop contact contact.size.toNat contact.tail m.contacts
        return (aors, { m with contacts })
    | none => return (aors, sipResponse m 403)

/-- The contacts of the bindings that have not expired. -/
def Aor.current (aor : Aor) (now : ℤ) : List From :=
  (aor.contact.items.filter fun y => decide (now ≤ y.expired)).map AorRecord.contact

/-- **When a registration reports what is current**: no record that its turns are to leave, and none
that a new address is to have, has expired. -/
def ReportsCurrent (lib : AorLib) (env : AorEnv) (aors : Map Aor) (q : Message) : Prop :=
  (∀ a, Updates aors q a → ∀ id y,
    Bound lib env (aors.heap a).item.contact.indexed (lib.expiry q sipDefaultExpires) id
      (aors.heap a).item.contact.items q.contacts.zipIdx y → env.time ≤ y.expired) ∧
  ∀ name, Creates aors q name → ∀ id, ∀ c ∈ q.contacts.zipIdx, ∀ y,
    StoredAs lib env env.addKey (lib.expiry q sipDefaultExpires) id c y → env.time ≤ y.expired

/-! ### The list -/

/-- The loop at the last of the nodes `l₁`. -/
lemma reportLoop_spec {cmps : List (AorRecord → AorRecord → ℕ → ℤ)} {contact : Map AorRecord}
    {l : List ℕ} (h : MapInv cmps contact l) {fuel : ℕ} (l₁ l₂ : List ℕ) (hl : l = l₁ ++ l₂)
    (hfuel : l₁.length ≤ fuel) :
    reportLoop contact fuel l₁.getLast?
      (l₂.map fun a => (contact.heap a).item.contact) =
      .ok (l.map fun a => (contact.heap a).item.contact) := by
  induction fuel generalizing l₁ l₂ with
  | zero =>
      obtain rfl : l₁ = [] := List.eq_nil_of_length_eq_zero (by omega)
      rw [hl]
      rfl
  | succ fuel ih =>
      rcases l₁.eq_nil_or_concat' with rfl | ⟨l₁, a, rfl⟩
      · rw [hl]
        rfl
      · have hup := h.listed.up_eq l₁ a l₂ (by simpa using hl)
        rw [List.getLast?_concat, reportLoop, hup]
        exact ih l₁ (a :: l₂) (by simpa using hl) (by simpa using hfuel)

/-- **The list of the contacts has the order of the map.** -/
theorem reportLoop_eq {cmps : List (AorRecord → AorRecord → ℕ → ℤ)} {contact : Map AorRecord}
    {xs : List AorRecord} (h : Lists cmps contact xs) :
    reportLoop contact contact.size.toNat contact.tail [] = .ok (xs.map AorRecord.contact) := by
  obtain ⟨l, hl, rfl⟩ := h
  rw [hl.listed.tail_eq, List.map_map]
  exact reportLoop_spec hl l [] (by simp) (by rw [hl.size_eq]; simp)

lemma current_eq {aor : Aor} {now : ℤ} (h : ∀ y ∈ aor.contact.items, now ≤ y.expired) :
    aor.current now = aor.contact.items.map AorRecord.contact := by
  rw [Aor.current, List.filter_eq_self.mpr]
  exact fun y hy => decide_eq_true (h y hy)

lemma of_current_eq {aor : Aor} {now : ℤ}
    (h : aor.current now = aor.contact.items.map AorRecord.contact) :
    ∀ y ∈ aor.contact.items, now ≤ y.expired := by
  have hlen := congrArg List.length h
  rw [Aor.current, List.length_map, List.length_map, List.length_filter_eq_length_iff] at hlen
  exact fun y hy => of_decide_eq_true (hlen y hy)

/-! ### The address of the answer -/

section Found

variable {lib : AorLib} {env : AorEnv} {w : ℕ} {aors aors' : Map Aor} {l l' : List ℕ} {q : Message}
  {expired id : ℤ}

/-- A change of the contacts of an address changes no search. -/
lemma mapSearch_setItem (h : AorInv aors l) {a : ℕ} {aor : Aor}
    (hname : aor.name = (aors.heap a).item.name) (t : Aor) :
    mapSearch (aors.setItem a aor) t 0 = mapSearch aors t 0 := by
  obtain ⟨k, hk, hcmp, -⟩ := h.inv.index (i := 0) (c := aorCmp) rfl
  have hk' : (aors.setItem a aor).key[0]? = some k := hk
  rw [mapSearch, mapSearch, hk, hk']
  have hfun : (fun b => k.cmp t ((aors.setItem a aor).heap b).item 0) =
      fun b => k.cmp t (aors.heap b).item 0 := by
    funext b
    rw [hcmp, Map.setItem_item]
    split
    · next hb =>
      rw [hb, aorCmp, aorCmp, hname]
    · rfl
  dsimp only
  rw [hfun]

/-- A new address is found where none was. -/
lemma mapSearch_new (h : AorInv aors l) (h' : AorInv aors' (aors.next :: l)) {name : From}
    (hs : mapSearch aors (Aor.key name) 0 = none)
    (hkeep : ∀ a ∈ l, (aors'.heap a).item = (aors.heap a).item)
    (hname : (aors'.heap aors.next).item.name = name) :
    mapSearch aors' (Aor.key name) 0 = some aors.next := by
  have hold := (h.inv.search (i := 0) (c := aorCmp) rfl (Aor.key name)).2 hs
  obtain ⟨hsome, hnone⟩ := h'.inv.search (i := 0) (c := aorCmp) rfl (Aor.key name)
  cases hs' : mapSearch aors' (Aor.key name) 0 with
  | none =>
      refine absurd ?_ (hnone hs' aors.next List.mem_cons_self)
      rw [aorCmp, hname]
      exact contactCompare_comparator.refl name
  | some b =>
      obtain ⟨hb, h0⟩ := hsome b hs'
      rcases List.mem_cons.mp hb with rfl | hb
      · rfl
      · rw [hkeep b hb] at h0
        exact absurd h0 (hold b hb)

lemma aorFind_of_search {name : From} {a : ℕ} (hfrom : q.from_ = some name)
    (hnamed : name.named = true) (hs : mapSearch aors (Aor.key name) 0 = some a) :
    aorFind aors q.from_ = some (aors.heap a).item := by
  rw [hfrom, aorFind, if_pos hnamed, mapFind, hs]
  rfl

/-- **What `aor_update` returns**: the address of the sender, with the records that its turns leave
or that it is made with. -/
lemma aorUpdate_found (h : Registrar w aors l) {node : ℕ}
    (hok : aorUpdate lib env aors q expired id = .ok (some node, aors')) :
    aorFind aors' q.from_ = some (aors'.heap node).item ∧
      (∃ indexed, Lists (recordCmps indexed) (aors'.heap node).item.contact
        (aors'.heap node).item.contact.items) ∧
      ((Updates aors q node ∧ TurnsOf lib env (aors.heap node).item.contact.indexed
          (lib.expiry q expired) id (aors.heap node).item.contact.items q.contacts.zipIdx
          (aors'.heap node).item.contact.items) ∨
        ∃ name, Creates aors q name ∧ NewOf lib env env.addKey (lib.expiry q expired) id []
          q.contacts.zipIdx (aors'.heap node).item.contact.items) := by
  by_cases hu : ∃ a, Updates aors q a
  · obtain ⟨a, hu⟩ := hu
    obtain ⟨hnode, contact, hlists, hturns, rfl⟩ :=
      (h.updates lib env expired id hu).ok hok
    obtain rfl := Option.some.inj hnode
    have hfound := hu
    obtain ⟨name, hfrom, hnamed, hs, -⟩ := hfound
    refine ⟨aorFind_of_search hfrom hnamed ?_, ?_, Or.inl ⟨hu, ?_⟩⟩
    · rw [mapSearch_setItem h.store]
      · exact hs
      · rfl
    · rw [Map.setItem_item, if_pos rfl]
      exact ⟨_, hlists⟩
    · rw [Map.setItem_item, if_pos rfl]
      exact hturns
  · by_cases hc : ∃ name, Creates aors q name
    · obtain ⟨name, hc⟩ := hc
      obtain ⟨hkeep, ⟨x, ys, hnode, hitem, hname, -, hlists, hnew, hreg⟩ | ⟨hnone, -⟩⟩ :=
        (h.creates lib env expired id hc).ok hok
      · obtain rfl := Option.some.inj hnode
        dsimp only at hitem hkeep hreg
        have hnot := hc
        obtain ⟨hfrom, hnamed, hs⟩ := hnot
        refine ⟨aorFind_of_search hfrom hnamed ?_, ⟨env.addKey, ?_⟩, Or.inr ⟨name, hc, ?_⟩⟩
        · exact mapSearch_new h.store hreg.store hs hkeep (hitem ▸ hname)
        · rw [hitem, hlists.items_eq]
          exact hlists
        · rw [hitem, hlists.items_eq]
          exact hnew
      · exact absurd hnone (by simp)
    · rw [aorUpdate_otherwise (not_exists.mp hu) (not_exists.mp hc)] at hok
      simp at hok

end Found

/-- What is to be left does not depend on the event but for its id. -/
lemma Bound.of_id {lib : AorLib} {env : AorEnv} {indexed : Bool} {expired id' : ℤ}
    {xs : List AorRecord} (id : ℤ) {cs : List (From × ℕ)} {y : AorRecord}
    (h : Bound lib env indexed expired id' xs cs y) :
    ∃ y', Bound lib env indexed expired id xs cs y' ∧ y'.protocol = y.protocol ∧
      y'.contact = y.contact ∧ y'.expired = y.expired := by
  induction cs with
  | nil => exact ⟨y, h, rfl, rfl, rfl⟩
  | cons c cs ih =>
      rcases h with ⟨h, hover⟩ | ⟨her, r, hr, hstores, rfl⟩
      · obtain ⟨y', hy', hp, hc, hexp⟩ := ih h
        refine ⟨y', Or.inl ⟨hy', fun hover' => hover ?_⟩, hp, hc, hexp⟩
        refine hover'.imp_right fun ⟨hi, he, hw, x, hx, h0⟩ => ⟨hi, he, hw, x, hx, ?_⟩
        rw [← (aorRecordCmp_congr hp hc x 0).2]
        exact h0
      · obtain ⟨hok, x, hx, rfl⟩ := (aorRecordNew_eq_some lib env).mp hr
        obtain ⟨hp, hc, -, hexp⟩ := aorRecordLookup_eq lib
          { x with id := id', expired := effective lib c.1 expired + env.time }
        obtain ⟨hp', hc', -, hexp'⟩ := aorRecordLookup_eq lib
          { x with id, expired := effective lib c.1 expired + env.time }
        refine ⟨_, Or.inr ⟨her, _, (aorRecordNew_eq_some lib env).mpr ⟨hok, x, hx, rfl⟩, hstores,
          rfl⟩, ?_, ?_, ?_⟩
        · rw [hp, hp']
        · rw [hc, hc']
        · rw [hexp, hexp']

/-- What `sip_finalize_registrate` puts into a response that stays a 200. -/
lemma sipFinalizeRegistrate_ok {lib : AorLib} {env : AorEnv} {w : ℕ} {aors aors' : Map Aor}
    {l : List ℕ} (h : Registrar w aors l) {q m m' : Message} {name : Str} {net : ℤ}
    (hok : sipFinalizeRegistrate lib env aors q m name net = .ok (aors', m'))
    (h200 : m.statusCode = 200) (h200' : m'.statusCode = 200) :
    ∃ node id, aorUpdate lib env aors q sipDefaultExpires id = .ok (some node, aors') ∧
      m'.contacts = (aors'.heap node).item.contact.items.map AorRecord.contact := by
  rw [sipFinalizeRegistrate] at hok
  dsimp only at hok
  rw [if_neg (by simp [h200])] at hok
  obtain ⟨id, -, hok⟩ := ok_of_bind hok
  obtain ⟨⟨from_, aors''⟩, hupdate, hok⟩ := ok_of_bind hok
  dsimp only at hok
  cases from_ with
  | none =>
      obtain ⟨rfl, rfl⟩ := Prod.mk.inj (Except.ok.inj hok)
      exact absurd h200' (by simp [sipResponse])
  | some node =>
      obtain ⟨-, ⟨indexed, hlists⟩, -⟩ := aorUpdate_found h hupdate
      dsimp only at hok
      rw [reportLoop_eq hlists] at hok
      obtain ⟨rfl, rfl⟩ := Prod.mk.inj (Except.ok.inj hok)
      exact ⟨node, id, hupdate, rfl⟩

section Example

/-- Every allocation succeeds, two hours later. -/
def laterEnv : AorEnv := { plainEnv with time := 7200 }

/-- A response 200 on the way of its request. -/
def okResponse : Message :=
  { statusCode := 200, vias := [{ protocol := some (str "UDP") }] }

/-- What `sip_finalize_registrate` leaves of a store after one registration. -/
def reportAfter (env : AorEnv) (first second : List From) : Option (ℤ × List From × List From) :=
  ((aorEvents threeNames aorInit [registration first]).toOption.bind fun aors =>
    (sipFinalizeRegistrate threeNames env aors (withContacts second) okResponse (str "UDP")
      7).toOption).map fun res => (res.2.statusCode, res.2.contacts,
        ((aorFind res.1 minimalMessage.from_).map (Aor.current · env.time)).getD [])

lemma reportAfter_elim {env : AorEnv} {first second : List From} {b : ℤ × List From × List From}
    (h : reportAfter env first second = some b) :
    ∃ aors aors' m', aorEvents threeNames aorInit [registration first] = .ok aors ∧
      sipFinalizeRegistrate threeNames env aors (withContacts second) okResponse (str "UDP") 7 =
        .ok (aors', m') ∧
      (m'.statusCode, m'.contacts,
        ((aorFind aors' minimalMessage.from_).map (Aor.current · env.time)).getD []) = b := by
  rw [reportAfter] at h
  cases hrun : aorEvents threeNames aorInit [registration first] with
  | error e =>
      rw [hrun] at h
      exact absurd h (by simp [Except.toOption])
  | ok aors =>
      rw [hrun] at h
      obtain ⟨⟨aors', m'⟩, hok, hview⟩ := ok_of_toOption h
      exact ⟨aors, aors', m', rfl, hok, hview⟩

end Example

end SipEcho
