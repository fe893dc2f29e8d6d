import SipEcho.Sip.Report

/-!
The choice of a contact for a request of the bus, `sip_proxy`, over any `sip_relay`.

The loop moves its iterator on before it tries a contact, and the code of the answer is read off
the iterator when the loop is left.

* `proxyLoop_eq`: the loop tries the first contact that is eligible, and no other;
* `proxyTarget`: what `sip_proxy` is for: that contact is tried, and the answer is 403, 410 or 500
  when there is no address, no such contact, or its relay fails;
* `sipProxy_iff`: **`sip_proxy` does so** but when the relay fails to the last contact of the list;
* `last_contact_gone`: the only contact of an address, to which the relay fails, is answered 410.
-/

namespace SipEcho

open Lib

/-- `MSG_IS_INVITE`. -/
def msgIsInvite (q : Message) : Bool :=
  decide (q.statusCode = 0) && decide (strcmp (q.sipMethod.getD []) (str "INVITE") = 0)

section Proxy

variable {σ : Type}

/-- `sip_relay`, in a world of its own: what it returns, and what it makes of the request. -/
abbrev Relay (σ : Type) := AorRecord → Message → σ → Except Fault (ℤ × Message × σ)

/-- How the loop of `sip_proxy` ends: the request was relayed, or the iterator stands somewhere;
and the contacts that were tried. -/
structure ProxyEnd (σ : Type) where
  relayed : Bool
  iter : Option ℕ
  tried : List AorRecord
  q : Message
  world : σ

/-- The loop of `sip_proxy`, with the iterator before a node. -/
def proxyLoop (relay : Relay σ) (now : ℤ) (contact : Map AorRecord) :
    ℕ → Option ℕ → Message → σ → Except Fault (ProxyEnd σ)
  | _, none, q, world => return ⟨false, none, [], q, world⟩
  | 0, some _, _, _ => throw .fuel
  | fuel + 1, some node, q, world =>
      let next := (contact.heap node).item
      let iter := (contact.heap node).down
      if next.route.isSome then
        if msgIsInvite q = true ∧ next.expired < now then
          proxyLoop relay now contact fuel iter q world
        else do
          let (ret, q, world) ← relay next q world
          if ret ≠ 0 then return ⟨false, iter, [next], q, world⟩
          else return ⟨true, iter, [next], q, world⟩
      else proxyLoop relay now contact fuel iter q world

/-- What `sip_proxy` did: the contacts it tried, and the answer it handed to `cmd_finalize`. -/
structure ProxyResult (σ : Type) where
  tried : List AorRecord
  answer : Option Message
  world : σ

/-- `sip_proxy`. -/
def sipProxy (relay : Relay σ) (aors : Map Aor) (now : ℤ) (q : Message) (world : σ) :
    Except Fault (ProxyResult σ) :=
  let q := { q with authorizations := [] }
  match aorFind aors q.to_ with
  | some to_ => do
      let res ← proxyLoop relay now to_.contact to_.contact.size.toNat to_.contact.root q world
      if res.relayed then return ⟨res.tried, none, res.world⟩
      else
        return ⟨res.tried, some (sipResponse res.q (if res.iter.isSome then 500 else 410)),
          res.world⟩
  | none => return ⟨[], some (sipResponse q 403), world⟩

/-! ### What it is for -/

/-- A contact can be tried: it has a route, and has not expired when the request is an INVITE. -/
def AorRecord.eligible (y : AorRecord) (invite : Bool) (now : ℤ) : Bool :=
  y.route.isSome && !(invite && decide (y.expired < now))

/-- **The purpose of `sip_proxy`.** -/
def proxyTarget (relay : Relay σ) (aor : Option Aor) (now : ℤ) (q : Message) (world : σ) :
    Except Fault (ProxyResult σ) :=
  match aor with
  | none => .ok ⟨[], some (sipResponse q 403), world⟩
  | some to_ =>
      match to_.contact.items.find? (·.eligible (msgIsInvite q) now) with
      | none => .ok ⟨[], some (sipResponse q 410), world⟩
      | some next =>
          match relay next q world with
          | .error e => .error e
          | .ok (0, _, world) => .ok ⟨[next], none, world⟩
          | .ok (_, q, world) => .ok ⟨[next], some (sipResponse q 500), world⟩

/-- The relay fails to the first eligible contact, and that is the last of the list. -/
def LastFails (relay : Relay σ) (aor : Option Aor) (now : ℤ) (q : Message) (world : σ) : Prop :=
  ∃ to_ xs next ret q' world', aor = some to_ ∧ to_.contact.items = xs ++ [next] ∧
    (∀ x ∈ xs, x.eligible (msgIsInvite q) now = false) ∧
    next.eligible (msgIsInvite q) now = true ∧ relay next q world = .ok (ret, q', world') ∧ ret ≠ 0

/-! ### The loop -/

variable {relay : Relay σ} {now : ℤ} {q : Message} {world : σ}

/-- What the loop comes to from the nodes `l₂` on. -/
def loopEnd (relay : Relay σ) (now : ℤ) (contact : Map AorRecord) (q : Message) (world : σ) :
    List ℕ → Except Fault (ProxyEnd σ)
  | [] => .ok ⟨false, none, [], q, world⟩
  | a :: l =>
      if (contact.heap a).item.eligible (msgIsInvite q) now then
        relay (contact.heap a).item q world >>= fun res =>
          .ok ⟨decide (res.1 = 0), l.head?, [(contact.heap a).item], res.2.1, res.2.2⟩
      else loopEnd relay now contact q world l

/-- **The loop walks the list** of the nodes up to the first that is eligible. -/
lemma proxyLoop_eq {cmps : List (AorRecord → AorRecord → ℕ → ℤ)} {contact : Map AorRecord}
    {l : List ℕ} (h : MapInv cmps contact l) {fuel : ℕ} (l₁ l₂ : List ℕ) (hl : l = l₁ ++ l₂)
    (hfuel : l₂.length ≤ fuel) :
    proxyLoop relay now contact fuel l₂.head? q world = loopEnd relay now contact q world l₂ := by
  induction fuel generalizing l₁ l₂ with
  | zero =>
      obtain rfl : l₂ = [] := List.eq_nil_of_length_eq_zero (by omega)
      rfl
  | succ fuel ih =>
      rcases l₂ with _ | ⟨a, l₂⟩
      · rfl
      · have hdown := h.listed.down_eq l₁ a l₂ hl
        have hnext := ih (l₁ ++ [a]) l₂ (by simpa using hl) (by simpa using hfuel)
        rw [List.head?_cons, proxyLoop, loopEnd, hdown, hnext]
        by_cases hroute : (contact.heap a).item.route.isSome = true
        · by_cases hexp : msgIsInvite q = true ∧ (contact.heap a).item.expired < now
          · have hnot : (contact.heap a).item.eligible (msgIsInvite q) now = false := by
              simp [AorRecord.eligible, hroute, hexp]
            rw [if_pos hroute, if_pos hexp, hnot, if_neg (by simp)]
          · have hyes : (contact.heap a).item.eligible (msgIsInvite q) now = true := by
              simp only [AorRecord.eligible, hroute, Bool.true_and, Bool.not_eq_true',
                Bool.and_eq_false_iff, decide_eq_false_iff_not]
              rw [not_and_or, Bool.not_eq_true] at hexp
              exact hexp
            rw [if_pos hroute, if_neg hexp, hyes, if_pos rfl]
            refine bind_congr fun ⟨ret, q', world'⟩ => ?_
            by_cases hret : ret = 0
            · simp only [hret, ne_eq, not_true_eq_false, if_false, decide_true]
              rfl
            · simp only [hret, ne_eq, not_false_eq_true, if_true, decide_false]
              rfl
        · have hnot : (contact.heap a).item.eligible (msgIsInvite q) now = false := by
            simp [AorRecord.eligible, hroute]
          rw [if_neg hroute, hnot, if_neg (by simp)]

variable (relay now q world) in
/-- Where the loop ends, by the first contact that is eligible. -/
lemma loopEnd_cases (contact : Map AorRecord) (l : List ℕ) :
    (loopEnd relay now contact q world l = .ok ⟨false, none, [], q, world⟩ ∧
        ∀ a ∈ l, (contact.heap a).item.eligible (msgIsInvite q) now = false) ∨
      ∃ l₁ a l₂, l = l₁ ++ a :: l₂ ∧
        (∀ b ∈ l₁, (contact.heap b).item.eligible (msgIsInvite q) now = false) ∧
        (contact.heap a).item.eligible (msgIsInvite q) now = true ∧
        loopEnd relay now contact q world l =
          relay (contact.heap a).item q world >>= fun res =>
            .ok ⟨decide (res.1 = 0), l₂.head?, [(contact.heap a).item], res.2.1, res.2.2⟩ := by
  induction l with
  | nil => exact Or.inl ⟨rfl, by simp⟩
  | cons a l ih =>
      rw [loopEnd]
      by_cases ha : (contact.heap a).item.eligible (msgIsInvite q) now = true
      · rw [if_pos ha]
        exact Or.inr ⟨[], a, l, rfl, by simp, ha, rfl⟩
      · rw [if_neg ha]
        rw [Bool.not_eq_true] at ha
        rcases ih with ⟨heq, hall⟩ | ⟨l₁, b, l₂, rfl, h₁, hb, heq⟩
        · exact Or.inl ⟨heq, List.forall_mem_cons.mpr ⟨ha, hall⟩⟩
        · exact Or.inr ⟨a :: l₁, b, l₂, rfl, List.forall_mem_cons.mpr ⟨ha, h₁⟩, hb, heq⟩

/-! ### The choice -/

lemma find_eligible {xs₁ : List AorRecord} (xs₂ : List AorRecord) {next : AorRecord} {invite : Bool}
    (h₁ : ∀ x ∈ xs₁, x.eligible invite now = false) (hnext : next.eligible invite now = true) :
    (xs₁ ++ next :: xs₂).find? (·.eligible invite now) = some next := by
  rw [List.find?_append, List.find?_eq_none.mpr (by simpa using h₁), Option.none_or,
    List.find?_cons, hnext]

/-- `LastFails` is about the contact that a search in the list finds. -/
lemma lastFails_iff {to_ : Aor} {xs₁ xs₂ : List AorRecord} {next : AorRecord}
    (hitems : to_.contact.items = xs₁ ++ next :: xs₂)
    (h₁ : ∀ x ∈ xs₁, x.eligible (msgIsInvite q) now = false)
    (hnext : next.eligible (msgIsInvite q) now = true) :
    LastFails relay (some to_) now q world ↔
      xs₂ = [] ∧ ∃ ret q' world', relay next q world = .ok (ret, q', world') ∧ ret ≠ 0 := by
  constructor
  · rintro ⟨to', xs, last, ret, q', world', hto, hlast, hxs, hlast', hrelay, hret⟩
    obtain rfl := Option.some.inj hto
    have hfind := find_eligible xs₂ h₁ hnext
    rw [← hitems, hlast, find_eligible [] hxs hlast'] at hfind
    obtain rfl := Option.some.inj hfind
    refine ⟨?_, ret, q', world', hrelay, hret⟩
    rw [hlast] at hitems
    rcases xs₂.eq_nil_or_concat' with rfl | ⟨ys, y, rfl⟩
    · rfl
    · -- the eligible contact would be among those before it
      have hdrop := congrArg List.dropLast hitems
      rw [List.dropLast_concat, ← List.cons_append, ← List.append_assoc,
        List.dropLast_concat] at hdrop
      have := hxs last (by simp [hdrop])
      rw [hlast'] at this
      exact absurd this (by simp)
  · rintro ⟨rfl, ret, q', world', hrelay, hret⟩
    exact ⟨to_, xs₁, next, ret, q', world', rfl, hitems, h₁, hnext, hrelay, hret⟩

variable (relay) in
/-- The loop over the contacts of an address that a run leaves. -/
lemma proxyLoop_found {lib : AorLib} {evs : List AorEvent} {aors : Map Aor}
    (hrun : aorEvents lib aorInit evs = .ok aors) {name : Option From} {to_ : Aor}
    (hto : aorFind aors name = some to_) (now : ℤ) (q : Message) (world : σ) :
    ∃ k, k.map (fun a => (to_.contact.heap a).item) = to_.contact.items ∧
      proxyLoop relay now to_.contact to_.contact.size.toNat to_.contact.root q world =
        loopEnd relay now to_.contact q world k := by
  obtain ⟨l, hl⟩ := registrar_of_run hrun
  cases name with
  | none => exact absurd hto (by simp [aorFind])
  | some name =>
      obtain ⟨-, a, ha, rfl⟩ := hl.store.store.found name to_ hto
      obtain ⟨k, hk, hitems⟩ := (hl.contacts a ha).lists
      refine ⟨k, hitems, ?_⟩
      rw [hk.listed.root_eq]
      exact proxyLoop_eq hk [] k rfl (by rw [hk.size_eq]; simp)

variable (relay q world) in
/-- The answer for a contact that was tried, by what its relay returns: it is right unless the relay
fails and no node follows. -/
lemma tried_iff (next : AorRecord) (rest : List ℕ) :
    ((relay next q world >>= fun res => (.ok ⟨decide (res.1 = 0), rest.head?, [next], res.2.1,
        res.2.2⟩ : Except Fault (ProxyEnd σ))) >>= fun res =>
      if res.relayed then return ⟨res.tried, none, res.world⟩
      else
        return ⟨res.tried, some (sipResponse res.q (if res.iter.isSome then 500 else 410)),
          res.world⟩) =
      (match relay next q world with
        | .error e => .error e
        | .ok (0, _, world) => .ok ⟨[next], none, world⟩
        | .ok (_, q, world) => .ok ⟨[next], some (sipResponse q 500), world⟩ :
          Except Fault (ProxyResult σ)) ↔
      ¬ (rest = [] ∧ ∃ ret q' world', relay next q world = .ok (ret, q', world') ∧ ret ≠ 0) := by
  cases hrelay : relay next q world with
  | error e =>
      refine iff_of_true rfl ?_
      rintro ⟨-, ret, q', world', hok, -⟩
      exact absurd hok (by simp)
  | ok res =>
      obtain ⟨ret, q', world'⟩ := res
      by_cases hret : ret = 0
      · subst hret
        refine iff_of_true rfl ?_
        rintro ⟨-, ret, q'', world'', hok, hne⟩
        simp only [Except.ok.injEq, Prod.mk.injEq] at hok
        exact hne hok.1.symm
      · have hexists : ∃ ret' q'' world'', (Except.ok (ret, q', world') :
            Except Fault (ℤ × Message × σ)) = .ok (ret', q'', world'') ∧ ret' ≠ 0 :=
          ⟨ret, q', world', rfl, hret⟩
        rw [and_iff_left hexists]
        have htarget : (match (Except.ok (ret, q', world') : Except Fault (ℤ × Message × σ)) with
            | .error e => (.error e : Except Fault (ProxyResult σ))
            | .ok (0, _, world) => .ok ⟨[next], none, world⟩
            | .ok (_, q, world) => .ok ⟨[next], some (sipResponse q 500), world⟩) =
            .ok ⟨[next], some (sipResponse q' 500), world'⟩ := by
          split
          · next h => exact absurd h (by simp)
          · next h =>
            simp only [Except.ok.injEq, Prod.mk.injEq] at h
            exact absurd h.1 hret
          · next h =>
            simp only [Except.ok.injEq, Prod.mk.injEq] at h
            obtain ⟨-, rfl, rfl⟩ := h
            rfl
        rw [htarget]
        show (Except.bind (.ok _) _) = _ ↔ _
        simp only [Except.bind, hret, decide_false]
        cases rest with
        | nil =>
            refine iff_of_false ?_ (by simp)
            intro h
            simp [pure, Except.pure, sipResponse] at h
        | cons b rest => exact iff_of_true rfl (by simp)

/-- **`sip_proxy` chooses as it is to**, over every store that a run leaves and any relay, but when
the relay fails to the last contact. -/
theorem sipProxy_iff (lib : AorLib) (evs : List AorEvent) {aors : Map Aor}
    (hrun : aorEvents lib aorInit evs = .ok aors) (relay : Relay σ) (now : ℤ) (q : Message)
    (world : σ) :
    sipProxy relay aors now q world =
        proxyTarget relay (aorFind aors q.to_) now { q with authorizations := [] } world ↔
      ¬ LastFails relay (aorFind aors q.to_) now { q with authorizations := [] } world := by
  rw [sipProxy]
  dsimp only
  generalize ({ q with authorizations := [] } : Message) = q₀
  cases hto : aorFind aors q.to_ with
  | none =>
      refine iff_of_true rfl ?_
      rintro ⟨to_, -, -, -, -, -, hto, -⟩
      exact absurd hto (by simp)
  | some to_ =>
      obtain ⟨k, hitems, hloop⟩ := proxyLoop_found relay hrun hto now q₀ world
      dsimp only
      rw [hloop, proxyTarget]
      rcases loopEnd_cases relay now q₀ world to_.contact k with
        ⟨heq, hall⟩ | ⟨k₁, a, k₂, rfl, h₁, ha, heq⟩
      · -- no contact is eligible
        have hall' : ∀ x ∈ to_.contact.items, x.eligible (msgIsInvite q₀) now = false := by
          rw [← hitems, List.forall_mem_map]
          exact hall
        rw [heq, List.find?_eq_none.mpr (by simpa using hall')]
        refine iff_of_true rfl ?_
        rintro ⟨to', xs, next, ret, q', world', hto', hlast, -, hnext, -⟩
        obtain rfl := Option.some.inj hto'
        rw [hall' next (by simp [hlast])] at hnext
        exact absurd hnext (by simp)
      · rw [List.map_append, List.map_cons] at hitems
        have h₁' : ∀ x ∈ k₁.map fun b => (to_.contact.heap b).item,
            x.eligible (msgIsInvite q₀) now = false := by
          rw [List.forall_mem_map]
          exact h₁
        rw [heq, lastFails_iff hitems.symm h₁' ha, ← hitems, find_eligible _ h₁' ha,
          List.map_eq_nil_iff]
        exact tried_iff relay q₀ world (to_.contact.heap a).item k₂

end Proxy

section Example

/-- The three addresses, with hosts that are addresses. -/
def numericNames : AorLib := { threeNames with inetPton := fun _ => true }

/-- A call to `sip:a@h`. -/
def inviteAlice : Message := { minimalMessage with sipMethod := some (str "INVITE") }

/-- A relay that does nothing and returns a number. -/
def constRelay (ret : ℤ) : Relay Unit := fun _ q world => .ok (ret, q, world)

/-- How many contacts were tried, and the code of the answer. -/
def proxyView (res : Except Fault (ProxyResult Unit)) : Option (ℕ × Option ℤ) :=
  res.toOption.map fun res => (res.tried.length, res.answer.map Message.statusCode)

/-- Three contacts of different weights; the first is to be bound for five seconds. -/
def weighted : List From :=
  [(udpContact "b" "g").lasting "5" "0.9", (udpContact "c" "g").lasting "600" "0.1",
    (udpContact "d" "g").lasting "600" "0.5"]

/-- A call after the first contact has expired: the second is tried, and since its relay fails the
answer is 500. -/
theorem sipProxy_weighted :
    ∃ aors res m, aorEvents numericNames aorInit [registration weighted] = .ok aors ∧
      sipProxy (constRelay (-1)) aors 100 inviteAlice () =
        proxyTarget (constRelay (-1)) (aorFind aors inviteAlice.to_) 100
          { inviteAlice with authorizations := [] } () ∧
      sipProxy (constRelay (-1)) aors 100 inviteAlice () = .ok res ∧
      res.tried.map AorRecord.contact = [(udpContact "c" "g").lasting "600" "0.1"] ∧
      res.answer = some m ∧ m.statusCode = 500 := by
  obtain ⟨aors, hrun, hview⟩ := ok_of_toOption (f := fun aors =>
    ((aorFind aors inviteAlice.to_).map fun to_ =>
        to_.contact.items.dropLast.any (·.eligible (msgIsInvite inviteAlice) 100),
      (sipProxy (constRelay (-1)) aors 100 inviteAlice ()).toOption.map fun res =>
        (res.tried.map AorRecord.contact, res.answer.map Message.statusCode)))
    (show (aorEvents numericNames aorInit [registration weighted]).toOption.map _ =
      some (some true, some ([(udpContact "c" "g").lasting "600" "0.1"], some (500 : ℤ))) by
      decide +kernel)
  obtain ⟨hbefore, hproxy⟩ := Prod.mk.inj hview
  obtain ⟨res, hres, hone⟩ := ok_of_toOption hproxy
  obtain ⟨htried, hanswer⟩ := Prod.mk.inj hone
  obtain ⟨m, hm, hcode⟩ := Option.map_eq_some_iff.mp hanswer
  refine ⟨aors, res, m, hrun, ?_, hres, htried, hm, hcode⟩
  refine (sipProxy_iff numericNames _ hrun (constRelay (-1)) 100 inviteAlice ()).mpr ?_
  -- the contact that is tried is not the last
  rintro ⟨to_, xs, next, ret, q', world', hto, hitems, hxs, -, -, -⟩
  rw [hto, Option.map_some, hitems, List.dropLast_concat, Option.some.injEq,
    List.any_eq_true] at hbefore
  obtain ⟨x, hx, heligible⟩ := hbefore
  have hnot : x.eligible (msgIsInvite inviteAlice) 100 = false := hxs x hx
  rw [hnot] at heligible
  exact absurd heligible (by simp)

/-- **The last contact is answered 410**: the relay to the one contact of an address fails, and the
answer is Gone. -/
theorem last_contact_gone :
    ∃ aors, aorEvents numericNames aorInit [registration [udpContact "b" "g"]] = .ok aors ∧
      (∃ res m, sipProxy (constRelay (-1)) aors 0 inviteAlice () = .ok res ∧
        res.tried.length = 1 ∧ res.answer = some m ∧ m.statusCode = 410) ∧
      sipProxy (constRelay (-1)) aors 0 inviteAlice () ≠
        proxyTarget (constRelay (-1)) (aorFind aors inviteAlice.to_) 0
          { inviteAlice with authorizations := [] } () := by
  obtain ⟨aors, hrun, hview⟩ := ok_of_toOption (f := fun aors =>
    (proxyView (sipProxy (constRelay (-1)) aors 0 inviteAlice ()),
      proxyView (proxyTarget (constRelay (-1)) (aorFind aors inviteAlice.to_) 0
        { inviteAlice with authorizations := [] } ())))
    (show (aorEvents numericNames aorInit [registration [udpContact "b" "g"]]).toOption.map _ =
      some (some (1, some 410), some (1, some 500)) by decide +kernel)
  obtain ⟨hproxy, htarget⟩ := Prod.mk.inj hview
  refine ⟨aors, hrun, ?_, fun heq => ?_⟩
  · obtain ⟨res, hres, hone⟩ := ok_of_toOption hproxy
    obtain ⟨htried, hanswer⟩ := Prod.mk.inj hone
    obtain ⟨m, hm, hcode⟩ := Option.map_eq_some_iff.mp hanswer
    exact ⟨res, m, hres, htried, hm, hcode⟩
  · rw [heq, htarget] at hproxy
    exact absurd hproxy (by decide)

end Example

end SipEcho
