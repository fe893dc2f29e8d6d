import Mathlib.Data.Stream.Init
import SipEcho.Net.Ownership

/-!
Connecting to the broker: how often `net_event_connect_v` tries.

Closing the event of an attempt that failed calls `cmd_release`; when `__con` is that event
already, and it has its id, the connection is opened again, from inside the attempt.

* `Setup.Begins`: the protocol object is made and its CONNECT packet relayed;
* `Named`: between the calls `__con` is no address still to be given;
* `begin_settles`, `begin_reenters`: what an attempt does, by the place where it fails;
* `connect_once_iff`: one call makes one attempt at most, and returns, exactly when the attempt
  does not fail in `cmd_acquire`;
* `connect_forever`: when every attempt does, the call never returns.
-/

namespace SipEcho.Sockets

/-- `cmd_acquire` succeeds: there is memory for the protocol object, for the packet and its chunk,
and the packet fits. -/
def Setup.Begins (t : BusArgs) (a : Setup) : Prop :=
  a.transport = true ∧ a.malloc = true ∧ a.relay = true ∧
    connectRemaining (t.clientId a.port) t.user t.password ≤ 253

/-- A state of the process. -/
def NetReached (t : BusArgs) (s : NetState) : Prop :=
  ∃ ops, socketRun t netInitial ops = .ok s

/-- A call of `net_event_connect_v` for the bus returns, after one attempt at most, if the
surroundings answer `env`. -/
def ConnectsOnce (t : BusArgs) (env : Stream' Setup) (s : NetState) : Prop :=
  ∃ n r s', netEventConnect t (env.take n) .tcp .cmd s = .ok (r, s') ∧
    s'.attempts ≤ s.attempts + 1

/-- The attempt does not fail in `cmd_acquire`: nothing listens, or there is no descriptor, no
memory for the event or its operands; or all goes well. -/
def Settles (t : BusArgs) (s : NetState) (a : Setup) : Prop :=
  (netEventFindByBind s .tcp .cmd).isSome → (a.fd s.opened).isSome → a.calloc = true →
    a.event = true ∧ (a.operand = true → a.Begins t)

/-- `begin` returns `0`. -/
lemma transportBegin_eq_zero {t : BusArgs} {port : ℕ} {malloc relay : Bool} :
    transportBegin t port malloc relay = 0 ↔ malloc = true ∧ relay = true ∧
      connectRemaining (t.clientId port) t.user t.password ≤ 253 := by
  have hid : t.clientId port ≠ [] := by
    intro h
    have := congrArg List.length h
    simp [BusArgs.clientId, str] at this
  have hfits : (∃ p, mqttPackConnectionRequest 256 (t.clientId port) t.user t.password 2 60 =
      .ok (some p)) ↔ connectRemaining (t.clientId port) t.user t.password ≤ 253 :=
    mqttPackConnectionRequest_fits hid
  rw [transportBegin]
  cases malloc with
  | false => simp
  | true =>
      rw [if_pos rfl, ← hfits]
      split
      · rename_i p hp
        cases relay <;> simp [hp]
      · rename_i hp
        rw [hp]
        simp
      · rename_i hp
        rw [hp]
        simp

/-! ### `__con` -/

/-- `__con` is the address of an event that was made. -/
def Named (_ : List ℕ) (s : NetState) : Prop := ∀ c, s.con = some c → c ≤ s.id

lemma named_kept : Kept False Named where
  leak _ h := h
  attempt h := h
  forget _ c hc := absurd hc (by simp)
  name _ haddr c hc := by rwa [← Option.some.inj hc]
  opened h _ _ := h
  made h c hc := Nat.le_succ_of_le (h c hc)
  dropped h _ := h
  closed {held s fd} h := by
    rw [NetState.close]
    split <;> exact h
  passed h := h

lemma NetReached.named {t : BusArgs} {s : NetState} (h : NetReached t s) : Named [] s := by
  obtain ⟨ops, h⟩ := h
  have hinit : Named [] netInitial := fun c hc => absurd hc (by simp [netInitial])
  exact named_kept.run hinit (fun hC => hC.elim) h

/-- At least `k` attempts were made. -/
def Attempted (k : ℕ) (_ : List ℕ) (s : NetState) : Prop := k ≤ s.attempts

/-- No call takes an attempt back. -/
lemma attempts_kept (k : ℕ) : Kept False (Attempted k) where
  leak _ h := h
  attempt h := Nat.le_succ_of_le h
  forget h := h
  name h _ := h
  opened h _ _ := h
  made h := h
  dropped h _ := h
  closed {held s fd} h := by
    rw [NetState.close]
    split <;> exact h
  passed h := h

/-! ### One attempt -/

section Attempt

variable {t : BusArgs} {a : Setup} {as : List Setup} {s s' : NetState} {fd : ℕ}
  {reopen : NetCall ℤ} {r : Option SocketEvent} {env : Stream' Setup}

/-- The event of a connection to the broker. -/
def busEvent (s : NetState) (fd : ℕ) : SocketEvent :=
  { addr := s.id + 1, id := s.id + 1, fd, net := .tcp, app := .cmd, type := .connect }

/-- An attempt, when something listens. -/
lemma connect_eq (hbound : (netEventFindByBind s .tcp .cmd).isSome) (a : Setup)
    (as : List Setup) :
    netEventConnect t (a :: as) .tcp .cmd s =
      match a.fd s.opened with
      | none => .ok (none, { s with attempts := s.attempts + 1 })
      | some fd =>
          netEventBegin t (netOpen t as) a fd .tcp .cmd .connect (netOperand a .cmd)
            { s with attempts := s.attempts + 1, opened := fd :: s.opened } := by
  obtain ⟨bound, hb⟩ := Option.isSome_iff_exists.mp hbound
  have hlike := List.find?_some hb
  simp only [decide_eq_true_eq] at hlike
  rw [netEventConnect]
  dsimp only
  rw [hb]
  dsimp only
  rw [hlike.1, hlike.2.1]
  rfl

/-- The state once that event is in the map. -/
def NetState.withBus (s : NetState) (fd : ℕ) : NetState :=
  { s with id := s.id + 1, events := busEvent s fd :: s.events }

lemma begin_eq (hcalloc : a.calloc = true) (hevent : a.event = true) :
    netEventBegin t reopen a fd .tcp .cmd .connect (netOperand a .cmd) s =
      if (netSetUp t a (busEvent s fd) (netOperand a .cmd) (s.withBus fd)).1 then
        .ok (some (busEvent s fd),
          (netSetUp t a (busEvent s fd) (netOperand a .cmd) (s.withBus fd)).2)
      else do
        let (_, s) ← netEventClose reopen (busEvent s fd)
          (netSetUp t a (busEvent s fd) (netOperand a .cmd) (s.withBus fd)).2
        return (none, s) := by
  rw [netEventBegin, netEventNew, hcalloc, hevent]
  rfl

/-- The operands come first, and then `cmd_acquire`, which names the event before it can fail. -/
lemma setUp_bus (s₁ : NetState) :
    netSetUp t a (busEvent s fd) (netOperand a .cmd) s₁ =
      if a.operand then
        (a.transport && transportBegin t a.port a.malloc a.relay = 0,
          { s₁ with con := some (s.id + 1) })
      else (false, s₁) := by
  cases hoperand : a.operand with
  | false =>
      rw [netSetUp, netOperand, hoperand]
      rfl
  | true =>
      have hassign : netAssign a (busEvent s fd).net = 0 := rfl
      have hacquire : netAcquire t a (busEvent s fd) s₁ =
          (if a.transport then transportBegin t a.port a.malloc a.relay else -1,
            { s₁ with con := some (s.id + 1) }) := by
        rw [netAcquire]
        show cmdAcquire t a (busEvent s fd) s₁ = _
        rw [cmdAcquire, if_pos (show (busEvent s fd).type = .connect from rfl)]
        dsimp only
        split <;> rfl
      rw [netSetUp, if_neg (by simp [netOperand, hoperand]), hacquire, hassign]
      cases a.transport <;> simp

/-- The event is closed when `__con` is another one. -/
lemma close_other (reopen : NetCall ℤ) (fd : ℕ) (h : s.con ≠ some (s'.id + 1)) :
    ∃ s₁, netEventClose reopen (busEvent s' fd) s = .ok ((), s₁) ∧ s₁.attempts = s.attempts := by
  refine ⟨if 0 < fd then { s with events := s.events.erase (busEvent s' fd) }.close fd
    else { s with events := s.events.erase (busEvent s' fd) }, ?_, ?_⟩
  · rw [netEventClose, netEventFree]
    show (cmdRelease reopen (busEvent s' fd) _ >>= _) >>= _ = _
    rw [cmdRelease, if_neg (show _ ≠ some (busEvent s' fd).addr from h)]
    rfl
  · split
    · rw [NetState.close]
      split <;> rfl
    · rfl

/-- **The event is closed when `__con` is this one**: the connection is opened again first. -/
lemma close_named (h : s.con = some (s'.id + 1)) :
    netEventClose reopen (busEvent s' fd) s = do
      let (_, s) ← reopen { s with con := none, events := s.events.erase (busEvent s' fd) }
      return ((), if 0 < fd then s.close fd else s) := by
  rw [netEventClose, netEventFree]
  show (cmdRelease reopen (busEvent s' fd) _ >>= _) >>= _ = _
  rw [cmdRelease, if_pos (show _ = some (busEvent s' fd).addr from h),
    if_pos (show (busEvent s' fd).id ≠ 0 from Nat.succ_ne_zero _)]
  simp only [bind_assoc]
  rfl

/-- **The attempt fails before `cmd_acquire`, or succeeds**: it is the only one. -/
lemma begin_settles (reopen : NetCall ℤ) (fd : ℕ) (hs : Named [] s)
    (hsettles : a.calloc = true → a.event = true ∧ (a.operand = true → a.Begins t)) :
    ∃ r s', netEventBegin t reopen a fd .tcp .cmd .connect (netOperand a .cmd) s = .ok (r, s') ∧
      s'.attempts = s.attempts := by
  cases hcalloc : a.calloc with
  | false =>
      rw [netEventBegin, netEventNew, hcalloc]
      exact ⟨_, _, rfl, rfl⟩
  | true =>
      obtain ⟨hevent, hbegins⟩ := hsettles hcalloc
      rw [begin_eq hcalloc hevent, setUp_bus]
      cases hoperand : a.operand with
      | false =>
          have hcon : (s.withBus fd).con ≠ some (s.id + 1) := fun h => by
            have := hs _ h
            omega
          obtain ⟨s₁, hclose, hattempts⟩ := close_other reopen fd hcon
          refine ⟨none, s₁, ?_, hattempts⟩
          rw [if_neg (by simp)]
          show (netEventClose reopen (busEvent s fd) (s.withBus fd) >>= _) = _
          rw [hclose]
          rfl
      | true =>
          obtain ⟨h1, hbegin⟩ := hbegins hoperand
          rw [← transportBegin_eq_zero] at hbegin
          rw [if_pos rfl, h1, hbegin, if_pos (by simp)]
          exact ⟨_, _, rfl, rfl⟩

/-- **The attempt fails in `cmd_acquire`**: the connection is opened again. -/
lemma begin_reenters (reopen : NetCall ℤ) (fd : ℕ) (hcalloc : a.calloc = true)
    (hevent : a.event = true) (hoperand : a.operand = true) (hbegins : ¬ a.Begins t) :
    ∃ s₁, s₁.attempts = s.attempts ∧ s₁.events = s.events ∧ s₁.opened = s.opened ∧
      netEventBegin t reopen a fd .tcp .cmd .connect (netOperand a .cmd) s = do
        let (_, s) ← reopen s₁
        return (none, if 0 < fd then s.close fd else s) := by
  refine ⟨{ s.withBus fd with con := none, events := s.events }, rfl, rfl, rfl, ?_⟩
  have hready : (a.transport && transportBegin t a.port a.malloc a.relay = 0) = false := by
    rw [Bool.and_eq_false_iff, decide_eq_false_iff_not, transportBegin_eq_zero]
    by_contra hno
    rw [not_or, Bool.not_eq_false, not_not] at hno
    exact hbegins hno
  rw [begin_eq hcalloc hevent, setUp_bus, if_pos hoperand, hready, if_neg (by simp),
    close_named rfl]
  simp only [bind_assoc]
  have hevents : (s.withBus fd).events.erase (busEvent s fd) = s.events :=
    List.erase_cons_head _ _
  rw [hevents]
  rfl

/-- A call that returns has made an attempt, when something listens. -/
lemma connect_attempts (hbound : (netEventFindByBind s .tcp .cmd).isSome)
    (h : netEventConnect t as .tcp .cmd s = .ok (r, s')) : s.attempts + 1 ≤ s'.attempts := by
  cases as with
  | nil => exact absurd h (by simp [netEventConnect, throw, throwThe, MonadExceptOf.throw])
  | cons a as =>
      have hkept := attempts_kept (s.attempts + 1)
      rw [connect_eq hbound] at h
      split at h
      · obtain ⟨-, rfl⟩ := Prod.mk.inj (Except.ok.inj h)
        exact le_rfl
      · rename_i fd hfd
        have hattempted : Attempted (s.attempts + 1) [fd]
            { s with attempts := s.attempts + 1, opened := fd :: s.opened } := le_refl _
        exact hkept.begin (hkept.netOpen fun hC => hC.elim) hattempted (fun hC => hC.elim) h

end Attempt

/-! ### The call -/

/-- **One call makes one attempt at most, and returns**, exactly when the attempt does not fail in
`cmd_acquire`. -/
theorem connect_once_iff {t : BusArgs} {s : NetState} (hs : NetReached t s)
    (env : Stream' Setup) : ConnectsOnce t env s ↔ Settles t s env.head := by
  constructor
  · rintro ⟨n, r, s', hcall, hle⟩ hbound hfd hcalloc
    obtain ⟨fd, hfd⟩ := Option.isSome_iff_exists.mp hfd
    cases n with
    | zero =>
        exact absurd hcall (by simp [netEventConnect, throw, throwThe, MonadExceptOf.throw])
    | succ n =>
        rw [Stream'.take_succ, connect_eq hbound, hfd] at hcall
        dsimp only at hcall
        cases hevent : env.head.event with
        | false =>
            rw [netEventBegin, netEventNew, hcalloc, hevent] at hcall
            exact absurd hcall (by simp [throw, throwThe, MonadExceptOf.throw, bind, Except.bind])
        | true =>
            refine ⟨rfl, fun hoperand => ?_⟩
            by_contra hbegins
            -- the connection is opened again, and that is another attempt
            obtain ⟨s₁, hattempts, hevents, -, heq⟩ := begin_reenters
              (netOpen t (env.tail.take n)) fd
              (s := { s with attempts := s.attempts + 1, opened := fd :: s.opened })
              hcalloc hevent hoperand hbegins
            rw [heq] at hcall
            obtain ⟨⟨m, s₂⟩, hopen, hcall⟩ := Lib.ok_of_bind hcall
            obtain ⟨⟨e, s₃⟩, hconnect, hopen⟩ := Lib.ok_of_bind hopen
            obtain ⟨-, rfl⟩ := Prod.mk.inj (Except.ok.inj hopen)
            obtain ⟨-, rfl⟩ := Prod.mk.inj (Except.ok.inj hcall)
            have hbound₁ : (netEventFindByBind s₁ .tcp .cmd).isSome := by
              rw [netEventFindByBind, hevents]
              exact hbound
            have hagain := connect_attempts hbound₁ hconnect
            have hclose : (if 0 < fd then s₃.close fd else s₃).attempts = s₃.attempts := by
              split
              · rw [NetState.close]
                split <;> rfl
              · rfl
            dsimp only at hattempts
            omega
  · intro hsettles
    have htake : env.take 1 = [env.head] := rfl
    refine ⟨1, ?_⟩
    rw [htake]
    cases hbound : netEventFindByBind s .tcp .cmd with
    | none =>
        refine ⟨none, s, ?_, Nat.le_succ _⟩
        rw [netEventConnect]
        dsimp only
        rw [hbound]
        rfl
    | some bound =>
        rw [connect_eq (by rw [hbound]; rfl)]
        cases hfd : env.head.fd s.opened with
        | none => exact ⟨none, _, rfl, le_rfl⟩
        | some fd =>
            have hnamed : Named []
                { s with attempts := s.attempts + 1, opened := fd :: s.opened } := hs.named
            obtain ⟨r, s', hcall, hattempts⟩ := begin_settles (netOpen t []) fd
              hnamed (hsettles (by rw [hbound]; rfl) (by rw [hfd]; rfl))
            exact ⟨r, s', hcall, hattempts.le⟩

/-- A call each attempt of which fails in `cmd_acquire` never returns. -/
lemma connect_forever {t : BusArgs} {a : Setup} {s : NetState}
    (hbound : (netEventFindByBind s .tcp .cmd).isSome) (hfd : ∀ l, (a.fd l).isSome)
    (hcalloc : a.calloc = true) (hevent : a.event = true) (hoperand : a.operand = true)
    (hbegins : ¬ a.Begins t) (n : ℕ) :
    netEventConnect t (List.replicate n a) .tcp .cmd s = .error .fuel := by
  induction n generalizing s with
  | zero => rfl
  | succ n ih =>
      obtain ⟨fd, hfd'⟩ := Option.isSome_iff_exists.mp (hfd s.opened)
      rw [List.replicate_succ, connect_eq hbound, hfd']
      obtain ⟨s₁, -, hevents, -, heq⟩ := begin_reenters
        (netOpen t (List.replicate n a)) fd
        (s := { s with attempts := s.attempts + 1, opened := fd :: s.opened })
        hcalloc hevent hoperand hbegins
      have hbound₁ : (netEventFindByBind s₁ .tcp .cmd).isSome := by
        rw [netEventFindByBind, hevents]
        exact hbound
      dsimp only
      rw [heq, netOpen, ih hbound₁]
      rfl

/-! ### A long host name -/

/-- The listener of the bus. -/
def busListening : NetState where
  events := [⟨1, 1, 3, .tcp, .cmd, .listen⟩]
  id := 1
  con := none
  opened := [3]
  stray := []
  attempts := 0

lemma busListening_reached (t : BusArgs) : NetReached t busListening :=
  ⟨[.bind (granted 3) .tcp .cmd], rfl⟩

/-- The arguments of `main`, on a host with a long name. -/
def longArgs : BusArgs := { routeArgs with host := List.replicate 240 104 }

/-- A descriptor that is not open, and everything else is granted. -/
def grantedAny : Setup :=
  { granted 0 with
    fd := fun opened => some (opened.foldr max 0 + 1)
    fd_new := fun opened fd' h hmem => by
      have hle : fd' ≤ opened.foldr max 0 := by
        clear h
        induction opened with
        | nil => exact absurd hmem (by simp)
        | cons x l ih =>
            rw [List.foldr_cons]
            rcases List.mem_cons.mp hmem with rfl | hmem
            · exact le_max_left _ _
            · exact (ih hmem).trans (le_max_right _ _)
      have := Option.some.inj h
      omega }

lemma longArgs_begins : ¬ grantedAny.Begins longArgs := by
  rintro ⟨-, -, -, hle⟩
  revert hle
  decide +kernel

/-- A host with a short name. -/
theorem connect_once_short : ConnectsOnce routeArgs (Stream'.const grantedAny) busListening := by
  rw [connect_once_iff (busListening_reached _)]
  refine fun _ _ _ => ⟨rfl, fun _ => ⟨rfl, rfl, rfl, ?_⟩⟩
  decide +kernel

/-- **A CONNECT packet that does not fit its buffer** takes the program into a call that never
returns. -/
theorem long_host_never_returns :
    (∀ n, netEventConnect longArgs ((Stream'.const grantedAny).take n) .tcp .cmd busListening =
      .error .fuel) ∧
    ¬ ConnectsOnce longArgs (Stream'.const grantedAny) busListening := by
  have hnever (n : ℕ) : netEventConnect longArgs ((Stream'.const grantedAny).take n) .tcp .cmd
      busListening = .error .fuel := by
    have htake : (Stream'.const grantedAny).take n = List.replicate n grantedAny := by
      induction n with
      | zero => rfl
      | succ n ih => rw [Stream'.take_succ, List.replicate_succ, ← ih]; rfl
    rw [htake]
    exact connect_forever rfl (fun l => rfl) rfl rfl rfl longArgs_begins n
  refine ⟨hnever, ?_⟩
  rintro ⟨n, r, s', h, -⟩
  rw [hnever n] at h
  exact absurd h (by simp)

end SipEcho.Sockets
