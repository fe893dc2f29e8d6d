import SipEcho.Net.Sockets

/-!
Who closes a descriptor: the descriptors the process has open, against those of the events in its
map.

* `SocketOp`, `socketStep`, `socketRun`: what can happen to the events, in any order;
* `Careful`: the step frees no outgoing connection without closing it;
* `Kept C P`: what is kept by opening, closing and naming an event is kept by every call
  (`Kept.connect`) and by every step (`Kept.step`), in careful runs if `C`;
* `Owns held s`: the open descriptors are those of the events and those in `held`, each once;
* `descriptors_owned`: in every run of careful steps every descriptor has its event.
-/

namespace SipEcho.Sockets

/-! ### Callbacks -/

/-- `net_callback_accept`; `a.fd` is what `accept` gives. -/
def netCallbackAccept (t : BusArgs) (a : Setup) (e : SocketEvent) : NetCall Unit := fun s =>
  match a.fd s.opened with
  | none => return ((), s)
  | some c => do
      let (child, s) ← netEventNew a c e.net e.app .accept { s with opened := c :: s.opened }
      match child with
      | none => return ((), s.close c)
      | some child => do
          let (ready, s) := netSetUp t a child 0 s
          if ready then return ((), s) else netEventClose (netOpen t []) child s

/-- The end of `net_callback_inout`, when everything went well or when not. -/
def netCallbackInout (t : BusArgs) (a : Setup) (as : List Setup) (e : SocketEvent)
    (well idle : Bool) : NetCall Unit := fun s =>
  if well then netEventUpdate (netOpen t as) e idle s
  else if e.type = .listen then do
    let (_, s) ← netEventClose (netOpen t as) e s
    let (_, s) ← netEventOpen t a [] e.net e.app s
    return ((), s)
  else netEventClose (netOpen t as) e s

/-- `net_callback_connect`. -/
def netCallbackConnect (t : BusArgs) (as : List Setup) (e : SocketEvent) (well idle : Bool) :
    NetCall Unit := fun s =>
  if well then netEventUpdate (netOpen t as) e idle s else netEventClose (netOpen t as) e s

/-- `sip_relay`, from where it has an event; `sent` says that there is a transaction. -/
def sipRelay (t : BusArgs) (as : List Setup) (e : SocketEvent) (sent idle : Bool) :
    NetCall Unit := fun s =>
  if sent then netEventUpdate (netOpen t as) e idle s
  else if e.type = .connect then do
    let (_, s) ← netEventFree (netOpen t as) e s
    return ((), s)
  else return ((), s)

/-- `map_free(__event)`, the first of the events `es` being the next. -/
def netFree (t : BusArgs) : List SocketEvent → NetState → Except Fault NetState
  | [], s => return s
  | e :: es, s => do
      let (_, s) ← netEventDeleteId (netOpen t []) e { s with events := s.events.erase e }
      netFree t es s

/-! ### Runs -/

/-- What can happen to the events.  An event is given by its address. -/
inductive SocketOp where
  /-- `net_bind` -/
  | bind (a : Setup) (net : NetName) (app : App)
  /-- `net_open`, and `net_event_connect` in `sip_relay` -/
  | open (as : List Setup) (net : NetName) (app : App)
  | accept (a : Setup) (addr : ℕ)
  | inout (a : Setup) (as : List Setup) (addr : ℕ) (well idle : Bool)
  | connected (as : List Setup) (addr : ℕ) (well idle : Bool)
  /-- `net_event_update`, wherever something was queued or a transaction has ended -/
  | update (as : List Setup) (addr : ℕ) (idle : Bool)
  | relay (as : List Setup) (addr : ℕ) (sent idle : Bool)
  /-- `net_free` -/
  | free

/-- The event with an address. -/
def NetState.at (s : NetState) (addr : ℕ) : Option SocketEvent :=
  s.events.find? fun e => e.addr = addr

/-- A call on the event with an address. -/
def NetState.call (s : NetState) (addr : ℕ) (f : SocketEvent → NetCall Unit) :
    Except Fault NetState :=
  match s.at addr with
  | some e => do return (← f e s).2
  | none => return s

/-- One step. -/
def socketStep (t : BusArgs) (s : NetState) : SocketOp → Except Fault NetState
  | .bind a net app => do return (← netEventOpen t a [] net app s).2
  | .open as net app => do return (← netEventConnect t as net app s).2
  | .accept a addr => s.call addr (netCallbackAccept t a)
  | .inout a as addr well idle => s.call addr fun e => netCallbackInout t a as e well idle
  | .connected as addr well idle => s.call addr fun e => netCallbackConnect t as e well idle
  | .update as addr idle => s.call addr fun e => netEventUpdate (netOpen t as) e idle
  | .relay as addr sent idle => s.call addr fun e => sipRelay t as e sent idle
  | .free => netFree t s.events s

def socketRun (t : BusArgs) (s : NetState) : List SocketOp → Except Fault NetState
  | [] => return s
  | op :: ops => do socketRun t (← socketStep t s op) ops

/-- Before the first event. -/
def netInitial : NetState where
  events := []
  id := 0
  con := none
  opened := []
  stray := []
  attempts := 0

/-- **Every descriptor has its event**: the open descriptors are those of the events in the map,
each once, and no other descriptor was ever closed. -/
structure NetState.Owned (s : NetState) : Prop where
  opened_perm : s.opened.Perm (s.events.map SocketEvent.fd)
  nodup : s.opened.Nodup
  stray_eq : s.stray = []

/-- A new descriptor is not `0`, and there is memory for its event. -/
def Setup.Sound (a : Setup) (opened : List ℕ) : Prop :=
  ∀ fd, a.fd opened = some fd → 0 < fd ∧ a.calloc = true

/-- The step frees no outgoing connection without closing it: none that is idle, and none in the
failure exit of `sip_relay`.  Every new descriptor gets its event, and is not `0`. -/
def Careful (s : NetState) : SocketOp → Prop
  | .bind a _ _ => a.Sound s.opened
  | .open as _ _ => ∀ a ∈ as, ∀ l, a.Sound l
  | .accept a _ => ∀ fd, a.fd s.opened = some fd → 0 < fd
  | .inout a as addr well idle => ∀ e, s.at addr = some e →
      (well = true → ¬ (e.type = .connect ∧ e.app ≠ .cmd ∧ idle = true)) ∧
      (well = false → (∀ a ∈ as, ∀ l, a.Sound l) ∧ ∀ l, a.Sound l)
  | .connected as addr well idle => ∀ e, s.at addr = some e →
      (well = true → ¬ (e.type = .connect ∧ e.app ≠ .cmd ∧ idle = true)) ∧
      (well = false → ∀ a ∈ as, ∀ l, a.Sound l)
  | .update _ addr idle => ∀ e, s.at addr = some e →
      ¬ (e.type = .connect ∧ e.app ≠ .cmd ∧ idle = true)
  | .relay _ addr sent idle => ∀ e, s.at addr = some e → e.type = .connect →
      sent = true ∧ ¬ (e.app ≠ .cmd ∧ idle = true)
  | .free => True

/-- Every step of a run is. -/
def CarefulRun (t : BusArgs) (s : NetState) : List SocketOp → Prop
  | [] => True
  | op :: ops => Careful s op ∧ ∀ s', socketStep t s op = .ok s' → CarefulRun t s' ops

/-! ### What is kept -/

/-- `P held` is kept by what a call does to the events, with the descriptors `held` in hand; in a
run that is careful (`C`) none of them is 0 and none is dropped. -/
structure Kept (C : Prop) (P : List ℕ → NetState → Prop) : Prop where
  leak {held : List ℕ} {s : NetState} {fd : ℕ} : ¬ C → P (fd :: held) s → P held s
  attempt {held : List ℕ} {s : NetState} : P held s →
    P held { s with attempts := s.attempts + 1 }
  forget {held : List ℕ} {s : NetState} : P held s → P held { s with con := none }
  name {held : List ℕ} {s : NetState} {addr : ℕ} : P held s → addr ≤ s.id →
    P held { s with con := some addr }
  opened {held : List ℕ} {s : NetState} {fd : ℕ} : P held s → fd ∉ s.opened → (C → 0 < fd) →
    P (fd :: held) { s with opened := fd :: s.opened }
  made {held : List ℕ} {s : NetState} {e : SocketEvent} : P (e.fd :: held) s →
    P held { s with id := s.id + 1, events := e :: s.events }
  dropped {held : List ℕ} {s : NetState} {e : SocketEvent} : P held s → e ∈ s.events →
    P (e.fd :: held) { s with events := s.events.erase e }
  closed {held : List ℕ} {s : NetState} {fd : ℕ} : P (fd :: held) s → P held (s.close fd)
  passed {held : List ℕ} {s : NetState} : P (0 :: held) s → P held s

/-- A call keeps `P`, whatever is in hand, if it returns. -/
def Keeps (P : List ℕ → NetState → Prop) {α : Type} (f : NetCall α) : Prop :=
  ∀ held s a s', P held s → f s = .ok (a, s') → P held s'

namespace Kept

variable {C : Prop} {P : List ℕ → NetState → Prop} {held : List ℕ} {reopen : NetCall ℤ}
  {t : BusArgs} {as : List Setup} {a : Setup} {e : SocketEvent} {s s' : NetState} {fd : ℕ}
  {idle well : Bool} {u : Unit}

/-- `net_event_delete` does nothing but open the connection to the broker again. -/
lemma delete (hP : Kept C P) (hre : Keeps P reopen) (hs : P held s)
    (h : netEventDelete reopen e s = .ok (fd, s')) : fd = e.fd ∧ P held s' := by
  have hrelease {n : ℤ} {s₁ : NetState} (h : cmdRelease reopen e s = .ok (n, s₁)) :
      P held s₁ := by
    rw [cmdRelease] at h
    split at h
    · dsimp only at h
      split at h
      · exact hre _ _ _ _ (hP.forget hs) h
      · obtain ⟨-, rfl⟩ := Prod.mk.inj (Except.ok.inj h)
        exact hP.forget hs
    · obtain ⟨-, rfl⟩ := Prod.mk.inj (Except.ok.inj h)
      exact hs
  rw [netEventDelete] at h
  split at h
  · obtain ⟨⟨n, s₁⟩, h₁, h⟩ := Lib.ok_of_bind h
    obtain ⟨rfl, rfl⟩ := Prod.mk.inj (Except.ok.inj h)
    exact ⟨rfl, hrelease h₁⟩
  · obtain ⟨rfl, rfl⟩ := Prod.mk.inj (Except.ok.inj h)
    exact ⟨rfl, hs⟩
  · obtain ⟨rfl, rfl⟩ := Prod.mk.inj (Except.ok.inj h)
    exact ⟨rfl, hs⟩

/-- `if (s > 0) close(s)`. -/
lemma closed_if (hP : Kept C P) (hs : P (fd :: held) s) :
    P held (if 0 < fd then s.close fd else s) := by
  split
  · exact hP.closed hs
  · obtain rfl : fd = 0 := by omega
    exact hP.passed hs

/-- `net_event_free` leaves the descriptor in hand. -/
lemma free (hP : Kept C P) (hre : Keeps P reopen) (hs : P held s) (he : e ∈ s.events)
    (h : netEventFree reopen e s = .ok (fd, s')) : P (e.fd :: held) s' :=
  (hP.delete hre (hP.dropped hs he) h).2

/-- **`net_event_close`** closes what it frees. -/
lemma close (hP : Kept C P) (hre : Keeps P reopen) (hs : P held s) (he : e ∈ s.events)
    (h : netEventClose reopen e s = .ok (u, s')) : P held s' := by
  obtain ⟨⟨fd, s₁⟩, hfree, h⟩ := Lib.ok_of_bind h
  obtain ⟨rfl, hs₁⟩ := hP.delete hre (hP.dropped hs he) hfree
  obtain ⟨-, rfl⟩ := Prod.mk.inj (Except.ok.inj h)
  exact hP.closed_if hs₁

/-- `net_event_new` takes the descriptor in hand. -/
lemma new (hP : Kept C P) (hs : P (fd :: held) s) {net : NetName} {app : App} {type : NetType}
    {r : Option SocketEvent} (h : netEventNew a fd net app type s = .ok (r, s')) :
    (r = none ∧ a.calloc = false ∧ s' = s) ∨
      ∃ e, r = some e ∧ e ∈ s'.events ∧ e.addr = s'.id ∧ P held s' := by
  rw [netEventNew] at h
  split at h
  · split at h
    · split at h
      · exact absurd h (by simp [throw, throwThe, MonadExceptOf.throw])
      · obtain ⟨rfl, rfl⟩ := Prod.mk.inj (Except.ok.inj h)
        exact Or.inr ⟨_, rfl, List.mem_cons_self, rfl, hP.made hs⟩
    · exact absurd h (by simp [throw, throwThe, MonadExceptOf.throw])
  · rename_i hcalloc
    obtain ⟨rfl, rfl⟩ := Prod.mk.inj (Except.ok.inj h)
    exact Or.inl ⟨rfl, by simpa using hcalloc, rfl⟩

/-- Setting up an event changes nothing but `__con`. -/
lemma setUp (hP : Kept C P) (hs : P held s) (he : e.addr ≤ s.id) (before : ℤ) :
    P held (netSetUp t a e before s).2 ∧
      (netSetUp t a e before s).2.events = s.events := by
  rw [netSetUp]
  split
  · exact ⟨hs, rfl⟩
  · dsimp only
    rw [netAcquire]
    split
    · rw [cmdAcquire]
      split
      · dsimp only
        split <;> exact ⟨hP.name hs he, rfl⟩
      · exact ⟨hs, rfl⟩
    · exact ⟨hs, rfl⟩
    · exact ⟨hs, rfl⟩

/-- **An event is set up** over the descriptor in hand, or both are gone. -/
lemma begin (hP : Kept C P) (hre : Keeps P reopen) (hs : P (fd :: held) s)
    (hcalloc : C → a.calloc = true) {net : NetName} {app : App} {type : NetType} {before : ℤ}
    {r : Option SocketEvent} (h : netEventBegin t reopen a fd net app type before s = .ok (r, s')) :
    P held s' := by
  obtain ⟨⟨e, s₁⟩, hnew, h⟩ := Lib.ok_of_bind h
  obtain ⟨rfl, hno, heq⟩ | ⟨e, rfl, he, haddr, hs₁⟩ := hP.new hs hnew
  · obtain ⟨-, rfl⟩ := Prod.mk.inj (Except.ok.inj h)
    rw [heq]
    refine hP.leak (fun hC => ?_) hs
    rw [hcalloc hC] at hno
    exact absurd hno (by simp)
  · obtain ⟨hs₂, hevents⟩ := hP.setUp (t := t) (a := a) hs₁ haddr.le before
    dsimp only at h
    split at h
    · obtain ⟨-, rfl⟩ := Prod.mk.inj (Except.ok.inj h)
      exact hs₂
    · obtain ⟨⟨u, s₃⟩, hclose, h⟩ := Lib.ok_of_bind h
      obtain ⟨-, rfl⟩ := Prod.mk.inj (Except.ok.inj h)
      exact hP.close hre hs₂ (hevents ▸ he) hclose

/-- **Connecting**, over and over inside each other if it fails. -/
lemma connect (hP : Kept C P) (has : C → ∀ a ∈ as, ∀ l, a.Sound l) (net : NetName) (app : App) :
    Keeps P (netEventConnect t as net app) := by
  induction as generalizing net app with
  | nil =>
      intro held s r s' hs h
      exact absurd h (by simp [netEventConnect, throw, throwThe, MonadExceptOf.throw])
  | cons a as ih =>
      intro held s r s' hs h
      rw [netEventConnect] at h
      dsimp only at h
      split at h
      · obtain ⟨-, rfl⟩ := Prod.mk.inj (Except.ok.inj h)
        exact hs
      · split at h
        · obtain ⟨-, rfl⟩ := Prod.mk.inj (Except.ok.inj h)
          exact hs
        · obtain ⟨-, rfl⟩ := Prod.mk.inj (Except.ok.inj h)
          exact hP.attempt hs
        · split at h
          · obtain ⟨-, rfl⟩ := Prod.mk.inj (Except.ok.inj h)
            exact hP.attempt hs
          · rename_i fd hfd
            have hsound (hC : C) := has hC a (by simp) _ fd hfd
            refine hP.begin ?_ (hP.opened (hP.attempt hs) (a.fd_new _ _ hfd)
              fun hC => (hsound hC).1) (fun hC => (hsound hC).2) h
            intro held s₁ n s₂ hs₁ hre
            obtain ⟨⟨e, s₃⟩, hconnect, hre⟩ := Lib.ok_of_bind hre
            obtain ⟨-, rfl⟩ := Prod.mk.inj (Except.ok.inj hre)
            exact ih (fun hC a ha => has hC a (List.mem_cons_of_mem _ ha)) .tcp .cmd _ _ _ _ hs₁
              hconnect

lemma netOpen (hP : Kept C P) (has : C → ∀ a ∈ as, ∀ l, a.Sound l) :
    Keeps P (netOpen t as) := by
  intro held s n s' hs h
  obtain ⟨⟨e, s₁⟩, hconnect, h⟩ := Lib.ok_of_bind h
  obtain ⟨-, rfl⟩ := Prod.mk.inj (Except.ok.inj h)
  exact hP.connect has .tcp .cmd _ _ _ _ hs hconnect

lemma netOpen_nil (hP : Kept C P) : Keeps P (Sockets.netOpen t []) :=
  hP.netOpen fun _ _ ha => absurd ha (by simp)

/-! ### Steps -/

lemma netEventOpen (hP : Kept C P) (hs : P held s) (ha : C → a.Sound s.opened) {net : NetName}
    {app : App} {r : Option SocketEvent}
    (h : netEventOpen t a [] net app s = .ok (r, s')) : P held s' := by
  rw [Sockets.netEventOpen] at h
  split at h
  · obtain ⟨-, rfl⟩ := Prod.mk.inj (Except.ok.inj h)
    exact hs
  · rename_i fd hfd
    exact hP.begin hP.netOpen_nil (hP.opened hs (a.fd_new _ _ hfd) fun hC => (ha hC fd hfd).1)
      (fun hC => (ha hC fd hfd).2) h

lemma netCallbackAccept (hP : Kept C P) (hs : P held s)
    (ha : C → ∀ fd, a.fd s.opened = some fd → 0 < fd)
    (h : netCallbackAccept t a e s = .ok (u, s')) : P held s' := by
  rw [Sockets.netCallbackAccept] at h
  split at h
  · obtain ⟨-, rfl⟩ := Prod.mk.inj (Except.ok.inj h)
    exact hs
  · rename_i c hc
    have hopened := hP.opened hs (a.fd_new _ _ hc) fun hC => ha hC c hc
    obtain ⟨⟨child, s₁⟩, hnew, h⟩ := Lib.ok_of_bind h
    obtain ⟨rfl, -, heq⟩ | ⟨child, rfl, hmem, haddr, hs₁⟩ := hP.new hopened hnew
    · obtain ⟨-, rfl⟩ := Prod.mk.inj (Except.ok.inj h)
      rw [heq]
      exact hP.closed hopened
    · obtain ⟨hs₂, hevents⟩ := hP.setUp (t := t) (a := a) hs₁ haddr.le 0
      dsimp only at h
      split at h
      · obtain ⟨-, rfl⟩ := Prod.mk.inj (Except.ok.inj h)
        exact hs₂
      · exact hP.close hP.netOpen_nil hs₂ (hevents ▸ hmem) h

/-- An event that is freed without being closed. -/
lemma freed (hP : Kept C P) (hre : ¬ C → Keeps P reopen) (hs : P held s) (he : e ∈ s.events)
    (hC : ¬ C) {fd : ℕ} (h : netEventFree reopen e s = .ok (fd, s')) : P held s' :=
  hP.leak hC (hP.free (hre hC) hs he h)

lemma netEventUpdate (hP : Kept C P) (hre : ¬ C → Keeps P reopen) (hs : P held s)
    (he : e ∈ s.events) (hidle : C → ¬ (e.type = .connect ∧ e.app ≠ .cmd ∧ idle = true))
    (h : netEventUpdate reopen e idle s = .ok (u, s')) : P held s' := by
  rw [Sockets.netEventUpdate] at h
  split at h
  · rename_i hi
    obtain ⟨⟨fd, s₁⟩, hfree, h⟩ := Lib.ok_of_bind h
    obtain ⟨-, rfl⟩ := Prod.mk.inj (Except.ok.inj h)
    exact hP.freed hre hs he (fun hC => hidle hC hi) hfree
  · obtain ⟨-, rfl⟩ := Prod.mk.inj (Except.ok.inj h)
    exact hs

/-- An event without its id does not come back. -/
lemma netEventDelete_zero (h : netEventDelete reopen { e with id := 0 } s = .ok (fd, s')) :
    s'.events = s.events := by
  rw [netEventDelete] at h
  split at h
  · obtain ⟨⟨n, s₁⟩, hrelease, h⟩ := Lib.ok_of_bind h
    obtain ⟨-, rfl⟩ := Prod.mk.inj (Except.ok.inj h)
    rw [cmdRelease] at hrelease
    split at hrelease <;> obtain ⟨-, rfl⟩ := Prod.mk.inj (Except.ok.inj hrelease) <;> rfl
  · obtain ⟨-, rfl⟩ := Prod.mk.inj (Except.ok.inj h)
    rfl
  · obtain ⟨-, rfl⟩ := Prod.mk.inj (Except.ok.inj h)
    rfl

/-- `map_free` of the events. -/
lemma netFree (hP : Kept C P) {es : List SocketEvent} (hs : P held s) (hes : s.events = es)
    (h : netFree t es s = .ok s') : P held s' := by
  induction es generalizing s with
  | nil =>
      obtain rfl := Except.ok.inj h
      exact hs
  | cons e es ih =>
      obtain ⟨⟨u, s₁⟩, hdelete, h⟩ := Lib.ok_of_bind h
      obtain ⟨⟨fd, s₂⟩, hzero, hclose⟩ := Lib.ok_of_bind hdelete
      have he : e ∈ s.events := by rw [hes]; exact List.mem_cons_self
      obtain ⟨rfl, hs₂⟩ := hP.delete hP.netOpen_nil (hP.dropped hs he) hzero
      obtain ⟨-, rfl⟩ := Prod.mk.inj (Except.ok.inj hclose)
      refine ih (hP.closed_if hs₂) ?_ h
      have hevents := netEventDelete_zero hzero
      rw [hes, List.erase_cons_head] at hevents
      split
      · rw [NetState.close]
        split <;> exact hevents
      · exact hevents

/-- A call on an event that is in the map. -/
lemma call {addr : ℕ} {f : SocketEvent → NetCall Unit} (hs : P held s)
    (hf : ∀ e u s', s.at addr = some e → e ∈ s.events → f e s = .ok (u, s') → P held s')
    (h : s.call addr f = .ok s') : P held s' := by
  rw [NetState.call] at h
  split at h
  · rename_i e he
    obtain ⟨⟨u, s₁⟩, hfe, h⟩ := Lib.ok_of_bind h
    obtain rfl := Except.ok.inj h
    exact hf e u s₁ he (List.mem_of_find?_eq_some he) hfe
  · obtain rfl := Except.ok.inj h
    exact hs

/-- **A step**, careful if it has to be. -/
lemma step (hP : Kept C P) (hs : P held s) {op : SocketOp} (hop : C → Careful s op)
    (hstep : socketStep t s op = .ok s') : P held s' := by
  cases op with
  | bind a net app =>
      obtain ⟨⟨r, s₁⟩, hopen, hstep⟩ := Lib.ok_of_bind hstep
      obtain rfl := Except.ok.inj hstep
      exact hP.netEventOpen hs hop hopen
  | «open» as net app =>
      obtain ⟨⟨r, s₁⟩, hconnect, hstep⟩ := Lib.ok_of_bind hstep
      obtain rfl := Except.ok.inj hstep
      exact hP.connect hop net app _ _ _ _ hs hconnect
  | accept a addr =>
      exact call hs (fun e u s' _ _ h => hP.netCallbackAccept hs hop h) hstep
  | inout a as addr well idle =>
      refine call hs (fun e u s' he hmem h => ?_) hstep
      rw [netCallbackInout] at h
      cases well with
      | true =>
          exact hP.netEventUpdate (fun hC => hP.netOpen fun hC' => absurd hC' hC) hs hmem
            (fun hC => (hop hC e he).1 rfl) h
      | false =>
          have hclose := hP.netOpen (t := t) fun hC => ((hop hC e he).2 rfl).1
          rw [if_neg (by simp)] at h
          split at h
          · obtain ⟨⟨u₁, s₁⟩, hcl, h⟩ := Lib.ok_of_bind h
            obtain ⟨⟨r, s₂⟩, hopen, h⟩ := Lib.ok_of_bind h
            obtain ⟨-, rfl⟩ := Prod.mk.inj (Except.ok.inj h)
            exact hP.netEventOpen (hP.close hclose hs hmem hcl)
              (fun hC => ((hop hC e he).2 rfl).2 _) hopen
          · exact hP.close hclose hs hmem h
  | connected as addr well idle =>
      refine call hs (fun e u s' he hmem h => ?_) hstep
      rw [netCallbackConnect] at h
      cases well with
      | true =>
          exact hP.netEventUpdate (fun hC => hP.netOpen fun hC' => absurd hC' hC) hs hmem
            (fun hC => (hop hC e he).1 rfl) h
      | false => exact hP.close (hP.netOpen fun hC => (hop hC e he).2 rfl) hs hmem h
  | update as addr idle =>
      refine call hs (fun e u s' he hmem h => ?_) hstep
      exact hP.netEventUpdate (fun hC => hP.netOpen fun hC' => absurd hC' hC) hs hmem
        (fun hC => hop hC e he) h
  | relay as addr sent idle =>
      refine call hs (fun e u s' he hmem h => ?_) hstep
      have hre (hC : ¬ C) : Keeps P (Sockets.netOpen t as) := hP.netOpen fun hC' => absurd hC' hC
      rw [sipRelay] at h
      split at h
      · exact hP.netEventUpdate hre hs hmem
          (fun hC hidle => (hop hC e he hidle.1).2 hidle.2) h
      · rename_i hsent
        split at h
        · rename_i hconnect
          obtain ⟨⟨fd, s₁⟩, hfree, h⟩ := Lib.ok_of_bind h
          obtain ⟨-, rfl⟩ := Prod.mk.inj (Except.ok.inj h)
          have hC : ¬ C := fun hC => hsent (hop hC e he hconnect).1
          exact hP.freed hre hs hmem hC hfree
        · obtain ⟨-, rfl⟩ := Prod.mk.inj (Except.ok.inj h)
          exact hs
  | free => exact hP.netFree hs rfl hstep

/-- A run, careful if it has to be. -/
lemma run (hP : Kept C P) {ops : List SocketOp} (hs : P held s) (hops : C → CarefulRun t s ops)
    (h : socketRun t s ops = .ok s') : P held s' := by
  induction ops generalizing s with
  | nil =>
      obtain rfl := Except.ok.inj h
      exact hs
  | cons op ops ih =>
      obtain ⟨s₁, hstep, h⟩ := Lib.ok_of_bind h
      exact ih (hP.step hs (fun hC => (hops hC).1) hstep) (fun hC => (hops hC).2 s₁ hstep) h

end Kept

/-! ### Descriptors -/

/-- The open descriptors are those of the events and those in `held`, each once. -/
structure Owns (held : List ℕ) (s : NetState) : Prop where
  perm : s.opened.Perm (held ++ s.events.map SocketEvent.fd)
  nodup : s.opened.Nodup
  stray_eq : s.stray = []
  pos : ∀ fd ∈ s.opened, 0 < fd

lemma owns_kept : Kept True Owns where
  leak h := absurd trivial h
  attempt h := ⟨h.perm, h.nodup, h.stray_eq, h.pos⟩
  forget h := ⟨h.perm, h.nodup, h.stray_eq, h.pos⟩
  name h _ := ⟨h.perm, h.nodup, h.stray_eq, h.pos⟩
  opened h hfd hpos := ⟨h.perm.cons _, List.nodup_cons.mpr ⟨hfd, h.nodup⟩, h.stray_eq,
    List.forall_mem_cons.mpr ⟨hpos trivial, h.pos⟩⟩
  made h := ⟨h.perm.trans List.perm_middle.symm, h.nodup, h.stray_eq, h.pos⟩
  dropped {held s e} h he := by
    refine ⟨?_, h.nodup, h.stray_eq, h.pos⟩
    have hevents := (List.perm_cons_erase he).map SocketEvent.fd
    rw [List.map_cons] at hevents
    exact h.perm.trans ((hevents.append_left held).trans List.perm_middle)
  closed {held s fd} h := by
    have hmem : fd ∈ s.opened := h.perm.mem_iff.mpr (by simp)
    rw [NetState.close, if_pos hmem]
    refine ⟨?_, h.nodup.erase fd, h.stray_eq,
      fun fd' hfd' => h.pos fd' (List.mem_of_mem_erase hfd')⟩
    have := h.perm.erase fd
    rwa [List.cons_append, List.erase_cons_head] at this
  passed {held s} h := absurd (h.pos 0 (h.perm.mem_iff.mpr (by simp))) (lt_irrefl 0)

/-- **Every descriptor has its event** after every run of careful steps. -/
theorem descriptors_owned {t : BusArgs} {ops : List SocketOp} {s : NetState}
    (hops : CarefulRun t netInitial ops) (hrun : socketRun t netInitial ops = .ok s) :
    s.Owned := by
  have hinit : Owns [] netInitial := ⟨.nil, .nil, rfl, by simp [netInitial]⟩
  have h := owns_kept.run hinit (fun _ => hops) hrun
  exact ⟨h.perm, h.nodup, h.stray_eq⟩

/-! ### A listener and its connections -/

/-- The broker's arguments in `main`. -/
def routeArgs : BusArgs where
  name := str "Sip"
  host := str "localhost"
  user := none
  password := none

/-- Everything is granted, and the descriptor is `fd` if it is not open. -/
def granted (fd : ℕ) : Setup where
  fd opened := if fd ∈ opened then none else some fd
  calloc := true
  event := true
  init := true
  operand := true
  resolver := true
  transport := true
  port := 40000
  malloc := true
  relay := true
  assign := true
  fd_new opened fd' h := by
    split at h
    · exact absurd h (by simp)
    · rename_i hfd
      rwa [← Option.some.inj h]

lemma granted_sound {fd : ℕ} (hfd : 0 < fd) (l : List ℕ) : (granted fd).Sound l := by
  intro fd' h
  simp only [granted, Option.ite_none_left_eq_some, Option.some.injEq] at h
  exact ⟨h.2 ▸ hfd, rfl⟩

/-- Two listeners and an outgoing connection; an accepted connection goes wrong and is closed, the
next one has its descriptor; then nothing is left to send, and everything ends. -/
def servedOps : List SocketOp :=
  [.bind (granted 3) .tcp .sip, .bind (granted 4) .tcp .cmd, .open [granted 5] .tcp .sip,
    .accept (granted 6) 1, .inout (granted 7) [] 4 false false, .accept (granted 6) 1,
    .update [] 3 false, .free]

lemma careful_of_forall {t : BusArgs} {ops : List SocketOp}
    (h : ∀ op ∈ ops, ∀ s, Careful s op) (s : NetState) : CarefulRun t s ops := by
  induction ops generalizing s with
  | nil => trivial
  | cons op ops ih =>
      exact ⟨h op List.mem_cons_self s,
        fun s' _ => ih (fun op hop => h op (List.mem_cons_of_mem _ hop)) s'⟩

lemma servedOps_careful : ∀ op ∈ servedOps, ∀ s, Careful s op := by
  have haccept (s : NetState) : Careful s (.accept (granted 6) 1) :=
    fun fd hfd => (granted_sound (by omega) _ fd hfd).1
  intro op hop s
  simp only [servedOps, List.mem_cons, List.not_mem_nil, or_false] at hop
  obtain rfl | rfl | rfl | rfl | rfl | rfl | rfl | rfl := hop
  · exact granted_sound (by omega) _
  · exact granted_sound (by omega) _
  · rintro a ha l
    rw [List.mem_singleton.mp ha]
    exact granted_sound (by omega) l
  · exact haccept s
  · exact fun e _ => ⟨fun h => absurd h (by decide),
      fun _ => ⟨fun a ha => absurd ha (by simp), granted_sound (by omega)⟩⟩
  · exact haccept s
  · exact fun e _ h => absurd h.2.2 (by decide)
  · trivial

/-- Before the end four descriptors are open, after it none. -/
theorem descriptors_owned_served :
    (∃ s, socketRun routeArgs netInitial (servedOps.take 7) = .ok s ∧ s.Owned ∧
      s.opened = [6, 5, 4, 3]) ∧
    ∃ s, socketRun routeArgs netInitial servedOps = .ok s ∧ s.Owned ∧ s.opened = [] := by
  have hcareful := careful_of_forall (t := routeArgs) servedOps_careful netInitial
  have htake : CarefulRun routeArgs netInitial (servedOps.take 7) :=
    careful_of_forall (fun op hop => servedOps_careful op (List.mem_of_mem_take hop)) netInitial
  constructor
  · cases h : socketRun routeArgs netInitial (servedOps.take 7) with
    | ok s => exact ⟨s, rfl, descriptors_owned htake h, by cases h; rfl⟩
    | error _ => exact absurd h (by intro h; cases h)
  · cases h : socketRun routeArgs netInitial servedOps with
    | ok s => exact ⟨s, rfl, descriptors_owned hcareful h, by cases h; rfl⟩
    | error _ => exact absurd h (by intro h; cases h)

/-- **An idle outgoing connection is freed, and its descriptor stays open.** -/
theorem idle_connection_leaks :
    ∃ s, socketRun routeArgs netInitial [.bind (granted 3) .tcp .sip, .open [granted 4] .tcp .sip,
      .update [] 2 true] = .ok s ∧ s.opened = [4, 3] ∧ s.events.map SocketEvent.fd = [3] ∧
      ¬ s.Owned := by
  refine ⟨_, rfl, rfl, rfl, fun h => ?_⟩
  exact absurd h.opened_perm.length_eq (by decide)

end SipEcho.Sockets
