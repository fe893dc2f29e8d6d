import SipEcho.Dns.Lookup

/-!
The resolver table: which connection keeps a query, and who invokes the callback of a lookup.

A lookup goes to the front connection of the table `__dns`.  The object of the caller is released
by the callback and by nothing else, so that every call of `dns_lookup` has to invoke it or to
leave the query where a reply or the end of the connection will find it.

* `dnsTableLookup`, `DnsTableStep`, `DnsTableReached`: lookups, replies, sends, and connections that
  are opened and deleted, in any order;
* `DnsTableInv`: every call of `dns_lookup` is completed once, or waits in one place, or is lost;
* `DnsTableStep.settles`: a query that waits is completed, or goes on waiting where it is;
* `lookup_owned_iff`: the ownership of a call is as it should be exactly when there is a connection
  and memory for the query, and the query goes into the entities if a packet was made of it.
-/

namespace SipEcho

open Lib

/-- A connection of the resolver, by its number in the order of their opening.  A query of its
entities has for `opaqueVal` the number of the call it belongs to. -/
structure DnsConn where
  number : ℕ
  entities : Map DnsQuery
  outgoing : List DnsPacket

/-- The calls whose queries wait in the entities of a connection. -/
def DnsConn.waiting (c : DnsConn) : List ℕ := c.entities.items.map (·.opaqueVal)

/-- The resolver: the counter `__id`, the connections of the table `__dns`, the front one first,
how many were ever opened, how many calls of `dns_lookup` were made, and the callbacks invoked. -/
structure DnsTable where
  id : ℤ
  conns : List DnsConn
  opened : ℕ
  calls : ℕ
  completed : List (DnsQuery × Option Str)

/-- What a function of the connection leaves of it. -/
def DnsConn.put (c : DnsConn) (d : Dns) : DnsConn :=
  { c with entities := d.entities, outgoing := d.outgoing }

namespace DnsTable

variable (s : DnsTable)

/-- The resolver as a function of the connection `c` sees it. -/
def view (c : DnsConn) : Dns := ⟨s.id, c.entities, c.outgoing, s.completed⟩

/-- What such a function leaves, for a connection between `cs₁` and `cs₂`. -/
def update (cs₁ : List DnsConn) (c : DnsConn) (cs₂ : List DnsConn) (d : Dns) : DnsTable :=
  { s with id := d.id, conns := cs₁ ++ c.put d :: cs₂, completed := d.completed }

/-- `dns_acquire` of a new connection. -/
def acquire (heap : ℕ → MapNode DnsQuery) (next : ℕ) : DnsTable :=
  { s with
    conns := ⟨s.opened, mapNew heap next [dnsCompare], []⟩ :: s.conns
    opened := s.opened + 1 }

/-- The calls whose callback has been invoked, as often as it was. -/
def invoked : List ℕ := s.completed.map (·.1.opaqueVal)

/-- The calls whose queries wait. -/
def waiting : List ℕ := s.conns.flatMap DnsConn.waiting

end DnsTable

/-- Before anything is opened. -/
def dnsTableInit : DnsTable := ⟨0, [], 0, 0, []⟩

/-- `dns_lookup`, over the whole table.  Entities that could not be made take no query, as if
there were no memory for it. -/
def dnsTableLookup (io : LookupEnv) (s : DnsTable) (host : Str) : Except Fault (ℤ × DnsTable) :=
  let called := { s with calls := s.calls + 1 }
  match s.conns with
  | [] => return (-1, called)
  | c :: cs => do
      let (ret, d) ← dnsLookup { io with front := true } (s.view c) host s.calls
      return (ret, called.update [] c cs d)

/-- What can happen to the resolver table. -/
inductive DnsTableStep (s : DnsTable) : DnsTable → Prop
  | lookup {io : LookupEnv} {host : Str} {ret : ℤ} {s' : DnsTable} :
      dnsTableLookup io s host = .ok (ret, s') → DnsTableStep s s'
  | reply {cs₁ : List DnsConn} {c : DnsConn} {cs₂ : List DnsConn} {id : ℕ} {result : Option Str}
      {d : Dns} : s.conns = cs₁ ++ c :: cs₂ → id < 65536 →
      dnsReply (s.view c) id result = .ok d → DnsTableStep s (s.update cs₁ c cs₂ d)
  | sent {cs₁ : List DnsConn} {c : DnsConn} {cs₂ : List DnsConn} : s.conns = cs₁ ++ c :: cs₂ →
      DnsTableStep s (s.update cs₁ c cs₂ { s.view c with outgoing := c.outgoing.tail })
  | acquire (heap : ℕ → MapNode DnsQuery) (next : ℕ) : DnsTableStep s (s.acquire heap next)
  | delete {cs₁ : List DnsConn} {c : DnsConn} {cs₂ : List DnsConn} {queries : List DnsQuery}
      {entities : Map DnsQuery} : s.conns = cs₁ ++ c :: cs₂ →
      mapErase c.entities = .ok (queries, entities) →
      DnsTableStep s { s with
        conns := cs₁ ++ cs₂
        completed := s.completed ++ queries.map (·, none) }

/-- Any number of steps. -/
abbrev DnsTableReached : DnsTable → DnsTable → Prop := Relation.ReflTransGen DnsTableStep

/-- **Who has the object of a caller** after its call `call` has returned `ret`: the callback has
been invoked, or one connection keeps the query, and not both; after a failure it has been invoked;
and whatever comes, it is invoked once at most, and once when that connection is gone. -/
structure LookupOwned (ret : ℤ) (s : DnsTable) (call : ℕ) : Prop where
  owned : Xor (s.invoked.count call = 1) (∃! c, c ∈ s.conns ∧ call ∈ c.waiting)
  failed : ret = -1 → s.invoked.count call = 1
  later : ∀ t, DnsTableReached s t → t.invoked.count call ≤ 1 ∧
    ∀ c ∈ s.conns, call ∈ c.waiting → (∀ c' ∈ t.conns, c'.number ≠ c.number) →
      t.invoked.count call = 1

/-- There is a connection and memory for the query; and if a packet was made of it, the front
connection has memory for it and waits for no reply under its number. -/
def LookupAccepted (io : LookupEnv) (s : DnsTable) : Prop :=
  ∃ c, s.conns.head? = some c ∧ io.calloc = true ∧
    (io.query = true → io.push.calloc = true ∧ io.push.malloc 0 = true ∧
      ∀ q ∈ c.entities.items, q.id ≠ dnsNextId s.id)

/-! ### The invariant -/

/-- The entities of a connection hold queries, under numbers that are `int`s. -/
def DnsConn.Valid (c : DnsConn) : Prop :=
  ∃ xs, Holds dnsCompare c.entities xs ∧ ∀ q ∈ xs, IsInt q.id

/-- In how many places a call is: invocations of its callback, and queries that wait. -/
def DnsTable.places (s : DnsTable) (call : ℕ) : ℕ := s.invoked.count call + s.waiting.count call

/-- The connections have different numbers, and every call that was made is in one place at
most. -/
structure DnsTableInv (s : DnsTable) : Prop where
  valid : ∀ c ∈ s.conns, c.Valid
  numbers : (s.conns.map DnsConn.number).Nodup
  opened : ∀ c ∈ s.conns, c.number < s.opened
  placed : ∀ call, s.places call ≤ if call < s.calls then 1 else 0

lemma DnsConn.waiting_eq {c : DnsConn} {xs : List DnsQuery}
    (h : Holds dnsCompare c.entities xs) : c.waiting = xs.map (·.opaqueVal) := by
  rw [DnsConn.waiting, Lists.items_eq (show Lists [dnsCompare] _ xs from h)]

section Steps

variable {s s' : DnsTable} {io : LookupEnv} {host : Str} {ret : ℤ} {call : ℕ}
  {cs₁ cs₂ : List DnsConn} {c c' : DnsConn}

lemma DnsTable.count_waiting (h : s.conns = cs₁ ++ c :: cs₂) (call : ℕ) :
    s.waiting.count call = (cs₁.flatMap DnsConn.waiting).count call + c.waiting.count call +
      (cs₂.flatMap DnsConn.waiting).count call := by
  rw [DnsTable.waiting, h, List.flatMap_append, List.flatMap_cons, List.count_append,
    List.count_append, Nat.add_assoc]

/-- One connection is changed, and no call gets into a second place. -/
lemma DnsTableInv.replace (hs : DnsTableInv s) (hc : s.conns = cs₁ ++ c :: cs₂)
    (hc' : s'.conns = cs₁ ++ c' :: cs₂) (hnumber : c'.number = c.number) (hvalid : c'.Valid)
    (hopened : s'.opened = s.opened)
    (hplaced : ∀ call, s'.places call ≤ if call < s'.calls then 1 else 0) : DnsTableInv s' where
  valid := by
    intro d hd
    rw [hc', List.mem_append, List.mem_cons] at hd
    rcases hd with hd | rfl | hd
    · exact hs.valid d (by simp [hc, hd])
    · exact hvalid
    · exact hs.valid d (by simp [hc, hd])
  numbers := by
    have := hs.numbers
    rw [hc, List.map_append, List.map_cons] at this
    rwa [hc', List.map_append, List.map_cons, hnumber]
  opened := by
    intro d hd
    rw [hopened]
    rw [hc', List.mem_append, List.mem_cons] at hd
    rcases hd with hd | rfl | hd
    · exact hs.opened d (by simp [hc, hd])
    · rw [hnumber]
      exact hs.opened c (by simp [hc])
    · exact hs.opened d (by simp [hc, hd])
  placed := hplaced

/-- What a step may do to the calls: those made before stay in as many places, an invocation is
never taken back, and a query waits on where it is until its callback is invoked. -/
structure Settles (s s' : DnsTable) : Prop where
  inv : DnsTableInv s'
  invoked : ∀ call, s.invoked.count call ≤ s'.invoked.count call
  stays : ∀ c ∈ s.conns, ∀ call ∈ c.waiting, 0 < s'.invoked.count call ∨
    ∃ c' ∈ s'.conns, c'.number = c.number ∧ call ∈ c'.waiting

/-! ### What a step does -/

/-- How a call of `dns_lookup` ends: without connection or memory, with the callback, with the
query in the entities of the front connection, or with the query in no place at all. -/
inductive LookupCase (io : LookupEnv) (s : DnsTable) (ret : ℤ) (s' : DnsTable) : Prop
  | refused : ret = -1 → ¬ LookupAccepted io s → s'.conns = s.conns → s'.completed = s.completed →
      LookupCase io s ret s'
  | completed (q : DnsQuery) : ret = -1 → LookupAccepted io s → s'.conns = s.conns →
      q.opaqueVal = s.calls → s'.completed = s.completed ++ [(q, none)] → LookupCase io s ret s'
  | kept (c c' : DnsConn) (cs : List DnsConn) : ret = 0 → LookupAccepted io s →
      s.conns = [] ++ c :: cs → s'.conns = [] ++ c' :: cs → c'.number = c.number → c'.Valid →
      c'.waiting = s.calls :: c.waiting → s'.completed = s.completed → LookupCase io s ret s'
  | lost (c c' : DnsConn) (cs : List DnsConn) : ret = 0 → ¬ LookupAccepted io s →
      s.conns = [] ++ c :: cs → s'.conns = [] ++ c' :: cs → c'.number = c.number → c'.Valid →
      c'.waiting = c.waiting → s'.completed = s.completed → LookupCase io s ret s'

/-- **A call of `dns_lookup`.** -/
lemma dnsTableLookup_cases (hs : DnsTableInv s) (h : dnsTableLookup io s host = .ok (ret, s')) :
    s'.calls = s.calls + 1 ∧ s'.opened = s.opened ∧ LookupCase io s ret s' := by
  rw [dnsTableLookup] at h
  rcases hc : s.conns with _ | ⟨c, cs⟩
  · simp only [hc] at h
    obtain ⟨rfl, rfl⟩ := Prod.mk.inj (Except.ok.inj h)
    refine ⟨rfl, rfl, .refused rfl ?_ hc.symm rfl⟩
    rintro ⟨c, hhead, -⟩
    rw [hc] at hhead
    exact absurd hhead (by simp)
  · simp only [hc] at h
    obtain ⟨⟨ret', d⟩, hd, h⟩ := ok_of_bind h
    obtain ⟨rfl, rfl⟩ := Prod.mk.inj (Except.ok.inj h)
    refine ⟨rfl, rfl, ?_⟩
    have haccepted : LookupAccepted io s ↔ io.calloc = true ∧ (io.query = true →
        io.push.calloc = true ∧ io.push.malloc 0 = true ∧
          ∀ q ∈ c.entities.items, q.id ≠ dnsNextId s.id) := by
      rw [LookupAccepted, hc]
      simp
    rw [dnsLookup] at hd
    dsimp only at hd
    rcases hcalloc : io.calloc with _ | _
    · rw [hcalloc] at hd
      obtain ⟨rfl, rfl⟩ := Prod.mk.inj (Except.ok.inj hd)
      exact .refused rfl (by rw [haccepted, hcalloc]; simp) hc.symm rfl
    rcases hquery : io.query with _ | _
    · rw [hcalloc, hquery] at hd
      obtain ⟨rfl, rfl⟩ := Prod.mk.inj (Except.ok.inj hd)
      exact .completed _ rfl (by rw [haccepted, hcalloc, hquery]; simp) hc.symm rfl rfl
    rw [hcalloc, hquery] at hd
    obtain ⟨res, hp, hd⟩ := ok_of_bind hd
    obtain ⟨rfl, rfl⟩ := Prod.mk.inj (Except.ok.inj hd)
    obtain ⟨xs, hxs, hint⟩ := hs.valid c (by simp [hc])
    have hitems : c.entities.items = xs := Lists.items_eq (show Lists [dnsCompare] _ xs from hxs)
    have hnext := isInt_dnsNextId s.id
    obtain ⟨hpushable, hpushed⟩ := (hxs.push io.push _).ok hp
    have hiff : LookupAccepted io s ↔ res.1 = 0 := by
      rw [haccepted, hcalloc, hquery, hitems, hpushable, Holds.Pushable]
      have hunused : (∀ q ∈ xs, q.id ≠ dnsNextId s.id) ↔
          ∀ y ∈ xs, dnsCompare ⟨dnsNextId s.id, s.calls, host⟩ y 0 ≠ 0 :=
        forall₂_congr fun y hy => by
          rw [Ne, Ne, dnsCompare_eq_zero hnext (hint y hy), eq_comm]
      rw [hunused]
      simp [DnsTable.view]
    rcases hpushed with ⟨h0, hnew⟩ | ⟨h1, hold⟩
    · refine .kept c _ cs rfl (hiff.mpr h0) hc rfl rfl ⟨_, hnew, fun q hq => ?_⟩ ?_ rfl
      · rcases List.mem_cons.mp hq with rfl | hq
        · exact hnext
        · exact hint q hq
      · rw [DnsConn.waiting_eq hnew, DnsConn.waiting_eq hxs]
        rfl
    · refine .lost c _ cs rfl ?_ hc rfl rfl ⟨xs, hold, hint⟩ ?_ rfl
      · rw [hiff, h1]
        simp
      · rw [DnsConn.waiting_eq hold, DnsConn.waiting_eq hxs]

/-- An invocation is one place. -/
lemma DnsTable.count_invoked {q : DnsQuery} {result : Option Str}
    (h : s'.completed = s.completed ++ [(q, result)]) (call : ℕ) :
    s'.invoked.count call = s.invoked.count call + if q.opaqueVal = call then 1 else 0 := by
  rw [DnsTable.invoked, DnsTable.invoked, h, List.map_append, List.count_append, List.map_singleton,
    List.count_singleton]
  simp only [beq_iff_eq]

lemma DnsTable.invoked_congr (h : s'.completed = s.completed) : s'.invoked = s.invoked := by
  rw [DnsTable.invoked, h, ← DnsTable.invoked]

/-- In another connection, and in this one if the query still waits there, a query stays. -/
lemma DnsTable.stays_of_replace (hc : s.conns = cs₁ ++ c :: cs₂) (hc' : s'.conns = cs₁ ++ c' :: cs₂)
    (hnumber : c'.number = c.number)
    (hwaiting : ∀ call ∈ c.waiting, 0 < s'.invoked.count call ∨ call ∈ c'.waiting) :
    ∀ d ∈ s.conns, ∀ call ∈ d.waiting, 0 < s'.invoked.count call ∨
      ∃ d' ∈ s'.conns, d'.number = d.number ∧ call ∈ d'.waiting := by
  intro d hd call hcall
  rw [hc, List.mem_append, List.mem_cons] at hd
  rcases hd with hd | rfl | hd
  · exact Or.inr ⟨d, by simp [hc', hd], rfl, hcall⟩
  · exact (hwaiting call hcall).imp_right fun h => ⟨c', by simp [hc'], hnumber, h⟩
  · exact Or.inr ⟨d, by simp [hc', hd], rfl, hcall⟩

/-- Calls that stay in as many places. -/
lemma DnsTableInv.placed_congr (hs : DnsTableInv s) (hcalls : s.calls ≤ s'.calls)
    (hplaces : ∀ call, s'.places call = s.places call) (call : ℕ) :
    s'.places call ≤ if call < s'.calls then 1 else 0 := by
  have := hs.placed call
  rw [hplaces]
  split at this <;> split <;> omega

/-- A call that was not made before gets into one place. -/
lemma DnsTableInv.placed_new (hs : DnsTableInv s) (hcalls : s'.calls = s.calls + 1)
    (hplaces : ∀ call, s'.places call = s.places call + if s.calls = call then 1 else 0)
    (call : ℕ) : s'.places call ≤ if call < s'.calls then 1 else 0 := by
  have := hs.placed call
  rw [hplaces, hcalls]
  split at this <;> split <;> split <;> omega

/-- Nothing happens to the connections. -/
lemma DnsTableInv.keep (hs : DnsTableInv s) (hconns : s'.conns = s.conns)
    (hopened : s'.opened = s.opened)
    (hplaced : ∀ call, s'.places call ≤ if call < s'.calls then 1 else 0) : DnsTableInv s' where
  valid := by rw [hconns]; exact hs.valid
  numbers := by rw [hconns]; exact hs.numbers
  opened := by rw [hconns, hopened]; exact hs.opened
  placed := hplaced

/-- A call of `dns_lookup`. -/
lemma Settles.lookup (hs : DnsTableInv s) (h : dnsTableLookup io s host = .ok (ret, s')) :
    Settles s s' := by
  obtain ⟨hcalls, hopened, hcase⟩ := dnsTableLookup_cases hs h
  cases hcase with
  | refused hret hno hconns hdone =>
      have hinvoked := DnsTable.invoked_congr hdone
      have hplaces (call : ℕ) : s'.places call = s.places call := by
        rw [DnsTable.places, DnsTable.places, hinvoked, DnsTable.waiting, hconns,
          ← DnsTable.waiting]
      exact ⟨hs.keep hconns hopened (hs.placed_congr (by omega) hplaces),
        fun call => by rw [hinvoked],
        fun c hc call hcall => Or.inr ⟨c, by rw [hconns]; exact hc, rfl, hcall⟩⟩
  | completed q hret hacc hconns hq hdone =>
      have hinvoked := DnsTable.count_invoked hdone
      rw [hq] at hinvoked
      have hplaces (call : ℕ) :
          s'.places call = s.places call + if s.calls = call then 1 else 0 := by
        rw [DnsTable.places, DnsTable.places, hinvoked, DnsTable.waiting, hconns,
          ← DnsTable.waiting]
        omega
      exact ⟨hs.keep hconns hopened (hs.placed_new hcalls hplaces),
        fun call => by rw [hinvoked]; omega,
        fun c hc call hcall => Or.inr ⟨c, by rw [hconns]; exact hc, rfl, hcall⟩⟩
  | kept c c' cs hret hacc hc hc' hnumber hvalid hwaiting hdone =>
      have hinvoked := DnsTable.invoked_congr hdone
      have hplaces (call : ℕ) :
          s'.places call = s.places call + if s.calls = call then 1 else 0 := by
        rw [DnsTable.places, DnsTable.places, hinvoked, DnsTable.count_waiting hc',
          DnsTable.count_waiting hc, hwaiting, List.count_cons]
        simp only [beq_iff_eq]
        omega
      refine ⟨hs.replace hc hc' hnumber hvalid hopened (hs.placed_new hcalls hplaces),
        fun call => by rw [hinvoked],
        DnsTable.stays_of_replace hc hc' hnumber fun call hcall => Or.inr ?_⟩
      rw [hwaiting]
      exact List.mem_cons_of_mem _ hcall
  | lost c c' cs hret hno hc hc' hnumber hvalid hwaiting hdone =>
      have hinvoked := DnsTable.invoked_congr hdone
      have hplaces (call : ℕ) : s'.places call = s.places call := by
        rw [DnsTable.places, DnsTable.places, hinvoked, DnsTable.count_waiting hc',
          DnsTable.count_waiting hc, hwaiting]
      refine ⟨hs.replace hc hc' hnumber hvalid hopened (hs.placed_congr (by omega) hplaces),
        fun call => by rw [hinvoked],
        DnsTable.stays_of_replace hc hc' hnumber fun call hcall => Or.inr ?_⟩
      rw [hwaiting]
      exact hcall

/-- A packet that arrives at a connection. -/
lemma Settles.reply {id : ℕ} {result : Option Str} {d : Dns} (hs : DnsTableInv s)
    (hc : s.conns = cs₁ ++ c :: cs₂) (hid : id < 65536)
    (h : dnsReply (s.view c) id result = .ok d) : Settles s (s.update cs₁ c cs₂ d) := by
  obtain ⟨xs, hxs, hint⟩ := hs.valid c (by simp [hc])
  have hwait := DnsConn.waiting_eq hxs
  have hc' : (s.update cs₁ c cs₂ d).conns = cs₁ ++ c.put d :: cs₂ := rfl
  rcases dnsReply_cases hxs hint hid h with ⟨q, xs₁, xs₂, rfl, -, hdone, hx⟩ | ⟨-, hdone, hx⟩
  · have hdone' : (s.update cs₁ c cs₂ d).completed = s.completed ++ [(q, result)] := hdone
    have hinvoked := DnsTable.count_invoked hdone'
    have hwait' := DnsConn.waiting_eq (c := c.put d) hx
    have hplaces (call : ℕ) : (s.update cs₁ c cs₂ d).places call = s.places call := by
      rw [DnsTable.places, DnsTable.places, hinvoked, DnsTable.count_waiting hc,
        DnsTable.count_waiting hc', hwait, hwait']
      simp only [List.map_append, List.map_cons, List.count_append, List.count_cons, beq_iff_eq]
      omega
    refine ⟨hs.replace hc hc' rfl ⟨_, hx, fun p hp => hint p ?_⟩ rfl
      (hs.placed_congr le_rfl hplaces), fun call => by rw [hinvoked]; omega,
      DnsTable.stays_of_replace hc hc' rfl fun call hcall => ?_⟩
    · rcases List.mem_append.mp hp with hp | hp <;> simp [hp]
    · rw [hwait, List.map_append, List.map_cons, List.mem_append, List.mem_cons] at hcall
      rw [hwait', List.map_append, List.mem_append]
      rcases hcall with hcall | rfl | hcall
      · exact Or.inr (Or.inl hcall)
      · rw [hinvoked, if_pos rfl]
        exact Or.inl (by omega)
      · exact Or.inr (Or.inr hcall)
  · have hdone' : (s.update cs₁ c cs₂ d).completed = s.completed := hdone
    have hinvoked := DnsTable.invoked_congr hdone'
    have hwait' := DnsConn.waiting_eq (c := c.put d) hx
    have hplaces (call : ℕ) : (s.update cs₁ c cs₂ d).places call = s.places call := by
      rw [DnsTable.places, DnsTable.places, hinvoked, DnsTable.count_waiting hc,
        DnsTable.count_waiting hc', hwait, hwait']
    refine ⟨hs.replace hc hc' rfl ⟨_, hx, hint⟩ rfl (hs.placed_congr le_rfl hplaces),
      fun call => by rw [hinvoked],
      DnsTable.stays_of_replace hc hc' rfl fun call hcall => Or.inr ?_⟩
    rw [hwait', ← hwait]
    exact hcall

/-- A new connection. -/
lemma Settles.acquire (hs : DnsTableInv s) (heap : ℕ → MapNode DnsQuery) (next : ℕ) :
    Settles s (s.acquire heap next) := by
  have hnew : Holds dnsCompare (mapNew heap next [dnsCompare]) [] :=
    Holds.new dnsCompare_comparator _ _
  have hwait : (⟨s.opened, mapNew heap next [dnsCompare], []⟩ : DnsConn).waiting = [] :=
    DnsConn.waiting_eq (c := ⟨s.opened, _, []⟩) hnew
  have hc : (s.acquire heap next).conns =
      [] ++ ⟨s.opened, mapNew heap next [dnsCompare], []⟩ :: s.conns := rfl
  have hplaces (call : ℕ) : (s.acquire heap next).places call = s.places call := by
    rw [DnsTable.places, DnsTable.places, DnsTable.count_waiting hc, hwait]
    simp [DnsTable.waiting, DnsTable.invoked, DnsTable.acquire]
  refine ⟨⟨fun c hc => ?_, ?_, fun c hc => ?_, hs.placed_congr le_rfl hplaces⟩,
    fun call => le_rfl, fun c hc call hcall => Or.inr ⟨c, List.mem_cons_of_mem _ hc, rfl, hcall⟩⟩
  · rcases List.mem_cons.mp hc with rfl | hc
    · exact ⟨[], hnew, by simp⟩
    · exact hs.valid c hc
  · show (s.opened :: s.conns.map DnsConn.number).Nodup
    refine List.nodup_cons.mpr ⟨fun hmem => ?_, hs.numbers⟩
    obtain ⟨c, hc, heq⟩ := List.mem_map.mp hmem
    have := hs.opened c hc
    omega
  · show c.number < s.opened + 1
    rcases List.mem_cons.mp hc with rfl | hc
    · exact Nat.lt_succ_self _
    · exact Nat.lt_succ_of_lt (hs.opened c hc)

/-- A connection is deleted: the callbacks of all its queries are invoked. -/
lemma Settles.delete {queries : List DnsQuery} {entities : Map DnsQuery} (hs : DnsTableInv s)
    (hc : s.conns = cs₁ ++ c :: cs₂) (h : mapErase c.entities = .ok (queries, entities))
    (hconns : s'.conns = cs₁ ++ cs₂) (hopened : s'.opened = s.opened) (hcalls : s'.calls = s.calls)
    (hdone : s'.completed = s.completed ++ queries.map (·, none)) : Settles s s' := by
  obtain ⟨xs, hxs, hint⟩ := hs.valid c (by simp [hc])
  have hwait := DnsConn.waiting_eq hxs
  have hqueries : queries = xs := ((Lists.erase (show Lists [dnsCompare] _ xs from hxs)).ok h).1
  have hinvoked : s'.invoked = s.invoked ++ c.waiting := by
    rw [hwait, ← hqueries, DnsTable.invoked, hdone, List.map_append, ← DnsTable.invoked]
    simp [Function.comp_def]
  have hplaces (call : ℕ) : s'.places call = s.places call := by
    rw [DnsTable.places, DnsTable.places, hinvoked, DnsTable.count_waiting hc, List.count_append,
      DnsTable.waiting, hconns, List.flatMap_append, List.count_append]
    omega
  have hsub : s'.conns.Sublist s.conns := by
    rw [hconns, hc]
    exact (List.sublist_cons_self _ _).append_left _
  refine ⟨⟨fun d hd => hs.valid d (hsub.subset hd), hs.numbers.sublist (hsub.map _),
    fun d hd => by rw [hopened]; exact hs.opened d (hsub.subset hd),
    hs.placed_congr hcalls.ge hplaces⟩,
    fun call => by rw [hinvoked, List.count_append]; omega, fun d hd call hcall => ?_⟩
  rw [hc, List.mem_append, List.mem_cons] at hd
  rcases hd with hd | rfl | hd
  · exact Or.inr ⟨d, by simp [hconns, hd], rfl, hcall⟩
  · have := List.count_pos_iff.mpr hcall
    rw [hinvoked, List.count_append]
    exact Or.inl (by omega)
  · exact Or.inr ⟨d, by simp [hconns, hd], rfl, hcall⟩

/-- **What a step does to the calls made before.** -/
lemma DnsTableStep.settles (h : DnsTableStep s s') (hs : DnsTableInv s) : Settles s s' := by
  cases h with
  | lookup h => exact Settles.lookup hs h
  | reply hc hid h => exact Settles.reply hs hc hid h
  | @sent cs₁ c cs₂ hc =>
      have hplaces (call : ℕ) :
          (s.update cs₁ c cs₂ { s.view c with outgoing := c.outgoing.tail }).places call =
            s.places call := by
        rw [DnsTable.places, DnsTable.places, DnsTable.count_waiting hc,
          DnsTable.count_waiting (s := s.update cs₁ c cs₂ _) rfl]
        rfl
      exact ⟨hs.replace hc rfl rfl (hs.valid c (by simp [hc])) rfl
        (hs.placed_congr le_rfl hplaces), fun call => le_rfl,
        DnsTable.stays_of_replace hc rfl rfl fun call hcall => Or.inr hcall⟩
  | acquire heap next => exact Settles.acquire hs heap next
  | delete hc h => exact Settles.delete hs hc h rfl rfl rfl rfl

/-! ### Runs -/

/-- **Every run keeps the invariant.** -/
lemma DnsTableReached.inv (h : DnsTableReached s s') (hs : DnsTableInv s) : DnsTableInv s' := by
  induction h with
  | refl => exact hs
  | tail _ hstep ih => exact (hstep.settles ih).inv

lemma dnsTableInit_inv : DnsTableInv dnsTableInit where
  valid := by simp [dnsTableInit]
  numbers := by simp [dnsTableInit]
  opened := by simp [dnsTableInit]
  placed call := by simp [DnsTable.places, DnsTable.invoked, DnsTable.waiting, dnsTableInit]

lemma DnsTableReached.invoked (h : DnsTableReached s s') (hs : DnsTableInv s) (call : ℕ) :
    s.invoked.count call ≤ s'.invoked.count call := by
  induction h with
  | refl => exact le_rfl
  | tail hrun hstep ih =>
      exact ih.trans ((hstep.settles (DnsTableReached.inv hrun hs)).invoked call)

/-- **A query waits where it is**, until its callback is invoked. -/
lemma DnsTableReached.stays (h : DnsTableReached s s') (hs : DnsTableInv s) (hc : c ∈ s.conns)
    (hcall : call ∈ c.waiting) : 0 < s'.invoked.count call ∨
      ∃ c' ∈ s'.conns, c'.number = c.number ∧ call ∈ c'.waiting := by
  induction h with
  | refl => exact Or.inr ⟨c, hc, rfl, hcall⟩
  | tail hrun hstep ih =>
      have hsettles := hstep.settles (DnsTableReached.inv hrun hs)
      rcases ih with hinv | ⟨d, hd, hnumber, hdcall⟩
      · exact Or.inl (hinv.trans_le (hsettles.invoked call))
      · rcases hsettles.stays d hd call hdcall with hinv | ⟨d', hd', hnumber', hcall'⟩
        · exact Or.inl hinv
        · exact Or.inr ⟨d', hd', hnumber'.trans hnumber, hcall'⟩

lemma DnsTableInv.count_invoked_le (hs : DnsTableInv s) (call : ℕ) :
    s.invoked.count call ≤ 1 := by
  have := hs.placed call
  rw [DnsTable.places] at this
  split at this <;> omega

/-- What comes after a call, from any state. -/
lemma DnsTableInv.later (hs : DnsTableInv s) (call : ℕ) {t : DnsTable}
    (ht : DnsTableReached s t) : t.invoked.count call ≤ 1 ∧
      ∀ c ∈ s.conns, call ∈ c.waiting → (∀ c' ∈ t.conns, c'.number ≠ c.number) →
        t.invoked.count call = 1 := by
  have hle := (ht.inv hs).count_invoked_le call
  refine ⟨hle, fun c hc hcall hgone => ?_⟩
  rcases ht.stays hs hc hcall with hinv | ⟨c', hc', hnumber, -⟩
  · omega
  · exact absurd hnumber (hgone c' hc')

/-- A call is in one place: its callback was invoked or one connection keeps the query. -/
lemma DnsTableInv.owned_iff (hs : DnsTableInv s) (call : ℕ) :
    Xor (s.invoked.count call = 1) (∃! c, c ∈ s.conns ∧ call ∈ c.waiting) ↔
      s.places call = 1 := by
  have hplaced : s.places call ≤ 1 := by
    have := hs.placed call
    split at this <;> omega
  have hwaiting : (∃! c, c ∈ s.conns ∧ call ∈ c.waiting) ↔ s.waiting.count call = 1 := by
    have hle : s.waiting.count call ≤ 1 := (Nat.le_add_left _ _).trans hplaced
    constructor
    · rintro ⟨c, ⟨hc, hcall⟩, -⟩
      have := List.count_pos_iff.mpr (List.mem_flatMap.mpr ⟨c, hc, hcall⟩)
      exact le_antisymm hle this
    · intro h1
      obtain ⟨c, hc, hcall⟩ := List.mem_flatMap.mp (List.count_pos_iff.mp (h1 ▸ Nat.one_pos))
      refine ⟨c, ⟨hc, hcall⟩, ?_⟩
      rintro d ⟨hd, hdcall⟩
      obtain ⟨cs₁, cs₂, hsplit⟩ := List.append_of_mem hc
      rw [DnsTable.count_waiting hsplit] at h1
      have hpos := List.count_pos_iff.mpr hcall
      rw [hsplit, List.mem_append, List.mem_cons] at hd
      rcases hd with hd | rfl | hd
      · have := List.count_pos_iff.mpr (List.mem_flatMap.mpr ⟨d, hd, hdcall⟩)
        omega
      · rfl
      · have := List.count_pos_iff.mpr (List.mem_flatMap.mpr ⟨d, hd, hdcall⟩)
        omega
  rw [hwaiting, DnsTable.places, Xor]
  rw [DnsTable.places] at hplaced
  omega

/-- Where a call is when `dns_lookup` returns. -/
lemma LookupCase.places (hs : DnsTableInv s) (h : LookupCase io s ret s') :
    (s'.places s.calls = 1 ∧ (ret = -1 → s'.invoked.count s.calls = 1) ↔ LookupAccepted io s) := by
  have hnew : s.places s.calls = 0 := by
    have := hs.placed s.calls
    rw [if_neg (lt_irrefl _)] at this
    omega
  rw [DnsTable.places] at hnew ⊢
  cases h with
  | refused hret hno hconns hdone =>
      refine iff_of_false (fun h => ?_) hno
      have := h.2 hret
      rw [DnsTable.invoked_congr hdone] at this
      omega
  | completed q hret hacc hconns hq hdone =>
      have hinvoked := DnsTable.count_invoked hdone s.calls
      rw [if_pos hq] at hinvoked
      refine iff_of_true ⟨?_, fun _ => by omega⟩ hacc
      rw [hinvoked, DnsTable.waiting, hconns, ← DnsTable.waiting]
      omega
  | kept c c' cs hret hacc hc hc' hnumber hvalid hwaiting hdone =>
      refine iff_of_true ⟨?_, fun h => by omega⟩ hacc
      rw [DnsTable.count_waiting hc] at hnew
      rw [DnsTable.invoked_congr hdone, DnsTable.count_waiting hc', hwaiting, List.count_cons_self]
      omega
  | lost c c' cs hret hno hc hc' hnumber hvalid hwaiting hdone =>
      refine iff_of_false (fun h => ?_) hno
      have := h.1
      rw [DnsTable.count_waiting hc] at hnew
      rw [DnsTable.invoked_congr hdone, DnsTable.count_waiting hc', hwaiting] at this
      omega

/-- **Who has the object of the caller**, over the life of the process: a call of `dns_lookup`
leaves it where it should be exactly when the call is accepted. -/
theorem lookup_owned_iff (hs : DnsTableReached dnsTableInit s)
    (h : dnsTableLookup io s host = .ok (ret, s')) :
    LookupOwned ret s' s.calls ↔ LookupAccepted io s := by
  have hinv := hs.inv dnsTableInit_inv
  have hinv' : DnsTableInv s' := (Settles.lookup hinv h).inv
  rw [← (dnsTableLookup_cases hinv h).2.2.places hinv]
  refine ⟨fun h => ⟨(hinv'.owned_iff _).mp h.owned, h.failed⟩, fun h => ?_⟩
  exact ⟨(hinv'.owned_iff _).mpr h.1, h.2, fun t ht => hinv'.later _ ht⟩

end Steps

/-- A packet arrives at the front connection. -/
def DnsTable.replyFront (s : DnsTable) (id : ℕ) (result : Option Str) : Except Fault DnsTable :=
  match s.conns with
  | [] => return s
  | c :: cs => do
      let d ← dnsReply (s.view c) id result
      return s.update [] c cs d

lemma DnsTable.replyFront_reached {s s' : DnsTable} {id : ℕ} {result : Option Str}
    (hid : id < 65536) (h : s.replyFront id result = .ok s') : DnsTableReached s s' := by
  rw [replyFront] at h
  split at h
  · obtain rfl := Except.ok.inj h
    exact .refl
  · rename_i c cs hc
    obtain ⟨d, hd, h⟩ := ok_of_bind h
    obtain rfl := Except.ok.inj h
    exact .single (.reply hc hid hd)

/-- Three lookups over one connection, for the second of which no packet is made; the first is
answered; a second connection, and a lookup over that. -/
def earlierTable : Except Fault DnsTable := do
  let (_, s) ← dnsTableLookup willing (dnsTableInit.acquire zeroQueries 0) (str "a")
  let (_, s) ← dnsTableLookup { willing with query := false } s (str "b")
  let (_, s) ← dnsTableLookup willing s (str "c")
  let s ← s.replyFront 1 (some (str "1"))
  let (_, s) ← dnsTableLookup willing (s.acquire zeroQueries 0) (str "d")
  return s

lemma earlierTable_reached {s : DnsTable} (h : earlierTable = .ok s) :
    DnsTableReached dnsTableInit s := by
  rw [earlierTable] at h
  obtain ⟨⟨_, s₁⟩, h₁, h⟩ := ok_of_bind h
  obtain ⟨⟨_, s₂⟩, h₂, h⟩ := ok_of_bind h
  obtain ⟨⟨_, s₃⟩, h₃, h⟩ := ok_of_bind h
  obtain ⟨s₄, h₄, h⟩ := ok_of_bind h
  obtain ⟨⟨_, s₅⟩, h₅, h⟩ := ok_of_bind h
  obtain rfl := Except.ok.inj h
  have hopened : DnsTableReached dnsTableInit (dnsTableInit.acquire zeroQueries 0) :=
    .single (.acquire _ _)
  have hfirst : DnsTableReached dnsTableInit s₁ := hopened.tail (.lookup h₁)
  have hsecond : DnsTableReached dnsTableInit s₂ := hfirst.tail (.lookup h₂)
  have hthird : DnsTableReached dnsTableInit s₃ := hsecond.tail (.lookup h₃)
  have hreply := hthird.trans (DnsTable.replyFront_reached (by decide) h₄)
  exact (hreply.tail (.acquire zeroQueries 0)).tail (.lookup h₅)

/-- Behind them two calls are completed and two wait, over one connection each; the fifth call
is where it should be. -/
theorem lookup_owned_fifth :
    ∃ s s', DnsTableReached dnsTableInit s ∧ s.conns.map DnsConn.waiting = [[3], [2]] ∧
      s.invoked = [1, 0] ∧ dnsTableLookup willing s (str "h") = .ok (0, s') ∧
      LookupOwned 0 s' 4 := by
  obtain ⟨s, hs, hview⟩ := ok_of_toOption (f := fun s : DnsTable =>
      (decide (s.conns.map DnsConn.waiting = [[3], [2]] ∧ s.invoked = [1, 0] ∧ s.calls = 4 ∧
        s.id = 4), s.conns.head?.map (fun c => c.entities.items.map (·.id)),
      (dnsTableLookup willing s (str "h")).toOption.map (·.1)))
    (show earlierTable.toOption.map _ = some (true, some [(4 : ℤ)], some (0 : ℤ)) by
      decide +kernel)
  simp only [Prod.mk.injEq, decide_eq_true_eq] at hview
  obtain ⟨⟨hwaiting, hinvoked, hcalls, hid⟩, hitems, hlookup⟩ := hview
  obtain ⟨⟨ret, s'⟩, hok, hret⟩ := ok_of_toOption hlookup
  dsimp only at hret
  subst hret
  have hreached := earlierTable_reached hs
  obtain ⟨c, hc, hids⟩ := Option.map_eq_some_iff.mp hitems
  have hnext : dnsNextId s.id = 5 := by
    rw [hid]
    decide
  have howned := (lookup_owned_iff hreached hok).mpr
    ⟨c, hc, rfl, fun _ => ⟨rfl, rfl, fun q hq => ?_⟩⟩
  · rw [hcalls] at howned
    exact ⟨s, s', hreached, hwaiting, hinvoked, hok, howned⟩
  · have hmem := List.mem_map_of_mem (f := DnsQuery.id) hq
    rw [hids, List.mem_singleton] at hmem
    rw [hmem, hnext]
    decide

/-- **No connection**: the lookup returns -1, and the callback is never invoked. -/
theorem lookup_without_connection :
    ¬ ∀ (io : LookupEnv) (s s' : DnsTable) (host : Str) (ret : ℤ),
      DnsTableReached dnsTableInit s → dnsTableLookup io s host = .ok (ret, s') →
      LookupOwned ret s' s.calls := by
  intro hall
  have h := hall willing dnsTableInit { dnsTableInit with calls := 1 } (str "h") (-1) .refl rfl
  exact absurd (h.failed rfl) (by decide)

end SipEcho
