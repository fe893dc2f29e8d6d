import SipEcho.Map.Items
import SipEcho.Net.Event

/-!
The outgoing side of a connection: chunks are queued on the map `outgoing`, the write branch of
`net_callback_inout` sends from the first of them, and `cmd_relay` sends the chunk it has queued
itself once the connection is being torn down.

A chunk stays in the map until a send of nothing returns `0`.

* `SendEvent`: the map, the chunks it points to, and what has gone out;
* `SendOp`, `sendStep`, `sendRun`: the calls, in any order, with any results of `send`;
* `SendInv`: what is on the wire and what is queued and unsent is what was queued, in its order;
* `SendInv.sent`: a send from a chunk that no unsent byte stands in front of keeps this;
* `outgoing_order`: the bytes on the wire are in order in **every run** in which no chunk is sent
  past an unsent byte and no `send` takes nothing of a chunk that has bytes.
-/

namespace SipEcho

open Lib

/-- `mem_new(buf, length, …)`: the length is an `unsigned short`; `alloc` says whether there is
memory. -/
def memNewOf (alloc : Bool) (buf : Str) (peer : SockAddr) : Option Mem :=
  let length := u16 buf.length
  if length ≠ 0 ∧ alloc then some { buffer := buf, length, end_ := length, peer } else none

/-- The bytes of a chunk that have not been sent. -/
def Mem.unsent (m : Mem) : Str := m.bytes m.done m.end_

/-- The transport of a connection. -/
inductive NetName where
  | tcp
  | udp
  | tls
  deriving DecidableEq, Repr

/-- What `send`, `sendto` or `SSL_write` makes of the bytes it is offered: it takes some of them,
or fails, with `EAGAIN` or for good. -/
inductive Sent where
  | took (n : ℕ)
  | again
  | failed
  deriving DecidableEq, Repr

/-- How many of the bytes on offer are taken. -/
def Sent.count (m : Mem) : Sent → ℕ
  | .took n => min n (m.end_ - m.done)
  | _ => 0

/-- The call of `send` in `tcp_send` and its siblings. -/
def Mem.offer (m : Mem) (r : Sent) : Mem × ℤ :=
  match r with
  | .took n => ({ m with done := u16 (m.done + Sent.count m (.took n)) }, Sent.count m (.took n))
  | _ => (m, -1)

/-- `net->send`: `tcp_send`, `udp_send` and `tls_send`; an event has its TLS object before anything
is queued on it. -/
def netSendOne (net : NetName) (m : Mem) (r : Sent) : Mem × ℤ :=
  match net with
  | .tcp => if m.done ≤ m.end_ then m.offer r else (m, -1)
  | .udp | .tls =>
      if m.done < m.end_ then m.offer r else if m.done = m.end_ then (m, 0) else (m, -1)

/-- `net_event_t`, as far as sending depends on it: `chunk` is the memory of the chunks, `next` an
address that none has.  `wire` and `queued` record the bytes that have gone out and the messages
put into the map, `live` whether another call may follow. -/
structure SendEvent where
  id : ℤ
  net : NetName
  outgoing : Map ℕ
  chunk : ℕ → Mem
  next : ℕ
  wire : Str
  queued : List Str
  live : Bool

variable {e e' : SendEvent}

/-- `event->net->send`, from the chunk `p`. -/
def SendEvent.send (e : SendEvent) (p : ℕ) (r : Sent) : ℤ × SendEvent :=
  let m := e.chunk p
  let (m', n) := netSendOne e.net m r
  (n, { e with
    chunk := Function.update e.chunk p m'
    wire := e.wire ++ m.bytes m.done (m.done + n.toNat) })

/-- `map_push_back(event->outgoing, mem)`, with a chunk `mem_new` has just made. -/
def SendEvent.queue (alloc : Alloc) (e : SendEvent) (m : Mem) : Except Fault SendEvent := do
  let (ret, outgoing) ← mapPushBack alloc e.outgoing (some e.next)
  return { e with
    outgoing
    chunk := Function.update e.chunk e.next m
    next := e.next + 1
    queued := if ret = 0 then e.queued ++ [m.unsent] else e.queued }

/-- The write branch of `net_callback_inout`. -/
def netCallbackWrite (e : SendEvent) (r : Sent) : Except Fault SendEvent :=
  match mapFront e.outgoing with
  | none => return e
  | some out =>
      let (n, e) := e.send out r
      if n = -1 then return { e with live := false }
      else if n = 0 then do
        let (_, outgoing) ← mapPop e.outgoing
        return { e with outgoing }
      else return e

/-- `net_send`, while the calls of `send` have these results: `none` when it needs more of
them. -/
def netSend (p : ℕ) : List Sent → SendEvent → Option ℤ × SendEvent
  | rs, e =>
      if (e.chunk p).done < (e.chunk p).end_ then
        match rs with
        | [] => (none, e)
        | r :: rs =>
            let (n, e) := e.send p r
            if n < 0 then if r = .again then netSend p rs e else (some (-1), e)
            else netSend p rs e
      else (some 0, e)

/-- `cmd_relay`. -/
def cmdRelay (mem : Bool) (alloc : Alloc) (rs : List Sent) (e : SendEvent) (buf : Str) :
    Except Fault (Option ℤ × SendEvent) :=
  match memNewOf mem buf .other with
  | none => return (some (-1), e)
  | some m => do
      let e' ← e.queue alloc m
      if e.id = 0 then return netSend e.next rs e' else return (some 0, e')

/-- `sip_send` and `dns_lookup`, once they have a message. -/
def queueMessage (mem : Bool) (alloc : Alloc) (e : SendEvent) (buf : Str) (peer : SockAddr) :
    Except Fault SendEvent :=
  match memNewOf mem buf peer with
  | none => return e
  | some m => e.queue alloc m

/-! ### Runs -/

/-- What can happen to the outgoing side of a connection. -/
inductive SendOp where
  /-- a message of the SIP stack or of the resolver -/
  | message (mem : Bool) (alloc : Alloc) (buf : Str) (peer : SockAddr)
  /-- a packet for the bus -/
  | relay (mem : Bool) (alloc : Alloc) (rs : List Sent) (buf : Str)
  /-- the socket is writable -/
  | write (r : Sent)
  /-- `net_event_delete_id`: `event->id = 0` -/
  | teardown
  /-- the connection is closed -/
  | close

/-- One step. -/
def sendStep (e : SendEvent) : SendOp → Except Fault SendEvent
  | .message mem alloc buf peer => queueMessage mem alloc e buf peer
  | .relay mem alloc rs buf => do
      let (ret, e) ← cmdRelay mem alloc rs e buf
      -- `net_send` that does not come back
      return { e with live := ret.isSome }
  | .write r => netCallbackWrite e r
  | .teardown => return { e with id := 0 }
  | .close => return { e with live := false }

/-- A run; nothing follows the end of a connection. -/
def sendRun (e : SendEvent) : List SendOp → Except Fault SendEvent
  | [] => return e
  | op :: ops => if e.live then do sendRun (← sendStep e op) ops else return e

/-- The bytes of the chunks in the map that have not been sent. -/
def SendEvent.unsent (e : SendEvent) : Str := e.outgoing.items.flatMap fun p => (e.chunk p).unsent

/-- A new connection, with an empty map. -/
structure SendEvent.New (e : SendEvent) : Prop where
  outgoing_eq : ∃ heap next, e.outgoing = mapNew heap next []
  wire_eq : e.wire = []
  queued_eq : e.queued = []

/-- What has gone out is the beginning of what was queued, and while the connection lives, what
its map holds unsent is the rest. -/
structure SendEvent.InOrder (e : SendEvent) : Prop where
  wire_le : e.wire <+: e.queued.flatten
  kept : e.live → e.wire ++ e.unsent = e.queued.flatten

/-- No byte is taken before a `send` fails for good. -/
def takesNothing : List Sent → Bool
  | .took n :: rs => n = 0 && takesNothing rs
  | .again :: rs => takesNothing rs
  | _ => true

/-- The step sends nothing past an unsent byte: `cmd_relay` sends on a connection that is torn
down only when its chunk got into the map and everything in front of it is sent, and no `send`
takes nothing of a first chunk that has bytes. -/
def sendOrderly (e : SendEvent) : SendOp → Bool
  | .relay mem alloc rs buf => e.id ≠ 0 || memNewOf mem buf .other = none || takesNothing rs ||
      alloc.calloc && e.unsent = []
  | .write r => r ≠ .took 0 ||
      match mapFront e.outgoing with
      | some p => (e.chunk p).unsent = []
      | none => true
  | _ => true

/-- Every step of a run does. -/
def sendsOrderly (e : SendEvent) : List SendOp → Bool
  | [] => true
  | op :: ops => !e.live || sendOrderly e op &&
      match sendStep e op with
      | .ok e => sendsOrderly e ops
      | .error _ => true

/-! ### One send -/

/-- A chunk whose cursors are in order. -/
structure Mem.Sendable (m : Mem) : Prop where
  done_le_end : m.done ≤ m.end_
  end_lt : m.end_ < 65536
  end_le : m.end_ ≤ m.buffer.length

section Chunk

variable {m : Mem} {net : NetName} {r : Sent} {p : ℕ}

lemma memNewOf_sendable {alloc : Bool} {buf : Str} {peer : SockAddr}
    (h : memNewOf alloc buf peer = some m) : m.Sendable := by
  rw [memNewOf] at h
  split at h
  · obtain rfl := Option.some.inj h
    refine ⟨Nat.zero_le _, u16_lt buf.length, ?_⟩
    show u16 (buf.length : ℤ) ≤ buf.length
    rw [u16]
    omega
  · exact absurd h (by simp)

/-- The bytes up to a cursor, and those behind it. -/
lemma Mem.bytes_split (m : Mem) {i j k : ℕ} (hij : i ≤ j) (hjk : j ≤ k) :
    m.bytes i k = m.bytes i j ++ m.bytes j k := by
  rw [Mem.bytes, Mem.bytes, Mem.bytes, show k - i = (j - i) + (k - j) by omega, List.take_add,
    List.drop_drop, show i + (j - i) = j by omega]

/-- **What a send can do**: the cursor moves on by the number of bytes taken, or nothing
happens. -/
lemma netSendOne_cases (hm : m.Sendable) (net : NetName) (r : Sent) :
    (∃ k : ℕ, netSendOne net m r = ({ m with done := m.done + k }, (k : ℤ)) ∧
      m.done + k ≤ m.end_ ∧ (k = 0 → r = .took 0 ∨ m.unsent = []) ∧
      (0 < k → ∃ n, 0 < n ∧ r = .took n)) ∨
    netSendOne net m r = (m, -1) := by
  obtain ⟨h1, h2, h3⟩ := hm
  have hlen : m.unsent = [] ↔ m.done = m.end_ := by
    rw [Mem.unsent, Mem.bytes, List.take_eq_nil_iff, List.drop_eq_nil_iff]
    omega
  have hoffer : (∃ k : ℕ, m.offer r = ({ m with done := m.done + k }, (k : ℤ)) ∧
      m.done + k ≤ m.end_ ∧ (k = 0 → r = .took 0 ∨ m.unsent = []) ∧
      (0 < k → ∃ n, 0 < n ∧ r = .took n)) ∨ m.offer r = (m, -1) := by
    cases r with
    | took n =>
        refine Or.inl ⟨min n (m.end_ - m.done), ?_, by omega, fun hk => ?_, fun hk => ?_⟩
        · rw [Mem.offer, Sent.count, ← Nat.cast_add, u16_natCast (by omega)]
        · rw [hlen, Sent.took.injEq]
          omega
        · exact ⟨n, by omega, rfl⟩
    | again => exact Or.inr rfl
    | failed => exact Or.inr rfl
  have hnothing : m.done = m.end_ →
      ∃ k : ℕ, (m, (0 : ℤ)) = ({ m with done := m.done + k }, (k : ℤ)) ∧
        m.done + k ≤ m.end_ ∧ (k = 0 → r = .took 0 ∨ m.unsent = []) ∧
      (0 < k → ∃ n, 0 < n ∧ r = .took n) :=
    fun h => ⟨0, rfl, by omega, fun _ => Or.inr (hlen.mpr h), fun h => absurd h (by simp)⟩
  cases net with
  | tcp =>
      rw [netSendOne, if_pos h1]
      exact hoffer
  | udp | tls =>
      rw [netSendOne]
      split
      · exact hoffer
      · rw [if_pos (by omega)]
        exact Or.inl (hnothing (by omega))

end Chunk

/-! ### The invariant -/

/-- The map holds the chunks `ps`, each once, and what is on the wire and what they have unsent
is what was queued. -/
structure SendInv (e : SendEvent) (ps : List ℕ) : Prop where
  queues : Queues e.outgoing ps
  nodup : ps.Nodup
  fresh : ∀ p ∈ ps, p < e.next
  sendable : ∀ p ∈ ps, (e.chunk p).Sendable
  kept : e.wire ++ ps.flatMap (fun p => (e.chunk p).unsent) = e.queued.flatten

namespace SendInv

variable {ps ps₁ ps₂ : List ℕ} {p : ℕ} {m : Mem}

lemma new (h : e.New) : SendInv e [] where
  queues := by
    obtain ⟨heap, next, h⟩ := h.outgoing_eq
    rw [h]
    exact .new heap next
  nodup := .nil
  fresh := by simp
  sendable := by simp
  kept := by rw [h.wire_eq, h.queued_eq]; rfl

lemma unsent_eq (h : SendInv e ps) : e.unsent = ps.flatMap fun p => (e.chunk p).unsent := by
  rw [SendEvent.unsent, h.queues.items_eq]

lemma inOrder (h : SendInv e ps) : e.InOrder where
  wire_le := ⟨_, h.kept⟩
  kept _ := by rw [h.unsent_eq, h.kept]

/-- A send from a chunk that is in the map leaves the other chunks alone. -/
lemma send_chunk (e : SendEvent) {q : ℕ} (hq : q ≠ p) (r : Sent) :
    (e.send p r).2.chunk q = e.chunk q :=
  Function.update_of_ne hq _ _

/-- **A send from a chunk behind chunks that are sent.** -/
lemma sent (h : SendInv e (ps₁ ++ p :: ps₂)) (hsent : ∀ q ∈ ps₁, (e.chunk q).unsent = [])
    (r : Sent) : SendInv (e.send p r).2 (ps₁ ++ p :: ps₂) := by
  have hm := h.sendable p (by simp)
  obtain ⟨hnot₁, hnot₂⟩ : p ∉ ps₁ ∧ p ∉ ps₂ := by
    have := h.nodup
    rw [List.nodup_append, List.nodup_cons] at this
    exact ⟨fun hp => this.2.2 p hp p (by simp) rfl, this.2.1.1⟩
  have hothers {qs : List ℕ} (hqs : p ∉ qs) :
      qs.flatMap (fun q => ((e.send p r).2.chunk q).unsent) =
        qs.flatMap fun q => (e.chunk q).unsent :=
    List.flatMap_congr fun q hq => by rw [send_chunk e (ne_of_mem_of_not_mem hq hqs)]
  have hfront : ps₁.flatMap (fun q => (e.chunk q).unsent) = [] := by
    rwa [List.flatMap_eq_nil_iff]
  have hkept := h.kept
  rw [List.flatMap_append, List.flatMap_cons, hfront, List.nil_append] at hkept
  have hp : (e.send p r).2.chunk p = (netSendOne e.net (e.chunk p) r).1 :=
    Function.update_self _ _ _
  have hwire : (e.send p r).2.wire = e.wire ++ (e.chunk p).bytes (e.chunk p).done
      ((e.chunk p).done + (netSendOne e.net (e.chunk p) r).2.toNat) := rfl
  have hsend : ((netSendOne e.net (e.chunk p) r).1.Sendable) ∧
      (e.send p r).2.wire ++ (netSendOne e.net (e.chunk p) r).1.unsent =
        e.wire ++ (e.chunk p).unsent := by
    obtain ⟨k, hk, hle, -⟩ | hk := netSendOne_cases hm e.net r
    · rw [hwire, hk]
      refine ⟨⟨hle, hm.end_lt, hm.end_le⟩, ?_⟩
      rw [Int.toNat_natCast, List.append_assoc]
      exact congrArg _ ((e.chunk p).bytes_split (Nat.le_add_right _ _) hle).symm
    · rw [hwire, hk]
      refine ⟨hm, ?_⟩
      rw [show ((-1 : ℤ).toNat) = 0 from rfl, Nat.add_zero, Mem.bytes, Nat.sub_self,
        List.take_zero, List.append_nil]
  refine ⟨h.queues, h.nodup, h.fresh, fun q hq => ?_, ?_⟩
  · by_cases hqp : q = p
    · rw [hqp, hp]
      exact hsend.1
    · rw [send_chunk e hqp]
      exact h.sendable q hq
  · rw [List.flatMap_append, List.flatMap_cons, hothers hnot₁, hothers hnot₂, hfront, hp,
      List.nil_append, ← List.append_assoc, hsend.2, List.append_assoc]
    exact hkept

/-- `net_send`, on such a chunk. -/
lemma netSend (h : SendInv e (ps₁ ++ p :: ps₂)) (hsent : ∀ q ∈ ps₁, (e.chunk q).unsent = [])
    (rs : List Sent) : SendInv (netSend p rs e).2 (ps₁ ++ p :: ps₂) := by
  induction rs generalizing e with
  | nil =>
      rw [SipEcho.netSend]
      split <;> exact h
  | cons r rs ih =>
      have hnot : p ∉ ps₁ := fun hp => by
        have := h.nodup
        rw [List.nodup_append] at this
        exact this.2.2 p hp p (by simp) rfl
      have hnext := ih (h.sent hsent r) fun q hq => by
        rw [send_chunk e (ne_of_mem_of_not_mem hq hnot)]
        exact hsent q hq
      rw [SipEcho.netSend]
      split
      · dsimp only
        split
        · split
          · exact hnext
          · exact h.sent hsent r
        · exact hnext
      · exact h

/-- A chunk is queued, or there is no memory for its node. -/
lemma queue (h : SendInv e ps) (hm : m.Sendable) (alloc : Alloc) :
    ∃ e', e.queue alloc m = .ok e' ∧
      SendInv e' (if alloc.calloc then ps ++ [e.next] else ps) ∧
      e'.chunk = Function.update e.chunk e.next m := by
  obtain ⟨m', hpush, hqueues⟩ := h.queues.pushBack alloc e.next
  have hnot : e.next ∉ ps := fun hp => absurd (h.fresh _ hp) (lt_irrefl _)
  have hold {q : ℕ} (hq : q ∈ ps) : Function.update e.chunk e.next m q = e.chunk q :=
    Function.update_of_ne (ne_of_mem_of_not_mem hq hnot) _ _
  have hsendable {q : ℕ} (hq : q ∈ ps) : (Function.update e.chunk e.next m q).Sendable := by
    rw [hold hq]
    exact h.sendable q hq
  have hkept : ps.flatMap (fun q => (Function.update e.chunk e.next m q).unsent) =
      ps.flatMap fun q => (e.chunk q).unsent :=
    List.flatMap_congr fun q hq => by rw [hold hq]
  refine ⟨_, by rw [SendEvent.queue, hpush]; rfl, ?_, rfl⟩
  cases halloc : alloc.calloc with
  | false =>
      rw [halloc] at hqueues
      refine ⟨hqueues, h.nodup, fun q hq => Nat.lt_succ_of_lt (h.fresh q hq), fun q hq => ?_, ?_⟩
      · exact hsendable hq
      · exact (congrArg _ hkept).trans h.kept
  | true =>
      rw [halloc] at hqueues
      refine ⟨hqueues, ?_, fun q hq => ?_, fun q hq => ?_, ?_⟩
      · exact h.nodup.append (List.nodup_singleton _) (List.disjoint_singleton.mpr hnot)
      · rcases List.mem_append.mp hq with hq | hq
        · exact Nat.lt_succ_of_lt (h.fresh q hq)
        · rw [List.mem_singleton.mp hq]
          exact Nat.lt_succ_self _
      · rcases List.mem_append.mp hq with hq | hq
        · exact hsendable hq
        · rw [List.mem_singleton.mp hq]
          show (Function.update e.chunk e.next m e.next).Sendable
          rwa [Function.update_self]
      · show e.wire ++ (ps ++ [e.next]).flatMap
            (fun q => (Function.update e.chunk e.next m q).unsent) =
          (e.queued ++ [m.unsent]).flatten
        rw [List.flatMap_append, List.flatMap_singleton, Function.update_self, hkept,
          ← List.append_assoc, h.kept, List.flatten_append, List.flatten_singleton]

end SendInv

/-! ### Steps -/

section Step

variable {ps : List ℕ} {p : ℕ} {op : SendOp}

/-- A send that takes nothing leaves everything as it is. -/
lemma send_idle (hm : (e.chunk p).Sendable) {r : Sent} (hr : ∀ n, r = .took n → n = 0) :
    (e.send p r).2 = e := by
  have hnothing (n : ℤ) (hn : n.toNat = 0) (h : netSendOne e.net (e.chunk p) r = (e.chunk p, n)) :
      (e.send p r).2 = e := by
    rw [SendEvent.send]
    dsimp only
    rw [h, hn, Function.update_eq_self, Nat.add_zero, Mem.bytes, Nat.sub_self, List.take_zero,
      List.append_nil]
  obtain ⟨k, hk, -, -, hpos⟩ | hk := netSendOne_cases hm e.net r
  · obtain rfl : k = 0 := by
      rcases Nat.eq_zero_or_pos k with h | h
      · exact h
      · obtain ⟨n, hn, rfl⟩ := hpos h
        exact absurd (hr n rfl) (by omega)
    exact hnothing _ rfl hk
  · exact hnothing _ rfl hk

/-- A chunk with bytes is offered, whatever the transport. -/
lemma netSendOne_of_lt {m : Mem} (h : m.done < m.end_) (net : NetName) (r : Sent) :
    netSendOne net m r = m.offer r := by
  cases net with
  | tcp => exact if_pos h.le
  | udp | tls => exact if_pos h

/-- `net_send`, when no byte is taken. -/
lemma netSend_idle (hm : (e.chunk p).Sendable) {rs : List Sent} (hrs : takesNothing rs = true) :
    (netSend p rs e).2 = e := by
  induction rs with
  | nil =>
      rw [netSend]
      split <;> rfl
  | cons r rs ih =>
      rw [netSend]
      split
      · rename_i hlt
        cases r with
        | took n =>
            obtain ⟨rfl, hrs⟩ : n = 0 ∧ takesNothing rs = true := by
              simpa [takesNothing] using hrs
            have hret : ¬ (e.send p (.took 0)).1 < 0 := by
              rw [SendEvent.send, netSendOne_of_lt hlt]
              exact not_lt.mpr (Int.natCast_nonneg _)
            dsimp only
            rw [if_neg hret, send_idle hm fun n hn => (Sent.took.inj hn).symm]
            exact ih hrs
        | again =>
            have hret : (e.send p .again).1 < 0 := by
              rw [SendEvent.send, netSendOne_of_lt hlt]
              exact neg_one_lt_zero
            dsimp only
            rw [if_pos hret, if_pos rfl, send_idle hm fun n hn => absurd hn (by simp)]
            exact ih hrs
        | failed =>
            have hret : (e.send p .failed).1 < 0 := by
              rw [SendEvent.send, netSendOne_of_lt hlt]
              exact neg_one_lt_zero
            dsimp only
            rw [if_pos hret, if_neg (by simp)]
            exact send_idle hm fun n hn => absurd hn (by simp)
      · rfl

/-- A packet for the bus is queued, and sent at once on a connection that is torn down. -/
lemma relay_step (h : SendInv e ps) {mem : Bool} {alloc : Alloc} {rs : List Sent} {buf : Str}
    (hop : sendOrderly e (.relay mem alloc rs buf) = true) :
    ∃ ret e', cmdRelay mem alloc rs e buf = .ok (ret, e') ∧ ∃ ps, SendInv e' ps := by
  rw [cmdRelay]
  cases hmem : memNewOf mem buf .other with
  | none => exact ⟨_, _, rfl, _, h⟩
  | some m =>
      have hm := memNewOf_sendable hmem
      obtain ⟨e', hqueue, hinv, hchunk⟩ := h.queue hm alloc
      have hp : e'.chunk e.next = m := by rw [hchunk, Function.update_self]
      dsimp only
      rw [hqueue]
      by_cases hid : e.id = 0
      · refine ⟨(netSend e.next rs e').1, (netSend e.next rs e').2, ?_, ?_⟩
        · show (if e.id = 0 then _ else _) = _
          rw [if_pos hid]
          rfl
        · obtain hidle | ⟨halloc, hsent⟩ :
              takesNothing rs = true ∨ alloc.calloc = true ∧ e.unsent = [] := by
            simpa [sendOrderly, hid, hmem] using hop
          · rw [netSend_idle (hp ▸ hm) hidle]
            exact ⟨_, hinv⟩
          · rw [halloc, if_pos rfl] at hinv
            refine ⟨_, hinv.netSend (fun q hq => ?_) rs⟩
            rw [hchunk, Function.update_of_ne (h.fresh q hq).ne]
            rw [h.unsent_eq, List.flatMap_eq_nil_iff] at hsent
            exact hsent q hq
      · refine ⟨some 0, e', ?_, _, hinv⟩
        show (if e.id = 0 then _ else _) = _
        rw [if_neg hid]
        rfl

/-- The first chunk is sent from, and goes when nothing was taken. -/
lemma write_step (h : SendInv e ps) {r : Sent} (hop : sendOrderly e (.write r) = true) :
    ∃ e', netCallbackWrite e r = .ok e' ∧ ∃ ps, SendInv e' ps := by
  rw [netCallbackWrite, h.queues.front]
  cases ps with
  | nil => exact ⟨e, rfl, [], h⟩
  | cons p ps =>
      have hsend : SendInv (e.send p r).2 ([] ++ p :: ps) := h.sent (by simp) r
      have hm := h.sendable p (by simp)
      dsimp only [List.head?_cons]
      split
      · exact ⟨_, rfl, _, hsend.queues, hsend.nodup, hsend.fresh, hsend.sendable, hsend.kept⟩
      · split
        · rename_i hzero
          -- nothing was taken, because nothing was left
          have hsent : ((e.send p r).2.chunk p).unsent = [] := by
            rw [SendEvent.send] at hzero ⊢
            dsimp only at hzero ⊢
            rw [Function.update_self]
            obtain ⟨k, hk, -, h0, -⟩ | hk := netSendOne_cases hm e.net r
            · rw [hk] at hzero ⊢
              obtain rfl : k = 0 := Nat.cast_eq_zero.mp hzero
              rcases h0 rfl with h0 | h0
              · simpa [sendOrderly, h0, h.queues.front] using hop
              · exact h0
            · rw [hk] at hzero
              exact absurd hzero (by simp)
          obtain ⟨m', hpop, hqueues⟩ := hsend.queues.pop
          have hkept := hsend.kept
          rw [List.nil_append, List.flatMap_cons, hsent, List.nil_append] at hkept
          rw [hpop]
          exact ⟨_, rfl, ps, hqueues, hsend.nodup.of_cons, fun q hq => hsend.fresh q (by simp [hq]),
            fun q hq => hsend.sendable q (by simp [hq]), hkept⟩
        · exact ⟨_, rfl, _, hsend⟩

/-- **An orderly step returns, and keeps the invariant.** -/
lemma send_step (h : SendInv e ps) (hop : sendOrderly e op = true) :
    ∃ e', sendStep e op = .ok e' ∧ ∃ ps, SendInv e' ps := by
  cases op with
  | message mem alloc buf peer =>
      rw [sendStep, queueMessage]
      split
      · exact ⟨e, rfl, ps, h⟩
      · rename_i hmem
        obtain ⟨e', hqueue, hinv, -⟩ := h.queue (memNewOf_sendable hmem) alloc
        exact ⟨e', hqueue, _, hinv⟩
  | relay mem alloc rs buf =>
      obtain ⟨ret, e', hrelay, ps, hinv⟩ := relay_step h hop
      rw [sendStep, hrelay]
      exact ⟨_, rfl, ps, hinv.queues, hinv.nodup, hinv.fresh, hinv.sendable, hinv.kept⟩
  | write r => exact write_step h hop
  | teardown | close =>
      exact ⟨_, rfl, ps, h.queues, h.nodup, h.fresh, h.sendable, h.kept⟩

/-- A run of orderly steps. -/
lemma send_run (h : SendInv e ps) {ops : List SendOp} (hops : sendsOrderly e ops = true) :
    ∃ e', sendRun e ops = .ok e' ∧ e'.InOrder := by
  induction ops generalizing e ps with
  | nil => exact ⟨e, rfl, h.inOrder⟩
  | cons op ops ih =>
      rw [sendRun]
      split
      · rename_i hlive
        rw [sendsOrderly, hlive, Bool.not_true, Bool.false_or, Bool.and_eq_true] at hops
        obtain ⟨hop, hops⟩ := hops
        obtain ⟨e', hstep, ps, hinv⟩ := send_step h hop
        rw [hstep] at hops ⊢
        exact ih hinv hops
      · exact ⟨e, rfl, h.inOrder⟩

end Step

/-- **The bytes on the wire are in order** after every run of orderly steps. -/
theorem outgoing_order {e : SendEvent} (he : e.New) {ops : List SendOp}
    (hops : sendsOrderly e ops = true) : ∃ e', sendRun e ops = .ok e' ∧ e'.InOrder :=
  send_run (.new he) hops

/-! ### The bus connection -/

/-- The bus connection before anything is queued on it. -/
def busOutgoing : SendEvent where
  id := 1
  net := .tcp
  outgoing := mapNew (fun _ => ⟨none, none, 0⟩) 0 []
  chunk _ := memNew [] .other
  next := 0
  wire := []
  queued := []
  live := true

/-- There is memory. -/
def Alloc.plenty : Alloc := ⟨true, fun _ => true⟩

/-- A PINGREQ. -/
def pingRequest : Str := [0xC0, 0]

/-- A DISCONNECT. -/
def disconnect : Str := [0xE0, 0]

/-- A packet in two parts, and the DISCONNECT once it is gone. -/
theorem outgoing_order_disconnect :
    ∃ e', sendRun busOutgoing [.relay true .plenty [] pingRequest, .write (.took 1),
      .write (.took 7), .write (.took 0), .teardown,
      .relay true .plenty [.again, .took 2] disconnect] = .ok e' ∧ e'.InOrder :=
  outgoing_order ⟨⟨_, _, rfl⟩, rfl, rfl⟩ (by decide +kernel)

/-- **The DISCONNECT overtakes a packet** that is queued and not sent when the program ends. -/
theorem disconnect_overtakes :
    ∃ e', sendRun busOutgoing [.relay true .plenty [] pingRequest, .teardown,
      .relay true .plenty [.took 2] disconnect] = .ok e' ∧
      ¬ e'.wire <+: e'.queued.flatten := by
  have hrun : (sendRun busOutgoing [.relay true .plenty [] pingRequest, .teardown,
      .relay true .plenty [.took 2] disconnect]).toOption.map (fun e => (e.wire, e.queued)) =
      some (disconnect, [pingRequest, disconnect]) := by decide +kernel
  cases h : sendRun busOutgoing [.relay true .plenty [] pingRequest, .teardown,
      .relay true .plenty [.took 2] disconnect] with
  | ok e' =>
      rw [h] at hrun
      obtain ⟨hwire, hqueued⟩ := Prod.mk.inj (Option.some.inj hrun)
      refine ⟨e', rfl, ?_⟩
      rw [hwire, hqueued]
      decide
  | error _ =>
      rw [h] at hrun
      exact absurd hrun (by simp [Except.toOption])

end SipEcho
