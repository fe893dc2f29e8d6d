import SipEcho.Common.Libc
import SipEcho.Map.Items

/-!
The resolver: `dns_lookup` and `dns_execute` over the life of the process.

A query is kept in the entities of the resolver's socket under the counter `__id`, an `int`; the
packet carries the lower 16 bits of it.  A reply is looked up under the id it carries.

* `dnsNextId`: the counter, passing over numbers whose lower 16 bits are zero;
* `DnsStep`, `DnsReached`: lookups, replies, sends and the loss of the socket, in any order;
* `DnsInv`: between the steps the entities hold queries under different numbers;
* `Matched`: what a lookup is for;
* `dns_matched_iff`: a lookup that returns `0` does it exactly when the number it takes fits 16
  bits, no pending query has it, and both insertions succeed.
-/

namespace SipEcho

open Lib

/-- `dns_entity_t`; `opaqueVal` stands for the callback and its argument. -/
structure DnsQuery where
  id : ℤ
  opaqueVal : ℕ
  host : Str
  deriving DecidableEq, Repr

/-- A packet of `dns_query`, as far as the reply depends on it. -/
structure DnsPacket where
  id : ℕ
  host : Str
  deriving DecidableEq, Repr

/-- The bytes of an `int`, the lowest first. -/
def intBytes (x : ℤ) : Str :=
  (List.range 4).map fun i => (x / 256 ^ i % 256).toNat.toUInt8

/-- `dns_compare2`. -/
def dnsCompare (a b : DnsQuery) (_ : ℕ) : ℤ := memcmp (intBytes a.id) (intBytes b.id)

/-- `++__id & 0xffff ? __id : ++__id`. -/
def dnsNextId (id : ℤ) : ℤ :=
  let id := toInt (id + 1)
  if id % 65536 ≠ 0 then id else toInt (id + 1)

/-- The resolver: the counter `__id`, the entities and the outgoing packets of its socket, and
the queries completed, each with its result. -/
structure Dns where
  id : ℤ
  entities : Map DnsQuery
  outgoing : List DnsPacket
  completed : List (DnsQuery × Option Str)

/-- What the surroundings of a lookup answer: whether there is a socket, memory for the query, a
packet from the library, and memory for either insertion. -/
structure LookupEnv where
  front : Bool
  calloc : Bool
  query : Bool
  pushBack : Bool
  push : Alloc

/-- `dns_lookup`. -/
def dnsLookup (io : LookupEnv) (s : Dns) (host : Str) (opaqueVal : ℕ) : Except Fault (ℤ × Dns) :=
  if io.front && io.calloc then
    let id := dnsNextId s.id
    let query : DnsQuery := ⟨id, opaqueVal, host⟩
    if io.query then do
      let outgoing := if io.pushBack then s.outgoing ++ [⟨u16 id, host⟩] else s.outgoing
      -- the result of `map_push` is not looked at
      let (_, entities) ← mapPush io.push s.entities (some query)
      return (0, { s with id, entities, outgoing })
    else return (-1, { s with id, completed := s.completed ++ [(query, none)] })
  else return (-1, s)

/-- `dns_execute`, on a packet with the id `id`; `result` is the address in it. -/
def dnsReply (s : Dns) (id : ℕ) (result : Option Str) : Except Fault Dns := do
  let (query, entities) ← mapGet s.entities ⟨id, 0, []⟩ 0
  return { s with entities, completed := s.completed ++ (query.map (·, result)).toList }

/-- The socket is lost and opened again: `map_free` of the entities completes them. -/
def dnsReopen (s : Dns) : Except Fault Dns := do
  let (queries, entities) ← mapErase s.entities
  return { s with
    entities := mapNew entities.heap entities.next [dnsCompare]
    outgoing := []
    completed := s.completed ++ queries.map (·, none) }

/-- Before the first lookup. -/
def dnsInit (heap : ℕ → MapNode DnsQuery) (next : ℕ) : Dns where
  id := 0
  entities := mapNew heap next [dnsCompare]
  outgoing := []
  completed := []

/-- What can happen to the resolver. -/
inductive DnsStep (s : Dns) : Dns → Prop
  | lookup {io : LookupEnv} {host : Str} {opaqueVal : ℕ} {ret : ℤ} {s' : Dns} :
      dnsLookup io s host opaqueVal = .ok (ret, s') → DnsStep s s'
  | reply {id : ℕ} {result : Option Str} {s' : Dns} : id < 65536 →
      dnsReply s id result = .ok s' → DnsStep s s'
  | sent : DnsStep s { s with outgoing := s.outgoing.tail }
  | reopen {s' : Dns} : dnsReopen s = .ok s' → DnsStep s s'

/-- Any number of steps. -/
abbrev DnsReached : Dns → Dns → Prop := Relation.ReflTransGen DnsStep

/-! ### Numbers -/

section Numbers

/-- An `int`. -/
def IsInt (x : ℤ) : Prop := -2 ^ 31 ≤ x ∧ x < 2 ^ 31

lemma isInt_toInt (x : ℤ) : IsInt (toInt x) := by
  have h1 := Int.le_bmod (x := x) (m := 2 ^ 32) (by decide)
  have h2 := Int.bmod_lt (x := x) (m := 2 ^ 32) (by decide)
  rw [IsInt, toInt]
  omega

lemma isInt_dnsNextId (id : ℤ) : IsInt (dnsNextId id) := by
  simp only [dnsNextId]
  split <;> exact isInt_toInt _

lemma intBytes_inj {x y : ℤ} (hx : IsInt x) (hy : IsInt y) (h : intBytes x = intBytes y) :
    x = y := by
  obtain ⟨hx1, hx2⟩ := hx
  obtain ⟨hy1, hy2⟩ := hy
  have byte (i : ℕ) (hi : i < 4) : x / 256 ^ i % 256 = y / 256 ^ i % 256 := by
    have hi' := congrArg (fun l : Str => (l[i]?.map UInt8.toNat)) h
    have hr : (List.range 4)[i]? = some i := by simp [hi]
    simp only [intBytes, List.getElem?_map, hr, Option.map_some, Option.some.injEq] at hi'
    have small (z : ℤ) : (z % 256).toNat.toUInt8.toNat = (z % 256).toNat := by
      have : (z % 256).toNat < 256 := by omega
      exact Nat.mod_eq_of_lt this
    rw [small, small] at hi'
    omega
  have h0 := byte 0 (by decide)
  have h1 := byte 1 (by decide)
  have h2 := byte 2 (by decide)
  have h3 := byte 3 (by decide)
  norm_num at h0 h1 h2 h3
  omega

lemma dnsCompare_eq_zero {a b : DnsQuery} (ha : IsInt a.id) (hb : IsInt b.id) {i : ℕ} :
    dnsCompare a b i = 0 ↔ a.id = b.id := by
  rw [dnsCompare, memcmp_eq_zero (by simp [intBytes])]
  exact ⟨intBytes_inj ha hb, fun h => by rw [h]⟩

lemma dnsCompare_comparator : Comparator fun x y => dnsCompare x y 0 where
  swap x y := by
    have := memcmp_neg (intBytes x.id) (intBytes y.id)
    simp only [dnsCompare]
    omega
  lt_trans _ _ _ h h' :=
    memcmp_lt_trans (by simp [intBytes]) (by simp [intBytes]) h h'

end Numbers

/-! ### The invariant -/

/-- Between the steps: the entities hold queries, under numbers that are `int`s. -/
def DnsInv (s : Dns) : Prop :=
  ∃ xs, Holds dnsCompare s.entities xs ∧ ∀ q ∈ xs, IsInt q.id

section Steps

variable {s s' : Dns} {io : LookupEnv} {host : Str} {opaqueVal id : ℕ} {ret : ℤ}
  {result : Option Str} {xs : List DnsQuery}

/-- **What a lookup can do**: nothing, or complete the query itself, or insert it. -/
lemma dnsLookup_cases (h : dnsLookup io s host opaqueVal = .ok (ret, s')) :
    (ret = -1 ∧ s'.entities = s.entities) ∨
    (ret = 0 ∧ ∃ r, mapPush io.push s.entities (some ⟨dnsNextId s.id, opaqueVal, host⟩) =
        .ok (r, s'.entities) ∧
      s'.outgoing =
        if io.pushBack then s.outgoing ++ [⟨u16 (dnsNextId s.id), host⟩] else s.outgoing) := by
  rw [dnsLookup] at h
  split at h
  · dsimp only at h
    split at h
    · obtain ⟨res, hp, h⟩ := ok_of_bind h
      obtain ⟨rfl, rfl⟩ := Prod.mk.inj (Except.ok.inj h)
      exact Or.inr ⟨rfl, res.1, hp, rfl⟩
    · obtain ⟨rfl, rfl⟩ := Prod.mk.inj (Except.ok.inj h)
      exact Or.inl ⟨rfl, rfl⟩
  · obtain ⟨rfl, rfl⟩ := Prod.mk.inj (Except.ok.inj h)
    exact Or.inl ⟨rfl, rfl⟩

/-- **What a reply does**: the query with its number, if one is pending, is completed. -/
lemma dnsReply_cases (hxs : Holds dnsCompare s.entities xs) (hint : ∀ q ∈ xs, IsInt q.id)
    (hid : id < 65536) (h : dnsReply s id result = .ok s') :
    (∃ (q : DnsQuery) (xs₁ xs₂ : List DnsQuery), xs = xs₁ ++ q :: xs₂ ∧ q.id = id ∧
      s'.completed = s.completed ++ [(q, result)] ∧
      Holds dnsCompare s'.entities (xs₁ ++ xs₂)) ∨
    ((∀ q ∈ xs, q.id ≠ id) ∧ s'.completed = s.completed ∧
      Holds dnsCompare s'.entities xs) := by
  have hkey : IsInt (⟨id, 0, []⟩ : DnsQuery).id := ⟨by dsimp only; omega, by dsimp only; omega⟩
  rw [dnsReply] at h
  obtain ⟨⟨found, entities⟩, hg, h⟩ := ok_of_bind h
  obtain rfl := Except.ok.inj h
  have hspec := (hxs.get ⟨id, 0, []⟩).ok hg
  cases found with
  | some q =>
      obtain ⟨xs₁, xs₂, rfl, heq, hrest⟩ := hspec
      refine Or.inl ⟨q, xs₁, xs₂, rfl, ?_, rfl, hrest⟩
      exact ((dnsCompare_eq_zero hkey (hint q (by simp))).mp heq).symm
  | none =>
      refine Or.inr ⟨fun q hq hqid => ?_, List.append_nil _, hspec.2⟩
      exact hspec.1 q hq ((dnsCompare_eq_zero hkey (hint q hq)).mpr hqid.symm)

/-- **Every step keeps the invariant.** -/
lemma DnsStep.inv (h : DnsStep s s') (hs : DnsInv s) : DnsInv s' := by
  obtain ⟨xs, hxs, hint⟩ := hs
  cases h with
  | lookup h =>
      rcases dnsLookup_cases h with ⟨-, he⟩ | ⟨-, r, hp, -⟩
      · exact ⟨xs, by rw [he]; exact hxs, hint⟩
      · obtain ⟨-, ⟨-, hx⟩ | ⟨-, hx⟩⟩ := (hxs.push _ _).ok hp
        · refine ⟨_, hx, fun q hq => ?_⟩
          rcases List.mem_cons.mp hq with rfl | hq
          · exact isInt_dnsNextId s.id
          · exact hint q hq
        · exact ⟨xs, hx, hint⟩
  | reply hid h =>
      rcases dnsReply_cases hxs hint hid h with ⟨q, xs₁, xs₂, rfl, -, -, hx⟩ | ⟨-, -, hx⟩
      · refine ⟨_, hx, fun p hp => hint p ?_⟩
        rcases List.mem_append.mp hp with hp | hp <;> simp [hp]
      · exact ⟨xs, hx, hint⟩
  | sent => exact ⟨xs, hxs, hint⟩
  | reopen h =>
      rw [dnsReopen] at h
      obtain ⟨res, -, h⟩ := ok_of_bind h
      obtain rfl := Except.ok.inj h
      exact ⟨[], Holds.new dnsCompare_comparator _ _, by simp⟩

/-- **Every run does.** -/
lemma DnsReached.inv (h : DnsReached s s') (hs : DnsInv s) : DnsInv s' := by
  induction h with
  | refl => exact hs
  | tail _ hstep ih => exact hstep.inv ih

lemma dnsInit_inv (heap : ℕ → MapNode DnsQuery) (next : ℕ) : DnsInv (dnsInit heap next) :=
  ⟨[], Holds.new dnsCompare_comparator _ _, by simp⟩

end Steps

/-! ### Lookups and replies -/

/-- What a lookup is for: one query has been added, and one packet that carries its number; and
as long as it is pending, a reply with the number of the packet completes it and no other. -/
def Matched (s s' : Dns) (host : Str) (opaqueVal : ℕ) : Prop :=
  ∃ (q : DnsQuery) (p : DnsPacket), q.host = host ∧ q.opaqueVal = opaqueVal ∧ p.host = host ∧
    (∀ xs, Holds dnsCompare s.entities xs → Holds dnsCompare s'.entities (q :: xs)) ∧
    s'.outgoing = s.outgoing ++ [p] ∧ q.id = p.id ∧
    ∀ t t' result xs₁ xs₂, DnsReached s' t → Holds dnsCompare t.entities (xs₁ ++ q :: xs₂) →
      dnsReply t p.id result = .ok t' →
      t'.completed = t.completed ++ [(q, result)] ∧ Holds dnsCompare t'.entities (xs₁ ++ xs₂)

/-- The number a lookup takes fits 16 bits and is no pending query's, and there is memory for
the insertions. -/
structure Numbered (io : LookupEnv) (s : Dns) : Prop where
  fits : 0 < dnsNextId s.id ∧ dnsNextId s.id < 65536
  unused : ∀ xs, Holds dnsCompare s.entities xs → ∀ q ∈ xs, q.id ≠ dnsNextId s.id
  pushBack : io.pushBack = true
  push : io.push.calloc = true ∧ io.push.malloc 0 = true

section Matching

variable {s s' : Dns} {io : LookupEnv} {host : Str} {opaqueVal : ℕ}

/-- The counter passes over the numbers whose lower 16 bits are zero. -/
lemma dnsNextId_ne_zero (id : ℤ) : dnsNextId id ≠ 0 := by
  simp only [dnsNextId]
  split
  · rename_i h
    intro h0
    rw [h0] at h
    exact h rfl
  · rename_i h
    have hi := isInt_toInt (id + 1)
    rw [IsInt] at hi
    generalize toInt (id + 1) = i at h hi
    rw [toInt, Int.bmod_eq_of_le (by omega) (by omega)]
    omega

/-- A pending query is completed by its own number, and alone. -/
lemma dnsReply_pending {t t' : Dns} {q : DnsQuery} {id : ℕ} {result : Option Str}
    {xs₁ xs₂ : List DnsQuery} (ht : DnsInv t)
    (hq : Holds dnsCompare t.entities (xs₁ ++ q :: xs₂)) (hid : q.id = id) (hlt : id < 65536)
    (h : dnsReply t id result = .ok t') :
    t'.completed = t.completed ++ [(q, result)] ∧
      Holds dnsCompare t'.entities (xs₁ ++ xs₂) := by
  obtain ⟨ys, hys, hint⟩ := ht
  obtain rfl := hys.unique hq
  rcases dnsReply_cases hq hint hlt h with ⟨p, ys₁, ys₂, hsplit, hp, hdone, hrest⟩ | ⟨hno, -⟩
  · -- two pending queries with one number are one
    have hne : ∀ x ∈ xs₁ ++ xs₂, x.id ≠ q.id := by
      intro x hx hxq
      have hpair := hq.pairwise
      rw [List.pairwise_append, List.pairwise_cons] at hpair
      have hzero (a b : DnsQuery) (ha : a ∈ xs₁ ++ q :: xs₂) (hb : b ∈ xs₁ ++ q :: xs₂)
          (hab : a.id = b.id) : dnsCompare a b 0 = 0 :=
        (dnsCompare_eq_zero (hint a ha) (hint b hb)).mpr hab
      rcases List.mem_append.mp hx with hx | hx
      · exact hpair.2.2 x hx q List.mem_cons_self (hzero x q (by simp [hx]) (by simp) hxq)
      · exact hpair.2.1.1 x hx (hzero q x (by simp) (by simp [hx]) hxq.symm)
    have hpq : ys₁ = xs₁ ∧ p = q ∧ ys₂ = xs₂ := by
      rcases List.append_eq_append_iff.mp hsplit with ⟨z, hz, hz'⟩ | ⟨z, hz, hz'⟩
      · cases z with
        | nil =>
            rw [List.append_nil] at hz
            rw [List.nil_append, List.cons.injEq] at hz'
            exact ⟨hz, hz'.1.symm, hz'.2.symm⟩
        | cons a z =>
            rw [List.cons_append, List.cons.injEq] at hz'
            refine absurd (hp.trans hid.symm) (hne p ?_)
            rw [hz'.2]
            simp
      · cases z with
        | nil =>
            rw [List.append_nil] at hz
            rw [List.nil_append, List.cons.injEq] at hz'
            exact ⟨hz.symm, hz'.1, hz'.2⟩
        | cons a z =>
            rw [List.cons_append, List.cons.injEq] at hz'
            refine absurd (hp.trans hid.symm) (hne p ?_)
            rw [hz, ← hz'.1]
            simp
    obtain ⟨rfl, rfl, rfl⟩ := hpq
    exact ⟨hdone, hrest⟩
  · exact absurd hid (hno q (by simp))

/-- **A lookup that returns `0`.** -/
lemma matched_iff (hs : DnsInv s) (h : dnsLookup io s host opaqueVal = .ok (0, s')) :
    Matched s s' host opaqueVal ↔ Numbered io s := by
  obtain ⟨xs, hxs, hint⟩ := id hs
  obtain ⟨hret, -⟩ | ⟨-, r, hp, hout⟩ := dnsLookup_cases h
  · exact absurd hret (by decide)
  obtain ⟨hpushable, hpushed⟩ := (hxs.push _ _).ok hp
  have hnext := isInt_dnsNextId s.id
  have hunused : (∀ q ∈ xs, q.id ≠ dnsNextId s.id) ↔
      ∀ y ∈ xs, dnsCompare ⟨dnsNextId s.id, opaqueVal, host⟩ y 0 ≠ 0 :=
    forall₂_congr fun y hy => by
      rw [Ne, Ne, dnsCompare_eq_zero hnext (hint y hy), eq_comm]
  constructor
  · rintro ⟨q, p, hqh, hqo, hph, hadded, hsent, hid, -⟩
    have hback : io.pushBack = true := by
      by_contra hb
      rw [if_neg hb, hsent] at hout
      have := congrArg List.length hout
      rw [List.length_append, List.length_singleton] at this
      omega
    rw [if_pos hback, hsent, List.append_cancel_left_eq, List.cons.injEq] at hout
    have hadded := hadded xs hxs
    rcases hpushed with ⟨h0, hnew⟩ | ⟨-, hold⟩
    · have hq := (List.cons.inj (hadded.unique hnew)).1
      obtain ⟨hcalloc, hmalloc, hne⟩ := hpushable.mp h0
      have hp16 : p.id = u16 (dnsNextId s.id) := by rw [hout.1]
      have hlt := u16_lt (dnsNextId s.id)
      have h0 := dnsNextId_ne_zero s.id
      rw [hq] at hid
      dsimp only at hid
      refine ⟨⟨by omega, by omega⟩, fun ys hys => ?_, hback, hcalloc, hmalloc⟩
      rw [hys.unique hxs]
      exact hunused.mpr hne
    · have := congrArg List.length (hadded.unique hold)
      rw [List.length_cons] at this
      omega
  · intro hn
    have hr : r = 0 := hpushable.mpr ⟨hn.push.1, hn.push.2, hunused.mp (hn.unused xs hxs)⟩
    have hnew : Holds dnsCompare s'.entities (⟨dnsNextId s.id, opaqueVal, host⟩ :: xs) := by
      rcases hpushed with ⟨-, hnew⟩ | ⟨h1, -⟩
      · exact hnew
      · rw [hr] at h1
        exact absurd h1 (by simp)
    have h16 : (u16 (dnsNextId s.id) : ℤ) = dnsNextId s.id :=
      u16_of_lt hn.fits.1.le hn.fits.2
    refine ⟨⟨dnsNextId s.id, opaqueVal, host⟩, ⟨u16 (dnsNextId s.id), host⟩, rfl, rfl, rfl,
      fun ys hys => ?_, ?_, h16.symm, fun t t' result xs₁ xs₂ ht hq hreply => ?_⟩
    · rw [hys.unique hxs]
      exact hnew
    · rw [hout, if_pos hn.pushBack]
    · have hs' : DnsInv s' := (DnsStep.lookup h).inv hs
      exact dnsReply_pending (ht.inv hs') hq h16.symm (u16_lt _) hreply

/-- **DNS reply matching**, over the life of the process: a lookup that returns `0` has left one
query and one packet that match, exactly when its number fits the packet and is unused, and the
insertions succeed. -/
theorem dns_matched_iff {heap : ℕ → MapNode DnsQuery} {next : ℕ}
    (hs : DnsReached (dnsInit heap next) s)
    (h : dnsLookup io s host opaqueVal = .ok (0, s')) :
    Matched s s' host opaqueVal ↔ Numbered io s :=
  matched_iff (hs.inv (dnsInit_inv heap next)) h

end Matching

/-! ### The lookup number 65536 -/

section Overflow

/-- Surroundings in which everything succeeds. -/
def willing : LookupEnv := ⟨true, true, true, true, allAlloc⟩

/-- There a lookup returns `0`. -/
lemma dnsLookup_willing {s : Dns} (hs : Holds dnsCompare s.entities []) (host : Str)
    (opaqueVal : ℕ) : ∃ s', dnsLookup willing s host opaqueVal = .ok (0, s') := by
  obtain ⟨res, hres, -⟩ :=
    (hs.push allAlloc ⟨dnsNextId s.id, opaqueVal, host⟩).returns (by simp)
  refine ⟨{ s with
    id := dnsNextId s.id
    entities := res.2
    outgoing := s.outgoing ++ [⟨u16 (dnsNextId s.id), host⟩] }, ?_⟩
  rw [dnsLookup]
  show mapPush allAlloc s.entities _ >>= _ = _
  rw [hres]
  rfl

/-- Memory full of zeros. -/
def zeroQueries : ℕ → MapNode DnsQuery := fun _ => ⟨none, none, ⟨0, 0, []⟩⟩

/-- Three lookups, the second of which the library makes no packet for; two packets are sent, and
the reply to the first lookup comes. -/
def earlierLookups : Except Fault Dns := do
  let (_, s) ← dnsLookup willing (dnsInit zeroQueries 0) (str "a") 1
  let (_, s) ← dnsLookup { willing with query := false } s (str "b") 2
  let (_, s) ← dnsLookup willing s (str "c") 3
  dnsReply { s with outgoing := s.outgoing.tail.tail } 1 (some (str "1"))

lemma earlierLookups_reached {s : Dns} (h : earlierLookups = .ok s) :
    DnsReached (dnsInit zeroQueries 0) s := by
  rw [earlierLookups] at h
  obtain ⟨⟨_, s₁⟩, h₁, h⟩ := ok_of_bind h
  obtain ⟨⟨_, s₂⟩, h₂, h⟩ := ok_of_bind h
  obtain ⟨⟨_, s₃⟩, h₃, h⟩ := ok_of_bind h
  have hfirst : DnsReached (dnsInit zeroQueries 0) s₁ := .single (.lookup h₁)
  have hsecond : DnsReached (dnsInit zeroQueries 0) s₂ := hfirst.tail (.lookup h₂)
  have hthird : DnsReached (dnsInit zeroQueries 0) s₃ := hsecond.tail (.lookup h₃)
  exact ((hthird.tail .sent).tail .sent).tail (.reply (by decide) h)

/-- Behind them one query is pending, and the next lookup is matched under the number 4. -/
theorem dns_matched_fourth :
    ∃ s s', DnsReached (dnsInit zeroQueries 0) s ∧ s.entities.items.map (·.id) = [3] ∧
      dnsLookup willing s (str "h") 7 = .ok (0, s') ∧ Matched s s' (str "h") 7 := by
  obtain ⟨s, hs, hview⟩ := ok_of_toOption (f := fun s => (s.id, s.entities.items.map (·.id),
      (dnsLookup willing s (str "h") 7).toOption.map (·.1)))
    (show earlierLookups.toOption.map _ = some ((3 : ℤ), [(3 : ℤ)], some (0 : ℤ)) by
      decide +kernel)
  simp only [Prod.mk.injEq] at hview
  obtain ⟨hid, hitems, hlookup⟩ := hview
  obtain ⟨⟨ret, s'⟩, hok, hret⟩ := ok_of_toOption hlookup
  dsimp only at hret
  subst hret
  have hreached := earlierLookups_reached hs
  have hnext : dnsNextId s.id = 4 := by
    rw [hid]
    decide
  refine ⟨s, s', hreached, hitems, hok, (dns_matched_iff hreached hok).mpr
    ⟨by rw [hnext]; decide, fun xs hxs q hq => ?_, rfl, rfl, rfl⟩⟩
  have hmem : q.id ∈ s.entities.items.map (·.id) := by
    rw [Lists.items_eq (show Lists [dnsCompare] _ xs from hxs)]
    exact List.mem_map_of_mem hq
  rw [hitems, List.mem_singleton] at hmem
  rw [hmem, hnext]
  decide

/-- A lookup the library makes no packet for takes a number all the same. -/
lemma dnsReached_counter (heap : ℕ → MapNode DnsQuery) (next n : ℕ) (hn : n < 65536) :
    ∃ done, DnsReached (dnsInit heap next)
      { dnsInit heap next with id := n, completed := done } := by
  induction n with
  | zero => exact ⟨[], .refl⟩
  | succ n ih =>
      obtain ⟨done, hreached⟩ := ih (by omega)
      have hid : dnsNextId (n : ℤ) = (n + 1 : ℕ) := by
        have hint : toInt ((n : ℤ) + 1) = (n + 1 : ℕ) := by
          rw [toInt, Int.bmod_eq_of_le (by omega) (by omega)]
          push_cast
          rfl
        rw [dnsNextId, hint]
        exact if_pos (by omega)
      refine ⟨done ++ [(⟨dnsNextId n, 7, []⟩, none)], hreached.tail ?_⟩
      rw [← hid]
      exact @DnsStep.lookup _ { willing with query := false } [] 7 (-1) _ rfl

/-- **The counter outgrows the packet**: after 65535 lookups the next one keeps its query under
65537, and the packet carries 1. -/
theorem outgrown_number :
    ¬ ∀ (heap : ℕ → MapNode DnsQuery) (next : ℕ) (s s' : Dns) (host : Str) (opaqueVal : ℕ),
      DnsReached (dnsInit heap next) s → dnsLookup willing s host opaqueVal = .ok (0, s') →
      Matched s s' host opaqueVal := by
  intro hall
  obtain ⟨done, hreached⟩ := dnsReached_counter zeroQueries 0 65535 (by decide)
  obtain ⟨s', hs'⟩ := dnsLookup_willing
    (s := { dnsInit zeroQueries 0 with id := (65535 : ℕ), completed := done })
    (Holds.new dnsCompare_comparator _ _) (str "h") 7
  have hm := hall _ _ _ _ (str "h") 7 hreached hs'
  have hn := (matched_iff (hreached.inv (dnsInit_inv _ _)) hs').mp hm
  have hid : dnsNextId ((65535 : ℕ) : ℤ) = 65537 := by decide
  have := hn.fits.2
  dsimp only at this
  rw [hid] at this
  omega

end Overflow

end SipEcho
