import SipEcho.Map.Run
import SipEcho.Osip.Message

/-!
The addresses of record, `aor.c`: a map of registered names, each with its map of contacts.

`contact_compare` takes the user name `*` for equal to every user name, so its "equal" is not
transitive; `contactCompare_comparator`: its "less" is, and that is all an index asks for.

* `aorUpdate_spec`, `aorPush_spec`: each call keeps the store sorted and its names complete;
* `aor_run`: **the store after any run**: no two names are equal, a wildcard is alone in its
  scheme, host and port, and `aor_find` finds a name exactly when an equal one is stored.

A name is compared where the source compares the strings of its record; a string that is missing
there stops the program, which `comparesNull` finds out before a search among contacts, and before
a removal, which comes to the record itself in the end.
-/

namespace SipEcho

open Lib

/-- What the store uses of the osip library and of the system. -/
structure AorLib where
  /-- `osip_uri_param_get_byname`. -/
  byname : List GenericParam → Str → Option GenericParam
  /-- `osip_message_get_expires` of the first header. -/
  getExpires : Message → Option GenericParam
  /-- `osip_from_parse` and `osip_contact_parse` into a new record. -/
  parse : Str → From
  /-- `inet_pton`, for either family. -/
  inetPton : Str → Bool

/-- What a call finds: the time, and which allocations succeed. -/
structure AorEnv where
  time : ℤ
  aorNew : Bool
  addKey : Bool
  recordNew : ℕ → Bool
  recordPush : ℕ → Alloc
  push : Alloc

/-! ### Names -/

/-- `net_port2`. -/
def netPort2 (scheme port : Option Str) : ℤ :=
  match port, scheme with
  | some port, _ => atoi port
  | none, none => 0
  | none, some scheme =>
      if strcasecmp (str "SIP") scheme ≠ 0 then 5060
      else if strcasecmp (str "SIPS") scheme ≠ 0 then 5061
      else 0

/-- `net_port`. -/
def netPort : Option Uri → ℤ
  | none => 0
  | some u => netPort2 u.scheme u.port

namespace From

def scheme (f : From) : Option Str := f.url.bind Uri.scheme

def host (f : From) : Option Str := f.url.bind Uri.host

/-- `url->username ? url->username : ""`. -/
def user (f : From) : Str := (f.url.bind Uri.username).getD []

/-- The user name is the wildcard. -/
def Wild (f : From) : Prop := strcmp f.user (str "*") = 0

instance : DecidablePred Wild := fun f => inferInstanceAs (Decidable (strcmp f.user (str "*") = 0))

/-- The URL has a scheme, a user name and a host. -/
def named (f : From) : Bool :=
  match f.url with
  | none => false
  | some u => u.scheme.isSome && u.username.isSome && u.host.isSome

end From

/-- `contact_compare`, of names whose URLs have a scheme and a host. -/
def contactCompare (a b : From) : ℤ :=
  let cmp := strcasecmp (a.scheme.getD []) (b.scheme.getD [])
  let cmp := if cmp = 0 then strcasecmp (a.host.getD []) (b.host.getD []) else cmp
  let cmp := if cmp = 0 then netPort a.url - netPort b.url else cmp
  if cmp = 0 then
    if strcmp a.user (str "*") ≠ 0 ∧ strcmp b.user (str "*") ≠ 0 then strcasecmp a.user b.user
    else cmp
  else cmp

/-- The same scheme, host and port. -/
def SamePlace (a b : From) : Prop :=
  strcasecmp (a.scheme.getD []) (b.scheme.getD []) = 0 ∧
    strcasecmp (a.host.getD []) (b.host.getD []) = 0 ∧ netPort a.url = netPort b.url

/-! ### Contacts -/

/-- `struct aor_record`. -/
structure AorRecord where
  protocol : Option Str := none
  id : ℤ := 0
  contact : From := {}
  route : Option Uri := none
  expired : ℤ := 0
  deriving Inhabited

/-- `aor_record_cmp`. -/
def aorRecordCmp (a b : AorRecord) (_ : ℕ) : ℤ :=
  let cmp := strcmp (a.protocol.getD []) (b.protocol.getD [])
  if cmp = 0 then contactCompare a.contact b.contact else cmp

/-- `aor_record_cmp` comes to a string that is missing. -/
def AorRecord.readsNull (a b : AorRecord) : Bool :=
  a.protocol.isNone || b.protocol.isNone ||
    (strcmp (a.protocol.getD []) (b.protocol.getD []) = 0 &&
      (a.contact.scheme.isNone || b.contact.scheme.isNone ||
        (strcasecmp (a.contact.scheme.getD []) (b.contact.scheme.getD []) = 0 &&
          (a.contact.host.isNone || b.contact.host.isNone))))

/-- The keys a search compares with, on its way down. -/
def compared {κ : Type} (cmp : κ → ℤ) : RBTree κ → List κ
  | .nil => []
  | .node _ l k r =>
      k :: if cmp k = 0 then [] else if cmp k < 0 then compared cmp l else compared cmp r

/-- A search for the record, or its removal, comes to a string that is missing. -/
def comparesNull (contact : Map AorRecord) (x : AorRecord) : Bool :=
  match contact.key[0]? with
  | none => false
  | some k =>
      (compared (fun a => k.cmp x (contact.heap a).item 0) k.root).any fun a =>
        x.readsNull (contact.heap a).item

/-- `struct aor`. -/
structure Aor where
  name : From
  expired : ℤ
  contact : Map AorRecord

instance {α : Type} [Inhabited α] : Inhabited (MapNode α) := ⟨⟨none, none, default⟩⟩

/-- The record a search is made with: a name, and zeros. -/
def Aor.key (name : From) : Aor := ⟨name, 0, mapNew default 0 []⟩

instance : Inhabited Aor := ⟨Aor.key {}⟩

/-- `aor_cmp`. -/
def aorCmp (a b : Aor) (_ : ℕ) : ℤ := contactCompare a.name b.name

/-- `aor_init`. -/
def aorInit : Map Aor := mapNew default 0 [aorCmp]

section Calls

variable (lib : AorLib) (env : AorEnv)

/-- The value of a parameter or header that has one, as a number. -/
def valueOr (p : Option GenericParam) (expired : ℤ) : ℤ :=
  match p.bind GenericParam.gvalue with
  | some v => atoi v
  | none => expired

/-- `aor_record_new`, of contact number `n`. -/
def aorRecordNew (n : ℕ) (contact : From) (expired id : ℤ) : Option AorRecord :=
  match contact.url with
  | none => none
  | some url =>
      if url.scheme.isNone || url.host.isNone then none
      else if strcmp contact.user (str "*") = 0 then none
      else
        let expired :=
          if expired ≠ -1 then valueOr (lib.byname contact.genParams (str "expires")) expired
          else expired
        if expired = 0 then none
        else if env.recordNew n then
          match lib.byname url.urlParams (str "transport") with
          | none => none
          | some transport =>
              some { protocol := transport.gvalue, id, contact, expired := expired + env.time }
        else none

/-- `aor_record_lookup`: the route, where it takes no lookup. -/
def aorRecordLookup (record : AorRecord) : AorRecord :=
  match record.contact.host with
  | some host => if lib.inetPton host then { record with route := record.contact.url } else record
  | none => record

/-- `map_remove` of a contact, which compares its record on the way to it in the index. -/
def removeRecord (contact : Map AorRecord) (node : ℕ) : Except Fault (Map AorRecord) :=
  if comparesNull contact (contact.heap node).item then throw .crash
  else do return (← mapRemove contact (some node)).2

/-- `map_pure` of the contacts. -/
def pureContact (contact : Map AorRecord) (del : AorRecord) : Except Fault (Map AorRecord) :=
  if comparesNull contact del then throw .crash
  else
    match mapSearch contact del 0 with
    | none => return contact
    | some node => removeRecord contact node

/-- The loop of `map_erase`. -/
def eraseRecords : ℕ → Map AorRecord → Except Fault (Map AorRecord)
  | fuel, contact =>
      match contact.root with
      | none => return contact
      | some node =>
          match fuel with
          | 0 => throw .fuel
          | fuel + 1 => do eraseRecords fuel (← removeRecord contact node)

/-- `map_erase` of the contacts. -/
def eraseContacts (contact : Map AorRecord) : Except Fault (Map AorRecord) :=
  eraseRecords contact.size.toNat contact

/-- `map_push` of contact number `n`, and `aor_record_lookup` of what is stored. -/
def pushRecord (n : ℕ) (contact : Map AorRecord) (add : Option AorRecord) :
    Except Fault (Map AorRecord) :=
  if (env.recordPush n).calloc && add.any (comparesNull contact) then throw .crash
  else do
    let (pushed, contact) ← mapPush (env.recordPush n) contact add
    match add, contact.root with
    | some record, some node =>
        if pushed = -1 then return contact
        else return contact.setItem node (aorRecordLookup lib record)
    | _, _ => return contact

/-- `aor_new`. -/
def aorNew (name : From) (contacts : List From) (expired id : ℤ) : Except Fault (Option Aor) :=
  if name.named && env.aorNew then do
    let contact ← contacts.zipIdx.reverse.foldlM
      (fun contact c => pushRecord lib env c.2 contact (aorRecordNew lib env c.2 c.1 expired id))
      (mapNew default 0 (if env.addKey then [aorRecordCmp] else []))
    return some ⟨name, expired + env.time, contact⟩
  else return none

/-- `aor_delete`, which erases the contacts. -/
def aorDelete (aor : Option Aor) : Except Fault Unit :=
  match aor with
  | none => return ()
  | some aor => do
      let _ ← eraseContacts aor.contact
      return ()

/-- `aor_find`. -/
def aorFind (aors : Map Aor) (name : Option From) : Option Aor :=
  match name with
  | none => none
  | some name => if name.named then mapFind aors (Aor.key name) 0 else none

/-- The turn of `aor_update` for contact number `n`. -/
def updateContact (expired id : ℤ) (contact : Map AorRecord) (n : ℕ) (next : From) :
    Except Fault (Map AorRecord) :=
  if (next.displayname.bind List.head?) = some 42 ∧ expired = 0 then eraseContacts contact
  else
    match next.url with
    | none => throw .crash
    | some url =>
        match lib.byname url.urlParams (str "transport") with
        | none => return contact
        | some transport => do
            let del : AorRecord := { protocol := transport.gvalue, contact := next }
            let add := aorRecordNew lib env n next expired id
            let contact ← if expired ≠ -1 then pureContact contact del else pure contact
            pushRecord lib env n contact add

/-- `aor_update`: the node of the record, and the store. -/
def aorUpdate (aors : Map Aor) (m : Message) (expired id : ℤ) :
    Except Fault (Option ℕ × Map Aor) :=
  match m.from_ with
  | none => return (none, aors)
  | some name =>
      if name.named then
        let expired := if expired ≠ -1 then valueOr (lib.getExpires m) expired else expired
        match mapSearch aors (Aor.key name) 0 with
        | some node =>
            let aor := (aors.heap node).item
            if strcmp aor.name.user (str "*") = 0 then return (none, aors)
            else do
              let contact ← m.contacts.zipIdx.reverse.foldlM
                (fun contact c => updateContact lib env expired id contact c.2 c.1) aor.contact
              let aor := { aor with contact }
              let aor := if expired ≠ -1 then { aor with expired := expired + env.time } else aor
              return (some node, aors.setItem node aor)
        | none => do
            let aor ← aorNew lib env name m.contacts expired id
            let (pushed, aors) ← mapPush env.push aors aor
            if pushed = 0 then return (aors.root, aors)
            else do
              aorDelete aor
              return (none, aors)
      else return (none, aors)

/-- `aor_push`: the node of the record, and the store. -/
def aorPush (aors : Map Aor) (name route : Str) : Except Fault (Option ℕ × Map Aor) := do
  match ← aorNew lib env (lib.parse name) [lib.parse route] (3600 * 24 * 365) 0 with
  | none => return (none, aors)
  | some aor =>
      if aor.contact.size = 0 then do
        aorDelete (some aor)
        return (none, aors)
      else do
        let (pushed, aors) ← mapPush env.push aors (some aor)
        if pushed = 0 then return (aors.root, aors)
        else do
          aorDelete (some aor)
          return (none, aors)

end Calls

/-- A call that changes the store. -/
inductive AorOp where
  | push (env : AorEnv) (name route : Str)
  | update (env : AorEnv) (m : Message) (expired id : ℤ)

/-- What a call leaves of the store. -/
def aorStep (lib : AorLib) (aors : Map Aor) : AorOp → Except Fault (Map Aor)
  | .push env name route => do return (← aorPush lib env aors name route).2
  | .update env m expired id => do return (← aorUpdate lib env aors m expired id).2

def aorRun (lib : AorLib) (aors : Map Aor) : List AorOp → Except Fault (Map Aor)
  | [] => return aors
  | op :: ops => do aorRun lib (← aorStep lib aors op) ops

/-! ### The order of the names -/

/-- `contact_compare` compares scheme, host, port and user name, one after another; a wildcard
equals every user name. -/
lemma contactCompare_eq (a b : From) : contactCompare a b =
    if strcasecmp (a.scheme.getD []) (b.scheme.getD []) = 0 then
      if strcasecmp (a.host.getD []) (b.host.getD []) = 0 then
        if netPort a.url - netPort b.url = 0 then
          if a.Wild ∨ b.Wild then 0 else strcasecmp a.user b.user
        else netPort a.url - netPort b.url
      else strcasecmp (a.host.getD []) (b.host.getD [])
    else strcasecmp (a.scheme.getD []) (b.scheme.getD []) := by
  simp only [contactCompare, From.Wild]
  split_ifs <;> simp_all

lemma strcasecmp_preorder : TotalPreorder strcasecmp where
  swap a b := by
    have h : strcasecmp a b = -strcasecmp b a := strcmpBy_neg (f := tolower) tolower_eq_zero b a
    omega
  le_trans _ _ _ := strcmpBy_trans tolower_eq_zero

/-- **The "less" of `contact_compare` is transitive.** -/
theorem contactCompare_comparator : Comparator contactCompare := by
  have hport : TotalPreorder fun a b : From => netPort a.url - netPort b.url :=
    ⟨fun a b => by omega, fun a b c => by omega⟩
  have huser : Comparator fun a b : From => strcasecmp a.user b.user :=
    (strcasecmp_preorder.comap From.user).comparator
  have h := Comparator.lex (strcasecmp_preorder.comap fun f : From => f.scheme.getD [])
    (Comparator.lex (strcasecmp_preorder.comap fun f : From => f.host.getD [])
      (Comparator.lex hport (huser.joker From.Wild)))
  have heq : contactCompare = fun a b => _ := funext fun a => funext fun b => contactCompare_eq a b
  rw [heq]
  exact h

/-- A wildcard equals every name of its scheme, host and port. -/
lemma contactCompare_of_wild {a b : From} (hw : a.Wild) (h : SamePlace a b) :
    contactCompare a b = 0 := by
  obtain ⟨h1, h2, h3⟩ := h
  rw [contactCompare_eq, if_pos h1, if_pos h2, if_pos (by omega), if_pos (Or.inl hw)]

lemma aorCmp_comparator (i : ℕ) (c : Aor → Aor → ℕ → ℤ) (hc : [aorCmp][i]? = some c) :
    Comparator fun x y => c x y i := by
  obtain rfl : c = aorCmp := by
    have := List.mem_of_getElem? hc
    simpa using this
  have h := contactCompare_comparator
  exact ⟨fun x y => h.swap _ _, fun x y z => h.lt_trans _ _ _⟩

/-! ### The store -/

/-- **The invariant of the store**: a map over `aor_cmp` whose names are complete. -/
structure AorInv (aors : Map Aor) (l : List ℕ) : Prop where
  inv : MapInv [aorCmp] aors l
  named : ∀ a ∈ l, (aors.heap a).item.name.named = true

section Store

variable {lib : AorLib} {env : AorEnv} {aors : Map Aor} {l : List ℕ}

/-- What `aor_new` makes has the name it was given, and that is complete. -/
lemma aorNew_spec (name : From) (contacts : List From) (expired id : ℤ) :
    Meets True (fun res => ∀ aor, res = some aor → aor.name = name ∧ name.named = true)
      (aorNew lib env name contacts expired id) := by
  rw [aorNew]
  split
  · next h =>
    rw [Bool.and_eq_true] at h
    refine (Meets.trivially _).bind fun contact _ => ?_
    rintro aor haor
    obtain rfl := Option.some.inj haor
    exact ⟨rfl, h.1⟩
  · rintro aor haor
    exact absurd haor (by simp)

/-- A record with a complete name is pushed. -/
lemma AorInv.push (h : AorInv aors l) (alloc : Alloc) {aor : Option Aor}
    (haor : ∀ a, aor = some a → a.name.named = true) :
    Meets True (fun res => ∃ l, AorInv res.2 l) (mapPush alloc aors aor) := by
  cases aor with
  | none => exact ⟨l, h⟩
  | some aor =>
      refine ((h.inv.push alloc aor).mono ?_).excuse_mono fun _ => trivial
      rintro ⟨res, aors'⟩ ⟨hkeep, hres⟩
      have hold : ∀ a ∈ l, (aors'.heap a).item.name.named = true := fun a ha => by
        rw [hkeep a ha]
        exact h.named a ha
      rcases hres with ⟨-, hitem, hinv⟩ | ⟨-, hinv⟩
      · refine ⟨_, hinv, fun a ha => ?_⟩
        rcases List.mem_cons.mp ha with rfl | ha
        · show (aors'.heap aors.next).item.name.named = true
          rw [hitem]
          exact haor aor rfl
        · exact hold a ha
      · exact ⟨l, hinv, hold⟩

/-- A record changes, but not its name. -/
lemma AorInv.setItem (h : AorInv aors l) {node : ℕ} {aor : Aor}
    (hname : aor.name = (aors.heap node).item.name) : AorInv (aors.setItem node aor) l where
  inv := by
    refine h.inv.setItem fun i c hc => ?_
    obtain rfl : c = aorCmp := by
      have := List.mem_of_getElem? hc
      simpa using this
    intro z
    simp only [aorCmp, hname, and_self]
  named := by
    intro a ha
    rw [Map.setItem_item]
    split
    · next hnode =>
      rw [hname, ← hnode]
      exact h.named a ha
    · exact h.named a ha

/-- **`aor_update`.** -/
lemma aorUpdate_spec (h : AorInv aors l) (m : Message) (expired id : ℤ) :
    Meets True (fun res => ∃ l, AorInv res.2 l) (aorUpdate lib env aors m expired id) := by
  unfold aorUpdate
  rcases m.from_ with _ | name
  · exact ⟨l, h⟩
  · dsimp only
    split
    · next hnamed =>
      generalize (if expired ≠ -1 then _ else expired) = expired'
      rcases mapSearch aors (Aor.key name) 0 with _ | node
      · refine (aorNew_spec name m.contacts expired' id).bind fun aor haor => ?_
        refine (h.push env.push fun a ha => ?_).bind fun res hres => ?_
        · obtain ⟨h1, h2⟩ := haor a ha
          rw [h1, h2]
        · split
          · exact hres
          · exact (Meets.trivially _).bind fun _ _ => hres
      · dsimp only
        split
        · exact ⟨l, h⟩
        · refine (Meets.trivially _).bind fun contact _ => ?_
          refine ⟨l, h.setItem ?_⟩
          split <;> rfl
    · exact ⟨l, h⟩

/-- **`aor_push`.** -/
lemma aorPush_spec (h : AorInv aors l) (name route : Str) :
    Meets True (fun res => ∃ l, AorInv res.2 l) (aorPush lib env aors name route) := by
  refine (aorNew_spec (lib.parse name) [lib.parse route] (3600 * 24 * 365) 0).bind
    fun aor haor => ?_
  rcases aor with _ | aor
  · exact ⟨l, h⟩
  · dsimp only
    split
    · exact (Meets.trivially _).bind fun _ _ => ⟨l, h⟩
    · refine (h.push env.push fun a ha => ?_).bind fun res hres => ?_
      · obtain ⟨h1, h2⟩ := haor a ha
        rw [h1, h2]
      · split
        · exact hres
        · exact (Meets.trivially _).bind fun _ _ => hres

/-- **Every call keeps the store.** -/
theorem AorInv.step (h : AorInv aors l) (op : AorOp) :
    Meets True (fun aors' => ∃ l, AorInv aors' l) (aorStep lib aors op) := by
  cases op with
  | push env name route => exact (aorPush_spec h name route).bind fun res hres => hres
  | update env m expired id => exact (aorUpdate_spec h m expired id).bind fun res hres => hres

/-- **So does a run.** -/
theorem AorInv.run (h : AorInv aors l) (ops : List AorOp) :
    Meets True (fun aors' => ∃ l, AorInv aors' l) (aorRun lib aors ops) := by
  induction ops generalizing aors l with
  | nil => exact ⟨l, h⟩
  | cons op ops ih =>
      refine (h.step op).bind ?_
      rintro aors' ⟨l', h'⟩
      exact ih h'

lemma AorInv.init : AorInv aorInit [] :=
  ⟨MapInv.new _ _ aorCmp_comparator, by simp⟩

end Store

/-- The store holds the nodes `l`: no two names are equal, a wildcard is alone in its place, and a
search for a complete name finds one that is equal exactly when there is one. -/
structure AorStore (aors : Map Aor) (l : List ℕ) : Prop where
  listed : aors.Listed l
  distinct : ∀ a ∈ l, ∀ b ∈ l, a ≠ b →
    contactCompare (aors.heap a).item.name (aors.heap b).item.name ≠ 0
  wild : ∀ a ∈ l, ∀ b ∈ l, a ≠ b → (aors.heap a).item.name.Wild →
    ¬ SamePlace (aors.heap a).item.name (aors.heap b).item.name
  find : ∀ t : From, t.named = true → ((∃ aor, aorFind aors (some t) = some aor) ↔
    ∃ a ∈ l, contactCompare t (aors.heap a).item.name = 0)
  found : ∀ t aor, aorFind aors (some t) = some aor →
    contactCompare t aor.name = 0 ∧ ∃ a ∈ l, (aors.heap a).item = aor

lemma AorInv.store {aors : Map Aor} {l : List ℕ} (h : AorInv aors l) : AorStore aors l := by
  have hdistinct : ∀ a ∈ l, ∀ b ∈ l, a ≠ b →
      contactCompare (aors.heap a).item.name (aors.heap b).item.name ≠ 0 :=
    fun a ha b hb hab => h.inv.distinct (i := 0) (c := aorCmp) rfl ha hb hab
  have hsearch (t : From) := h.inv.search (i := 0) (c := aorCmp) rfl (Aor.key t)
  refine ⟨h.inv.listed, hdistinct, fun a ha b hb hab hw hs => ?_, fun t ht => ?_,
    fun t aor haor => ?_⟩
  · exact hdistinct a ha b hb hab (contactCompare_of_wild hw hs)
  · obtain ⟨h1, h2⟩ := hsearch t
    rw [aorFind, if_pos ht, mapFind]
    rcases hs : mapSearch aors (Aor.key t) 0 with _ | node
    · simp only [Option.map_none, reduceCtorEq, exists_false, false_iff]
      rintro ⟨a, ha, h0⟩
      exact h2 hs a ha h0
    · simp only [Option.map_some, Option.some.injEq, exists_eq', true_iff]
      exact ⟨node, h1 node hs⟩
  · obtain ⟨h1, -⟩ := hsearch t
    rw [aorFind] at haor
    split at haor
    · rw [mapFind, Option.map_eq_some_iff] at haor
      obtain ⟨node, hs, rfl⟩ := haor
      exact ⟨(h1 node hs).2, node, (h1 node hs).1, rfl⟩
    · exact absurd haor (by simp)

/-- **The store after any run.** -/
theorem aor_run (lib : AorLib) (ops : List AorOp) {aors : Map Aor}
    (hrun : aorRun lib aorInit ops = .ok aors) : ∃ l, AorStore aors l := by
  have h : Meets True _ (aorRun lib aorInit ops) := AorInv.init.run ops
  rw [hrun] at h
  obtain ⟨l, hl⟩ := h
  exact ⟨l, hl.store⟩

section Example

def sipUri (user host : String) (urlParams : List GenericParam) : Uri :=
  { scheme := some (str "sip"), username := some (str user), host := some (str host), urlParams }

/-- Three addresses, read as the osip library reads them. -/
def threeNames : AorLib where
  byname params name := params.find? fun p => p.gname = some name
  getExpires m := m.headers.find? fun p => p.gname = some (str "expires")
  parse s :=
    if s = str "<sip:*@h>" then { url := some (sipUri "*" "h" []) }
    else if s = str "<sip:a@h>" then { url := some (sipUri "a" "h" []) }
    else if s = str "<sip:g@g;transport=udp>" then
      { url := some (sipUri "g" "g" [⟨some (str "transport"), some (str "udp")⟩]) }
    else {}
  inetPton _ := false

def pushName (name : String) : AorOp :=
  .push ⟨0, true, true, fun _ => true, fun _ => allAlloc, allAlloc⟩ (str name)
    (str "<sip:g@g;transport=udp>")

/-- What a run leaves: how many names, and whether a name is found. -/
def storedAndFound (run : Except Fault (Map Aor)) (t : From) : Option (ℤ × Bool) :=
  match run with
  | .ok aors => some (aors.size, (aorFind aors (some t)).isSome)
  | .error _ => none

/-- A wildcard is stored; the second name, of the same place, is not, and is found. -/
theorem aor_run_wildcard :
    ∃ aors, aorRun threeNames aorInit [pushName "<sip:*@h>", pushName "<sip:a@h>"] = .ok aors ∧
      aors.size = 1 ∧ ∃ l, AorStore aors l := by
  have hrun : storedAndFound
      (aorRun threeNames aorInit [pushName "<sip:*@h>", pushName "<sip:a@h>"])
      { url := some (sipUri "a" "h" []) } = some (1, true) := by decide +kernel
  rcases h : aorRun threeNames aorInit [pushName "<sip:*@h>", pushName "<sip:a@h>"] with e | aors
  · rw [h] at hrun
    exact absurd hrun (by simp [storedAndFound])
  · rw [h] at hrun
    simp only [storedAndFound, Option.some.injEq, Prod.mk.injEq] at hrun
    exact ⟨aors, rfl, hrun.1, aor_run threeNames _ h⟩

end Example

end SipEcho
