import SipEcho.Map.Delete

/-!
The container: a doubly linked list of nodes, and over it one search tree for each comparator.

Addresses are numbers, and the memory of the nodes is part of the map.  `calloc` gives addresses
that were never given before.  The functions of the source that walk the list take fuel, one unit
for each turn of their loop; what a turn frees is in the result.
-/

namespace SipEcho

open Lib

/-- `struct map_node`. -/
structure MapNode (α : Type) where
  up : Option ℕ
  down : Option ℕ
  item : α

/-- `struct map_index`; a comparator is told the number of its index. -/
structure MapIndex (α : Type) where
  root : RBTree ℕ
  cmp : α → α → ℕ → ℤ

/-- `struct map`, its nodes' memory, and the address `calloc` gives next.  The size is an `int` in
the source: no map here has `2 ^ 31` items. -/
structure Map (α : Type) where
  heap : ℕ → MapNode α
  next : ℕ
  root : Option ℕ
  tail : Option ℕ
  key : List (MapIndex α)
  size : ℤ

/-- Which of the allocations of a call succeed: that of the node, and that of the tree node for
each index. -/
structure Alloc where
  calloc : Bool
  malloc : ℕ → Bool

/-- A copy function: what it returns for a new item, and what it makes of a stored one. -/
structure MapCpy (α : Type) where
  fresh : α → Option α
  stored : α → α → α

def mapFlagInsert : ℕ := 1
def mapFlagUpdate : ℕ := 2
def mapFlagShift : ℕ := 4

variable {α : Type}

/-- `map_internal_cmp`. -/
def MapIndex.like (k : MapIndex α) (heap : ℕ → MapNode α) (index a b : ℕ) : ℤ :=
  k.cmp (heap a).item (heap b).item index

/-- `map_new`, in some memory. -/
def mapNew (heap : ℕ → MapNode α) (next : ℕ) (cmps : List (α → α → ℕ → ℤ)) : Map α where
  heap := heap
  next := next
  root := none
  tail := none
  key := cmps.map fun cmp => ⟨.nil, cmp⟩
  size := 0

namespace Map

variable (m : Map α)

def setUp (a : ℕ) (x : Option ℕ) : Map α :=
  { m with heap := Function.update m.heap a { m.heap a with up := x } }

def setDown (a : ℕ) (x : Option ℕ) : Map α :=
  { m with heap := Function.update m.heap a { m.heap a with down := x } }

def setItem (a : ℕ) (x : α) : Map α :=
  { m with heap := Function.update m.heap a { m.heap a with item := x } }

/-- `calloc` of a node, and what is written to it. -/
def calloc (node : MapNode α) : ℕ × Map α :=
  (m.next, { m with heap := Function.update m.heap m.next node, next := m.next + 1 })

/-- A node is taken out of the list. -/
def unlink (node : ℕ) : Map α :=
  let m := match (m.heap node).up with
    | some a => m.setDown a (m.heap node).down
    | none => { m with root := (m.heap node).down }
  match (m.heap node).down with
  | some a => m.setUp a (m.heap node).up
  | none => { m with tail := (m.heap node).up }

/-- `map->root->up = node`, or `map->tail = node`. -/
def hookFront (node : ℕ) : Map α :=
  match m.root with
  | some a => m.setUp a (some node)
  | none => { m with tail := some node }

/-- `map->tail->down = node`, or `map->root = node`. -/
def hookBack (node : ℕ) : Map α :=
  match m.tail with
  | some a => m.setDown a (some node)
  | none => { m with root := some node }

/-- The shift to the front in `map_push_find`. -/
def shift (find : ℕ) : Map α :=
  let m := (m.unlink find).hookFront find
  { (m.setDown find m.root).setUp find none with root := some find }

end Map

/-! ### The indexes -/

/-- What `map_key` returns: 0, `MAP_NODE_FAILURE` or a node. -/
inductive Keyed where
  | ok
  | failure
  | found (leaf : ℕ)
  deriving DecidableEq, Repr

/-- The node `tsearch2` has for a caller that looked for `node`. -/
def Found.leaf (node : ℕ) : Found ℕ → Option ℕ
  | .found leaf => some leaf
  | .inserted => some node
  | .failed => none

/-- `map_key`, on the indexes from number `index` on. -/
def mapKey (malloc : ℕ → Bool) (heap : ℕ → MapNode α) (node : ℕ) :
    ℕ → List (MapIndex α) → Except Fault (Keyed × List (MapIndex α))
  | _, [] => return (.ok, [])
  | index, k :: keys =>
      match tsearch2 (malloc index) (k.like heap index node) node k.root with
      | none => throw .crash
      | some (found, root) =>
          match found.leaf node with
          | none => return (.failure, { k with root := root } :: keys)
          | some leaf =>
              if leaf ≠ node then return (.found leaf, { k with root := root } :: keys)
              else do
                let (keyed, keys) ← mapKey malloc heap node (index + 1) keys
                if keyed = .ok then return (.ok, { k with root := root } :: keys)
                else do
                  let root ← tdelete2 (k.like heap index node) root
                  return (.failure, { k with root := root } :: keys)

/-- `map_index`. -/
def mapIndex (malloc : ℕ → Bool) (m : Map α) (node : ℕ) : Except Fault (Keyed × Map α) := do
  let (keyed, key) ← mapKey malloc m.heap node 0 m.key
  return (keyed, { m with key := key })

/-- The loop of `map_remove` over the indexes from number `index` on. -/
def removeKeys (heap : ℕ → MapNode α) (node : ℕ) :
    ℕ → List (MapIndex α) → Except Fault (List (MapIndex α))
  | _, [] => return []
  | index, k :: keys => do
      let root ← tdelete2 (k.like heap index node) k.root
      let keys ← removeKeys heap node (index + 1) keys
      return { k with root := root } :: keys

/-- `map_remove`. -/
def mapRemove (m : Map α) (node : Option ℕ) : Except Fault (Option α × Map α) :=
  match node with
  | none => return (none, m)
  | some node => do
      let m := m.unlink node
      let key ← removeKeys m.heap node 0 m.key
      return (some (m.heap node).item, { m with key := key, size := m.size - 1 })

/-- `map_search`. -/
def mapSearch (m : Map α) (item : α) (index : ℕ) : Option ℕ :=
  match m.key[index]? with
  | some k => tfind (fun a => k.cmp item (m.heap a).item index) k.root
  | none => none

/-! ### The interface -/

/-- `map_push`. -/
def mapPush (alloc : Alloc) (m : Map α) (item : Option α) : Except Fault (ℤ × Map α) :=
  match item with
  | none => return (-1, m)
  | some item =>
      if alloc.calloc then do
        let (node, m) := m.calloc ⟨none, m.root, item⟩
        let (keyed, m) ← mapIndex alloc.malloc m node
        if keyed = .ok then
          return (0, { m.hookFront node with root := some node, size := m.size + 1 })
        else return (-1, m)
      else return (-1, m)

/-- `map_push_back`. -/
def mapPushBack (alloc : Alloc) (m : Map α) (item : Option α) : Except Fault (ℤ × Map α) :=
  match item with
  | none => return (-1, m)
  | some item =>
      if alloc.calloc then do
        let (node, m) := m.calloc ⟨m.tail, none, item⟩
        let (keyed, m) ← mapIndex alloc.malloc m node
        if keyed = .ok then
          return (0, { m.hookBack node with tail := some node, size := m.size + 1 })
        else return (-1, m)
      else return (-1, m)

/-- The item of a new node in `map_push_find`. -/
def mapCopy (cpy : Option (MapCpy α)) (item : α) : Option α :=
  match cpy with
  | some cpy => cpy.fresh item
  | none => some item

/-- The update in `map_push_find` of a stored node. -/
def mapUpdate (m : Map α) (find : ℕ) (item : α) (cpy : Option (MapCpy α)) (flag : ℕ) : Map α :=
  if flag &&& mapFlagUpdate ≠ 0 then
    match cpy with
    | some cpy => m.setItem find (cpy.stored (m.heap find).item item)
    | none => m
  else m

/-- The shift in `map_push_find` of a stored node. -/
def mapShift (m : Map α) (find : ℕ) (flag : ℕ) : Map α :=
  if flag &&& mapFlagShift ≠ 0 then m.shift find else m

/-- `map_push_find`: the item, the flags and the map. -/
def mapPushFind (alloc : Alloc) (m : Map α) (item : Option α) (cpy : Option (MapCpy α))
    (flag : Option ℕ) : Except Fault (Option α × Option ℕ × Map α) :=
  match item with
  | none => return (none, flag, m)
  | some item =>
      if alloc.calloc then do
        let (node, m) := m.calloc ⟨none, m.root, item⟩
        let (keyed, m) ← mapIndex alloc.malloc m node
        match keyed with
        | .ok =>
            match mapCopy cpy item with
            | none => return (none, flag, m)
            | some copy =>
                let m := (m.setItem node copy).hookFront node
                return (some copy, flag.map (· &&& mapFlagInsert),
                  { m with root := some node, size := m.size + 1 })
        | .found find =>
            let m := match flag with
              | some flag => mapShift (mapUpdate m find item cpy flag) find flag
              | none => m
            return (some (m.heap find).item, flag, m)
        | .failure => return (none, flag, m)
      else return (none, flag, m)

/-- `map_pop`. -/
def mapPop (m : Map α) : Except Fault (Option α × Map α) := mapRemove m m.root

/-- `map_pop_back`. -/
def mapPopBack (m : Map α) : Except Fault (Option α × Map α) := mapRemove m m.tail

/-- The loop of `map_pop_back_when`. -/
def popBackLoop (yes : α → Bool) (m : Map α) : ℕ → Option ℕ → Except Fault (Option α × Map α)
  | _, none => return (none, m)
  | 0, some _ => throw .fuel
  | fuel + 1, some node =>
      if yes (m.heap node).item then mapRemove m (some node)
      else popBackLoop yes m fuel (m.heap node).up

/-- `map_pop_back_when`. -/
def mapPopBackWhen (m : Map α) (yes : α → Bool) : Except Fault (Option α × Map α) :=
  popBackLoop yes m m.size.toNat m.tail

/-- `map_get`. -/
def mapGet (m : Map α) (item : α) (index : ℕ) : Except Fault (Option α × Map α) :=
  mapRemove m (mapSearch m item index)

/-- `map_pure`: the item that is freed. -/
def mapPure (m : Map α) (item : α) (index : ℕ) : Except Fault (Option α × Map α) :=
  mapRemove m (mapSearch m item index)

/-- `map_find`. -/
def mapFind (m : Map α) (item : α) (index : ℕ) : Option α :=
  (mapSearch m item index).map fun node => (m.heap node).item

/-- `map_front`. -/
def mapFront (m : Map α) : Option α := m.root.map fun node => (m.heap node).item

/-- `map_delete`. -/
def mapDelete (m : Map α) (node : Option ℕ) : Except Fault (Option α × Map α) := mapRemove m node

/-- `map_begin`, and `map_next` as often as asked. -/
def mapNth (m : Map α) : ℕ → Option ℕ
  | 0 => m.root
  | n + 1 =>
      match mapNth m n with
      | some node => (m.heap node).down
      | none => none

/-- The loops of `map_erase` and `map_until`: what `item` says of the node at `end` goes on. -/
def dropLoop (last : Map α → Option ℕ) (yes : α → Bool) :
    ℕ → Map α → Except Fault (List α × Map α)
  | fuel, m =>
      match last m with
      | none => return ([], m)
      | some node =>
          if yes (m.heap node).item then
            match fuel with
            | 0 => throw .fuel
            | fuel + 1 => do
                let (item, m) ← mapRemove m (some node)
                let (items, m) ← dropLoop last yes fuel m
                return (item.toList ++ items, m)
          else return ([], m)

/-- `map_erase`: the items that are freed. -/
def mapErase (m : Map α) : Except Fault (List α × Map α) :=
  dropLoop Map.root (fun _ => true) m.size.toNat m

/-- `map_until`: the items that are freed. -/
def mapUntil (m : Map α) (yes : α → Bool) : Except Fault (List α × Map α) :=
  dropLoop Map.tail yes m.size.toNat m

/-! ### Runs -/

/-- A call. -/
inductive MapOp (α : Type) where
  | push (alloc : Alloc) (item : Option α)
  | pushBack (alloc : Alloc) (item : Option α)
  | pushFind (alloc : Alloc) (item : Option α) (cpy : Option (MapCpy α)) (flag : Option ℕ)
  | pop
  | popBack
  | popBackWhen (yes : α → Bool)
  | get (item : α) (index : ℕ)
  | pure (item : α) (index : ℕ)
  | delete (nth : ℕ)
  | until (yes : α → Bool)
  | erase

/-- What a call leaves of the map. -/
def mapStep (m : Map α) : MapOp α → Except Fault (Map α)
  | .push alloc item => do return (← mapPush alloc m item).2
  | .pushBack alloc item => do return (← mapPushBack alloc m item).2
  | .pushFind alloc item cpy flag => do return (← mapPushFind alloc m item cpy flag).2.2
  | .pop => do return (← mapPop m).2
  | .popBack => do return (← mapPopBack m).2
  | .popBackWhen yes => do return (← mapPopBackWhen m yes).2
  | .get item index => do return (← mapGet m item index).2
  | .pure item index => do return (← mapPure m item index).2
  | .delete nth => do return (← mapDelete m (mapNth m nth)).2
  | .until yes => do return (← mapUntil m yes).2
  | .erase => do return (← mapErase m).2

def mapRun (m : Map α) : List (MapOp α) → Except Fault (Map α)
  | [] => return m
  | op :: ops => do mapRun (← mapStep m op) ops

end SipEcho
