import SipEcho.Lib.Arena
import SipEcho.Map.Delete
import SipEcho.Common.Libc

/-!
The messages of protobuf-c in memory: a record that begins with the address of its descriptor and
has a member, and for some fields a quantifier, for every field of it.

* `ProtobufCType`, `ProtobufCLabel`, `ProtobufCFieldDescriptor`: the descriptors;
* `Schema`: the descriptors of all message types of a program;
* `PbObject`, `PbHeap`: the records, the arrays of repeated fields and the strings by their
  addresses;
* `PbTree`: what a message says, field by field, the values of each in a list;
* `CellHolds`: **a cell of the memory says a value**, by objects at given addresses only;
* `CellHolds.mono`, `CellHolds.unique`: as long as these are there, and no other value.
-/

namespace SipEcho

open Lib

/-! ### Descriptors -/

/-- The `ProtobufCType`s of the numbers. -/
inductive ScalarType where
  | int32 | sint32 | sfixed32 | int64 | sint64 | sfixed64
  | uint32 | fixed32 | uint64 | fixed64 | float | double | bool
  deriving DecidableEq, Repr

/-- `ProtobufCType`; an enumeration with the value that `message_init` gives it, a message with
its type. -/
inductive ProtobufCType (D : Type) where
  | scalar (type : ScalarType)
  | enum (initial : ℕ)
  | string
  | bytes
  | message (descriptor : D)
  deriving DecidableEq, Repr

/-- `ProtobufCLabel`. -/
inductive ProtobufCLabel where
  | required | optional | repeated | none
  deriving DecidableEq, Repr

/-- A `default` of a number or of a string. -/
inductive PbDefault where
  | number (bits : ℕ)
  | text (s : Str)
  deriving DecidableEq, Repr

/-- `ProtobufCFieldDescriptor`. -/
structure ProtobufCFieldDescriptor (D : Type) where
  name : Str
  label : ProtobufCLabel
  type : ProtobufCType D
  default_ : Option PbDefault := Option.none
  deriving DecidableEq, Repr

/-! ### Memory -/

/-- A `char *`, `void *` or the address of a record: a literal of the program, or on the heap. -/
inductive Pointer where
  | null
  | literal (s : Str)
  | heap (a : ℕ)
  deriving DecidableEq, Repr

/-- The member of a field, or an element of an array: the bits of a number, an address, a
`ProtobufCBinaryData`, or what `malloc` left there. -/
inductive PbCell where
  | word (bits : ℕ)
  | pointer (p : Pointer)
  | data (len : ℕ) (p : Pointer)
  | junk
  deriving DecidableEq, Repr

/-- The member of a field and its `has_…` or `n_…`, if it has one. -/
structure PbSlot where
  member : PbCell
  number : ℕ
  deriving DecidableEq, Repr

/-- An object of the heap.  A record has its descriptor, the low 32 bits of the address of the
descriptor, which stand at offset 0, and its fields. -/
inductive PbObject (D : Type) where
  | text (s : Str)
  | array (cells : List PbCell)
  | message (descriptor : D) (low : ℕ) (slots : List PbSlot)
  deriving DecidableEq, Repr

/-- The objects, by their addresses. -/
abbrev PbHeap (D : Type) := List (PbObject D)

/-- Where a cell is: in which record or array, and of which field or at which index. -/
structure PbPlace where
  object : ℕ
  index : ℕ
  deriving DecidableEq, Repr

variable {D : Type}

/-- The cell of an object at an index. -/
def PbObject.cell : PbObject D → ℕ → Option PbCell
  | .text _, _ => none
  | .array cells, i => cells[i]?
  | .message _ _ slots, i => slots[i]?.map PbSlot.member

/-- The object with another cell there. -/
def PbObject.setCell (o : PbObject D) (i : ℕ) (c : PbCell) : PbObject D :=
  match o with
  | .text s => .text s
  | .array cells => .array (cells.set i c)
  | .message d low slots => .message d low (slots.modify i fun slot => { slot with member := c })

/-- `*place`. -/
def PbHeap.load (heap : PbHeap D) (place : PbPlace) : Except Fault PbCell :=
  match heap[place.object]?.bind fun o => o.cell place.index with
  | some c => return c
  | none => throw .crash

/-- `*place = c`. -/
def PbHeap.store (heap : PbHeap D) (place : PbPlace) (c : PbCell) : Except Fault (PbHeap D) :=
  match heap[place.object]? with
  | some o =>
      if (o.cell place.index).isSome then return heap.set place.object (o.setCell place.index c)
      else throw .crash
  | none => throw .crash

/-- The field has a quantifier of its own: `n_…`, or the `has_…` of an optional number,
enumeration or byte string.  Else its `quantifier_offset` is 0, where the record has the address
of its descriptor. -/
def ProtobufCFieldDescriptor.HasSlot (f : ProtobufCFieldDescriptor D) : Prop :=
  match f.label, f.type with
  | .repeated, _ => True
  | .optional, .scalar _ => True
  | .optional, .enum _ => True
  | .optional, .bytes => True
  | _, _ => False

instance (f : ProtobufCFieldDescriptor D) : Decidable f.HasSlot := by
  unfold ProtobufCFieldDescriptor.HasSlot
  split <;> infer_instance

/-- `*protobuf_c_message_number(message, field)`, for the field of this index. -/
def PbHeap.number (heap : PbHeap D) (f : ProtobufCFieldDescriptor D) (message i : ℕ) :
    Except Fault ℕ :=
  match heap[message]? with
  | some (.message _ low slots) =>
      if f.HasSlot then
        match slots[i]? with
        | some slot => return slot.number
        | none => throw .crash
      else return low
  | _ => throw .crash

/-- `*protobuf_c_message_number(message, field) = number`. -/
def PbHeap.setNumber (heap : PbHeap D) (f : ProtobufCFieldDescriptor D) (message i number : ℕ) :
    Except Fault (PbHeap D) :=
  match heap[message]? with
  | some (.message d low slots) =>
      if f.HasSlot then
        if i < slots.length then
          let slots := slots.modify i fun slot => { slot with number := number }
          return heap.set message (.message d low slots)
        else throw .crash
      else return heap.set message (.message d number slots)
  | _ => throw .crash

section Access

variable {heap : PbHeap D} {o : PbObject D} {a i low : ℕ} {c c₀ : PbCell} {d : D}
  {slots : List PbSlot} {slot : PbSlot} {f : ProtobufCFieldDescriptor D}

lemma PbHeap.load_eq (ho : heap[a]? = some o) (hc : o.cell i = some c) :
    heap.load ⟨a, i⟩ = .ok c := by
  simp only [load, ho, Option.bind_some, hc]
  rfl

lemma PbHeap.store_eq (ho : heap[a]? = some o) (hc : o.cell i = some c₀) :
    heap.store ⟨a, i⟩ c = .ok (heap.set a (o.setCell i c)) := by
  simp only [store, ho, hc, Option.isSome_some, if_true]
  rfl

lemma PbObject.cell_message (hs : slots[i]? = some slot) :
    (PbObject.message d low slots).cell i = some slot.member := by
  simp [cell, hs]

lemma modify_eq_set {g : PbSlot → PbSlot} (hs : slots[i]? = some slot) :
    slots.modify i g = slots.set i (g slot) := by
  refine List.ext_getElem? fun j => ?_
  by_cases hj : i = j
  · subst hj
    rw [List.getElem?_modify_eq, hs, List.getElem?_set_self (lt_length_of_get hs)]
    rfl
  · simp [hj]

lemma PbObject.setCell_message (hs : slots[i]? = some slot) :
    (PbObject.message d low slots).setCell i c = .message d low (slots.set i ⟨c, slot.number⟩) := by
  rw [setCell, modify_eq_set hs]

/-- A cell written over with itself. -/
lemma PbObject.setCell_self (hc : o.cell i = some c) : o.setCell i c = o := by
  cases o with
  | text s => rfl
  | array cells =>
      obtain ⟨h, rfl⟩ := List.getElem?_eq_some_iff.mp hc
      rw [setCell, List.set_getElem_self]
  | message d low slots =>
      obtain ⟨slot, hs, rfl⟩ := Option.map_eq_some_iff.mp hc
      rw [setCell_message hs]
      obtain ⟨h, rfl⟩ := List.getElem?_eq_some_iff.mp hs
      rw [List.set_getElem_self]

lemma PbHeap.number_slot (ho : heap[a]? = some (.message d low slots)) (hf : f.HasSlot)
    (hs : slots[i]? = some slot) : heap.number f a i = .ok slot.number := by
  simp only [number, ho, if_pos hf, hs]
  rfl

lemma PbHeap.number_low (ho : heap[a]? = some (.message d low slots)) (hf : ¬ f.HasSlot) :
    heap.number f a i = .ok low := by
  simp only [number, ho, if_neg hf]
  rfl

lemma PbHeap.setNumber_slot {n : ℕ} (ho : heap[a]? = some (.message d low slots))
    (hf : f.HasSlot) (hs : slots[i]? = some slot) :
    heap.setNumber f a i n =
      .ok (heap.set a (.message d low (slots.set i ⟨slot.member, n⟩))) := by
  simp only [setNumber, ho, if_pos hf, lt_length_of_get hs, if_true, modify_eq_set hs]
  rfl

lemma PbHeap.setNumber_low {n : ℕ} (ho : heap[a]? = some (.message d low slots))
    (hf : ¬ f.HasSlot) :
    heap.setNumber f a i n = .ok (heap.set a (.message d n slots)) := by
  simp only [setNumber, ho, if_neg hf]
  rfl

end Access

/-! ### `message_init` -/

/-- The member of a field as `message_init` leaves it. -/
def ProtobufCFieldDescriptor.initial (f : ProtobufCFieldDescriptor D) : PbCell :=
  if f.label = .repeated then .pointer .null
  else
    match f.type, f.default_ with
    | .scalar _, some (.number bits) => .word bits
    | .scalar _, _ => .word 0
    | .enum initial, _ => .word initial
    | .string, some (.text s) => .pointer (.literal s)
    | .string, _ => .pointer .null
    | .bytes, _ => .data 0 .null
    | .message _, _ => .pointer .null

/-- A field of `proto2` that is no repeated enumeration, no repeated byte string and no optional
string with a default. -/
def ProtobufCFieldDescriptor.Plain (f : ProtobufCFieldDescriptor D) : Prop :=
  match f.label with
  | .required => True
  | .optional => f.default_ = none
  | .repeated => f.type ≠ .bytes ∧ ∀ v, f.type ≠ .enum v
  | .none => False

/-- The descriptors of a program. -/
structure Schema (D : Type) where
  fields : D → List (ProtobufCFieldDescriptor D)
  plain : ∀ d, ∀ f ∈ fields d, f.Plain

/-- A record as `message_init` leaves it; `low` are the low bits of the addresses of the
descriptors. -/
def Schema.init (schema : Schema D) (low : D → ℕ) (d : D) : PbObject D :=
  .message d (low d) ((schema.fields d).map fun f => ⟨f.initial, 0⟩)

/-! ### What the memory says -/

/-- What a cell says: the bits of a number or enumeration, a string, bytes, or for each field of a
message the list of its values, empty for an absent one. -/
inductive PbTree where
  | word (bits : ℕ)
  | text (s : Str)
  | blob (s : Str)
  | message (fields : List (List PbTree))

mutual

/-- How deep messages are nested. -/
def PbTree.depth : PbTree → ℕ
  | .message fields => fieldsDepth fields + 1
  | _ => 0

/-- How deep they are in the fields of a message. -/
def fieldsDepth : List (List PbTree) → ℕ
  | [] => 0
  | ts :: fields => max (cellsDepth ts) (fieldsDepth fields)

/-- How deep they are in the values of a field. -/
def cellsDepth : List PbTree → ℕ
  | [] => 0
  | t :: ts => max t.depth (cellsDepth ts)

end

section Holds

variable (schema : Schema D) (low : D → ℕ) (heap : PbHeap D) (S : Set ℕ)

/-- The bytes behind an address, when they lie at `S` or in a literal. -/
def PointsTo : Pointer → Str → Prop
  | .null, _ => False
  | .literal l, s => l = s
  | .heap a, s => a ∈ S ∧ heap[a]? = some (.text s)

/-- The field is present: its `has_…` says so, or it is an address that is not `NULL`. -/
def PbSlot.Present (f : ProtobufCFieldDescriptor D) (slot : PbSlot) : Prop :=
  if f.HasSlot then slot.number ≠ 0 else slot.member ≠ .pointer .null

instance (f : ProtobufCFieldDescriptor D) (slot : PbSlot) : Decidable (slot.Present f) := by
  unfold PbSlot.Present
  infer_instance

/-- The cells in which the values of a field are. -/
def FieldCells (f : ProtobufCFieldDescriptor D) (slot : PbSlot) (cells : List PbCell) : Prop :=
  match f.label with
  | .required => cells = [slot.member]
  | .optional | .none => cells = if slot.Present f then [slot.member] else []
  | .repeated => cells.length = slot.number ∧
      (cells ≠ [] → ∃ a ∈ S, slot.member = .pointer (.heap a) ∧ heap[a]? = some (.array cells))

mutual

/-- **A cell of this type says the value**, by objects at `S` only. -/
inductive CellHolds : ProtobufCType D → PbCell → PbTree → Prop
  | scalar {type : ScalarType} {bits : ℕ} : CellHolds (.scalar type) (.word bits) (.word bits)
  | enum {initial bits : ℕ} : CellHolds (.enum initial) (.word bits) (.word bits)
  | string {p : Pointer} {s : Str} (h : PointsTo heap S p s) :
      CellHolds .string (.pointer p) (.text s)
  | bytes {p : Pointer} {s : Str} (h : s ≠ [] → PointsTo heap S p s) :
      CellHolds .bytes (.data s.length p) (.blob s)
  | message {d : D} {a : ℕ} {slots : List PbSlot} {fields : List (List PbTree)} (ha : a ∈ S)
      (h : heap[a]? = some (.message d (low d) slots))
      (hfields : FieldsHold (schema.fields d) slots fields) :
      CellHolds (.message d) (.pointer (.heap a)) (.message fields)

/-- The slots of these fields say the values of each. -/
inductive FieldsHold :
    List (ProtobufCFieldDescriptor D) → List PbSlot → List (List PbTree) → Prop
  | nil : FieldsHold [] [] []
  | cons {f : ProtobufCFieldDescriptor D} {fs : List (ProtobufCFieldDescriptor D)}
      {slot : PbSlot} {slots : List PbSlot} {cells : List PbCell} {ts : List PbTree}
      {fields : List (List PbTree)} (hcells : FieldCells heap S f slot cells)
      (h : CellsHold f.type cells ts) (hfields : FieldsHold fs slots fields) :
      FieldsHold (f :: fs) (slot :: slots) (ts :: fields)

/-- The cells say the values, one each. -/
inductive CellsHold : ProtobufCType D → List PbCell → List PbTree → Prop
  | nil {type : ProtobufCType D} : CellsHold type [] []
  | cons {type : ProtobufCType D} {c : PbCell} {cells : List PbCell} {t : PbTree}
      {ts : List PbTree} (h : CellHolds type c t) (hcells : CellsHold type cells ts) :
      CellsHold type (c :: cells) (t :: ts)

end

end Holds

section Holding

variable {schema : Schema D} {low : D → ℕ} {heap heap' : PbHeap D} {S S' : Set ℕ}

/-- What is at `S` in the one heap is at `S'` in the other. -/
def Carries (heap heap' : PbHeap D) (S S' : Set ℕ) : Prop :=
  ∀ a ∈ S, ∀ o, heap[a]? = some o → a ∈ S' ∧ heap'[a]? = some o

/-- A frame carries what it does not touch. -/
lemma Carries.of_keeps {W : Set ℕ} (h : Keeps W heap heap') (hW : ∀ a ∈ S, a ∉ W)
    (hS : ∀ a ∈ S, a < heap.length → a ∈ S') : Carries heap heap' S S' :=
  fun a ha _ ho => ⟨hS a ha (lt_length_of_get ho), h.get (hW a ha) ho⟩

lemma PointsTo.mono (hcarry : Carries heap heap' S S') {p : Pointer} {s : Str}
    (h : PointsTo heap S p s) : PointsTo heap' S' p s := by
  cases p with
  | null => exact h
  | literal l => exact h
  | heap a => exact hcarry a h.1 _ h.2

lemma PointsTo.unique {p : Pointer} {s s' : Str} (h : PointsTo heap S p s)
    (h' : PointsTo heap S' p s') : s = s' := by
  cases p with
  | null => exact h.elim
  | literal l => exact (show l = s from h).symm.trans h'
  | heap a => simpa using h.2.symm.trans h'.2

lemma FieldCells.mono (hcarry : Carries heap heap' S S') {f : ProtobufCFieldDescriptor D}
    {slot : PbSlot} {cells : List PbCell} (h : FieldCells heap S f slot cells) :
    FieldCells heap' S' f slot cells := by
  cases hl : f.label <;> simp only [FieldCells, hl] at h ⊢
  case repeated =>
    refine ⟨h.1, fun hne => ?_⟩
    obtain ⟨a, ha, hslot, harray⟩ := h.2 hne
    obtain ⟨ha', harray'⟩ := hcarry a ha _ harray
    exact ⟨a, ha', hslot, harray'⟩
  all_goals exact h

mutual

/-- **What a cell says it says in any memory that has these objects.** -/
lemma CellHolds.mono (hcarry : Carries heap heap' S S') {type : ProtobufCType D} {c : PbCell}
    {t : PbTree} (h : CellHolds schema low heap S type c t) :
    CellHolds schema low heap' S' type c t := by
  cases h with
  | scalar => exact .scalar
  | enum => exact .enum
  | string h => exact .string (h.mono hcarry)
  | bytes h => exact .bytes fun hs => (h hs).mono hcarry
  | message ha h hfields =>
      obtain ⟨ha', h'⟩ := hcarry _ ha _ h
      exact .message ha' h' (hfields.mono hcarry)

lemma FieldsHold.mono (hcarry : Carries heap heap' S S')
    {fs : List (ProtobufCFieldDescriptor D)} {slots : List PbSlot} {fields : List (List PbTree)}
    (h : FieldsHold schema low heap S fs slots fields) :
    FieldsHold schema low heap' S' fs slots fields := by
  cases h with
  | nil => exact .nil
  | cons hcells h hfields => exact .cons (hcells.mono hcarry) (h.mono hcarry) (hfields.mono hcarry)

lemma CellsHold.mono (hcarry : Carries heap heap' S S') {type : ProtobufCType D}
    {cells : List PbCell} {ts : List PbTree} (h : CellsHold schema low heap S type cells ts) :
    CellsHold schema low heap' S' type cells ts := by
  cases h with
  | nil => exact .nil
  | cons h hcells => exact .cons (h.mono hcarry) (hcells.mono hcarry)

end

lemma FieldCells.unique {f : ProtobufCFieldDescriptor D} {slot : PbSlot}
    {cells cells' : List PbCell} (h : FieldCells heap S f slot cells)
    (h' : FieldCells heap S' f slot cells') : cells = cells' := by
  cases hl : f.label <;> simp only [FieldCells, hl] at h h'
  case repeated =>
    by_cases hn : slot.number = 0
    · rw [List.length_eq_zero_iff.mp (h.1.trans hn), List.length_eq_zero_iff.mp (h'.1.trans hn)]
    · obtain ⟨a, -, hslot, harray⟩ := h.2 fun hnil => hn (by rw [← h.1, hnil]; rfl)
      obtain ⟨a', -, hslot', harray'⟩ := h'.2 fun hnil => hn (by rw [← h'.1, hnil]; rfl)
      have ha : a = a' := by simpa using hslot.symm.trans hslot'
      subst ha
      simpa using harray.symm.trans harray'
  all_goals exact h.trans h'.symm

mutual

/-- **A cell says one value.** -/
lemma CellHolds.unique {type : ProtobufCType D} {c : PbCell} {t t' : PbTree}
    (h : CellHolds schema low heap S type c t) (h' : CellHolds schema low heap S' type c t') :
    t = t' := by
  cases h with
  | scalar => cases h'; rfl
  | enum => cases h'; rfl
  | string h =>
      cases h' with
      | string h' => rw [h.unique h']
  | @bytes p s h =>
      generalize hdata : PbCell.data _ _ = c at h'
      cases h' with
      | @bytes p' s' h' =>
          obtain ⟨hlen, rfl⟩ := PbCell.data.inj hdata
          by_cases hs : s = []
          · subst hs
            rw [List.length_eq_zero_iff.mp hlen.symm]
          · have hs' : s' ≠ [] := fun h0 => hs (List.length_eq_zero_iff.mp (by rw [hlen, h0]; rfl))
            rw [(h hs).unique (h' hs')]
  | message ha h hfields =>
      cases h' with
      | message ha' h' hfields' =>
          obtain ⟨-, -, rfl⟩ := PbObject.message.inj (Option.some.inj (h.symm.trans h'))
          rw [hfields.unique hfields']

lemma FieldsHold.unique {fs : List (ProtobufCFieldDescriptor D)} {slots : List PbSlot}
    {fields fields' : List (List PbTree)} (h : FieldsHold schema low heap S fs slots fields)
    (h' : FieldsHold schema low heap S' fs slots fields') : fields = fields' := by
  cases h with
  | nil => cases h'; rfl
  | cons hcells h hfields =>
      cases h' with
      | cons hcells' h' hfields' =>
          obtain rfl := hcells.unique hcells'
          rw [h.unique h', hfields.unique hfields']

lemma CellsHold.unique {type : ProtobufCType D} {cells : List PbCell} {ts ts' : List PbTree}
    (h : CellsHold schema low heap S type cells ts)
    (h' : CellsHold schema low heap S' type cells ts') : ts = ts' := by
  cases h with
  | nil => cases h'; rfl
  | cons h hcells =>
      cases h' with
      | cons h' hcells' => rw [h.unique h', hcells.unique hcells']

end

/-- A present string or message is no null pointer. -/
lemma CellHolds.ne_null {type : ProtobufCType D} {c : PbCell} {t : PbTree}
    (h : CellHolds schema low heap S type c t) : c ≠ .pointer .null := by
  rintro rfl
  cases h with
  | string h => exact h

lemma CellsHold.length_eq {type : ProtobufCType D} {cells : List PbCell} {ts : List PbTree}
    (h : CellsHold schema low heap S type cells ts) : cells.length = ts.length := by
  induction ts generalizing cells with
  | nil => cases h; rfl
  | cons t ts ih =>
      obtain ⟨⟩ | ⟨-, hcells⟩ := h
      simp [ih hcells]

lemma FieldsHold.length_eq {fs : List (ProtobufCFieldDescriptor D)} {slots : List PbSlot}
    {fields : List (List PbTree)} (h : FieldsHold schema low heap S fs slots fields) :
    slots.length = fs.length := by
  induction fs generalizing slots fields with
  | nil => cases h; rfl
  | cons f fs ih =>
      obtain ⟨⟩ | ⟨-, -, hfields⟩ := h
      simp [ih hfields]

/-- A cell that says a single value. -/
lemma CellsHold.single {type : ProtobufCType D} {c : PbCell} {t : PbTree}
    (h : CellHolds schema low heap S type c t) : CellsHold schema low heap S type [c] [t] :=
  .cons h .nil

end Holding

end SipEcho
