import SipEcho.Proto.Message

/-!
`protobuf_c_message_clone`: a deep copy of a message, driven by its descriptor.

* `fieldClone`, `labelClone`, `messageClone`: the code, over the heap;
* `cloned`: what the copy says, as a function of what the original says: an enumeration has its
  initial value and bytes are empty, since `field_clone` does not copy these two, and where the
  quantifier of an optional field is the address of the descriptor, low bits that are zero count
  as absent;
* `messageClone_spec`: **the copy says that**, and all other objects are as before;
* `Clonable`: nothing of a message is lost, and `cloned_eq_iff`, that `cloned` says the same
  exactly of such.
-/

namespace SipEcho

open Lib

variable {D : Type}

/-! ### The code -/

/-- The bytes at an address. -/
def PbHeap.text (heap : PbHeap D) : Pointer → Except Fault Str
  | .null => throw .crash
  | .literal s => return s
  | .heap a =>
      match heap[a]? with
      | some (.text s) => return s
      | _ => throw .crash

/-- `int32_field_clone` and its kin for the other numbers. -/
def scalarFieldClone (heap : PbHeap D) (member original : PbPlace) : Except Fault (PbHeap D) := do
  let c ← heap.load original
  heap.store member c

/-- `string_field_clone`. -/
def stringFieldClone (heap : PbHeap D) (member original : PbPlace) :
    Except Fault (PbHeap D) := do
  match ← heap.load original with
  | .pointer .null => return heap
  | .pointer p => do
      let s ← heap.text p
      PbHeap.store (heap ++ [.text s]) member (.pointer (.heap heap.length))
  | _ => throw .crash

section Code

variable [DecidableEq D] (schema : Schema D) (low : D → ℕ)
  (recurse : PbHeap D → ℕ → ℕ → Except Fault (PbHeap D))

/-- `message_field_clone`; `recurse` is `message_clone`. -/
def messageFieldClone (d : D) (heap : PbHeap D) (member original : PbPlace) :
    Except Fault (PbHeap D) := do
  match ← heap.load original with
  | .pointer .null => return heap
  | .pointer (.heap a) =>
      match heap[a]? with
      | some (.message d' _ _) =>
          if d' = d then do
            let copy := heap.length
            let heap ← PbHeap.store (heap ++ [schema.init low d]) member (.pointer (.heap copy))
            recurse heap copy a
          else throw .abort
      | _ => throw .crash
  | _ => throw .crash

/-- `field_clone`. -/
def fieldClone (f : ProtobufCFieldDescriptor D) (heap : PbHeap D) (member original : PbPlace) :
    Except Fault (PbHeap D) :=
  match f.type with
  | .scalar _ => scalarFieldClone heap member original
  | .string => stringFieldClone heap member original
  | .bytes => return heap -- `// TODO: bytes_field_clone(member, origin);`
  | .message d => messageFieldClone schema low recurse d heap member original
  | .enum _ => return heap -- `// TODO: enum_field_clone(member, field->descriptor, origin);`

/-- `required_field_clone`, for the field of this index. -/
def requiredFieldClone (f : ProtobufCFieldDescriptor D) (i : ℕ) (heap : PbHeap D)
    (message original : ℕ) : Except Fault (PbHeap D) :=
  fieldClone schema low recurse f heap ⟨message, i⟩ ⟨original, i⟩

/-- `optional_field_clone`. -/
def optionalFieldClone (f : ProtobufCFieldDescriptor D) (i : ℕ) (heap : PbHeap D)
    (message original : ℕ) : Except Fault (PbHeap D) := do
  let one ← heap.number f original i
  if one ≠ 0 then do
    let heap ← requiredFieldClone schema low recurse f i heap message original
    heap.setNumber f message i one
  else return heap

/-- The loop of `repeated_field_clone` over the elements; the first number says for how many
turns. -/
def elementsClone (f : ProtobufCFieldDescriptor D) (i number message array original : ℕ) :
    ℕ → PbHeap D → Except Fault (PbHeap D)
  | 0, _ => throw .fuel
  | turns + 1, heap => do
      let count ← heap.number f message i
      if count < number then do
        let heap ← fieldClone schema low recurse f heap ⟨array, count⟩ ⟨original, count⟩
        let heap ← heap.setNumber f message i (count + 1)
        elementsClone f i number message array original turns heap
      else return heap

/-- `repeated_field_clone`. -/
def repeatedFieldClone (f : ProtobufCFieldDescriptor D) (i : ℕ) (heap : PbHeap D)
    (message original : ℕ) : Except Fault (PbHeap D) := do
  let number ← heap.number f original i
  if number = 0 then return heap
  else
    match ← heap.load ⟨original, i⟩ with
    | .pointer .null => return heap
    | .pointer (.heap a) => do
        let array := heap.length
        let heap ← PbHeap.store (heap ++ [.array (List.replicate number .junk)]) ⟨message, i⟩
          (.pointer (.heap array))
        elementsClone schema low recurse f i number message array a (number + 1) heap
    | _ => throw .crash

/-- The body of the loop of `message_clone`. -/
def labelClone (f : ProtobufCFieldDescriptor D) (i : ℕ) (heap : PbHeap D)
    (message original : ℕ) : Except Fault (PbHeap D) :=
  match f.label with
  | .required => requiredFieldClone schema low recurse f i heap message original
  | .none | .optional => optionalFieldClone schema low recurse f i heap message original
  | .repeated => repeatedFieldClone schema low recurse f i heap message original

/-- The loop of `message_clone` over the fields, from an index on. -/
def fieldsClone (message original : ℕ) :
    List (ProtobufCFieldDescriptor D) → ℕ → PbHeap D → Except Fault (PbHeap D)
  | [], _, heap => return heap
  | f :: fs, i, heap => do
      let heap ← labelClone schema low recurse f i heap message original
      fieldsClone message original fs (i + 1) heap

/-- `message_clone`, with fuel for the depth of the message. -/
def messageClone : ℕ → PbHeap D → ℕ → ℕ → Except Fault (PbHeap D)
  | 0, _, _, _ => throw .fuel
  | fuel + 1, heap, message, original =>
      match heap[message]? with
      | some (.message d _ _) =>
          fieldsClone schema low (messageClone fuel) message original (schema.fields d) 0 heap
      | _ => throw .crash

/-- `protobuf_c_message_clone`. -/
def protobufCMessageClone (fuel : ℕ) (heap : PbHeap D) (to_ from_ : ℕ) :
    Except Fault (PbHeap D) :=
  match heap[from_]? with
  | some (.message d _ _) =>
      messageClone schema low fuel (heap.set to_ (schema.init low d)) to_ from_
  | _ => throw .crash

end Code

/-! ### What the copy says -/

/-- The quantifier of an optional field is the address of the descriptor. -/
def ProtobufCFieldDescriptor.OnDescriptor (f : ProtobufCFieldDescriptor D) : Prop :=
  f.label = .optional ∧ ¬ f.HasSlot

instance (f : ProtobufCFieldDescriptor D) : Decidable f.OnDescriptor := by
  unfold ProtobufCFieldDescriptor.OnDescriptor
  infer_instance

section Cloned

variable (schema : Schema D) (low : D → ℕ)

mutual

/-- **What the copy of a cell says.** -/
def cloned : ProtobufCType D → PbTree → PbTree
  | .enum initial, .word _ => .word initial
  | .bytes, .blob _ => .blob []
  | .message d, .message fields => .message (clonedFields d (schema.fields d) fields)
  | _, t => t

/-- What the copies of the fields say. -/
def clonedFields (d : D) :
    List (ProtobufCFieldDescriptor D) → List (List PbTree) → List (List PbTree)
  | f :: fs, ts :: fields =>
      (if f.OnDescriptor ∧ low d = 0 then [] else clonedCells f.type ts) ::
        clonedFields d fs fields
  | _, fields => fields

/-- What the copies of the values of a field say. -/
def clonedCells (type : ProtobufCType D) : List PbTree → List PbTree
  | [] => []
  | t :: ts => cloned type t :: clonedCells type ts

end

mutual

/-- **Nothing of a value is lost**: an enumeration has the value that `message_init` gives it,
bytes are empty, and where an optional string or message is present the low bits of the address
of the descriptor are not zero. -/
def CellClonable : ProtobufCType D → PbTree → Prop
  | .enum initial, .word bits => bits = initial
  | .bytes, .blob s => s = []
  | .message d, .message fields => FieldsClonable d (schema.fields d) fields
  | _, _ => True

/-- Nothing is lost of the fields of a message. -/
def FieldsClonable (d : D) :
    List (ProtobufCFieldDescriptor D) → List (List PbTree) → Prop
  | f :: fs, ts :: fields =>
      (f.OnDescriptor → ts ≠ [] → low d ≠ 0) ∧ CellsClonable f.type ts ∧
        FieldsClonable d fs fields
  | _, _ => True

/-- Nothing is lost of the values of a field. -/
def CellsClonable (type : ProtobufCType D) : List PbTree → Prop
  | [] => True
  | t :: ts => CellClonable type t ∧ CellsClonable type ts

end

/-- The type is none of the two that are not copied, and not a message outside `R`. -/
def ProtobufCType.Within (R : D → Prop) : ProtobufCType D → Prop
  | .enum _ => False
  | .bytes => False
  | .message d => R d
  | _ => True

section Within

variable {schema low} {R : D → Prop}

mutual

/-- **From a type that leads to none of the two nothing is lost.** -/
lemma cellClonable_of_within
    (hR : ∀ d, R d → low d ≠ 0 ∧ ∀ f ∈ schema.fields d, f.type.Within R)
    (type : ProtobufCType D) (htype : type.Within R) (t : PbTree) :
    CellClonable schema low type t := by
  cases t with
  | word bits => cases type <;> first | exact htype.elim | simp only [CellClonable]
  | text s => cases type <;> simp only [CellClonable]
  | blob s => cases type <;> first | exact htype.elim | simp only [CellClonable]
  | message fields =>
      cases type <;> simp only [CellClonable]
      case message d =>
        exact fieldsClonable_of_within hR d (hR d htype).1 (schema.fields d) (hR d htype).2 fields

lemma fieldsClonable_of_within
    (hR : ∀ d, R d → low d ≠ 0 ∧ ∀ f ∈ schema.fields d, f.type.Within R)
    (d : D) (hd : low d ≠ 0)
    (fs : List (ProtobufCFieldDescriptor D)) (hfs : ∀ f ∈ fs, f.type.Within R)
    (fields : List (List PbTree)) : FieldsClonable schema low d fs fields := by
  cases fields with
  | nil => cases fs <;> simp only [FieldsClonable]
  | cons ts fields =>
      cases fs with
      | nil => simp only [FieldsClonable]
      | cons f fs =>
          rw [FieldsClonable]
          exact ⟨fun _ _ => hd, cellsClonable_of_within hR f.type (hfs f List.mem_cons_self) ts,
            fieldsClonable_of_within hR d hd fs (fun g hg => hfs g (List.mem_cons_of_mem f hg))
              fields⟩

lemma cellsClonable_of_within
    (hR : ∀ d, R d → low d ≠ 0 ∧ ∀ f ∈ schema.fields d, f.type.Within R)
    (type : ProtobufCType D) (htype : type.Within R) (ts : List PbTree) :
    CellsClonable schema low type ts := by
  cases ts with
  | nil => simp only [CellsClonable]
  | cons t ts =>
      rw [CellsClonable]
      exact ⟨cellClonable_of_within hR type htype t, cellsClonable_of_within hR type htype ts⟩

end

end Within

mutual

/-- **The copy of a value says the same exactly when nothing of it is lost.** -/
lemma cloned_eq_iff (type : ProtobufCType D) (t : PbTree) :
    cloned schema low type t = t ↔ CellClonable schema low type t := by
  cases t with
  | word bits =>
      cases type <;> simp only [cloned, CellClonable]
      case enum initial => rw [PbTree.word.injEq, eq_comm]
  | text s => cases type <;> simp only [cloned, CellClonable]
  | blob s =>
      cases type <;> simp only [cloned, CellClonable]
      case bytes => rw [PbTree.blob.injEq, eq_comm]
  | message fields =>
      cases type <;> simp only [cloned, CellClonable]
      case message d => rw [PbTree.message.injEq, clonedFields_eq_iff d (schema.fields d) fields]

lemma clonedFields_eq_iff (d : D) (fs : List (ProtobufCFieldDescriptor D))
    (fields : List (List PbTree)) :
    clonedFields schema low d fs fields = fields ↔ FieldsClonable schema low d fs fields := by
  cases fields with
  | nil => cases fs <;> simp only [clonedFields, FieldsClonable]
  | cons ts fields =>
      cases fs with
      | nil => simp only [clonedFields, FieldsClonable]
      | cons f fs =>
          rw [clonedFields, FieldsClonable, List.cons.injEq,
            clonedFields_eq_iff d fs fields, ← and_assoc, ← clonedCells_eq_iff f.type ts]
          refine and_congr_left fun _ => ?_
          split_ifs with hlost
          · constructor
            · rintro rfl
              exact ⟨fun _ hne => absurd rfl hne, by rw [clonedCells]⟩
            · rintro ⟨hpresent, -⟩
              by_contra hne
              exact hpresent hlost.1 (Ne.symm hne) hlost.2
          · refine ⟨fun h => ⟨fun hf _ hlow => hlost ⟨hf, hlow⟩, h⟩, And.right⟩

lemma clonedCells_eq_iff (type : ProtobufCType D) (ts : List PbTree) :
    clonedCells schema low type ts = ts ↔ CellsClonable schema low type ts := by
  cases ts with
  | nil => simp only [clonedCells, CellsClonable]
  | cons t ts =>
      rw [clonedCells, CellsClonable, List.cons.injEq, cloned_eq_iff type t,
        clonedCells_eq_iff type ts]

end

lemma clonedCells_length (type : ProtobufCType D) (ts : List PbTree) :
    (clonedCells schema low type ts).length = ts.length := by
  induction ts with
  | nil => rw [clonedCells]
  | cons t ts ih => rw [clonedCells, List.length_cons, List.length_cons, ih]

end Cloned

/-! ### The copy -/

section Spec

variable {schema : Schema D} {low : D → ℕ} {heap : PbHeap D} {S : Set ℕ}
  {recurse : PbHeap D → ℕ → ℕ → Except Fault (PbHeap D)} {f : ProtobufCFieldDescriptor D}
  {depth i M B : ℕ} {d : D}

/-- A cell as `message_init` leaves it, of the two types that are not copied. -/
def ProtobufCType.Initial (type : ProtobufCType D) (c : PbCell) : Prop :=
  match type with
  | .enum initial => c = .word initial
  | .bytes => c = .data 0 .null
  | _ => True

/-- What `message_clone` does to a record that `message_init` has set up, for messages of less
than this depth. -/
def ClonesMessages (schema : Schema D) (low : D → ℕ)
    (recurse : PbHeap D → ℕ → ℕ → Except Fault (PbHeap D)) (depth : ℕ) : Prop :=
  ∀ (heap : PbHeap D) (S : Set ℕ) (d : D) (M B : ℕ) (slots : List PbSlot)
    (fields : List (List PbTree)), M ∉ S → B ∈ S → heap[M]? = some (schema.init low d) →
    heap[B]? = some (.message d (low d) slots) →
    FieldsHold schema low heap S (schema.fields d) slots fields → fieldsDepth fields < depth →
    ∃ heap' slots', recurse heap M B = .ok heap' ∧ Keeps {M} heap heap' ∧
      heap'[M]? = some (.message d (low d) slots') ∧
      FieldsHold schema low heap' (Set.Ici heap.length) (schema.fields d) slots'
        (clonedFields schema low d (schema.fields d) fields)

lemma PbHeap.text_eq {p : Pointer} {s : Str} (h : PointsTo heap S p s) : heap.text p = .ok s := by
  cases p with
  | null => exact h.elim
  | literal l => rw [text, show l = s from h]; rfl
  | heap a => simp only [text, h.2]; rfl

section Calls

variable {member src : PbPlace}

lemma stringFieldClone_null (hload : heap.load src = .ok (.pointer .null)) :
    stringFieldClone heap member src = .ok heap := by
  rw [stringFieldClone, hload]
  rfl

lemma stringFieldClone_eq {p : Pointer} {s : Str} (hload : heap.load src = .ok (.pointer p))
    (h : PointsTo heap S p s) : stringFieldClone heap member src =
      PbHeap.store (heap ++ [.text s]) member (.pointer (.heap heap.length)) := by
  rw [stringFieldClone, hload]
  cases p with
  | null => exact h.elim
  | literal l => rw [show l = s from h]; rfl
  | heap a =>
      change (heap.text (.heap a) >>= fun s => _) = _
      rw [PbHeap.text_eq h]
      rfl

variable [DecidableEq D]

lemma messageFieldClone_null (hload : heap.load src = .ok (.pointer .null)) :
    messageFieldClone schema low recurse d heap member src = .ok heap := by
  rw [messageFieldClone, hload]
  rfl

lemma messageFieldClone_eq {a l : ℕ} {slots : List PbSlot} {heap' : PbHeap D}
    (hload : heap.load src = .ok (.pointer (.heap a)))
    (ha : heap[a]? = some (.message d l slots))
    (hstore : PbHeap.store (heap ++ [schema.init low d]) member (.pointer (.heap heap.length)) =
      .ok heap') :
    messageFieldClone schema low recurse d heap member src = recurse heap' heap.length a := by
  rw [messageFieldClone, hload]
  change (match heap[a]? with | some (.message d' _ _) => _ | _ => _) = _
  simp only [ha, if_true, hstore]
  rfl

/-- What is not there is not copied. -/
lemma fieldClone_null (hlabel : f.OnDescriptor) (hload : heap.load src = .ok (.pointer .null)) :
    fieldClone schema low recurse f heap member src = .ok heap := by
  obtain ⟨hlabel, hslot⟩ := hlabel
  rw [fieldClone]
  cases htype : f.type <;> simp only [ProtobufCFieldDescriptor.HasSlot, hlabel, htype] at hslot
  case scalar => exact absurd trivial hslot
  case enum => rfl
  case bytes => rfl
  case string => exact stringFieldClone_null hload
  case message => exact messageFieldClone_null hload

end Calls

/-- A field of the record at `B` says these values, and the record at `M` has it as
`message_init` left it. -/
structure FieldStart (schema : Schema D) (low : D → ℕ) (heap : PbHeap D) (S : Set ℕ)
    (f : ProtobufCFieldDescriptor D) (d : D) (i M B : ℕ) (slots : List PbSlot) (slot : PbSlot)
    (cells : List PbCell) (ts : List PbTree) : Prop where
  outside : M ∉ S
  inside : B ∈ S
  message : heap[M]? = some (.message d (low d) slots)
  initial : slots[i]? = some ⟨f.initial, 0⟩
  original : ∃ source, heap[B]? = some (.message d (low d) source) ∧ source[i]? = some slot
  placed : FieldCells heap S f slot cells
  holds : CellsHold schema low heap S f.type cells ts

/-- The call copies the values of a field into the record at `M`, and changes nothing else. -/
def CopiesField (schema : Schema D) (low : D → ℕ) (heap : PbHeap D)
    (f : ProtobufCFieldDescriptor D) (d : D) (i M : ℕ) (slots : List PbSlot) (ts : List PbTree)
    (call : Except Fault (PbHeap D)) : Prop :=
  ∃ heap' slot' cells, call = .ok heap' ∧ Keeps {M} heap heap' ∧
    heap'[M]? = some (.message d (low d) (slots.set i slot')) ∧
    FieldCells heap' (Set.Ici heap.length) f slot' cells ∧
    CellsHold schema low heap' (Set.Ici heap.length) f.type cells
      (if f.OnDescriptor ∧ low d = 0 then [] else clonedCells schema low f.type ts)

lemma initial_of_not_repeated (h : f.label ≠ .repeated) : f.type.Initial f.initial := by
  unfold ProtobufCType.Initial
  split <;> simp [ProtobufCFieldDescriptor.initial, *]

/-- A field that is left as it was has no value. -/
lemma FieldStart.copies_nothing {slots : List PbSlot} {slot : PbSlot} {cells : List PbCell}
    {ts : List PbTree} (h : FieldStart schema low heap S f d i M B slots slot cells ts)
    (hinitial : FieldCells heap (Set.Ici heap.length) f ⟨f.initial, 0⟩ [])
    (hts : f.OnDescriptor ∧ low d = 0 ∨ ts = []) :
    CopiesField schema low heap f d i M slots ts (.ok heap) := by
  refine ⟨heap, ⟨f.initial, 0⟩, [], rfl, .refl, ?_, hinitial, ?_⟩
  · obtain ⟨hi, hget⟩ := List.getElem?_eq_some_iff.mp h.initial
    rw [← hget, List.set_getElem_self, h.message]
  · rcases hts with hlost | rfl
    · rw [if_pos hlost]
      exact .nil
    · rw [clonedCells, ite_self]
      exact .nil

/-- The values of an optional field: one if it is present, else none. -/
lemma FieldStart.values_eq {slots : List PbSlot} {slot : PbSlot} {cells : List PbCell}
    {ts : List PbTree} (h : FieldStart schema low heap S f d i M B slots slot cells ts)
    (hlabel : f.label = .optional) :
    if slot.Present f then cells = [slot.member] ∧ ∃ t, ts = [t] else ts = [] := by
  have hplaced : cells = if slot.Present f then [slot.member] else [] := by
    simpa only [FieldCells, hlabel] using h.placed
  have hlength := h.holds.length_eq
  split_ifs with hpresent
  · rw [if_pos hpresent] at hplaced
    rw [hplaced] at hlength
    exact ⟨hplaced, List.length_eq_one_iff.mp hlength.symm⟩
  · rw [hplaced, if_neg hpresent] at hlength
    exact List.length_eq_zero_iff.mp hlength.symm

/-- A new object, whose address is put into the cell `i` of the object at `M`. -/
lemma exists_store_push {o : PbObject D} {c₀ : PbCell} (new : PbObject D)
    (ho : heap[M]? = some o) (hc₀ : o.cell i = some c₀) (hM : M ∉ S) :
    ∃ heap', PbHeap.store (heap ++ [new]) ⟨M, i⟩ (.pointer (.heap heap.length)) = .ok heap' ∧
      Keeps {M} heap heap' ∧ heap'[heap.length]? = some new ∧
      heap'[M]? = some (o.setCell i (.pointer (.heap heap.length))) ∧
      heap.length + 1 ≤ heap'.length ∧ Carries heap heap' S {b ∈ S | b < heap.length} := by
  have hlt : M < heap.length := lt_length_of_get ho
  have ho' : (heap ++ [new])[M]? = some o := Keeps.push.get (W := ∅) (by simp) ho
  have hkeeps : Keeps {M} heap ((heap ++ [new]).set M
      (o.setCell i (.pointer (.heap heap.length)))) :=
    Keeps.push.trans (Keeps.set (Set.mem_singleton M)) fun a ha => .inl ha
  refine ⟨_, PbHeap.store_eq ho' hc₀, hkeeps, ?_, get_set_self ho', by simp, ?_⟩
  · rw [List.getElem?_set_ne (by omega)]
    exact get_push_self
  · exact .of_keeps hkeeps (fun b hb => by rintro rfl; exact hM hb) fun b hb hlt => ⟨hb, hlt⟩

variable [DecidableEq D]

/-- **`field_clone` on a value.** -/
lemma fieldClone_spec (hrec : ClonesMessages schema low recurse depth) {src : PbPlace}
    {o : PbObject D} {c c₀ : PbCell} {t : PbTree}
    (h : CellHolds schema low heap S f.type c t) (hdepth : t.depth ≤ depth)
    (hload : heap.load src = .ok c) (hM : M ∉ S) (ho : heap[M]? = some o)
    (hc₀ : o.cell i = some c₀) (hinitial : f.type.Initial c₀) :
    ∃ heap' c', fieldClone schema low recurse f heap ⟨M, i⟩ src = .ok heap' ∧
      Keeps {M} heap heap' ∧ heap'[M]? = some (o.setCell i c') ∧
      CellHolds schema low heap' (Set.Ici heap.length) f.type c' (cloned schema low f.type t) := by
  have hlt : M < heap.length := lt_length_of_get ho
  rw [fieldClone]
  cases htype : f.type with
  | scalar type =>
      rw [htype] at h
      cases h with
      | @scalar _ bits =>
          refine ⟨_, .word bits, ?_, Keeps.set rfl, get_set_self ho, .scalar⟩
          rw [scalarFieldClone, hload]
          exact PbHeap.store_eq ho hc₀
  | enum initial =>
      rw [htype] at h hinitial
      obtain rfl : c₀ = .word initial := hinitial
      cases h with
      | @enum _ bits =>
          refine ⟨heap, .word initial, rfl, .refl, by rw [PbObject.setCell_self hc₀, ho], ?_⟩
          rw [cloned]
          exact .enum
  | bytes =>
      rw [htype] at h hinitial
      obtain rfl : c₀ = .data 0 .null := hinitial
      cases h with
      | @bytes p s _ =>
          refine ⟨heap, .data 0 .null, rfl, .refl, by rw [PbObject.setCell_self hc₀, ho], ?_⟩
          rw [cloned]
          exact .bytes (s := []) fun hne => absurd rfl hne
  | string =>
      rw [htype] at h
      cases h with
      | @string p s h =>
          obtain ⟨heap₂, hstore, hkeeps, hnew, hmember, -, -⟩ :=
            exists_store_push (.text s) ho hc₀ hM
          exact ⟨heap₂, .pointer (.heap heap.length), (stringFieldClone_eq hload h).trans hstore,
            hkeeps, hmember, .string ⟨Set.mem_Ici.mpr le_rfl, hnew⟩⟩
  | message d =>
      rw [htype] at h
      cases h with
      | @message _ a slots fields ha h hfields =>
          have hne : M ≠ heap.length := by omega
          obtain ⟨heap₂, hstore, hkeeps, hnew, hmember, -, hcarry⟩ :=
            exists_store_push (schema.init low d) ho hc₀ hM
          obtain ⟨ha', h'⟩ := hcarry a ha _ h
          obtain ⟨heap₃, slots', hcall, hkeeps', hcopy, hfields'⟩ :=
            hrec heap₂ {b ∈ S | b < heap.length} d heap.length a slots fields (by simp) ha' hnew h'
              (hfields.mono hcarry) (by simp only [PbTree.depth] at hdepth; omega)
          refine ⟨heap₃, .pointer (.heap heap.length), ?_, ?_, ?_, ?_⟩
          · exact (messageFieldClone_eq hload h hstore).trans hcall
          · exact hkeeps.trans hkeeps' fun b hb => .inr (le_of_eq hb.symm)
          · exact hkeeps'.get (by simpa using hne) hmember
          · rw [cloned]
            refine .message (Set.mem_Ici.mpr le_rfl) hcopy (hfields'.mono fun b hb o ho => ⟨?_, ho⟩)
            exact hkeeps.length_le.trans hb

/-- **The loop over the elements.**  The elements before the count are copied, the others are as
`malloc` left them. -/
lemma elementsClone_spec (hrec : ClonesMessages schema low recurse depth) (hslot : f.HasSlot)
    (hjunk : f.type.Initial .junk) {A n number l k turns : ℕ} {source rest done : List PbCell}
    {slots : List PbSlot} {ts : List PbTree} (hMA : M ≠ A) (hA : A ∉ S) (hB : B ∈ S)
    (hM : M < n) (hAn : A < n) (hn : n ≤ heap.length)
    (hsource : heap[B]? = some (.array source)) (hrest : source.drop k = rest)
    (h : CellsHold schema low heap S f.type rest ts) (hMS : M ∉ S) (hdepth : cellsDepth ts ≤ depth)
    (hnumber : k + rest.length = number) (hturns : rest.length < turns)
    (hmessage : heap[M]? = some (.message d l slots))
    (hcount : slots[i]? = some ⟨.pointer (.heap A), k⟩) (hdone : done.length = k)
    (harray : heap[A]? = some (.array (done ++ List.replicate rest.length .junk))) :
    ∃ heap' out, elementsClone schema low recurse f i number M A B turns heap = .ok heap' ∧
      Keeps {M, A} heap heap' ∧
      heap'[M]? = some (.message d l (slots.set i ⟨.pointer (.heap A), number⟩)) ∧
      heap'[A]? = some (.array (done ++ out)) ∧
      CellsHold schema low heap' (Set.Ici n) f.type out (clonedCells schema low f.type ts) := by
  induction ts generalizing heap k turns rest done slots with
  | nil =>
      cases h
      obtain ⟨turns, rfl⟩ := Nat.exists_eq_succ_of_ne_zero (n := turns) (by omega)
      have hk : k = number := by simpa using hnumber
      refine ⟨heap, [], ?_, .refl, ?_, by simpa using harray, by rw [clonedCells]; exact .nil⟩
      · rw [elementsClone, PbHeap.number_slot hmessage hslot hcount]
        change (if k < number then _ else _) = _
        rw [if_neg (by omega)]
        rfl
      · obtain ⟨hi, hget⟩ := List.getElem?_eq_some_iff.mp hcount
        rw [hmessage, ← hk, ← hget, List.set_getElem_self]
  | cons t ts ih =>
      cases h with
      | @cons _ c rest _ _ hc hcells =>
          obtain ⟨turns, rfl⟩ := Nat.exists_eq_succ_of_ne_zero (n := turns) (by omega)
          simp only [List.length_cons] at hnumber hturns harray
          simp only [cellsDepth, Nat.max_le] at hdepth
          -- this element
          have hload : heap.load ⟨B, k⟩ = .ok c := by
            refine PbHeap.load_eq hsource ?_
            have := congrArg (·[0]?) hrest
            simpa [PbObject.cell] using this
          have hjunkCell : (PbObject.array (D := D) (done ++ List.replicate (rest.length + 1)
              .junk)).cell k = some .junk := by
            simp [PbObject.cell, ← hdone]
          obtain ⟨heap₁, c', hfield, hkeeps, harray₁, hcopy⟩ :=
            fieldClone_spec hrec hc hdepth.1 hload hA harray hjunkCell hjunk
          -- the count
          have hmessage₁ := hkeeps.get (by simpa using hMA) hmessage
          have hset := PbHeap.setNumber_slot (n := k + 1) hmessage₁ hslot hcount
          set slots₂ := slots.set i ⟨.pointer (.heap A), k + 1⟩ with hslots₂
          set heap₂ := heap₁.set M (.message d l slots₂) with hheap₂
          have hkeeps₁ : Keeps {M, A} heap₁ heap₂ := .set (by simp)
          have hkeeps₂ : Keeps {M, A} heap heap₂ :=
            (hkeeps.mono (by simp)).trans hkeeps₁ fun a ha => .inl ha
          have hSW : ∀ a ∈ S, a ∉ ({M, A} : Set ℕ) := by
            rintro a ha (rfl | rfl)
            · exact hMS ha
            · exact hA ha
          have harray₂ : heap₂[A]? =
              some (.array (done ++ [c'] ++ List.replicate rest.length .junk)) := by
            rw [hheap₂, List.getElem?_set_ne hMA, harray₁, PbObject.setCell, ← hdone]
            simp [List.replicate_succ]
          have hcount₂ : slots₂[i]? = some ⟨.pointer (.heap A), k + 1⟩ := by
            rw [hslots₂, List.getElem?_set_self (lt_length_of_get hcount)]
          have hrest₂ : source.drop (k + 1) = rest := by
            rw [← List.tail_drop, hrest, List.tail_cons]
          obtain ⟨heap₃, out, hloop, hkeeps₃, hmessage₃, harray₃, hout⟩ :=
            ih (hn.trans hkeeps₂.length_le) (hkeeps₂.get (hSW B hB) hsource) hrest₂
              (hcells.mono (.of_keeps hkeeps₂ hSW fun a ha _ => ha)) hdepth.2 (by omega)
              (show rest.length < turns by omega) (get_set_self hmessage₁) hcount₂ (by simp [hdone])
              harray₂
          -- the other elements
          refine ⟨heap₃, c' :: out, ?_, hkeeps₂.trans hkeeps₃ fun a ha => .inl ha, ?_, ?_, ?_⟩
          · rw [elementsClone, PbHeap.number_slot hmessage hslot hcount]
            change (if k < number then _ else _) = _
            rw [if_pos (by omega), hfield]
            change (heap₁.setNumber f M i (k + 1) >>= fun heap => _) = _
            rw [hset]
            exact hloop
          · rw [hmessage₃, hslots₂, List.set_set]
          · simpa using harray₃
          · rw [clonedCells]
            refine .cons (hcopy.mono (.of_keeps (hkeeps₁.trans hkeeps₃ fun a ha => .inl ha) ?_
              fun a ha _ => hn.trans ha)) hout
            rintro a ha (rfl | rfl)
            · exact absurd (hn.trans ha) (by omega)
            · exact absurd (hn.trans ha) (by omega)

section Labels

variable {slots : List PbSlot} {slot : PbSlot} {cells : List PbCell} {ts : List PbTree}

/-- `field_clone` from member to member. -/
lemma FieldStart.member (hrec : ClonesMessages schema low recurse depth) {t : PbTree}
    (h : FieldStart schema low heap S f d i M B slots slot [slot.member] [t])
    (hlabel : f.label ≠ .repeated) (hdepth : t.depth ≤ depth) :
    ∃ heap' c, requiredFieldClone schema low recurse f i heap M B = .ok heap' ∧
      Keeps {M} heap heap' ∧ heap'[M]? = some (.message d (low d) (slots.set i ⟨c, 0⟩)) ∧
      CellHolds schema low heap' (Set.Ici heap.length) f.type c
        (cloned schema low f.type t) := by
  obtain ⟨source, horiginal, hsource⟩ := h.original
  have hload : heap.load ⟨B, i⟩ = .ok slot.member :=
    PbHeap.load_eq horiginal (PbObject.cell_message hsource)
  cases h.holds with
  | cons hholds _ =>
      obtain ⟨heap', c, hcall, hkeeps, hmessage, hcopy⟩ :=
        fieldClone_spec hrec hholds hdepth hload h.outside h.message
          (PbObject.cell_message h.initial) (initial_of_not_repeated hlabel)
      rw [PbObject.setCell_message h.initial] at hmessage
      exact ⟨heap', c, hcall, hkeeps, hmessage, hcopy⟩

lemma FieldStart.required (hrec : ClonesMessages schema low recurse depth)
    (h : FieldStart schema low heap S f d i M B slots slot cells ts)
    (hlabel : f.label = .required) (hdepth : cellsDepth ts ≤ depth) :
    CopiesField schema low heap f d i M slots ts
      (requiredFieldClone schema low recurse f i heap M B) := by
  obtain rfl : cells = [slot.member] := by simpa only [FieldCells, hlabel] using h.placed
  obtain ⟨t, rfl⟩ := List.length_eq_one_iff.mp h.holds.length_eq.symm
  obtain ⟨heap', c, hcall, hkeeps, hmessage, hcopy⟩ :=
    h.member hrec (by simp [hlabel]) (by simpa [cellsDepth] using hdepth)
  have hnot : ¬ (f.OnDescriptor ∧ low d = 0) := fun hlost =>
    absurd hlost.1.1 (by simp [hlabel])
  refine ⟨heap', ⟨c, 0⟩, [c], hcall, hkeeps, hmessage, by simp only [FieldCells, hlabel], ?_⟩
  rw [if_neg hnot]
  exact .single hcopy

/-- **`optional_field_clone` on a field that is present**: the member is copied, and then its
quantifier is written. -/
lemma FieldStart.present (hrec : ClonesMessages schema low recurse depth) {t : PbTree} (n : ℕ)
    (h : FieldStart schema low heap S f d i M B slots slot [slot.member] [t])
    (hlabel : f.label = .optional) (hlow : ¬ (f.OnDescriptor ∧ low d = 0))
    (hdepth : t.depth ≤ depth) {quantifier : PbHeap D → Except Fault (PbHeap D)}
    (hquantifier : ∀ heap' c, heap'[M]? = some (.message d (low d) (slots.set i ⟨c, 0⟩)) →
      quantifier heap' = .ok (heap'.set M (.message d (low d) (slots.set i ⟨c, n⟩))))
    (hpresent : ∀ c, c ≠ .pointer .null → PbSlot.Present f ⟨c, n⟩) :
    CopiesField schema low heap f d i M slots [t]
      (requiredFieldClone schema low recurse f i heap M B >>= quantifier) := by
  obtain ⟨heap', c, hcall, hkeeps, hmessage, hcopy⟩ := h.member hrec (by simp [hlabel]) hdepth
  have hwrite : Keeps {M} heap' (heap'.set M (.message d (low d) (slots.set i ⟨c, n⟩))) :=
    .set (Set.mem_singleton M)
  have hM : M < heap.length := lt_length_of_get h.message
  refine ⟨heap'.set M (.message d (low d) (slots.set i ⟨c, n⟩)), ⟨c, n⟩, [c], ?_,
    hkeeps.trans hwrite fun a ha => .inl ha, get_set_self hmessage, ?_, ?_⟩
  · rw [hcall]
    exact hquantifier heap' c hmessage
  · simp only [FieldCells, hlabel]
    rw [if_pos (hpresent c hcopy.ne_null)]
  · rw [if_neg hlow]
    refine .single (hcopy.mono (.of_keeps hwrite (fun a ha => ?_) fun a ha _ => ha))
    rintro rfl
    exact absurd (Set.mem_Ici.mp ha) (by omega)

/-- An optional field whose quantifier is its `has_…`. -/
lemma FieldStart.optional_slot (hrec : ClonesMessages schema low recurse depth)
    (h : FieldStart schema low heap S f d i M B slots slot cells ts)
    (hlabel : f.label = .optional) (hslot : f.HasSlot) (hdepth : cellsDepth ts ≤ depth) :
    CopiesField schema low heap f d i M slots ts
      (optionalFieldClone schema low recurse f i heap M B) := by
  obtain ⟨source, horiginal, hsource⟩ := h.original
  have hvalues := h.values_eq hlabel
  have hpresent (slot : PbSlot) : slot.Present f ↔ slot.number ≠ 0 := by
    rw [PbSlot.Present, if_pos hslot]
  rw [optionalFieldClone, PbHeap.number_slot horiginal hslot hsource]
  change CopiesField schema low heap f d i M slots ts (if slot.number ≠ 0 then _ else _)
  by_cases hnumber : slot.number ≠ 0
  · rw [if_pos hnumber]
    rw [if_pos ((hpresent slot).mpr hnumber)] at hvalues
    obtain ⟨rfl, t, rfl⟩ := hvalues
    refine FieldStart.present hrec slot.number h hlabel (fun hlost => hlost.1.2 hslot)
      (by simpa [cellsDepth] using hdepth) (fun heap' c hmessage => ?_) fun c _ => ?_
    · rw [PbHeap.setNumber_slot hmessage hslot (get_set_self h.initial), List.set_set]
    · exact (hpresent _).mpr hnumber
  · rw [if_neg hnumber]
    rw [if_neg (mt (hpresent slot).mp hnumber)] at hvalues
    refine h.copies_nothing ?_ (.inr hvalues)
    simp only [FieldCells, hlabel, hpresent]
    rfl

/-- An optional string or message: its quantifier is the address of the descriptor. -/
lemma FieldStart.optional_descriptor (hrec : ClonesMessages schema low recurse depth)
    (h : FieldStart schema low heap S f d i M B slots slot cells ts) (hplain : f.Plain)
    (hlabel : f.label = .optional) (hslot : ¬ f.HasSlot) (hdepth : cellsDepth ts ≤ depth) :
    CopiesField schema low heap f d i M slots ts
      (optionalFieldClone schema low recurse f i heap M B) := by
  obtain ⟨source, horiginal, hsource⟩ := h.original
  have hvalues := h.values_eq hlabel
  have hpresent (slot : PbSlot) : slot.Present f ↔ slot.member ≠ .pointer .null := by
    rw [PbSlot.Present, if_neg hslot]
  have hinitial : f.initial = .pointer .null := by
    have hdefault : f.default_ = none := by
      simpa only [ProtobufCFieldDescriptor.Plain, hlabel] using hplain
    cases htype : f.type <;>
      simp_all [ProtobufCFieldDescriptor.HasSlot, ProtobufCFieldDescriptor.initial]
  have hnothing : FieldCells heap (Set.Ici heap.length) f ⟨f.initial, 0⟩ [] := by
    simp only [FieldCells, hlabel, hpresent, hinitial]
    rfl
  rw [optionalFieldClone, PbHeap.number_low horiginal hslot]
  change CopiesField schema low heap f d i M slots ts (if low d ≠ 0 then _ else _)
  by_cases hlow : low d ≠ 0
  · rw [if_pos hlow]
    by_cases hmember : slot.member ≠ .pointer .null
    · rw [if_pos ((hpresent slot).mpr hmember)] at hvalues
      obtain ⟨rfl, t, rfl⟩ := hvalues
      refine FieldStart.present hrec 0 h hlabel (fun hlost => hlow hlost.2)
        (by simpa [cellsDepth] using hdepth) (fun heap' c hmessage => ?_) fun c hc => ?_
      · exact PbHeap.setNumber_low hmessage hslot
      · exact (hpresent _).mpr hc
    · rw [if_neg (mt (hpresent slot).mp hmember)] at hvalues
      have hload : heap.load ⟨B, i⟩ = .ok (.pointer .null) := by
        rw [PbHeap.load_eq horiginal (PbObject.cell_message hsource), not_not.mp hmember]
      have hcall : (requiredFieldClone schema low recurse f i heap M B >>= fun heap =>
          heap.setNumber f M i (low d)) = .ok heap := by
        rw [requiredFieldClone, fieldClone_null ⟨hlabel, hslot⟩ hload]
        change heap.setNumber f M i (low d) = _
        obtain ⟨hM, hget⟩ := List.getElem?_eq_some_iff.mp h.message
        rw [PbHeap.setNumber_low h.message hslot, ← hget, List.set_getElem_self]
      rw [hcall]
      exact h.copies_nothing hnothing (.inr hvalues)
  · rw [if_neg hlow]
    exact h.copies_nothing hnothing (.inl ⟨⟨hlabel, hslot⟩, not_not.mp hlow⟩)

lemma FieldStart.repeated (hrec : ClonesMessages schema low recurse depth)
    (h : FieldStart schema low heap S f d i M B slots slot cells ts) (hplain : f.Plain)
    (hlabel : f.label = .repeated) (hdepth : cellsDepth ts ≤ depth) :
    CopiesField schema low heap f d i M slots ts
      (repeatedFieldClone schema low recurse f i heap M B) := by
  obtain ⟨source, horiginal, hsource⟩ := h.original
  have hslot : f.HasSlot := by simp only [ProtobufCFieldDescriptor.HasSlot, hlabel]
  have hinitial : f.initial = .pointer .null := by
    rw [ProtobufCFieldDescriptor.initial, if_pos hlabel]
  have hjunk : f.type.Initial .junk := by
    obtain ⟨hbytes, henum⟩ : f.type ≠ .bytes ∧ ∀ v, f.type ≠ .enum v := by
      simpa only [ProtobufCFieldDescriptor.Plain, hlabel] using hplain
    unfold ProtobufCType.Initial
    split
    · exact absurd ‹_› (henum _)
    · exact absurd ‹_› hbytes
    · trivial
  obtain ⟨hnumber, harray⟩ : cells.length = slot.number ∧ (cells ≠ [] → ∃ a ∈ S,
      slot.member = .pointer (.heap a) ∧ heap[a]? = some (.array cells)) := by
    simpa only [FieldCells, hlabel] using h.placed
  rw [repeatedFieldClone, PbHeap.number_slot horiginal hslot hsource]
  change CopiesField schema low heap f d i M slots ts (if slot.number = 0 then _ else _)
  by_cases hzero : slot.number = 0
  · rw [if_pos hzero]
    refine h.copies_nothing ?_ (.inr (List.length_eq_zero_iff.mp ?_))
    · simp [FieldCells, hlabel]
    · rw [← h.holds.length_eq, hnumber, hzero]
  · rw [if_neg hzero]
    obtain ⟨a, ha, hmember, hcells⟩ := harray fun hnil => hzero (by rw [← hnumber, hnil]; rfl)
    rw [PbHeap.load_eq horiginal (PbObject.cell_message hsource), hmember]
    -- the new array
    have hM : M < heap.length := lt_length_of_get h.message
    obtain ⟨heap₂, hstore, hkeeps, hnew, hmessage, hlength, hcarry⟩ :=
      exists_store_push (.array (List.replicate slot.number .junk)) h.message
        (PbObject.cell_message h.initial) h.outside
    rw [PbObject.setCell_message h.initial] at hmessage
    set A := heap.length with hA
    obtain ⟨ha', hcells'⟩ := hcarry a ha _ hcells
    have harray₂ : heap₂[A]? = some (.array ([] ++ List.replicate cells.length .junk)) := by
      rw [hnew, hnumber]
      rfl
    -- its elements
    obtain ⟨heap₃, out, hloop, hkeeps₃, hmessage₃, harray₃, hout⟩ :=
      elementsClone_spec (S := {b ∈ S | b < A}) hrec hslot hjunk
        (show M ≠ A by omega) (by simp) ha' (show M < A + 1 by omega) (Nat.lt_succ_self A) hlength
        hcells' (List.drop_zero) (h.holds.mono hcarry) (fun hmem => h.outside hmem.1) hdepth
        (show 0 + cells.length = slot.number by omega)
        (show cells.length < slot.number + 1 by omega) hmessage
        (get_set_self h.initial) rfl harray₂
    have hMA : ∀ b ∈ ({M, A} : Set ℕ), b ∈ ({M} : Set ℕ) ∨ heap.length ≤ b := by
      rintro b (rfl | rfl)
      · exact .inl rfl
      · exact .inr le_rfl
    refine ⟨heap₃, ⟨.pointer (.heap A), slot.number⟩, out, ?_, hkeeps.trans hkeeps₃ hMA, ?_, ?_, ?_⟩
    · change (PbHeap.store (heap ++ [.array (List.replicate slot.number .junk)]) ⟨M, i⟩
        (.pointer (.heap A)) >>= fun heap =>
          elementsClone schema low recurse f i slot.number M A a (slot.number + 1) heap) = _
      rw [hstore]
      exact hloop
    · rw [hmessage₃, List.set_set]
    · have hout' : out.length = slot.number := by
        rw [← hnumber, hout.length_eq, h.holds.length_eq, clonedCells_length]
      simp only [FieldCells, hlabel]
      exact ⟨hout', fun _ => ⟨A, Set.mem_Ici.mpr le_rfl, rfl, harray₃⟩⟩
    · rw [if_neg fun hlost => absurd hlost.1.1 (by simp [hlabel])]
      exact hout.mono fun b hb o ho => ⟨(Nat.le_succ A).trans hb, ho⟩

lemma FieldStart.label (hrec : ClonesMessages schema low recurse depth)
    (h : FieldStart schema low heap S f d i M B slots slot cells ts) (hplain : f.Plain)
    (hdepth : cellsDepth ts ≤ depth) :
    CopiesField schema low heap f d i M slots ts
      (labelClone schema low recurse f i heap M B) := by
  rw [labelClone]
  cases hlabel : f.label with
  | required => exact h.required hrec hlabel hdepth
  | optional =>
      by_cases hslot : f.HasSlot
      · exact h.optional_slot hrec hlabel hslot hdepth
      · exact h.optional_descriptor hrec hplain hlabel hslot hdepth
  | repeated => exact h.repeated hrec hplain hlabel hdepth
  | none => simp only [ProtobufCFieldDescriptor.Plain, hlabel] at hplain

end Labels

/-- **The loop over the fields.** -/
lemma fieldsClone_spec (hrec : ClonesMessages schema low recurse depth) {n : ℕ}
    {fs : List (ProtobufCFieldDescriptor D)} {slots source rest : List PbSlot}
    {fields : List (List PbTree)} (hMS : M ∉ S) (hB : B ∈ S) (hM : M < n) (hn : n ≤ heap.length)
    (hplain : ∀ f ∈ fs, f.Plain) (hmessage : heap[M]? = some (.message d (low d) slots))
    (hinitial : ∀ j f, fs[j]? = some f → slots[i + j]? = some ⟨f.initial, 0⟩)
    (horiginal : heap[B]? = some (.message d (low d) source)) (hrest : source.drop i = rest)
    (h : FieldsHold schema low heap S fs rest fields) (hdepth : fieldsDepth fields ≤ depth)
    (hlength : slots.length = i + fs.length) :
    ∃ heap' slots', fieldsClone schema low recurse M B fs i heap = .ok heap' ∧
      Keeps {M} heap heap' ∧ heap'[M]? = some (.message d (low d) slots') ∧
      slots'.take i = slots.take i ∧
      FieldsHold schema low heap' (Set.Ici n) fs (slots'.drop i)
        (clonedFields schema low d fs fields) := by
  induction fs generalizing heap i slots rest fields with
  | nil =>
      cases h
      refine ⟨heap, slots, rfl, .refl, hmessage, rfl, ?_⟩
      rw [List.drop_eq_nil_of_le (by simpa using hlength.le), clonedFields]
      · exact .nil
      · intro f fs ts fields hnil
        cases hnil
  | cons f fs ih =>
      cases h with
      | @cons _ _ slot rest cells ts fields hplaced hholds hfields =>
          simp only [fieldsDepth, Nat.max_le] at hdepth
          have hslot : source[i]? = some slot := by
            have := congrArg (·[0]?) hrest
            simpa using this
          have hrest₁ : source.drop (i + 1) = rest := by
            rw [← List.tail_drop, hrest, List.tail_cons]
          -- this field
          have hstart : FieldStart schema low heap S f d i M B slots slot cells ts :=
            ⟨hMS, hB, hmessage, hinitial 0 f rfl, ⟨source, horiginal, hslot⟩, hplaced, hholds⟩
          obtain ⟨heap₁, slot', cells', hcall, hkeeps, hmessage₁, hplaced', hcopy⟩ :=
            hstart.label hrec (hplain f List.mem_cons_self) hdepth.1
          have hSM : ∀ a ∈ S, a ∉ ({M} : Set ℕ) := by
            rintro a ha rfl
            exact hMS ha
          have hinitial₁ : ∀ j g, fs[j]? = some g →
              (slots.set i slot')[i + 1 + j]? = some ⟨g.initial, 0⟩ := by
            intro j g hg
            rw [List.getElem?_set_ne (by omega), show i + 1 + j = i + (j + 1) by omega]
            exact hinitial (j + 1) g hg
          -- the other fields
          obtain ⟨heap₂, slots₂, hloop, hkeeps₂, hmessage₂, htake, hcopies⟩ :=
            ih (hn.trans hkeeps.length_le) (fun g hg => hplain g (List.mem_cons_of_mem f hg))
              hmessage₁ hinitial₁ (hkeeps.get (hSM B hB) horiginal) hrest₁
              (hfields.mono (.of_keeps hkeeps hSM fun a ha _ => ha)) hdepth.2
              (by rw [List.length_set, hlength, List.length_cons]; omega)
          have hget : slots₂[i]? = some slot' := by
            have := congrArg (·[i]?) htake
            simpa [hlength] using this
          obtain ⟨hi, hget⟩ := List.getElem?_eq_some_iff.mp hget
          have hcarry : Carries heap₁ heap₂ (Set.Ici heap.length) (Set.Ici n) := by
            refine .of_keeps hkeeps₂ (fun a ha => ?_) fun a ha _ => hn.trans ha
            rintro rfl
            exact absurd (hn.trans ha) (by omega)
          refine ⟨heap₂, slots₂, ?_, hkeeps.trans hkeeps₂ fun a ha => .inl ha, hmessage₂, ?_, ?_⟩
          · rw [fieldsClone, hcall]
            exact hloop
          · have := congrArg (List.take i) htake
            rw [List.take_take, List.take_take, Nat.min_eq_left (Nat.le_succ i)] at this
            rw [this, List.take_set_of_le le_rfl]
          · rw [List.drop_eq_getElem_cons hi, hget, clonedFields]
            exact .cons (hplaced'.mono hcarry) (hcopy.mono hcarry) hcopies

/-- **`message_clone`**, with fuel for the depth of what it copies. -/
lemma messageClone_spec (fuel : ℕ) :
    ClonesMessages schema low (messageClone schema low fuel) fuel := by
  induction fuel with
  | zero => exact fun _ _ _ _ _ _ _ _ _ _ _ _ hdepth => absurd hdepth (Nat.not_lt_zero _)
  | succ fuel ih =>
      intro heap S d M B source fields hMS hB hmessage horiginal h hdepth
      have hinitial : ∀ j f, (schema.fields d)[j]? = some f →
          ((schema.fields d).map fun f => (⟨f.initial, 0⟩ : PbSlot))[0 + j]? =
            some ⟨f.initial, 0⟩ := fun j f hf => by simp [hf]
      obtain ⟨heap', slots', hcall, hkeeps, hmessage', -, hcopy⟩ :=
        fieldsClone_spec ih hMS hB (lt_length_of_get hmessage) le_rfl (schema.plain d) hmessage
          hinitial horiginal List.drop_zero h (by omega) (by simp)
      refine ⟨heap', slots', ?_, hkeeps, hmessage', by simpa using hcopy⟩
      rw [messageClone, hmessage]
      exact hcall

end Spec

/-! ### The call -/

/-- A call of `protobuf_c_message_clone`: a record that says a message of this type, none of it
at the record that is to become its copy. -/
structure CloneCall (schema : Schema D) (low : D → ℕ) where
  heap : PbHeap D
  to_ : ℕ
  from_ : ℕ
  type : D
  tree : PbTree
  room : to_ < heap.length
  holds : CellHolds schema low heap {to_}ᶜ (.message type) (.pointer (.heap from_)) tree

variable [DecidableEq D] {schema : Schema D} {low : D → ℕ}

/-- **A faithful copy**: with fuel for its depth the message is copied, the copy says the same by
objects of its own, and the original and all other objects are as before. -/
def CloneCall.Faithful (call : CloneCall schema low) : Prop :=
  ∀ fuel, call.tree.depth ≤ fuel → ∃ heap',
    protobufCMessageClone schema low fuel call.heap call.to_ call.from_ = .ok heap' ∧
      CellHolds schema low heap' (insert call.to_ (Set.Ici call.heap.length))
        (.message call.type) (.pointer (.heap call.to_)) call.tree ∧
      CellHolds schema low heap' {call.to_}ᶜ (.message call.type)
        (.pointer (.heap call.from_)) call.tree ∧
      Keeps {call.to_} call.heap heap'

/-- The call returns, the copy says what `cloned` says, and nothing else has changed. -/
lemma CloneCall.returns (call : CloneCall schema low) {fuel : ℕ}
    (hfuel : call.tree.depth ≤ fuel) : ∃ heap',
      protobufCMessageClone schema low fuel call.heap call.to_ call.from_ = .ok heap' ∧
        CellHolds schema low heap' (insert call.to_ (Set.Ici call.heap.length))
          (.message call.type) (.pointer (.heap call.to_))
          (cloned schema low (.message call.type) call.tree) ∧
        Keeps {call.to_} call.heap heap' := by
  obtain ⟨heap, M, B, d, tree, room, holds⟩ := call
  cases holds with
  | @message _ _ source fields hB h hfields =>
      set heap₁ := heap.set M (schema.init low d) with hheap₁
      have hkeeps : Keeps {M} heap heap₁ := .set (Set.mem_singleton M)
      have hlength : heap₁.length = heap.length := by rw [hheap₁, List.length_set]
      have hcarry : Carries heap heap₁ {M}ᶜ {M}ᶜ :=
        .of_keeps hkeeps (fun a ha => ha) fun a ha _ => ha
      have hnew : heap₁[M]? = some (schema.init low d) := by
        rw [hheap₁, List.getElem?_set_self room]
      obtain ⟨heap', slots', hcall, hkeeps', hmessage, hcopy⟩ :=
        messageClone_spec fuel heap₁ {M}ᶜ d M B source fields (by simp) hB hnew
          (hkeeps.get hB h) (hfields.mono hcarry)
          (by simp only [PbTree.depth] at hfuel; omega)
      refine ⟨heap', ?_, ?_, hkeeps.trans hkeeps' fun a ha => .inl ha⟩
      · rw [protobufCMessageClone, h]
        exact hcall
      · rw [cloned]
        refine .message (Set.mem_insert M _) hmessage (hcopy.mono fun a ha o ho => ⟨?_, ho⟩)
        rw [hlength] at ha
        exact Set.mem_insert_of_mem M ha

/-- **The copy is faithful exactly of a message of which nothing is lost.** -/
lemma CloneCall.faithful_iff (call : CloneCall schema low) :
    call.Faithful ↔ CellClonable schema low (.message call.type) call.tree := by
  rw [← cloned_eq_iff]
  constructor
  · intro h
    obtain ⟨heap', hcall, hcopy, -, -⟩ := h call.tree.depth le_rfl
    obtain ⟨heap₁, hcall₁, hcloned, -⟩ := call.returns (le_refl call.tree.depth)
    obtain rfl : heap₁ = heap' := Except.ok.inj (hcall₁.symm.trans hcall)
    exact hcloned.unique hcopy
  · intro h fuel hfuel
    obtain ⟨heap', hcall, hcopy, hkeeps⟩ := call.returns hfuel
    rw [h] at hcopy
    exact ⟨heap', hcall, hcopy,
      call.holds.mono (.of_keeps hkeeps (fun a ha => ha) fun a ha _ => ha), hkeeps⟩

end SipEcho
