import ContractTyping.Source.Reader
import ContractTyping.Source.Writer
import Mathlib.Data.List.Nodup

/-!
# Reading what was written: plain values and records

Each writer of plain values has a reader that undoes it. An object that was written for a node is
read as a record that holds the node and each of its fields; whatever is read from such a record is
read from there.

* `LawfulVocabulary`: every word is read as the value it was written for.
* `Record.Holds`: what a record of a node gives.
* `Node.bind_record?`, `Node.bind_node?`, `Node.bind_part?`: reading the object of a node goes on
  with a record that holds it.
-/

namespace ContractTyping

open List Json

variable {fields : List (String × Json)}
variable {α : Type} (a : α)

/-! ## Words -/

/-- A vocabulary in which every value has a word of its own. -/
class LawfulVocabulary (α : Type) [Vocabulary α] : Prop where
  ofWord?_word : ∀ a : α, Vocabulary.ofWord? (Vocabulary.word a) = some a

instance : LawfulVocabulary Visibility := ⟨by intro a; cases a <;> rfl⟩

instance : LawfulVocabulary Mutability := ⟨by intro a; cases a <;> rfl⟩

instance : LawfulVocabulary Changeability := ⟨by intro a; cases a <;> rfl⟩

instance : LawfulVocabulary LocationKeyword := ⟨by intro a; cases a <;> rfl⟩

instance : LawfulVocabulary ContractKind := ⟨by intro a; cases a <;> rfl⟩

instance : LawfulVocabulary FunctionKind := ⟨by intro a; cases a <;> rfl⟩

instance : LawfulVocabulary LiteralKind := ⟨by intro a; cases a <;> rfl⟩

instance : LawfulVocabulary Denomination := ⟨by intro a; cases a <;> rfl⟩

instance : LawfulVocabulary UnaryOp := ⟨by intro a; cases a <;> rfl⟩

instance : LawfulVocabulary BinaryOp := ⟨by intro a; cases a <;> rfl⟩

instance : LawfulVocabulary AbiCoder := ⟨by intro a; cases a <;> rfl⟩

@[simp]
theorem Vocabulary.ofJson?_toJson [Vocabulary α] [LawfulVocabulary α] :
    ofJson? (toJson a) = some a := LawfulVocabulary.ofWord?_word a

@[simp]
theorem Vocabulary.ofNodeJson?_toJson [Vocabulary α] [LawfulVocabulary α] :
    ofNodeJson? (toJson a) = some a := LawfulVocabulary.ofWord?_word a

/-! ## Lists and options -/

namespace Json

variable {α : Type} {read : Json → Option α} {write : α → Json}
variable {item : Json} {field : String × Json}

theorem asList?_ofList {items : List α} (restored : ∀ a ∈ items, read (write a) = some a) :
    asList? read (ofList write items) = some items := by
  show (items.map write).mapM read = some items
  induction items with
  | nil => rfl
  | cons a rest ih =>
    rw [forall_mem_cons] at restored
    rw [map_cons, mapM_cons, restored.1, ih restored.2]
    rfl

/-- An absent value is written as null, which a present one never is. -/
theorem asOption?_ofOption (absent : read .null = none) {option : Option α}
    (restored : ∀ a ∈ option, read (write a) = some a) :
    asOption? read (ofOption write option) = some option := by
  cases option with
  | none => rfl
  | some a =>
    have present := restored a rfl
    rw [ofOption]
    unfold asOption?
    split
    · next null =>
      rw [null, absent] at present
      cases present
    · rw [present]
      rfl

@[simp]
theorem asString?_string (text : String) : asString? (string text) = some text := rfl

@[simp]
theorem asBool?_bool (b : Bool) : asBool? (bool b) = some b := rfl

@[simp]
theorem asList?_strings (texts : List String) :
    asList? asString? (ofList string texts) = some texts :=
  asList?_ofList fun _ _ => rfl

@[simp]
theorem asOption?_words [Vocabulary α] [LawfulVocabulary α] (option : Option α) :
    asOption? Vocabulary.ofNodeJson? (ofOption Vocabulary.toJson option) = some option :=
  asOption?_ofOption rfl fun a _ => Vocabulary.ofNodeJson?_toJson a

/-! ## Depth -/

theorem depth_le_depthItems {items : List Json} (mem : item ∈ items) :
    item.depth ≤ depthItems items := by
  induction items with
  | nil => cases mem
  | cons first rest ih =>
    rw [depthItems]
    rcases mem_cons.mp mem with rfl | later
    · omega
    · have := ih later
      omega

theorem depth_le_depthFields (mem : field ∈ fields) : field.2.depth ≤ depthFields fields := by
  induction fields with
  | nil => cases mem
  | cons first rest ih =>
    rw [depthFields]
    rcases mem_cons.mp mem with rfl | later
    · omega
    · have := ih later
      omega

theorem readingDepth_item {items : List Json} (mem : item ∈ items) :
    item.readingDepth + 2 ≤ (array items).readingDepth := by
  have := depth_le_depthItems mem
  simp only [readingDepth, depth]
  omega

theorem readingDepth_field (mem : field ∈ fields) :
    field.2.readingDepth + 2 ≤ (object fields).readingDepth := by
  have := depth_le_depthFields mem
  simp only [readingDepth, depth]
  omega

end Json

namespace Json

/-! ## Values below a bound -/

variable {α : Type} {read : Json → Option α} {write : α → Json} {depth : Nat}

theorem two_le_readingDepth (json : Json) : 2 ≤ json.readingDepth := by
  cases json <;> simp only [readingDepth, depth] <;> omega

/-- Items are read back if values below the bound are. -/
theorem asList?_restored (restored : ∀ a, (write a).readingDepth ≤ depth → read (write a) = some a)
    {items : List α} (enough : (ofList write items).readingDepth ≤ depth) :
    asList? read (ofList write items) = some items := by
  refine asList?_ofList fun a mem => restored a ?_
  have inside := readingDepth_item (mem_map_of_mem (f := write) mem)
  exact Nat.le_trans (Nat.le_add_right _ 2) (Nat.le_trans inside enough)

/-- An optional value is read back if values below the bound are. -/
theorem asOption?_restored
    (restored : ∀ a, (write a).readingDepth ≤ depth → read (write a) = some a)
    (absent : read .null = none) {option : Option α}
    (enough : (ofOption write option).readingDepth ≤ depth) :
    asOption? read (ofOption write option) = some option := by
  refine asOption?_ofOption absent ?_
  rintro a rfl
  exact restored a enough

end Json

/-! ## Nodes -/

@[simp]
theorem NodeId.ofJson?_toJson (id : NodeId) : NodeId.ofJson? id.toJson = some id := by
  have bounds : Int64.minValue.toInt ≤ id.value.toInt ∧ id.value.toInt ≤ Int64.maxValue.toInt :=
    ⟨Int64.le_toInt _, Int64.toInt_le _⟩
  show NodeId.ofInt? id.value.toInt = some id
  rw [ofInt?, if_pos bounds, Int64.ofInt_toInt]

@[simp]
theorem NodeId.asOption?_ofOption (option : Option NodeId) :
    asOption? NodeId.ofJson? (.ofOption NodeId.toJson option) = some option :=
  Json.asOption?_ofOption rfl fun id _ => id.ofJson?_toJson

@[simp]
theorem NodeId.asList?_ofList (ids : List NodeId) :
    Json.asList? NodeId.ofJson? (.ofList NodeId.toJson ids) = some ids :=
  Json.asList?_ofList fun id _ => id.ofJson?_toJson

@[simp]
theorem Position.ofJson?_toJson (p : Position) : Position.ofJson? p.toJson = some p := by
  have fits : p.offset.toNat < UInt32.size := p.offset.toNat_lt
  show (if p.offset.toNat < UInt32.size then some (Position.mk p.offset.toNat.toUInt32 p.file)
    else none) = some p
  rw [if_pos fits]
  simp

/-! ## Records -/

namespace Record

attribute [simp] name required optional list flag withDefault arguments

/-- Whether a record gives a field with each of the names, and the value next to it. -/
def Gives (r : Record) (fields : List (String × Json)) : Prop :=
  ∀ field ∈ fields, r.find? field.1 = some field.2

/-- A record of a node: its identity, its span and its fields. -/
structure Holds (r : Record) (node : Node) (fields : List (String × Json)) : Prop where
  node : r.node = some node
  gives : r.Gives fields

theorem unambiguous_of_nodup (distinct : (fields.map Prod.fst).Nodup) (names : List String) :
    unambiguous names fields = true := by
  rw [unambiguous, all_eq_true]
  intro name _
  have once := nodup_iff_count_le_one.mp distinct name
  rw [List.count, countP_map, countP_eq_length_filter] at once
  exact decide_eq_true once

theorem gives_of_nodup (distinct : (fields.map Prod.fst).Nodup) : Gives ⟨fields⟩ fields := by
  unfold Gives find?
  induction fields with
  | nil => exact nofun
  | cons first rest ih =>
    rw [map_cons, nodup_cons] at distinct
    intro field mem
    rw [lookup_cons]
    rcases mem_cons.mp mem with rfl | later
    · simp
    · have differs : field.1 ≠ first.1 := fun same => distinct.1 (same ▸ mem_map_of_mem later)
      rw [beq_eq_false_iff_ne.mpr differs]
      exact ih distinct.2 field later

theorem Gives.cons {r : Record} {first : String × Json} {fields : List (String × Json)} :
    r.Gives (first :: fields) ↔ r.find? first.1 = some first.2 ∧ r.Gives fields :=
  forall_mem_cons

end Record

/-- Reading an object with different names goes on with its fields. -/
theorem Json.record?_object (distinct : (fields.map Prod.fst).Nodup) (names : List String) :
    (object fields).record? names = some ⟨fields⟩ :=
  if_pos (Record.unambiguous_of_nodup distinct names)

@[simp]
theorem Span.ofJson?_toJson (s : Span) : Span.ofJson? s.toJson = some s := by
  rw [ofJson?, toJson, record?_object (by simp)]
  simp [Record.required, Record.find?, lookup_cons]

/-- What a record gives is not as deep as the record. -/
theorem Record.readingDepth_find? {r : Record} {name : String} {value : Json}
    (found : r.find? name = some value) : value.readingDepth + 2 ≤ r.readingDepth := by
  obtain ⟨before, after, split, -⟩ := lookup_eq_some_iff.mp found
  have mem : (name, value) ∈ r.fields := by rw [split]; simp
  exact readingDepth_field mem

/-! ## Objects of nodes -/

namespace Node

variable {depth : Nat}

/-- Whether the fields of a node have different names, which are not those that every node has. -/
def Distinct (fields : List (String × Json)) : Prop :=
  ("id" :: "span" :: "nodeType" :: fields.map Prod.fst).Nodup

variable {α : Type} {a : α} {node : Node} {fields : List (String × Json)}

/-- The fields of the object that is written for a node. -/
def objectFields (node : Node) (fields : List (String × Json)) : List (String × Json) :=
  ("id", node.id.toJson) :: ("span", node.span.toJson) :: fields

theorem node_objectFields (node : Node) (fields : List (String × Json)) :
    Record.node ⟨node.objectFields fields⟩ = some node := by
  simp [Record.node, Record.required, Record.withDefault, Record.find?, objectFields, lookup_cons]

variable (distinct : Distinct fields)

include distinct

theorem Distinct.nodup (node : Node) : ((node.objectFields fields).map Prod.fst).Nodup :=
  List.Nodup.sublist (((sublist_cons_self _ _).cons_cons _).cons_cons _) distinct

theorem Distinct.nodup_kind (node : Node) (kind : Json) :
    ((node.objectFields (("nodeType", kind) :: fields)).map Prod.fst).Nodup := distinct

theorem Distinct.holds (node : Node) : Record.Holds ⟨node.objectFields fields⟩ node fields where
  node := node_objectFields node fields
  gives :=
    (Record.Gives.cons.mp (Record.Gives.cons.mp (Record.gives_of_nodup (distinct.nodup node))).2).2

theorem Distinct.holds_kind (node : Node) (kind : Json) :
    Record.Holds ⟨node.objectFields (("nodeType", kind) :: fields)⟩ node fields where
  node := node_objectFields node _
  gives := (Record.Gives.cons.mp (Record.Gives.cons.mp (Record.Gives.cons.mp
    (Record.gives_of_nodup (distinct.nodup_kind node kind))).2).2).2

omit distinct

/-- The fields of a node are not as deep as the node. -/
theorem readingDepth_fields (enough : (node.toJson fields).readingDepth ≤ depth + 2) :
    ∀ field ∈ fields, field.2.readingDepth ≤ depth := by
  intro field mem
  have inside : field.2.readingDepth + 2 ≤ (node.toJson fields).readingDepth :=
    readingDepth_field (mem_cons_of_mem _ (mem_cons_of_mem _ mem))
  omega

theorem readingDepth_kindFields {kind : String}
    (enough : (node.toJsonAs kind fields).readingDepth ≤ depth + 2) :
    ∀ field ∈ fields, field.2.readingDepth ≤ depth :=
  (forall_mem_cons.mp (readingDepth_fields enough)).2

/-- Reading the object of a node goes on with a record that holds the node. -/
theorem bind_record? (names : List String) {next : Record → Option α} (distinct : Distinct fields)
    (restored : ∀ r : Record, r.Holds node fields → next r = some a) :
    ((node.toJson fields).record? names).bind next = some a := by
  show ((object (node.objectFields fields)).record? names).bind next = some a
  rw [record?_object (distinct.nodup node)]
  exact restored _ (distinct.holds node)

variable {kind : String} {names : List String} {kinds : List (String × List String)}
  {next : String × Record → Option α}

/-- The fields of the object that is written for a node of some kind. -/
def kindFields (node : Node) (kind : String) (fields : List (String × Json)) :
    List (String × Json) :=
  node.objectFields (("nodeType", .string kind) :: fields)

theorem lookup_kindFields (node : Node) (kind : String) (fields : List (String × Json)) :
    (node.kindFields kind fields).lookup kindField = some (.string kind) := rfl

/-- Reading the object of a node that names its kind goes on with that kind. -/
theorem bind_node? (known : kinds.find? (fun known => known.1 == kind) = some (kind, names))
    (distinct : Distinct fields)
    (restored : ∀ r : Record, r.Holds node fields → next (kind, r) = some a) :
    ((node.toJsonAs kind fields).node? kinds).bind next = some a := by
  have named : kind? kinds (.string kind) = some (kind, names) := known
  have read :
      (node.toJsonAs kind fields).node? kinds = some (kind, ⟨node.kindFields kind fields⟩) := by
    show (((node.kindFields kind fields).lookup kindField).bind (kind? kinds)).bind _ = _
    rw [lookup_kindFields, Option.bind_some, named, Option.bind_some]
    exact if_pos (Record.unambiguous_of_nodup (distinct.nodup_kind node _) _)
  rw [read]
  exact restored _ (distinct.holds_kind node _)

/-- Reading the object of a part goes on with the kind that it names. -/
theorem bind_part? {readKind : Json → Option (String × List String)}
    (named : readKind (.string kind) = some (kind, names)) (distinct : Distinct fields)
    (restored : ∀ r : Record, r.Holds node fields → next (kind, r) = some a) :
    ((node.toJsonAs kind fields).part? readKind).bind next = some a := by
  have read :
      (node.toJsonAs kind fields).part? readKind = some (kind, ⟨node.kindFields kind fields⟩) := by
    show (((node.kindFields kind fields).lookup kindField).bind readKind).bind _ = _
    rw [lookup_kindFields, Option.bind_some, named, Option.bind_some]
    exact if_pos (Record.unambiguous_of_nodup (distinct.nodup_kind node _) _)
  rw [read]
  exact restored _ (distinct.holds_kind node _)

end Node

end ContractTyping
