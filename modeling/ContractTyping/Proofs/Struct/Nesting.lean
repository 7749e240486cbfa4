import ContractTyping.Proofs.IntegerRange
import ContractTyping.Proofs.Struct.Search

/-!
# What is inside a type

A type has its element inside if it is an array, and its members if it is a struct. A struct nests
another one if a member leads to it through arrays, of any length or of fixed length only. Whether a
struct contains itself is found along these relations, whatever the table is, and so is whatever is
inside a type (`StructTable.inside_iff`).
-/

namespace ContractTyping

open Relation Ty List

namespace Ty

/-- An array and its element. Where only fixed lengths count, the array must not be dynamic. -/
inductive HasElement (fixed : Bool) : Ty → Ty → Prop
  | element {element : Ty} {length : Option Nat} {place : Place}
      (allowed : fixed = true → length.isSome = true) :
      HasElement fixed (.array element length place) element

variable {t u : Ty} {id : NodeId} {fixed : Bool}

/-- Through elements, a type that is no array leads to itself only. -/
theorem through_iff_eq (noArray : ∀ element length place, t ≠ .array element length place) :
    ReflTransGen (HasElement fixed) t u ↔ t = u := by
  refine ⟨fun path => ?_, fun same => same ▸ .refl⟩
  rcases path.cases_head with same | ⟨element, step, -⟩
  · exact same
  · cases step
    exact absurd rfl (noArray _ _ _)

/-- Through elements, an array leads to a struct if its element does. -/
theorem array_through_iff {element : Ty} {length : Option Nat} {place : Place}
    (noArray : ∀ element length place, u ≠ .array element length place) :
    ReflTransGen (HasElement fixed) (.array element length place) u ↔
      (fixed = true → length.isSome = true) ∧ ReflTransGen (HasElement fixed) element u := by
  constructor
  · intro path
    rcases path.cases_head with same | ⟨inner, step, path⟩
    · exact absurd same.symm (noArray _ _ _)
    · cases step with
      | element allowed => exact ⟨allowed, path⟩
  · rintro ⟨allowed, path⟩
    exact .head (.element allowed) path

theorem mem_structs_iff :
    id ∈ t.structs ↔ ∃ name place, ReflTransGen (HasElement false) t (.struct id name place) := by
  fun_induction structs t with
  | case1 | case3 => simp_all [through_iff_eq, eq_comm]
  | case2 element length place ih => simp [array_through_iff, ih]

theorem mem_inlineStructs_iff :
    id ∈ t.inlineStructs ↔
      ∃ name place, ReflTransGen (HasElement true) t (.struct id name place) := by
  fun_induction inlineStructs t with
  | case1 => simp [through_iff_eq, eq_comm]
  | case2 element length place ih => simp [array_through_iff, ih]
  | case3 t noStruct noFixed =>
    cases t with
    | struct => exact absurd rfl (noStruct _ _ _)
    | array element length place =>
      cases length with
      | none => simp [array_through_iff]
      | some => exact absurd rfl (noFixed _ _ _)
    | _ => simp [through_iff_eq]

/-- Through elements, a type leads to what is met in it, and to no other type but arrays. -/
theorem leaf_eq_of_through (path : ReflTransGen (HasElement false) t u) : t.leaf = u.leaf := by
  induction path with
  | refl => rfl
  | tail _ step ih =>
    cases step
    rw [ih, leaf]

theorem leaf_eq_self (noArray : ∀ element length place, t ≠ .array element length place) :
    t.leaf = t := by
  cases t with
  | array => exact absurd rfl (noArray _ _ _)
  | _ => rfl

theorem leaf_ne_array (t element : Ty) (length : Option Nat) (place : Place) :
    t.leaf ≠ .array element length place := by
  fun_induction leaf t with
  | case1 _ _ _ ih => exact ih
  | case2 t noArray => exact noArray _ _ _

theorem through_leaf (t : Ty) : ReflTransGen (HasElement false) t t.leaf := by
  fun_induction leaf t with
  | case1 element length place ih => exact .head (.element (by simp)) ih
  | case2 => exact .refl

/-- What a type that is neither an array nor a struct has to be for a value to be encoded. -/
def HasEncoding : Ty → Prop
  | array .. | struct .. => True
  | invalid | integer .. | bool | address _ | fixedBytes _ | contract _ | stringLiteral _
  | byteArray .. => True
  | function traits _ _ => traits.kind = .external
  | number value byteWidth =>
    ∃ bits signed, (number value byteWidth).mobile? = some (integer bits signed) ∧ bits ≤ 256
  | _ => False

theorem isEncodableLeaf_iff (noArray : ∀ element length place, t ≠ .array element length place) :
    t.isEncodableLeaf = true ↔ t.HasEncoding := by
  cases t with
  | array => exact absurd rfl (noArray _ _ _)
  | number value byteWidth =>
    rw [isEncodableLeaf, HasEncoding, Option.isSome_iff_exists]
    constructor
    · rintro ⟨t, concrete⟩
      obtain ⟨bits, signed, narrowest, rfl⟩ := mobile?_number concrete
      obtain ⟨-, -, -, atMost⟩ := Fraction.smallestInteger?_eq_some_iff.mp narrowest
      exact ⟨bits, signed, concrete, atMost⟩
    · rintro ⟨bits, signed, concrete, -⟩
      exact ⟨_, concrete⟩
  | _ => simp [isEncodableLeaf, HasEncoding]

end Ty

namespace StructTable

variable {table : StructTable} {t u part : Ty} {id : NodeId}

/-- What a type has directly inside: an array its element, and a struct its members. -/
inductive Inside (table : StructTable) : Ty → Ty → Prop
  | element {element : Ty} {length : Option Nat} {place : Place} :
      Inside table (.array element length place) element
  | member {id : NodeId} {name : String} {place : Place} {member : Ty}
      (mem : member ∈ table.members id) : Inside table (.struct id name place) member

/-- Whether a member of a struct leads to another struct through elements of arrays. -/
def Nests (table : StructTable) (fixed : Bool) (outer inner : NodeId) : Prop :=
  ∃ member ∈ table.members outer, ∃ name place, ReflTransGen (HasElement fixed) member
    (.struct inner name place)

theorem edge_successors : Graph.Edge table.successors = table.Nests false := by
  ext outer inner
  simp only [Graph.Edge, successors, mem_flatMap, mem_structs_iff, Nests]

theorem edge_inlineSuccessors : Graph.Edge table.inlineSuccessors = table.Nests true := by
  ext outer inner
  simp only [Graph.Edge, inlineSuccessors, mem_flatMap, mem_inlineStructs_iff, Nests]

theorem members_of_inlineSuccessors (id : NodeId) (found : table.inlineSuccessors id ≠ []) :
    table.members id ≠ [] := by
  intro none
  rw [inlineSuccessors, none] at found
  exact found rfl

theorem isRecursive_iff_nests :
    table.isRecursive id = true ↔ TransGen (table.Nests false) id id := by
  rw [isRecursive_iff, Graph.reaches_iff_transGen, edge_successors]

theorem hasInfiniteSize_iff_nests :
    table.hasInfiniteSize id = true ↔ TransGen (table.Nests true) id id := by
  rw [hasInfiniteSize, contains_iff_mem, mem_reachable_iff members_of_inlineSuccessors,
    ← Graph.reaches_iff, Graph.reaches_iff_transGen, edge_inlineSuccessors]

/-! ## The parts of a type -/

theorem inside_of_through (path : ReflTransGen (HasElement false) t u) :
    ReflTransGen table.Inside t u := by
  refine ReflTransGen.mono (fun outer inner step => ?_) _ _ path
  cases step
  exact .element

/-- The structs met in a type are inside it. -/
theorem Meets.inside (meets : table.Meets t id) :
    ∃ name place, ReflTransGen table.Inside t (.struct id name place) := by
  refine meets.induction
    (Q := fun id => ∃ name place, ReflTransGen table.Inside t (.struct id name place))
    (fun id mem => ?_) fun outer holds inner next => ?_
  · obtain ⟨name, place, path⟩ := mem_structs_iff.mp mem
    exact ⟨name, place, inside_of_through path⟩
  · obtain ⟨name, place, path⟩ := holds
    obtain ⟨member, mem, inMember⟩ := mem_flatMap.mp next
    obtain ⟨name', place', further⟩ := mem_structs_iff.mp inMember
    exact ⟨name', place', path.trans (.head (.member mem) (inside_of_through further))⟩

theorem meets_of_mem_structs (mem : part ∈ table.allParts t) (inPart : id ∈ part.structs) :
    table.Meets t id := by
  rcases mem_allParts_iff.mp mem with rfl | ⟨outer, meets, inMembers⟩
  · exact .inl inPart
  · exact meets.next (mem_flatMap.mpr ⟨part, inMembers, inPart⟩)

/-- What is inside a type is met through elements in one of its parts. -/
theorem inside_iff : ReflTransGen table.Inside t u ↔
    ∃ part ∈ table.allParts t, ReflTransGen (HasElement false) part u := by
  constructor
  · intro path
    induction path with
    | refl => exact ⟨t, mem_allParts_iff.mpr (.inl rfl), .refl⟩
    | tail _ step ih =>
      obtain ⟨part, mem, through⟩ := ih
      cases step with
      | element => exact ⟨part, mem, through.tail (.element (by simp))⟩
      | member inMembers =>
        have meets := meets_of_mem_structs mem (mem_structs_iff.mpr ⟨_, _, through⟩)
        exact ⟨_, mem_allParts_iff.mpr (.inr ⟨_, meets, inMembers⟩), .refl⟩
  · rintro ⟨part, mem, through⟩
    rcases mem_allParts_iff.mp mem with rfl | ⟨id, meets, inMembers⟩
    · exact inside_of_through through
    · obtain ⟨name, place, path⟩ := meets.inside
      exact path.trans (.head (.member inMembers) (inside_of_through through))

/-- The structs inside a type are those met in it. -/
theorem meets_iff :
    table.Meets t id ↔ ∃ name place, ReflTransGen table.Inside t (.struct id name place) := by
  refine ⟨Meets.inside, ?_⟩
  rintro ⟨name, place, path⟩
  obtain ⟨part, mem, through⟩ := inside_iff.mp path
  exact meets_of_mem_structs mem (mem_structs_iff.mpr ⟨name, place, through⟩)

/-- What is met in the parts of a type has an encoding if all that is inside has. -/
theorem forall_parts_iff : (∀ part ∈ table.allParts t, part.leaf.isEncodableLeaf = true) ↔
    ∀ u, ReflTransGen table.Inside t u → u.HasEncoding := by
  constructor
  · intro encodable u path
    obtain ⟨part, mem, through⟩ := inside_iff.mp path
    by_cases noArray : ∀ element length place, u ≠ .array element length place
    · rw [← isEncodableLeaf_iff noArray, ← leaf_eq_self noArray, ← leaf_eq_of_through through]
      exact encodable part mem
    · simp only [not_forall, not_not] at noArray
      obtain ⟨element, length, place, rfl⟩ := noArray
      trivial
  · intro encodable part mem
    have inside : ReflTransGen table.Inside t part.leaf :=
      inside_iff.mpr ⟨part, mem, part.through_leaf⟩
    exact (isEncodableLeaf_iff part.leaf_ne_array).mpr (encodable _ inside)

end StructTable

end ContractTyping
