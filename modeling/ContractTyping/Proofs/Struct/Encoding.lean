import ContractTyping.Proofs.Struct.Worklist
import Mathlib.Data.Finset.Card

/-!
# What can be encoded

The rule for what can be encoded goes level by level, from a struct to its members and from an array
to its element (`StructTable.encodableWithin`). Nothing in the rule remembers where it has been. But
it refuses a struct that contains itself before it goes on to the members, and from a member of any
other struct fewer structs are left to be reached (`StructTable.reach_member_lt`). So it comes to an
end, with the answer that `isEncodable` finds by a search (`StructTable.encodable_iff_inside`).
-/

namespace ContractTyping

open Relation Ty List

namespace StructTable

variable {table : StructTable} {t member : Ty} {id other : NodeId} {name : String} {place : Place}
variable {types : List Ty}

/-! ## From a struct to its members -/

/-- How many structs can be reached from a type. -/
def reach (table : StructTable) (t : Ty) : Nat :=
  (table.reachable table.successors t.structs).toFinset.card

/-- A struct reaches what is met in its members. -/
theorem reaches_iff_meets : Graph.Reaches table.successors id other ↔
    ∃ member ∈ table.members id, table.Meets member other := by
  rw [Graph.reaches_iff]
  constructor
  · rintro (next | ⟨first, next, reaches⟩)
    · obtain ⟨member, mem, inMember⟩ := mem_flatMap.mp next
      exact ⟨member, mem, .inl inMember⟩
    · obtain ⟨member, mem, inMember⟩ := mem_flatMap.mp next
      exact ⟨member, mem, .inr ⟨first, inMember, reaches⟩⟩
  · rintro ⟨member, mem, meets⟩
    exact meets.mono fun _ found => mem_flatMap.mpr ⟨member, mem, found⟩

theorem meets_struct_iff : table.Meets (.struct id name place) other ↔
    other = id ∨ ∃ member ∈ table.members id, table.Meets member other := by
  rw [← reaches_iff_meets]
  simp [Meets, Graph.ReachedFrom, structs]

/-- From a member of a struct that does not contain itself, fewer structs can be reached. -/
theorem reach_member_lt (name : String) (place : Place) (mem : member ∈ table.members id)
    (finite : ¬ Graph.Reaches table.successors id id) :
    table.reach member < table.reach (.struct id name place) := by
  have met (t : Ty) (other : NodeId) :
      other ∈ (table.reachable table.successors t.structs).toFinset ↔ table.Meets t other := by
    rw [mem_toFinset, mem_reachable_iff members_of_successors, Meets]
  refine Finset.card_lt_card
    ((Finset.ssubset_iff_of_subset fun other found => ?_).mpr ⟨id, ?_, fun found => ?_⟩)
  · exact (met _ _).mpr (meets_struct_iff.mpr (.inr ⟨member, mem, (met _ _).mp found⟩))
  · exact (met _ _).mpr (meets_struct_iff.mpr (.inl rfl))
  · exact finite (reaches_iff_meets.mpr ⟨member, mem, (met _ _).mp found⟩)

/-- What goes from elements to arrays, and from members to structs that do not contain themselves,
holds of all types. The induction is on the structs that can be reached, of which a member has
fewer; an array has those of its element. -/
theorem descent (table : StructTable) {motive : Ty → Prop}
    (array : ∀ element length place, motive element → motive (.array element length place))
    (struct : ∀ id name place, (¬ Graph.Reaches table.successors id id →
      ∀ member ∈ table.members id, motive member) → motive (.struct id name place))
    (leaf : ∀ t, (∀ element length place, t ≠ .array element length place) →
      (∀ id name place, t ≠ .struct id name place) → motive t) (t : Ty) : motive t := by
  induction count : table.reach t using Nat.strong_induction_on generalizing t with
  | _ n smaller =>
    fun_induction Ty.leaf t with
    | case1 element length place ih => exact array element length place (ih count)
    | case2 t noArray =>
      by_cases noStruct : ∀ id name place, t ≠ .struct id name place
      · exact leaf t noArray noStruct
      · simp only [not_forall, not_not] at noStruct
        obtain ⟨id, name, place, rfl⟩ := noStruct
        refine struct id name place fun finite member mem => smaller _ ?_ member rfl
        exact count ▸ reach_member_lt name place mem finite

/-! ## The rule, level by level -/

/-- What the rule says of a type, if it comes to an end within the given number of levels, which
also bounds the search for a struct in itself. Members are looked at in order, up to one that is
refused. -/
def encodableWithin (table : StructTable) : Nat → Ty → Option Bool
  | 0, _ => none
  | depth + 1, .array element _ _ => table.encodableWithin depth element
  | depth + 1, .struct id _ _ => do
    if ← table.recursiveWithin false id depth then some false
    else (table.members id).allM (table.encodableWithin depth)
  | _ + 1, t => some t.isEncodableLeaf

/-- Types that are all decided one by one are decided in order. -/
theorem allM_eq_some {p : Ty → Option Bool} {q : Ty → Bool} (each : ∀ t ∈ types, p t = some (q t)) :
    types.allM p = some (types.all q) := by
  induction types with
  | nil => rfl
  | cons t rest ih =>
    obtain ⟨first, others⟩ := forall_mem_cons.mp each
    rw [List.allM, first, all_cons]
    cases q t with
    | false => rfl
    | true => exact ih others

theorem isEncodable_struct : table.isEncodable (.struct id name place) =
    (!table.isRecursive id && (table.members id).all table.isEncodable) := by
  rw [Bool.eq_iff_iff, Bool.and_eq_true, Bool.not_eq_true', Bool.eq_false_iff, Ne, isRecursive_iff,
    all_eq_true]
  simp only [isEncodable_iff, meets_struct_iff]
  constructor
  · rintro ⟨finite, -, represented⟩
    refine ⟨finite id (.inl rfl),
      fun member mem => ⟨fun other meets => ?_, ?_, fun other meets => ?_⟩⟩
    · exact finite other (.inr ⟨member, mem, meets⟩)
    · exact represented id (.inl rfl) member mem
    · exact represented other (.inr ⟨member, mem, meets⟩)
  · rintro ⟨finite, members⟩
    refine ⟨?_, rfl, ?_⟩
    · rintro other (rfl | ⟨member, mem, meets⟩)
      · exact finite
      · exact (members member mem).1 other meets
    · rintro other (rfl | ⟨member, mem, meets⟩)
      · exact fun member mem => (members member mem).2.1
      · exact (members member mem).2.2 other meets

theorem isEncodable_leaf (noArray : ∀ element length place, t ≠ .array element length place)
    (noStruct : ∀ id name place, t ≠ .struct id name place) :
    table.isEncodable t = t.isEncodableLeaf := by
  have none (id : NodeId) : ¬ table.Meets t id := by
    rw [Meets, structs.eq_3 t noStruct noArray]
    rintro (mem | ⟨_, mem, -⟩) <;> cases mem
  rw [Bool.eq_iff_iff, isEncodable_iff, leaf_eq_self noArray]
  exact ⟨fun encodable => encodable.2.1,
    fun represented => ⟨fun id meets => absurd meets (none id), represented,
      fun id meets => absurd meets (none id)⟩⟩

/-- The rule comes to an end for every type, with the answer of `isEncodable`. -/
theorem encodable_comesTo (t : Ty) :
    ComesTo (table.encodableWithin · t) (table.isEncodable t) := by
  induction t using table.descent with
  | array element length place ih => exact ih.step fun _ => rfl
  | struct id name place members =>
    rw [isEncodable_struct]
    obtain ⟨first, searched⟩ : ComesTo (table.recursiveWithin false id) (table.isRecursive id) :=
      recursion_search isRecursive_iff_nests
    cases recursive : table.isRecursive id with
    | true =>
      refine .of_succ first fun more enough => ?_
      rw [encodableWithin, searched more enough, recursive]
      rfl
    | false =>
      have finite := mt isRecursive_iff.mpr (Bool.eq_false_iff.mp recursive)
      obtain ⟨second, ends⟩ := ComesTo.exists_common (members finite)
      refine .of_succ (max first second) fun more enough => ?_
      obtain ⟨enough, enough'⟩ := max_le_iff.mp enough
      rw [encodableWithin, searched more enough, recursive]
      exact allM_eq_some (ends more enough')
  | leaf t noArray noStruct =>
    refine .at_once fun more => ?_
    rw [isEncodable_leaf noArray noStruct, encodableWithin]
    · exact noArray
    · exact noStruct

/-! ## What the answer means -/

theorem isEncodable_iff_inside : table.isEncodable t = true ↔
    (∀ id name place, ReflTransGen table.Inside t (.struct id name place) →
      ¬ TransGen (table.Nests false) id id) ∧
    ∀ u, ReflTransGen table.Inside t u → u.HasEncoding := by
  have parts : (∀ part ∈ table.allParts t, part.leaf.isEncodableLeaf = true) ↔
      t.leaf.isEncodableLeaf = true ∧
      ∀ id, table.Meets t id → ∀ member ∈ table.members id, member.leaf.isEncodableLeaf = true := by
    simp only [mem_allParts_iff]
    grind
  rw [isEncodable_iff, ← parts, forall_parts_iff]
  simp only [Graph.reaches_iff_transGen, edge_successors, meets_iff, forall_exists_index]

/-- A literal in lowest terms has an encoding exactly if a type of at most 256 bits holds it. -/
theorem hasEncoding_number_iff {value : Fraction} {byteWidth : Option Nat}
    (lowest : value.LowestTerms) : (Ty.number value byteWidth).HasEncoding ↔
      ∃ bits signed, 0 < bits ∧ bits ≤ 256 ∧ ∃ z ∈ Ty.range bits signed, value.value = z := by
  constructor
  · rintro ⟨bits, signed, concrete, atMost⟩
    obtain ⟨bits, signed, narrowest, same⟩ := Ty.mobile?_number concrete
    cases same
    obtain ⟨-, -, rounded, -⟩ := Fraction.smallestInteger?_eq_some_iff.mp narrowest
    have positive : 0 < bits := rounded ▸ Fraction.roundedWidth_pos _
    have fits := Fraction.fitsInteger_of_smallestInteger? lowest narrowest
    exact ⟨bits, signed, positive, atMost, (Fraction.fitsInteger_iff_range lowest positive).mp fits⟩
  · rintro ⟨bits, signed, positive, atMost, holds⟩
    have fits := (Fraction.fitsInteger_iff_range lowest positive).mpr holds
    have given := Fraction.smallestInteger?_ne_none lowest positive atMost fits
    obtain ⟨⟨width, sign⟩, narrowest⟩ := Option.ne_none_iff_exists'.mp given
    obtain ⟨-, -, -, narrow⟩ := Fraction.smallestInteger?_eq_some_iff.mp narrowest
    exact ⟨width, sign, by rw [Ty.mobile?, narrowest]; rfl, narrow⟩

/-- **Encoding.** For every type, the rule comes to an end. It says that a type can be encoded
exactly if no struct inside it contains itself, and each type inside it that is neither a struct nor
an array is one with an encoding. A literal in lowest terms has one exactly if an integer type of at
most 256 bits holds its value. -/
theorem encodable_iff_inside (table : StructTable) (t : Ty) :
    ComesTo (table.encodableWithin · t) (table.isEncodable t) ∧
    (table.isEncodable t = true ↔
      (∀ id name place, ReflTransGen table.Inside t (.struct id name place) →
        ¬ TransGen (table.Nests false) id id) ∧
      ∀ u, ReflTransGen table.Inside t u → u.HasEncoding) ∧
    ∀ value byteWidth, value.LowestTerms →
      ((Ty.number value byteWidth).HasEncoding ↔
        ∃ bits signed, 0 < bits ∧ bits ≤ 256 ∧ ∃ z ∈ Ty.range bits signed, value.value = z) :=
  ⟨encodable_comesTo t, isEncodable_iff_inside, fun _ _ lowest => hasEncoding_number_iff lowest⟩

end StructTable

end ContractTyping
