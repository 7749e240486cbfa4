import ContractTyping.Proofs.Struct.Dynamic
import ContractTyping.Proofs.Struct.Encoding

/-!
# The rules of the first coder

The first coder takes a type if nothing inside it varies in size. The rule for this goes level by
level, from a struct to its members and from an array to its element (`legacyWithin`), and nothing
in the rule keeps it from going round in a struct that contains itself. Where it is asked, the type
is known to have an encoding, and then no struct inside it contains itself: from a struct to a
member, fewer structs are left to be reached (`reach_member_lt`). So the rule comes to an end, with
the answer that `isLegacyEncodable` finds (`legacy_rule_exact`).
-/

namespace ContractTyping

open Relation List ReflTransGen

namespace StructTable

variable {table : StructTable} {t : Ty} {id : NodeId} {place : Place}

/-! ## What is inside -/

/-- Whether no element of an array and no member of a struct inside a type varies in size. -/
def StaticInside (table : StructTable) (t : Ty) : Prop :=
  ∀ outer inner, ReflTransGen table.Inside t outer → table.Inside outer inner →
    table.isDynamic inner = false

/-- Nothing inside varies in size if no part does that is directly inside, and nothing in these. -/
theorem staticInside_iff : table.StaticInside t ↔
    ∀ inner, table.Inside t inner → table.isDynamic inner = false ∧ table.StaticInside inner := by
  constructor
  · intro static inner inside
    exact ⟨static t inner .refl inside,
      fun outer inner' path => static outer inner' (path.head inside)⟩
  · intro parts outer inner path inside
    rcases path.cases_head with rfl | ⟨next, first, rest⟩
    · exact (parts inner inside).1
    · exact (parts next first).2 outer inner rest inside

theorem hasStaticElements_iff : table.hasStaticElements t = true ↔
    ∀ outer inner, ReflTransGen (Ty.HasElement false) t outer → Ty.HasElement false outer inner →
      table.isDynamic inner = false := by
  induction t using hasStaticElements.induct with
  | case1 element length place ih =>
    rw [hasStaticElements, Bool.and_eq_true, Bool.not_eq_true', ih]
    constructor
    · rintro ⟨static, elements⟩ outer inner path inside
      rcases path.cases_head with rfl | ⟨next, ⟨_⟩, rest⟩
      · cases inside
        exact static
      · exact elements outer inner rest inside
    · intro elements
      have first : Ty.HasElement false (.array element length place) element := .element (by simp)
      exact ⟨elements _ _ .refl first,
        fun outer inner path => elements outer inner (path.head first)⟩
  | case2 t noArray =>
    refine iff_of_true (hasStaticElements.eq_2 table t noArray) fun outer inner path inside => ?_
    cases (Ty.through_iff_eq fun _ _ _ same => noArray _ _ _ same).mp path
    cases inside
    exact absurd rfl (noArray _ _ _)

/-- The first coder can encode a type exactly if nothing inside it varies in size. -/
theorem isLegacyEncodable_iff : table.isLegacyEncodable t false = true ↔ table.StaticInside t := by
  have parts : table.isLegacyEncodable t false = true ↔
      (∀ part ∈ table.allParts t, table.hasStaticElements part = true) ∧
      ∀ id, table.Meets t id → ∀ member ∈ table.members id, table.isDynamic member = false := by
    rw [isLegacyEncodable, allParts, parts, forall_mem_cons]
    simp only [Bool.false_and, Bool.false_or, Bool.and_eq_true, all_eq_true, mem_flatMap,
      mem_reachable_iff members_of_successors, Bool.not_eq_true', Meets]
    grind
  rw [parts]
  constructor
  · rintro ⟨elements, members⟩ outer inner path inside
    obtain ⟨part, mem, through⟩ := inside_iff.mp path
    cases inside with
    | element => exact hasStaticElements_iff.mp (elements part mem) _ _ through (.element (by simp))
    | member inMembers =>
      exact members _ (meets_of_mem_structs mem (Ty.mem_structs_iff.mpr ⟨_, _, through⟩))
        _ inMembers
  · intro static
    refine ⟨fun part mem => hasStaticElements_iff.mpr fun outer inner through inside => ?_,
      fun id meets member mem => ?_⟩
    · cases inside
      exact static _ _ (inside_iff.mpr ⟨part, mem, through⟩) .element
    · obtain ⟨name, place, path⟩ := meets.inside
      exact static _ _ path (.member mem)

/-! ## The rule, level by level -/

/-- What the rule says of a type, if it comes to an end within the given number of levels. Members
are looked at in order, up to one that is refused. -/
def legacyWithin (table : StructTable) : Nat → Ty → Option Bool
  | 0, _ => none
  | depth + 1, .struct id _ _ => (table.members id).allM fun member =>
    if table.isDynamic member then some false else table.legacyWithin depth member
  | depth + 1, .array element _ _ =>
    (table.legacyWithin depth element).map (· && !table.isDynamic element)
  | _ + 1, _ => some true

/-- Whether the rule comes to an end with the answer of `isLegacyEncodable`. -/
def Decided (table : StructTable) (t : Ty) : Prop :=
  ComesTo (table.legacyWithin · t) (table.isLegacyEncodable t false)

theorem decided_array {element : Ty} {length : Option Nat} (decided : table.Decided element) :
    table.Decided (.array element length place) := by
  obtain ⟨depth, ends⟩ := decided
  have answer : table.isLegacyEncodable (.array element length place) false =
      (table.isLegacyEncodable element false && !table.isDynamic element) := by
    rw [Bool.eq_iff_iff, Bool.and_eq_true, Bool.not_eq_true', isLegacyEncodable_iff,
      isLegacyEncodable_iff, staticInside_iff]
    constructor
    · exact fun parts => (parts element .element).symm
    · rintro parts inner ⟨⟩
      exact parts.symm
  refine .of_succ depth fun more enough => ?_
  have run : table.legacyWithin more element = _ := ends more enough
  rw [legacyWithin, run, answer]
  rfl

theorem decided_struct {name : String}
    (decided : ∀ member ∈ table.members id, table.Decided member) :
    table.Decided (.struct id name place) := by
  obtain ⟨depth, ends⟩ := ComesTo.exists_common decided
  have answer : table.isLegacyEncodable (.struct id name place) false =
      (table.members id).all fun member =>
      !table.isDynamic member && table.isLegacyEncodable member false := by
    rw [Bool.eq_iff_iff, all_eq_true, isLegacyEncodable_iff, staticInside_iff]
    simp only [Bool.and_eq_true, Bool.not_eq_true', isLegacyEncodable_iff]
    constructor
    · exact fun parts member mem => parts member (.member mem)
    · intro parts inner inside
      cases inside with
      | member mem => exact parts inner mem
  refine .of_succ depth fun more enough => ?_
  rw [legacyWithin, answer]
  refine allM_eq_some fun member mem => ?_
  rw [ends more enough member mem]
  cases table.isDynamic member <;> rfl

/-- The rule stops at once where there is nothing inside. -/
theorem decided_leaf (noArray : ∀ element length place, t ≠ .array element length place)
    (noStruct : ∀ id name place, t ≠ .struct id name place) : table.Decided t := by
  have answer : table.isLegacyEncodable t false = true := by
    refine isLegacyEncodable_iff.mpr (staticInside_iff.mpr fun inner inside => ?_)
    cases inside with
    | element => exact absurd rfl (noArray _ _ _)
    | member => exact absurd rfl (noStruct _ _ _)
  refine .at_once fun more => ?_
  rw [answer, legacyWithin]
  · exact noStruct
  · exact noArray

/-- The rule comes to an end if no struct inside contains itself. -/
theorem decided_of_finite
    (finite : ∀ id, table.Meets t id → ¬ Graph.Reaches table.successors id id) :
    table.Decided t := by
  induction t using table.descent with
  | array element length place ih => exact decided_array (ih finite)
  | struct id name place members =>
    have self := finite id (meets_struct_iff.mpr (.inl rfl))
    refine decided_struct fun member mem => members self member mem fun other meets => ?_
    exact finite other (meets_struct_iff.mpr (.inr ⟨member, mem, meets⟩))
  | leaf t noArray noStruct => exact decided_leaf noArray noStruct

/-- **The rules of the first coder.** For every type with an encoding, the rule comes to an end,
with the answer of `isLegacyEncodable`. This is that no struct member and no element of an array
inside the type, at any depth, varies in size, which is to be a byte array or an array without a
length, or to have one inside. In a call of a library, whatever is in storage is taken as well. -/
theorem legacy_rule_exact (table : StructTable) (t : Ty) (encodable : table.isEncodable t = true) :
    (∃ depth, ∀ more, depth ≤ more →
      table.legacyWithin more t = some (table.isLegacyEncodable t false)) ∧
    (table.isLegacyEncodable t false = true ↔
      ∀ outer inner, ReflTransGen table.Inside t outer → table.Inside outer inner →
        table.isDynamic inner = false) ∧
    (∀ inner, table.isDynamic inner = true ↔ ∃ u, ReflTransGen table.Inside inner u ∧ u.Varies) ∧
    (table.isLegacyEncodable t true = true ↔
      t.location? = some .storage ∨ table.isLegacyEncodable t false = true) := by
  refine ⟨decided_of_finite (isEncodable_iff.mp encodable).1, isLegacyEncodable_iff,
    fun inner => isDynamic_iff, ?_⟩
  simp [isLegacyEncodable]

/-- A struct of three pairs, the pair, and a struct with a text. -/
def ledgerStructs : StructTable :=
  ⟨[(⟨1⟩, [.array (.struct ⟨2⟩ "Pair" ⟨.memory, true⟩) (some 3) ⟨.memory, true⟩]),
    (⟨2⟩, [.integer 256 false, .bool]), (⟨3⟩, [.integer 8 false, .byteArray true ⟨.memory, true⟩])]⟩

/-- An array of the first struct varies in size, but has nothing inside that does. -/
def ledgerPairs : Ty := .array (.struct ⟨1⟩ "Pairs" ⟨.memory, true⟩) none ⟨.memory, true⟩

def ledgerEntry : Ty := .struct ⟨3⟩ "Entry" ⟨.storage, true⟩

/-- The rule takes the array. It refuses the struct with a text, but for a library from storage. -/
theorem legacy_rule_ledger :
    ledgerStructs.isEncodable ledgerPairs = true ∧
    ledgerStructs.legacyWithin 5 ledgerPairs = some true ∧
    ledgerStructs.isEncodable ledgerEntry = true ∧
    ledgerStructs.isLegacyEncodable ledgerEntry false = false ∧
    ledgerStructs.isLegacyEncodable ledgerEntry true = true := by
  have encodable : ledgerStructs.isEncodable ledgerEntry = true := by decide
  obtain ⟨-, static, -, handed⟩ := legacy_rule_exact ledgerStructs ledgerEntry encodable
  refine ⟨by decide, by
    decide, encodable, Bool.eq_false_iff.mpr fun taken => ?_, handed.mpr (.inl rfl)⟩
  have text := static.mp taken _ _ .refl (.member (List.mem_cons_of_mem _ List.mem_cons_self))
  exact absurd text (by decide)

end StructTable

end ContractTyping
