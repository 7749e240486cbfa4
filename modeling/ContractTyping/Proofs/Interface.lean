import ContractTyping.Proofs.Passing.Unit
import ContractTyping.Proofs.Struct.Containment

/-!
# Storage does not cross the interface

What is passed to a function from outside of a contract, or returned from it, is neither in storage,
nor does it contain a mapping or a struct that contains itself. Four rules work together for that:
which functions are visible from outside (`Function.IsExposed`), which locations their parameters
may be declared with (`location_of_parameter`), where a type name places the data
(`Declarations.location_of_resolve`), and what can be encoded (`Declarations.Contains.isEncodable`).
-/

namespace ContractTyping

open Check
variable {f : Function} {location : DataLocation} {t : Ty} {visibility : Visibility}
  {isReturn : Bool}

/-! ## Visible functions -/

/-- Whether a function of a contract can be called from outside, or by creating the contract. -/
def Function.IsExposed (f : Function) : Prop :=
  f.kind ≠ .function ∨ f.visibility = .pub ∨ f.visibility = .external ∨ f.visibility = .unspecified

theorem Function.IsExposed.effectiveVisibility (exposed : f.IsExposed) :
    (f.effectiveVisibility true).isExternallyVisible = true := by
  unfold Function.effectiveVisibility
  cases kind : f.kind with
  | function =>
    rcases exposed with special | isPublic | isExternal | isDefault
    · exact absurd kind special
    · rw [isPublic]
      rfl
    · rw [isExternal]
      rfl
    · rw [isDefault]
      rfl
  | _ => rfl

/-! ## Locations -/

namespace Declarations

variable {d : Declarations} {typeName : TypeName} {place : Place} {t : Ty}

theorem moveTo_of_resolve (resolved : (d.resolve typeName place).run = .ok (.ok t)) :
    t.moveTo place = t :=
  Except.ok.inj (Except.ok.inj ((resolve_moveTo typeName resolved place).symm.trans resolved))

/-- Data that a type name places is there. A mapping is in storage wherever it is named. -/
theorem location_of_resolve (resolved : (d.resolve typeName place).run = .ok (.ok t))
    (located : t.location? = some location) :
    (∃ key value, t = .mapping key value) ∨ location = place.location := by
  rw [← moveTo_of_resolve resolved] at located
  cases t with
  | mapping key value => exact .inl ⟨key, value, rfl⟩
  | byteArray | array | struct =>
    cases located
    exact .inr rfl
  | _ => cases located

end Declarations

theorem VariableTraits.place_location {traits : VariableTraits} (notState : traits.isState = false)
    (inStorage : traits.place.location = .storage) : traits.location = .storage := by
  unfold VariableTraits.place at inStorage
  rw [notState, if_neg Bool.false_ne_true] at inStorage
  cases keyword : traits.location with
  | storage => rfl
  | _ =>
    rw [keyword] at inStorage
    cases inStorage

theorem Ty.isReferenceType_of_location? (located : t.location? = some location) :
    t.isReferenceType = true := by
  cases t with
  | byteArray | array | struct | mapping => rfl
  | _ => cases located

/-- The location that a parameter of a visible function is declared with keeps it out of storage. -/
theorem location_of_parameter (visible : visibility.isExternallyVisible = true)
    {given : LocationKeyword} (isReference : t.isReferenceType = true)
    (free : locationFault? (.parameter visibility false isReturn) t given = none) :
    (∀ key value, t ≠ .mapping key value) ∧ given ≠ .storage := by
  have allowed :
    (VariableRole.parameter visibility false isReturn).allowedLocations = [.memory, .calldata] :=
    if_pos visible
  unfold locationFault? at free
  rw [allowed, isReference] at free
  constructor
  · rintro key value rfl
    cases given <;> cases free
  · rintro rfl
    cases t <;> cases free

/-! ## Parameters in a check that passes -/

namespace Check

variable {c : Context} {σ : Findings} {v : Variable} {role : VariableRole} {t : Ty}

/-- What is checked of a variable that has a type. -/
def declareAs (v : Variable) (role : VariableRole) (t : Ty) : Check Ty := do
  if let some fault := locationFault? role t v.traits.location then
    report (.invalidDataLocation fault) v.span
  requireParameter role t v.span
  annotateVariable v.id t
  return t

theorem declare_run (typed : (c.declarations.declaredType v).run = .ok (.ok t))
    (valid : t.isInvalid = false) : declare v role c σ = declareAs v role t c σ := by
  have resolved : ofExcept (c.declarations.declaredType v).run c σ = .ok (.ok t, σ) := by
    rw [ofExcept_run, typed]
    rfl
  have kept : orReject (.ok t) v.typeSpan c σ = .ok (t, σ) := rfl
  unfold declare declareAs
  rw [read_run, bind_run resolved, bind_run kept, valid]
  cases locationFault? role t v.traits.location <;> rfl

end Check

namespace Ending

variable {E : Ending} {scope : Scope}
variable {v : Variable} {role : VariableRole}

theorem Ends.declare (passes : E.Passes) (ends : E.Ends scope (declare v role) t) :
    (E.declarations.declaredType v).run = .ok (.ok t) ∧ E.found.var? v.id = some t ∧
      locationFault? role t v.traits.location = none ∧
      E.Ends scope (requireParameter role t v.span) () := by
  obtain ⟨typed, recorded⟩ := ends.declareType passes
  obtain ⟨σ, τ, calm, run, later⟩ := ends
  have valid : t.isInvalid = false := (Ty.clean_hereditary.declaredType v typed).not_isInvalid
  rw [declare_run typed valid] at run
  have ends : E.Ends scope (declareAs v role t) t := ⟨σ, τ, calm, run, later⟩
  refine ⟨typed, recorded, ?_⟩
  have recording : Advances (do annotateVariable v.id t; return t) :=
    (Advances.annotateVariable v.id t).bind fun _ => .pure _
  unfold declareAs at ends
  cases fault : locationFault? role t v.traits.location with
  | some fault' =>
    rw [fault] at ends
    obtain ⟨_, reported, -⟩ := ends.bind (.report rfl _) fun _ =>
      (Remarks.requireParameter _ _ _).advances.bind fun _ => recording
    exact absurd reported (not_report passes)
  | none =>
    rw [fault] at ends
    obtain ⟨_, required, -⟩ := ends.bind (Remarks.requireParameter _ _ _).advances
      fun _ => recording
    exact ⟨rfl, required⟩

/-- Every parameter of a function has been declared as one. -/
theorem Ends.function {contract : Option Contract}
    (ends : E.Ends { contract } (Check.function f) ()) (mem : v ∈ f.parameters ++ f.returns) :
    ∃ scope isReturn t, E.Ends scope
      (Check.declare v (.parameter (f.effectiveVisibility contract.isSome)
      (contract.any Contract.isLibrary) isReturn)) t := by
  replace ends := ends.read.within
  obtain ⟨_, parameters, ends⟩ :=
    ends.split (.of_walks fun _ => .declareAll f.parameters _) fun _ =>
    .of_walks fun _ => (Check.Walks.declareAll f.returns _).bind fun _ => .functionRest f contract
  obtain ⟨_, returns, -⟩ := ends.split (.of_walks fun _ => .declareAll f.returns _) fun _ =>
    .of_walks fun _ => .functionRest f contract
  rcases List.mem_append.mp mem with isParameter | isReturn
  · obtain ⟨t, -, declare⟩ := forall₂_mem_right parameters.declareAll.flip v isParameter
    exact ⟨_, false, t, declare⟩
  · obtain ⟨t, -, declare⟩ := forall₂_mem_right returns.declareAll.flip v isReturn
    exact ⟨_, true, t, declare⟩

theorem Ends.requireParameter (passes : E.Passes) (visible : visibility.isExternallyVisible = true)
    {span : Span}
    (ends : E.Ends scope (requireParameter (.parameter visibility false isReturn) t span) ()) :
    E.declarations.structTable.isEncodable t = true := by
  unfold Check.requireParameter at ends
  dsimp only at ends
  rw [if_pos visible] at ends
  replace ends := ends.read
  cases issue : crossingIssue? (E.context scope) t false .function with
  | some issue' =>
    rw [issue] at ends
    exact absurd ends (not_report passes)
  | none =>
    cases encodable : E.declarations.structTable.isEncodable t with
    | true => rfl
    | false =>
      have unencodable : (E.context scope).structs.isEncodable t = false := encodable
      rw [crossingIssue?, unencodable] at issue
      cases issue

/-- In a check that passes, all members of structs have a type. -/
theorem Reached.complete (reached : E.Reached) (passes : E.Passes) : E.declarations.Complete := by
  intro id s scope found v mem
  have occurs : s.members ⊆ E.unit.inventory.fields :=
    (Declarations.find?_occurs (Declarations.find?_of_struct? found)).2
  exact ((reached.yields.2 passes).fields v (occurs mem)).1

end Ending

/-- **Storage does not cross the interface.** In a check that passes, a parameter or return
parameter of a function that is visible from outside, in a contract that is no library, has a type
that is not in storage. The type contains no mapping, neither in arrays nor in members of structs,
and no struct that is met inside one of its own members. The parameter only must not be marked as a
state variable. -/
theorem interface_without_storage {unit : SourceUnit} {settings : Settings} {report : Report}
    (checked : check unit settings = .ok report) (passed : report.passed = true) {c : Contract}
    (inUnit : .contract c ∈ unit.parts) (notLibrary : c.isLibrary = false) {f : Function}
    (inContract : f ∈ c.functions) (exposed : f.IsExposed) {v : Variable}
    (isParameter : v ∈ f.parameters ++ f.returns) (notState : v.traits.isState = false) :
    ∃ t, report.annotations.var? v.id = some t ∧ t.location? ≠ some .storage ∧
      (∀ key value, ¬ (Declarations.ofUnit unit).Contains t (.mapping key value)) ∧
      ∀ id name place, (Declarations.ofUnit unit).Contains t (.struct id name place) →
        ¬ (Declarations.ofUnit unit).IsRecursive id := by
  obtain ⟨found, rfl, reached, passes⟩ := exists_reached checked passed
  have complete := reached.complete passes
  obtain ⟨_, ends, -⟩ := reached.contractPart passes inUnit (Contract.mem_functions.mp inContract)
  obtain ⟨scope, isReturn, t, declare⟩ := Ending.Ends.function ends isParameter
  rw [Option.any_some, notLibrary, Option.isSome_some] at declare
  obtain ⟨typed, recorded, free, required⟩ := declare.declare passes
  have encodable := required.requireParameter passes exposed.effectiveVisibility
  refine ⟨t, recorded, fun inStorage => ?_, fun key value contains => ?_,
    fun id name place contains => ?_⟩
  · obtain ⟨notMapping, notStorage⟩ := location_of_parameter exposed.effectiveVisibility
      (Ty.isReferenceType_of_location? inStorage) free
    obtain ⟨traits, typeName, value⟩ := v
    cases typeName with
    | none => cases typed
    | some typeName =>
      rcases Declarations.location_of_resolve typed inStorage with ⟨key, value, isMapping⟩ | isPlace
      · exact notMapping key value isMapping
      · exact notStorage (VariableTraits.place_location notState isPlace.symm)
  · exact Declarations.not_isEncodable_mapping key value (contains.isEncodable complete encodable)
  · exact Declarations.not_isRecursive_of_isEncodable complete
      (contains.isEncodable complete encodable)

/-- A list of entries, passed in calldata. -/
def entriesParameter : Variable :=
  .mk { node := ⟨⟨9⟩, .unknown⟩, name := "entries", location := .calldata }
    (some (.array ⟨⟨10⟩, .unknown⟩
      (.userDefined ⟨⟨11⟩, .unknown⟩ ⟨⟨⟨12⟩, .unknown⟩, ["Entry"], some ⟨3⟩⟩) none)) none

/-- A function that takes entries and returns one of them. -/
def postFunction : Function :=
  let node (id : Int64) : Node := ⟨⟨id⟩, .unknown⟩
  { (default : Function) with
    node := node 8, name := "post", visibility := .external
    parameters := [entriesParameter]
    returns := [.mk { node := node 13, name := "last", location := .memory }
      (some (.userDefined (node 14) ⟨node 15, ["Entry"], some ⟨3⟩⟩)) none]
    body := some (.mk (node 16) [] false) }

/-- A contract with a struct that crosses its interface. -/
def journalContract : Contract :=
  let node (id : Int64) : Node := ⟨⟨id⟩, .unknown⟩
  let member (id type : Int64) (name typeName : String) : Variable :=
    .mk { node := node id, name } (some (.elementary (node type) typeName false)) none
  ⟨node 2, "Journal", .contract, false, [], [],
    [.struct ⟨node 3, "Entry", [member 4 5 "amount" "uint256", member 6 7 "note" "bytes"]⟩,
      .function postFunction]⟩

def journalUnit : SourceUnit where
  node := ⟨⟨1⟩, .unknown⟩
  path := "journal"
  abiCoder := none
  parts := [.contract journalContract]

theorem interface_without_storage_journal :
    ∃ report, check journalUnit {} = .ok report ∧ report.passed = true ∧
      ∃ t, report.annotations.var? ⟨9⟩ = some t ∧ t.location? = some .calldata ∧
        (Declarations.ofUnit journalUnit).Contains t
          (.struct ⟨3⟩ "Journal.Entry" ⟨.calldata, true⟩) ∧
        ¬ (Declarations.ofUnit journalUnit).IsRecursive ⟨3⟩ ∧
        ∀ key value, ¬ (Declarations.ofUnit journalUnit).Contains t (.mapping key value) := by
  obtain ⟨report, checked, passed, typed⟩ : ∃ report, check journalUnit {} = .ok report ∧
      report.passed = true ∧ report.annotations.var? ⟨9⟩ =
        some (.array (.struct ⟨3⟩ "Journal.Entry" ⟨.calldata, true⟩) none ⟨.calldata, false⟩) :=
    exists_ok (by decide +kernel)
  obtain ⟨t, recorded, -, withoutMapping, finite⟩ := interface_without_storage checked passed
    (c := journalContract) (f := postFunction) (v := entriesParameter)
    (.head _) rfl (.head _) (.inr (.inr (.inl rfl))) (.head _) rfl
  cases typed.symm.trans recorded
  exact ⟨report, checked, passed, _, typed, rfl, .element (.self _),
    finite _ _ _ (.element (.self _)), withoutMapping⟩

end ContractTyping
