import ContractTyping.Proofs.Comparison.Unit
import ContractTyping.Proofs.ConversionRule

/-!
# Elements of inline arrays

The element type of an inline array is found by taking the elements in order. The first one gives
its concrete type. Each of the others converts to the type found so far, or that type converts to
the concrete type of the new element, which then takes its place. So an early element is only known
to convert to a type that was given up later, and at the end the type is moved to memory.

Conversions do not chain, and some elements are left behind (`Ty.Misfit`): a literal of the width of
fixed bytes, when wider ones follow, and an array that was found to be copied into a storage
reference, which differs from it by more than its place. All other elements convert to the element
type, except for what is doubtful from the start (`Ty.Unsettled`): contracts that lack a base of one
of their bases, and tuples with parts of these kinds.
-/

namespace ContractTyping

open List Ty

variable {length : Option Nat} {place : Place}

namespace Ty

variable {t concrete common joined element : Ty} {types seen rest : List Ty}

/-! ## Elements in memory -/

/-- The form that an element takes in an array in memory. -/
def asElement (t : Ty) : Ty := t.moveTo ⟨.memory, true⟩

theorem asElement_ne_invalid (valid : t ≠ invalid) : t.asElement ≠ invalid := by
  cases t with
  | invalid => exact absurd rfl valid
  | _ => nofun

theorem converts_asElement (t : Ty) : t.implicitlyConvertible t.asElement = true := by
  cases t with
  | byteArray isString place => exact byteArray_converts isString rfl
  | array element length place =>
    refine Rule.converts (.movedArray nofun rfl ?_)
    rw [moveTo_moveTo]
  | struct id name place => exact struct_converts id name rfl
  | _ => exact converts_self _

/-- Arrays that differ only in their places have the same form. -/
theorem asElement_eq_of_movedArray {source target : Ty} {origin other : Place}
    (elements : source.moveTo other = target.moveTo other) :
    (array source length origin).asElement = (array target length place).asElement :=
  congrArg (array · length _) (moveTo_eq_of_moveTo_eq elements _)

/-- An array converts to a form in memory only if it is its own. -/
theorem asElement_eq_of_converts {length : Option Nat} {place : Place} (valid : concrete ≠ invalid)
    (converts : (array element length place).implicitlyConvertible concrete.asElement = true) :
    (array element length place).asElement = concrete.asElement := by
  have own : array element length place ≠ invalid := nofun
  have rule := Rule.of_converts own (asElement_ne_invalid valid) converts
  generalize target : concrete.asElement = form at rule
  have moved : form.asElement = form := by
    rw [← target]
    exact moveTo_moveTo _ _ _
  cases rule with
  | same => exact moved
  | copiedArray => cases concrete <;> cases target
  | movedArray _ _ elements => exact (asElement_eq_of_movedArray elements).trans moved

/-! ## Elements that are left behind -/

/-- Elements that some other element keeps from converting to the element type. -/
inductive Misfit (types : List Ty) : Ty → Prop
  /-- A literal of the width of fixed bytes, beside wider ones. -/
  | literal {value : Fraction} {width size : Nat} :
      value.isZero = false → fixedBytes width ∈ types →
      fixedBytes size ∈ types → width < size → Misfit types (number value (some width))
  /-- An array, beside a storage reference to an array that differs in more than the place. -/
  | copied {element stored : Ty} {length storedLength : Option Nat} {place : Place} :
      array stored storedLength ⟨.storage, false⟩ ∈ types →
      (array element length place).asElement ≠
        (array stored storedLength ⟨.storage, false⟩).asElement →
      Misfit types (array element length place)

/-- Elements about which the others say nothing for sure. -/
inductive Unsettled (types : List Ty) : Ty → Prop
  /-- A contract that lacks a base of a base. -/
  | contract {c base other : ContractTy} : contract base ∈ types → contract other ∈ types →
      base.id ∈ c.bases → other.id ∈ base.bases → other.id ∉ c.bases → Unsettled types (contract c)
  /-- A tuple, if there are parts whose conversions cannot be chained. -/
  | tuple {components : List (Option Ty)} : ¬ Steady types → Unsettled types (tuple components)

/-! ## Concrete types -/

/-- The concrete types of some types. -/
def Concrete (types : List Ty) (concrete : Ty) : Prop := ∃ t ∈ types, t.mobile? = some concrete

/-- A concrete type is an integer, a string, or the type itself. -/
theorem Concrete.cases (given : Concrete types concrete) :
    (∃ bits signed, concrete = integer bits signed) ∨ concrete = stringMemory ∨
      concrete ∈ types := by
  obtain ⟨t, mem, mobile⟩ := given
  cases t with
  | number value width =>
    obtain ⟨bits, signed, -, rfl⟩ := mobile?_number mobile
    exact .inl ⟨bits, signed, rfl⟩
  | stringLiteral text => exact .inr (.inl (Option.some.inj mobile).symm)
  | _ =>
    cases mobile
    exact .inr (.inr mem)

theorem Concrete.ne_invalid (valid : ∀ t ∈ types, t.isInvalid = false)
    (given : Concrete types concrete) : concrete ≠ invalid := by
  obtain ⟨bits, signed, rfl⟩ | rfl | mem := given.cases
  · nofun
  · nofun
  · exact Ty.ne_invalid (valid _ mem)

theorem Concrete.wellFormed (wf : ∀ t ∈ types, t.WellFormed) (given : Concrete types concrete) :
    concrete.WellFormed := by
  obtain ⟨t, mem, mobile⟩ := given
  exact WellFormed.hereditary.mobile? (wf t mem) mobile

/-- Concrete types stay as they are. -/
theorem Concrete.mobile? (given : Concrete types concrete) : concrete.mobile? = some concrete := by
  obtain ⟨t, -, mobile⟩ := given
  cases t with
  | number value width =>
    obtain ⟨bits, signed, -, rfl⟩ := mobile?_number mobile
    rfl
  | _ =>
    cases mobile
    rfl

theorem Concrete.not_number {value : Fraction} {width : Option Nat}
    (given : Concrete types (number value width)) : False := by
  obtain ⟨bits, signed, -, same⟩ := mobile?_number given.mobile?
  cases same

/-- A type other than an integer or a string is concrete only if it is one of the types. -/
theorem Concrete.mem (given : Concrete types concrete) (notInteger : concrete.isInteger = false)
    (notBytes : concrete.isByteArray = false) : concrete ∈ types := by
  obtain ⟨bits, signed, rfl⟩ | rfl | mem := given.cases
  · cases notInteger
  · cases notBytes
  · exact mem

/-! ## Fitting elements -/

/-- Whether an element converts to the element type or is among those that may not. -/
def Fits (types : List Ty) (concrete t : Ty) : Prop :=
  t.implicitlyConvertible concrete.asElement = true ∨ Misfit types t ∨ Unsettled types t

/-- What converts to the concrete type of an element converts to its memory form, but for copies. -/
theorem fits_of_converts (valid : ∀ t ∈ types, t.isInvalid = false)
    (given : Concrete types concrete)
    (mem : t ∈ types) (converts : t.implicitlyConvertible concrete = true) :
    Fits types concrete t := by
  cases Rule.of_converts (ne_invalid (valid t mem)) (given.ne_invalid valid) converts with
  | same => exact .inl (converts_asElement t)
  | stringToArray => exact .inl (Rule.stringToArray (by decide) (by decide)).converts
  | byteArray => exact .inl (byteArray_converts _ rfl)
  | @copiedArray element targetElement length targetLength origin =>
    by_cases same : (array element length origin).asElement =
        (array targetElement targetLength ⟨.storage, false⟩).asElement
    · refine .inl ?_
      rw [← same]
      exact converts_asElement _
    · exact .inr (.inl (.copied (given.mem rfl rfl) same))
  | movedArray uncopied allowed elements =>
    refine .inl ?_
    rw [← asElement_eq_of_movedArray elements]
    exact converts_asElement _
  | struct => exact .inl (Rule.struct rfl).converts
  | _ => exact .inl converts

/-- Literals that convert to fixed bytes are left behind by wider ones, but for zero and strings. -/
theorem fits_fixedBytes {width size : Nat} (mem : fixedBytes width ∈ types)
    (mem' : fixedBytes size ∈ types) (wider : width ≤ size) (first : Rule t (fixedBytes width)) :
    Fits types (fixedBytes size) t := by
  cases first with
  | same => exact .inl (fixedBytes_converts_iff.mpr wider)
  | fixedBytes wider' => exact .inl (fixedBytes_converts_iff.mpr (wider'.trans wider))
  | stringToBytes fits => exact .inl (Rule.stringToBytes (fits.trans wider)).converts
  | @numberToBytes value literalWidth _ allowed =>
    cases zero : value.isZero with
    | true => exact .inl (Rule.numberToBytes (.inl zero)).converts
    | false =>
      obtain rfl := allowed.resolve_left (by rw [zero]; nofun)
      rcases wider.eq_or_lt with rfl | less
      · exact .inl (Rule.numberToBytes (.inr rfl)).converts
      · exact .inr (.inl (.literal zero mem mem' less))

/-- Arrays of the form of a copied one fit the copy if it has this form, or are left behind. -/
theorem fits_copiedArray {stored : Ty} {storedLength : Option Nat}
    (mem : array stored storedLength ⟨.storage, false⟩ ∈ types)
    (first : Rule t (array element length place).asElement) :
    Fits types (array stored storedLength ⟨.storage, false⟩) t := by
  by_cases same :
    (array element length place).asElement = (array stored storedLength ⟨.storage, false⟩).asElement
  · exact .inl (same ▸ first.converts)
  · have form : ∃ element' length' place', t = array element' length' place' := by
      generalize target : (array element length place).asElement = form at first
      cases target
      cases first with
      | same | movedArray => exact ⟨_, _, _, rfl⟩
    obtain ⟨element', length', place', rfl⟩ := form
    have own := @asElement_eq_of_converts (array element length place)
      element' length' place' nofun first.converts
    exact .inr (.inl (.copied mem (own ▸ same)))

/-- An element that fits stays so when the concrete type of another element takes over. -/
theorem Fits.widen (valid : ∀ t ∈ types, t.isInvalid = false) (wf : ∀ t ∈ types, t.WellFormed)
    {wider : Ty} (given : Concrete types concrete) (given' : Concrete types wider)
    (converts : concrete.implicitlyConvertible wider = true) (mem : t ∈ types)
    (fits : Fits types concrete t) : Fits types wider t := by
  rcases fits with first | unfit
  swap
  · exact .inr unfit
  have concreteValid := given.ne_invalid valid
  have rule :=
    Rule.of_converts (ne_invalid (valid t mem)) (asElement_ne_invalid concreteValid) first
  -- Only fixed bytes, contracts, copied arrays and tuples can leave an element behind.
  cases Rule.of_converts concreteValid (given'.ne_invalid valid) converts with
  | same => exact .inl first
  | integer larger =>
    refine .inl (Rule.converts ?_)
    cases rule with
    | same => exact .integer larger
    | integer larger' => exact .integer (integer_trans larger' larger)
    | numberToInteger fits =>
      have positive := (given.wellFormed wf).2.1
      exact .numberToInteger (fitsInteger_of_converts (wf _ mem).1 (by omega) fits larger)
  | numberToInteger | numberToBytes | number => exact given.not_number.elim
  | stringToBytes | stringToArray => cases given.mobile?
  | fixedBytes larger => exact fits_fixedBytes (given.mem rfl rfl) (given'.mem rfl rfl) larger rule
  | address =>
    refine .inl (Rule.converts ?_)
    cases rule with
    | same | address => exact .address
  | @contract base other ordinary ordinary' isBase =>
    cases rule with
    | same => exact .inl converts
    | @contract c _ ordinary'' _ isBase' =>
      by_cases inherited : other.id ∈ c.bases
      · exact .inl (Rule.contract ordinary'' ordinary' inherited).converts
      · exact .inr
          (.inr (.contract (given.mem rfl rfl) (given'.mem rfl rfl) isBase' isBase inherited))
  | byteArray => exact .inl first
  | copiedArray => exact fits_copiedArray (given'.mem rfl rfl) rule
  | movedArray _ _ elements =>
    refine .inl ?_
    rw [← asElement_eq_of_movedArray elements]
    exact first
  | struct =>
    refine .inl (Rule.converts ?_)
    cases rule with
    | same | struct => exact .struct rfl
  | tuple =>
    by_cases steady : Steady types
    · exact .inl (steady.trans valid wf (.member mem) (.member (given.mem rfl rfl))
        (.member (given'.mem rfl rfl)) first converts)
    · cases rule with
      | same | tuple => exact .inr (.inr (.tuple steady))
  | function allowed =>
    refine .inl (Rule.converts ?_)
    cases rule with
    | same => exact .function allowed
    | function allowed' => exact .function (CallTraits.convertible_trans allowed' allowed)

/-! ## Taking the elements in order -/

/-- The common type of elements after more of them, if they have one. -/
def joinAll : Option Ty → List Ty → Option Ty
  | common, [] => common
  | common, t :: rest => (joinElement common t).bind fun joined => joinAll (some joined) rest

/-- What is known about the elements that have been taken. -/
structure Held (types seen : List Ty) (common : Ty) : Prop where
  taken : seen ⊆ types
  concrete : Concrete types common
  fits : ∀ t ∈ seen, Fits types common t

section

variable (valid : ∀ t ∈ types, t.isInvalid = false) (wf : ∀ t ∈ types, t.WellFormed)

include valid wf

/-- An element fits its own concrete type. -/
theorem fits_mobile? (mem : t ∈ types) (mobile : t.mobile? = some concrete) :
    Fits types concrete t := by
  have reduced : t.Reduced := by
    cases t with
    | number value width => exact (wf _ mem).1
    | _ => trivial
  exact fits_of_converts valid ⟨t, mem, mobile⟩ mem (converts_mobile? reduced mobile)

theorem held_first (mem : t ∈ types) (mobile : t.mobile? = some common) :
    Held types [t] common where
  taken := cons_subset.mpr ⟨mem, nil_subset _⟩
  concrete := ⟨t, mem, mobile⟩
  fits := forall_mem_singleton.mpr (fits_mobile? valid wf mem mobile)

/-- One more element: it converts to the common type, or its concrete type takes over. -/
theorem Held.step (held : Held types seen common) (mem : t ∈ types)
    (found : joinElement (some common) t = some joined) : Held types (seen ++ [t]) joined := by
  obtain ⟨left, concrete, isLeft, isConcrete, side⟩ := exists_of_common? found
  obtain rfl := Option.some.inj (held.concrete.mobile?.symm.trans isLeft)
  have own : [t] ⊆ types := cons_subset.mpr ⟨mem, nil_subset _⟩
  have taken : seen ++ [t] ⊆ types := append_subset.mpr ⟨held.taken, own⟩
  rcases side with ⟨rfl, converts⟩ | ⟨rfl, converts⟩
  · have fits := fits_of_converts valid held.concrete mem converts
    exact ⟨taken, held.concrete, forall_mem_append.mpr ⟨held.fits, forall_mem_singleton.mpr fits⟩⟩
  · -- The elements before are only known to fit the type that is given up here.
    have given : Concrete types joined := ⟨t, mem, isConcrete⟩
    refine ⟨taken, given, forall_mem_append.mpr ⟨?_, forall_mem_singleton.mpr ?_⟩⟩
    · intro before inSeen
      exact (held.fits before inSeen).widen valid wf held.concrete given converts
        (held.taken inSeen)
    · exact fits_mobile? valid wf mem isConcrete

theorem Held.run (held : Held types seen common) (others : rest ⊆ types)
    (found : joinAll (some common) rest = some joined) : Held types (seen ++ rest) joined := by
  induction rest generalizing seen common with
  | nil =>
    cases found
    rwa [append_nil]
  | cons t rest ih =>
    obtain ⟨mem, others⟩ := cons_subset.mp others
    obtain ⟨next, stepped, found⟩ := Option.bind_eq_some_iff.mp found
    have held := ih (held.step valid wf mem stepped) others found
    rwa [append_assoc] at held

theorem held_joinAll (found : joinAll none types = some joined) : Held types types joined := by
  cases types with
  | nil => cases found
  | cons t rest =>
    obtain ⟨first, mobile, found⟩ := Option.bind_eq_some_iff.mp found
    exact (held_first valid wf mem_cons_self mobile).run valid wf (subset_cons_self t rest) found

omit wf in
/-- An element that is left behind does not convert, or the array beside it does not. -/
theorem Held.exists_of_misfit (held : Held types types common) (mem : t ∈ types)
    (misfit : Misfit types t) :
    ∃ t' ∈ types, t'.implicitlyConvertible common.asElement = false := by
  have commonValid := held.concrete.ne_invalid valid
  have form := asElement_ne_invalid commonValid
  by_contra all
  simp only [not_exists, not_and, Bool.not_eq_false] at all
  have rules (t' : Ty) (inTypes : t' ∈ types) : Rule t' common.asElement :=
    .of_converts (ne_invalid (valid t' inTypes)) form (all t' inTypes)
  cases misfit with
  | literal nonzero _ wider less =>
    have literalRule := rules _ mem
    have widerRule := rules _ wider
    generalize common.asElement = target at literalRule widerRule
    obtain ⟨size, le, rfl⟩ := widerRule.of_fixedBytes
    cases literalRule with
    | numberToBytes allowed =>
      obtain same := allowed.resolve_left (by rw [nonzero]; nofun)
      cases same
      omega
  | copied stored differs =>
    exact differs ((asElement_eq_of_converts commonValid (all _ mem)).trans
      (asElement_eq_of_converts commonValid (all _ stored)).symm)

end

end Ty

/-! ## Inline arrays -/

namespace Check

variable {c : Context} {σ τ : Findings} {element : Ty}
variable {components : List (Option Expr)}

/-- Whether a component of an inline array is there and has been recorded with a type. -/
def TypedAs (τ : Findings) (component : Option Expr) (t : Ty) : Prop :=
  ∃ e, component = some e ∧ τ.expression? e.id = some t

theorem wellFormed_of_typedAs (wf : τ.annotations.WellFormed) {types : List Ty}
    (typed : List.Forall₂ (TypedAs τ) components types) : ∀ t ∈ types, t.WellFormed := by
  intro t mem
  obtain ⟨_, -, e, -, found⟩ := forall₂_mem_right typed t mem
  exact wf.expressions _ (TypeTable.mem_of_get? found)

/-- If an element type is found, then all elements are valid, and it is their common type. -/
theorem elements_joined {common : Option Ty} {valid : Bool}
    (run : elements components common valid c σ = .ok (some (some element, true), τ)) :
    valid = true ∧ ∃ types, List.Forall₂ (TypedAs τ) components types ∧
      (∀ t ∈ types, t.isInvalid = false) ∧ joinAll common types = some element := by
  induction components generalizing common valid σ with
  | nil =>
    cases run
    exact ⟨rfl, [], .nil, forall_mem_nil _, rfl⟩
  | cons component rest ih =>
    cases component with
    | none =>
      cases run
    | some e =>
      obtain ⟨t, σ₁, typed, run⟩ := bind_ok.mp run
      split at run
      · cases (ih run).1
      · next notInvalid =>
        cases joined : joinElement common t with
        | none =>
          rw [joined] at run
          cases run
        | some next =>
          rw [joined] at run
          obtain ⟨isValid, types, others, valid, join⟩ := ih run
          have recorded : τ.expression? e.id = some t :=
            (Advances.elements rest _ _ _ _ _ _ run).expression _ _
              (Records.expression e _ _ _ _ _ typed)
          have all : joinAll common (t :: types) = some element := by
            rw [joinAll, joined]
            exact join
          exact ⟨isValid, t :: types, .cons ⟨e, rfl, recorded⟩ others,
            forall_mem_cons.mpr ⟨Bool.not_eq_true _ ▸ notInvalid, valid⟩, all⟩

/-- An array type is only found for an inline array if its elements have a common type. -/
theorem inlineArrayType_array {n : Nat} {found : Option (Option Ty × Bool)} {span : Span}
    (run : inlineArrayType n found span c σ = .ok (.array element length place, τ)) :
    ∃ common, found = some (some common, true) ∧ element = common.asElement ∧ length = some n ∧
      place = .memory := by
  unfold inlineArrayType at run
  split at run
  · cases run
  · next common =>
    cases run
    exact ⟨common, rfl, rfl, rfl, rfl⟩
  · cases run
  · cases run

/-- The common type of the elements of an inline array that is typed as an array. -/
theorem inlineArray_joined {node : Node} {demand : Demand} (run :
      expression (.tuple node components true) demand c σ = .ok (.array element length place, τ)) :
    length = some components.length ∧ place = .memory ∧ ∃ types common,
      List.Forall₂ (TypedAs τ) components types ∧ (∀ t ∈ types, t.isInvalid = false) ∧
        joinAll none types = some common ∧ element = common.asElement := by
  obtain ⟨found, σ₁, taken, run⟩ := bind_ok.mp run
  obtain ⟨type, σ₂, typed, annotated⟩ := bind_ok.mp run
  cases annotate_value annotated
  obtain ⟨common, rfl, rfl, rfl, rfl⟩ := inlineArrayType_array typed
  obtain ⟨-, types, recorded, valid, joined⟩ := elements_joined taken
  have after : σ₁.Precedes τ := (Remarks.inlineArrayType _ _ _).advances.thenAnnotate _ _ _ _ _ run
  refine ⟨rfl, rfl, types, common, recorded.imp ?_, valid, joined, rfl⟩
  rintro component t ⟨e, rfl, found⟩
  exact ⟨e, rfl, after.expression _ _ found⟩

end Check

/-- **Elements of inline arrays.** In every run that types an inline array as an array, the array is
in memory and as long as the list of its elements, and its element type is the concrete type of one
of them, moved to memory. Every element converts to it, except for literals that are left behind by
wider fixed bytes, arrays beside a storage reference to an array of another form, contracts that
lack a base of a base, and tuples in which conversions cannot be chained. Where there is a literal
or an array of these kinds, not all elements convert. -/
theorem inline_array_elements {unit : SourceUnit} {settings : Settings} {scope : Scope}
    {node : Node}
    {components : List (Option Expr)} {demand : Demand} {σ τ : Findings} {element : Ty}
    {length : Option Nat} {place : Place} (wf : σ.annotations.WellFormed)
    (run : Check.expression (.tuple node components true) demand
      { Check.contextOf unit settings with scope } σ = .ok (.array element length place, τ)) :
    τ.expression? node.id = some (.array element length place) ∧
    length = some components.length ∧ place = .memory ∧
    ∃ types, List.Forall₂ (Check.TypedAs τ) components types ∧
      (∃ concrete, Ty.Concrete types concrete ∧ element = concrete.asElement) ∧
      (∀ t ∈ types, t.implicitlyConvertible element = true ∨ Ty.Misfit types t ∨
        Ty.Unsettled types t) ∧
      ((∃ t ∈ types, Ty.Misfit types t) →
        ∃ t ∈ types, t.implicitlyConvertible element = false) := by
  have recorded := Check.Records.expression _ demand _ _ _ _ run
  obtain ⟨long, inMemory, types, common, typed, valid, joined, rfl⟩ := Check.inlineArray_joined run
  obtain ⟨-, wellFormed, -⟩ :=
    (Comparison.Tracks.expression (C := Comparison.alike unit settings settings rfl rfl)
      _ demand).result wf run
  have held := Ty.held_joinAll valid (Check.wellFormed_of_typedAs wellFormed typed) joined
  refine ⟨recorded, long, inMemory, types, typed, ⟨common, held.concrete, rfl⟩, held.fits, ?_⟩
  rintro ⟨t, mem, misfit⟩
  exact held.exists_of_misfit valid mem misfit

/-- Fixed bytes of two widths, with a literal of the smaller one between them. -/
def narrowAndWide : List (Option Expr) :=
  [some (.identifier ⟨⟨14⟩, .unknown⟩ "narrow" (some ⟨7⟩) []),
    some (.literal ⟨⟨15⟩, .unknown⟩ .number "0x1234" none),
    some (.identifier ⟨⟨16⟩, .unknown⟩ "wide" (some ⟨9⟩) [])]

/-- A contract that lists these, and an array in storage beside one in memory of length three. -/
def shelfUnit : SourceUnit :=
  let node (id : Int64) : Node := ⟨⟨id⟩, .unknown⟩
  let elementary (id : Int64) (name : String) : TypeName := .elementary (node id) name false
  let storedAndGiven : List (Option Expr) :=
    [some (.identifier (node 19) "stored" (some ⟨3⟩) []),
      some (.identifier (node 20) "given" (some ⟨21⟩) [])]
  { node := node 1
    path := "shelf"
    abiCoder := none
    parts := [.contract ⟨node 2, "Shelf", .contract, false, [], [],
      [.stateVariable (.mk { node := node 3, name := "stored", isState := true }
          (some (.array (node 4) (elementary 5 "uint256") none)) none),
        .function { (default : Function) with
          node := node 6, name := "list"
          parameters :=
            [.mk { node := node 7, name := "narrow" } (some (elementary 8 "bytes2")) none,
            .mk { node := node 9, name := "wide" } (some (elementary 10 "bytes4")) none,
            .mk { node := node 21, name := "given", location := .memory }
              (some (.array (node 22) (elementary 23 "uint256")
                (some (.literal (node 24) .number "3" none)))) none]
          body := some (.mk (node 11) [.expression (node 12) (.tuple (node 13) narrowAndWide true),
            .expression (node 17) (.tuple (node 18) storedAndGiven true)] false) }]⟩] }

theorem inline_array_elements_narrow_and_wide :
    ({} : Findings).annotations.WellFormed ∧
      ∃ τ types, Check.expression (.tuple ⟨⟨13⟩, .unknown⟩ narrowAndWide true) {}
        (Check.contextOf shelfUnit {}) {} =
          .ok (.array (.fixedBytes 4) (some 3) .memory, τ) ∧
        List.Forall₂ (Check.TypedAs τ) narrowAndWide types ∧
        ∀ t ∈ types, t.implicitlyConvertible (.fixedBytes 4) = true ∨ Ty.Misfit types t ∨
          Ty.Unsettled types t := by
  obtain ⟨⟨_, τ⟩, run, rfl⟩ :
      ∃ result, Check.expression (.tuple ⟨⟨13⟩, .unknown⟩ narrowAndWide true) {}
      (Check.contextOf shelfUnit {}) {} = .ok result ∧
      result.1 = .array (.fixedBytes 4) (some 3) .memory :=
    exists_ok (by decide +kernel)
  obtain ⟨-, -, -, types, recorded, -, fits, -⟩ :=
    inline_array_elements Comparison.wellFormed_nothing run
  exact ⟨Comparison.wellFormed_nothing, τ, types, run, recorded, fits⟩

/-- A check passes without a diagnostic, and it has typed two inline arrays of which an element does
not convert to the element type: the literal between the fixed bytes, and the array that is not as
long as the stored one may be. -/
theorem inline_array_misfits :
    let literal := Ty.number ⟨⟨false, ⟨[0x1234]⟩⟩, ⟨[1]⟩⟩ (some 2)
    let given := Ty.arrayOf .uint256 (some 3) .memory
    let row := Ty.array .uint256 none ⟨.memory, true⟩
    literal.implicitlyConvertible (.fixedBytes 4) = false ∧
    given.implicitlyConvertible row = false ∧
      ∃ report, check shelfUnit {} = .ok report ∧ report.diagnostics = [] ∧
        report.annotations.expression? ⟨13⟩ = some (.array (.fixedBytes 4) (some 3) .memory) ∧
        report.annotations.expression? ⟨15⟩ = some literal ∧
        report.annotations.expression? ⟨18⟩ = some (.array row (some 2) .memory) ∧
        report.annotations.expression? ⟨20⟩ = some given :=
  ⟨by decide +kernel, by decide +kernel, exists_ok (by decide +kernel)⟩

end ContractTyping
