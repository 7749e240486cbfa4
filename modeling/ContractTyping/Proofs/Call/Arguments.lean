import ContractTyping.Proofs.Recording
import Mathlib.Data.Fintype.EquivFin

/-!
# Passing arguments

The arguments of a call are held against parameters in two places. While the callee is still one of
several candidates, `Arguments.passableTo` only says whether a function could take the arguments.
Once the callee is known, `Check.passArguments` reports what is wrong with each of them. The two
agree (`passed_iff_passable`), but for arguments with the same name: the first place lets them pass,
the second reports them.

Neither place tests that every parameter is given. It follows by counting: there are as many
arguments as parameters, and different names have different first positions among the names of the
parameters (`Arguments.position`), so no parameter is left over.
-/

namespace ContractTyping

open List

variable {parameterNames : List String}
variable (σ : Findings)

/-- The findings with more diagnostics behind those recorded before. -/
def Findings.noting (σ : Findings) (noted : List Diagnostic) : Findings :=
  { σ with diagnostics := σ.diagnostics ++ noted }

theorem Findings.noting_nil : σ.noting [] = σ := by
  simp [noting]

theorem Findings.noting_noting (noted more : List Diagnostic) :
    (σ.noting noted).noting more = σ.noting (noted ++ more) := by
  simp [noting]

namespace Check

variable {parameters : List Ty}
variable {name : String}

/-! ## Checks that only record diagnostics -/

/-- A check does nothing but record diagnostics, and records none exactly under the condition. -/
def SilentIff (m : Check Unit) (condition : Prop) : Prop :=
  ∀ c σ, ∃ noted, m c σ = .ok ((), σ.noting noted) ∧ (noted = [] ↔ condition)

namespace SilentIff

variable {m next : Check Unit} {P Q : Prop}
variable (issue : Issue) (span : Span)

theorem congr (silent : SilentIff m P) (same : P ↔ Q) : SilentIff m Q := by
  intro c σ
  obtain ⟨noted, run, none⟩ := silent c σ
  exact ⟨noted, run, none.trans same⟩

theorem nothing (holds : P) : SilentIff (pure ()) P := by
  intro c σ
  refine ⟨[], ?_, by simp [holds]⟩
  rw [Findings.noting_nil]
  rfl

theorem report (fails : ¬ P) : SilentIff (Check.report issue span) P := by
  intro c σ
  exact ⟨[⟨issue, span, .error⟩], rfl, by simp [fails]⟩

theorem bind (first : SilentIff m P) (second : SilentIff next Q) :
    SilentIff (m >>= fun _ => next) (P ∧ Q) := by
  intro c σ
  obtain ⟨noted, run, none⟩ := first c σ
  obtain ⟨more, run', none'⟩ := second c (σ.noting noted)
  refine ⟨noted ++ more, ?_, by rw [append_eq_nil_iff, none, none']⟩
  rw [bind_run run, run', Findings.noting_noting]

/-- What is reported first is not silent, whatever comes next. -/
theorem report_bind (rest : SilentIff next Q) (fails : ¬ P) :
    SilentIff (Check.report issue span >>= fun _ => next) P :=
  ((report issue span not_false).bind rest).congr (by simp [fails])

end SilentIff

/-! ## The two loops -/

/-- Arguments are passed in silence if each converts to the parameter at its position. -/
theorem silentIff_passPositional (context : CallContext) (span : Span) (types parameters : List Ty)
    (spans : List Span) : SilentIff (passPositional context span types parameters spans)
      (∀ pair ∈ types.zip parameters, pair.1.implicitlyConvertible pair.2 = true) := by
  induction types generalizing parameters spans with
  | nil => exact .nothing (by simp)
  | cons t types ih =>
    cases parameters with
    | nil => exact .nothing (by simp)
    | cons parameter parameters =>
      unfold passPositional
      split
      · next converts => exact (ih parameters spans.tail).congr (by simp [converts])
      · next differs => exact .report_bind _ _ (ih parameters spans.tail) (by simp [differs])

/-- The first parameter of a name is one of the parameters. -/
theorem exists_parameter (complete : parameterNames.length = parameters.length)
    (known : name ∈ parameterNames) :
    ∃ parameter, parameters[parameterNames.idxOf name]? = some parameter := by
  have inside : parameterNames.idxOf name < parameters.length :=
    complete ▸ idxOf_lt_length_of_mem known
  exact ⟨_, getElem?_eq_getElem inside⟩

/-- An argument fits by its name if it converts to the first parameter of that name. -/
theorem fitsNamed_iff {t : Ty} :
    Arguments.fitsNamed parameterNames parameters name t = true ↔ name ∈ parameterNames ∧
      ∃ parameter, parameters[parameterNames.idxOf name]? = some parameter ∧
        t.implicitlyConvertible parameter = true := by
  unfold Arguments.fitsNamed
  cases parameters[parameterNames.idxOf name]? <;> simp

/-- Arguments by name are passed in silence if each fits the first parameter of its name and no name
comes again, neither among them nor among those before them. -/
theorem silentIff_passNamed (complete : parameterNames.length = parameters.length)
    (context : CallContext)
    (span : Span) (names : List String) (types : List Ty) (spans : List Span) (before : List String)
    (paired : names.length = types.length) :
    SilentIff (passNamed context span parameters parameterNames names types spans before)
      ((∀ pair ∈ names.zip types,
        Arguments.fitsNamed parameterNames parameters pair.1 pair.2 = true) ∧
        names.Nodup ∧ ∀ name ∈ names, name ∉ before) := by
  induction names generalizing types spans before with
  | nil => exact .nothing (by simp)
  | cons name names ih =>
    cases types with
    | nil => cases paired
    | cons t types =>
      have rest := ih types spans.tail (name :: before) (Nat.succ.inj paired)
      unfold passNamed
      rw [zip_cons_cons, forall_mem_cons, nodup_cons, forall_mem_cons, fitsNamed_iff]
      split
      · next again =>
        have again : name ∈ before := by simpa using again
        exact .report_bind _ _ rest fun holds => holds.2.2.1 again
      · next new =>
        have new : name ∉ before := by simpa using new
        split
        · next unknown =>
          have unknown : name ∉ parameterNames := by simpa using unknown
          exact .report_bind _ _ rest fun holds => unknown holds.1.1.1
        · next known =>
          have known : name ∈ parameterNames := by simpa using known
          obtain ⟨parameter, found⟩ := exists_parameter complete known
          simp only [found]
          split
          · next converts =>
            have later : (∀ other ∈ names, other ∉ name :: before) ↔
                name ∉ names ∧ ∀ other ∈ names, other ∉ before := by
              grind
            refine rest.congr ?_
            tauto
          · next differs =>
            refine .report_bind _ _ rest fun holds => ?_
            obtain ⟨parameter', same, converts⟩ := holds.1.1.2
            cases same
            exact differs converts

end Check

/-! ## Arguments and parameters -/

namespace Arguments

variable {a : Arguments} {f : FunctionTy}
variable {i : Nat}

/-- The position of the parameter that an argument is meant for: that of the first parameter of its
name, or its own if it has no name. -/
def position (a : Arguments) (parameterNames : List String) (i : Nat) : Nat :=
  (a.names[i]?.map parameterNames.idxOf).getD i

theorem position_of_positional (positional : a.names = [])
    (parameterNames : List String) (i : Nat) : a.position parameterNames i = i := by
  simp [position, positional]

theorem position_of_named (inside : i < a.names.length) :
    a.position parameterNames i = parameterNames.idxOf a.names[i] := by
  simp [position, inside]

/-- What a function without arbitrary parameters has to be given: as many arguments as it has
parameters, each of which fits by its position or by its name. -/
theorem passableTo_iff (fixed : f.arbitrary = false) :
    a.passableTo f = true ↔ a.types.length = f.parameters.length ∧
      if a.names = [] then
        ∀ pair ∈ a.types.zip f.parameters, pair.1.implicitlyConvertible pair.2 = true
      else
        ∀ pair ∈ a.names.zip a.types,
          fitsNamed f.parameterNames f.parameters pair.1 pair.2 = true := by
  unfold passableTo
  by_cases positional : a.names = []
  · simp [fixed, positional]
  · simp [fixed, positional]

variable (fixed : f.arbitrary = false)

include fixed

/-- A named argument that can be passed converts to the first parameter of its name. -/
theorem fits_of_named (passable : a.passableTo f = true)
    (inside : i < a.names.length) (inside' : i < a.types.length) : a.names[i] ∈ f.parameterNames ∧
      ∃ parameter, f.parameters[f.parameterNames.idxOf a.names[i]]? = some parameter ∧
        a.types[i].implicitlyConvertible parameter = true := by
  obtain ⟨-, fits⟩ := (passableTo_iff fixed).mp passable
  rw [if_neg (ne_nil_of_length_pos (Nat.zero_lt_of_lt inside))] at fits
  have mem : (a.names[i], a.types[i]) ∈ a.names.zip a.types :=
    mem_iff_getElem.mpr ⟨i, by simp [inside, inside'], by simp⟩
  exact Check.fitsNamed_iff.mp (fits _ mem)

theorem converts_of_positional (positional : a.names = [])
    (passable : a.passableTo f = true) (inside : i < a.types.length)
    (inside' : i < f.parameters.length) :
    a.types[i].implicitlyConvertible f.parameters[i] = true := by
  obtain ⟨-, fits⟩ := (passableTo_iff fixed).mp passable
  rw [if_pos positional] at fits
  have mem : (a.types[i], f.parameters[i]) ∈ a.types.zip f.parameters :=
    mem_iff_getElem.mpr ⟨i, by simp [inside, inside'], by simp⟩
  exact fits _ mem

/-- Arguments that can be passed convert to the parameters at their positions. -/
theorem converts_at_position
    (paired : a.names = [] ∨ a.names.length = a.types.length) (passable : a.passableTo f = true)
    (i : Fin a.types.length) : ∃ inside : a.position f.parameterNames i < f.parameters.length,
      (a.types.get i).implicitlyConvertible (f.parameters.get ⟨_, inside⟩) = true := by
  have count := ((passableTo_iff fixed).mp passable).1
  rcases paired with positional | paired
  · simp only [position_of_positional positional]
    have inside : i < f.parameters.length := Nat.lt_of_lt_of_eq i.isLt count
    exact ⟨inside, converts_of_positional fixed positional passable i.isLt inside⟩
  · have named : i < a.names.length := Nat.lt_of_lt_of_eq i.isLt paired.symm
    obtain ⟨-, parameter, found, converts⟩ := fits_of_named fixed passable named i.isLt
    obtain ⟨inside, same⟩ := List.getElem?_eq_some_iff.mp found
    simp only [position_of_named named]
    refine ⟨inside, ?_⟩
    rw [List.get_eq_getElem, List.get_eq_getElem, same]
    exact converts

/-- Arguments of different names are meant for different parameters. -/
theorem position_injective
    (paired : a.names = [] ∨ a.names.length = a.types.length) (passable : a.passableTo f = true)
    (different : a.names.Nodup) {j : Nat} (left : i < a.types.length) (right : j < a.types.length)
    (same : a.position f.parameterNames i = a.position f.parameterNames j) : i = j := by
  rcases paired with positional | paired
  · rwa [position_of_positional positional, position_of_positional positional] at same
  · have left' : i < a.names.length := Nat.lt_of_lt_of_eq left paired.symm
    have right' : j < a.names.length := Nat.lt_of_lt_of_eq right paired.symm
    rw [position_of_named left', position_of_named right'] at same
    have known := (fits_of_named fixed passable left' left).1
    exact (different.getElem_inj_iff).mp ((idxOf_inj known).mp same)

omit fixed

/-- Arguments that can be passed and have different names are assigned to the parameters one by one.
No parameter is left over, because there are as many arguments as parameters. -/
theorem exists_assignment (fixed : f.arbitrary = false)
    (paired : a.names = [] ∨ a.names.length = a.types.length) (passable : a.passableTo f = true)
    (different : a.names.Nodup) : ∃ assignment : Fin a.types.length → Fin f.parameters.length,
      Function.Bijective assignment ∧ (∀ i, (assignment i : Nat) = a.position f.parameterNames i) ∧
        ∀ i, (a.types.get i).implicitlyConvertible (f.parameters.get (assignment i)) = true := by
  have fits := converts_at_position fixed paired passable
  have count := ((passableTo_iff fixed).mp passable).1
  refine ⟨fun i => ⟨_, (fits i).1⟩, ?_, fun _ => rfl, fun i => (fits i).2⟩
  refine (Fintype.bijective_iff_injective_and_card _).mpr ⟨?_, by simp [count]⟩
  intro i j same
  have same := Fin.mk.inj same
  exact Fin.ext (position_injective fixed paired passable different i.isLt j.isLt same)

end Arguments

/-- The condition under which arguments are passed in silence is that the function can take them and
that no name comes twice. -/
theorem Check.silentIff_passArguments {f : FunctionTy} {a : Arguments} (fixed : f.arbitrary = false)
    (complete : f.parameterNames.length = f.parameters.length)
    (paired : a.names = [] ∨ a.names.length = a.types.length) (context : CallContext)
    (span : Span) : SilentIff (passArguments context f.parameters f.parameterNames a span)
      (a.passableTo f = true ∧ a.names.Nodup) := by
  rw [Arguments.passableTo_iff fixed]
  unfold passArguments
  split
  · next differs =>
    have differs : a.types.length ≠ f.parameters.length := by simpa [Arguments.size] using differs
    exact .report _ _ fun holds => differs holds.1.1
  · next equal =>
    have equal : a.types.length = f.parameters.length := by simpa [Arguments.size] using equal
    split
    · next positional =>
      have positional := isEmpty_iff.mp positional
      exact (silentIff_passPositional context span a.types f.parameters a.spans).congr
        (by simp [equal, positional])
    · next named =>
      have named : a.names ≠ [] := by simpa using named
      refine (silentIff_passNamed complete context span a.names a.types a.spans []
        (paired.resolve_left named)).congr ?_
      simp [equal, named]

/-- **Arguments are passed as they were chosen for.** For a function without arbitrary parameters,
passing arguments records nothing but diagnostics, and none exactly if the function can take the
arguments and their names are different. If none is recorded, then sending each argument to its
position, or to the first parameter of its name, makes a bijection between arguments and parameters,
under which every argument converts to its parameter. -/
theorem passed_iff_passable {f : FunctionTy} {a : Arguments} (fixed : f.arbitrary = false)
    (complete : f.parameterNames.length = f.parameters.length)
    (paired : a.names = [] ∨ a.names.length = a.types.length) (context : CallContext) (span : Span)
    (c : Context) (σ : Findings) :
    ∃ noted, Check.passArguments context f.parameters f.parameterNames a span c σ =
      .ok ((), σ.noting noted) ∧ (noted = [] ↔ a.passableTo f = true ∧ a.names.Nodup) ∧
      (noted = [] → ∃ assignment : Fin a.types.length → Fin f.parameters.length,
        Function.Bijective assignment ∧
        (∀ i, (assignment i : Nat) = a.position f.parameterNames i) ∧
          ∀ i, (a.types.get i).implicitlyConvertible (f.parameters.get (assignment i)) = true) := by
  obtain ⟨noted, run, silent⟩ :=
    Check.silentIff_passArguments fixed complete paired context span c σ
  refine ⟨noted, run, silent, fun none => ?_⟩
  obtain ⟨passable, different⟩ := silent.mp none
  exact Arguments.exists_assignment fixed paired passable different

/-- Named arguments in another order than the parameters. -/
theorem passed_iff_passable_swapped :
    let f : FunctionTy := { FunctionTy.of .internal [.uint256, .bool] [] .nonPayable with
      parameterNames := ["amount", "locked"] }
    let a : Arguments := { types := [.bool, .integer 8 false], names := ["locked", "amount"] }
    let c : Context := ⟨⟨default, "", none, []⟩, {}, ⟨[], []⟩, ⟨[]⟩, {}⟩
    Check.passArguments .functionCall f.parameters f.parameterNames a default c {} = .ok ((), {}) ∧
      ∃ assignment : Fin a.types.length → Fin f.parameters.length,
        Function.Bijective assignment ∧ ∀ i, (assignment i : Nat) = 1 - i := by
  intro f a c
  have passable : a.passableTo f = true := by decide +kernel
  obtain ⟨noted, run, silent, assigned⟩ :=
    passed_iff_passable (f := f) (a := a) (by decide) (by decide)
    (.inr (by decide)) .functionCall default c {}
  have none : noted = [] := silent.mpr ⟨passable, by decide⟩
  obtain ⟨assignment, bijective, position, -⟩ := assigned none
  have swapped : ∀ i : Fin a.types.length, a.position f.parameterNames i = 1 - i := by decide
  rw [none] at run
  exact ⟨run, assignment, bijective, fun i => (position i).trans (swapped i)⟩

end ContractTyping
