import ContractTyping.Proofs.Call.Arguments
import ContractTyping.Proofs.Faults
import ContractTyping.Proofs.Trace.Expression

/-!
# Options of a call

A callee can be given options in several lists, one behind the other and with parentheses in
between. Two things keep an option from being set again: within a list its name has been seen, and
from one list to the next the type of the callee says that it is set. `OptionsSet` is what options
do to a function type, and it goes on from list to list (`OptionsSet.append`): where none of the
lists has anything to report, no option is set twice (`options_set_at_most_once`).
-/

namespace ContractTyping

open Check List
variable {f : FunctionTy} {υ : Findings}

/-! ## What options do to a function -/

/-- Whether options with the given names can be set for a function, and its type with them. -/
structure OptionsSet (c : Context) (names : List String) (f g : FunctionTy) : Prop where
  known : ∀ name ∈ names, name = "salt" ∨ name = "value" ∨ name = "gas"
  once : names.Nodup
  /-- Only what is created has a salt. -/
  salt : "salt" ∈ names → f.kind = .creation ∧ c.settings.evmVersion.hasCreate2 = true ∧
    f.saltSet = false
  /-- Value goes to what can be paid, and to no code that runs for the caller or cannot change
  anything. -/
  value : "value" ∈ names → f.isPayable = true ∧ f.kind ≠ .delegateCall ∧
    f.kind ≠ .bareDelegateCall ∧ f.kind ≠ .bareStaticCall ∧ f.valueSet = false
  gas : "gas" ∈ names → f.kind ≠ .creation ∧ f.kind ≠ .message ∧ f.gasSet = false
  result : g = { f with
    saltSet := f.saltSet || names.contains "salt"
    valueSet := f.valueSet || names.contains "value"
    gasSet := f.gasSet || names.contains "gas" }

namespace OptionsSet

variable {c : Context} {names more : List String} {f g h : FunctionTy}

theorem nil (c : Context) (f : FunctionTy) : OptionsSet c [] f f := by
  constructor <;> simp

/-- What is set first is not set again: the type says so. -/
theorem append (first : OptionsSet c names f g) (second : OptionsSet c more g h) :
    OptionsSet c (names ++ more) f h := by
  obtain ⟨known, once, salt, value, gas, rfl⟩ := first
  obtain ⟨known', once', salt', value', gas', rfl⟩ := second
  have again (name : String) (mem : name ∈ names) (mem' : name ∈ more) : False := by
    rcases known name mem with rfl | rfl | rfl
    · simpa [mem] using (salt' mem').2.2
    · simpa [mem] using (value' mem').2.2.2.2
    · simpa [mem] using (gas' mem').2.2
  refine ⟨forall_mem_append.mpr ⟨known, known'⟩, nodup_append.mpr ⟨once, once', ?_⟩, ?_, ?_, ?_, ?_⟩
  · exact fun name mem other mem' same => again name mem (same ▸ mem')
  · intro mem
    rcases mem_append.mp mem with here | later
    · exact salt here
    · obtain ⟨kind, create2, unset⟩ := salt' later
      exact ⟨kind, create2, (Bool.or_eq_false_iff.mp unset).1⟩
  · intro mem
    rcases mem_append.mp mem with here | later
    · exact value here
    · obtain ⟨payable, own, bare, static, unset⟩ := value' later
      exact ⟨payable, own, bare, static, (Bool.or_eq_false_iff.mp unset).1⟩
  · intro mem
    rcases mem_append.mp mem with here | later
    · exact gas here
    · obtain ⟨creation, message, unset⟩ := gas' later
      exact ⟨creation, message, (Bool.or_eq_false_iff.mp unset).1⟩
  · simp [Bool.or_assoc]

end OptionsSet

namespace Check

variable {c : Context} {σ τ : Findings} {t : Ty}
variable {g : FunctionTy} {α : Type} {m : Check α} {span : Span} {given : List (String × Ty × Span)}

/-- An option that is accepted. -/
theorem optionsSet_of_setOption {name : String} {expected : Ty}
    (set : setOption c f name = .ok (g, expected)) : OptionsSet c [name] f g := by
  simp only [setOption, Context.requireFeature, Bind.bind, Except.bind] at set
  repeat' split at set
  all_goals cases set
  all_goals constructor <;> simp_all

/-- Remarks that look at nothing are the same whatever has been found before. -/
theorem Remarks.uniform (remarks : Remarks True False m) (c : Context) :
    (∃ fault, ∀ σ, m c σ = .error fault) ∨ ∃ a noted, ∀ σ, m c σ = .ok (a, σ.noting noted) := by
  induction remarks with
  | pure a => exact .inr ⟨a, [], fun σ => by rw [σ.noting_nil]; rfl⟩
  | bind _ _ first next =>
    rcases first with ⟨fault, fails⟩ | ⟨a, noted, runs⟩
    · exact .inl ⟨fault, fun σ => bind_error.mpr (.inl (fails σ))⟩
    · rcases next a with ⟨fault, fails⟩ | ⟨b, more, goesOn⟩
      · exact .inl ⟨fault, fun σ => (bind_run (runs σ)).trans (fails _)⟩
      · exact .inr
          ⟨b, noted ++ more, fun σ => by rw [bind_run (runs σ), goesOn, Findings.noting_noting]⟩
  | @record issue span severity _ => exact .inr ⟨(), [⟨issue, span, severity⟩], fun σ => rfl⟩
  | ask _ _ _ next => exact next c
  | structMembers _ id location =>
    have run (σ : Findings) : Check.structMembers id location c σ =
        (c.declarations.structMembers id location).map (·, σ) := ofExcept_run _
    cases found : c.declarations.structMembers id location with
    | error fault => exact .inl ⟨fault, fun σ => by rw [run, found]; rfl⟩
    | ok members => exact .inr ⟨members, [], fun σ => by rw [run, found, σ.noting_nil]; rfl⟩
  | look allowed => exact allowed.elim
  | expression? allowed => exact allowed.elim
  | fail allowed => exact allowed.elim

/-- What goes on after a report does not take it back. -/
theorem report_not_silent {issue : Issue} {a : α} (advances : Advances m)
    (run : (report issue span >>= fun _ => m) c σ = .ok (a, τ)) :
    τ.diagnostics ≠ σ.diagnostics := by
  obtain ⟨_, υ, one, two⟩ := bind_ok.mp run
  cases one
  obtain ⟨new, equal, -⟩ := (advances _ _ _ _ two).diagnostics
  simp [equal]

/-- A list of options with nothing to report. -/
theorem optionsSet_of_setOptions {before : List String}
    (run : setOptions f given before c σ = .ok (g, τ)) (silent : τ.diagnostics = σ.diagnostics) :
    OptionsSet c (given.map Prod.fst) f g := by
  induction given generalizing f before σ with
  | nil =>
    cases run
    exact .nil c _
  | cons option rest ih =>
    obtain ⟨name, t, span⟩ := option
    have goes (f : FunctionTy) (before : List String) : Advances (setOptions f rest before) :=
      (Remarks.setOptions f rest before).advances
    unfold setOptions at run
    split at run
    · exact absurd silent (report_not_silent (goes _ _) run)
    · rw [read_run] at run
      cases set : setOption c f name with
      | error issue =>
        rw [set] at run
        exact absurd silent (report_not_silent (goes _ _) run)
      | ok result =>
        obtain ⟨f', expected⟩ := result
        rw [set] at run
        have rest : setOptions f' rest (name :: before) c σ = .ok (g, τ) := by
          dsimp only at run
          unfold requireConvertible at run
          split at run
          · exact run
          · exact absurd silent (report_not_silent (goes _ _) run)
        exact (optionsSet_of_setOption set).append (ih rest silent)

/-- The options of a node with nothing to report. The type is the same in every other run. -/
theorem optionsSet_of_callOptionsType {φ χ : Findings} {t' : Ty}
    (run : callOptionsType f.toTy given span c σ = .ok (t, τ))
    (other : callOptionsType f.toTy given span c φ = .ok (t', χ))
    (silent : χ.diagnostics = φ.diagnostics) :
    ∃ g, OptionsSet c (given.map Prod.fst) f g ∧ t = g.toTy := by
  have same : t = t' := by
    rcases (Remarks.callOptionsType f.toTy given span).uniform c with
      ⟨fault, fails⟩ | ⟨a, noted, runs⟩
    · cases (fails σ).symm.trans run
    · cases (runs σ).symm.trans run
      cases (runs φ).symm.trans other
      rfl
  subst same
  unfold callOptionsType FunctionTy.toTy at other
  dsimp only at other
  split at other
  · obtain ⟨g, υ, set, other⟩ := bind_ok.mp other
    cases other
    exact ⟨g, optionsSet_of_setOptions set silent, rfl⟩
  · exact absurd silent (report_not_silent (.pure _) other)

/-- Values are recorded one by one, and stay as they are. -/
theorem expressions_recorded {es : List Expr} {types : List Ty}
    (run : expressions es c σ = .ok (types, υ)) (later : υ.Precedes τ) :
    es.map (τ.expression? ·.id) = types.map some := by
  induction es generalizing σ υ types with
  | nil =>
    cases run
    rfl
  | cons e rest ih =>
    obtain ⟨t, φ, one, run⟩ := bind_ok.mp run
    obtain ⟨others, χ, two, run⟩ := bind_ok.mp run
    cases run
    have between := (Advances.expressions rest _ _ _ _ two).trans later
    rw [map_cons, map_cons, ih two later,
      between.expression _ _ (Records.expression e {} c σ t φ one)]

theorem length_eq_of_requireNames {node : NodeId} {names values : Nat}
    (run : requireNames node names values c σ = .ok ((), τ)) : names = values := by
  unfold requireNames at run
  split at run
  · cases run
  · next even => simpa using even

end Check

/-! ## Chains of options -/

/-- The options that a node gives to its callee. -/
structure OptionList where
  node : Node
  callee : Expr
  names : List String
  values : List Expr

/-- Whether an expression is a callee with lists of options behind it, maybe in parentheses. -/
inductive OptionChain (callee : Expr) : Expr → List OptionList → Prop
  | callee : OptionChain callee callee []
  | parentheses {node : Node} {inner : Expr} {lists : List OptionList}
      (chain : OptionChain callee inner lists) :
      OptionChain callee (.tuple node [some inner] false) lists
  | options {node : Node} {inner : Expr} {lists : List OptionList} {names : List String}
      {values : List Expr} (chain : OptionChain callee inner lists) :
      OptionChain callee (.callOptions node inner names values)
        (lists ++ [⟨node, inner, names, values⟩])

/-- Whether nothing is reported about options, given the types recorded for their callee and their
values. What is reported about these does not count. -/
def OptionList.Silent (list : OptionList) (c : Context) (τ : Findings) : Prop :=
  ∃ callee, ∃ types : List Ty, τ.expression? list.callee.id = some callee ∧
    list.values.map (τ.expression? ·.id) = types.map some ∧ ∃ σ result,
      callOptionsType callee (list.names.zip (types.zip (list.values.map Expr.span)))
        list.node.span c σ = .ok result ∧ result.2.diagnostics = σ.diagnostics

/-- The findings may go on after the chain. -/
theorem OptionChain.optionsSet {callee e : Expr} {lists : List OptionList} {c : Context}
    {σ τ : Findings} {t : Ty} {demand : Demand} (chain : OptionChain callee e lists)
    (run : expression e demand c σ = .ok (t, υ))
    (later : υ.Precedes τ) (annotated : τ.expression? callee.id = some f.toTy)
    (silent : ∀ list ∈ lists, list.Silent c τ) :
    ∃ g, OptionsSet c (lists.flatMap OptionList.names) f g ∧ t = g.toTy := by
  induction chain generalizing σ υ t demand with
  | callee =>
    have recorded := later.expression _ _ (Records.expression callee demand c σ t υ run)
    exact ⟨f, .nil c f, Option.some.inj (recorded.symm.trans annotated)⟩
  | @parentheses node inner lists chain ih =>
    obtain ⟨types, φ, one, run⟩ := bind_ok.mp run
    cases annotate_value run
    have after := (Advances.annotate _ _ _ _ _ _ run).trans later
    obtain ⟨u, ψ, first, one⟩ := bind_ok.mp one
    obtain ⟨others, χ, none, one⟩ := bind_ok.mp one
    cases none
    cases one
    exact ih first after silent
  | @options node inner lists names values chain ih =>
    obtain ⟨_, φ, even, run⟩ := bind_ok.mp run
    obtain ⟨u, ψ, first, run⟩ := bind_ok.mp run
    obtain ⟨types, χ, second, run⟩ := bind_ok.mp run
    obtain ⟨t', ω, own, run⟩ := bind_ok.mp run
    cases annotate_value run
    have afterOwn := (Advances.annotate _ _ _ _ _ _ run).trans later
    have afterValues := ((Remarks.callOptionsType _ _ _).advances _ _ _ _ own).trans afterOwn
    have afterCallee := (Advances.expressions _ _ _ _ _ second).trans afterValues
    obtain ⟨others, last⟩ := forall_mem_append.mp silent
    obtain ⟨g, set, rfl⟩ := ih first afterCallee others
    have recorded := afterCallee.expression _ _ (Records.expression inner _ _ _ _ _ first)
    have recordedValues := expressions_recorded second afterValues
    have covers : names.length ≤ (types.zip (values.map Expr.span)).length := by
      have size := congrArg List.length recordedValues
      have even := length_eq_of_requireNames even
      simp only [length_map] at size
      simp [even, size]
    obtain ⟨u', types', isCallee, areValues, ρ, result, silentRun, silence⟩ :=
      forall_mem_singleton.mp last
    cases recorded.symm.trans isCallee
    cases (map_injective_iff.mpr (Option.some_injective _)) (recordedValues.symm.trans areValues)
    obtain ⟨h, more, rfl⟩ := optionsSet_of_callOptionsType own silentRun silence
    rw [map_fst_zip covers] at more
    exact ⟨h, by simpa using set.append more, rfl⟩

/-- **Options of a call.** Where nothing is reported about the lists of options behind a callee with
a function type, every option in them is one that there is and is set once, in all the lists
together, the function can take it, and the type of the whole says of each option that it is set if
the callee did or one of the lists does. All else is as for the callee. -/
theorem options_set_at_most_once (callee e : Expr) (lists : List OptionList) (f : FunctionTy)
    (demand : Demand) (c : Context) (σ τ : Findings) (t : Ty) (chain : OptionChain callee e lists)
    (run : Check.expression e demand c σ = .ok (t, τ))
    (annotated : τ.expression? callee.id = some f.toTy) (silent : ∀ list ∈ lists, list.Silent c τ) :
    ∃ g, OptionsSet c (lists.flatMap OptionList.names) f g ∧ t = g.toTy :=
  chain.optionsSet run (.refl τ) annotated silent

def payingUnit : SourceUnit := ⟨⟨⟨9⟩, .unknown⟩, "paying", none, []⟩

/-- The sender as a callee. -/
def senderCall : Expr :=
  .member ⟨⟨3⟩, .unknown⟩
    (.member ⟨⟨2⟩, .unknown⟩ (.identifier ⟨⟨1⟩, .unknown⟩ "msg" (some ⟨-15⟩) []) "sender") "call"

def senderCallTy : FunctionTy := .of .bareCall [.bytesMemory] [.bool, .bytesMemory] .payable

/-- The sender is given some value, and behind parentheses some gas. -/
def paidInParentheses : Expr :=
  .tuple ⟨⟨6⟩, .unknown⟩ [some (.callOptions ⟨⟨5⟩, .unknown⟩ senderCall ["value"]
    [.literal ⟨⟨4⟩, .unknown⟩ .number "1" none])] false

def paidCall : Expr :=
  .callOptions ⟨⟨8⟩, .unknown⟩ paidInParentheses ["gas"]
    [.literal ⟨⟨7⟩, .unknown⟩ .number "5000" none]

theorem options_set_at_most_once_paid :
    let c := Check.contextOf payingUnit {}
    ∃ t τ, Check.expression paidCall {} c {} = .ok (t, τ) ∧
    τ.expression? senderCall.id = some senderCallTy.toTy ∧
      ∃ g, OptionsSet c ["value", "gas"] senderCallTy g ∧ t = g.toTy := by
  intro c
  obtain ⟨⟨t, τ⟩, run, callee, one, inner, enough⟩ :
      ∃ result, Check.expression paidCall {} c {} = .ok result ∧
      result.2.expression? ⟨3⟩ = some senderCallTy.toTy ∧
      result.2.expression? ⟨4⟩ = some (.number .one none) ∧
      result.2.expression? ⟨6⟩ = some { senderCallTy with valueSet := true }.toTy ∧
      result.2.expression? ⟨7⟩ = some (.number ⟨⟨false, ⟨[5000]⟩⟩, ⟨[1]⟩⟩ none) :=
      exists_ok (by decide +kernel)
  refine ⟨t, τ, run, callee, options_set_at_most_once senderCall paidCall _ senderCallTy {} c {} τ t
    (.options (.parentheses (.options .callee))) run callee (List.forall_mem_cons.mpr ⟨?_, ?_⟩)⟩
  · exact ⟨_, [_], callee, congrArg (fun t => [t]) one, {}, exists_ok (by decide +kernel)⟩
  · exact List.forall_mem_singleton.mpr
      ⟨_, [_], inner, congrArg (fun t => [t]) enough, {}, exists_ok (by decide +kernel)⟩

end ContractTyping
