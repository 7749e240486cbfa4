import ContractTyping.Report
import ContractTyping.Source.Reader

/-!
# The command line

`[options] AST` checks the source unit in a JSON file.

- `--evm-version NAME` and `--abi-coder NAME` choose settings.
- `--settings FILE` reads settings; those chosen by name count before them.
- `--source FILE` is the text of the source, for excerpts.
- `--json` prints the report as JSON.

An option is given at most once, its value behind it or behind an equals sign. A value in an
argument of its own does not start with a dash, unless it is a dash. After `--` there are no
options.

The exit status is 0 if the source unit passes, 1 if errors are reported, and 2 if there is no
report.
-/

namespace ContractTyping

namespace Command

structure Options where
  ast : Option String := none
  evmVersion : Option EvmVersion := none
  abiCoder : Option AbiCoder := none
  settings : Option String := none
  source : Option String := none
  json : Bool := false
deriving Inhabited

/-- Fills a slot that is still empty. -/
def fill {α : Type} (slot : Option α) (value : Option α) : Option (Option α) :=
  match slot, value with
  | none, some value => some (some value)
  | _, _ => none

/-- The name of a file, which is never empty. -/
def fileName? (text : String) : Option String := if text.isEmpty then none else some text

/-- Takes an option with a value. -/
def takeValue (o : Options) (name value : String) : Option Options :=
  match name with
  | "--evm-version" =>
    (fill o.evmVersion (EvmVersion.ofName value).toOption).map ({ o with evmVersion := · })
  | "--abi-coder" =>
    (fill o.abiCoder (AbiCoder.ofName value).toOption).map ({ o with abiCoder := · })
  | "--settings" => (fill o.settings (fileName? value)).map ({ o with settings := · })
  | "--source" => (fill o.source (fileName? value)).map ({ o with source := · })
  | _ => none

/-- Takes an argument that is no option. -/
def takePositional (o : Options) (value : String) : Option Options :=
  (fill o.ast (fileName? value)).map ({ o with ast := · })

/-- Whether an argument looks like an option. -/
def isOption (argument : String) : Bool := argument.toList.head? == some '-' && argument != "-"

/-- The name and the value of an argument with an equals sign. -/
def splitValue? (argument : String) : Option (String × String) :=
  let chars := argument.toList
  let name := chars.takeWhile (· != '=')
  match chars.drop name.length with
  | _ :: value => some (String.ofList name, String.ofList value)
  | [] => none

/-- Reads arguments. Nothing comes of arguments that do not fit. -/
def takeArguments (o : Options) : List String → Option Options
  | [] => some o
  | "--" :: rest => rest.foldlM takePositional o
  | "--json" :: rest => if o.json then none else takeArguments { o with json := true } rest
  | argument :: rest =>
    if !isOption argument then do takeArguments (← takePositional o argument) rest
    else match splitValue? argument, rest with
      | some (name, value), rest => do takeArguments (← takeValue o name value) rest
      | none, value :: rest =>
        if isOption value then none else do takeArguments (← takeValue o argument value) rest
      | none, [] => none

/-- What a run prints, and its exit status. -/
structure Outcome where
  status : UInt32
  output : String
deriving DecidableEq, Repr

def failure : Outcome := ⟨2, ""⟩

/-- The settings of a run, unless there is no such file or it does not fit. -/
def settings {m : Type → Type} [Monad m] (read : String → m (Option String)) (o : Options) :
    m (Option Settings) := do
  let base ← match o.settings with
    | none => pure (some {})
    | some file => do
      pure ((← read file).bind Settings.ofText?)
  return base.map fun s =>
    { evmVersion := o.evmVersion.getD s.evmVersion, abiCoder := o.abiCoder.getD s.abiCoder }

/-- The report of a run as it is printed. -/
def outcome (o : Options) (unit : SourceUnit) (source : Option String) (settings : Settings) :
    Outcome :=
  match check unit settings with
  | .error _ => failure
  | .ok report =>
    let output :=
      if o.json then report.toJson.sorted.pretty ++ "\n"
      else report.text (o.source.getD unit.path) source
    ⟨if report.passed then 0 else 1, output⟩

/-- Reads a file that is optional. -/
def readOptional {m : Type → Type} [Monad m] (read : String → m (Option String)) :
    Option String → m (Option (Option String))
  | none => return some none
  | some file => return (← read file).map some

/-- Runs the command, given how to read files. -/
def run {m : Type → Type} [Monad m] (read : String → m (Option String)) (arguments : List String) :
    m Outcome := do
  match takeArguments {} arguments with
  | some o =>
    let some ast := o.ast | return failure
    let some settings ← settings read o | return failure
    let some text ← read ast | return failure
    let some unit := SourceUnit.ofText? text | return failure
    let some source ← readOptional read o.source | return failure
    return outcome o unit source settings
  | none => return failure

end Command

end ContractTyping
