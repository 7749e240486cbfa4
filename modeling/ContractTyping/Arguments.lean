import ContractTyping.Ty.Conversion

/-!
# Arguments of a call

The types of the arguments, their names in a named call, and where they stand. Arguments are known
before the callee is looked at, so that they can select among overloads.
-/

namespace ContractTyping

structure Arguments where
  types : List Ty
  /-- Empty in a positional call. -/
  names : List String := []
  spans : List Span := []
deriving DecidableEq, Repr, Inhabited

namespace Arguments

def size (a : Arguments) : Nat := a.types.length

def isEmpty (a : Arguments) : Bool := a.types.isEmpty

/-- Whether an argument fits the first parameter of its name. -/
def fitsNamed (parameterNames : List String) (parameters : List Ty) (name : String) (t : Ty) :
    Bool :=
  match parameters[parameterNames.idxOf name]? with
  | some parameter => parameterNames.contains name && t.implicitlyConvertible parameter
  | none => false

/-- Whether a function can take the arguments. -/
def passableTo (a : Arguments) (f : FunctionTy) : Bool :=
  f.arbitrary ||
    a.types.length == f.parameters.length &&
      if a.names.isEmpty then
        (a.types.zip f.parameters).all fun (t, parameter) => t.implicitlyConvertible parameter
      else
        (a.names.zip a.types).all fun (name, t) => fitsNamed f.parameterNames f.parameters name t

end Arguments

end ContractTyping
