import ContractTyping.Proofs.Hereditary

/-!
# Types without the invalid type

A type is clean if the invalid type occurs nowhere in it. Whatever is built from clean types is
clean (`Ty.clean_hereditary`).
-/

namespace ContractTyping

variable {t : Ty} {text : String} {unit : Option Denomination}

namespace Ty

mutual

/-- Whether the invalid type occurs nowhere in a type. -/
def Clean : Ty → Prop
  | array element _ _ => element.Clean
  | mapping key value => key.Clean ∧ value.Clean
  | function _ parameters returns => CleanAll parameters ∧ CleanAll returns
  | tuple components => CleanSlots components
  | typeType actual | metaType actual => actual.Clean
  | modifier types | handle types | overloaded types => CleanAll types
  | invalid => False
  | _ => True

def CleanAll : List Ty → Prop
  | [] => True
  | t :: rest => t.Clean ∧ CleanAll rest

def CleanSlots : List (Option Ty) → Prop
  | [] => True
  | none :: rest => CleanSlots rest
  | some t :: rest => t.Clean ∧ CleanSlots rest

end

theorem cleanAll_iff {types : List Ty} : CleanAll types ↔ ∀ t ∈ types, t.Clean := by
  induction types with
  | nil => simp [CleanAll]
  | cons t rest ih => simp [CleanAll, ih]

theorem cleanSlots_iff {components : List (Option Ty)} :
    CleanSlots components ↔ ∀ t, some t ∈ components → t.Clean := by
  induction components with
  | nil => simp [CleanSlots]
  | cons component rest ih =>
    cases component with
    | none => simp [CleanSlots, ih]
    | some t => simp [CleanSlots, ih]

mutual

theorem Clean.not_isInvalid {t : Ty} (clean : t.Clean) : t.isInvalid = false := by
  match t with
  | invalid => exact clean.elim
  | tuple components => exact anyInvalid_eq_false components clean
  | integer .. | number .. | stringLiteral _ | bool | address _ | fixedBytes _ | byteArray ..
  | array .. | mapping .. | struct .. | contract _ | function .. | typeType _ | magic _ | metaType _
  | modifier _ | handle _ | overloaded _ => rfl

theorem anyInvalid_eq_false (components : List (Option Ty)) (clean : CleanSlots components) :
    anyInvalid components = false := by
  match components with
  | [] => rfl
  | none :: rest => exact anyInvalid_eq_false rest clean
  | some t :: rest =>
    have first : t.isInvalid = false := clean.1.not_isInvalid
    rw [anyInvalid, first, anyInvalid_eq_false rest clean.2]
    rfl

end

/-! ## What is built from clean types -/

theorem Clean.moveTo (clean : t.Clean) (place : Place) : (t.moveTo place).Clean := by
  fun_induction Ty.moveTo t place with
  | case1 => trivial
  | case2 place element length old ih => exact ih clean
  | case3 => trivial
  | case4 => exact clean

theorem clean_foldNumbers {op : BinaryOp} {x y : Fraction} {result : Ty}
    (found : foldNumbers op x y = some result) : result.Clean := by
  unfold foldNumbers at found
  split at found
  · cases found
    trivial
  · obtain ⟨value, -, rfl⟩ := Option.map_eq_some_iff.mp found
    trivial

end Ty

theorem clean_numberLiteralType (found : numberLiteralType text unit = .ok t) : t.Clean := by
  simp only [numberLiteralType, bind, Except.bind] at found
  repeat' split at found
  all_goals cases found
  all_goals trivial

theorem clean_literalType {kind : LiteralKind} (found : literalType kind text unit = .ok t) :
    t.Clean := by
  unfold literalType at found
  split at found
  · cases found
    trivial
  · cases found
    trivial
  · cases decoded : HexString.text? text with
    | none => rw [decoded] at found; cases found
    | some text => rw [decoded] at found; cases found; trivial
  · exact clean_numberLiteralType found

namespace Ty

theorem clean_hereditary : Hereditary Clean where
  basic {t} _ := by cases t <;> trivial
  fixedBytes _ := trivial
  struct _ _ _ := trivial
  contract _ := trivial
  magic _ := trivial
  elementary {_ _ t} found := by
    have elementary := isElementary_of_elementary? found
    cases t <;> trivial
  literal := clean_literalType
  narrowest _ := trivial
  folded _ _ _ _ := clean_foldNumbers
  inverted _ _ := trivial
  negated _ := trivial
  moveTo := Clean.moveTo
  arrayOf good _ _ _ := Clean.moveTo good _
  element good := good
  mappingOf _ keyGood valueGood := ⟨keyGood.moveTo _, valueGood.moveTo _⟩
  mapping good := good
  function := and_congr cleanAll_iff cleanAll_iff
  tuple := cleanSlots_iff
  typeType := .rfl
  metaType := .rfl
  modifier := cleanAll_iff
  handle := cleanAll_iff
  overloaded := cleanAll_iff

end Ty

end ContractTyping
