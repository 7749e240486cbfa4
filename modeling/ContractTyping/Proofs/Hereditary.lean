import ContractTyping.Proofs.Builtin

/-!
# Properties of types that are passed on

Types are built from types: data is moved, operands have a common type, calls return what a function
returns. A property of types is hereditary (`Ty.Hereditary`) if types whose parts have it have it as
well. What is proved here about hereditary properties is everything that operations on types do:
whatever they make from types with the property has it again.
-/

namespace ContractTyping

open List Option Ty

variable {t left right common : Ty} {op : BinaryOp} {result : Ty} {name : String}
  {candidates : List Candidate}
variable {actuals : List Ty} {arguments : Option Arguments}

namespace Ty

/-- A property of types that is passed on from the parts of a type to the type, and back. -/
structure Hereditary (G : Ty → Prop) : Prop where
  basic {t : Ty} (isBasic : t.isBasic = true) : G t
  fixedBytes {size : Nat} (fits : 1 ≤ size ∧ size ≤ 32) : G (fixedBytes size)
  struct (id : NodeId) (name : String) (place : Place) : G (struct id name place)
  contract (c : ContractTy) : G (contract c)
  magic (kind : MagicKind) : G (magic kind)
  elementary {name : String} {payable : Bool} {t : Ty} (found : elementary? name payable = .ok t) :
    G t
  literal {kind : LiteralKind} {text : String} {unit : Option Denomination} {t : Ty}
    (found : literalType kind text unit = .ok t) : G t
  narrowest {value : Fraction} {bits : Nat} {signed : Bool}
    (found : value.smallestInteger? = some (bits, signed)) : G (integer bits signed)
  folded {x y : Fraction} {width width' : Option Nat} (left : G (number x width))
    (right : G (number y width'))
    {op : BinaryOp} {t : Ty} (found : foldNumbers op x y = some t) : G t
  inverted {x y : Fraction} {width : Option Nat} (operand : G (number x width))
    (found : x.bitNot = some y) : G (number y none)
  negated {x : Fraction} {width : Option Nat} (operand : G (number x width)) : G (number x.neg none)
  moveTo {t : Ty} (good : G t) (place : Place) : G (t.moveTo place)
  arrayOf {element : Ty} (good : G element) {length : Option Nat}
    (positive : ∀ n, length = some n → 1 ≤ n)
    (location : DataLocation) : G (arrayOf element length location)
  element {element : Ty} {length : Option Nat} {place : Place}
    (good : G (array element length place)) : G element
  mappingOf {key value : Ty} (allowed : key.isValueType || key.isByteArray) (keyGood : G key)
    (valueGood : G value) : G (mappingOf key value)
  mapping {key value : Ty} (good : G (mapping key value)) : G key ∧ G value
  function {traits : CallTraits} {parameters returns : List Ty} :
    G (function traits parameters returns) ↔ (∀ t ∈ parameters, G t) ∧ ∀ t ∈ returns, G t
  tuple {components : List (Option Ty)} : G (tuple components) ↔ ∀ t, some t ∈ components → G t
  typeType {t : Ty} : G (typeType t) ↔ G t
  metaType {t : Ty} : G (metaType t) ↔ G t
  modifier {types : List Ty} : G (modifier types) ↔ ∀ t ∈ types, G t
  handle {types : List Ty} : G (handle types) ↔ ∀ t ∈ types, G t
  overloaded {types : List Ty} : G (overloaded types) ↔ ∀ t ∈ types, G t

namespace Hereditary

variable {G : Ty → Prop}

theorem any : Hereditary fun _ => True := by
  constructor <;> simp

/-- A property that is asked for on a condition. -/
theorem imp (hereditary : Hereditary G) (given : Prop) : Hereditary fun t => given → G t := by
  by_cases holds : given
  · simpa only [holds, forall_const] using hereditary
  · simpa only [holds, false_implies] using any

end Hereditary

/-! ## What operations do -/

/-- Only the last place that data is moved to counts. -/
theorem moveTo_moveTo (t : Ty) (place other : Place) :
    (t.moveTo place).moveTo other = t.moveTo other := by
  fun_induction moveTo t place generalizing other with
  | case1 | case3 => rfl
  | case2 place element length old ih => exact congrArg (array · length other) (ih _)
  | case4 => rfl

/-- A common type is the concrete type of one side, and the other side converts to it. -/
theorem exists_of_common? (found : common? left right = some common) :
    ∃ leftMobile rightMobile, left.mobile? = some leftMobile ∧ right.mobile? = some rightMobile ∧
      (common = leftMobile ∧ right.implicitlyConvertible common = true ∨
        common = rightMobile ∧ left.implicitlyConvertible common = true) := by
  obtain ⟨leftMobile, leftFound, found⟩ := bind_eq_some_iff.mp found
  obtain ⟨rightMobile, rightFound, found⟩ := bind_eq_some_iff.mp found
  refine ⟨leftMobile, rightMobile, leftFound, rightFound, ?_⟩
  split at found
  · next converts =>
    cases found
    exact .inl ⟨rfl, converts⟩
  · obtain ⟨converts, same⟩ := ite_none_right_eq_some.mp found
    cases same
    exact .inr ⟨rfl, converts⟩

theorem mobile?_of_common? (found : common? left right = some common) :
    left.mobile? = some common ∨ right.mobile? = some common := by
  obtain ⟨leftMobile, rightMobile, leftFound, rightFound, side⟩ := exists_of_common? found
  rcases side with ⟨rfl, -⟩ | ⟨rfl, -⟩
  · exact .inl leftFound
  · exact .inr rightFound

theorem mobile?_of_shifted? (found : shifted? op left right = some result) :
    left.mobile? = some result := by
  obtain ⟨base, baseFound, found⟩ := bind_eq_some_iff.mp found
  obtain ⟨-, equal⟩ := ite_none_right_eq_some.mp found
  cases equal
  exact baseFound

/-- An operator on a common type gives that type or a truth value. -/
theorem eq_of_onCommon? (found : onCommon? op common = some result) :
    result = common ∨ result = bool := by
  unfold onCommon? at found
  repeat' split at found
  all_goals cases found
  all_goals first | exact .inl rfl | exact .inr rfl

/-- The types in a list of types are its components. -/
theorem mem_of_actuals? (found : t.actuals? = some actuals) :
    ∀ actual ∈ actuals, t = typeType actual ∨
      ∃ components, t = tuple components ∧ some (typeType actual) ∈ components := by
  unfold actuals? at found
  split at found
  · cases found
    exact forall_mem_singleton.mpr (.inl rfl)
  · next components =>
    suffices inside : ∀ actual ∈ actuals, some (typeType actual) ∈ components from
      fun actual mem => .inr ⟨components, rfl, inside actual mem⟩
    induction components generalizing actuals with
    | nil =>
      cases found
      exact forall_mem_nil _
    | cons component rest ih =>
      rw [mapM_cons] at found
      obtain ⟨actual, first, found⟩ := bind_eq_some_iff.mp found
      obtain ⟨others, more, equal⟩ := bind_eq_some_iff.mp found
      cases equal
      split at first
      · cases first
        exact forall_mem_cons.mpr
          ⟨mem_cons_self, fun actual mem => mem_cons_of_mem _ (ih more actual mem)⟩
      · cases first
  · cases found

/-! ## Types of words -/

/-- The types that have a word of their own. -/
def isElementary : Ty → Bool
  | bool | address _ | byteArray .. | integer .. | fixedBytes _ => true
  | _ => false

theorem isElementary_of_sized? {word : List Char} (found : sized? word = some t) :
    t.isElementary = true := by
  unfold sized? at found
  split at found
  · obtain ⟨bits, -, rfl⟩ := map_eq_some_iff.mp found
    rfl
  · obtain ⟨bits, -, rfl⟩ := map_eq_some_iff.mp found
    rfl
  · obtain ⟨size, -, rfl⟩ := map_eq_some_iff.mp found
    rfl
  · cases found

theorem isElementary_of_elementary? {payable : Bool} (found : elementary? name payable = .ok t) :
    t.isElementary = true := by
  unfold elementary? at found
  split at found
  case h_6 =>
    split at found
    · next sized => cases found; exact isElementary_of_sized? sized
    · split at found <;> cases found
  all_goals cases found; rfl

end Ty

/-! ## Candidates -/

namespace Candidate

theorem mem_of_mem_distinct {c : Candidate} (mem : c ∈ distinct candidates) : c ∈ candidates := by
  have step (rest kept : List Candidate) (mem : c ∈ rest.foldl
        (fun kept c => if kept.any fun c' => c'.overlaps c then kept else kept ++ [c]) kept) :
      c ∈ kept ∨ c ∈ rest := by
    induction rest generalizing kept with
    | nil => exact .inl mem
    | cons first rest ih =>
      rcases ih _ mem with early | late
      · dsimp only at early
        split at early
        · exact .inl early
        · rcases mem_append.mp early with before | added
          · exact .inl before
          · exact .inr (mem_singleton.mp added ▸ mem_cons_self)
      · exact .inr (mem_cons_of_mem _ late)
  exact (step candidates [] mem).resolve_left not_mem_nil

/-- A selection is one of the candidates or all of them that are left. -/
theorem mem_of_select {contract : Option NodeId}
    (selected : select name contract candidates arguments = .ok t) :
    (∃ c ∈ candidates, t = c.type) ∨
      ∃ several ⊆ candidates, t = .overloaded (several.map Candidate.type) := by
  have kept : distinct (candidates.filter fun c => !c.isHidden contract) ⊆ candidates :=
    fun c mem => (mem_filter.mp (mem_of_mem_distinct mem)).1
  unfold select at selected
  generalize distinct (candidates.filter fun c => !c.isHidden contract) = several at kept selected
  split at selected
  · cases selected
    exact .inl ⟨_, kept mem_cons_self, rfl⟩
  · cases selected
  · cases selected
    exact .inr ⟨_, kept, rfl⟩
  · split at selected
    · cases selected
    · next c equal =>
      cases selected
      have mem : c ∈ several.filter (accepts _) := equal ▸ mem_cons_self
      exact .inl ⟨c, kept (mem_filter.mp mem).1, rfl⟩
    · cases selected

end Candidate

/-! ## What is built -/

namespace Ty.Hereditary

variable {G : Ty → Prop} (hereditary : Hereditary G)

include hereditary

theorem uint256 : G uint256 := hereditary.basic rfl

theorem calldataToMemory (good : G t) : G t.calldataToMemory := by
  unfold Ty.calldataToMemory
  split
  · exact hereditary.moveTo good _
  · exact good

theorem conversionTarget {target : Ty} (good : G target) (argument : Ty) :
    G (argument.conversionTarget target) := by
  unfold Ty.conversionTarget
  split
  · split <;> exact hereditary.moveTo good _
  · exact good

theorem getterParts (good : G t) : (∀ u ∈ t.getterParts.1, G u) ∧ G t.getterParts.2 := by
  fun_induction Ty.getterParts t with
  | case1 key value parameters result equal ih =>
    rw [equal] at ih
    obtain ⟨keyGood, valueGood⟩ := hereditary.mapping good
    exact ⟨forall_mem_cons.mpr ⟨hereditary.moveTo keyGood _, (ih valueGood).1⟩, (ih valueGood).2⟩
  | case2 element length place parameters result equal ih =>
    rw [equal] at ih
    have elementGood := hereditary.element good
    exact ⟨forall_mem_cons.mpr ⟨hereditary.uint256, (ih elementGood).1⟩, (ih elementGood).2⟩
  | case3 => exact ⟨forall_mem_nil _, good⟩

theorem resultOf {types : List Ty} (good : ∀ t ∈ types, G t) : G (FunctionTy.resultOf types) := by
  unfold FunctionTy.resultOf
  split
  · exact good _ mem_cons_self
  · refine hereditary.tuple.mpr fun t mem => ?_
    obtain ⟨t', inTypes, equal⟩ := mem_map.mp mem
    cases equal
    exact good t inTypes

theorem mobile? {mobile : Ty} (good : G t) (found : t.mobile? = some mobile) : G mobile := by
  unfold Ty.mobile? at found
  split at found
  · obtain ⟨width, narrowest, rfl⟩ := map_eq_some_iff.mp found
    exact hereditary.narrowest narrowest
  · cases found
    exact hereditary.basic rfl
  · cases found
    exact good

theorem common? (leftGood : G left) (rightGood : G right)
    (found : common? left right = some common) : G common := by
  rcases mobile?_of_common? found with leftFound | rightFound
  · exact hereditary.mobile? leftGood leftFound
  · exact hereditary.mobile? rightGood rightFound

theorem joinElement {common : Option Ty} {joined : Ty}
    (commonGood : ∀ current, common = some current → G current) (good : G t)
    (found : joinElement common t = some joined) : G joined := by
  cases common with
  | none => exact hereditary.mobile? good found
  | some current => exact hereditary.common? (commonGood current rfl) good found

theorem binaryResult? (leftGood : G left) (rightGood : G right)
    (found : binaryResult? op left right = some result) : G result := by
  unfold Ty.binaryResult? at found
  split at found
  · exact hereditary.folded leftGood rightGood found
  · split at found
    · exact hereditary.mobile? leftGood (mobile?_of_shifted? found)
    · obtain ⟨common, commonFound, found⟩ := bind_eq_some_iff.mp found
      rcases eq_of_onCommon? found with rfl | rfl
      · exact hereditary.common? leftGood rightGood commonFound
      · exact hereditary.basic rfl

theorem unaryResult? {op : UnaryOp} {operand : Ty} (good : G operand)
    (found : unaryResult? op operand = some result) : G result := by
  unfold Ty.unaryResult? at found
  split at found
  case h_1 =>
    cases found
    exact hereditary.tuple.mpr nofun
  case h_5 =>
    obtain ⟨value, given, rfl⟩ := map_eq_some_iff.mp found
    exact hereditary.inverted good given
  case h_7 =>
    cases found
    exact hereditary.negated good
  all_goals cases found
  all_goals exact good

theorem actuals? (good : G t) (found : t.actuals? = some actuals) :
    ∀ actual ∈ actuals, G actual := by
  intro actual mem
  rcases mem_of_actuals? found actual mem with rfl | ⟨components, rfl, inside⟩
  · exact hereditary.typeType.mp good
  · exact hereditary.typeType.mp (hereditary.tuple.mp good _ inside)

theorem global {g : Global} {contract : Option ContractTy} (found : g.type? contract = some t) :
    G t := by
  have basics {types : List Ty} (all : types.all fun t => t.isBasic || t == .fixedBytes 20) :
      ∀ t ∈ types, G t := by
    intro t mem
    rcases Bool.or_eq_true_iff.mp (all_eq_true.mp all t mem) with isBasic | isHash
    · exact hereditary.basic isBasic
    · cases eq_of_beq isHash
      exact hereditary.fixedBytes (by decide)
  unfold Global.type? at found
  split at found
  case h_1 | h_2 | h_3 | h_4 =>
    cases found
    exact hereditary.magic _
  case h_5 | h_6 =>
    obtain ⟨c, -, rfl⟩ := map_eq_some_iff.mp found
    exact hereditary.contract _
  all_goals
    cases found
    exact hereditary.function.mpr ⟨basics rfl, basics rfl⟩

theorem passes {base t : Ty} (good : G base) (passes : base.Passes t) : G t := by
  cases passes with
  | basic isBasic => exact hereditary.basic isBasic
  | element isArray place =>
    subst isArray
    exact hereditary.moveTo (hereditary.element good) place

/-- What the language supplies to a type with the property has the property. -/
theorem supplies {base t : Ty} (good : G base) (supplies : base.Supplies t) : G t := by
  cases supplies with
  | basic isBasic => exact hereditary.basic isBasic
  | actual isMeta =>
    subst isMeta
    exact hereditary.metaType.mp good
  | function _ passed returned =>
    exact hereditary.function.mpr ⟨fun t mem => hereditary.passes good (passed t mem),
      fun t mem => hereditary.passes good (returned t mem)⟩

theorem select {contract : Option NodeId} (good : ∀ c ∈ candidates, G c.type)
    (selected : Candidate.select name contract candidates arguments = .ok t) :
    G t := by
  rcases Candidate.mem_of_select selected with ⟨c, mem, rfl⟩ | ⟨several, inside, rfl⟩
  · exact good c mem
  · exact hereditary.overloaded.mpr (forall_mem_map.mpr fun c mem => good c (inside mem))

/-- Setting an option changes no types. -/
theorem setOption {context : Context} {f g : FunctionTy} {expected : Ty}
    (set : Check.setOption context f name = .ok (g, expected)) (good : G f.toTy) : G g.toTy := by
  refine hereditary.function.mpr ?_
  have parts := hereditary.function.mp good
  simp only [Check.setOption, Bind.bind, Except.bind] at set
  repeat' split at set
  all_goals cases set
  all_goals exact parts

end Ty.Hereditary

end ContractTyping
