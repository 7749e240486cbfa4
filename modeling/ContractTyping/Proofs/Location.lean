import ContractTyping.Proofs.Faults
import ContractTyping.Proofs.Trace.Expression

/-!
# Data locations of common types

A conversion to a storage pointer or to calldata keeps data where it is. A conversion to a storage
reference does not: it stands for a copy, and the data may come from anywhere (`Ty.Arrives`).

A common type is the concrete type of one side that the other side converts to, so it inherits the
difference. One in calldata is the common type of two sides in calldata, and a mapping or a storage
pointer that of two sides in storage. A storage reference is the type of one of the sides, and the
other one may be in memory (`common_location`). A conditional expression is then typed as data in
storage though one of its branches is not, and a storage pointer may be made of it
(`common_location_copied`).
-/

namespace ContractTyping

namespace Ty

variable {source target left right t : Ty} {place : Place}

/-! ## Conversions -/

theorem converts_self (t : Ty) : t.implicitlyConvertible t = true := by
  rw [implicitlyConvertible.eq_def, beq_self_eq_true, Bool.true_or]

/-- How a value gets to a place: it is there, its own place allows it, or it is written there as a
literal, which needs data of its own that can be written. -/
def Arrives (source target : Ty) (place : Place) : Prop :=
  source = target ∨ (∃ origin, source.place? = some origin ∧ origin.convertible place = true) ∨
    place.location ≠ .calldata ∧ place ≠ ⟨.storage, true⟩ ∧ ∃ text, source = stringLiteral text

variable (valid : source.isInvalid = false)

include valid

/-- What converts to a type with a place gets to that place. -/
theorem arrives_of_converts
    (converts : source.implicitlyConvertible target = true) (placed : target.place? = some place) :
    Arrives source target place := by
  rw [implicitlyConvertible.eq_def, Bool.or_eq_true] at converts
  rcases converts with same | converts
  · exact .inl (beq_iff_eq.mp same)
  refine .inr ?_
  cases target with
  | byteArray isString targetPlace =>
    cases placed
    cases source with
    | invalid => cases valid
    | stringLiteral text =>
      obtain ⟨outside, differs⟩ := Bool.and_eq_true_iff.mp converts
      exact .inr ⟨bne_iff_ne.mp outside, bne_iff_ne.mp differs, text, rfl⟩
    | byteArray isString origin => exact .inl ⟨origin, rfl, (Bool.and_eq_true_iff.mp converts).2⟩
    | _ => cases converts
  | array element length targetPlace =>
    cases placed
    cases source with
    | invalid => cases valid
    | array element length origin => exact .inl ⟨origin, rfl, (Bool.and_eq_true_iff.mp converts).1⟩
    | _ => cases converts
  | struct id name targetPlace =>
    cases placed
    cases source with
    | invalid => cases valid
    | struct id name origin => exact .inl ⟨origin, rfl, (Bool.and_eq_true_iff.mp converts).2⟩
    | _ => cases converts
  | _ => cases placed

/-- Only a mapping itself converts to it. -/
theorem eq_of_converts_mapping {key value : Ty}
    (converts : source.implicitlyConvertible (mapping key value) = true) :
    source = mapping key value := by
  rw [implicitlyConvertible.eq_def, Bool.or_eq_true] at converts
  rcases converts with same | converts
  · exact beq_iff_eq.mp same
  cases source with
  | invalid => cases valid
  | _ => cases converts

omit valid in
theorem location?_of_place? (placed : t.place? = some place) :
    t.location? = some place.location := by
  cases t <;> cases placed <;> rfl

omit valid in
theorem place?_of_location? {location : DataLocation} (located : t.location? = some location) :
    (∃ key value, t = mapping key value) ∨ ∃ place, t.place? = some place ∧
      place.location = location := by
  cases t with
  | mapping key value => exact .inl ⟨key, value, rfl⟩
  | _ => exact .inr (Option.map_eq_some_iff.mp located)

/-- Only data in calldata converts to data in calldata. -/
theorem calldata_of_converts (converts : source.implicitlyConvertible target = true)
    (inCalldata : target.location? = some .calldata) : source.location? = some .calldata := by
  obtain ⟨key, value, rfl⟩ | ⟨⟨location, isPointer⟩, placed, rfl⟩ := place?_of_location? inCalldata
  · cases inCalldata
  · obtain rfl | ⟨origin, origins, allowed⟩ | ⟨outside, -, -⟩ :=
      arrives_of_converts valid converts placed
    · exact inCalldata
    · rw [location?_of_place? origins, beq_iff_eq.mp allowed]
    · exact absurd rfl outside

/-- Only data in storage converts to data in storage, unless it is copied there. -/
theorem storage_of_converts (converts : source.implicitlyConvertible target = true)
    (inStorage : target.location? = some .storage) (uncopied : target.isStorageReference = false) :
    source.location? = some .storage := by
  obtain ⟨key, value, rfl⟩ | ⟨⟨location, isPointer⟩, placed, rfl⟩ := place?_of_location? inStorage
  · rw [eq_of_converts_mapping valid converts]
    exact inStorage
  · cases isPointer with
    | false => rw [isStorageReference, placed] at uncopied; cases uncopied
    | true =>
      obtain rfl | ⟨origin, origins, allowed⟩ | ⟨-, differs, -⟩ :=
        arrives_of_converts valid converts placed
      · exact inStorage
      · rw [location?_of_place? origins, beq_iff_eq.mp allowed]
      · exact absurd rfl differs

omit valid

/-! ## Common types -/

/-- A concrete type outside memory is that of the value itself. -/
theorem eq_of_mobile? {location : DataLocation} (mobile : source.mobile? = some t)
    (located : t.location? = some location) (outside : location ≠ .memory) : t = source := by
  unfold mobile? at mobile
  split at mobile
  · obtain ⟨width, -, rfl⟩ := Option.map_eq_some_iff.mp mobile
    cases located
  · cases mobile
    cases located
    exact absurd rfl outside
  · exact (Option.some.inj mobile).symm

/-- What the location of a type that stands for two others says about them. -/
structure Locates (left right t : Ty) : Prop where
  calldata : t.location? = some .calldata → left.location? = some .calldata ∧
    right.location? = some .calldata
  /-- Data in storage is one of the two, whatever the other one is. -/
  storage : t.location? = some .storage → t = left ∨ t = right
  /-- Only a storage reference may stand for something that is not in storage. -/
  uncopied : t.location? = some .storage → t.isStorageReference = false →
    left.location? = some .storage ∧ right.location? = some .storage

theorem Locates.symm (locates : Locates left right t) : Locates right left t where
  calldata located := (locates.calldata located).symm
  storage located := (locates.storage located).symm
  uncopied located uncopied := (locates.uncopied located uncopied).symm

/-- The concrete type of the left side, if the right side converts to it. -/
theorem Locates.ofConverts (valid : right.isInvalid = false) (mobile : left.mobile? = some t)
    (converts : right.implicitlyConvertible t = true) : Locates left right t where
  calldata located := by
    cases eq_of_mobile? mobile located nofun
    exact ⟨located, calldata_of_converts valid converts located⟩
  storage located := .inl (eq_of_mobile? mobile located nofun)
  uncopied located uncopied := by
    cases eq_of_mobile? mobile located nofun
    exact ⟨located, storage_of_converts valid converts located uncopied⟩

theorem locates_of_common? (leftValid : left.isInvalid = false)
    (rightValid : right.isInvalid = false)
    (common : common? left right = some t) : Locates left right t := by
  obtain ⟨leftMobile, rightMobile, isLeft, isRight, side⟩ := exists_of_common? common
  rcases side with ⟨rfl, converts⟩ | ⟨rfl, converts⟩
  · exact .ofConverts rightValid isLeft converts
  · exact (Locates.ofConverts leftValid isRight converts).symm

theorem Locates.invalid : Locates left right invalid := ⟨nofun, nofun, nofun⟩

end Ty

/-! ## Conditional expressions -/

namespace Check

variable {c : Context} {σ τ : Findings} {t : Ty}

theorem conditionalType_locates {yes no : Ty} {span : Span}
    (run : conditionalType yes no span c σ = .ok (t, τ)) : Ty.Locates yes no t := by
  unfold conditionalType at run
  split at run
  · cases run
    exact .invalid
  · next valid =>
    simp only [Bool.or_eq_true, not_or, Bool.not_eq_true] at valid
    cases common : Ty.common? yes no with
    | none =>
      rw [common] at run
      cases run
      exact .invalid
    | some type =>
      rw [common] at run
      cases run
      exact Ty.locates_of_common? valid.1 valid.2 common

/-- In whatever run a conditional expression is typed, its type locates those of its branches. -/
theorem conditional_locates {node : Node} {condition yes no : Expr} {demand : Demand}
    (run : expression (.conditional node condition yes no) demand c σ = .ok (t, τ)) :
    ∃ yesType noType, τ.expression? yes.id = some yesType ∧ τ.expression? no.id = some noType ∧
      τ.expression? node.id = some t ∧ Ty.Locates yesType noType t := by
  have recorded := Records.expression _ demand c σ t τ run
  obtain ⟨conditionType, σ₁, -, run⟩ := bind_ok.mp run
  obtain ⟨-, σ₂, -, run⟩ := bind_ok.mp run
  obtain ⟨yesType, σ₃, yesRun, run⟩ := bind_ok.mp run
  obtain ⟨noType, σ₄, noRun, run⟩ := bind_ok.mp run
  obtain ⟨type, σ₅, typed, annotated⟩ := bind_ok.mp run
  cases annotate_value annotated
  have afterNo : σ₄.Precedes τ :=
    (Remarks.conditionalType yesType noType _).advances.thenAnnotate _ _ _ _ _ run
  have afterYes : σ₃.Precedes τ := (Advances.expression no _ _ _ _ _ noRun).trans afterNo
  exact ⟨yesType, noType, afterYes.expression _ _ (Records.expression yes _ _ _ _ _ yesRun),
    afterNo.expression _ _ (Records.expression no _ _ _ _ _ noRun), recorded,
    conditionalType_locates typed⟩

end Check

/-- **Where common types and conditional expressions are.** For types without the invalid type, a
common type in calldata is that of two sides in calldata, and one in storage is the type of one
side. The other side is in storage as well, unless the common type is a storage reference. The same
holds of the types that are recorded for a conditional expression and its branches, in every run
that types them. -/
theorem common_location (left right t : Ty) :
    (left.Clean → right.Clean → Ty.common? left right = some t → Ty.Locates left right t) ∧
    ∀ node condition yes no demand c σ type τ,
      Check.expression (.conditional node condition yes no) demand c σ = .ok (type, τ) →
        ∃ yesType noType, τ.expression? yes.id = some yesType ∧ τ.expression? no.id = some noType ∧
          τ.expression? node.id = some type ∧ Ty.Locates yesType noType type := by
  constructor
  · intro leftClean rightClean common
    exact Ty.locates_of_common? leftClean.not_isInvalid rightClean.not_isInvalid common
  · intro node condition yes no demand c σ type τ run
    exact Check.conditional_locates run

/-- Bytes in storage, or those that are passed in memory. -/
def storedOrGiven : Expr :=
  .conditional ⟨⟨13⟩, .unknown⟩ (.identifier ⟨⟨14⟩, .unknown⟩ "flag" (some ⟨6⟩) [])
    (.identifier ⟨⟨15⟩, .unknown⟩ "stored" (some ⟨3⟩) [])
    (.identifier ⟨⟨16⟩, .unknown⟩ "given" (some ⟨8⟩) [])

/-- A contract that points into storage, by the type of a conditional expression. -/
def pointingUnit : SourceUnit :=
  let node (id : Int64) : Node := ⟨⟨id⟩, .unknown⟩
  let bytes (id : Int64) : Option TypeName := some (.elementary (node id) "bytes" false)
  { node := node 1
    path := "pointing"
    abiCoder := none
    parts := [.contract ⟨node 2, "Log", .contract, false, [], [],
      [.stateVariable (.mk { node := node 3, name := "stored", isState := true } (bytes 4) none),
        .function { (default : Function) with
          node := node 5, name := "point"
          parameters :=
            [.mk { node := node 6, name := "flag" } (some (.elementary (node 7) "bool" false)) none,
            .mk { node := node 8, name := "given", location := .memory } (bytes 9) none]
          body := some (.mk (node 10) [.declare (node 11)
            [some
              (.mk { node := node 12, name := "pointer", location := .storage } (bytes 17) none)]
            (some storedOrGiven)] false) }]⟩] }

theorem common_location_pointing :
    Ty.common? (.byteArray false ⟨.storage, true⟩) (.byteArray false ⟨.storage, false⟩) =
        some (.byteArray false ⟨.storage, true⟩) ∧
      Ty.Locates (.byteArray false ⟨.storage, true⟩) (.byteArray false ⟨.storage, false⟩)
        (.byteArray false ⟨.storage, true⟩) ∧
      ∃ τ yesType noType,
        Check.expression storedOrGiven {} (Check.contextOf pointingUnit {}) {} =
          .ok (.byteArray false ⟨.storage, false⟩, τ) ∧
        τ.expression? ⟨15⟩ = some yesType ∧ τ.expression? ⟨16⟩ = some noType ∧
        τ.expression? ⟨13⟩ = some (.byteArray false ⟨.storage, false⟩) ∧
        Ty.Locates yesType noType (.byteArray false ⟨.storage, false⟩) := by
  obtain ⟨ofTypes, ofRuns⟩ := common_location (.byteArray false ⟨.storage, true⟩)
    (.byteArray false ⟨.storage, false⟩) (.byteArray false ⟨.storage, true⟩)
  refine ⟨rfl, ofTypes trivial trivial rfl, ?_⟩
  obtain ⟨⟨_, τ⟩, run, rfl⟩ :
      ∃ result, Check.expression storedOrGiven {} (Check.contextOf pointingUnit {}) {} =
      .ok result ∧ result.1 = .byteArray false ⟨.storage, false⟩ := exists_ok (by decide +kernel)
  obtain ⟨yesType, noType, located⟩ := ofRuns _ _ _ _ _ _ _ _ _ run
  exact ⟨τ, yesType, noType, run, located⟩

/-- A common type may be in storage though one side is not. What it types is taken for storage. -/
theorem common_location_copied :
    (¬ ∀ left right t : Ty, left.Clean → right.Clean → Ty.common? left right = some t →
      t.location? = some .storage → left.location? = some .storage ∧
        right.location? = some .storage) ∧
    ∃ report, check pointingUnit {} = .ok report ∧ report.diagnostics = [] ∧
      report.annotations.expression? ⟨13⟩ = some (.byteArray false ⟨.storage, false⟩) ∧
      report.annotations.expression? ⟨16⟩ = some .bytesMemory ∧
      report.annotations.var? ⟨12⟩ = some (.byteArray false ⟨.storage, true⟩) := by
  refine ⟨fun located => ?_, exists_ok (by decide +kernel)⟩
  cases (located (.byteArray false ⟨.storage, false⟩) .bytesMemory _ trivial trivial rfl rfl).2

end ContractTyping
