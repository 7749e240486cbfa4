import ContractTyping.Proofs.Parentheses.Declaration

/-!
# Single expressions with parentheses

What the type of an expression is worked out from is the same with parentheses somewhere in the
source unit: the types of its parts, the structs and the settings.
-/

namespace ContractTyping

open Check

namespace Enclosure

variable {E : Enclosure}

namespace Steady

theorem requireNames (node : NodeId) (names values : Nat) :
    E.Steady (requireNames node names values) := by
  unfold Check.requireNames
  split
  · exact fail _
  · exact pure _

end Steady

namespace MirrorsBy

/-! ## Creation -/

theorem contractCreation (c : ContractTy) (span : Span) : E.Steady (contractCreation c span) := by
  refine MirrorsBy.read fun scope => ?_
  rw [there_declarations, Wrapping.contract?_declarations, there_contractId?]
  cases (E.context scope).declarations.contract? c.id with
  | none => exact Steady.pure _
  | some definition =>
    have constructors : (E.wrapping.contract definition).constructor? =
        definition.constructor?.map E.wrapping.function := by
      unfold Contract.constructor?
      rw [Wrapping.functions_contract, List.find?_map]
      rfl
    refine ite .rfl (Steady.reject _ _) (ite .rfl (Steady.reject _ _) (ite .rfl (Steady.reject _ _)
      (ite .rfl (Steady.reject _ _) ?_)))
    rw [constructors]
    cases definition.constructor? with
    | none => exact Steady.pure _
    | some f => exact (functionType f _).bind fun type => Steady.pure _

theorem creationType (typeName : TypeName) (span : Span) : E.Mirrors (creationType typeName span)
      (creationType (E.wrapping.typeName typeName) span) := by
  refine (resolve typeName _).bind fun result => ?_
  rw [Wrapping.typeName_span]
  split
  · exact Steady.reject _ _
  · exact contractCreation _ _
  · exact Steady.pure _
  · exact Steady.pure _
  · exact Steady.reject _ _
  · exact Steady.reject _ _

theorem lengthOfIndex (index : Expr) (indexType : Ty) : E.Mirrors (lengthOfIndex index indexType)
      (lengthOfIndex (E.wrapping.expr index) indexType) := by
  refine (evaluate index).bind fun value => ?_
  rw [Wrapping.expr_span]
  dsimp only
  split
  · exact bind (Steady.report _ _) fun _ => Steady.pure _
  · exact Steady.pure _

end MirrorsBy

end Enclosure

end ContractTyping
