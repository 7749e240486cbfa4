import ContractTyping.Main
import ContractTyping.Source.Builder
import ContractTyping.Source.Fragment
import ContractTyping.Proofs.Order.Unit
import ContractTyping.Proofs.Exact.LongDivision
import ContractTyping.Proofs.Document.Unit
import ContractTyping.Proofs.Emit
import ContractTyping.Proofs.ConstantWrite
import ContractTyping.Proofs.Parentheses.Unit
import ContractTyping.Proofs.Severity
import ContractTyping.Proofs.Interface
import ContractTyping.Proofs.InlineArray
import ContractTyping.Proofs.Call.Selection
import ContractTyping.Proofs.Literal.Number
import ContractTyping.Proofs.Cycle.Linearization
import ContractTyping.Proofs.StorageGuard
import ContractTyping.Proofs.Member.Field
import ContractTyping.Proofs.Member.Private
import ContractTyping.Proofs.Overwriting
import ContractTyping.Proofs.Struct.Legacy
import ContractTyping.Proofs.Call.Options
import ContractTyping.Proofs.Literal.Decimal
import ContractTyping.Proofs.Text.Line
import ContractTyping.Proofs.Literal.HexString
