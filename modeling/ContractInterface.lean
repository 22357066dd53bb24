import ContractInterface.Session
import ContractInterface.Proofs.Declaration
import ContractInterface.Proofs.TypeExpr
import ContractInterface.Proofs.TypeGrammar
import ContractInterface.Proofs.Spelling
import ContractInterface.Proofs.Overloads
import ContractInterface.Proofs.Validation
import ContractInterface.Proofs.QualifiedLookup
import ContractInterface.Proofs.DeclarationOrder
import ContractInterface.Proofs.TypeFaults
import ContractInterface.Proofs.ParameterNames
import ContractInterface.Proofs.UnrelatedEntries
import ContractInterface.Proofs.SignatureCalls
import ContractInterface.Proofs.JsonMembers
import ContractInterface.Proofs.LooseRecords
import ContractInterface.Proofs.WidenedCalls
import ContractInterface.Proofs.PreparedSubscription
import ContractInterface.Proofs.WidenedSubscriptions
import ContractInterface.Proofs.ReferenceBlanks
import ContractInterface.Proofs.SessionGate
import ContractInterface.Proofs.OverloadPolicies
import ContractInterface.Proofs.ReadableJson
import ContractInterface.Proofs.ReportedCandidates
import ContractInterface.Proofs.RecordDecoding
import ContractInterface.Proofs.UnknownKeys
import ContractInterface.Proofs.TextAndValue
import ContractInterface.Proofs.FirstMisfit
import ContractInterface.Proofs.CheckedParts
import ContractInterface.Proofs.LookupByArguments
import ContractInterface.Proofs.CallTrace
import ContractInterface.Proofs.ArgumentBinding
import ContractInterface.Proofs.NamedTuples
import ContractInterface.Proofs.RenderedTypeExpr
import ContractInterface.Proofs.SyntaxFaults
import ContractInterface.Proofs.ResolutionFaults
import ContractInterface.Proofs.DeliveredParameters
import ContractInterface.Proofs.MismatchedOutputs
import ContractInterface.Proofs.PositionalValues
import ContractInterface.Proofs.Narrowing
import ContractInterface.Proofs.ArgumentRoom
