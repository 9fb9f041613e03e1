import BytecodeVerifier.Code.Assembler
import BytecodeVerifier.TypeTable.InPlace
import BytecodeVerifier.Verifier
import BytecodeVerifier.Proofs.Absorption
import BytecodeVerifier.Proofs.Acceptance
import BytecodeVerifier.Proofs.Allocation
import BytecodeVerifier.Proofs.CallSignatures
import BytecodeVerifier.Proofs.CommonSuperclass
import BytecodeVerifier.Proofs.Commutativity
import BytecodeVerifier.Proofs.Confinement
import BytecodeVerifier.Proofs.ConstructorReturns
import BytecodeVerifier.Proofs.ConstructorTargets
import BytecodeVerifier.Proofs.Coverage
import BytecodeVerifier.Proofs.DefiniteAssignment
import BytecodeVerifier.Proofs.Delegation
import BytecodeVerifier.Proofs.DescriptorGrammar
import BytecodeVerifier.Proofs.ExactLayout
import BytecodeVerifier.Proofs.FaultFreedom
import BytecodeVerifier.Proofs.FlatFrames
import BytecodeVerifier.Proofs.Handlers
import BytecodeVerifier.Proofs.HistoryIndependence
import BytecodeVerifier.Proofs.IssuedTypes
import BytecodeVerifier.Proofs.JoinChecks
import BytecodeVerifier.Proofs.MergeSequence
import BytecodeVerifier.Proofs.MethodResolution
import BytecodeVerifier.Proofs.MonitorBalance
import BytecodeVerifier.Proofs.NormalForm
import BytecodeVerifier.Proofs.OperandDescriptors
import BytecodeVerifier.Proofs.PostFixpoint
import BytecodeVerifier.Proofs.ProgramPoints
import BytecodeVerifier.Proofs.RegisterFaults
import BytecodeVerifier.Proofs.ResultFetch
import BytecodeVerifier.Proofs.ReturnedValues
import BytecodeVerifier.Proofs.Strictness
import BytecodeVerifier.Proofs.SubclassSearch
import BytecodeVerifier.Proofs.Termination
import BytecodeVerifier.Proofs.UpperBound
import BytecodeVerifier.Proofs.VisitBudget
import BytecodeVerifier.Proofs.WidePairs
