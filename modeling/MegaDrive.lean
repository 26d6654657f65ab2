import MegaDrive.Command
import MegaDrive.Sample
import MegaDrive.Proofs.Atomicity
import MegaDrive.Proofs.FlatBus
import MegaDrive.Proofs.OpcodeMap
import MegaDrive.Proofs.InstructionFormat
import MegaDrive.Proofs.DecodeFormat
import MegaDrive.Proofs.CodeMemory
import MegaDrive.Proofs.Encoding
import MegaDrive.Proofs.FetchInduction
import MegaDrive.Proofs.OpcodeWord
import MegaDrive.Proofs.Reencoding
import MegaDrive.Proofs.Unambiguous
import MegaDrive.Proofs.CodeConfinement
import MegaDrive.Proofs.BusRefinement
import MegaDrive.Proofs.RunComposition
import MegaDrive.Proofs.Noninterference
import MegaDrive.Proofs.Effects
import MegaDrive.Proofs.CallNesting
import MegaDrive.Proofs.StepFrame
import MegaDrive.Proofs.Requests
import MegaDrive.Proofs.MoveFactoring
import MegaDrive.Proofs.RegisterNumbers
import MegaDrive.Proofs.ControlFlow
import MegaDrive.Proofs.GuardedAccess
import MegaDrive.Proofs.GuardedDecode
import MegaDrive.Proofs.GuardedExecute
import MegaDrive.Proofs.Executability
import MegaDrive.Proofs.Comparison
import MegaDrive.Proofs.FaultPayload
import MegaDrive.Proofs.CountedLoop
import MegaDrive.Proofs.CopyLoop
import MegaDrive.Proofs.Restart
import MegaDrive.Proofs.AssemblyText
import MegaDrive.Proofs.LatchUnlock
import MegaDrive.Proofs.Tracing
import MegaDrive.Proofs.ByteOrder
import MegaDrive.Proofs.RegisterAccess
import MegaDrive.Proofs.HexArgument
import MegaDrive.Proofs.PeripheralJournal
