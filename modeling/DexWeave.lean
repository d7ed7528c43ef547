import DexWeave.Attach
import DexWeave.Proofs.AttachReport
import DexWeave.Proofs.BatchProtocol
import DexWeave.Proofs.BridgeLoad
import DexWeave.Proofs.CacheLocation
import DexWeave.Proofs.CacheMap
import DexWeave.Proofs.CanonicalText
import DexWeave.Proofs.ClassLookup
import DexWeave.Proofs.ClassReading
import DexWeave.Proofs.Damage
import DexWeave.Proofs.EncodeOutcome
import DexWeave.Proofs.EntryProvenance
import DexWeave.Proofs.FreshBatch
import DexWeave.Proofs.HookOrder
import DexWeave.Proofs.Isolation
import DexWeave.Proofs.ParameterRegisters
import DexWeave.Proofs.PrototypeDescriptor
import DexWeave.Proofs.Retry
import DexWeave.Vm.Logged
import DexWeave.Vm.Scripted
