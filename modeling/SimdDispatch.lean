import SimdDispatch.Config.Sources
import SimdDispatch.Describe
import SimdDispatch.Json.Coefficients
import SimdDispatch.Main
import SimdDispatch.SharedRegistry
import SimdDispatch.Callers
import SimdDispatch.InPlace
import SimdDispatch.Buffers
import SimdDispatch.Proofs.Alignment
import SimdDispatch.Proofs.CapabilitySet
import SimdDispatch.Proofs.Table
import SimdDispatch.Proofs.Machines
import SimdDispatch.Proofs.Config
import SimdDispatch.Proofs.Event
import SimdDispatch.Proofs.Resolution
import SimdDispatch.Proofs.Narrowing
import SimdDispatch.Proofs.Registry
import SimdDispatch.Proofs.CapabilitySafety
import SimdDispatch.Proofs.ByteOrder
import SimdDispatch.Proofs.SlotAlignment
import SimdDispatch.Proofs.Refusal
import SimdDispatch.Proofs.Fallback
import SimdDispatch.Proofs.Bindings
import SimdDispatch.Proofs.Noninterference
import SimdDispatch.Proofs.Acceptance
import SimdDispatch.Proofs.Log
import SimdDispatch.Proofs.Deinterleave
import SimdDispatch.Proofs.ExactSums
import SimdDispatch.Proofs.RegistryRefinement
import SimdDispatch.Proofs.SharedRegistry
import SimdDispatch.Proofs.TruthfulLog
import SimdDispatch.Proofs.Pinned
import SimdDispatch.Proofs.Winners
import SimdDispatch.Proofs.Profile
import SimdDispatch.Proofs.NamedCalls
import SimdDispatch.Proofs.ProfiledKernels
import SimdDispatch.Proofs.BoundCalls
import SimdDispatch.Proofs.InPlace
import SimdDispatch.Proofs.CallOutcomes
import SimdDispatch.Proofs.Scanner
import SimdDispatch.Proofs.Toml.Quoted
import SimdDispatch.Proofs.Toml.Texts
import SimdDispatch.Proofs.Toml.Statement
import SimdDispatch.Proofs.Setting
import SimdDispatch.Proofs.Toml.Document
import SimdDispatch.Proofs.ConfigDocument
import SimdDispatch.Proofs.Toml.Distinct
import SimdDispatch.Proofs.Loose
import SimdDispatch.Proofs.Environment
import SimdDispatch.Proofs.VariableNames
import SimdDispatch.Proofs.Precedence
import SimdDispatch.Proofs.TableConstruction
import SimdDispatch.Proofs.Priority
import SimdDispatch.Proofs.Selection
import SimdDispatch.Proofs.RicherProcessors
import SimdDispatch.Proofs.Filtering
import SimdDispatch.Proofs.SingleOrder
import SimdDispatch.Proofs.Clamping
import SimdDispatch.Proofs.WholeGroups
import SimdDispatch.Proofs.PromisedBoundary
import SimdDispatch.Proofs.ForcedGeneric
import SimdDispatch.Proofs.Accesses
import SimdDispatch.Proofs.FittingWinners
import SimdDispatch.Proofs.CapabilityNames
import SimdDispatch.Proofs.CapabilityLists
import SimdDispatch.Proofs.Buffer
import SimdDispatch.Proofs.Buffers
