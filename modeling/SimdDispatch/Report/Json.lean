import SimdDispatch.Json.Decode
import SimdDispatch.Report.Basic

/-!
Reports as JSON documents.
-/
namespace SimdDispatch

namespace Timing

def fieldNames : List String := ["total_ms", "per_call_ns", "alignment", "max_rel_error", "passed"]

def toJson (t : Timing) : Json :=
  .ofFields (fieldNames.zip [.ofDouble t.totalMs, .ofDouble t.perCallNs, .ofNat t.alignment,
    .ofDouble t.maxRelError, .flag t.passed])

def ofJson? (j : Json) : Option Timing := do
  match ← j.record? fieldNames with
  | [total, perCall, alignment, maxError, passed] =>
    return ⟨← total.double?, ← perCall.double?, ← alignment.nat?, ← maxError.double?, ← passed.flag?⟩
  | _ => failure

end Timing

namespace PrimitiveReport

def fieldNames : List String := ["name", "results", "best_aligned", "best_unaligned"]

def toJson (p : PrimitiveReport) : Json :=
  .ofFields (fieldNames.zip [.ofString p.name,
    .ofFields (p.results.map fun (name, t) => (name, t.toJson)),
    .ofString p.bestAligned, .ofString p.bestUnaligned])

def ofJson? (j : Json) : Option PrimitiveReport := do
  match ← j.record? fieldNames with
  | [name, results, aligned, unaligned] =>
    return ⟨← name.string?, ← results.entries? Timing.ofJson?, ← aligned.string?, ← unaligned.string?⟩
  | _ => failure

end PrimitiveReport

namespace Workload

def fieldNames : List String := ["points", "iterations"]

def toJson (w : Workload) : Json :=
  .ofFields (fieldNames.zip [.ofNat w.points, .ofNat w.iterations])

def ofJson? (j : Json) : Option Workload := do
  match ← j.record? fieldNames with
  | [points, iterations] => return ⟨← points.nat?, ← iterations.nat?⟩
  | _ => failure

end Workload

namespace Report

def fieldNames : List String := ["machine", "capabilities", "alignment", "options", "tests"]

def toJson (r : Report) : Json :=
  .ofFields (fieldNames.zip [.ofString r.machine, .list (r.capabilities.map Json.ofString),
    .ofNat r.alignment, r.workload.toJson, .list (r.tests.map PrimitiveReport.toJson)])

def ofJson? (j : Json) : Option Report := do
  match ← j.record? fieldNames with
  | [machine, capabilities, alignment, workload, tests] =>
    return ⟨← machine.string?, ← capabilities.items? Json.string?, ← alignment.nat?,
      ← Workload.ofJson? workload, ← tests.items? PrimitiveReport.ofJson?⟩
  | _ => failure

def write (r : Report) : String := r.toJson.pretty

def read (document : String) : Except Error Report :=
  match Json.read document >>= ofJson? with
  | some r => .ok r
  | none => .error .malformedReport

end Report
end SimdDispatch
