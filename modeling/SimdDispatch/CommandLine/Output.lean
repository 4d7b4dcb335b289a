import SimdDispatch.Decimal.Fixed
import SimdDispatch.Json.Basic
import SimdDispatch.Machines
import SimdDispatch.Registry
import SimdDispatch.Report.Basic
import SimdDispatch.Text.Boxed

/-!
What the commands show, as text and as JSON. The keys of JSON objects ascend.
-/
namespace SimdDispatch.CommandLine

def lines (ls : List String) : String := String.join (ls.map (· ++ "\n"))

def capabilityNames (s : CapabilitySet) : Json := .list (s.names.map Json.ofString)

def bindingJson (b : Binding) : Json :=
  .ofFields [("aligned", .ofString b.aligned.name), ("unaligned", .ofString b.unaligned.name)]

def tableJson (cpu : CapabilitySet) (t : Table) : Json :=
  .ofFields [("alignment", .ofNat t.alignment), ("capabilities", capabilityNames t.mask),
    ("name", .ofString t.name), ("runs", .flag (t.runsOn cpu))]

def infoJson (cpu : CapabilitySet) (r : Registry) (allMachines : Bool) : String :=
  let bindings := SortedMap.ofList (r.bindings.map fun (p, b) => (p, bindingJson b))
  let machines := if allMachines then
    [("machines", Json.list (Machines.builtin.map (tableJson cpu)))] else []
  (Json.ofFields ([("alignment", .ofNat r.alignment), ("bindings", .ofFields bindings.entries),
    ("detected", capabilityNames r.detected), ("machine", .ofString r.machine.name)] ++
    machines)).pretty ++ "\n"

/-- The row of a built-in table; the one in use has a mark. -/
def tableRow (cpu : CapabilitySet) (used : String) (t : Table) : List String :=
  [if t.name = used then t.name ++ " *" else t.name, t.mask.text, toString t.alignment,
    if t.runsOn cpu then "yes" else "no"]

def infoText (cpu : CapabilitySet) (r : Registry) (allMachines : Bool) : String :=
  let bindings := Text.boxed ["Primitive", "Aligned", "Unaligned"]
    (r.bindings.map fun (p, b) => [p, b.aligned.name, b.unaligned.name])
  let machines := Text.boxed ["Machine", "Capabilities", "Alignment", "Runs here"]
    (Machines.builtin.map (tableRow cpu r.machine.name))
  lines ["LaneKit dispatch", s!"  Detected:  {r.detected.text}", s!"  Machine:   {r.machine.name}",
    s!"  Alignment: {r.alignment} bytes", "", bindings] ++
  if allMachines then lines ["", machines] else ""

def profileHeading (r : Registry) (w : Workload) : String :=
  lines [s!"Profiling machine {r.machine.name} ({w.points} points, {w.iterations} iterations)", ""]

/-- The row of one implementation; the best ones have a mark. -/
def timingRow (p : PrimitiveReport) (name : String) (t : Timing) : List String :=
  [name ++ (if name = p.bestAligned then " [a]" else "") ++
      (if name = p.bestUnaligned then " [u]" else ""),
    toString t.alignment, Decimal.fixed 1 t.perCallNs, Decimal.scientific 2 t.maxRelError,
    if t.passed then "ok" else "FAILED"]

def primitiveText (p : PrimitiveReport) : String :=
  lines [p.name, Text.boxed ["Variant", "Alignment", "ns/call", "Max rel. error", "Status"]
    (p.results.map fun (name, t) => timingRow p name t)] ++
  match p.speedup with
  | some x => lines [s!"  {p.bestAligned} {Decimal.fixed 2 x}x over generic", ""]
  | none => lines [""]

def failures (r : Report) : List String :=
  r.tests.flatMap fun p =>
    (p.results.filter (!·.2.passed)).map fun (name, _) => s!"{p.name}::{name}"

end SimdDispatch.CommandLine
