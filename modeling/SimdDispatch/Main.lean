import SimdDispatch.CommandLine.Run
import SimdDispatch.Processor

/-!
The program in its surroundings. All that it looks at is collected first, and its outcome is a
function of that; only the times of the calls are taken in between.
-/
namespace SimdDispatch.CommandLine

/-- The bytes up to each zero byte, as texts; those that are none are left out. -/
def textsOf (bytes : ByteArray) : List String :=
  (bytes.toList.splitOn 0).filterMap fun text => String.fromUTF8? ⟨text.toArray⟩

def assignment? (text : String) : Option (String × String) :=
  match text.splitOn "=" with
  | name :: value :: more => some (name, "=".intercalate (value :: more))
  | _ => none

def attempt {α : Type} (action : IO α) : IO (Option α) := do
  try return some (← action) catch _ => return none

def processEnvironment : IO Environment := do
  let bytes ← attempt (IO.FS.readBinFile "/proc/self/environ")
  return (bytes.map textsOf).getD [] |>.filterMap assignment?

def processor : IO CapabilitySet := do
  return Processor.detect ((← attempt (IO.FS.readFile "/proc/cpuinfo")).getD "")

def pathOf (place : Location) : String := "/" ++ "/".intercalate place

def explore (tree : FileTree) (place : Location) : IO FileTree := do
  if ← ((← IO.currentDir) / pathOf place).isDir then
    return { tree with directories := place :: tree.directories }
  match ← attempt (IO.FS.readFile (pathOf place)) with
  | some text => return { tree with files := (place, text) :: tree.files }
  | none => return tree

/-- A tree with all that a path from a directory leads past added. -/
def follow (tree : FileTree) (start : Location) (path : String) : IO FileTree := do
  let components := path.splitOn "/"
  (List.range components.length).foldlM (fun tree n => do
    let before := "/".intercalate (components.take (n + 1))
    (tree.locate start before).elim (pure tree) (explore tree)) tree

/-- The paths that a run may look at, with the directories that they are looked up from. -/
def candidates (current : Location) (environment : Environment) (arguments : List String) :
    List (Location × String) :=
  let anywhere (path : String) := (FileTree.upwards current).map fun here => (here, path)
  match request arguments with
  | .run source command =>
    let inputs := match source with
      | .nowhere => []
      | .file path => [(current, path)]
      | .surroundings => anywhere (Config.fileName environment)
    let outputs := match command with
      | .info _ _ => []
      | .profile _ json config => (json.toList ++ config.toList).map fun path => (current, path)
    inputs ++ outputs
  | _ => []

def surroundings (arguments : List String) : IO Surroundings := do
  let current := ((← IO.currentDir).toString.splitOn "/").filter (· ≠ "")
  let environment ← processEnvironment
  let tree ← (candidates current environment arguments).foldlM
    (fun tree (start, path) => follow tree start path) ⟨current, [], []⟩
  return ⟨tree, environment⟩

/-- The nanoseconds that a number of calls take; none if one of them fails. -/
@[noinline] def stopwatch (times : Nat) (call : Unit → Bool) : IO (Option Nat) := do
  let start ← IO.monoNanosNow
  let mut succeeded := true
  for _ in [0:times] do
    succeeded := call () && succeeded
  let stop ← IO.monoNanosNow
  return if succeeded then some (stop - start) else none

def timed (r : Registry) (shape : Shape) (points : Nat) : String → Unit → Bool :=
  let place := Profile.Placement.origin
  match shape with
  | .sumOfPoly =>
    let input := Profile.sumInput place.input points
    fun name _ => (r.sumWith name input Profile.coefficients Profile.cutoff).isOk
  | .deinterleave =>
    let input := Profile.splitInput place.input points
    let output := Profile.splitOutput place.real points
    fun name _ => (r.splitWith name output output input).isOk

def measurements (r : Registry) (workload : Workload) : IO (List ((String × String) × Nat)) := do
  let mut times := []
  if Buffer.fits (Complex Single) workload.points then
    for (primitive, binding) in r.bindings do
      let call := timed r binding.aligned.shape workload.points
      for i in (r.eligible primitive).toOption.getD [] do
        if let some elapsed ← stopwatch (max workload.iterations 1) (call i.name) then
          times := ((primitive, i.name), elapsed) :: times
  return times

def execute (cpu : CapabilitySet) (tree : FileTree) (r : Registry) (command : Command) :
    IO Outcome := do
  let times ← match command with
    | .info _ _ => pure []
    | .profile workload _ _ => measurements r workload
  return finish cpu tree r command fun primitive name => (times.lookup (primitive, name)).getD 0

def deliver (o : Outcome) : IO UInt32 := do
  IO.print o.output
  for (path, text) in o.files do
    IO.FS.writeFile path text
  if let some complaint := o.complaint then
    IO.eprintln complaint
  return o.code.toUInt32

end SimdDispatch.CommandLine

open SimdDispatch CommandLine in
def main (arguments : List String) : IO UInt32 := do
  let cpu ← processor
  let s ← surroundings arguments
  match prepare cpu s arguments with
  | .error o => deliver o
  | .ok (r, command) => deliver (← execute cpu s.tree r command)
