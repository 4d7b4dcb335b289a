import SimdDispatch.CommandLine.Help
import SimdDispatch.CommandLine.Output
import SimdDispatch.Config.Sources
import SimdDispatch.Report.Json
import SimdDispatch.Report.Profile

/-!
The program from its arguments to its output. What it cannot know, the times that calls take, is
given; files are written at the end, and what they hold is part of the result.
-/
namespace SimdDispatch.CommandLine

structure Outcome where
  code : Nat
  output : String := ""
  complaint : Option String := none
  /-- Files to write, by their paths, in order. -/
  files : List (String × String) := []

namespace Outcome

def success (output : String) : Outcome where
  code := 0
  output

def failure (output reason : String) : Outcome where
  code := 1
  output
  complaint := some s!"Error: {reason}"

def misuse : Outcome where
  code := 2
  complaint := some "error: invalid arguments"

def broken (output : String) : Outcome where
  code := 101
  output

end Outcome

def configuration (s : Surroundings) : Source → Except LoadFailure Config
  | .nowhere => .ok {}
  | .file path => Config.loadFrom s path
  | .surroundings => Config.load s

/-- The registry and the command that the arguments ask for, or how the run ends without them. -/
def prepare (cpu : CapabilitySet) (s : Surroundings) (arguments : List String) :
    Except Outcome (Registry × Command) :=
  match request arguments with
  | .misuse => .error .misuse
  | .help topic => .error (.success topic.text)
  | .version => .error (.success versionText)
  | .run source command =>
    match configuration s source with
    | .error e => .error (e.message.elim (.broken "") (.failure ""))
    | .ok config => match (Registry.withConfig cpu config).outcome with
      | .error e => .error (.failure "" e.message)
      | .ok r => .ok (r, command)

/-- Writes a file in addition to those of a run that went well so far, and says so. -/
def writeFile (tree : FileTree) (what : String) (path : Option String) (text : String)
    (o : Outcome) : Outcome :=
  match path with
  | none => o
  | some path =>
    if o.code ≠ 0 then o
    else match tree.writable path with
      | .ok _ => { o with
        output := o.output ++ lines [s!"{what} written to {path}"]
        files := o.files ++ [(path, text)] }
      | .error _ => { Outcome.failure o.output s!"writing {path}" with files := o.files }

/-- Fails a run that went well so far if implementations disagreed. -/
def checkFailures (report : Report) (o : Outcome) : Outcome :=
  let failed := Text.joinWith ", " (failures report)
  if o.code ≠ 0 || failed = "" then o
  else { Outcome.failure o.output s!"variants disagree with generic: {failed}" with files := o.files }

def finishProfile (tree : FileTree) (heading : String) (json config : Option String)
    (report : Report) : Outcome :=
  checkFailures report
    (writeFile tree "Configuration" config report.toConfig.write
      (writeFile tree "Report" json report.write
        (.success (heading ++ String.join (report.tests.map primitiveText)))))

/-- Carries out a command; `elapsed` gives the nanoseconds that all calls of an implementation of a
primitive take. -/
def finish (cpu : CapabilitySet) (tree : FileTree) (r : Registry) (command : Command)
    (elapsed : String → String → Nat) : Outcome :=
  match command with
  | .info allMachines json =>
    .success (if json then infoJson cpu r allMachines else infoText cpu r allMachines)
  | .profile workload json config =>
    let heading := profileHeading r workload
    match r.profile workload elapsed with
    | .ok report => finishProfile tree heading json config report
    | .error e => e.message.elim (.broken heading) (.failure heading)

def run (cpu : CapabilitySet) (s : Surroundings) (arguments : List String)
    (elapsed : String → String → Nat) : Outcome :=
  match prepare cpu s arguments with
  | .error o => o
  | .ok (r, command) => finish cpu s.tree r command elapsed

end SimdDispatch.CommandLine
