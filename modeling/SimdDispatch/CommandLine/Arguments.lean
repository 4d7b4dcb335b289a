import SimdDispatch.CommandLine.Options
import SimdDispatch.Report.Basic

/-!
The arguments of the program: options that every command shares, a command, and its own options.
Shared options may stand before the command or after it; those after it win.
-/
namespace SimdDispatch.CommandLine

inductive Source where
  | surroundings
  | file (path : String)
  /-- Nowhere: the configuration is the default one. -/
  | nowhere
deriving DecidableEq

inductive Command where
  | info (allMachines json : Bool)
  | profile (workload : Workload) (json writeConfig : Option String)
deriving DecidableEq

inductive Topic where
  | program
  | info
  | profile
  | help
deriving DecidableEq

inductive Request where
  | run (source : Source) (command : Command)
  | help (topic : Topic)
  | version
  | misuse
deriving DecidableEq

def isPath (s : String) : Bool := s != ""

/-- A count that fits sixty-four bits; a plus sign may stand before it. -/
def count? (s : String) : Option Nat :=
  let digits := match s.toList with
    | '+' :: ds => ds
    | ds => ds
  let n := digits.foldl (fun n c => 10 * n + (c.toNat - '0'.toNat)) 0
  if !digits.isEmpty && digits.all Char.isDigit && n < UInt64.size then some n else none

def shared : List OptionSpec :=
  [{ long := "config", short := some 'c', value := some isPath }, { long := "no-config" }]

def infoOptions : List OptionSpec := [{ long := "all-machines" }, { long := "json" }]

def profileOptions : List OptionSpec :=
  [{ long := "iterations", short := some 'i', value := some fun s => (count? s).isSome },
    { long := "points", short := some 'p', value := some fun s => (count? s).isSome },
    { long := "json", value := some isPath }, { long := "write-config", value := some isPath }]

def Given.has (g : Given) (name : String) : Bool := (g.lookup name).isSome

/-- A file and none at all must not be asked for on one level. -/
def Given.conflicts (g : Given) : Bool := g.has "config" && g.has "no-config"

/-- Where the configuration comes from by the options before the command and after it. -/
def sourceOf (before after : Given) : Source :=
  if before.has "no-config" || after.has "no-config" then .nowhere
  else match after.lookup "config" <|> before.lookup "config" with
    | some path => .file path
    | none => .surroundings

def Given.count (g : Given) (name : String) (default : Nat) : Nat :=
  ((g.lookup name).bind count?).getD default

def infoOf (g : Given) : Command := .info (g.has "all-machines") (g.has "json")

def profileOf (g : Given) : Command :=
  .profile ⟨g.count "points" Workload.default.points,
    g.count "iterations" Workload.default.iterations⟩ (g.lookup "json") (g.lookup "write-config")

/-- What the options before a command and after it ask for. -/
def requestWith (command : Given → Command) (before after : Given) : Request :=
  if before.conflicts || after.conflicts then .misuse
  else .run (sourceOf before after) (command after)

/-- Reads the arguments after a command that takes no operands. What is pending before the command
is only checked after them. -/
def requestFor (topic : Topic) (own : List OptionSpec) (command : Given → Command)
    (before : Reading) (arguments : List String) : Request :=
  match readOptions ⟨own ++ shared, false⟩ (arguments.length + 1) {} arguments with
  | .error .help => .help topic
  | .ok (after, []) => match after.settle, before.settle with
    | .ok after, .ok before => requestWith command before after
    | _, _ => .misuse
  | _ => .misuse

def helpOn : List String → Request
  | [] => .help .program
  | ["info"] => .help .info
  | ["profile"] => .help .profile
  | ["help"] => .help .help
  | _ => .misuse

def request (arguments : List String) : Request :=
  match readOptions ⟨shared, true⟩ (arguments.length + 1) {} arguments with
  | .error .help => .help .program
  | .error .version => .version
  | .ok (before, "info" :: rest) => requestFor .info infoOptions infoOf before rest
  | .ok (before, "profile" :: rest) => requestFor .profile profileOptions profileOf before rest
  | .ok (_, "help" :: rest) => helpOn rest
  | _ => .misuse

end SimdDispatch.CommandLine
