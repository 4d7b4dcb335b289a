/-!
Options on a command line. They are read from left to right and the first that ends the reading
decides: a request for help or the version, or a mistake. An option stands at most once on a level.
A value in an argument of its own is only checked when the next option is read or the level ends.
-/
namespace SimdDispatch.CommandLine

structure OptionSpec where
  long : String
  short : Option Char := none
  value : Option (String → Bool) := none

/-- The options given on a level with their values, in order; those without a value have an empty
one. -/
abbrev Given := List (String × String)

inductive Ending where
  | misuse
  | help
  | version
deriving DecidableEq

structure Level where
  options : List OptionSpec
  hasVersion : Bool

namespace Level

def byLong (l : Level) (name : String) : Option OptionSpec := l.options.find? (·.long == name)

def byShort (l : Level) (c : Char) : Option OptionSpec := l.options.find? (·.short == some c)

end Level

/-- Whether an argument is none of the options and marks. -/
def isOperand (argument : String) : Bool := !argument.startsWith "-" || argument == "-"

def give (given : Given) (o : OptionSpec) (value : String) : Except Ending Given :=
  if given.any (·.1 == o.long) then .error .misuse
  else if o.value.all (· value) then .ok (given ++ [(o.long, value)])
  else .error .misuse

structure Reading where
  given : Given := []
  /-- The latest option, if it is still to be checked, with its value. -/
  pending : Option (OptionSpec × String) := none

namespace Reading

/-- The options given so far, all of them checked. -/
def settle (r : Reading) : Except Ending Given :=
  match r.pending with
  | none => .ok r.given
  | some (o, value) => give r.given o value

/-- Ends the reading, unless there is a mistake before. -/
def endWith {α : Type} (r : Reading) (ending : Ending) : Except Ending α :=
  match r.settle with
  | .ok _ => .error ending
  | .error mistake => .error mistake

def add (r : Reading) (o : OptionSpec) (value : String) : Except Ending Reading := do
  return { given := ← give (← r.settle) o value }

def await (r : Reading) (o : OptionSpec) (value : String) : Except Ending Reading := do
  return { given := ← r.settle, pending := some (o, value) }

/-- Adds an option with the value joined to it, or else with the argument after it. -/
def addWith (r : Reading) (o : OptionSpec) (joined : Option String) (rest : List String) :
    Except Ending (Reading × List String) :=
  match o.value, joined with
  | none, none => do return (← r.add o "", rest)
  | none, some _ => .error .misuse
  | some _, some value => do return (← r.add o value, rest)
  | some _, none => match rest with
    | next :: rest => if isOperand next then do return (← r.await o next, rest) else .error .misuse
    | [] => .error .misuse

end Reading

def splitLong (argument : String) : String × Option String :=
  let cs := argument.toList.drop 2
  let name := cs.takeWhile (· != '=')
  match cs.drop name.length with
  | [] => (String.ofList name, none)
  | _ :: value => (String.ofList name, some (String.ofList value))

def readLong (l : Level) (r : Reading) (argument : String) (rest : List String) :
    Except Ending (Reading × List String) :=
  let (name, joined) := splitLong argument
  match l.byLong name with
  | some o => r.addWith o joined rest
  | none =>
    if joined.isSome then .error .misuse
    else if name = "help" then r.endWith .help
    else if name = "version" && l.hasVersion then r.endWith .version
    else .error .misuse

/-- Reads short options that stand together; one that takes a value takes all that follows. -/
def readShort (l : Level) (rest : List String) :
    Reading → List Char → Except Ending (Reading × List String)
  | r, [] => .ok (r, rest)
  | r, c :: cs =>
    match l.byShort c with
    | some o =>
      if o.value.isSome then
        let joined := if cs.head? == some '=' then cs.drop 1 else cs
        r.addWith o (if cs.isEmpty then none else some (String.ofList joined)) rest
      else do readShort l rest (← r.add o "") cs
    | none =>
      if c = 'h' then r.endWith .help
      else if c = 'V' && l.hasVersion then r.endWith .version
      else .error .misuse

/-- Reads the options up to the first operand; gives how far that is and the rest. Nothing may follow
the mark that ends the options. -/
def readOptions (l : Level) : Nat → Reading → List String → Except Ending (Reading × List String)
  | 0, r, rest => .ok (r, rest)
  | _, r, [] => .ok (r, [])
  | fuel + 1, r, argument :: rest =>
    if argument = "--" then if rest.isEmpty then .ok (r, []) else .error .misuse
    else if isOperand argument then .ok (r, argument :: rest)
    else do
      let (r, rest) ← if argument.startsWith "--" then readLong l r argument rest
        else readShort l rest r (argument.toList.drop 1)
      readOptions l fuel r rest

end SimdDispatch.CommandLine
