import SimdDispatch.Config.Document
import SimdDispatch.Config.Environment
import SimdDispatch.FileTree

/-!
Where configurations come from. The settings of environment variables are laid over those of a file,
and those over the defaults.
-/
namespace SimdDispatch

structure Surroundings where
  tree : FileTree
  environment : Environment

inductive LoadFailure where
  | refused (error : Error)
  /-- A variable holds a text that is cut within a character. -/
  | splitCharacter
deriving DecidableEq

/-- The wording of a failure, for those of which more is told than that. -/
def LoadFailure.message : LoadFailure → Option String
  | refused e => some e.message
  | splitCharacter => none

namespace Config

def defaultFile : String := "lanekit.toml"

/-- The configuration of a document, if there is one, and of settings above it. -/
def under (upper : Settings) : Option String → Except Error Config
  | none => ofLayers [upper]
  | some document => do ofLayers [← settingsOf document, upper]

/-- The configuration of a document, if there is one, and of environment variables. The variables
are read first. -/
def layered (document : Option String) (environment : Environment) : Except LoadFailure Config :=
  match environment.settings with
  | .error _ => .error .splitCharacter
  | .ok upper => (under upper document).mapError .refused

def fileName (environment : Environment) : String :=
  (environment.lookup Environment.fileVariable).getD defaultFile

/-- The configuration of the surroundings; there need not be a file. -/
def load (s : Surroundings) : Except LoadFailure Config :=
  layered (s.tree.search (fileName s.environment)) s.environment

/-- The configuration of a file, which must exist, and of environment variables. -/
def loadFrom (s : Surroundings) (path : String) : Except LoadFailure Config :=
  match s.tree.read path with
  | none => .error (.refused (.fileNotFound path))
  | some text => layered (some text) s.environment

end Config
end SimdDispatch
