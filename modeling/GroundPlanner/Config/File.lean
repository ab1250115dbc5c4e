import GroundPlanner.Config.Document
import GroundPlanner.Host
/-!
# Configuration files
-/
namespace GroundPlanner
namespace Config

variable {m : Type → Type} [Monad m] [Host m]

/-- Reads a configuration in a given format. -/
def loadAs (format : Format) (path : String) : m (Except ConfigError Config) := do
  return ((← Host.readText path).mapError .file).bind (Config.ofDocument format)

/-- Reads a configuration in the format that the extension of its file tells. -/
def load (path : String) : m (Except ConfigError Config) :=
  loadAs (.ofPath path) path

end Config
end GroundPlanner
