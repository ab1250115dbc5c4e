import GroundPlanner.Toml.View
import GroundPlanner.Yaml.View
/-!
# Reading documents in a format

A TOML text is read as a whole before its values are.  The values of a YAML text are read as far as it keeps
the rules, so that a fault in a value is reported even when the text breaks off after it.
-/
namespace GroundPlanner

open DocumentValue

/-- Reads a value that can be described for every format. -/
def Format.read {α : Type} (f : Format) (value : {V : Type} → [DocumentValue V] → V → Read α) (text : String) :
    Except ParseFault α :=
  let result : Except DocumentFault α := match f with
    | .toml =>
      match Toml.read? text with
      | some v => (value v).run' 0
      | none => .error .malformed
    | .yaml => do
      let d := Yaml.Document.ofText text
      let a ← (value (Yaml.Value.mk d.slots d.root)).run' d.maxFollowed
      if d.complete then return a else throw .malformed
  result.mapError (ParseFault.mk f)

end GroundPlanner
