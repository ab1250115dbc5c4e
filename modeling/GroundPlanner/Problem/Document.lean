import GroundPlanner.Document.Format
import GroundPlanner.Problem.Draft
/-!
# Problem documents

A problem document has the fields of a draft; every one may be missing but the name of an action.
-/
namespace GroundPlanner

open DocumentValue

variable {V : Type} [DocumentValue V]

namespace EffectDraft

def set (e : EffectDraft) (field : String) (v : V) : Read EffectDraft := do
  match field with
  | "pre" => return { e with pre := ← texts v }
  | "pre_neg" => return { e with preNeg := ← texts v }
  | "add" => return { e with add := ← texts v }
  | _ => return { e with del := ← texts v }

def read (v : V) : Read EffectDraft := do
  return (← record ["pre", "pre_neg", "add", "del"] 0 set {} v).1

end EffectDraft

namespace ActionDraft

def set (a : ActionDraft) (field : String) (v : V) : Read ActionDraft := do
  match field with
  | "name" => return { a with name := ← text v }
  | "pre" => return { a with pre := ← texts v }
  | "pre_neg" => return { a with preNeg := ← texts v }
  | "add" => return { a with add := ← texts v }
  | "del" => return { a with del := ← texts v }
  | _ => return { a with when := ← list EffectDraft.read v }

def read (v : V) : Read ActionDraft := do
  let (a, given) ← record ["name", "pre", "pre_neg", "add", "del", "when"] 1 set { name := "" } v
  if "name" ∈ given then return a else throw (.missingField "name")

end ActionDraft

namespace Draft

def set (d : Draft) (field : String) (v : V) : Read Draft := do
  match field with
  | "name" => return { d with name := ← text v }
  | "requirements" =>
    return { d with requirements := ← list (constant Requirement.all Requirement.keyword) v }
  | "facts" => return { d with facts := ← optional texts v }
  | "init" => return { d with init := ← texts v }
  | "goal" => return { d with goal := ← texts v }
  | "goal_neg" => return { d with goalNeg := ← texts v }
  | _ => return { d with actions := ← list ActionDraft.read v }

def read (v : V) : Read Draft := do
  return (← record ["name", "requirements", "facts", "init", "goal", "goal_neg", "actions"] 0 set {} v).1

/-- The draft that a text describes. -/
def ofDocument (f : Format) (text : String) : Except ModelFault Draft :=
  (f.read Draft.read text).mapError .document

end Draft
end GroundPlanner
