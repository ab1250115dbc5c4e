import GroundPlanner.Problem.Basic
/-!
# Drafts of problems

A draft speaks of facts by name.  `Draft.build` numbers the facts and resolves every name, or reports the
first violation: an undeclared fact, or a second action of the same name.  A draft without a fact table
takes the names that it mentions, in the order of their first mention (`Draft.mentioned`).
-/
namespace GroundPlanner

/-- A conditional effect by names. -/
structure EffectDraft where
  pre : List String := []
  preNeg : List String := []
  add : List String := []
  del : List String := []
deriving DecidableEq, Repr

structure ActionDraft where
  name : String
  pre : List String := []
  preNeg : List String := []
  add : List String := []
  del : List String := []
  when : List EffectDraft := []
deriving DecidableEq, Repr

structure Draft where
  name : String := ""
  requirements : List Requirement := []
  facts : Option (List String) := none
  init : List String := []
  goal : List String := []
  goalNeg : List String := []
  actions : List ActionDraft := []
deriving DecidableEq, Repr

/-! ## The fact table -/

/-- The first occurrences in a list, less what was seen before. -/
def firstMentions : List String → List String → List String
  | _, [] => []
  | seen, x :: xs => if x ∈ seen then firstMentions seen xs else x :: firstMentions (x :: seen) xs

/-- The distinct members of a list, in order of first occurrence. -/
def distinct (xs : List String) : List String :=
  firstMentions [] xs

namespace EffectDraft

def mentioned (e : EffectDraft) : List String :=
  e.pre ++ e.preNeg ++ e.add ++ e.del

end EffectDraft

namespace ActionDraft

def mentioned (a : ActionDraft) : List String :=
  a.pre ++ a.preNeg ++ a.add ++ a.del ++ a.when.flatMap EffectDraft.mentioned

end ActionDraft

namespace Draft

/-- Every fact name of the draft outside its fact table, in reading order. -/
def mentions (d : Draft) : List String :=
  d.init ++ d.goal ++ d.goalNeg ++ d.actions.flatMap ActionDraft.mentioned

/-- The names in the order of their first mention. -/
def mentioned (d : Draft) : List String :=
  distinct d.mentions

/-- The declared names without later repetitions, or else the mentioned ones. -/
def table (d : Draft) : List String :=
  match d.facts with
  | some names => distinct names
  | none => d.mentioned

end Draft

/-! ## Resolving names -/

/-- The numbers of facts that must all stand in the table. -/
def resolve (table : List String) (context : FactContext) : List String → Except ModelFault (List FactId)
  | [] => .ok []
  | n :: ns => do
    match table.idxOf? n with
    | none => .error (.unknownFact n context)
    | some f => return f :: (← resolve table context ns)

namespace EffectDraft

def build (table : List String) (context : FactContext) (e : EffectDraft) : Except ModelFault GuardedEffect := do
  let pre ← resolve table context e.pre
  let preNeg ← resolve table context e.preNeg
  let add ← resolve table context e.add
  let del ← resolve table context e.del
  return ⟨.of pre preNeg, ⟨add, del⟩⟩

def buildAll (table : List String) (context : FactContext) :
    List EffectDraft → Except ModelFault (List GuardedEffect)
  | [] => .ok []
  | e :: es => do
    let g ← e.build table context
    return g :: (← buildAll table context es)

end EffectDraft

namespace ActionDraft

/-- The unconditional effect comes first and is left out when it is empty. -/
def build (table : List String) (a : ActionDraft) : Except ModelFault Action := do
  let context := FactContext.action a.name
  let pre ← resolve table context a.pre
  let preNeg ← resolve table context a.preNeg
  let add ← resolve table context a.add
  let del ← resolve table context a.del
  let conditional ← EffectDraft.buildAll table context a.when
  let effect : Effect := ⟨add, del⟩
  return {
    name := a.name
    precondition := .of pre preNeg
    effects := if effect.isEmpty then conditional else ⟨.trivial, effect⟩ :: conditional }

/-- Builds the actions in order; `prior` holds the names of those already built. -/
def buildAll (table : List String) (prior : List String) :
    List ActionDraft → Except ModelFault (List Action)
  | [] => .ok []
  | a :: as => do
    match prior.idxOf? a.name with
    | some i => .error (.duplicateAction a.name i prior.length)
    | none =>
      let built ← a.build table
      return built :: (← buildAll table (prior ++ [a.name]) as)

end ActionDraft

namespace Draft

/-- The problem that a draft describes.  Without a declared requirement the plain fragment is assumed. -/
def build (d : Draft) : Except ModelFault Problem := do
  let table := d.table
  let init ← resolve table .init d.init
  let goal ← resolve table .goal d.goal
  let goalNeg ← resolve table .goal d.goalNeg
  let actions ← ActionDraft.buildAll table [] d.actions
  return {
    name := d.name
    facts := table
    init := .ofFacts table.length init
    goal := .of goal goalNeg
    actions := actions
    requirements := if d.requirements.isEmpty then [.strips] else d.requirements }

end Draft
end GroundPlanner
