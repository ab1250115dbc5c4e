import GroundPlanner.Action
import GroundPlanner.Error
/-!
# Ground problems

A problem names its facts, fixes an initial state and a goal, and lists its actions.  Actions are known by
their index in that list.
-/
namespace GroundPlanner

structure Problem where
  name : String
  /-- The fact table: the name of fact `i` stands at index `i`. -/
  facts : List String
  init : State
  goal : Condition
  actions : List Action
  requirements : List Requirement
deriving DecidableEq

namespace Problem

def numFacts (p : Problem) : Nat :=
  p.facts.length

def factName? (p : Problem) (f : FactId) : Option String :=
  p.facts[f]?

def factId? (p : Problem) (name : String) : Option FactId :=
  p.facts.idxOf? name

def actionIndex? (p : Problem) (name : String) : Option Nat :=
  p.actions.findIdx? (fun a => a.name == name)

def isGoal (p : Problem) (s : State) : Bool :=
  s.satisfies p.goal

/-- The actions that apply in `s`, each with its index, in increasing order of indices. -/
def options (p : Problem) (s : State) : List (Nat × Action) :=
  p.actions.zipIdx.filterMap (fun (a, i) => if a.applicable s then some (i, a) else none)

/-- The indices of the applicable actions. -/
def applicable (p : Problem) (s : State) : List Nat :=
  (p.options s).map Prod.fst

/-- The applicable actions, each with the state that it leads to. -/
def successors (p : Problem) (s : State) : List (Nat × State) :=
  (p.options s).map (fun (i, a) => (i, a.successor s))

theorem mem_options {p : Problem} {s : State} {i : Nat} {a : Action} :
    (i, a) ∈ p.options s ↔ p.actions[i]? = some a ∧ a.applicable s = true := by
  simp only [options, List.mem_filterMap, Prod.exists, List.mem_zipIdx_iff_getElem?]
  constructor
  · rintro ⟨b, j, hb, h⟩
    split at h
    · simp only [Option.some.injEq, Prod.mk.injEq] at h
      obtain ⟨rfl, rfl⟩ := h
      exact ⟨hb, by assumption⟩
    · cases h
  · rintro ⟨ha, happ⟩
    exact ⟨a, i, ha, by simp [happ]⟩

/-- The searches refuse a problem that declares an unsupported requirement. -/
def checkSupported (requirements : List Requirement) : Except PlannerError Unit :=
  match Requirement.offending requirements with
  | [] => .ok ()
  | rs => .error (.unsupported rs)

theorem checkSupported_eq_ok_iff {requirements : List Requirement} :
    checkSupported requirements = .ok () ↔ ∀ r ∈ requirements, r.supported = true := by
  rw [← Requirement.offending_eq_nil_iff]
  unfold checkSupported
  split
  · rename_i h
    exact iff_of_true rfl h
  · rename_i h
    exact iff_of_false nofun h

theorem checkSupported_ne_ok_iff {requirements : List Requirement} :
    checkSupported requirements ≠ .ok () ↔ ∃ r ∈ requirements, r.supported = false := by
  rw [ne_eq, checkSupported_eq_ok_iff]
  simp

end Problem
end GroundPlanner
