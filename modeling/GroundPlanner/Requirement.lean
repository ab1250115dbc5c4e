import GroundPlanner.Text.Basic
/-!
# Requirement flags

A problem may declare what it assumes of a planner.  Ten flags are honoured, fourteen are
refused.  `offending` lists the refused flags among the declared ones, each once, in the order in which
the flags are listed here.
-/
namespace GroundPlanner

inductive Requirement where
  | strips
  | typing
  | negativePreconditions
  | disjunctivePreconditions
  | equality
  | existentialPreconditions
  | universalPreconditions
  | quantifiedPreconditions
  | conditionalEffects
  | adl
  | actionCosts
  | constraints
  | continuousEffects
  | derivedPredicates
  | durativeActions
  | durationInequalities
  | fluents
  | goalUtilities
  | methodConstraints
  | numericFluents
  | objectFluents
  | preferences
  | timedInitialLiterals
  | hierarchy
deriving DecidableEq, Repr

namespace Requirement

/-- All flags, in the order in which reports list them. -/
def all : List Requirement :=
  [strips, typing, negativePreconditions, disjunctivePreconditions, equality, existentialPreconditions,
    universalPreconditions, quantifiedPreconditions, conditionalEffects, adl, actionCosts, constraints,
    continuousEffects, derivedPredicates, durativeActions, durationInequalities, fluents, goalUtilities,
    methodConstraints, numericFluents, objectFluents, preferences, timedInitialLiterals, hierarchy]

theorem mem_all (r : Requirement) : r ∈ all := by
  cases r <;> decide

/-- The keyword of a flag, without the colon that introduces it in a problem. -/
def keyword : Requirement → String
  | strips => "strips"
  | typing => "typing"
  | negativePreconditions => "negative-preconditions"
  | disjunctivePreconditions => "disjunctive-preconditions"
  | equality => "equality"
  | existentialPreconditions => "existential-preconditions"
  | universalPreconditions => "universal-preconditions"
  | quantifiedPreconditions => "quantified-preconditions"
  | conditionalEffects => "conditional-effects"
  | adl => "adl"
  | actionCosts => "action-costs"
  | constraints => "constraints"
  | continuousEffects => "continuous-effects"
  | derivedPredicates => "derived-predicates"
  | durativeActions => "durative-actions"
  | durationInequalities => "duration-inequalities"
  | fluents => "fluents"
  | goalUtilities => "goal-utilities"
  | methodConstraints => "method-constraints"
  | numericFluents => "numeric-fluents"
  | objectFluents => "object-fluents"
  | preferences => "preferences"
  | timedInitialLiterals => "timed-initial-literals"
  | hierarchy => "hierarchy"

/-- A flag as it is shown in messages. -/
def label (r : Requirement) : String :=
  ":" ++ r.keyword

/-- The flags that state-space search over ground facts honours. -/
def supported : Requirement → Bool
  | strips | typing | negativePreconditions | disjunctivePreconditions | equality | existentialPreconditions
  | universalPreconditions | quantifiedPreconditions | conditionalEffects | adl => true
  | _ => false

/-- The flags that the searches refuse. -/
def refused : List Requirement :=
  all.filter (fun r => !r.supported)

/-- The flag of exactly this keyword. -/
def ofKeyword? (s : String) : Option Requirement :=
  all.find? (fun r => r.keyword == s)

/-- Reads a keyword leniently: blanks around it, leading colons and the case of its letters do not matter. -/
def parse? (s : String) : Option Requirement :=
  let word := Text.dropLeading ':' (Text.trim s)
  all.find? (fun r => Text.equalIgnoringCase r.keyword word)

/-- The refused flags among the declared ones, each once. -/
def offending (declared : List Requirement) : List Requirement :=
  refused.filter (fun r => declared.contains r)

theorem mem_offending {r : Requirement} {declared : List Requirement} :
    r ∈ offending declared ↔ r.supported = false ∧ r ∈ declared := by
  simp [offending, refused, mem_all, and_comm]

theorem offending_eq_nil_iff {declared : List Requirement} :
    offending declared = [] ↔ ∀ r ∈ declared, r.supported = true := by
  simp only [List.eq_nil_iff_forall_not_mem, mem_offending, not_and]
  exact forall_congr' fun r => by cases r.supported <;> simp

end Requirement
end GroundPlanner
