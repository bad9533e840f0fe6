import CorpusAgent.Control
import CorpusAgent.Filter.Basic

/-!
# Combining two filters

The model and the caller may each bring a filter.  The control mode says whose filter counts, and if
both count, the strategy says how they are combined.  One filter alone is taken as it is.
-/

namespace CorpusAgent

/-- Two filters combined, the caller's first. -/
def MergeStrategy.combine (agent external : Filter) : MergeStrategy → Filter
  | .mergeAnd => .all [external, agent]
  | .mergeOr => .any [external, agent]
  | .agentPriority => agent
  | .externalPriority => external

/-- The filter a search runs with, if any. -/
def Filter.merge (agent external : Option Filter) (mode : ControlMode)
    (strategy : MergeStrategy) : Option Filter :=
  match mode with
  | .agent => agent
  | .external => external
  | .collaborative =>
    match agent, external with
    | some a, some e => some (strategy.combine a e)
    | some a, none => some a
    | none, e => e

end CorpusAgent
