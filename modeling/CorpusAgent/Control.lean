/-!
# Control over searches

Who may influence a search, the model or the caller or both, and how two filters are combined when
both may.
-/

namespace CorpusAgent

/-- Who may influence a search. -/
inductive ControlMode where
  /-- The model. -/
  | agent
  /-- The caller, or the settings. -/
  | external
  /-- Both. -/
  | collaborative
  deriving DecidableEq, Repr

/-- How the caller's filter and the model's are combined when there are both. -/
inductive MergeStrategy where
  | mergeAnd
  | mergeOr
  | agentPriority
  | externalPriority
  deriving DecidableEq, Repr

def ControlMode.name : ControlMode → String
  | .agent => "agent"
  | .external => "external"
  | .collaborative => "collaborative"

def ControlMode.ofName? (name : String) : Option ControlMode :=
  [.agent, .external, .collaborative].find? fun mode => mode.name == name

def MergeStrategy.name : MergeStrategy → String
  | .mergeAnd => "merge_and"
  | .mergeOr => "merge_or"
  | .agentPriority => "agent_priority"
  | .externalPriority => "external_priority"

def MergeStrategy.ofName? (name : String) : Option MergeStrategy :=
  [.mergeAnd, .mergeOr, .agentPriority, .externalPriority].find? fun s => s.name == name

end CorpusAgent
