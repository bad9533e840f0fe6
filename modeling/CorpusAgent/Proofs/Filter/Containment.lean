import CorpusAgent.Filter.Merge
import CorpusAgent.Proofs.Filter.Compile

/-!
# Rows that satisfy combined filters

* `Predicate.Satisfied`: a predicate is true of a row.
* `Filter.satisfied_compile_iff`: that of a filter is true of the rows of which the filter holds.
* `Filter.merge_restricts`, `Filter.merge_includes`: what the caller's filter excludes and includes
  when both filters count.
-/

namespace CorpusAgent

open Sql

/-- The predicate is true of a row, neither false nor unknown. -/
def Predicate.Satisfied (lower : String → String) (row : Row) (p : Predicate) : Prop :=
  p.evaluate lower row = .ok (some true)

namespace Filter

variable {lower : String → String} {row : Row} {fields : List Field}

theorem satisfied_compile_iff (f : Filter) :
    (f.compile fields).Satisfied lower row ↔ f.holds lower fields row = true := by
  have heval := (condition_yields lower row fields f #[]).2 _ (List.prefix_refl _)
  rw [Predicate.Satisfied, evaluate_eq_eval_condition]
  constructor
  · intro htrue
    exact Option.some.inj (Except.ok.inj (heval.symm.trans htrue))
  · intro hholds
    rw [hholds] at heval
    exact heval

/-! ### Both filters -/

variable {agent : Option Filter} {external f : Filter} {strategy : MergeStrategy}

theorem holds_all_pair (f g : Filter) : (all [f, g]).holds lower fields row = true ↔
    f.holds lower fields row = true ∧ g.holds lower fields row = true := by
  simp [holds, holdsEach]

theorem holds_any_pair (f g : Filter) : (any [f, g]).holds lower fields row = true ↔
    f.holds lower fields row = true ∨ g.holds lower fields row = true := by
  simp [holds, holdsEach]

/-- A row that the caller excludes stays excluded if both filters have to hold or the caller's has
priority, whatever the model's filter is. -/
theorem merge_restricts (h : merge agent (some external) .collaborative strategy = some f)
    (hstrategy : strategy = .mergeAnd ∨ strategy = .externalPriority)
    (hf : f.holds lower fields row = true) : external.holds lower fields row = true := by
  cases agent with
  | none =>
    obtain rfl := Option.some.inj h
    exact hf
  | some a =>
    have hcombined : strategy.combine a external = f := Option.some.inj h
    rcases hstrategy with rfl | rfl
    · rw [← hcombined] at hf
      exact ((holds_all_pair external a).mp hf).1
    · rwa [← hcombined] at hf

/-- A row that the caller includes stays included if one of the filters is enough. -/
theorem merge_includes (h : merge agent (some external) .collaborative strategy = some f)
    (hstrategy : strategy = .mergeOr) (hexternal : external.holds lower fields row = true) :
    f.holds lower fields row = true := by
  cases agent with
  | none =>
    obtain rfl := Option.some.inj h
    exact hexternal
  | some a =>
    have hcombined : strategy.combine a external = f := Option.some.inj h
    rw [← hcombined, hstrategy]
    exact (holds_any_pair external a).mpr (.inl hexternal)

end Filter

end CorpusAgent
