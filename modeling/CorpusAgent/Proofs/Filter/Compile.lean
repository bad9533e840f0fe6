import CorpusAgent.Proofs.Filter.Condition
import CorpusAgent.Proofs.Filter.Fit

/-!
# Predicates mean what their filters mean

* `Predicate.evaluate`: the text of a predicate is read and evaluated over a row, with the values of
  the placeholders taken from the predicate by name.
* `Filter.evaluate_eq_eval_condition`: the predicate of a filter is read back as its condition.
* `Filter.compile_evaluate`: for the predicate of a filter this gives true or false, never unknown
  and never a fault, as the filter holds of the row or not.
* `Filter.isEmpty_compile`: no filter leaves its predicate blank.
-/

namespace CorpusAgent

open Sql

/-- The truth value of a predicate over a row. -/
def Predicate.evaluate (lower : String → String) (row : Row) (p : Predicate) :
    Except Fault Truth :=
  match Cond.read? p.sql with
  | none => .error .unread
  | some c => c.eval ⟨lower, row, fun i => lookup? p.params (paramName i)⟩ none

/-- The predicate of a filter is read back as its condition, with the values bound for it. -/
theorem Filter.evaluate_eq_eval_condition (f : Filter) (fields : List Field)
    (lower : String → String) (row : Row) :
    (f.compile fields).evaluate lower row = ((condition fields f).run #[]).1.eval
      (envOf lower row ((condition fields f).run #[]).2.toList) none := by
  have hfit := (condition_fitting fields f #[]).2 _ (List.prefix_refl _)
  have hread : Cond.read? (f.compile fields).sql = some ((condition fields f).run #[]).1 :=
    Cond.read?_render hfit.fits
  have hbound : (fun i => lookup? (f.compile fields).params (paramName i)) =
      fun i => ((condition fields f).run #[]).2.toList[i]? :=
    funext (lookup?_paramsOf _)
  unfold Predicate.evaluate
  rw [hread, hbound]
  rfl

/-- The predicate of a filter is true of the rows of which the filter holds, and false of all
others. -/
theorem Filter.compile_evaluate (f : Filter) (fields : List Field) (lower : String → String)
    (row : Row) :
    (f.compile fields).evaluate lower row = .ok (some (f.holds lower fields row)) := by
  rw [evaluate_eq_eval_condition]
  exact (condition_yields lower row fields f #[]).2 _ (List.prefix_refl _)

/-- Every condition has words of its own besides those of its parts. -/
theorem Sql.Cond.isBlank_render (c : Cond) : Text.isBlank c.render = false := by
  have hwords : ∀ w ∈ [" = ", " IS NULL", " IS NOT NULL", " IS NOT DISTINCT FROM ",
      " IS DISTINCT FROM ", "strpos(lower(", " NOT IN (", ") AS el WHERE ", ", FALSE)", "NOT ",
      " AND ", " OR ", "("], Text.isBlank w = false := by decide
  simp only [List.forall_mem_cons] at hwords
  cases c with
  | literal value => cases value <;> decide
  | equal | isNull | isNotNull | isNotDistinct | isDistinct | contains | notAmong | noValues
  | someValues | someElement | orFalse | negate | both | either | paren =>
    simp [Cond.render_equal, Cond.render_isNull, Cond.render_isNotNull, Cond.render_isNotDistinct,
      Cond.render_isDistinct, Cond.render_contains, Cond.render_notAmong, Cond.render_noValues,
      Cond.render_someValues, Cond.render_someElement, Cond.render_orFalse, Cond.render_negate,
      Cond.render_both, Cond.render_either, Cond.render_paren, hwords]

theorem Filter.isEmpty_compile (f : Filter) (fields : List Field) :
    (f.compile fields).isEmpty = false :=
  Cond.isBlank_render _

end CorpusAgent
