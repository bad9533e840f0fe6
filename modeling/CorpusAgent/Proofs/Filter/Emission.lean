import CorpusAgent.Proofs.Filter.Compile

/-!
# Parts of a filter are never left out

A blank predicate restricts nothing.  A group joins the texts of its parts and leaves out those that
are empty, so a part that came to an empty text would widen a search without notice.

* `Filter.emit`: the text of a filter from the texts of its parts, by way of `joinTexts`, which
  leaves out what is empty.
* `Filter.emit_eq`: this is the text of the condition of the filter.
* `Filter.emitEach_kept`: every part has a text of its own, and none of them is left out.
* `Filter.isEmpty_compileValue_iff`: only a tree that is no filter has a blank predicate.
-/

namespace CorpusAgent

open Sql

/-- Texts with an operator between them, within parentheses, or the only one as it stands; without
any the given text.  Empty texts are left out. -/
def joinTexts (operator unit : String) (texts : List String) : String :=
  match texts.filter (· ≠ "") with
  | [] => unit
  | [text] => text
  | texts => "(" ++ operator.intercalate texts ++ ")"

namespace Filter

mutual

/-- The text of a filter, from the texts of its parts.  The negation of nothing is nothing. -/
def emit (fields : List Field) : Filter → Build String
  | .all parts => do pure (joinTexts " AND " "TRUE" (← emitEach fields parts))
  | .any parts => do pure (joinTexts " OR " "FALSE" (← emitEach fields parts))
  | .not part => do
    let text ← emit fields part
    pure (if text = "" then "" else "(NOT " ++ text ++ ")")
  | .field name c => Cond.render <$> condition fields (.field name c)
  | .path origin key c => Cond.render <$> condition fields (.path origin key c)

/-- The texts of several filters. -/
def emitEach (fields : List Field) : List Filter → Build (List String)
  | [] => pure []
  | part :: rest => do
    let text ← emit fields part
    let texts ← emitEach fields rest
    pure (text :: texts)

end

/-! ### Groups -/

theorem render_ne_empty (c : Cond) : c.render ≠ "" := by
  intro hempty
  have hblank := c.isBlank_render
  rw [hempty, Text.isBlank_empty] at hblank
  cases hblank

theorem filter_renders (cs : List Cond) :
    (cs.map Cond.render).filter (· ≠ "") = cs.map Cond.render := by
  refine List.filter_eq_self.mpr fun text htext => ?_
  obtain ⟨c, -, rfl⟩ := List.mem_map.mp htext
  exact decide_eq_true (render_ne_empty c)

section

variable {join : Cond → Cond → Cond} {operator : String}
  (hrender : ∀ a b, (join a b).render = a.render ++ operator ++ b.render)

include hrender

theorem render_joined (first : Cond) (rest : List Cond) :
    (Cond.joined join first rest).render =
      operator.intercalate ((first :: rest).map Cond.render) := by
  induction rest generalizing first with
  | nil => simp [Cond.joined]
  | cons c rest ih =>
    have hstep : (Cond.joined join first (c :: rest)).render =
        (Cond.joined join (join first c) rest).render := rfl
    rw [hstep, ih, List.map_cons, hrender, String.intercalate_cons_append, List.map_cons,
      List.map_cons, String.intercalate_cons_cons]

theorem render_grouped (unit : Bool) (cs : List Cond) :
    (Cond.grouped join (.literal unit) cs).render =
      joinTexts operator (Cond.literal unit).render (cs.map Cond.render) := by
  rw [joinTexts, filter_renders]
  match cs with
  | [] => rfl
  | [c] => rfl
  | c :: d :: rest =>
    rw [Cond.grouped, Cond.render_paren, render_joined hrender]
    rfl

end

/-! ### Filters -/

mutual

/-- The text of a filter is the text of its condition. -/
theorem emit_eq (fields : List Field) (f : Filter) :
    emit fields f = Cond.render <$> condition fields f := by
  cases f with
  | all parts =>
    simp only [emit, condition, emitEach_eq fields parts, bind_map_left, map_bind, map_pure,
      render_grouped Cond.render_both, Cond.render_true]
  | any parts =>
    simp only [emit, condition, emitEach_eq fields parts, bind_map_left, map_bind, map_pure,
      render_grouped Cond.render_either, Cond.render_false]
  | not part =>
    have htext : ∀ c : Cond, "(NOT " ++ c.render ++ ")" = (Cond.paren (.negate c)).render := by
      intro c
      rw [Cond.render_paren, Cond.render_negate, ← String.append_assoc]
      rfl
    simp only [emit, condition, emit_eq fields part, bind_map_left, map_bind, map_pure,
      if_neg (render_ne_empty _), htext]
  | field name c => rw [emit]
  | path origin key c => rw [emit]

theorem emitEach_eq (fields : List Field) (fs : List Filter) :
    emitEach fields fs = List.map Cond.render <$> conditions fields fs := by
  cases fs with
  | nil => simp only [emitEach, conditions, map_pure, List.map_nil]
  | cons f rest =>
    simp only [emitEach, conditions, emit_eq fields f, emitEach_eq fields rest, bind_map_left,
      map_bind, map_pure, List.map_cons]

end

theorem conditions_length (fields : List Field) (parts : List Filter) (bound : Array String) :
    ((conditions fields parts).run bound).1.length = parts.length := by
  induction parts generalizing bound with
  | nil => rfl
  | cons part rest ih => exact congrArg (· + 1) (ih _)

theorem isBlank_emit (fields : List Field) (f : Filter) (bound : Array String) :
    Text.isBlank ((emit fields f).run bound).1 = false := by
  rw [emit_eq]
  exact Cond.isBlank_render _

/-- Every part of a group has a text of its own, and none of them is left out. -/
theorem emitEach_kept (fields : List Field) (parts : List Filter) (bound : Array String) :
    ((emitEach fields parts).run bound).1.length = parts.length ∧
      ((emitEach fields parts).run bound).1.filter (· ≠ "") =
        ((emitEach fields parts).run bound).1 := by
  rw [emitEach_eq]
  exact ⟨(List.length_map _).trans (conditions_length fields parts bound), filter_renders _⟩

theorem compile_eq_emit (fields : List Field) (f : Filter) : f.compile fields =
    ⟨((emit fields f).run #[]).1, paramsOf ((emit fields f).run #[]).2⟩ := by
  rw [emit_eq]
  rfl

/-- Only a tree that is no filter has a blank predicate, and then nothing is bound. -/
theorem isEmpty_compileValue_iff (v : Json) (fields : List Field) :
    ((compileValue v fields).isEmpty = true ↔ ∃ e, parse v = .error e) ∧
      ((compileValue v fields).isEmpty = true → (compileValue v fields).params = []) := by
  rw [compileValue]
  cases parse v with
  | error e => exact ⟨iff_of_true rfl ⟨e, rfl⟩, fun _ => rfl⟩
  | ok f =>
    simp only [isEmpty_compile, Bool.false_eq_true, false_iff, false_implies, and_true]
    rintro ⟨e, he⟩
    cases he

end Filter

end CorpusAgent
