import CorpusAgent.Sql.Expr

/-!
# Conditions as text

The text of the expressions in `Sql.Expr`.  A bound value is written as the placeholder `:p` with
its number.  Operators are written as they stand, so an expression that joins conditions has to
enclose them itself; `Cond.paren` does.
-/

namespace CorpusAgent.Sql

def columnName : Origin → String
  | .file => "d.file_metadata"
  | .source => "d.source_metadata"
  | .llm => "d.llm_metadata"

def paramName (index : Nat) : String := "p" ++ toString index

def placeholder (index : Nat) : String := ":" ++ paramName index

def placeholders (indices : List Nat) : String := ", ".intercalate (indices.map placeholder)

def Term.render : Term → String
  | .bound i => placeholder i
  | .sourceId => "d.source_id"
  | .element => "el"
  | .member origin key => columnName origin ++ " ->> " ++ placeholder key
  | .btrim t => "btrim(" ++ t.render ++ ")"
  | .nullIfEmpty t => "NULLIF(" ++ t.render ++ ", '')"

mutual

def Values.render : Values → String
  | .null => "NULL::text[]"
  | .bounds indices => "ARRAY[" ++ placeholders indices ++ "]::text[]"
  | .single t => "ARRAY[" ++ t.render ++ "]"
  | .ifNull t missing present =>
    "(CASE WHEN " ++ t.render ++ " IS NULL THEN " ++ missing.render ++ " ELSE " ++
      present.render ++ " END)"
  | .ifArray origin key array other =>
    "(CASE jsonb_typeof(" ++ columnName origin ++ " -> " ++ placeholder key ++
      ") WHEN 'array' THEN " ++ array.render ++ " ELSE " ++ other.render ++ " END)"
  | .elements item origin key kept =>
    "(SELECT array_agg(" ++ item.render ++ ") FROM jsonb_array_elements_text(" ++
      columnName origin ++ " -> " ++ placeholder key ++ ") AS el WHERE " ++ kept.render ++
      " IS NOT NULL)"
  | .coalesce choices => "COALESCE(" ++ ", ".intercalate (Values.renderList choices) ++ ")"

def Values.renderList : List Values → List String
  | [] => []
  | v :: rest => v.render :: Values.renderList rest

end

namespace Values

variable (t item kept : Term) (v w : Values) (origin : Origin) (key : Nat)

theorem render_null : null.render = "NULL::text[]" := rfl

theorem render_bounds (indices : List Nat) :
    (bounds indices).render = "ARRAY[" ++ placeholders indices ++ "]::text[]" := rfl

theorem render_single : (single t).render = "ARRAY[" ++ t.render ++ "]" := rfl

theorem render_ifNull : (ifNull t v w).render =
    "(CASE WHEN " ++ t.render ++ " IS NULL THEN " ++ v.render ++ " ELSE " ++ w.render ++
      " END)" := rfl

theorem render_ifArray : (ifArray origin key v w).render =
    "(CASE jsonb_typeof(" ++ columnName origin ++ " -> " ++ placeholder key ++
      ") WHEN 'array' THEN " ++ v.render ++ " ELSE " ++ w.render ++ " END)" := rfl

theorem render_elements : (elements item origin key kept).render =
    "(SELECT array_agg(" ++ item.render ++ ") FROM jsonb_array_elements_text(" ++
      columnName origin ++ " -> " ++ placeholder key ++ ") AS el WHERE " ++ kept.render ++
      " IS NOT NULL)" := rfl

theorem render_coalesce (choices : List Values) : (coalesce choices).render =
    "COALESCE(" ++ ", ".intercalate (choices.map render) ++ ")" := by
  have h : renderList choices = choices.map render := by
    induction choices with
    | nil => rfl
    | cons v rest ih => exact congrArg (v.render :: ·) ih
  exact congrArg (fun texts => "COALESCE(" ++ ", ".intercalate texts ++ ")") h

end Values

def Cond.render : Cond → String
  | .literal true => "TRUE"
  | .literal false => "FALSE"
  | .equal a b => a.render ++ " = " ++ b.render
  | .isNull t => t.render ++ " IS NULL"
  | .isNotNull t => t.render ++ " IS NOT NULL"
  | .isNotDistinct a b => a.render ++ " IS NOT DISTINCT FROM " ++ b.render
  | .isDistinct a b => a.render ++ " IS DISTINCT FROM " ++ b.render
  | .contains haystack needle =>
    "strpos(lower(" ++ haystack.render ++ "), lower(" ++ needle.render ++ ")) > 0"
  | .notAmong t indices => t.render ++ " NOT IN (" ++ placeholders indices ++ ")"
  | .noValues v => v.render ++ " IS NULL"
  | .someValues v => v.render ++ " IS NOT NULL"
  | .someElement v c =>
    "EXISTS (SELECT 1 FROM unnest(" ++ v.render ++ ") AS el WHERE " ++ c.render ++ ")"
  | .orFalse c => "COALESCE(" ++ c.render ++ ", FALSE)"
  | .negate c => "NOT " ++ c.render
  | .both a b => a.render ++ " AND " ++ b.render
  | .either a b => a.render ++ " OR " ++ b.render
  | .paren c => "(" ++ c.render ++ ")"

namespace Cond

variable (a b t : Term) (v : Values) (c d : Cond)

theorem render_true : (literal true).render = "TRUE" := rfl

theorem render_false : (literal false).render = "FALSE" := rfl

theorem render_equal : (equal a b).render = a.render ++ " = " ++ b.render := rfl

theorem render_isNull : (isNull t).render = t.render ++ " IS NULL" := rfl

theorem render_isNotNull : (isNotNull t).render = t.render ++ " IS NOT NULL" := rfl

theorem render_isNotDistinct :
    (isNotDistinct a b).render = a.render ++ " IS NOT DISTINCT FROM " ++ b.render := rfl

theorem render_isDistinct :
    (isDistinct a b).render = a.render ++ " IS DISTINCT FROM " ++ b.render := rfl

theorem render_contains :
    (contains a b).render = "strpos(lower(" ++ a.render ++ "), lower(" ++ b.render ++ ")) > 0" :=
  rfl

theorem render_notAmong (indices : List Nat) :
    (notAmong t indices).render = t.render ++ " NOT IN (" ++ placeholders indices ++ ")" := rfl

theorem render_noValues : (noValues v).render = v.render ++ " IS NULL" := rfl

theorem render_someValues : (someValues v).render = v.render ++ " IS NOT NULL" := rfl

theorem render_someElement :
    (someElement v c).render =
      "EXISTS (SELECT 1 FROM unnest(" ++ v.render ++ ") AS el WHERE " ++ c.render ++ ")" := rfl

theorem render_orFalse : (orFalse c).render = "COALESCE(" ++ c.render ++ ", FALSE)" := rfl

theorem render_negate : (negate c).render = "NOT " ++ c.render := rfl

theorem render_both : (both c d).render = c.render ++ " AND " ++ d.render := rfl

theorem render_either : (either c d).render = c.render ++ " OR " ++ d.render := rfl

theorem render_paren : (paren c).render = "(" ++ c.render ++ ")" := rfl

end Cond

end CorpusAgent.Sql
