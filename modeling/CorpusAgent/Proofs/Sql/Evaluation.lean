import CorpusAgent.Proofs.Sql.Row
import CorpusAgent.Sql.Expr
import CorpusAgent.Sql.Placeholder
import CorpusAgent.Sql.Render

/-!
# Evaluation of conditions

The value of an expression over a row.  A value may be missing, and a condition with a missing value
is unknown rather than false; `Truth` is the logic of the three truth values.

* A comparison with a missing value is unknown; the tests for a missing value and the comparisons
  by distinctness never are.
* `Cond.someElement` looks for an element with a true condition, so it is never unknown itself.
* `Values.ifArray`, `Values.ifNull` and `Values.coalesce` evaluate only what they come to.
* A placeholder without a value, an element outside a list and the elements of what is not a list
  are faults.  They are kept apart from missing values.
-/

namespace CorpusAgent.Sql

/-- A truth value; nothing is the unknown one. -/
abbrev Truth := Option Bool

namespace Truth

/-- Negation; the unknown stays unknown. -/
def negate : Truth → Truth := Option.map fun b => !b

/-- Conjunction; one false side is enough. -/
def both : Truth → Truth → Truth
  | some false, _ => some false
  | _, some false => some false
  | some true, some true => some true
  | _, _ => none

/-- Disjunction; one true side is enough. -/
def either : Truth → Truth → Truth
  | some true, _ => some true
  | _, some true => some true
  | some false, some false => some false
  | _, _ => none

/-- A comparison of two texts; unknown if one is missing. -/
def compare (holds : String → String → Bool) : Option String → Option String → Truth
  | some x, some y => some (holds x y)
  | _, _ => none

@[simp] theorem negate_some (a : Bool) : negate (some a) = some (!a) := rfl

@[simp] theorem both_some (a b : Bool) : both (some a) (some b) = some (a && b) := by
  cases a <;> cases b <;> rfl

@[simp] theorem either_some (a b : Bool) : either (some a) (some b) = some (a || b) := by
  cases a <;> cases b <;> rfl

@[simp] theorem either_true_left (a : Truth) : either (some true) a = some true := rfl

@[simp] theorem compare_some (holds : String → String → Bool) (x y : String) :
    compare holds (some x) (some y) = some (holds x y) := rfl

@[simp] theorem compare_none_left (holds : String → String → Bool) (y : Option String) :
    compare holds none y = none := rfl

theorem either_eq_true (a b : Truth) :
    (either a b == some true) = (a == some true || b == some true) := by
  rcases a with _ | _ | _ <;> rcases b with _ | _ | _ <;> rfl

/-- A disjunction is true if and only if one of its parts is. -/
theorem foldl_either_eq_true (a : Truth) (rest : List Truth) :
    (rest.foldl either a == some true) = (a :: rest).any (· == some true) := by
  induction rest generalizing a with
  | nil => simp
  | cons b rest ih => rw [List.foldl_cons, ih, List.any_cons, either_eq_true]; simp [Bool.or_assoc]

theorem foldl_either_some (a : Bool) (rest : List Bool) :
    (rest.map some).foldl either (some a) = some ((a :: rest).any id) := by
  induction rest generalizing a with
  | nil => simp
  | cons b rest ih => rw [List.map_cons, List.foldl_cons, either_some, ih]; simp [Bool.or_assoc]

theorem foldl_both_some (a : Bool) (rest : List Bool) :
    (rest.map some).foldl both (some a) = some ((a :: rest).all id) := by
  induction rest generalizing a with
  | nil => simp
  | cons b rest ih => rw [List.map_cons, List.foldl_cons, both_some, ih]; simp [Bool.and_assoc]

end Truth

/-- Why an expression has no value at all. -/
inductive Fault where
  /-- The text is no condition. -/
  | unread
  /-- A placeholder without a value. -/
  | unbound (index : Nat)
  | noElement
  | noList
  deriving DecidableEq, Repr

section

variable {α β : Type}

@[simp] theorem pure_eq_ok (a : α) : (pure a : Except Fault α) = .ok a := rfl

@[simp] theorem ok_bind (a : α) (k : α → Except Fault β) : (.ok a >>= k) = k a := rfl

end

/-- What an evaluation refers to.  The mapping to lower case depends on the database. -/
structure Env where
  lower : String → String
  row : Row
  /-- The bound values. -/
  value? : Nat → Option String

/-- A bound value. -/
def Env.bound (env : Env) (index : Nat) : Except Fault String :=
  match env.value? index with
  | some value => .ok value
  | none => .error (.unbound index)

/-- The value of a term; inside a list there is an element at hand. -/
def Term.eval (env : Env) (element : Option (Option String)) :
    Term → Except Fault (Option String)
  | .bound i => some <$> env.bound i
  | .sourceId => pure env.row.sourceId
  | .element =>
    match element with
    | some value => pure value
    | none => throw .noElement
  | .member origin key => do
    let name ← env.bound key
    pure ((env.row.member? origin name).bind Jsonb.text?)
  | .btrim t => do pure ((← t.eval env element).map Sql.btrim)
  | .nullIfEmpty t => do pure ((← t.eval env element).filter (· ≠ ""))

/-- The items of a query over the elements of a list, by way of those that are kept. -/
def selected (env : Env) (item kept : Term) :
    List Jsonb → Except Fault (List (Option String))
  | [] => pure []
  | v :: rest => do
    let others ← selected env item kept rest
    match ← kept.eval env (some v.text?) with
    | some _ => pure ((← item.eval env (some v.text?)) :: others)
    | none => pure others

mutual

/-- The value of a list expression. -/
def Values.eval (env : Env) : Values → Except Fault (Option (List (Option String)))
  | .null => pure none
  | .bounds indices => do pure (some ((← indices.mapM env.bound).map some))
  | .single t => do pure (some [← t.eval env none])
  | .ifNull t missing present => do
    match ← t.eval env none with
    | none => missing.eval env
    | some _ => present.eval env
  | .ifArray origin key array other => do
    let name ← env.bound key
    match env.row.member? origin name with
    | some (.list _) => array.eval env
    | _ => other.eval env
  | .elements item origin key kept => do
    let name ← env.bound key
    match env.row.member? origin name with
    | none => pure none
    | some (.list items) =>
      let found ← selected env item kept items
      pure (if found.isEmpty then none else some found)
    | some _ => throw .noList
  | .coalesce choices => Values.evalFirst env choices

/-- The first value of several list expressions that is not missing. -/
def Values.evalFirst (env : Env) : List Values → Except Fault (Option (List (Option String)))
  | [] => pure none
  | v :: rest => do
    match ← v.eval env with
    | some texts => pure (some texts)
    | none => Values.evalFirst env rest

end

/-- The truth value of a condition. -/
def Cond.eval (env : Env) (element : Option (Option String)) : Cond → Except Fault Truth
  | .literal b => pure (some b)
  | .equal a b => do
    pure (Truth.compare (fun x y => x == y) (← a.eval env element) (← b.eval env element))
  | .isNull t => do pure (some (← t.eval env element).isNone)
  | .isNotNull t => do pure (some (← t.eval env element).isSome)
  | .isNotDistinct a b => do pure (some ((← a.eval env element) == (← b.eval env element)))
  | .isDistinct a b => do pure (some ((← a.eval env element) != (← b.eval env element)))
  | .contains haystack needle => do
    pure (Truth.compare (fun x y => 0 < strpos (env.lower x) (env.lower y))
      (← haystack.eval env element) (← needle.eval env element))
  | .notAmong t indices => do
    let x ← t.eval env element
    let values ← indices.mapM env.bound
    pure (values.foldr
      (fun value others => (Truth.compare (fun x y => x != y) x (some value)).both others)
      (some true))
  | .noValues v => do pure (some (← v.eval env).isNone)
  | .someValues v => do pure (some (← v.eval env).isSome)
  | .someElement v c => do
    match ← v.eval env with
    | none => pure (some false)
    | some elements => do
      let truths ← elements.mapM fun e => c.eval env (some e)
      pure (some (truths.any (· == some true)))
  | .orFalse c => do pure (some ((← c.eval env element).getD false))
  | .negate c => do pure (← c.eval env element).negate
  | .both a b => do pure ((← a.eval env element).both (← b.eval env element))
  | .either a b => do pure ((← a.eval env element).either (← b.eval env element))
  | .paren c => c.eval env element

namespace Cond

variable {env : Env} {element : Option (Option String)}

/-- Conditions joined from the left take their truth values together in the same way. -/
theorem eval_joined {join : Cond → Cond → Cond} {op : Truth → Truth → Truth}
    (hjoin : ∀ {c d a b}, c.eval env element = .ok a → d.eval env element = .ok b →
      (join c d).eval env element = .ok (op a b))
    {first : Cond} {rest : List Cond} {a : Truth} {as : List Truth}
    (hf : first.eval env element = .ok a)
    (hr : rest.map (Cond.eval env element) = as.map .ok) :
    (joined join first rest).eval env element = .ok (as.foldl op a) := by
  induction rest generalizing first a as with
  | nil =>
    cases as with
    | nil => exact hf
    | cons _ _ => cases hr
  | cons c rest ih =>
    cases as with
    | nil => cases hr
    | cons b as =>
      simp only [List.map_cons, List.cons.injEq] at hr
      show (joined join (join first c) rest).eval env element = .ok (as.foldl op (op a b))
      exact ih (hjoin hf hr.1) hr.2

theorem eval_either {c d : Cond} {a b : Truth} (hc : c.eval env element = .ok a)
    (hd : d.eval env element = .ok b) : (either c d).eval env element = .ok (a.either b) := by
  simp [Cond.eval, hc, hd]

theorem eval_both {c d : Cond} {a b : Truth} (hc : c.eval env element = .ok a)
    (hd : d.eval env element = .ok b) : (both c d).eval env element = .ok (a.both b) := by
  simp [Cond.eval, hc, hd]

end Cond

end CorpusAgent.Sql
