import CorpusAgent.Proofs.Except
import CorpusAgent.Proofs.Filter.Build
import CorpusAgent.Proofs.Filter.Meaning
import CorpusAgent.Proofs.Sql.Evaluation

/-!
# Chains and operators under evaluation

What the expressions for a leaf come to over a row, with the bound values for their placeholders.

* `chainValues_yields`: the list expression of a chain has the texts of the chain as its value, and
  no value without any text.
* `termCondition_yields`, `valuesCondition_yields`: the condition of an operator is true or false,
  as the texts satisfy it or not, and never unknown.
-/

namespace CorpusAgent.Filter

open Sql

/-- The bound values as the values of their placeholders. -/
def envOf (lower : String → String) (row : Row) (bound : List String) : Env :=
  ⟨lower, row, fun i => bound[i]?⟩

/-- Texts as the value of a list expression; without any text it is missing. -/
def listValue (texts : List String) : Option (List (Option String)) :=
  if texts = [] then none else some (texts.map some)

variable {lower : String → String} {row : Row} {later : List String}

@[simp] theorem envOf_lower : (envOf lower row later).lower = lower := rfl

@[simp] theorem envOf_row : (envOf lower row later).row = row := rfl

theorem listValue_isNone (texts : List String) : (listValue texts).isNone = texts.isEmpty := by
  cases texts <;> rfl

theorem listValue_isSome (texts : List String) : (listValue texts).isSome = !texts.isEmpty := by
  cases texts <;> rfl

@[simp] theorem listValue_cons (x : String) (xs : List String) :
    listValue (x :: xs) = some (some x :: xs.map some) := rfl

theorem bound_envOf {i : Nat} {x : String} (h : later[i]? = some x) :
    (envOf lower row later).bound i = .ok x := by
  simp [envOf, Env.bound, h]

theorem mapM_bound_envOf {is : List Nat} {xs : List String}
    (h : is.map (later[·]?) = xs.map some) :
    is.mapM (envOf lower row later).bound = .ok xs := by
  rw [← List.forall₂_eq_eq_eq, List.forall₂_map_left_iff, List.forall₂_map_right_iff] at h
  exact mapM_eq_ok_iff.mpr (h.imp fun _ _ => bound_envOf)

/-! ### Chains -/

theorem eval_trimmedMember {key : Nat} {name : String} (h : later[key]? = some name)
    (origin : Origin) (element : Option (Option String)) :
    (trimmedMember origin key).eval (envOf lower row later) element =
      .ok (row.text? origin name) := by
  simp only [trimmedMember, Term.eval, bound_envOf h]
  rfl

theorem selected_trimmed (env : Env) (items : List Jsonb) :
    selected env (.btrim .element) (.nullIfEmpty (.btrim .element)) items =
      .ok ((items.filterMap fun v => trimmed? v.text?).map some) := by
  induction items with
  | nil => rfl
  | cons v rest ih =>
    have hkept : (Term.nullIfEmpty (.btrim .element)).eval env (some v.text?) =
        .ok (trimmed? v.text?) := rfl
    rw [selected, ih, hkept]
    cases hx : trimmed? v.text? with
    | none => simp [hx]
    | some x =>
      have hb : v.text?.map Sql.btrim = some x := (Option.filter_eq_some_iff.mp hx).1
      simp [hx, Term.eval, hb]

theorem eval_memberValues {key : Nat} {name : String} (h : later[key]? = some name)
    (origin : Origin) :
    (memberValues origin key).eval (envOf lower row later) =
      .ok (listValue (row.texts origin name)) := by
  -- What is not a list, or missing, is looked at as a single text.
  have hsingle : (Values.ifNull (trimmedMember origin key) .null
      (.single (.btrim (.member origin key)))).eval (envOf lower row later) =
        .ok (listValue (row.text? origin name).toList) := by
    rw [Values.eval, eval_trimmedMember h]
    cases hx : row.text? origin name with
    | none => rfl
    | some x =>
      have hb : ((row.member? origin name).bind Jsonb.text?).map Sql.btrim = some x :=
        (Option.filter_eq_some_iff.mp hx).1
      simp [Values.eval, Term.eval, bound_envOf h, hb]
  simp only [memberValues, Values.eval, bound_envOf h, ok_bind, envOf_row]
  cases hm : row.member? origin name with
  | none => simpa [Row.texts, hm, Values.eval] using hsingle
  | some v =>
    cases v with
    | list items =>
      simp only [selected_trimmed, ok_bind, pure_eq_ok, Row.texts, hm]
      cases items.filterMap fun v => trimmed? v.text? <;> rfl
    | _ => simpa [Row.texts, hm, Values.eval] using hsingle

variable (lower row)

theorem stepValues_yields (step : Step) :
    Yields (stepValues step) fun later v =>
      v.eval (envOf lower row later) = .ok (listValue (step.texts row)) := by
  cases step with
  | member origin key =>
    exact (bind_yields key).bind fun i => Yields.pure fun later h => eval_memberValues h origin
  | constant value values =>
    cases hc : constantTexts value values with
    | nil =>
      simp only [stepValues, Step.texts, hc]
      exact Yields.pure fun _ => rfl
    | cons x xs =>
      simp only [stepValues, Step.texts, hc]
      refine (bindAll_yields (x :: xs)).bind fun is => Yields.pure fun later h => ?_
      simp [Values.eval, mapM_bound_envOf h]

theorem stepsValues_yields (chain : List Step) :
    Yields (stepsValues chain) fun later vs =>
      Values.evalFirst (envOf lower row later) vs = .ok (listValue (chainTexts row chain)) := by
  induction chain with
  | nil => exact Yields.pure fun _ => rfl
  | cons step rest ih =>
    refine (stepValues_yields lower row step).bind fun v => ih.bind fun vs => Yields.pure ?_
    intro later hvs hv
    simp only [Values.evalFirst, hv, hvs, ok_bind, chainTexts]
    cases step.texts row <;> rfl

theorem evalFirst_singleton (env : Env) (v : Values) :
    Values.evalFirst env [v] = v.eval env := by
  rw [Values.evalFirst]
  cases v.eval env with
  | error e => rfl
  | ok x => cases x <;> rfl

/-- The value of a chain is that of its first step with a value. -/
theorem chainValues_yields (chain : List Step) :
    Yields (chainValues chain) fun later v =>
      v.eval (envOf lower row later) = .ok (listValue (chainTexts row chain)) := by
  refine (stepsValues_yields lower row chain).bind fun vs => ?_
  match vs with
  | [] => exact Yields.pure fun later h => h
  | [v] => exact Yields.pure fun later h => by rwa [evalFirst_singleton] at h
  | v :: w :: rest => exact Yields.pure fun later h => h

/-! ### Operators -/

theorem eval_someElement {env : Env} {v : Values} {texts : List String} {c : Cond}
    {truth : String → Truth} (hv : v.eval env = .ok (listValue texts))
    (hc : ∀ x, c.eval env (some (some x)) = .ok (truth x)) (element : Option (Option String)) :
    (Cond.someElement v c).eval env element =
      .ok (some (texts.any fun x => truth x == some true)) := by
  have hmap : ∀ xs : List String, ((xs.map some).mapM fun e => c.eval env (some e)) =
      .ok (xs.map truth) := by
    intro xs
    induction xs with
    | nil => rfl
    | cons x xs ih => simp [List.mapM_cons, hc, ih]
  rw [Cond.eval, hv, ok_bind]
  cases texts with
  | nil => rfl
  | cons x xs =>
    have h := hmap (x :: xs)
    rw [List.map_cons] at h
    simp only [listValue_cons, h, ok_bind, pure_eq_ok, List.any_map]
    rfl

theorem map_eval_equal {later : List String} {is : List Nat} {xs : List String}
    (h : is.map (later[·]?) = xs.map some) {t : Term} {element : Option (Option String)}
    {x : Option String} (ht : t.eval (envOf lower row later) element = .ok x) :
    (is.map fun i => Cond.equal t (.bound i)).map (Cond.eval (envOf lower row later) element) =
      (xs.map fun y => Truth.compare (fun a b => a == b) x (some y)).map .ok := by
  induction is generalizing xs with
  | nil =>
    cases xs with
    | nil => rfl
    | cons y ys => cases h
  | cons i is ih =>
    cases xs with
    | nil => cases h
    | cons y ys =>
      simp only [List.map_cons, List.cons.injEq] at h ⊢
      exact ⟨by simp [Cond.eval, Term.eval, bound_envOf h.1, ht], ih h.2⟩

theorem contains_eval {later : List String} {i : Nat} {y : String} (h : later[i]? = some y)
    {t : Term} {element : Option (Option String)} {x : String}
    (ht : t.eval (envOf lower row later) element = .ok (some x)) :
    (Cond.contains t (.bound i)).eval (envOf lower row later) element =
      .ok (some (occursIn lower y x)) := by
  simp [Cond.eval, Term.eval, bound_envOf h, ht, occursIn, strpos_pos_iff]

/-- One of the candidates is among the texts, or there is none and nothing is a candidate. -/
theorem any_candidates (o : Operand) (texts : List String) :
    o.candidates.any (Scalar.among texts) =
    (((splitCandidates o).1.any fun x => texts.contains x) ||
      ((splitCandidates o).2 && texts.isEmpty)) := by
  simp only [splitCandidates]
  induction o.candidates with
  | nil => rfl
  | cons s rest ih =>
    rw [List.any_cons, ih, Scalar.among]
    cases hs : s.text? with
    | none => cases texts.isEmpty <;> simp [hs]
    | some x => simp [hs, Bool.or_assoc]

theorem contains_toList (x : Option String) (y : String) :
    x.toList.contains y = (Truth.compare (fun a b => a == b) x (some y) == some true) := by
  cases x with
  | none => rfl
  | some x =>
    rw [Truth.compare_some, Option.toList_some, List.contains_cons, BEq.comm]
    cases x == y <;> simp

theorem eval_alternatives {env : Env} {element : Option (Option String)} {first : Cond}
    {rest : List Cond} {truths : List Truth}
    (h : (first :: rest).map (Cond.eval env element) = truths.map .ok) :
    ∃ a, (alternatives first rest).eval env element = .ok a ∧
      (a == some true) = truths.any (· == some true) := by
  cases truths with
  | nil => cases h
  | cons a as =>
    simp only [List.map_cons, List.cons.injEq] at h
    exact ⟨_, Cond.eval_joined Cond.eval_either h.1 h.2, Truth.foldl_either_eq_true a as⟩

theorem termCondition_yields_oneOf (t : Term) (o : Operand) :
    Yields (termCondition t ⟨.oneOf, o⟩) fun later d =>
      ∀ x, t.eval (envOf lower row later) none = .ok x →
        d.eval (envOf lower row later) none =
          .ok (some ((Condition.mk .oneOf o).holds lower x.toList)) := by
  simp only [termCondition, Condition.holds, any_candidates]
  rcases splitCandidates o with ⟨ys, hasNull⟩
  refine (bindAll_yields ys).bind fun is => ?_
  -- The truth values of the alternatives, in their order.
  have hmap : ∀ later, is.map (later[·]?) = ys.map some →
      ∀ x, t.eval (envOf lower row later) none = .ok x →
      (is.map (fun i => Cond.equal t (.bound i)) ++ if hasNull then [Cond.isNull t] else []).map
        (Cond.eval (envOf lower row later) none) =
      (ys.map (fun y => Truth.compare (fun a b => a == b) x (some y)) ++
        if hasNull then [some x.isNone] else []).map .ok := by
    intro later his x ht
    rw [List.map_append, List.map_append, map_eval_equal lower row his ht]
    cases hasNull <;> simp [Cond.eval, ht]
  have hany : ∀ x : Option String,
      (ys.map (fun y => Truth.compare (fun a b => a == b) x (some y)) ++
        if hasNull then [some x.isNone] else []).any (· == some true) =
      ((ys.any fun y => x.toList.contains y) || (hasNull && x.toList.isEmpty)) := by
    intro x
    rw [List.any_append, List.any_map]
    simp only [contains_toList, Function.comp_def]
    cases hasNull <;> cases x <;> simp
  simp only [← hany]
  generalize is.map (fun i => Cond.equal t (.bound i)) ++
    (if hasNull then [Cond.isNull t] else []) = branches at hmap
  cases branches with
  | nil =>
    refine Yields.pure fun later his x ht => ?_
    have h := hmap later his x ht
    rw [List.map_nil, eq_comm, List.map_eq_nil_iff] at h
    rw [h]
    rfl
  | cons b rest =>
    refine Yields.pure fun later his x ht => ?_
    obtain ⟨a, ha, hiff⟩ := eval_alternatives (hmap later his x ht)
    rw [Cond.eval, ha, ← hiff]
    rcases a with _ | _ | _ <;> rfl

/-- The condition on a single text is never unknown. -/
theorem termCondition_yields (t : Term) (c : Condition) :
    Yields (termCondition t c) fun later d =>
      ∀ x, t.eval (envOf lower row later) none = .ok x →
        d.eval (envOf lower row later) none = .ok (some (c.holds lower x.toList)) := by
  obtain ⟨operator, o⟩ := c
  cases operator with
  | equal =>
    simp only [termCondition, Condition.holds, Scalar.among]
    cases o.single.text? with
    | none => exact Yields.pure fun later x ht => by cases x <;> simp [Cond.eval, ht]
    | some y =>
      refine (bind_yields y).bind fun i => Yields.pure fun later hi x ht => ?_
      show _ = Except.ok (some (x.toList.contains y))
      rw [contains_toList]
      cases x <;> simp [Cond.eval, Term.eval, ht, bound_envOf hi]
  | notEqual =>
    simp only [termCondition, Condition.holds, Scalar.among]
    cases o.single.text? with
    | none => exact Yields.pure fun later x ht => by cases x <;> simp [Cond.eval, ht]
    | some y =>
      refine (bind_yields y).bind fun i => Yields.pure fun later hi x ht => ?_
      show _ = Except.ok (some !x.toList.contains y)
      rw [contains_toList]
      cases x <;> simp [Cond.eval, Term.eval, ht, bound_envOf hi, bne]
  | oneOf => exact termCondition_yields_oneOf lower row t o
  | contains =>
    simp only [termCondition, Condition.holds]
    cases o.single.text? with
    | none => exact Yields.pure fun later x ht => rfl
    | some y =>
      refine (bind_yields y).bind fun i => Yields.pure fun later hi x ht => ?_
      cases x with
      | none => simp [Cond.eval, Term.eval, ht, bound_envOf hi]
      | some x => rw [Cond.eval, contains_eval lower row hi ht]; simp
  | notContains =>
    simp only [termCondition, Condition.holds]
    cases o.single.text? with
    | none => exact Yields.pure fun later x ht => rfl
    | some y =>
      refine (bind_yields y).bind fun i => Yields.pure fun later hi x ht => ?_
      rw [Cond.eval, Cond.eval, Cond.eval, Cond.eval, ht]
      cases x with
      | none => simp [Cond.eval, Term.eval, ht, bound_envOf hi]
      | some x => rw [contains_eval lower row hi ht]; simp
  | present =>
    exact Yields.pure fun later x ht => by cases x <;> simp [Cond.eval, ht, Condition.holds]
  | absent =>
    exact Yields.pure fun later x ht => by cases x <;> simp [Cond.eval, ht, Condition.holds]
  | unsupported name => exact Yields.pure fun later x ht => rfl

theorem eval_someEqual {v : Values} {texts : List String} {later : List String} {i : Nat}
    {y : String} (hv : v.eval (envOf lower row later) = .ok (listValue texts))
    (hi : later[i]? = some y) :
    (Cond.someElement v (.equal .element (.bound i))).eval (envOf lower row later) none =
      .ok (some (texts.contains y)) := by
  have heval : ∀ x, (Cond.equal .element (.bound i)).eval (envOf lower row later)
      (some (some x)) = .ok (some (x == y)) := fun x => by
    simp [Cond.eval, Term.eval, bound_envOf hi]
  rw [eval_someElement hv heval, List.contains_eq_any_beq]
  simp [BEq.comm]

theorem eval_someContains {v : Values} {texts : List String} {later : List String} {i : Nat}
    {y : String} (hv : v.eval (envOf lower row later) = .ok (listValue texts))
    (hi : later[i]? = some y) :
    (Cond.someElement v (.contains .element (.bound i))).eval (envOf lower row later) none =
      .ok (some (texts.any (occursIn lower y))) := by
  have heval : ∀ x, (Cond.contains .element (.bound i)).eval (envOf lower row later)
      (some (some x)) = .ok (some (occursIn lower y x)) := fun x => contains_eval lower row hi rfl
  rw [eval_someElement hv heval]
  simp

theorem eval_someAlternative {v : Values} {texts : List String} {later : List String}
    {first : Nat} {rest : List Nat} {ys : List String}
    (hv : v.eval (envOf lower row later) = .ok (listValue texts))
    (his : (first :: rest).map (later[·]?) = ys.map some) :
    (Cond.someElement v (alternatives (.equal .element (.bound first))
      (rest.map fun i => .equal .element (.bound i)))).eval (envOf lower row later) none =
      .ok (some (ys.any fun y => texts.contains y)) := by
  have hmap : ∀ x, _ := fun x =>
    @map_eval_equal lower row _ _ _ his .element (some (some x)) _ rfl
  choose truth heval htruth using fun x => eval_alternatives (hmap x)
  rw [eval_someElement hv heval]
  simp only [htruth, List.any_map, Function.comp_def, Truth.compare_some, Option.some_beq_some]
  refine congrArg (fun b => Except.ok (some b)) (Bool.eq_iff_iff.mpr ?_)
  simp only [List.any_eq_true, List.contains_iff_mem, beq_iff_eq]
  exact ⟨fun ⟨x, hx, y, hy, h⟩ => ⟨y, hy, h ▸ hx⟩, fun ⟨y, hy, hx⟩ => ⟨y, hx, y, hy, rfl⟩⟩

theorem valuesCondition_yields_oneOf (v : Values) (o : Operand) :
    Yields (valuesCondition v ⟨.oneOf, o⟩) fun later d =>
      ∀ texts, v.eval (envOf lower row later) = .ok (listValue texts) →
        d.eval (envOf lower row later) none =
          .ok (some ((Condition.mk .oneOf o).holds lower texts)) := by
  simp only [valuesCondition, Condition.holds, any_candidates]
  rcases splitCandidates o with ⟨ys, hasNull⟩
  refine (bindAll_yields ys).bind fun is => ?_
  cases is with
  | nil =>
    cases hasNull with
    | false =>
      refine Yields.pure fun later his texts hv => ?_
      rw [List.map_nil, eq_comm, List.map_eq_nil_iff] at his
      rw [his]
      rfl
    | true =>
      refine Yields.pure fun later his texts hv => ?_
      rw [List.map_nil, eq_comm, List.map_eq_nil_iff] at his
      simp [his, alternatives, Cond.joined, Cond.eval, hv, listValue_isNone]
  | cons i is =>
    cases hasNull with
    | false =>
      refine Yields.pure fun later his texts hv => ?_
      have h := eval_someAlternative lower row hv his
      simpa [alternatives, Cond.joined, Cond.eval] using h
    | true =>
      refine Yields.pure fun later his texts hv => ?_
      have h := eval_someAlternative lower row hv his
      have hn : (Cond.noValues v).eval (envOf lower row later) none =
          .ok (some texts.isEmpty) := by
        rw [Cond.eval, hv, ok_bind, listValue_isNone]
        rfl
      rw [Bool.true_and, ← Truth.either_some]
      exact Cond.eval_either h hn

/-- The condition on a list of texts is never unknown. -/
theorem valuesCondition_yields (v : Values) (c : Condition) :
    Yields (valuesCondition v c) fun later d =>
      ∀ texts, v.eval (envOf lower row later) = .ok (listValue texts) →
        d.eval (envOf lower row later) none = .ok (some (c.holds lower texts)) := by
  obtain ⟨operator, o⟩ := c
  cases operator with
  | equal =>
    simp only [valuesCondition, Condition.holds, Scalar.among]
    cases o.single.text? with
    | none => exact Yields.pure fun later texts hv => by simp [Cond.eval, hv, listValue_isNone]
    | some y =>
      exact (bind_yields y).bind fun i => Yields.pure fun later hi texts hv =>
        eval_someEqual lower row hv hi
  | notEqual =>
    simp only [valuesCondition, Condition.holds, Scalar.among]
    cases o.single.text? with
    | none => exact Yields.pure fun later texts hv => by simp [Cond.eval, hv, listValue_isSome]
    | some y =>
      refine (bind_yields y).bind fun i => Yields.pure fun later hi texts hv => ?_
      rw [Cond.eval, Cond.eval, eval_someEqual lower row hv hi]
      rfl
  | oneOf => exact valuesCondition_yields_oneOf lower row v o
  | contains =>
    simp only [valuesCondition, Condition.holds]
    cases o.single.text? with
    | none => exact Yields.pure fun later texts hv => rfl
    | some y =>
      exact (bind_yields y).bind fun i => Yields.pure fun later hi texts hv =>
        eval_someContains lower row hv hi
  | notContains =>
    simp only [valuesCondition, Condition.holds]
    cases o.single.text? with
    | none => exact Yields.pure fun later texts hv => rfl
    | some y =>
      refine (bind_yields y).bind fun i => Yields.pure fun later hi texts hv => ?_
      rw [Cond.eval, Cond.eval, eval_someContains lower row hv hi]
      rfl
  | present =>
    exact Yields.pure fun later texts hv => by
      simp [Cond.eval, hv, listValue_isSome, Condition.holds]
  | absent =>
    exact Yields.pure fun later texts hv => by
      simp [Cond.eval, hv, listValue_isNone, Condition.holds]
  | unsupported name => exact Yields.pure fun later texts hv => rfl

end CorpusAgent.Filter
