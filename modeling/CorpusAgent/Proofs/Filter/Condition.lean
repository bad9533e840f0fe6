import CorpusAgent.Proofs.Filter.Operators

/-!
# Conditions of filters under evaluation

The condition of a filter is true or false over every row, as the filter holds of it or not.

* `fieldCondition_yields`: exactly one chain counts for a source, whatever the number of rules.
* `condition_yields`: the induction over the filter; since no part is ever unknown, negation and
  the two kinds of groups are those of truth values.
-/

namespace CorpusAgent.Filter

open Sql

variable (lower : String → String) (row : Row)

/-! ### Groups -/

section

variable {env : Env} {cs : List Cond} {bs : List Bool}

theorem eval_grouped {join : Cond → Cond → Cond} {op : Truth → Truth → Truth} {unit : Bool}
    (total : List Bool → Bool)
    (hjoin : ∀ {c d a b}, c.eval env none = .ok a → d.eval env none = .ok b →
      (join c d).eval env none = .ok (op a b))
    (hnil : total [] = unit)
    (hfold : ∀ a rest, (rest.map some).foldl op (some a) = some (total (a :: rest)))
    (h : cs.map (Cond.eval env none) = bs.map fun b => .ok (some b)) :
    (Cond.grouped join (.literal unit) cs).eval env none = .ok (some (total bs)) := by
  cases cs with
  | nil =>
    rw [List.map_nil, eq_comm, List.map_eq_nil_iff] at h
    rw [h, hnil]
    rfl
  | cons c cs =>
    obtain ⟨b, bs, rfl, hc, hcs⟩ : ∃ b rest, bs = b :: rest ∧
        c.eval env none = .ok (some b) ∧
        cs.map (Cond.eval env none) = (rest.map some).map .ok := by
      cases bs with
      | nil => cases h
      | cons b rest =>
        simp only [List.map_cons, List.cons.injEq] at h
        exact ⟨b, rest, rfl, h.1, by rw [h.2, List.map_map]; rfl⟩
    have hj := Cond.eval_joined hjoin hc hcs
    rw [hfold] at hj
    cases cs with
    | nil => exact hj
    | cons d rest => exact hj

theorem eval_grouped_both (h : cs.map (Cond.eval env none) = bs.map fun b => .ok (some b)) :
    (Cond.grouped .both (.literal true) cs).eval env none = .ok (some (bs.all id)) :=
  eval_grouped (fun bs => bs.all id) Cond.eval_both rfl Truth.foldl_both_some h

theorem eval_grouped_either (h : cs.map (Cond.eval env none) = bs.map fun b => .ok (some b)) :
    (Cond.grouped .either (.literal false) cs).eval env none = .ok (some (bs.any id)) :=
  eval_grouped (fun bs => bs.any id) Cond.eval_either rfl Truth.foldl_either_some h

end

/-! ### Fields -/

theorem ruleConditions_yields (c : Condition) (rules : List SourceRule) :
    Yields (ruleConditions c rules) fun later found =>
      (found.map (·.1)).map (later[·]?) = (rules.map (·.sourceId)).map some ∧
      (found.map (·.2)).map (Cond.eval (envOf lower row later) none) = rules.map fun rule =>
        .ok (some (row.sourceId == some rule.sourceId &&
          c.holds lower (chainTexts row rule.chain))) := by
  induction rules with
  | nil => exact Yields.pure fun later => ⟨rfl, rfl⟩
  | cons rule rest ih =>
    refine (bind_yields rule.sourceId).bind fun i =>
      (chainValues_yields lower row rule.chain).bind fun v =>
        (valuesCondition_yields lower row v c).bind fun d =>
          ih.bind fun found => Yields.pure ?_
    intro later hfound hd hv hi
    simp only [List.map_cons, hi, hfound.1, hfound.2]
    refine ⟨trivial, congrArg (· :: _) ?_⟩
    have hsource : (Cond.isNotDistinct .sourceId (.bound i)).eval (envOf lower row later) none =
        .ok (some (row.sourceId == some rule.sourceId)) := by
      simp [Cond.eval, Term.eval, bound_envOf hi]
    rw [Cond.eval, Cond.eval_both hsource (hd _ hv), Truth.both_some]

/-- A row without a source is of none of the sources. -/
theorem eval_noneOf {later : List String} {is : List Nat} {ids : List String}
    (h : is.map (later[·]?) = ids.map some) :
    (noneOf is).eval (envOf lower row later) none =
      .ok (some (ids.all fun id => row.sourceId != some id)) := by
  have hfold : ∀ x : String, ids.foldr (fun value others =>
      (Truth.compare (fun x y => x != y) (some x) (some value)).both others) (some true) =
        some (ids.all fun id => x != id) := by
    intro x
    clear h
    induction ids with
    | nil => rfl
    | cons id rest ih => rw [List.foldr_cons, ih, Truth.compare_some, Truth.both_some]; rfl
  rw [noneOf, Cond.eval, Cond.eval_either (a := some row.sourceId.isNone) rfl (by
    rw [Cond.eval, Term.eval, mapM_bound_envOf h]; rfl)]
  cases hs : row.sourceId with
  | none => simp
  | some x =>
    have hne : ∀ id : String, (some x != some id) = (x != id) := fun id => rfl
    simp only [envOf_row, hs, hfold x, hne]
    simp

theorem fieldCondition_yields (f : Field) (c : Condition) :
    Yields (fieldCondition f c) fun later d =>
      d.eval (envOf lower row later) none = .ok (some (f.holds lower row c)) := by
  refine (ruleConditions_yields lower row c f.sources).bind fun found =>
    (chainValues_yields lower row f.fallbackChain).bind fun v =>
      (valuesCondition_yields lower row v c).bind fun d => ?_
  cases found with
  | nil =>
    refine Yields.pure fun later hd hv hfound => ?_
    have hs : f.sources = [] := by
      have h := hfound.1
      rwa [List.map_nil, List.map_nil, eq_comm, List.map_eq_nil_iff, List.map_eq_nil_iff] at h
    rw [hd _ hv]
    simp [Field.holds, hs]
  | cons first rest =>
    refine Yields.pure fun later hd hv hfound => ?_
    have hnone := eval_noneOf lower row hfound.1
    have hlast := Cond.eval_both hnone (hd _ hv)
    rw [Truth.both_some] at hlast
    have hparts : ((first :: rest).map Prod.snd ++
        [Cond.paren (.both (noneOf ((first :: rest).map Prod.fst)) d)]).map
          (Cond.eval (envOf lower row later) none) =
        (f.sources.map (fun rule => row.sourceId == some rule.sourceId &&
          c.holds lower (chainTexts row rule.chain)) ++
            [(f.sources.map (·.sourceId)).all (fun id => row.sourceId != some id) &&
              c.holds lower (chainTexts row f.fallbackChain)]).map fun b => .ok (some b) := by
      rw [List.map_append, hfound.2, List.map_append, List.map_map, List.map_singleton, Cond.eval,
        hlast]
      rfl
    rw [eval_grouped_either hparts, List.any_append, List.any_map, List.all_map]
    simp [Field.holds, Function.comp_def]

/-! ### Filters -/

mutual

/-- The condition of a filter is true or false as the filter holds or not. -/
theorem condition_yields (fields : List Field) (f : Filter) :
    Yields (condition fields f) fun later d =>
      d.eval (envOf lower row later) none = .ok (some (f.holds lower fields row)) := by
  cases f with
  | all parts =>
    exact (conditions_yields fields parts).bind fun cs => Yields.pure fun later h =>
      eval_grouped_both h
  | any parts =>
    exact (conditions_yields fields parts).bind fun cs => Yields.pure fun later h =>
      eval_grouped_either h
  | not part =>
    refine (condition_yields fields part).bind fun d => Yields.pure fun later h => ?_
    rw [Cond.eval, Cond.eval, h]
    rfl
  | field name c =>
    simp only [condition, holds]
    cases Field.find? fields name with
    | none => exact Yields.pure fun later => rfl
    | some f => exact fieldCondition_yields lower row f c
  | path origin key c =>
    exact (bind_yields key).bind fun i => (termCondition_yields lower row _ c).mono
      fun later d h hi => h _ (eval_trimmedMember hi origin none)

theorem conditions_yields (fields : List Field) (fs : List Filter) :
    Yields (conditions fields fs) fun later cs =>
      cs.map (Cond.eval (envOf lower row later) none) =
        (holdsEach lower fields row fs).map fun b => .ok (some b) := by
  cases fs with
  | nil => exact Yields.pure fun later => rfl
  | cons f rest =>
    refine (condition_yields fields f).bind fun c =>
      (conditions_yields fields rest).bind fun cs => Yields.pure fun later hcs hc => ?_
    rw [List.map_cons, hc, hcs]
    rfl

end

end CorpusAgent.Filter
