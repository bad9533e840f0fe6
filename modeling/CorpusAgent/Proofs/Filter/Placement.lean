import CorpusAgent.Proofs.Filter.Emission

/-!
# Conditions after other values

What a filter turns into does not depend on the values that were bound before it, except that the
numbers of its own values go on from theirs.

* `Moved`: building after some values gives the result of building without them, moved.
* `Moved.bind`: the rule for two steps.
* `condition_moved`: the induction over the filter; the condition is moved by `Cond.raise`.
* `Predicate.raise`: a predicate with the numbers of its placeholders raised.
* `render_condition_run`, `paramsOf_condition_run`: so the text of a filter after other values is
  the raised text of its predicate, and the values bound for it are those of the predicate.
* `condition_position`: this together, and the same of every part of a group, whose text depends on
  the parts before it only by way of how many values they bind.
-/

namespace CorpusAgent

open Sql

namespace Sql.Cond

variable (join : Cond → Cond → Cond) {k : Nat}
  (hjoin : ∀ a b, (join a b).raise k = join (a.raise k) (b.raise k))

include hjoin

theorem raise_joined (first : Cond) (rest : List Cond) :
    (joined join first rest).raise k = joined join (first.raise k) (rest.map (raise k)) := by
  induction rest generalizing first with
  | nil => rfl
  | cons c rest ih =>
    have hstep : joined join first (c :: rest) = joined join (join first c) rest := rfl
    rw [hstep, ih, hjoin]
    rfl

theorem raise_grouped (unit : Bool) (cs : List Cond) :
    (grouped join (.literal unit) cs).raise k =
      grouped join (.literal unit) (cs.map (raise k)) := by
  match cs with
  | [] => rfl
  | [c] => rfl
  | c :: d :: rest =>
    rw [grouped, raise, raise_joined join hjoin]
    rfl

end Sql.Cond

namespace Filter

variable {α β γ δ : Type} {pre : Array String}

/-! ### Building after other values -/

/-- Building `n` after the values `pre` gives what building `m` without them gives, moved by `act`;
the values bound are those of `m`, after `pre`. -/
def Moved (pre : Array String) (act : α → β) (m : Build α) (n : Build β) : Prop :=
  ∀ bound, n.run (pre ++ bound) = (act (m.run bound).1, pre ++ (m.run bound).2)

theorem Moved.pure {act : α → β} {a : α} {b : β} (h : act a = b) :
    Moved pre act (Pure.pure a) (Pure.pure b) :=
  fun _ => by rw [← h]; rfl

theorem Moved.bind {act : α → β} {act' : γ → δ} {m : Build α} {n : Build β} {k : α → Build γ}
    {l : β → Build δ} (hm : Moved pre act m n) (hk : ∀ a, Moved pre act' (k a) (l (act a))) :
    Moved pre act' (m >>= k) (n >>= l) := by
  intro bound
  have hfirst : (n >>= l).run (pre ++ bound) =
      (l (n.run (pre ++ bound)).1).run (n.run (pre ++ bound)).2 := rfl
  rw [hfirst, hm bound]
  exact hk _ _

theorem bind_moved (value : String) :
    Moved pre (· + pre.size) (Filter.bind value) (Filter.bind value) := by
  intro bound
  show ((pre ++ bound).size, (pre ++ bound).push value) =
    (bound.size + pre.size, pre ++ bound.push value)
  rw [Array.size_append, Nat.add_comm, Array.append_push]

theorem bindAll_moved (values : List String) :
    Moved pre (List.map (· + pre.size)) (bindAll values) (bindAll values) := by
  induction values with
  | nil => exact .pure rfl
  | cons value rest ih => exact (bind_moved value).bind fun i => ih.bind fun is => .pure rfl

/-! ### Chains -/

theorem stepValues_moved (step : Step) :
    Moved pre (Values.raise pre.size) (stepValues step) (stepValues step) := by
  cases step with
  | member origin key => exact (bind_moved key).bind fun i => .pure rfl
  | constant value values =>
    cases h : constantTexts value values with
    | nil =>
      simp only [stepValues, h]
      exact .pure rfl
    | cons text texts =>
      simp only [stepValues, h]
      exact (bindAll_moved (text :: texts)).bind fun is => .pure rfl

theorem stepsValues_moved (chain : List Step) :
    Moved pre (List.map (Values.raise pre.size)) (stepsValues chain) (stepsValues chain) := by
  induction chain with
  | nil => exact .pure rfl
  | cons step rest ih => exact (stepValues_moved step).bind fun v => ih.bind fun vs => .pure rfl

theorem chainValues_moved (chain : List Step) :
    Moved pre (Values.raise pre.size) (chainValues chain) (chainValues chain) := by
  refine (stepsValues_moved chain).bind fun vs => ?_
  match vs with
  | [] => exact .pure rfl
  | [v] => exact .pure rfl
  | v :: w :: rest =>
    refine .pure ?_
    rw [Values.raise, Values.raiseEach_eq_map]
    rfl

/-! ### Operators -/

theorem raise_alternatives (k : Nat) (first : Cond) (rest : List Cond) :
    (alternatives first rest).raise k =
      alternatives (first.raise k) (rest.map (Cond.raise k)) :=
  Cond.raise_joined .either (fun _ _ => rfl) first rest

/-- A condition made of one value is moved with its number. -/
theorem bindThen_moved (value : String) {f g : Nat → Cond}
    (h : ∀ i, (f i).raise pre.size = g (i + pre.size)) :
    Moved pre (Cond.raise pre.size) (do pure (f (← Filter.bind value)))
      (do pure (g (← Filter.bind value))) :=
  (bind_moved value).bind fun i => .pure (h i)

theorem termCondition_moved (t : Term) (c : Condition) :
    Moved pre (Cond.raise pre.size) (termCondition t c)
      (termCondition (t.raise pre.size) c) := by
  obtain ⟨operator, operand⟩ := c
  cases operator with
  | equal | notEqual | contains | notContains =>
    simp only [termCondition]
    cases operand.single.text? with
    | none => exact .pure rfl
    | some text => exact bindThen_moved text fun i => rfl
  | oneOf =>
    simp only [termCondition]
    refine (bindAll_moved _).bind fun is => ?_
    have hbranches :
        ((is.map (· + pre.size)).map fun i => Cond.equal (t.raise pre.size) (.bound i)) ++
          (if (splitCandidates operand).2 then [Cond.isNull (t.raise pre.size)] else []) =
        ((is.map fun i => Cond.equal t (.bound i)) ++
          (if (splitCandidates operand).2 then [Cond.isNull t] else [])).map
            (Cond.raise pre.size) := by
      rw [List.map_append, List.map_map, List.map_map]
      cases (splitCandidates operand).2 <;> rfl
    rw [hbranches]
    cases (is.map fun i => Cond.equal t (.bound i)) ++
        (if (splitCandidates operand).2 then [Cond.isNull t] else []) with
    | nil => exact .pure rfl
    | cons b rest => exact .pure (congrArg Cond.orFalse (raise_alternatives _ b rest))
  | present | absent | unsupported => exact .pure rfl

theorem valuesCondition_moved (v : Values) (c : Condition) :
    Moved pre (Cond.raise pre.size) (valuesCondition v c)
      (valuesCondition (v.raise pre.size) c) := by
  obtain ⟨operator, operand⟩ := c
  cases operator with
  | equal | notEqual | contains | notContains =>
    simp only [valuesCondition]
    cases operand.single.text? with
    | none => exact .pure rfl
    | some text => exact bindThen_moved text fun i => rfl
  | oneOf =>
    simp only [valuesCondition]
    refine (bindAll_moved _).bind fun is => ?_
    cases is with
    | nil => cases (splitCandidates operand).2 <;> exact .pure rfl
    | cons i rest =>
      have hfound : (Cond.someElement v (alternatives (.equal .element (.bound i))
            (rest.map fun i => .equal .element (.bound i)))).raise pre.size =
          .someElement (v.raise pre.size) (alternatives (.equal .element (.bound (i + pre.size)))
            ((rest.map (· + pre.size)).map fun i => .equal .element (.bound i))) := by
        rw [Cond.raise, raise_alternatives, List.map_map, List.map_map]
        rfl
      cases (splitCandidates operand).2 with
      | false => exact .pure (congrArg Cond.paren hfound)
      | true => exact .pure (congrArg (fun c => Cond.paren (.either c (.noValues _))) hfound)
  | present | absent | unsupported => exact .pure rfl

/-! ### Fields and filters -/

/-- The condition of a source and the number of its source id, both moved. -/
def raiseRule (k : Nat) (rule : Nat × Cond) : Nat × Cond := (rule.1 + k, rule.2.raise k)

theorem ruleConditions_moved (c : Condition) (rules : List SourceRule) :
    Moved pre (List.map (raiseRule pre.size)) (ruleConditions c rules)
      (ruleConditions c rules) := by
  induction rules with
  | nil => exact .pure rfl
  | cons rule rest ih =>
    exact (bind_moved rule.sourceId).bind fun i => (chainValues_moved rule.chain).bind fun v =>
      (valuesCondition_moved v c).bind fun d => ih.bind fun found => .pure rfl

/-- The alternatives of a field are moved together with the numbers of the source ids. -/
theorem raise_alternative_sources (k : Nat) (found : List (Nat × Cond)) (d : Cond) :
    (found.map (·.2) ++ [Cond.paren (.both (noneOf (found.map (·.1))) d)]).map (Cond.raise k) =
      (found.map (raiseRule k)).map (·.2) ++
        [.paren (.both (noneOf ((found.map (raiseRule k)).map (·.1))) (d.raise k))] := by
  simp [Cond.raise, noneOf, Term.raise, raiseRule]

theorem fieldCondition_moved (f : Field) (c : Condition) :
    Moved pre (Cond.raise pre.size) (fieldCondition f c) (fieldCondition f c) := by
  refine (ruleConditions_moved c f.sources).bind fun found =>
    (chainValues_moved f.fallbackChain).bind fun v => (valuesCondition_moved v c).bind fun d => ?_
  cases found with
  | nil => exact .pure rfl
  | cons first rest =>
    refine .pure ?_
    rw [Cond.raise_grouped .either fun _ _ => rfl, raise_alternative_sources]

mutual

/-- The condition of a filter after other values is the condition without them, moved. -/
theorem condition_moved (fields : List Field) (f : Filter) :
    Moved pre (Cond.raise pre.size) (condition fields f) (condition fields f) := by
  cases f with
  | all parts =>
    exact (conditions_moved fields parts).bind fun cs =>
      .pure (Cond.raise_grouped .both (fun _ _ => rfl) true cs)
  | any parts =>
    exact (conditions_moved fields parts).bind fun cs =>
      .pure (Cond.raise_grouped .either (fun _ _ => rfl) false cs)
  | not part => exact (condition_moved fields part).bind fun d => .pure rfl
  | field name c =>
    simp only [condition]
    cases Field.find? fields name with
    | none => exact .pure rfl
    | some f => exact fieldCondition_moved f c
  | path origin key c =>
    exact (bind_moved key).bind fun i => termCondition_moved (trimmedMember origin i) c

theorem conditions_moved (fields : List Field) (fs : List Filter) :
    Moved pre (List.map (Cond.raise pre.size)) (conditions fields fs) (conditions fields fs) := by
  cases fs with
  | nil => exact .pure rfl
  | cons f rest =>
    exact (condition_moved fields f).bind fun c => (conditions_moved fields rest).bind fun cs =>
      .pure rfl

end

end Filter

/-! ### Predicates -/

/-- A predicate whose values stand `k` places later: the numbers of its placeholders and of the
names of its values are raised, and everything else stays. -/
def Predicate.raise (k : Nat) (p : Predicate) : Predicate where
  sql := String.ofList ((Piece.scan p.sql.toList).flatMap (Piece.raised k))
  params := p.params.map fun (name, value) => (raisedName k name, value)

namespace Filter

theorem paramsOf_append (bound more : Array String) :
    paramsOf (bound ++ more) = paramsOf bound ++
      (paramsOf more).map fun param => (raisedName bound.size param.1, param.2) := by
  have hshift : more.toList.zipIdx bound.size =
      more.toList.zipIdx.map fun placed => (placed.1, bound.size + placed.2) :=
    List.zipIdx_eq_map_add
  rw [paramsOf, paramsOf, paramsOf, Array.toList_append, List.zipIdx_append, List.map_append,
    Nat.zero_add, Array.length_toList, hshift, List.map_map, List.map_map]
  simp [Function.comp_def, Nat.add_comm]

/-- The condition of a filter after other values is that of its predicate, raised. -/
theorem condition_run (fields : List Field) (f : Filter) (bound : Array String) :
    (condition fields f).run bound = (((condition fields f).run #[]).1.raise bound.size,
      bound ++ ((condition fields f).run #[]).2) := by
  have h : Moved bound _ (condition fields f) (condition fields f) := condition_moved fields f
  have hrun := h #[]
  rwa [Array.append_empty] at hrun

theorem render_condition_run (fields : List Field) (f : Filter) (bound : Array String) :
    ((condition fields f).run bound).1.render = ((f.compile fields).raise bound.size).sql := by
  have hfit := (condition_fitting fields f #[]).2 _ (List.prefix_refl _)
  have hraised := (Cond.renumbered (k := bound.size) hfit.within).raised
  rw [condition_run, ← String.toList_inj, ← hraised]
  exact String.toList_ofList.symm

theorem paramsOf_condition_run (fields : List Field) (f : Filter) (bound : Array String) :
    paramsOf ((condition fields f).run bound).2 =
      paramsOf bound ++ ((f.compile fields).raise bound.size).params := by
  rw [condition_run, paramsOf_append]
  rfl

/-- How many values some filters bind. -/
def boundBy (fields : List Field) : List Filter → Nat
  | [] => 0
  | part :: rest => (part.compile fields).params.length + boundBy fields rest

theorem size_condition_run (fields : List Field) (f : Filter) (bound : Array String) :
    ((condition fields f).run bound).2.size = bound.size + (f.compile fields).params.length := by
  have hparams : (f.compile fields).params = paramsOf ((condition fields f).run #[]).2 := rfl
  rw [condition_run, Array.size_append, hparams, length_paramsOf]

/-- A part of a group is built after the values of the parts before it. -/
theorem conditions_run (fields : List Field) (before : List Filter) (child : Filter)
    (after : List Filter) (bound : Array String) :
    ∃ (earlier later : List Cond) (there : Array String), earlier.length = before.length ∧
      later.length = after.length ∧
      there.size = bound.size + boundBy fields before ∧
      ((conditions fields (before ++ child :: after)).run bound).1 =
        earlier ++ ((condition fields child).run there).1 :: later := by
  induction before generalizing bound with
  | nil => exact ⟨[], _, bound, rfl, conditions_length fields after _, rfl, rfl⟩
  | cons part before ih =>
    obtain ⟨earlier, later, there, hearlier, hlater, hsize, hrun⟩ :=
      ih ((condition fields part).run bound).2
    refine ⟨((condition fields part).run bound).1 :: earlier, later, there,
      congrArg (· + 1) hearlier, hlater, ?_, congrArg (_ :: ·) hrun⟩
    rw [hsize, size_condition_run, boundBy, Nat.add_assoc]

/-- After any values, a filter turns into the text of its predicate with all numbers raised by how
many they are, it keeps them, and it binds the values of its predicate, with their numbers raised
as well.  So the text of a part of a group is that of its own predicate, raised by the number of
values bound before the group and in the parts before it; nothing else of those parts counts. -/
theorem condition_position (fields : List Field) (f : Filter) (bound : Array String) :
    ((condition fields f).run bound).1.render = ((f.compile fields).raise bound.size).sql ∧
    paramsOf ((condition fields f).run bound).2 =
      paramsOf bound ++ ((f.compile fields).raise bound.size).params ∧
    ∀ (before : List Filter) (child : Filter) (after : List Filter),
      ∃ earlier later : List String, earlier.length = before.length ∧ later.length = after.length ∧
        ((condition fields (.all (before ++ child :: after))).run bound).1.render =
          joinTexts " AND " "TRUE" (earlier ++
            ((child.compile fields).raise (bound.size + boundBy fields before)).sql :: later) ∧
        ((condition fields (.any (before ++ child :: after))).run bound).1.render =
          joinTexts " OR " "FALSE" (earlier ++
            ((child.compile fields).raise (bound.size + boundBy fields before)).sql :: later) := by
  refine ⟨render_condition_run fields f bound, paramsOf_condition_run fields f bound,
    fun before child after => ?_⟩
  obtain ⟨earlier, later, there, hearlier, hlater, hsize, hrun⟩ :=
    conditions_run fields before child after bound
  have htexts : ((conditions fields (before ++ child :: after)).run bound).1.map Cond.render =
      earlier.map Cond.render ++
        ((child.compile fields).raise (bound.size + boundBy fields before)).sql ::
          later.map Cond.render := by
    rw [hrun, List.map_append, List.map_cons, render_condition_run, hsize]
  have hall : ((condition fields (.all (before ++ child :: after))).run bound).1 =
      Cond.grouped .both (.literal true)
        ((conditions fields (before ++ child :: after)).run bound).1 := rfl
  have hany : ((condition fields (.any (before ++ child :: after))).run bound).1 =
      Cond.grouped .either (.literal false)
        ((conditions fields (before ++ child :: after)).run bound).1 := rfl
  refine ⟨earlier.map Cond.render, later.map Cond.render, (List.length_map _).trans hearlier,
    (List.length_map _).trans hlater, ?_, ?_⟩
  · rw [hall, render_grouped Cond.render_both, htexts, Cond.render_true]
  · rw [hany, render_grouped Cond.render_either, htexts, Cond.render_false]

end Filter

end CorpusAgent
