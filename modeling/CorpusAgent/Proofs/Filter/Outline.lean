import CorpusAgent.Predicate

/-!
# The text of a predicate holds no data

All texts of a filter and of the catalog are bound, so the text of a predicate depends on the
outline of the filter alone.

* `Filter.outline`: what is left of a filter when names, keys and values are taken away, with the
  outlines of the fields in place of their names.
* `Lockstep`: two ways of building that give the same and bind equally many values.
* `Filter.compile_sql_of_outline_eq`: filters with the same outline have predicates with the same
  text and the same names of placeholders.
-/

namespace CorpusAgent

/-! ### Outlines -/

/-- A step without its key or its texts; a constant is usable if it has a text. -/
inductive StepOutline where
  | member (origin : Origin)
  | constant (value : Option Bool) (values : Option (List Bool))
  deriving DecidableEq, Repr

/-- A constant has a text. -/
def Filter.isUsable (v : Json) : Bool := (Filter.constantText? v).isSome

/-- The outline of a step. -/
def Step.outline : Step → StepOutline
  | .member origin _ => .member origin
  | .constant value values =>
    .constant (value.map Filter.isUsable) (values.map (·.map Filter.isUsable))

/-- A field without its name and its source ids. -/
structure FieldOutline where
  sources : List (List StepOutline)
  wildcard : Option (List StepOutline)
  deriving DecidableEq, Repr

/-- The outline of a field. -/
def Field.outline (f : Field) : FieldOutline :=
  ⟨f.sources.map fun rule => rule.chain.map Step.outline, f.wildcard.map (·.map Step.outline)⟩

/-- A condition without its values; of a value only counts whether it is `null`. -/
structure ConditionOutline where
  operator : Operator
  value : Option Bool
  values : Option (List Bool)
  deriving DecidableEq, Repr

/-- Not the value of nothing. -/
def Scalar.isGiven (s : Scalar) : Bool := s != .null

/-- An operator without the name that is not supported. -/
def Operator.outline : Operator → Operator
  | .unsupported _ => .unsupported ""
  | operator => operator

/-- The outline of a condition. -/
def Condition.outline (c : Condition) : ConditionOutline :=
  ⟨c.operator.outline, c.operand.value.map Scalar.isGiven,
    c.operand.values.map (·.map Scalar.isGiven)⟩

/-- A filter without names, keys and values. -/
inductive Outline where
  | all (parts : List Outline)
  | any (parts : List Outline)
  | not (part : Outline)
  | field (found : Option FieldOutline) (condition : ConditionOutline)
  | path (origin : Origin) (condition : ConditionOutline)

namespace Filter

open Sql (Term Values Cond)

mutual

/-- The outline of a filter, with the fields of a catalog. -/
def outline (fields : List Field) : Filter → Outline
  | .all parts => .all (outlines fields parts)
  | .any parts => .any (outlines fields parts)
  | .not part => .not (outline fields part)
  | .field name c => .field ((Field.find? fields name).map Field.outline) c.outline
  | .path origin _ c => .path origin c.outline

/-- The outlines of several filters. -/
def outlines (fields : List Field) : List Filter → List Outline
  | [] => []
  | part :: rest => outline fields part :: outlines fields rest

end

/-! ### Building in lockstep -/

section

variable {α β : Type}

/-- After equally many values two builds give the same and bind equally many more. -/
def Lockstep (m n : Build α) : Prop :=
  ∀ bound other : Array String, bound.size = other.size →
    (m.run bound).1 = (n.run other).1 ∧ (m.run bound).2.size = (n.run other).2.size

theorem Lockstep.pure (a : α) : Lockstep (Pure.pure a : Build α) (Pure.pure a) :=
  fun _ _ h => ⟨rfl, h⟩

theorem Lockstep.bind {m n : Build α} {k l : α → Build β} (h : Lockstep m n)
    (hk : ∀ a, Lockstep (k a) (l a)) : Lockstep (m >>= k) (n >>= l) := by
  intro bound other hsize
  obtain ⟨hval, hsize⟩ := h bound other hsize
  have hstep := hk (m.run bound).1 (m.run bound).2 (n.run other).2 hsize
  have hbind : (n >>= l).run other = (l (m.run bound).1).run (n.run other).2 := by
    rw [hval]
    rfl
  rw [hbind]
  exact hstep

end

/-- A bound value counts only as one more. -/
theorem bind_lockstep (x y : String) : Lockstep (bind x) (bind y) := by
  intro bound other hsize
  refine ⟨hsize, ?_⟩
  show (bound.push x).size = (other.push y).size
  rw [Array.size_push, Array.size_push, hsize]

theorem bindAll_lockstep {xs ys : List String} (h : xs.length = ys.length) :
    Lockstep (bindAll xs) (bindAll ys) := by
  induction xs generalizing ys with
  | nil =>
    obtain rfl := List.length_eq_zero_iff.mp h.symm
    exact Lockstep.pure []
  | cons x xs ih =>
    cases ys with
    | nil => cases h
    | cons y ys =>
      exact (bind_lockstep x y).bind fun i => (ih (Nat.succ.inj h)).bind fun is => Lockstep.pure _

theorem text_cases {x y : Option String} (h : x.isSome = y.isSome) :
    (x = none ∧ y = none) ∨ ∃ s t, x = some s ∧ y = some t := by
  cases x with
  | none =>
    cases y with
    | none => exact .inl ⟨rfl, rfl⟩
    | some y => cases h
  | some x =>
    cases y with
    | none => cases h
    | some y => exact .inr ⟨x, y, rfl, rfl⟩

/-! ### Operands -/

theorem isSome_text? (s : Scalar) : s.text?.isSome = s.isGiven := by
  cases s with
  | bool b => cases b <;> rfl
  | _ => rfl

theorem single_isSome {o p : Operand} (hv : o.value.map Scalar.isGiven = p.value.map Scalar.isGiven)
    (hvs : o.values.map (·.map Scalar.isGiven) = p.values.map (·.map Scalar.isGiven)) :
    o.single.text?.isSome = p.single.text?.isSome := by
  -- The single value, seen through the outline.
  have hsingle : ∀ o : Operand, o.single.isGiven = ((o.value.map Scalar.isGiven).getD
      ((((o.values.map (·.map Scalar.isGiven)).getD []).head?).getD false)) := by
    intro o
    rcases o with ⟨_ | v, _ | _ | ⟨w, vs⟩⟩ <;> rfl
  rw [isSome_text?, isSome_text?, hsingle, hsingle, hv, hvs]

theorem splitCandidates_outline {o p : Operand}
    (hv : o.value.map Scalar.isGiven = p.value.map Scalar.isGiven)
    (hvs : o.values.map (·.map Scalar.isGiven) = p.values.map (·.map Scalar.isGiven)) :
    (splitCandidates o).1.length = (splitCandidates p).1.length ∧
      (splitCandidates o).2 = (splitCandidates p).2 := by
  -- The candidates, seen through the outline.
  have hcandidates : ∀ o : Operand, o.candidates.map Scalar.isGiven =
      (o.values.map (·.map Scalar.isGiven)).getD (o.value.map Scalar.isGiven).toList := by
    intro o
    rcases o with ⟨_ | v, _ | vs⟩ <;> rfl
  have hlength : ∀ vs : List Scalar,
      (vs.filterMap Scalar.text?).length = (vs.map Scalar.isGiven).count true := by
    intro vs
    induction vs with
    | nil => rfl
    | cons v rest ih =>
      rw [List.map_cons, List.count_cons, ← ih, ← isSome_text?]
      cases h : v.text? <;> simp [h]
  have hnull : ∀ vs : List Scalar,
      (vs.any fun s => s.text?.isNone) = (vs.map Scalar.isGiven).any (!·) := by
    intro vs
    rw [List.any_map]
    refine congrArg vs.any (funext fun s => ?_)
    rw [Function.comp_apply, ← isSome_text?]
    cases s.text? <;> rfl
  have h := hcandidates o
  rw [hv, hvs, ← hcandidates p] at h
  exact ⟨by rw [splitCandidates, splitCandidates, hlength, hlength, h],
    by rw [splitCandidates, splitCandidates, hnull, hnull, h]⟩

/-! ### Chains and operators -/

theorem constantTexts_length {value value' : Option Json} {values values' : Option (List Json)}
    (hv : value.map isUsable = value'.map isUsable)
    (hvs : values.map (·.map isUsable) = values'.map (·.map isUsable)) :
    (constantTexts value values).length = (constantTexts value' values').length := by
  have hlength : ∀ vs : List Json,
      (vs.filterMap constantText?).length = (vs.map isUsable).count true := by
    intro vs
    induction vs with
    | nil => rfl
    | cons v rest ih =>
      rw [List.map_cons, List.count_cons, ← ih, isUsable]
      cases h : constantText? v <;> simp [h]
  have hsingle : ∀ value : Option Json, (value.bind constantText?).toList.length =
      ((value.map isUsable).getD false).toNat := by
    intro value
    cases value with
    | none => rfl
    | some v =>
      simp only [Option.bind_some, Option.map_some, Option.getD_some, isUsable]
      cases constantText? v <;> rfl
  cases values with
  | none =>
    obtain rfl : values' = none := Option.map_eq_none_iff.mp hvs.symm
    simp only [constantTexts]
    rw [hsingle, hsingle, hv]
  | some vs =>
    obtain ⟨vs', rfl, h⟩ := Option.map_eq_some_iff.mp hvs.symm
    simp only [constantTexts]
    rw [hlength, hlength, h]

theorem stepValues_lockstep {s t : Step} (h : s.outline = t.outline) :
    Lockstep (stepValues s) (stepValues t) := by
  cases s with
  | member origin key =>
    cases t with
    | member origin' key' =>
      obtain rfl : origin = origin' := StepOutline.member.inj h
      exact (bind_lockstep key key').bind fun i => Lockstep.pure _
    | constant value values => cases h
  | constant value values =>
    cases t with
    | member origin key => cases h
    | constant value' values' =>
      obtain ⟨hv, hvs⟩ := StepOutline.constant.inj h
      have hlen := constantTexts_length hv hvs
      simp only [stepValues]
      generalize constantTexts value values = xs at hlen
      generalize constantTexts value' values' = ys at hlen
      cases xs with
      | nil =>
        obtain rfl := List.length_eq_zero_iff.mp hlen.symm
        exact Lockstep.pure _
      | cons x xs =>
        cases ys with
        | nil => cases hlen
        | cons y ys => exact (bindAll_lockstep hlen).bind fun is => Lockstep.pure _

theorem stepsValues_lockstep {chain other : List Step}
    (h : chain.map Step.outline = other.map Step.outline) :
    Lockstep (stepsValues chain) (stepsValues other) := by
  induction chain generalizing other with
  | nil =>
    obtain rfl := List.map_eq_nil_iff.mp h.symm
    exact Lockstep.pure []
  | cons s rest ih =>
    cases other with
    | nil => cases h
    | cons t others =>
      obtain ⟨hs, hrest⟩ := List.cons.inj h
      exact (stepValues_lockstep hs).bind fun v => (ih hrest).bind fun vs => Lockstep.pure _

theorem chainValues_lockstep {chain other : List Step}
    (h : chain.map Step.outline = other.map Step.outline) :
    Lockstep (chainValues chain) (chainValues other) := by
  refine (stepsValues_lockstep h).bind fun vs => ?_
  match vs with
  | [] => exact Lockstep.pure _
  | [v] => exact Lockstep.pure _
  | v :: w :: rest => exact Lockstep.pure _

/-- The operators are the same, or neither is supported. -/
theorem operator_of_outline {a b : Operator} (h : a.outline = b.outline) :
    a = b ∨ ∃ name name', a = .unsupported name ∧ b = .unsupported name' := by
  cases a <;> cases b <;> first | exact .inl rfl | exact .inr ⟨_, _, rfl, rfl⟩ | cases h

theorem termCondition_lockstep (t : Term) {c d : Condition} (h : c.outline = d.outline) :
    Lockstep (termCondition t c) (termCondition t d) := by
  obtain ⟨operator, o⟩ := c
  obtain ⟨operator', p⟩ := d
  obtain ⟨hop, hv, hvs⟩ := ConditionOutline.mk.inj h
  obtain rfl | ⟨name, name', rfl, rfl⟩ := operator_of_outline hop
  · cases operator with
    | oneOf =>
      obtain ⟨hlen, hnull⟩ := splitCandidates_outline hv hvs
      simp only [termCondition, hnull]
      refine (bindAll_lockstep hlen).bind fun is => ?_
      generalize is.map (fun i => Cond.equal t (.bound i)) ++
        (if (splitCandidates p).2 then [Cond.isNull t] else []) = branches
      cases branches <;> exact Lockstep.pure _
    | present => exact Lockstep.pure _
    | absent => exact Lockstep.pure _
    | unsupported name => exact Lockstep.pure _
    | _ =>
      rcases text_cases (single_isSome hv hvs) with ⟨hx, hy⟩ | ⟨x, y, hx, hy⟩
      · simp only [termCondition, hx, hy]
        exact Lockstep.pure _
      · simp only [termCondition, hx, hy]
        exact (bind_lockstep x y).bind fun i => Lockstep.pure _
  · exact Lockstep.pure _

theorem valuesCondition_lockstep (v : Values) {c d : Condition} (h : c.outline = d.outline) :
    Lockstep (valuesCondition v c) (valuesCondition v d) := by
  obtain ⟨operator, o⟩ := c
  obtain ⟨operator', p⟩ := d
  obtain ⟨hop, hv, hvs⟩ := ConditionOutline.mk.inj h
  obtain rfl | ⟨name, name', rfl, rfl⟩ := operator_of_outline hop
  · cases operator with
    | oneOf =>
      obtain ⟨hlen, hnull⟩ := splitCandidates_outline hv hvs
      simp only [valuesCondition, hnull]
      refine (bindAll_lockstep hlen).bind fun is => ?_
      generalize (if (splitCandidates p).2 then [Cond.noValues v] else []) = nulls
      cases is <;> cases nulls <;> exact Lockstep.pure _
    | present => exact Lockstep.pure _
    | absent => exact Lockstep.pure _
    | unsupported name => exact Lockstep.pure _
    | _ =>
      rcases text_cases (single_isSome hv hvs) with ⟨hx, hy⟩ | ⟨x, y, hx, hy⟩
      · simp only [valuesCondition, hx, hy]
        exact Lockstep.pure _
      · simp only [valuesCondition, hx, hy]
        exact (bind_lockstep x y).bind fun i => Lockstep.pure _
  · exact Lockstep.pure _

/-! ### Fields and filters -/

theorem ruleConditions_lockstep {c d : Condition} (h : c.outline = d.outline)
    {rules others : List SourceRule}
    (hr : (rules.map fun rule => rule.chain.map Step.outline) =
      others.map fun rule => rule.chain.map Step.outline) :
    Lockstep (ruleConditions c rules) (ruleConditions d others) := by
  induction rules generalizing others with
  | nil =>
    obtain rfl := List.map_eq_nil_iff.mp hr.symm
    exact Lockstep.pure []
  | cons rule rest ih =>
    cases others with
    | nil => cases hr
    | cons other others =>
      obtain ⟨hchain, hrest⟩ := List.cons.inj hr
      exact (bind_lockstep rule.sourceId other.sourceId).bind fun i =>
        (chainValues_lockstep hchain).bind fun v =>
          (valuesCondition_lockstep v h).bind fun e =>
            (ih hrest).bind fun found => Lockstep.pure _

theorem fieldCondition_lockstep {f g : Field} (hf : f.outline = g.outline) {c d : Condition}
    (h : c.outline = d.outline) : Lockstep (fieldCondition f c) (fieldCondition g d) := by
  obtain ⟨hsources, hwildcard⟩ := FieldOutline.mk.inj hf
  -- Without a wildcard both fallback chains look at the three origins in the same order.
  have hfallback : f.fallbackChain.map Step.outline = g.fallbackChain.map Step.outline := by
    have h : ∀ f : Field, f.fallbackChain.map Step.outline =
        (f.wildcard.map (·.map Step.outline)).getD
          [.member .source, .member .file, .member .llm] := by
      intro f
      rw [Field.fallbackChain]
      cases f.wildcard <;> rfl
    rw [h f, h g, hwildcard]
  refine (ruleConditions_lockstep h hsources).bind fun rules =>
    (chainValues_lockstep hfallback).bind fun v =>
      (valuesCondition_lockstep v h).bind fun e => ?_
  cases rules <;> exact Lockstep.pure _

mutual

/-- Filters with the same outline are built in lockstep. -/
theorem condition_lockstep {fields catalog : List Field} {f g : Filter}
    (h : f.outline fields = g.outline catalog) :
    Lockstep (condition fields f) (condition catalog g) := by
  cases f with
  | all parts =>
    cases g with
    | all others =>
      exact (conditions_lockstep (Outline.all.inj h)).bind fun cs => Lockstep.pure _
    | _ => cases h
  | any parts =>
    cases g with
    | any others =>
      exact (conditions_lockstep (Outline.any.inj h)).bind fun cs => Lockstep.pure _
    | _ => cases h
  | not part =>
    cases g with
    | not other => exact (condition_lockstep (Outline.not.inj h)).bind fun c => Lockstep.pure _
    | _ => cases h
  | field name c =>
    cases g with
    | field other d =>
      obtain ⟨hfound, hc⟩ := Outline.field.inj h
      simp only [condition]
      cases hx : Field.find? fields name with
      | none =>
        cases hy : Field.find? catalog other with
        | none => exact Lockstep.pure _
        | some y => rw [hx, hy] at hfound; cases hfound
      | some x =>
        cases hy : Field.find? catalog other with
        | none => rw [hx, hy] at hfound; cases hfound
        | some y =>
          rw [hx, hy] at hfound
          exact fieldCondition_lockstep (Option.some.inj hfound) hc
    | _ => cases h
  | path origin key c =>
    cases g with
    | path origin' key' d =>
      obtain ⟨rfl, hc⟩ := Outline.path.inj h
      exact (bind_lockstep key key').bind fun i => termCondition_lockstep _ hc
    | _ => cases h

theorem conditions_lockstep {fields catalog : List Field} {fs gs : List Filter}
    (h : outlines fields fs = outlines catalog gs) :
    Lockstep (conditions fields fs) (conditions catalog gs) := by
  cases fs with
  | nil =>
    cases gs with
    | nil => exact Lockstep.pure []
    | cons g gs => cases h
  | cons f fs =>
    cases gs with
    | nil => cases h
    | cons g gs =>
      obtain ⟨hf, hfs⟩ := List.cons.inj h
      exact (condition_lockstep hf).bind fun c =>
        (conditions_lockstep hfs).bind fun cs => Lockstep.pure _

end

theorem paramsOf_names {bound other : Array String} (h : bound.size = other.size) :
    (paramsOf bound).map (·.1) = (paramsOf other).map (·.1) := by
  rw [keys_paramsOf, keys_paramsOf, h]

/-- Predicates of filters with the same outline have the same text and the same placeholders. -/
theorem compile_sql_of_outline_eq {f g : Filter} {fields catalog : List Field}
    (h : f.outline fields = g.outline catalog) :
    (f.compile fields).sql = (g.compile catalog).sql ∧
      (f.compile fields).params.map (·.1) = (g.compile catalog).params.map (·.1) := by
  obtain ⟨hc, hsize⟩ := condition_lockstep h #[] #[] rfl
  exact ⟨congrArg Cond.render hc, paramsOf_names hsize⟩

/-- Hostile and plain data in a filter on a field and in its catalog. -/
theorem compile_sql_of_outline_eq_quote :
    let f := Filter.field "'; --" ⟨.equal, ⟨some (.text ":p9 $1"), none⟩⟩
    let g := Filter.field "year" ⟨.equal, ⟨some (.bool true), none⟩⟩
    let fields := [⟨"'; --", none, none, [⟨"') OR ('", [.member .file "'"]⟩], none⟩]
    let catalog := [⟨"year", none, none, [⟨"s", [.member .file "y"]⟩], none⟩]
    f.outline fields = g.outline catalog ∧ (f.compile fields).sql = (g.compile catalog).sql ∧
      (f.compile fields).params.map (·.1) = (g.compile catalog).params.map (·.1) :=
  ⟨rfl, compile_sql_of_outline_eq rfl⟩

end Filter

end CorpusAgent
