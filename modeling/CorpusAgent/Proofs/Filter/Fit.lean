import CorpusAgent.Proofs.Filter.Build
import CorpusAgent.Proofs.Sql.Fragment
import CorpusAgent.Proofs.Sql.Reading

/-!
# Conditions of filters fit together

Every condition that a filter turns into is closed, it fits together, and it refers to bound values
only.  So it can be read back from its text, and it can be an operand anywhere.

* `Fitting`: the property, with a level up to which the condition may bind.
* `grouped_fitting`: a group of closed conditions is closed again.
* `condition_fitting`: the induction over the filter.
-/

namespace CorpusAgent.Filter

open Sql

/-- A list expression that fits together and refers to the first bound values only. -/
structure FittingValues (n : Nat) (v : Values) : Prop where
  fits : v.Fits
  within : v.Within n

/-- A condition up to a level that fits together and refers to the first bound values only. -/
structure Fitting (n level : Nat) (c : Cond) : Prop where
  fits : c.Fits
  level_le : c.level ≤ level
  within : c.Within n

section

variable {n level : Nat} {c : Cond}

theorem Fitting.mono {more : Nat} (h : Fitting n level c) (hl : level ≤ more) :
    Fitting n more c :=
  ⟨h.fits, Nat.le_trans h.level_le hl, h.within⟩

theorem fitting_false : Fitting n 0 (.literal false) := ⟨trivial, Nat.le_refl 0, trivial⟩

theorem fitting_paren (h : Fitting n level c) : Fitting n 0 (.paren c) :=
  ⟨h.fits, Nat.le_refl 0, h.within⟩

/-- Alternatives fit together if none of them is itself one of alternatives. -/
theorem alternatives_fitting {first : Cond} {rest : List Cond} (hf : Fitting n 4 first)
    (h : ∀ c ∈ rest, Fitting n 3 c) : Fitting n 4 (alternatives first rest) := by
  induction rest generalizing first with
  | nil => exact hf
  | cons c rest ih =>
    obtain ⟨hc, hrest⟩ := List.forall_mem_cons.mp h
    have hfirst : Fitting n 4 (.either first c) :=
      ⟨⟨hf.fits, hc.fits, hc.level_le⟩, Nat.le_refl 4, hf.within, hc.within⟩
    exact ih hfirst hrest

theorem joined_both_fitting {first : Cond} {rest : List Cond} (hf : Fitting n 3 first)
    (h : ∀ c ∈ rest, Fitting n 2 c) : Fitting n 3 (Cond.joined .both first rest) := by
  induction rest generalizing first with
  | nil => exact hf
  | cons c rest ih =>
    obtain ⟨hc, hrest⟩ := List.forall_mem_cons.mp h
    have hfirst : Fitting n 3 (.both first c) :=
      ⟨⟨⟨hf.fits, hf.level_le⟩, hc.fits, hc.level_le⟩, Nat.le_refl 3, hf.within, hc.within⟩
    exact ih hfirst hrest

/-- A group of closed conditions is closed if they fit together side by side. -/
theorem grouped_fitting (level : Nat) {join : Cond → Cond → Cond} {unit : Bool}
    {cs : List Cond} (h : ∀ c ∈ cs, Fitting n 0 c)
    (hjoin : ∀ first rest, (∀ c ∈ first :: rest, Fitting n 0 c) →
      Fitting n level (Cond.joined join first rest)) :
    Fitting n 0 (Cond.grouped join (.literal unit) cs) := by
  match cs, h with
  | [], _ => exact ⟨trivial, Nat.le_refl 0, trivial⟩
  | [c], h => exact h c (List.mem_singleton_self c)
  | c :: d :: rest, h => exact fitting_paren (hjoin c (d :: rest) h)

theorem grouped_either_fitting {cs : List Cond} (h : ∀ c ∈ cs, Fitting n 0 c) :
    Fitting n 0 (Cond.grouped .either (.literal false) cs) := by
  refine grouped_fitting 4 h fun first rest hall => ?_
  obtain ⟨hf, hrest⟩ := List.forall_mem_cons.mp hall
  exact alternatives_fitting (hf.mono (Nat.zero_le 4)) fun c hc => (hrest c hc).mono (Nat.zero_le 3)

theorem grouped_both_fitting {cs : List Cond} (h : ∀ c ∈ cs, Fitting n 0 c) :
    Fitting n 0 (Cond.grouped .both (.literal true) cs) := by
  refine grouped_fitting 3 h fun first rest hall => ?_
  obtain ⟨hf, hrest⟩ := List.forall_mem_cons.mp hall
  exact joined_both_fitting (hf.mono (Nat.zero_le 3)) fun c hc => (hrest c hc).mono (Nat.zero_le 2)

end

/-! ### Chains -/

theorem lt_of_getElem? {later : List String} {i : Nat} {x : String} (h : later[i]? = some x) :
    i < later.length :=
  (List.getElem?_eq_some_iff.mp h).1

theorem forall_lt_of_map {later : List String} {is : List Nat} {xs : List String}
    (h : is.map (later[·]?) = xs.map some) : ∀ i ∈ is, i < later.length := by
  intro i hi
  have hmem := List.mem_map_of_mem (f := (later[·]?)) hi
  rw [h] at hmem
  obtain ⟨x, -, hx⟩ := List.mem_map.mp hmem
  exact lt_of_getElem? hx.symm

theorem stepValues_fitting (step : Step) :
    Yields (stepValues step) fun later v => FittingValues later.length v := by
  cases step with
  | member origin key =>
    refine (bind_yields key).bind fun i => Yields.pure fun later h => ?_
    have hi := lt_of_getElem? h
    exact ⟨⟨trivial, trivial, trivial⟩, hi, ⟨trivial, hi, trivial⟩, hi, trivial, hi⟩
  | constant value values =>
    cases hc : constantTexts value values with
    | nil =>
      simp only [stepValues, hc]
      exact Yields.pure fun _ => ⟨trivial, trivial⟩
    | cons x xs =>
      simp only [stepValues, hc]
      refine (bindAll_yields (x :: xs)).bind fun is => Yields.pure fun later h => ?_
      refine ⟨fun hnil => ?_, forall_lt_of_map h⟩
      subst hnil
      cases h

theorem stepsValues_fitting (chain : List Step) :
    Yields (stepsValues chain) fun later vs => ∀ v ∈ vs, FittingValues later.length v := by
  induction chain with
  | nil => exact Yields.pure fun _ v hv => absurd hv List.not_mem_nil
  | cons step rest ih =>
    exact (stepValues_fitting step).bind fun v => ih.bind fun vs => Yields.pure fun _ hvs hv =>
      List.forall_mem_cons.mpr ⟨hv, hvs⟩

theorem chainValues_fitting (chain : List Step) :
    Yields (chainValues chain) fun later v => FittingValues later.length v := by
  refine (stepsValues_fitting chain).bind fun vs => ?_
  match vs with
  | [] => exact Yields.pure fun _ _ => ⟨trivial, trivial⟩
  | [v] => exact Yields.pure fun _ h => h v (List.mem_singleton_self v)
  | v :: w :: rest =>
    refine Yields.pure fun _ h => ⟨⟨List.cons_ne_nil v (w :: rest), ?_⟩, ?_⟩
    · exact Values.fitEach_iff.mpr fun u hu => (h u hu).fits
    · exact Values.withinEach_iff.mpr fun u hu => (h u hu).within

/-! ### Operators -/

theorem termCondition_fitting_oneOf (t : Term) (o : Operand) :
    Yields (termCondition t ⟨.oneOf, o⟩) fun later d =>
      t.Within later.length → Fitting later.length 0 d := by
  simp only [termCondition]
  refine (bindAll_yields (splitCandidates o).1).bind fun is => ?_
  have hall : ∀ n, t.Within n → (∀ i ∈ is, i < n) →
      ∀ c ∈ is.map (fun i => Cond.equal t (.bound i)) ++
        (if (splitCandidates o).2 then [Cond.isNull t] else []), Fitting n 1 c := by
    intro n ht his c hc
    rcases List.mem_append.mp hc with hc | hc
    · obtain ⟨i, hi, rfl⟩ := List.mem_map.mp hc
      exact ⟨trivial, Nat.le_refl 1, ht, his i hi⟩
    · split at hc
      · obtain rfl := List.mem_singleton.mp hc
        exact ⟨trivial, Nat.le_refl 1, ht⟩
      · cases hc
  generalize is.map (fun i => Cond.equal t (.bound i)) ++
    (if (splitCandidates o).2 then [Cond.isNull t] else []) = branches at hall
  cases branches with
  | nil => exact Yields.pure fun _ _ _ => fitting_false
  | cons b rest =>
    refine Yields.pure fun later his ht => ?_
    obtain ⟨hb, hrest⟩ := List.forall_mem_cons.mp (hall _ ht (forall_lt_of_map his))
    have halt := alternatives_fitting (hb.mono (Nat.le_add_left 1 3))
      fun c hc => (hrest c hc).mono (Nat.le_add_left 1 2)
    exact ⟨halt.fits, Nat.le_refl 0, halt.within⟩

theorem termCondition_fitting (t : Term) (c : Condition) :
    Yields (termCondition t c) fun later d =>
      t.Within later.length → Fitting later.length 0 d := by
  obtain ⟨operator, o⟩ := c
  cases operator with
  | equal =>
    simp only [termCondition]
    cases o.single.text? with
    | none => exact Yields.pure fun _ ht => ⟨trivial, Nat.le_refl 0, ht⟩
    | some y =>
      exact (bind_yields y).bind fun i => Yields.pure fun _ hi ht =>
        ⟨trivial, Nat.le_refl 0, ht, lt_of_getElem? hi⟩
  | notEqual =>
    simp only [termCondition]
    cases o.single.text? with
    | none => exact Yields.pure fun _ ht => ⟨trivial, Nat.le_refl 0, ht⟩
    | some y =>
      exact (bind_yields y).bind fun i => Yields.pure fun _ hi ht =>
        ⟨trivial, Nat.le_refl 0, ht, lt_of_getElem? hi⟩
  | oneOf => exact termCondition_fitting_oneOf t o
  | contains =>
    simp only [termCondition]
    cases o.single.text? with
    | none => exact Yields.pure fun _ _ => fitting_false
    | some y =>
      exact (bind_yields y).bind fun i => Yields.pure fun _ hi ht =>
        ⟨trivial, Nat.le_refl 0, ht, lt_of_getElem? hi⟩
  | notContains =>
    simp only [termCondition]
    cases o.single.text? with
    | none => exact Yields.pure fun _ _ => fitting_false
    | some y =>
      exact (bind_yields y).bind fun i => Yields.pure fun _ hi ht =>
        ⟨⟨trivial, ⟨trivial, Nat.zero_le 1⟩, Nat.le_add_left 2 1⟩, Nat.le_refl 0, ht, ht,
          lt_of_getElem? hi⟩
  | present => exact Yields.pure fun _ ht => ⟨trivial, Nat.le_refl 0, ht⟩
  | absent => exact Yields.pure fun _ ht => ⟨trivial, Nat.le_refl 0, ht⟩
  | unsupported name => exact Yields.pure fun _ _ => fitting_false

theorem valuesCondition_fitting_oneOf (v : Values) (o : Operand) :
    Yields (valuesCondition v ⟨.oneOf, o⟩) fun later d =>
      FittingValues later.length v → Fitting later.length 0 d := by
  simp only [valuesCondition]
  refine (bindAll_yields (splitCandidates o).1).bind fun is => ?_
  have hnull : ∀ n, FittingValues n v →
      ∀ c ∈ (if (splitCandidates o).2 then [Cond.noValues v] else []), Fitting n 1 c := by
    intro n hv c hc
    split at hc
    · obtain rfl := List.mem_singleton.mp hc
      exact ⟨hv.fits, Nat.le_refl 1, hv.within⟩
    · cases hc
  generalize (if (splitCandidates o).2 then [Cond.noValues v] else []) = nulls at hnull
  cases is with
  | nil =>
    cases nulls with
    | nil => exact Yields.pure fun _ _ _ => fitting_false
    | cons b rest =>
      refine Yields.pure fun later _ hv => ?_
      obtain ⟨hb, hrest⟩ := List.forall_mem_cons.mp (hnull _ hv)
      exact fitting_paren (alternatives_fitting (hb.mono (Nat.le_add_left 1 3))
        fun c hc => (hrest c hc).mono (Nat.le_add_left 1 2))
  | cons i is =>
    refine Yields.pure fun later his hv => ?_
    obtain ⟨hi, his⟩ := List.forall_mem_cons.mp (forall_lt_of_map his)
    have hequal : ∀ c ∈ is.map fun i => Cond.equal .element (.bound i),
        Fitting later.length 3 c := by
      intro c hc
      obtain ⟨j, hj, rfl⟩ := List.mem_map.mp hc
      exact ⟨trivial, Nat.le_add_left 1 2, trivial, his j hj⟩
    have hfirst : Fitting later.length 4 (.equal .element (.bound i)) :=
      ⟨trivial, Nat.le_add_left 1 3, trivial, hi⟩
    have halt := alternatives_fitting hfirst hequal
    have hsome : Fitting later.length 4 (.someElement v (alternatives
        (.equal .element (.bound i)) (is.map fun i => .equal .element (.bound i)))) :=
      ⟨⟨hv.fits, halt.fits⟩, Nat.zero_le 4, hv.within, halt.within⟩
    exact fitting_paren (alternatives_fitting hsome
      fun c hc => (hnull _ hv c hc).mono (Nat.le_add_left 1 2))

theorem valuesCondition_fitting (v : Values) (c : Condition) :
    Yields (valuesCondition v c) fun later d =>
      FittingValues later.length v → Fitting later.length 0 d := by
  obtain ⟨operator, o⟩ := c
  cases operator with
  | equal =>
    simp only [valuesCondition]
    cases o.single.text? with
    | none => exact Yields.pure fun _ hv => ⟨hv.fits, Nat.le_refl 0, hv.within⟩
    | some y =>
      exact (bind_yields y).bind fun i => Yields.pure fun _ hi hv =>
        ⟨⟨hv.fits, trivial⟩, Nat.le_refl 0, hv.within, trivial, lt_of_getElem? hi⟩
  | notEqual =>
    simp only [valuesCondition]
    cases o.single.text? with
    | none => exact Yields.pure fun _ hv => ⟨hv.fits, Nat.le_refl 0, hv.within⟩
    | some y =>
      exact (bind_yields y).bind fun i => Yields.pure fun _ hi hv =>
        ⟨⟨⟨hv.fits, trivial⟩, Nat.zero_le 1⟩, Nat.le_refl 0, hv.within, trivial,
          lt_of_getElem? hi⟩
  | oneOf => exact valuesCondition_fitting_oneOf v o
  | contains =>
    simp only [valuesCondition]
    cases o.single.text? with
    | none => exact Yields.pure fun _ _ => fitting_false
    | some y =>
      exact (bind_yields y).bind fun i => Yields.pure fun _ hi hv =>
        ⟨⟨hv.fits, trivial⟩, Nat.le_refl 0, hv.within, trivial, lt_of_getElem? hi⟩
  | notContains =>
    simp only [valuesCondition]
    cases o.single.text? with
    | none => exact Yields.pure fun _ _ => fitting_false
    | some y =>
      exact (bind_yields y).bind fun i => Yields.pure fun _ hi hv =>
        ⟨⟨⟨hv.fits, trivial⟩, Nat.zero_le 1⟩, Nat.le_refl 0, hv.within, trivial,
          lt_of_getElem? hi⟩
  | present => exact Yields.pure fun _ hv => ⟨hv.fits, Nat.le_refl 0, hv.within⟩
  | absent => exact Yields.pure fun _ hv => ⟨hv.fits, Nat.le_refl 0, hv.within⟩
  | unsupported name => exact Yields.pure fun _ _ => fitting_false

/-! ### Fields and filters -/

theorem ruleConditions_fitting (c : Condition) (rules : List SourceRule) :
    Yields (ruleConditions c rules) fun later found =>
      ∀ entry ∈ found, entry.1 < later.length ∧ Fitting later.length 0 entry.2 := by
  induction rules with
  | nil => exact Yields.pure fun _ entry he => absurd he List.not_mem_nil
  | cons rule rest ih =>
    refine (bind_yields rule.sourceId).bind fun i =>
      (chainValues_fitting rule.chain).bind fun v =>
        (valuesCondition_fitting v c).bind fun d => ih.bind fun found => Yields.pure ?_
    intro later hfound hd hv hi
    have hd := hd hv
    have hi := lt_of_getElem? hi
    exact List.forall_mem_cons.mpr ⟨⟨hi, ⟨⟨⟨trivial, Nat.le_add_left 1 2⟩, hd.fits,
      Nat.le_trans hd.level_le (Nat.zero_le 2)⟩, Nat.le_refl 0, ⟨trivial, hi⟩, hd.within⟩⟩, hfound⟩

theorem noneOf_fitting {n : Nat} {ids : List Nat} (hne : ids ≠ []) (h : ∀ i ∈ ids, i < n) :
    Fitting n 0 (noneOf ids) :=
  ⟨⟨trivial, hne, Nat.le_add_left 1 2⟩, Nat.le_refl 0, trivial, trivial, h⟩

theorem fieldCondition_fitting (f : Field) (c : Condition) :
    Yields (fieldCondition f c) fun later d => Fitting later.length 0 d := by
  refine (ruleConditions_fitting c f.sources).bind fun found =>
    (chainValues_fitting f.fallbackChain).bind fun v =>
      (valuesCondition_fitting v c).bind fun d => ?_
  cases found with
  | nil => exact Yields.pure fun _ hd hv _ => hd hv
  | cons first rest =>
    refine Yields.pure fun later hd hv hfound => grouped_either_fitting fun e he => ?_
    rcases List.mem_append.mp he with he | he
    · obtain ⟨entry, hentry, rfl⟩ := List.mem_map.mp he
      exact (hfound entry hentry).2
    · obtain rfl := List.mem_singleton.mp he
      have hd := hd hv
      have hnone : Fitting later.length 0 (noneOf ((first :: rest).map (·.1))) := by
        refine noneOf_fitting (List.cons_ne_nil _ _) fun i hi => ?_
        obtain ⟨entry, hentry, rfl⟩ := List.mem_map.mp hi
        exact (hfound entry hentry).1
      exact ⟨⟨⟨hnone.fits, Nat.zero_le 3⟩, hd.fits, Nat.le_trans hd.level_le (Nat.zero_le 2)⟩,
        Nat.le_refl 0, hnone.within, hd.within⟩

mutual

/-- The condition of a filter is closed and refers to bound values only. -/
theorem condition_fitting (fields : List Field) (f : Filter) :
    Yields (condition fields f) fun later d => Fitting later.length 0 d := by
  cases f with
  | all parts =>
    exact (conditions_fitting fields parts).bind fun cs => Yields.pure fun _ h =>
      grouped_both_fitting h
  | any parts =>
    exact (conditions_fitting fields parts).bind fun cs => Yields.pure fun _ h =>
      grouped_either_fitting h
  | not part =>
    exact (condition_fitting fields part).bind fun d => Yields.pure fun _ h =>
      ⟨⟨h.fits, Nat.le_trans h.level_le (Nat.zero_le 1)⟩, Nat.le_refl 0, h.within⟩
  | field name c =>
    simp only [condition]
    cases Field.find? fields name with
    | none => exact Yields.pure fun _ => fitting_false
    | some f => exact fieldCondition_fitting f c
  | path origin key c =>
    exact (bind_yields key).bind fun i => (termCondition_fitting _ c).mono
      fun later _ h hi => h (lt_of_getElem? hi)

theorem conditions_fitting (fields : List Field) (fs : List Filter) :
    Yields (conditions fields fs) fun later cs => ∀ d ∈ cs, Fitting later.length 0 d := by
  cases fs with
  | nil => exact Yields.pure fun _ d hd => absurd hd List.not_mem_nil
  | cons f rest =>
    exact (condition_fitting fields f).bind fun c =>
      (conditions_fitting fields rest).bind fun cs => Yields.pure fun _ hcs hc =>
        List.forall_mem_cons.mpr ⟨hc, hcs⟩

end

end CorpusAgent.Filter
