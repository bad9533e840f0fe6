import CorpusAgent.Proofs.Number.Order
import CorpusAgent.Proofs.Settings.Sound
import Mathlib.Data.List.Infix

/-!
# Valid settings

What settings are checked for, said without a check, and which fault is reported of settings that
are not valid.

* `Settings.Valid`: the conditions on settings and all that is in them.
* `Requirement`: one such condition, with the fault that is reported where it does not hold.
  `Settings.requirements` lists those of settings in their order.
* `Reports`: what is reported of requirements is the fault of the first one that is not met.
* `KeepsNames.reports`: keeping the names that are taken decides whether names are distinct.
* `Settings.reports_fault?`: the check of settings reports of their requirements.
* `fault?_decides`: so it finds nothing if and only if the settings are valid, and else the fault of
  the first requirement that is not met.
-/

namespace CorpusAgent

open Text (isBlank)
open Binary (ofRat)

/-! ### Conditions -/

/-- A step looks up a key that is not blank, or it brings a value or a list of values. -/
def Step.Valid : Step → Prop
  | .member _ key => isBlank key = false
  | .constant value values => value ≠ none ∨ values ≠ none

structure ValidChain (chain : List Step) : Prop where
  nonempty : chain ≠ []
  steps : ∀ step ∈ chain, step.Valid

structure SourceRule.Valid (rule : SourceRule) : Prop where
  sourceId : isBlank rule.sourceId = false
  chain : ValidChain rule.chain

structure Field.Valid (f : Field) : Prop where
  name : isBlank f.name = false
  sources : ∀ rule ∈ f.sources, rule.Valid
  wildcard : ∀ chain, f.wildcard = some chain → ValidChain chain

/-- A search finds something, and its threshold is a number between -1 and 1.  It does not matter
whether the search is enabled. -/
structure SimilaritySettings.Valid (s : SimilaritySettings) : Prop where
  limit : 0 < s.limit
  threshold : ∃ q : ℚ, s.scoreThreshold.value = ofRat q ∧ -1 ≤ q ∧ q ≤ 1

structure Corpus.Valid (c : Corpus) : Prop where
  id : isBlank c.id = false
  maxIterations : 0 < c.run.maxIterations
  maxSources : c.run.responseMode = .answerOnly ∨ 0 < c.run.maxSources
  chunks : c.tools.chunks.Valid
  summaries : c.tools.summaries.Valid
  fields : ∀ f ∈ c.fields, f.Valid
  distinct : (c.fields.map Field.name).Nodup

structure Settings.Valid (s : Settings) : Prop where
  httpBind : isBlank s.service.httpBind = false
  dimensions : 0 < s.embedding.dimensions
  vectorDim : s.embedding.dimensions = s.database.vectorDim
  temperature : ∃ q : ℚ, s.completion.temperature.value = ofRat q ∧ 0 ≤ q
  embeddingKey : isBlank s.embedding.apiKey = false
  completionKey : isBlank s.completion.apiKey = false
  corpora : ∀ c ∈ s.corpora, c.Valid
  distinct : (s.corpora.map Corpus.id).Nodup

/-! ### Conditions in their order -/

/-- A condition, with the fault that is reported where it does not hold. -/
structure Requirement (φ : Type) where
  met : Prop
  fault : φ

/-- The requirement on a part, with the fault that it is for the whole. -/
def Requirement.within {φ ψ : Type} (wrap : φ → ψ) (r : Requirement φ) : Requirement ψ :=
  ⟨r.met, wrap r.fault⟩

/-- The fault is that of the first requirement that is not met. -/
def FirstUnmet {φ : Type} (rs : List (Requirement φ)) (fault : φ) : Prop :=
  ∃ before r after, rs = before ++ r :: after ∧ (∀ q ∈ before, q.met) ∧ ¬r.met ∧ r.fault = fault

/-- The requirements of an item after others: its name is not blank and differs from theirs, and it
meets its own requirements. -/
def itemRequirements {α φ : Type} (name : α → String) (blank : φ) (repeated : String → φ)
    (own : α → List (Requirement φ)) (earlier : List α) (a : α) : List (Requirement φ) :=
  ⟨isBlank (name a) = false, blank⟩ ::
    ⟨∀ b ∈ earlier, name b ≠ name a, repeated (name a)⟩ :: own a

/-- The requirements of items with names, each after those before it. -/
def namedRequirements {α φ : Type} (name : α → String) (blank : φ) (repeated : String → φ)
    (own : α → List (Requirement φ)) (items : List α) : List (Requirement φ) :=
  (List.zipWith (itemRequirements name blank repeated own) items.inits items).flatten

def Step.requirement (step : Step) : Requirement ChainFault :=
  ⟨step.Valid,
    match step with
    | .member .. => .blankKey
    | .constant .. => .constantWithoutValue⟩

def chainRequirements (chain : List Step) : List (Requirement ChainFault) :=
  ⟨chain ≠ [], .noSteps⟩ :: chain.map Step.requirement

def SourceRule.requirements (field : String) (rule : SourceRule) :
    List (Requirement CorpusFault) :=
  ⟨isBlank rule.sourceId = false, .blankSourceId field⟩ ::
    (chainRequirements rule.chain).map (.within (.chain field))

/-- The requirements of a field apart from those on its name. -/
def Field.requirements (f : Field) : List (Requirement CorpusFault) :=
  f.sources.flatMap (SourceRule.requirements f.name) ++
    (f.wildcard.toList.flatMap chainRequirements).map (.within (.chain f.name))

def SimilaritySettings.requirements (tool : String) (s : SimilaritySettings) :
    List (Requirement CorpusFault) :=
  [⟨0 < s.limit, .noLimit tool⟩,
    ⟨∃ q : ℚ, s.scoreThreshold.value = ofRat q, .thresholdNotFinite tool⟩,
    ⟨∃ q : ℚ, s.scoreThreshold.value = ofRat q ∧ -1 ≤ q ∧ q ≤ 1, .thresholdOutOfRange tool⟩]

/-- The requirements of a corpus apart from those on its id. -/
def Corpus.requirements (c : Corpus) : List (Requirement CorpusFault) :=
  ⟨0 < c.run.maxIterations, .noIterations⟩ ::
    ⟨c.run.responseMode = .answerOnly ∨ 0 < c.run.maxSources, .noSources⟩ ::
    (c.tools.chunks.requirements "find_chunks_by_similarity" ++
      (c.tools.summaries.requirements "find_documents_by_summary_similarity" ++
        namedRequirements Field.name .blankFieldName .repeatedField Field.requirements c.fields))

/-- The requirements of settings: those of the service and its endpoints, then those of one corpus
after the other. -/
def Settings.requirements (s : Settings) : List (Requirement SettingsFault) :=
  ⟨isBlank s.service.httpBind = false, .blankBind⟩ ::
    ⟨0 < s.embedding.dimensions, .noDimensions⟩ ::
    ⟨s.embedding.dimensions = s.database.vectorDim, .dimensionsDiffer⟩ ::
    ⟨∃ q : ℚ, s.completion.temperature.value = ofRat q ∧ 0 ≤ q, .badTemperature⟩ ::
    ⟨isBlank s.embedding.apiKey = false, .blankApiKey "embedding"⟩ ::
    ⟨isBlank s.completion.apiKey = false, .blankApiKey "llm"⟩ ::
    namedRequirements Corpus.id .blankCorpusId .repeatedCorpus
      (fun c => c.requirements.map (.within (.corpus c.id))) s.corpora

/-! ### What is reported -/

/-- What is reported of requirements: the fault of the first one that is not met, or nothing. -/
inductive Reports {φ : Type} : List (Requirement φ) → Option φ → Prop
  | nothing : Reports [] none
  | met {r : Requirement φ} {rs : List (Requirement φ)} {found : Option φ} (h : r.met)
    (rest : Reports rs found) : Reports (r :: rs) found
  | unmet {r : Requirement φ} {rs : List (Requirement φ)} (h : ¬r.met) :
    Reports (r :: rs) (some r.fault)

namespace Reports

variable {α φ ψ : Type} {r : Requirement φ} {rs more : List (Requirement φ)} {found next : Option φ}
  {fault : φ}

theorem none_iff : Reports rs none ↔ ∀ r ∈ rs, r.met := by
  constructor
  · intro h
    generalize hfound : (none : Option φ) = found at h
    induction h with
    | nothing => exact List.forall_mem_nil _
    | met h _ ih => exact List.forall_mem_cons.mpr ⟨h, ih hfound⟩
    | unmet => cases hfound
  · intro h
    induction rs with
    | nil => exact .nothing
    | cons r rs ih =>
      obtain ⟨hr, hrs⟩ := List.forall_mem_cons.mp h
      exact .met hr (ih hrs)

theorem some_iff : Reports rs (some fault) ↔ FirstUnmet rs fault := by
  constructor
  · intro h
    generalize hfound : some fault = found at h
    induction h with
    | nothing => cases hfound
    | met h _ ih =>
      obtain ⟨before, r, after, rfl, hbefore, hr⟩ := ih hfound
      exact ⟨_ :: before, r, after, rfl, List.forall_mem_cons.mpr ⟨h, hbefore⟩, hr⟩
    | unmet h =>
      exact ⟨[], _, _, rfl, List.forall_mem_nil _, h, (Option.some.inj hfound).symm⟩
  · rintro ⟨before, r, after, rfl, hbefore, hr, rfl⟩
    induction before with
    | nil => exact .unmet hr
    | cons q before ih =>
      obtain ⟨hq, hbefore⟩ := List.forall_mem_cons.mp hbefore
      exact .met hq (ih hbefore)

/-- Only one thing is reported of requirements. -/
theorem unique (h : Reports rs found) (g : Reports rs next) : found = next := by
  induction h with
  | nothing =>
    cases g
    rfl
  | met h _ ih =>
    cases g with
    | met _ g => exact ih g
    | unmet hr => exact absurd h hr
  | unmet hr =>
    cases g with
    | met h => exact absurd h hr
    | unmet => rfl

theorem eq_none_iff (h : Reports rs found) : found = none ↔ ∀ r ∈ rs, r.met := by
  rw [← none_iff]
  exact ⟨fun hnone => hnone ▸ h, h.unique⟩

theorem eq_some_iff (h : Reports rs found) : found = some fault ↔ FirstUnmet rs fault := by
  rw [← some_iff]
  exact ⟨fun hsome => hsome ▸ h, h.unique⟩

/-- A check that is made first reports of the requirement that comes first. -/
theorem cons {condition : Bool} (hr : condition = false ↔ r.met) (h : Reports rs found) :
    Reports (r :: rs) (faultIf condition r.fault <|> found) := by
  cases condition with
  | false => exact .met (hr.mp rfl) h
  | true => exact .unmet fun hmet => Bool.noConfusion (hr.mpr hmet)

theorem singleton {condition : Bool} (hr : condition = false ↔ r.met) :
    Reports [r] (faultIf condition r.fault) := by
  cases condition with
  | false => exact .met (hr.mp rfl) .nothing
  | true => exact .unmet fun hmet => Bool.noConfusion (hr.mpr hmet)

theorem append (h : Reports rs found) (g : Reports more next) :
    Reports (rs ++ more) (found <|> next) := by
  induction h with
  | nothing => exact g
  | met h _ ih => exact .met h ih
  | unmet h => exact .unmet h

theorem within (wrap : φ → ψ) (h : Reports rs found) :
    Reports (rs.map (.within wrap)) (found.map wrap) := by
  induction h with
  | nothing => exact .nothing
  | met h _ ih => exact .met h ih
  | unmet h => exact .unmet h

/-- The checks of items one after the other report of their requirements. -/
theorem flatMap {requirements : α → List (Requirement φ)} {check : α → Option φ} {items : List α}
    (h : ∀ a ∈ items, Reports (requirements a) (check a)) :
    Reports (items.flatMap requirements) (items.findSome? check) := by
  induction items with
  | nil => exact .nothing
  | cons a rest ih =>
    obtain ⟨ha, hrest⟩ := List.forall_mem_cons.mp h
    have hboth := ha.append (ih hrest)
    rw [List.findSome?_cons]
    cases hcheck : check a with
    | none => rwa [hcheck] at hboth
    | some fault => rwa [hcheck] at hboth

end Reports

/-! ### Names that are taken -/

section

variable {α φ : Type} {name : α → String} {blank : φ} {repeated : String → φ}
  {own : α → List (Requirement φ)}

/-- A check that keeps the names that are taken reports of what is required of the items. -/
theorem KeepsNames.reports {check : List String → List α → Option φ} {found : α → Option φ}
    (h : KeepsNames name blank repeated found check) {items : List α}
    (hown : ∀ a ∈ items, Reports (own a) (found a)) :
    Reports (namedRequirements name blank repeated own items) (check [] items) := by
  -- the names that are taken are those of the items before
  have hlater : ∀ (before : List α) (taken : List String),
      (∀ other, other ∈ taken ↔ ∃ b ∈ before, name b = other) →
      Reports (List.zipWith (fun earlier => itemRequirements name blank repeated own
        (before ++ earlier)) items.inits items).flatten (check taken items) := by
    induction items with
    | nil =>
      intro before taken _
      rw [h.nil]
      exact .nothing
    | cons a rest ih =>
      intro before taken htaken
      obtain ⟨ha, hrest⟩ := List.forall_mem_cons.mp hown
      have hnew : taken.contains (name a) = false ↔ ∀ b ∈ before, name b ≠ name a := by
        rw [contains_eq_false_iff, htaken]
        simp only [not_exists, not_and, ne_eq]
      have hmore : ∀ other, other ∈ name a :: taken ↔ ∃ b ∈ before ++ [a], name b = other := by
        intro other
        rw [List.mem_cons, htaken]
        simp only [List.mem_append, List.mem_singleton, or_and_right, exists_or, exists_eq_left]
        rw [or_comm, eq_comm (a := name a)]
      have hfirst := ih hrest (before ++ [a]) (name a :: taken) hmore
      simp only [List.append_assoc, List.singleton_append] at hfirst
      rw [h.cons, List.inits_cons, List.zipWith_cons_cons, List.zipWith_map_left,
        List.flatten_cons, List.append_nil]
      exact .cons Iff.rfl (.cons hnew (ha.append hfirst))
  have hnone : ∀ other, other ∈ ([] : List String) ↔ ∃ b ∈ ([] : List α), name b = other := by
    intro other
    simp
  exact hlater [] [] hnone

end

/-! ### The check of settings -/

theorem isTemperature_iff {t : Single} :
    isTemperature t = true ↔ ∃ q : ℚ, t.value = ofRat q ∧ 0 ≤ q := by
  have hzero : (Binary.zero false : Single).value = ofRat 0 := by
    simp [Binary.zero, Binary.value, Binary.signed]
  have hnotBelow : ∀ q, t.value = ofRat q → (t.isBelow (.zero false) = false ↔ 0 ≤ q) := by
    intro q hq
    rw [← Bool.not_eq_true, Binary.isBelow_iff (Binary.ne_nan_of_value hq)
      (Binary.ne_nan_of_value hzero), hq, hzero, Binary.ofRat_lt_ofRat, not_lt]
  rw [isTemperature, Bool.and_eq_true, Binary.isFinite_iff, Bool.not_eq_true']
  constructor
  · rintro ⟨⟨q, hq⟩, hbelow⟩
    exact ⟨q, hq, (hnotBelow q hq).mp hbelow⟩
  · rintro ⟨q, hq, hle⟩
    exact ⟨⟨q, hq⟩, (hnotBelow q hq).mpr hle⟩

/-- The threshold lies between the numbers that stand for -1 and 1. -/
theorem isSimilarity_iff {t : Single} :
    isSimilarity t = true ↔ ∃ q : ℚ, t.value = ofRat q ∧ -1 ≤ q ∧ q ≤ 1 := by
  have hlow : (Binary.ofInt .single (-1)).value = ofRat (-1) := by
    have hrounded : Binary.ofInt .single (-1) = .finite true (2 ^ 23) (-23) := by decide
    rw [hrounded, Binary.value, Binary.signed]
    norm_num
  have hhigh : (Binary.ofInt .single 1).value = ofRat 1 := by
    have hrounded : Binary.ofInt .single 1 = .finite false (2 ^ 23) (-23) := by decide
    rw [hrounded, Binary.value, Binary.signed]
    norm_num
  rw [isSimilarity, Bool.and_eq_true, Binary.isAtLeast_iff, Binary.isAtLeast_iff, hlow, hhigh]
  constructor
  · rintro ⟨⟨-, -, hle⟩, -, -, hge⟩
    obtain ⟨q, hq⟩ := Binary.exists_value_of_between hle hge
    rw [hq, Binary.ofRat_le_ofRat] at hle hge
    exact ⟨q, hq, hle, hge⟩
  · rintro ⟨q, hq, hle, hge⟩
    have hnan := Binary.ne_nan_of_value hq
    rw [hq, Binary.ofRat_le_ofRat, Binary.ofRat_le_ofRat]
    exact ⟨⟨hnan, Binary.ne_nan_of_value hlow, hle⟩, Binary.ne_nan_of_value hhigh, hnan, hge⟩

theorem Step.reports_fault? (step : Step) : Reports [step.requirement] step.fault? := by
  cases step with
  | member origin key =>
    have hkey : isBlank key = false ↔ (Step.member origin key).requirement.met := Iff.rfl
    exact .singleton hkey
  | constant value values =>
    cases value with
    | some value => exact .met (.inl nofun) .nothing
    | none =>
      cases values with
      | some values => exact .met (.inr nofun) .nothing
      | none => exact .unmet (by simp [Step.requirement, Step.Valid])

theorem chainFault?_reports (chain : List Step) :
    Reports (chainRequirements chain) (chainFault? chain) := by
  have hsteps := Reports.flatMap fun step (_ : step ∈ chain) => step.reports_fault?
  rw [← List.map_eq_flatMap] at hsteps
  exact .cons List.isEmpty_eq_false_iff hsteps

theorem SourceRule.reports_fault? (field : String) (rule : SourceRule) :
    Reports (rule.requirements field) (rule.fault? field) :=
  .cons Iff.rfl ((chainFault?_reports rule.chain).within _)

theorem Field.reports_fault? (f : Field) : Reports f.requirements f.fault? := by
  refine .append (.flatMap fun rule _ => rule.reports_fault? f.name) (.within _ ?_)
  cases f.wildcard with
  | none => exact .nothing
  | some chain =>
    rw [Option.toList_some, List.flatMap_singleton]
    exact chainFault?_reports chain

theorem decide_eq_zero_iff {n : UInt32} : decide (n = 0) = false ↔ 0 < n := by
  rw [decide_eq_false_iff_not, UInt32.pos_iff_ne_zero]

theorem SimilaritySettings.reports_fault? (tool : String) (s : SimilaritySettings) :
    Reports (s.requirements tool) (s.fault? tool) := by
  refine .cons decide_eq_zero_iff (.cons ?_ (.singleton ?_))
  · rw [Bool.not_eq_false', Binary.isFinite_iff]
  · rw [Bool.not_eq_false', isSimilarity_iff]

theorem Corpus.reports_fault? (c : Corpus) : Reports c.requirements c.fault? := by
  have hfields : Reports (namedRequirements Field.name .blankFieldName .repeatedField
      Field.requirements c.fields) (fieldsFault? [] c.fields) :=
    fieldsFault?_keepsNames.reports fun f _ => f.reports_fault?
  refine .cons decide_eq_zero_iff (.cons ?_ (.append (c.tools.chunks.reports_fault? _)
    (.append (c.tools.summaries.reports_fault? _) hfields)))
  rw [Bool.and_eq_false_iff, decide_eq_zero_iff, or_comm]
  cases c.run.responseMode <;> simp [ResponseMode.includesSources]

/-- The check of settings reports of their requirements. -/
theorem Settings.reports_fault? (s : Settings) : Reports s.requirements s.fault? := by
  have hcorpora : Reports (namedRequirements Corpus.id .blankCorpusId .repeatedCorpus
      (fun c => c.requirements.map (.within (.corpus c.id))) s.corpora)
      (corporaFault? [] s.corpora) :=
    corporaFault?_keepsNames.reports fun c _ => c.reports_fault?.within _
  refine .cons Iff.rfl (.cons decide_eq_zero_iff (.cons ?_ (.cons ?_ (.cons Iff.rfl
    (.cons Iff.rfl hcorpora)))))
  · rw [decide_eq_false_iff_not, not_ne_iff]
  · rw [Bool.not_eq_false', isTemperature_iff]

/-! ### Settings without a fault -/

theorem met_within_iff {φ ψ : Type} {wrap : φ → ψ} {rs : List (Requirement φ)} :
    (∀ r ∈ rs.map (Requirement.within wrap), r.met) ↔ ∀ r ∈ rs, r.met := List.forall_mem_map

theorem chain_met_iff {chain : List Step} :
    (∀ r ∈ chainRequirements chain, r.met) ↔ ValidChain chain := by
  rw [chainRequirements, List.forall_mem_cons, List.forall_mem_map]
  exact ⟨fun ⟨hne, hsteps⟩ => ⟨hne, hsteps⟩, fun ⟨hne, hsteps⟩ => ⟨hne, hsteps⟩⟩

theorem SourceRule.met_iff {field : String} {rule : SourceRule} :
    (∀ r ∈ rule.requirements field, r.met) ↔ rule.Valid := by
  rw [requirements, List.forall_mem_cons, met_within_iff, chain_met_iff]
  exact ⟨fun ⟨hid, hchain⟩ => ⟨hid, hchain⟩, fun ⟨hid, hchain⟩ => ⟨hid, hchain⟩⟩

theorem Field.fault?_eq_none_iff {f : Field} :
    isBlank f.name = false ∧ f.fault? = none ↔ f.Valid := by
  have hrules : (∀ r ∈ f.sources.flatMap (SourceRule.requirements f.name), r.met) ↔
      ∀ rule ∈ f.sources, rule.Valid := by
    rw [List.forall_mem_flatMap]
    exact forall₂_congr fun rule _ => rule.met_iff
  have hwildcard : (∀ r ∈ f.wildcard.toList.flatMap chainRequirements, r.met) ↔
      ∀ chain, f.wildcard = some chain → ValidChain chain := by
    cases f.wildcard with
    | none => simp
    | some chain => simp [chain_met_iff]
  rw [f.reports_fault?.eq_none_iff, requirements, List.forall_mem_append, met_within_iff, hrules,
    hwildcard]
  exact ⟨fun ⟨hname, hsources, hwildcard⟩ => ⟨hname, hsources, hwildcard⟩,
    fun ⟨hname, hsources, hwildcard⟩ => ⟨hname, hsources, hwildcard⟩⟩

theorem SimilaritySettings.fault?_eq_none_iff_valid {tool : String} {s : SimilaritySettings} :
    s.fault? tool = none ↔ s.Valid := by
  rw [fault?_eq_none_iff, ← UInt32.pos_iff_ne_zero, Binary.isFinite_iff, isSimilarity_iff]
  constructor
  · rintro ⟨hlimit, -, hthreshold⟩
    exact ⟨hlimit, hthreshold⟩
  · rintro ⟨hlimit, q, hq, hle, hge⟩
    exact ⟨hlimit, ⟨q, hq⟩, q, hq, hle, hge⟩

theorem Corpus.fault?_eq_none_iff_valid {c : Corpus} :
    isBlank c.id = false ∧ c.fault? = none ↔ c.Valid := by
  have hsources : (c.run.responseMode.includesSources = true → c.run.maxSources ≠ 0) ↔
      c.run.responseMode = .answerOnly ∨ 0 < c.run.maxSources := by
    rw [UInt32.pos_iff_ne_zero]
    cases c.run.responseMode <;> simp [ResponseMode.includesSources]
  have hfields : (∀ f ∈ c.fields, isBlank f.name = false ∧ f.fault? = none) ↔
      ∀ f ∈ c.fields, f.Valid := forall₂_congr fun f _ => f.fault?_eq_none_iff
  rw [fault?_eq_none_iff, hsources, ← UInt32.pos_iff_ne_zero, hfields,
    SimilaritySettings.fault?_eq_none_iff_valid, SimilaritySettings.fault?_eq_none_iff_valid]
  constructor
  · rintro ⟨hid, hiterations, hsources, hchunks, hsummaries, hfields, hdistinct⟩
    exact ⟨hid, hiterations, hsources, hchunks, hsummaries, hfields, hdistinct⟩
  · rintro ⟨hid, hiterations, hsources, hchunks, hsummaries, hfields, hdistinct⟩
    exact ⟨hid, hiterations, hsources, hchunks, hsummaries, hfields, hdistinct⟩

theorem Settings.fault?_eq_none_iff {s : Settings} : s.fault? = none ↔ s.Valid := by
  have hcorpora : (∀ c ∈ s.corpora, isBlank c.id = false ∧ c.fault? = none) ↔
      ∀ c ∈ s.corpora, c.Valid := forall₂_congr fun c _ => c.fault?_eq_none_iff_valid
  simp only [fault?, orElse_eq_none_iff, faultIf_eq_none_iff, corporaFault?_eq_none_iff,
    fresh_nil_iff, hcorpora, decide_eq_false_iff_not, ← ne_eq, not_ne_iff,
    ← UInt32.pos_iff_ne_zero, Bool.not_eq_false', isTemperature_iff]
  constructor
  · rintro ⟨hbind, hpos, hsame, htemperature, hembedding, hcompletion, hcorpora, hdistinct⟩
    exact ⟨hbind, hpos, hsame, htemperature, hembedding, hcompletion, hcorpora, hdistinct⟩
  · rintro ⟨hbind, hpos, hsame, htemperature, hembedding, hcompletion, hcorpora, hdistinct⟩
    exact ⟨hbind, hpos, hsame, htemperature, hembedding, hcompletion, hcorpora, hdistinct⟩

/-- **The check of settings decides whether they are valid.**  It finds nothing if and only if all
conditions hold, and else the fault of the first one in their order that does not. -/
theorem fault?_decides (s : Settings) :
    (s.fault? = none ↔ s.Valid) ∧ (s.Valid ↔ ∀ r ∈ s.requirements, r.met) ∧
      ∀ fault, s.fault? = some fault ↔ FirstUnmet s.requirements fault := by
  have hreports := s.reports_fault?
  refine ⟨Settings.fault?_eq_none_iff, ?_, fun fault => hreports.eq_some_iff⟩
  rw [← Settings.fault?_eq_none_iff, hreports.eq_none_iff]

end CorpusAgent
