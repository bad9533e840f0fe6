import CorpusAgent.Proofs.Filter.Containment
import CorpusAgent.Proofs.Retrieval.Offered
import CorpusAgent.Proofs.Retrieval.Restriction
import CorpusAgent.Proofs.Retrieval.Similarity

/-!
# Who controls the filter

The control mode of a corpus says whose filter counts in its searches by metadata.

* `Outcome.predicates`: the predicates that a run passes to the store.
* `Similarity.exact`, `Similarity.butFilter`: tool calls that are the same, or the same but for the
  model's filter.
* `retrieve_alike`: two requests whose filters have the same effect have like outcomes.
* `predicates_of_scripts`, `retrieve_filter_eq`: the cases of scripted replies and of a caller who
  has no say.
* `outcome_passed`: every predicate that a run passes is that of an effective filter.
* `retrieve_filterControl`: what this means for each control mode.
-/

namespace CorpusAgent.Retrieval

/-! ### Predicates of a run -/

/-- The corpus that a request names. -/
def Request.corpus? (r : Request) (corpora : List Corpus) : Option Corpus :=
  corpora.find? fun c => c.id == r.corpusId

/-- The filters of its searches by metadata are under this control. -/
def Request.Controlled (r : Request) (corpora : List Corpus) (mode : ControlMode) : Prop :=
  ∀ c, r.corpus? corpora = some c → c.tools.metadata.controlMode = mode

/-- What is passed as the predicate of a count or of a search of passages. -/
def Call.predicate? : Call → Option (Option Predicate)
  | .countDocuments _ p => some p
  | .searchChunks q => some q.filter
  | _ => none

/-- What a run passes as predicates, in order. -/
def Outcome.predicates (o : Outcome) : List (Option Predicate) := o.calls.filterMap Call.predicate?

/-! ### Tool calls that differ in the filter only -/

/-- Arguments that differ in the filter only. -/
def AgreeButFilter (a b : Arguments) : Prop :=
  ∀ name, name ≠ "filter" → Json.find? name a = Json.find? name b

/-- Tool calls that are the same, or searches by metadata that differ in the filter only. -/
inductive SameButFilter : ToolCall → ToolCall → Prop
  | same (request : ToolCall) : SameButFilter request request
  | filter {request request' : ToolCall} {a b : Arguments} (hid : request.id = request'.id)
    (hname : request.name = Tool.metadata.name) (hname' : request'.name = Tool.metadata.name)
    (ha : arguments request = .ok a) (hb : arguments request' = .ok b) (h : AgreeButFilter a b) :
    SameButFilter request request'

namespace Similarity

def exact : Similarity where
  calls := Eq
  args _ := Eq
  refl _ := rfl
  args_refl _ _ := rfl
  id h := congrArg ToolCall.id h
  name h := congrArg ToolCall.name h
  arguments h _ := h ▸ ResultAlike.refl (fun _ => rfl) _
  same h _ := h

def butFilter : Similarity where
  calls := SameButFilter
  args tool a b := a = b ∨ tool = .metadata ∧ AgreeButFilter a b
  refl := .same
  args_refl _ _ := .inl rfl
  id h := by
    cases h with
    | same => rfl
    | filter hid => exact hid
  name h := by
    cases h with
    | same => rfl
    | filter _ hname hname' => exact hname.trans hname'.symm
  arguments h hname := by
    cases h with
    | same => exact ResultAlike.refl (fun _ => .inl rfl) _
    | filter _ hmetadata _ ha hb hargs =>
      rw [hmetadata, ofName?_eq_some_iff_name.mpr rfl] at hname
      rw [ha, hb]
      exact .ok (.inr ⟨(Option.some.inj hname).symm, hargs⟩)
  same h hne := h.resolve_right fun hmetadata => hne hmetadata.1

end Similarity

theorem eq_of_forall₂ {α : Type} {R : α → α → Prop} (h : ∀ a b, R a b → a = b) {l l' : List α}
    (hl : List.Forall₂ R l l') : l = l' := List.forall₂_eq_eq_eq ▸ hl.imp h

theorem MessageAlike.eq {a b : Message} (h : MessageAlike .exact a b) : a = b := by
  cases h with
  | calls content h => rw [eq_of_forall₂ (fun _ _ => id) h]
  | plain | result => rfl

theorem CallAlike.eq {c d : Call} (h : CallAlike .exact c d) : c = d := by
  cases h with
  | complete tools force h => rw [eq_of_forall₂ (fun _ _ => MessageAlike.eq) h]
  | other => rfl

theorem RecordAlike.eq {a b : Record} (h : RecordAlike .exact a b) : a = b := by
  obtain ⟨hiteration, htool, harguments, hsummary⟩ := h
  cases a
  cases b
  congr

theorem AnswerAlike.eq {x y : Except ServiceError Result} (h : AnswerAlike .exact x y) : x = y := by
  cases h with
  | refused => rfl
  | ok h | failed h => rw [eq_of_forall₂ (fun _ _ => RecordAlike.eq) h]

theorem OutcomeAlike.eq {o o' : Outcome} (h : OutcomeAlike .exact o o') : o = o' := by
  have hcalls : o.calls = o'.calls := eq_of_forall₂ (fun _ _ => CallAlike.eq) h.calls
  have hresult : o.result = o'.result := h.result.eq
  cases o
  cases o'
  congr

/-! ### Runs with like replies -/

section

variable {S : Similarity} {corpora : List Corpus} {m n : Collaborators} {r : Request}

theorem CallAlike.predicate? {c d : Call} (h : CallAlike S c d) : c.predicate? = d.predicate? := by
  cases h <;> rfl

theorem filterMap_predicate? {calls calls' : List Call}
    (h : List.Forall₂ (CallAlike S) calls calls') :
    calls.filterMap Call.predicate? = calls'.filterMap Call.predicate? := by
  induction h with
  | nil => rfl
  | cons hfirst _ ih => rw [List.filterMap_cons, List.filterMap_cons, hfirst.predicate?, ih]

theorem OutcomeAlike.predicates {o o' : Outcome} (h : OutcomeAlike S o o') :
    o.predicates = o'.predicates := filterMap_predicate? h.calls

/-- Two requests that differ in the caller's filter only, if the effective filters are the same. -/
theorem retrieve_alike {filter : Option Json}
    (hfilter : ∀ c, r.corpus? corpora = some c → ∀ a b, S.args .metadata a b →
      Setting.effectiveFilter ⟨c, lenientFilter r.filter, m⟩ a =
        Setting.effectiveFilter ⟨c, lenientFilter filter, n⟩ b)
    (hagrees : (S.comparison m n).Agrees (retrieve corpora m r).calls
      (retrieve corpora n { r with filter := filter }).calls) :
    OutcomeAlike S (retrieve corpora m r) (retrieve corpora n { r with filter := filter }) := by
  rw [retrieve, retrieve] at hagrees ⊢
  cases hc : corpora.find? fun c => c.id == r.corpusId with
  | none => exact ⟨.nil, .refused _⟩
  | some c =>
    rw [hc] at hagrees
    cases hopening : opening c r.messages with
    | error fault =>
      simp only [hopening]
      exact ⟨.nil, .refused _⟩
    | ok transcript =>
      simp only [hopening] at hagrees ⊢
      exact outcome_alike (hfilter c hc) hagrees

/-- Under the caller's control the model's filter does not count. -/
theorem retrieve_external (hmode : r.Controlled corpora .external)
    (hagrees : (Similarity.butFilter.comparison m n).Agrees (retrieve corpora m r).calls
      (retrieve corpora n r).calls) :
    OutcomeAlike .butFilter (retrieve corpora m r) (retrieve corpora n r) := by
  refine retrieve_alike (fun c hc a b _ => ?_) hagrees
  simp only [Setting.effectiveFilter, hmode c hc, Filter.merge]

theorem predicates_of_scripts (hmode : r.Controlled corpora .external) (s : Script)
    {completions : List (Except ServiceError Completion)}
    (h : List.Forall₂ (ResultAlike (CompletionAlike .butFilter)) s.completions completions) :
    (retrieve corpora s.collaborators r).predicates = (retrieve corpora
      { s with completions := completions : Script }.collaborators r).predicates :=
  (retrieve_external hmode (script_agrees s h _ _)).predicates

/-- Under the model's control the caller's filter does not count. -/
theorem retrieve_agent {filter : Option Json} (hmode : r.Controlled corpora .agent)
    (hagrees : (Similarity.exact.comparison m n).Agrees (retrieve corpora m r).calls
      (retrieve corpora n { r with filter := filter }).calls) :
    retrieve corpora m r = retrieve corpora n { r with filter := filter } := by
  refine (retrieve_alike (fun c hc a b hargs => ?_) hagrees).eq
  obtain rfl : a = b := hargs
  simp only [Setting.effectiveFilter, hmode c hc, Filter.merge]

theorem agrees_self (m : Collaborators) (calls more : List Call) :
    (Similarity.exact.comparison m m).Agrees calls more := by
  intro before c before' d _ _ hbefore hcalls
  obtain rfl := eq_of_forall₂ (fun _ _ => CallAlike.eq) hbefore
  obtain rfl := CallAlike.eq hcalls
  cases c with
  | complete => exact ResultAlike.refl CompletionAlike.refl _
  | embed | countDocuments | searchDocuments | searchChunks => rfl

theorem retrieve_filter_eq (hmode : r.Controlled corpora .agent) (filter : Option Json) :
    retrieve corpora m { r with filter := filter } = retrieve corpora m r :=
  (retrieve_agent hmode (agrees_self m _ _)).symm

end

/-! ### Predicates that are passed -/

/-- The predicate is that of a filter that some arguments lead to. -/
def Setting.Passes (env : Setting) (p : Predicate) : Prop :=
  ∃ args filter, env.effectiveFilter args = some filter ∧ p = filter.compile env.corpus.fields

section

variable {env : Setting} {p : Predicate}

theorem Segment.passes {args : Arguments} {tool : Tool} {segment : List Call} {graph : String}
    (h : Segment env args tool segment) (hcall : .countDocuments graph (some p) ∈ segment) :
    env.Passes p := by
  cases h with
  | exit | unfiltered => cases hcall
  | chunks | summaries => simp [Setting.embedding, Setting.summariesSearch] at hcall
  | counted hfilter =>
    obtain ⟨-, hp⟩ := Call.countDocuments.inj (List.mem_singleton.mp hcall)
    exact ⟨args, _, hfilter, Option.some.inj hp⟩

theorem MadeFor.passes {before : List Call} {graph : String}
    (h : MadeFor env before (.countDocuments graph (some p))) : env.Passes p := by
  obtain ⟨args, tool, segment, hsegment, hcall⟩ := h.exists_segment
  exact hsegment.passes hcall

theorem passes_of_latest {log : List ToolRun} (h : latest (ToolRun.predicate env) log = some p) :
    env.Passes p := by
  obtain ⟨run, -, hrun⟩ := List.mem_filterMap.mp (List.mem_of_getLast? h)
  unfold ToolRun.predicate at hrun
  split at hrun
  · obtain ⟨filter, hfilter, rfl⟩ := Option.map_eq_some_iff.mp hrun
    exact ⟨_, filter, hfilter, rfl⟩
  · cases hrun

/-- Every predicate that a run passes is that of an effective filter. -/
theorem outcome_passed {start : List Message} (h : some p ∈ (env.outcome start).predicates) :
    env.Passes p := by
  obtain ⟨call, hcall, hp⟩ := List.mem_filterMap.mp h
  cases call with
  | countDocuments graph q =>
    obtain rfl : q = some p := Option.some.inj hp
    obtain ⟨before, after, hsplit⟩ := List.append_of_mem hcall
    exact ((outcome_onlyOffered env start).accounted before _ after hsplit rfl).passes
  | searchChunks q =>
    obtain ⟨log, hchronicle⟩ := outcome_chronicle env start
    obtain ⟨i, hi⟩ := List.getElem?_of_mem hcall
    have hlatest := hchronicle.filter i q hi
    rw [Option.some.inj hp] at hlatest
    exact passes_of_latest hlatest.symm
  | complete | embed | searchDocuments => cases hp

end

theorem retrieve_passed {corpora : List Corpus} {collaborators : Collaborators} {r : Request}
    {c : Corpus} (hc : r.corpus? corpora = some c) {p : Predicate}
    (h : some p ∈ (retrieve corpora collaborators r).predicates) :
    Setting.Passes ⟨c, lenientFilter r.filter, collaborators⟩ p := by
  have hfound : (corpora.find? fun c => c.id == r.corpusId) = some c := hc
  rw [retrieve, hfound] at h
  cases hopening : opening c r.messages with
  | error fault =>
    simp only [hopening] at h
    cases h
  | ok transcript =>
    simp only [hopening] at h
    exact outcome_passed h

theorem lenientFilter_of_parsed {value : Json} {e : Filter}
    (h : Filter.parseValue value = .ok (some e)) : lenientFilter (some value) = some e := by
  rw [lenientFilter, Option.map_some, h]

section

variable (corpora : List Corpus) (r : Request)

/-- Who controls the filter of searches on a corpus. -/
structure FilterControl : Prop where
  /-- Under the caller's control, runs whose replies differ in the model's filters only pass the
  same predicates; their calls and results are the same but for these filters. -/
  external : r.Controlled corpora .external → ∀ m n : Collaborators,
    (Similarity.butFilter.comparison m n).Agrees (retrieve corpora m r).calls
        (retrieve corpora n r).calls →
      (retrieve corpora m r).predicates = (retrieve corpora n r).predicates ∧
        OutcomeAlike .butFilter (retrieve corpora m r) (retrieve corpora n r)
  /-- Under the model's control, runs with the same replies are the same whatever the caller's
  filter is. -/
  agent : r.Controlled corpora .agent → ∀ (m n : Collaborators) (filter : Option Json),
    (Similarity.exact.comparison m n).Agrees (retrieve corpora m r).calls
        (retrieve corpora n { r with filter := filter }).calls →
      retrieve corpora m r = retrieve corpora n { r with filter := filter }
  /-- If both filters have to hold, or the caller's has priority, no predicate is true of a row
  unless that of the caller's filter is. -/
  restricts : ∀ c, r.corpus? corpora = some c → c.tools.metadata.controlMode = .collaborative →
    c.tools.metadata.mergeStrategy = .mergeAnd ∨
      c.tools.metadata.mergeStrategy = .externalPriority →
    ∀ value external, r.filter = some value → Filter.parseValue value = .ok (some external) →
    ∀ collaborators p, some p ∈ (retrieve corpora collaborators r).predicates →
    ∀ lower row, p.Satisfied lower row → (external.compile c.fields).Satisfied lower row
  /-- If one filter is enough, every predicate is true of the rows of which that of the caller's
  filter is true. -/
  includes : ∀ c, r.corpus? corpora = some c → c.tools.metadata.controlMode = .collaborative →
    c.tools.metadata.mergeStrategy = .mergeOr →
    ∀ value external, r.filter = some value → Filter.parseValue value = .ok (some external) →
    ∀ collaborators p, some p ∈ (retrieve corpora collaborators r).predicates →
    ∀ lower row, (external.compile c.fields).Satisfied lower row → p.Satisfied lower row

end

/-- Under the control of both, every predicate that is passed is that of a filter that the caller's
filter was merged into. -/
theorem retrieve_merged {corpora : List Corpus} {collaborators : Collaborators} {r : Request}
    {c : Corpus} (hc : r.corpus? corpora = some c)
    (hmode : c.tools.metadata.controlMode = .collaborative) {value : Json} {external : Filter}
    (hvalue : r.filter = some value) (hexternal : Filter.parseValue value = .ok (some external))
    {p : Predicate} (h : some p ∈ (retrieve corpora collaborators r).predicates) :
    ∃ model f, Filter.merge model (some external) .collaborative c.tools.metadata.mergeStrategy =
      some f ∧ p = f.compile c.fields := by
  obtain ⟨args, f, hf, rfl⟩ := retrieve_passed hc h
  refine ⟨lenientFilter (Json.find? "filter" args), f, ?_, rfl⟩
  rwa [Setting.effectiveFilter, hvalue, lenientFilter_of_parsed hexternal, hmode] at hf

/-- **Who controls the filter.**  The model has no influence on the predicates under the caller's
control, nor has the caller under the model's; and under the control of both, the strategy says what
the caller's filter excludes or includes whatever the model sends. -/
theorem retrieve_filterControl (corpora : List Corpus) (r : Request) : FilterControl corpora r where
  external hmode m n hagrees :=
    have halike := retrieve_external hmode hagrees
    ⟨halike.predicates, halike⟩
  agent hmode m n filter hagrees := retrieve_agent hmode hagrees
  restricts := by
    intro c hc hmode hstrategy value external hvalue hexternal collaborators p hp lower row hrow
    obtain ⟨model, f, hf, rfl⟩ := retrieve_merged hc hmode hvalue hexternal hp
    rw [Filter.satisfied_compile_iff] at hrow ⊢
    exact Filter.merge_restricts hf hstrategy hrow
  includes := by
    intro c hc hmode hstrategy value external hvalue hexternal collaborators p hp lower row hrow
    obtain ⟨model, f, hf, rfl⟩ := retrieve_merged hc hmode hvalue hexternal hp
    rw [Filter.satisfied_compile_iff] at hrow ⊢
    exact Filter.merge_includes hf hstrategy hrow

end CorpusAgent.Retrieval
