import CorpusAgent.Proofs.Json.Members
import CorpusAgent.Proofs.Retrieval.Lockstep
import CorpusAgent.Proofs.Retrieval.Offered
import CorpusAgent.Tool.Offer

/-!
# Arguments that are advertised

The model learns from the schema of a tool which arguments it may give and which it has to give.

* `ToolSpec.properties`, `ToolSpec.required`: the names that a schema lists, and those it requires.
* `perform_congr`: a tool looks at no others.
* `Influences`, `influences_iff`: each of them makes a difference to a tool call, except for the
  reasons of the model, which are only recorded.
* `dispatch_congr`: so tool calls that agree on them do the same, up to the recorded arguments.
* `dispatch_accepted`: a tool call with a text for all that is required fails only if a collaborator
  does.
* `offer_honoured`: all this for each tool that a corpus offers.
-/

namespace CorpusAgent

/-! ### Schemas -/

namespace ToolSpec

/-- The names of the arguments that the schema lists. -/
def properties (s : ToolSpec) : List String :=
  ((s.parameters.member? "properties").map Json.names).getD []

/-- The names of the arguments that the schema requires. -/
def required (s : ToolSpec) : List String :=
  (((s.parameters.member? "required").bind Json.list?).getD []).filterMap Json.text?

end ToolSpec

namespace Corpus

variable (c : Corpus) (tool : Tool)

theorem mem_properties_iff {name : String} : name ∈ (c.toolSpec tool).properties ↔
    name ∈ (tool.arguments c.tools).map Tool.Argument.name := by
  have hproperties : (c.toolSpec tool).parameters.member? "properties" =
      some (Json.ofMembers ((tool.arguments c.tools).map fun a => (a.name,
        Json.ofMembers [("type", .text a.type), ("description", .text a.description)]))) := by
    rw [toolSpec, Tool.parameters, Json.member?_ofMembers]
    simp [Json.find?]
  rw [ToolSpec.properties, hproperties, Option.map_some, Option.getD_some,
    Json.mem_names_ofMembers, List.map_map]
  rfl

theorem required_eq : (c.toolSpec tool).required =
    ((tool.arguments c.tools).filter Tool.Argument.required).map Tool.Argument.name := by
  have hrequired : (c.toolSpec tool).parameters.member? "required" =
      some (Json.ofTexts (((tool.arguments c.tools).filter Tool.Argument.required).map
        Tool.Argument.name)) := by
    rw [toolSpec, Tool.parameters, Json.member?_ofMembers]
    simp [Json.find?]
  rw [ToolSpec.required, hrequired]
  simp [Json.ofTexts, Json.list?, List.filterMap_map, Function.comp_def, Json.text?]

end Corpus

/-- Without a filter of the caller, the model's counts wherever it has a say. -/
theorem Filter.merge_none {agent : Option Filter} {mode : ControlMode} {strategy : MergeStrategy}
    (h : mode ≠ .external) : merge agent none mode strategy = agent := by
  cases mode with
  | agent => rfl
  | external => exact absurd rfl h
  | collaborative => cases agent <;> rfl

namespace Retrieval

/-! ### What a tool looks at -/

/-- Two lists of arguments have the same value for a name, or both have none. -/
def AgreeOn (args args' : Arguments) (name : String) : Prop :=
  Json.find? name args = Json.find? name args'

variable {args args' : Arguments} {s t : RunState}

theorem requiredText_congr {tool : Tool} {name : String} (h : AgreeOn args args' name) :
    requiredText tool name args = requiredText tool name args' := by
  rw [requiredText, requiredText, h]

theorem numberArgument?_congr {name : String} (h : AgreeOn args args' name) :
    numberArgument? name args = numberArgument? name args' := by
  rw [numberArgument?, numberArgument?, h]

theorem similarityArguments_names (s : SimilaritySettings) :
    (Tool.similarityArguments s).map Tool.Argument.name = ["reasoning", "query"] ++
      if s.searchControl = .agent then ["limit", "scoreThreshold"] else [] := by
  unfold Tool.similarityArguments
  split_ifs <;> rfl

theorem metadataArguments_names (mode : ControlMode) :
    (Tool.metadataArguments mode).map Tool.Argument.name =
      "reasoning" :: if mode = .external then [] else ["filter"] := by
  cases mode <;> rfl

theorem eq_of_mem_similarityArguments {s : SimilaritySettings} {name : String}
    (h : name ∈ (Tool.similarityArguments s).map Tool.Argument.name)
    (hreason : name ≠ "reasoning") :
    name = "query" ∨ s.searchControl = .agent ∧ (name = "limit" ∨ name = "scoreThreshold") := by
  rw [similarityArguments_names] at h
  split_ifs at h with hcontrol <;> simp_all

theorem eq_of_mem_metadataArguments {mode : ControlMode} {name : String}
    (h : name ∈ (Tool.metadataArguments mode).map Tool.Argument.name)
    (hreason : name ≠ "reasoning") : mode ≠ .external ∧ name = "filter" := by
  rw [metadataArguments_names] at h
  split_ifs at h with hmode <;> simp_all

theorem limitAndThreshold_congr {s : SimilaritySettings}
    (h : ∀ name ∈ (Tool.similarityArguments s).map Tool.Argument.name,
      name ≠ "reasoning" → AgreeOn args args' name) :
    limitAndThreshold s args = limitAndThreshold s args' := by
  unfold limitAndThreshold
  by_cases hcontrol : s.searchControl = .agent
  · rw [similarityArguments_names, if_pos hcontrol] at h
    have hlimit : AgreeOn args args' "limit" := h _ (by decide) (by decide)
    have hthreshold : AgreeOn args args' "scoreThreshold" := h _ (by decide) (by decide)
    rw [if_pos hcontrol, if_pos hcontrol, limitArgument?, limitArgument?, thresholdArgument?,
      thresholdArgument?, numberArgument?_congr hlimit, numberArgument?_congr hthreshold]
  · rw [if_neg hcontrol, if_neg hcontrol]

theorem mem_similarityArguments_query (s : SimilaritySettings) :
    "query" ∈ (Tool.similarityArguments s).map Tool.Argument.name := by
  rw [similarityArguments_names]
  exact List.mem_append_left _ (by decide)

namespace Setting

variable {env : Setting}

theorem effectiveFilter_congr
    (h : ∀ name ∈ (Tool.metadataArguments env.corpus.tools.metadata.controlMode).map
      Tool.Argument.name, name ≠ "reasoning" → AgreeOn args args' name) :
    env.effectiveFilter args = env.effectiveFilter args' := by
  rw [metadataArguments_names] at h
  unfold effectiveFilter
  by_cases hmode : env.corpus.tools.metadata.controlMode = .external
  · simp only [hmode, Filter.merge]
  · rw [if_neg hmode] at h
    have hfilter : AgreeOn args args' "filter" := h _ (by decide) (by decide)
    rw [hfilter]

/-- A tool looks at nothing but its advertised arguments, and not at the reasons among them. -/
theorem perform_congr {tool : Tool}
    (h : ∀ name ∈ (tool.arguments env.corpus.tools).map Tool.Argument.name,
      name ≠ "reasoning" → AgreeOn args args' name) :
    env.perform tool args = env.perform tool args' := by
  cases tool with
  | exit =>
    have hanswer : AgreeOn args args' "answer" :=
      h _ (List.mem_cons_of_mem _ List.mem_cons_self) (by decide)
    rw [perform, perform, requiredText_congr hanswer]
  | chunks =>
    have hquery := h _ (mem_similarityArguments_query _) (by decide)
    rw [perform, perform, findChunks, findChunks, requiredText_congr hquery,
      limitAndThreshold_congr h]
  | summaries =>
    have hquery := h _ (mem_similarityArguments_query _) (by decide)
    rw [perform, perform, findBySummary, findBySummary, requiredText_congr hquery,
      limitAndThreshold_congr h]
  | metadata =>
    rw [perform, perform, findByMetadata, findByMetadata, effectiveFilter_congr h]

end Setting

/-! ### Tool calls -/

/-- What two tool calls come to differs at most in the arguments of their records. -/
inductive SameBut (s : RunState) (iteration : Nat) (tool : Tool) (args args' : Arguments)
    {α : Type} : α × RunState → α × RunState → Prop
  | same (x : α × RunState) : SameBut s iteration tool args args' x x
  | recorded (a : α) (u : RunState) (summary : Json) :
    SameBut s iteration tool args args'
      (a, { u with workflow := s.workflow ++ [⟨iteration, tool, args, summary⟩] })
      (a, { u with workflow := s.workflow ++ [⟨iteration, tool, args', summary⟩] })

variable {env : Setting} {offered : List ToolSpec} {iteration : Nat} {tool : Tool}
  {request request' : ToolCall}

theorem run_call (hargs : arguments request = .ok args) :
    (env.call iteration tool request).run.run s =
      match (env.perform tool args).run.run s with
      | (.error e, t) => (.error e, t)
      | (.ok step, t) => (.ok step, t.recorded ⟨iteration, tool, args, step.summary⟩) := by
  rw [Setting.call, hargs, run_bind_of_ok (run_obeyed_ok args s)]
  rcases hperform : (env.perform tool args).run.run s with ⟨e | step, t⟩
  · exact run_bind_of_error hperform
  · exact run_bind_of_ok hperform

theorem run_dispatch (hname : Tool.ofName? request.name = some tool)
    (hoffered : isOffered offered tool = true) :
    (env.dispatch iteration offered [request]).run.run s =
      match (env.call iteration tool request).run.run s with
      | (.error e, t) => (.error e, t)
      | (.ok (.answer answer), t) => (.ok (.answer answer), t)
      | (.ok (.result result _), t) =>
        (.ok .complete, t.said (.result request.id result.print)) := by
  rw [isOffered] at hoffered
  simp only [Setting.dispatch, hname, hoffered, if_true]
  rcases hcall : (env.call iteration tool request).run.run s with ⟨e | step, t⟩
  · exact run_bind_of_error hcall
  · rw [run_bind_of_ok hcall]
    cases step <;> rfl

theorem run_dispatch_withheld (hname : Tool.ofName? request.name = some tool)
    (hoffered : isOffered offered tool = false) :
    (env.dispatch iteration offered [request]).run.run s = (.ok .withheld, s) := by
  rw [isOffered] at hoffered
  simp only [Setting.dispatch, hname, hoffered]
  rfl

/-- Tool calls that agree on the advertised arguments do the same, up to what is recorded. -/
theorem dispatch_congr (hname : Tool.ofName? request.name = some tool)
    (hname' : request'.name = request.name) (hid : request'.id = request.id)
    (hargs : arguments request = .ok args) (hargs' : arguments request' = .ok args')
    (h : ∀ name ∈ (tool.arguments env.corpus.tools).map Tool.Argument.name,
      AgreeOn args args' name) :
    SameBut s iteration tool args args'
      ((env.dispatch iteration offered [request]).run.run s)
      ((env.dispatch iteration offered [request']).run.run s) := by
  have hsame : Tool.ofName? request'.name = some tool := hname'.symm ▸ hname
  by_cases hoffered : isOffered offered tool = true
  · rw [run_dispatch hname hoffered, run_dispatch hsame hoffered, run_call hargs, run_call hargs',
      Setting.perform_congr fun name hname _ => h name hname, hid]
    rcases hperform : (env.perform tool args').run.run s with ⟨e | step, t⟩
    · exact .same _
    · have hworkflow := (perform_performed hperform).workflow_eq
      cases step with
      | answer answer =>
        simp only [RunState.recorded, hworkflow]
        exact .recorded _ t _
      | result result summary =>
        simp only [RunState.recorded, RunState.said, hworkflow]
        exact .recorded _ (t.said (.result request.id result.print)) _
  · rw [Bool.not_eq_true] at hoffered
    rw [run_dispatch_withheld hname hoffered, run_dispatch_withheld hsame hoffered]
    exact .same _

/-! ### Arguments that are required -/

/-- The reply to a call, after a history of calls, fails with an error. -/
def Collaborators.FailsWith (c : Collaborators) (earlier : List Call) (e : ServiceError) :
    Call → Prop
  | .complete transcript tools force => c.complete earlier transcript tools force = .error e
  | .embed model texts => c.embed earlier model texts = .error e ∨
      c.embed earlier model texts = .ok [] ∧
        e = .provider "Embedding provider returned no vectors."
  | .countDocuments graph filter => c.countDocuments earlier graph filter = .error e
  | .searchDocuments graph vector limit => c.searchDocuments earlier graph vector limit = .error e
  | .searchChunks query => c.searchChunks earlier query = .error e

/-- Every required argument has a text. -/
def Complete (spec : ToolSpec) (args : Arguments) : Prop :=
  ∀ name ∈ spec.required, ∃ text, Json.find? name args = some (.text text)

theorem mem_required_of_needed {c : Corpus} {name : String} (h : neededText tool = some name) :
    name ∈ (c.toolSpec tool).required := by
  rw [Corpus.required_eq]
  cases tool with
  | exit =>
    obtain rfl := Option.some.inj h
    exact List.mem_cons_of_mem _ List.mem_cons_self
  | chunks | summaries =>
    obtain rfl := Option.some.inj h
    exact List.mem_cons_of_mem _ List.mem_cons_self
  | metadata => cases h

theorem failsWith_embedding {history : List Call} {query : String} {e : ServiceError}
    (h : env.vector history query = .error e) :
    env.collaborators.FailsWith history e (env.embedding query) := by
  unfold Setting.vector at h
  split at h
  · cases h
  · next hreply => exact .inr ⟨hreply, (Except.error.inj h).symm⟩
  · next hreply => exact .inl (Except.error.inj h ▸ hreply)

/-- A tool with all that it requires fails only with the error of a collaborator. -/
theorem Performed.failsWith {e : ServiceError} (h : Performed env args s tool (.error e) t)
    (hcomplete : Complete (env.corpus.toolSpec tool) args) :
    ∃ before call, t.calls = s.calls ++ before ++ [call] ∧
      env.collaborators.FailsWith (s.calls ++ before) e call := by
  cases h with
  | refused hneeded htext =>
    obtain ⟨text, hfound⟩ := hcomplete _ (mem_required_of_needed hneeded)
    rw [requiredText, hfound] at htext
    cases htext
  | unembedded hneeded htext hvector =>
    refine ⟨[], _, by rw [List.append_nil]; rfl, ?_⟩
    rw [List.append_nil]
    exact failsWith_embedding hvector
  | chunksFailed htext hvector hhits => exact ⟨[_], _, rfl, hhits⟩
  | summariesFailed htext hvector hhits => exact ⟨[_], _, rfl, hhits⟩
  | countFailed hfilter hcount =>
    refine ⟨[], _, by rw [List.append_nil]; rfl, ?_⟩
    rw [List.append_nil]
    exact hcount

/-- A tool call with a text for all that is required is no violation of the protocol: it fails only
if a collaborator does. -/
theorem dispatch_accepted {e : ServiceError} (hname : Tool.ofName? request.name = some tool)
    (hargs : arguments request = .ok args) (hcomplete : Complete (env.corpus.toolSpec tool) args)
    (h : (env.dispatch iteration offered [request]).run.run s = (.error e, t)) :
    ∃ before call, t.calls = s.calls ++ before ++ [call] ∧
      env.collaborators.FailsWith (s.calls ++ before) e call := by
  by_cases hoffered : isOffered offered tool = true
  · rw [run_dispatch hname hoffered, run_call hargs] at h
    rcases hperform : (env.perform tool args).run.run s with ⟨e' | step, u⟩
    · rw [hperform] at h
      obtain ⟨he, rfl⟩ := Prod.mk.inj h
      obtain rfl := Except.error.inj he
      exact (perform_performed hperform).failsWith hcomplete
    · rw [hperform] at h
      cases step <;> cases (Prod.mk.inj h).1
  · rw [Bool.not_eq_true] at hoffered
    rw [run_dispatch_withheld hname hoffered] at h
    cases (Prod.mk.inj h).1

/-! ### Arguments that make a difference -/

/-- A step without the summary for its record. -/
def Step.unrecorded : Step → Step
  | .result found _ => .result found .null
  | .answer words => .answer words

/-- What carrying out a tool does, apart from the summary for its record. -/
def Setting.effect (env : Setting) (tool : Tool) (args : Arguments) (s : RunState) :
    Except ServiceError Step × RunState :=
  let done := (env.perform tool args).run.run s
  (done.1.map Step.unrecorded, done.2)

/-- An argument of a tool makes a difference: with another value for it, or without it, the tool
does something else. -/
def Influences (c : Corpus) (tool : Tool) (name : String) : Prop :=
  ∃ filter collaborators s args args', (∀ other, other ≠ name → AgreeOn args args' other) ∧
    Setting.effect ⟨c, filter, collaborators⟩ tool args s ≠
      Setting.effect ⟨c, filter, collaborators⟩ tool args' s

section

variable {c : Corpus}

/-- Collaborators that find one passage and one document, each with the score zero. -/
def obliging : Collaborators where
  complete _ _ _ _ := .ok ⟨none, []⟩
  embed _ _ _ := .ok [[]]
  countDocuments _ _ _ := .ok 0
  searchDocuments _ _ _ _ := .ok [⟨.nil, none, none, .zero false⟩]
  searchChunks _ _ := .ok [⟨.nil, none, "", .nil, .zero false⟩]

theorem effect_chunks {query : String} (h : requiredText .chunks "query" args = .ok query) :
    (Setting.effect ⟨c, none, obliging⟩ .chunks args { transcript := [] }).2 =
      { calls := [.embed c.embeddingModel [query],
          .searchChunks ⟨c.id, [], (limitAndThreshold c.tools.chunks args).1, none, none⟩]
        transcript := []
        passages := Setting.foundPassages ⟨c, none, obliging⟩ args
          [⟨.nil, none, "", .nil, .zero false⟩] } := by
  rw [Setting.effect, Setting.perform, findChunks_eq, h]
  rfl

theorem effect_summaries {query : String} (h : requiredText .summaries "query" args = .ok query) :
    (Setting.effect ⟨c, none, obliging⟩ .summaries args { transcript := [] }).2 =
      { calls := [.embed c.embeddingModel [query],
          .searchDocuments c.id [] (limitAndThreshold c.tools.summaries args).1]
        transcript := []
        documents := some (Setting.foundDocuments ⟨c, none, obliging⟩ args
          [⟨.nil, none, none, .zero false⟩]) } := by
  rw [Setting.effect, Setting.perform, findBySummary_eq, h]
  rfl

/-- A query together with one more argument. -/
def withQuery (name : String) (value : Int) : Arguments :=
  [("query", .text ""), (name, .number (.integer value))]

theorem agreeOn_withQuery {name other : String} (h : other ≠ name) (value value' : Int) :
    AgreeOn (withQuery name value) (withQuery name value') other := by
  simp [AgreeOn, withQuery, Json.find?, h.symm]

theorem limit_of_agent {s : SimilaritySettings} {value limit : Int} (hs : s.searchControl = .agent)
    (h : limitArgument? (withQuery "limit" value) = some limit) :
    (limitAndThreshold s (withQuery "limit" value)).1 = limit := by
  rw [limitAndThreshold, if_pos hs, h]
  rfl

theorem threshold_of_agent {s : SimilaritySettings} {value : Int} {threshold : Single}
    (hs : s.searchControl = .agent)
    (h : thresholdArgument? (withQuery "scoreThreshold" value) = some threshold) :
    (limitAndThreshold s (withQuery "scoreThreshold" value)).2 = threshold := by
  rw [limitAndThreshold, if_pos hs, h]
  rfl

/-- Two searches have different limits, or only one of them keeps a hit with the score zero. -/
def Distinguishes (s : SimilaritySettings) (args args' : Arguments) : Prop :=
  (limitAndThreshold s args).1 ≠ (limitAndThreshold s args').1 ∨
    (Binary.zero false : Single).isAtLeast (limitAndThreshold s args).2 = true ∧
      (Binary.zero false : Single).isAtLeast (limitAndThreshold s args').2 = false

theorem distinguishes_limit {s : SimilaritySettings} (hs : s.searchControl = .agent) :
    Distinguishes s (withQuery "limit" 1) (withQuery "limit" 2) := by
  have hone : limitArgument? (withQuery "limit" 1) = some 1 := by decide +kernel
  have htwo : limitArgument? (withQuery "limit" 2) = some 2 := by decide +kernel
  refine .inl ?_
  rw [limit_of_agent hs hone, limit_of_agent hs htwo]
  decide

theorem distinguishes_threshold {s : SimilaritySettings} (hs : s.searchControl = .agent) :
    Distinguishes s (withQuery "scoreThreshold" 0) (withQuery "scoreThreshold" 1) := by
  have hzero : thresholdArgument? (withQuery "scoreThreshold" 0) = some (.zero false) := by
    decide +kernel
  have hone : thresholdArgument? (withQuery "scoreThreshold" 1) =
      some (Binary.ofInt .single 1) := by decide +kernel
  refine .inr ?_
  rw [threshold_of_agent hs hzero, threshold_of_agent hs hone]
  decide +kernel

/-- Searches that can be told apart are told apart by the collaborators above. -/
theorem influences_chunks {name : String} {value value' : Int}
    (h : Distinguishes c.tools.chunks (withQuery name value) (withQuery name value')) :
    Influences c .chunks name := by
  refine ⟨none, obliging, { transcript := [] }, withQuery name value, withQuery name value',
    fun other hother => agreeOn_withQuery hother value value', fun heq => ?_⟩
  have hstate := congrArg Prod.snd heq
  rw [effect_chunks rfl, effect_chunks rfl] at hstate
  rcases h with hlimit | ⟨hkept, hdropped⟩
  · have hcalls := congrArg RunState.calls hstate
    simp only [List.cons.injEq, Call.searchChunks.injEq, Storage.ChunkQuery.mk.injEq] at hcalls
    exact hlimit hcalls.2.1.2.2.1
  · have hpassages := congrArg RunState.passages hstate
    simp [Setting.foundPassages, hkept, hdropped] at hpassages

theorem influences_summaries {name : String} {value value' : Int}
    (h : Distinguishes c.tools.summaries (withQuery name value) (withQuery name value')) :
    Influences c .summaries name := by
  refine ⟨none, obliging, { transcript := [] }, withQuery name value, withQuery name value',
    fun other hother => agreeOn_withQuery hother value value', fun heq => ?_⟩
  have hstate := congrArg Prod.snd heq
  rw [effect_summaries rfl, effect_summaries rfl] at hstate
  rcases h with hlimit | ⟨hkept, hdropped⟩
  · have hcalls := congrArg RunState.calls hstate
    simp only [List.cons.injEq, Call.searchDocuments.injEq] at hcalls
    exact hlimit hcalls.2.1.2.2
  · have hdocuments := congrArg RunState.documents hstate
    simp [Setting.foundDocuments, hkept, hdropped] at hdocuments

theorem influences_needed {name : String} (h : neededText tool = some name) :
    Influences c tool name := by
  refine ⟨none, obliging, { transcript := [] }, [(name, .text "")], [], ?_, fun heq => ?_⟩
  · intro other hother
    simp [AgreeOn, Json.find?, hother.symm]
  · have hresult := congrArg Prod.fst heq
    cases tool with
    | metadata => cases h
    | exit | chunks | summaries =>
      obtain rfl := Option.some.inj h
      cases hresult

theorem influences_filter (h : c.tools.metadata.controlMode ≠ .external) :
    Influences c .metadata "filter" := by
  have halone : ∀ args, Setting.effectiveFilter ⟨c, none, obliging⟩ args =
      lenientFilter (Json.find? "filter" args) :=
    fun _ => Filter.merge_none h
  refine ⟨none, obliging, { transcript := [] }, [("filter", .list [])], [], ?_, fun heq => ?_⟩
  · intro other hother
    simp [AgreeOn, Json.find?, hother.symm]
  · have hcalls := congrArg (fun x => x.2.calls) heq
    simp only [Setting.effect, Setting.perform, Setting.findByMetadata, halone] at hcalls
    cases hcalls

/-- Exactly the advertised arguments make a difference, apart from the reasons. -/
theorem influences_iff {name : String} :
    Influences c tool name ↔ name ∈ (c.toolSpec tool).properties ∧ name ≠ "reasoning" := by
  rw [c.mem_properties_iff]
  constructor
  · rintro ⟨filter, collaborators, s, args, args', hother, hne⟩
    by_contra hunread
    refine hne ?_
    have hagree : ∀ read ∈ (tool.arguments c.tools).map Tool.Argument.name, read ≠ "reasoning" →
        AgreeOn args args' read := by
      intro read hread hreason
      refine hother read ?_
      rintro rfl
      exact hunread ⟨hread, hreason⟩
    rw [Setting.effect, Setting.effect, Setting.perform_congr hagree]
  · rintro ⟨hname, hreason⟩
    cases tool with
    | exit =>
      have hanswer : name = "answer" := by
        rcases List.mem_cons.mp hname with h | h
        · exact absurd h hreason
        · exact List.mem_singleton.mp h
      exact influences_needed (hanswer ▸ rfl)
    | chunks =>
      rcases eq_of_mem_similarityArguments hname hreason with rfl | ⟨hcontrol, rfl | rfl⟩
      · exact influences_needed rfl
      · exact influences_chunks (distinguishes_limit hcontrol)
      · exact influences_chunks (distinguishes_threshold hcontrol)
    | summaries =>
      rcases eq_of_mem_similarityArguments hname hreason with rfl | ⟨hcontrol, rfl | rfl⟩
      · exact influences_needed rfl
      · exact influences_summaries (distinguishes_limit hcontrol)
      · exact influences_summaries (distinguishes_threshold hcontrol)
    | metadata =>
      obtain ⟨hmode, rfl⟩ := eq_of_mem_metadataArguments hname hreason
      exact influences_filter hmode

end

/-! ### What is offered -/

/-- A corpus does what the schema of one of its tools says. -/
structure Honoured (c : Corpus) (spec : ToolSpec) (tool : Tool) : Prop where
  name : spec.name = tool.name
  /-- Tool calls that agree on what is listed do the same, up to the recorded arguments. -/
  sufficient {env : Setting} (henv : env.corpus = c) {request request' : ToolCall}
    (hname : request.name = spec.name) (hname' : request'.name = spec.name)
    (hid : request'.id = request.id) {args args' : Arguments}
    (hargs : arguments request = .ok args) (hargs' : arguments request' = .ok args')
    (h : ∀ name ∈ spec.properties, AgreeOn args args' name) (offered : List ToolSpec)
    (iteration : Nat) (s : RunState) :
    SameBut s iteration tool args args' ((env.dispatch iteration offered [request]).run.run s)
      ((env.dispatch iteration offered [request']).run.run s)
  /-- With a text for all that is required, only a collaborator makes a tool call fail. -/
  accepted {env : Setting} (henv : env.corpus = c) {request : ToolCall}
    (hname : request.name = spec.name) {args : Arguments} (hargs : arguments request = .ok args)
    (hcomplete : Complete spec args) {offered : List ToolSpec} {iteration : Nat} {s t : RunState}
    {e : ServiceError}
    (h : (env.dispatch iteration offered [request]).run.run s = (.error e, t)) :
    ∃ before call, t.calls = s.calls ++ before ++ [call] ∧
      env.collaborators.FailsWith (s.calls ++ before) e call
  /-- What is listed makes a difference, apart from the reasons, and nothing else does. -/
  influences (name : String) :
    Influences c tool name ↔ name ∈ spec.properties ∧ name ≠ "reasoning"

/-- **Advertised arguments are the honoured ones.**  Every tool that a corpus offers looks at what
its schema lists and at nothing else, under every control mode, and it never refuses arguments that
have a text for all that its schema requires. -/
theorem offer_honoured {c : Corpus} {spec : ToolSpec} (hspec : spec ∈ c.offer) :
    ∃ tool, Honoured c spec tool := by
  obtain ⟨tool, -, rfl⟩ := List.mem_map.mp hspec
  have hnamed : ∀ {request : ToolCall}, request.name = (c.toolSpec tool).name →
      Tool.ofName? request.name = some tool :=
    fun hname => ofName?_eq_some_iff_name.mpr hname.symm
  refine ⟨tool, rfl, ?_, ?_, fun name => influences_iff⟩
  · rintro env rfl request request' hname hname' hid args args' hargs hargs' h offered iteration s
    refine dispatch_congr (hnamed hname) (hname'.trans hname.symm) hid hargs hargs' ?_
    exact fun name hread => h name ((env.corpus.mem_properties_iff tool).mpr hread)
  · rintro env rfl request hname args hargs hcomplete offered iteration s t e h
    exact dispatch_accepted (hnamed hname) hargs hcomplete h

/-- A corpus whose model controls the search of passages. -/
def gazetteer : Corpus :=
  ⟨"gazetteer", none, none, {}, { chunks := { searchControl := .agent } }, []⟩

theorem offer_honoured_gazetteer : gazetteer.toolSpec .chunks ∈ gazetteer.offer ∧
    ∃ tool, Honoured gazetteer (gazetteer.toolSpec .chunks) tool := by
  have hspec : gazetteer.toolSpec .chunks ∈ gazetteer.offer :=
    List.mem_map.mpr ⟨.chunks, by decide, rfl⟩
  exact ⟨hspec, offer_honoured hspec⟩

end Retrieval

end CorpusAgent
