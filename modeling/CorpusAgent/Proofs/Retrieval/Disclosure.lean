import CorpusAgent.Proofs.Retrieval.FilterControl
import CorpusAgent.Proofs.Retrieval.Tandem

/-!
# What document searches disclose

A search of documents by summaries hides from the model what it has found.

* `iterate_inTandem`: two runs whose replies match but for the documents found go on in the same
  way.
* `outcome_thresholds`: the records tell the thresholds that the searches were compared with.
* `Outcome.Indistinct`: two outcomes with the same result and the same requests for completions,
  whose other calls are the same but for the documents that searches of passages are restricted to.
* `retrieve_indistinct`: so only the number of the documents found makes a difference.
-/

namespace CorpusAgent.Retrieval

variable {c : Corpus} {f : Option Filter} {m n : Collaborators}

/-! ### Tools -/

theorem say_inTandem {settings : SimilaritySettings} (message : Message) :
    InTandem settings m n (say message) (say message) :=
  .change (fun _ => rfl) (fun _ => rfl) fun _ => rfl

theorem embed_inTandem (query : String) :
    InTandem c.tools.summaries m n (Setting.embed ⟨c, f, m⟩ query)
      (Setting.embed ⟨c, f, n⟩ query) := by
  refine .bind (.call rfl rfl fun _ _ _ h => h) fun vectors => ?_
  cases vectors with
  | nil => exact .failure _
  | cons vector rest => exact .value vector

theorem findChunks_inTandem (args : Arguments) :
    InTandem c.tools.summaries m n (Setting.findChunks ⟨c, f, m⟩ args)
      (Setting.findChunks ⟨c, f, n⟩ args) := by
  rw [findChunks_eq, findChunks_eq]
  refine .bind (.rule _) fun query => ?_
  refine .bind (embed_inTandem query) fun vector => ?_
  refine .look fun s t hst => ?_
  -- the searches are restricted to as many documents
  have hsearch : (Call.searchChunks (Setting.chunkQuery ⟨c, f, m⟩ args s vector)).masked =
      (Call.searchChunks (Setting.chunkQuery ⟨c, f, n⟩ args t vector)).masked := by
    have hmasked := congrArg
      (fun u => Call.searchChunks (Setting.chunkQuery ⟨c, f, m⟩ args u vector)) hst
    exact hmasked
  refine .bind (.call hsearch rfl fun _ _ _ h => h) fun hits => ?_
  refine .bind (.change (fun _ => rfl) (fun _ => rfl) fun _ => rfl) fun _ => ?_
  rw [← chunks_masked _ _ s, ← chunks_masked _ _ t, hst]
  exact .value _

theorem findByMetadata_inTandem (args : Arguments) :
    InTandem c.tools.summaries m n (Setting.findByMetadata ⟨c, f, m⟩ args)
      (Setting.findByMetadata ⟨c, f, n⟩ args) := by
  have hfilter : Setting.effectiveFilter ⟨c, f, m⟩ args =
      Setting.effectiveFilter ⟨c, f, n⟩ args := rfl
  rw [Setting.findByMetadata, Setting.findByMetadata, hfilter]
  cases Setting.effectiveFilter ⟨c, f, n⟩ args with
  | none => exact .value _
  | some filter =>
    refine .bind (.call rfl rfl fun _ _ _ h => h) fun count => ?_
    refine .bind (.change (fun _ => rfl) (fun _ => rfl) fun _ => rfl) fun _ => ?_
    exact .value _

/-- All tools but the search of documents by summaries. -/
theorem perform_inTandem {tool : Tool} (htool : tool ≠ .summaries) (args : Arguments) :
    InTandem c.tools.summaries m n (Setting.perform ⟨c, f, m⟩ tool args)
      (Setting.perform ⟨c, f, n⟩ tool args) := by
  cases tool with
  | exit => exact .bind (.rule _) fun answer => .value _
  | chunks => exact findChunks_inTandem args
  | summaries => exact absurd rfl htool
  | metadata => exact findByMetadata_inTandem args

/-- Puts a step on record. -/
def record (iteration : Nat) (tool : Tool) (args : Arguments) (step : Step) : RunM Step := do
  modify fun s => { s with workflow := s.workflow ++ [⟨iteration, tool, args, step.summary⟩] }
  pure step

theorem call_eq (env : Setting) (iteration : Nat) (tool : Tool) (request : ToolCall) :
    env.call iteration tool request = (do
      let args ← obeyed (arguments request)
      let step ← env.perform tool args
      record iteration tool args step) := rfl

theorem record_inTandem {settings : SimilaritySettings} {tool : Tool} (htool : tool ≠ .summaries)
    (iteration : Nat) (args : Arguments) (step : Step) :
    InTandem settings m n (record iteration tool args step) (record iteration tool args step) := by
  refine .bind (.extend (fun _ => rfl) (fun _ => List.prefix_append ..) (fun _ => rfl) ?_)
    fun _ => .value step
  intro s hs
  unfold Filed at hs ⊢
  simpa [htool] using hs

/-! ### Searches of documents -/

/-- The step of a search of documents that brings hits. -/
def Setting.summariesStep (env : Setting) (args : Arguments) (hits : List DocumentHit) : Step :=
  .summaries (limitAndThreshold env.corpus.tools.summaries args).1
    (limitAndThreshold env.corpus.tools.summaries args).2 (env.foundDocuments args hits)

/-- What is left to do of a search of documents once its query has a vector. -/
def Setting.search (env : Setting) (iteration : Nat) (args : Arguments) (vector : List Single) :
    RunM Step := do
  let hits ← ask (env.summariesSearch args vector) fun history =>
    env.collaborators.searchDocuments history env.corpus.id vector
      (limitAndThreshold env.corpus.tools.summaries args).1
  modify fun s => { s with documents := some (env.foundDocuments args hits) }
  record iteration .summaries args (env.summariesStep args hits)

theorem findBySummary_record (env : Setting) (iteration : Nat) (args : Arguments) :
    (env.findBySummary args >>= record iteration .summaries args) = (do
      let query ← obeyed (requiredText .summaries "query" args)
      let vector ← env.embed query
      env.search iteration args vector) := by
  rw [findBySummary_eq]
  simp only [bind_assoc, pure_bind, Setting.search, Setting.summariesStep]

/-- The state after a search of documents that brings hits. -/
def Setting.searched (env : Setting) (iteration : Nat) (args : Arguments) (vector : List Single)
    (s : RunState) (hits : List DocumentHit) : RunState :=
  { s.asked (env.summariesSearch args vector) with
    documents := some (env.foundDocuments args hits)
    workflow := s.workflow ++
      [⟨iteration, .summaries, args, (env.summariesStep args hits).summary⟩] }

theorem searched_masked (env : Setting) (iteration : Nat) (args : Arguments)
    (vector : List Single) (s : RunState) (hits : List DocumentHit) :
    (env.searched iteration args vector s hits).masked =
      { s.masked.asked (env.summariesSearch args vector).masked with
        documents := some (concealed (env.foundDocuments args hits))
        workflow := s.masked.workflow ++
          [⟨iteration, .summaries, args, (env.summariesStep args hits).summary⟩] } := by
  simp [Setting.searched, RunState.masked, RunState.asked]

theorem run_search (env : Setting) (iteration : Nat) (args : Arguments) (vector : List Single)
    (s : RunState) : (env.search iteration args vector).run.run s =
      match env.collaborators.searchDocuments s.calls env.corpus.id vector
        (limitAndThreshold env.corpus.tools.summaries args).1 with
      | .ok hits => (.ok (env.summariesStep args hits), env.searched iteration args vector s hits)
      | .error e => (.error e, s.asked (env.summariesSearch args vector)) := by
  rw [Setting.search]
  split
  · next hits hhits => exact run_bind_of_ok (congrArg (·, _) hhits)
  · next e hhits => exact run_bind_of_error (congrArg (·, _) hhits)

theorem search_calls (env : Setting) (iteration : Nat) (args : Arguments) (vector : List Single)
    (s : RunState) : ((env.search iteration args vector).run.run s).2.calls =
      s.calls ++ [env.summariesSearch args vector] := by
  rw [run_search]
  split <;> rfl

theorem search_advances (env : Setting) (iteration : Nat) (args : Arguments)
    (vector : List Single) : Advances (env.search iteration args vector) := by
  intro s
  refine ⟨search_calls env iteration args vector s ▸ List.prefix_append .., ?_⟩
  rw [run_search]
  split
  · exact List.prefix_append ..
  · exact List.prefix_refl _

theorem length_foundDocuments (env : Setting) (args : Arguments) (hits : List DocumentHit) :
    (env.foundDocuments args hits).length =
      reaching (limitAndThreshold env.corpus.tools.summaries args).2 hits := by
  rw [Setting.foundDocuments, List.length_map, reaching, List.countP_eq_length_filter]

/-- Searches of documents that find as many documents come to the same step and leave states that
differ in documents only. -/
theorem searched_beside {s t : RunState} (hst : Beside s t) (iteration : Nat) (args : Arguments)
    (vector : List Single) {hits hits' : List DocumentHit}
    (h : (Setting.foundDocuments ⟨c, f, m⟩ args hits).length =
      (Setting.foundDocuments ⟨c, f, n⟩ args hits').length) :
    Setting.summariesStep ⟨c, f, m⟩ args hits = Setting.summariesStep ⟨c, f, n⟩ args hits' ∧
      Beside (Setting.searched ⟨c, f, m⟩ iteration args vector s hits)
        (Setting.searched ⟨c, f, n⟩ iteration args vector t hits') := by
  have hstep : Setting.summariesStep ⟨c, f, m⟩ args hits =
      Setting.summariesStep ⟨c, f, n⟩ args hits' := by
    rw [Setting.summariesStep, Setting.summariesStep, Step.summaries, Step.summaries, h]
  refine ⟨hstep, ?_, ?_⟩
  · rw [searched_masked, searched_masked, hst.masked, concealed_eq_iff.mpr h, hstep]
    rfl
  · have hfiled := hst.filed
    unfold Filed at hfiled ⊢
    simpa [Setting.searched, RunState.asked, Setting.summariesSearch, Call.isSearchDocuments]
      using hfiled

/-- Searches that find as many documents go on in the same way. -/
theorem search_inTandem (iteration : Nat) (args : Arguments) (vector : List Single) :
    InTandem c.tools.summaries m n (Setting.search ⟨c, f, m⟩ iteration args vector)
      (Setting.search ⟨c, f, n⟩ iteration args vector) where
  left := search_advances _ iteration args vector
  right := search_advances _ iteration args vector
  alike := by
    intro s t hst hmatch
    rw [search_calls, search_calls] at hmatch
    have hcalls : s.calls.map Call.masked = t.calls.map Call.masked :=
      congrArg RunState.calls hst.masked
    obtain ⟨hits, hits', hfirst, hsecond, hreaching⟩ :=
      hmatch s.calls _ t.calls _ (List.prefix_refl _) (List.prefix_refl _) hcalls rfl
    simp only [run_search, hfirst, hsecond] at hreaching ⊢
    -- the search is the next one to be recorded, so its threshold is known
    have hrecorded : s.workflow ++
        [⟨iteration, .summaries, args, (Setting.summariesStep ⟨c, f, m⟩ args hits).summary⟩] <+:
        (Setting.searched ⟨c, f, m⟩ iteration args vector s hits).workflow := List.prefix_refl _
    have hthreshold := hst.filed.threshold c.tools.summaries rfl hrecorded
    have hlength : (Setting.foundDocuments ⟨c, f, m⟩ args hits).length =
        (Setting.foundDocuments ⟨c, f, n⟩ args hits').length := by
      rw [length_foundDocuments, length_foundDocuments]
      exact hreaching _ hthreshold
    obtain ⟨hstep, hbeside⟩ := searched_beside hst iteration args vector hlength
    exact ⟨congrArg Except.ok hstep, hbeside⟩

theorem call_inTandem (iteration : Nat) (tool : Tool) (request : ToolCall) :
    InTandem c.tools.summaries m n (Setting.call ⟨c, f, m⟩ iteration tool request)
      (Setting.call ⟨c, f, n⟩ iteration tool request) := by
  rw [call_eq, call_eq]
  refine .bind (.rule _) fun args => ?_
  by_cases htool : tool = .summaries
  · subst htool
    rw [Setting.perform, Setting.perform, findBySummary_record, findBySummary_record]
    refine .bind (.rule _) fun query => ?_
    exact .bind (embed_inTandem query) fun vector => search_inTandem iteration args vector
  · exact .bind (perform_inTandem htool args) fun step => record_inTandem htool iteration args step

/-! ### Runs -/

theorem dispatch_inTandem (iteration : Nat) (offered : List ToolSpec) (requests : List ToolCall) :
    InTandem c.tools.summaries m n (Setting.dispatch ⟨c, f, m⟩ iteration offered requests)
      (Setting.dispatch ⟨c, f, n⟩ iteration offered requests) := by
  induction requests with
  | nil => exact .value _
  | cons request rest ih =>
    rw [Setting.dispatch, Setting.dispatch]
    cases Tool.ofName? request.name with
    | none => exact .failure _
    | some tool =>
      by_cases hoffered : (offered.any fun spec => spec.name == tool.name) = true
      · simp only [hoffered, if_true]
        refine .bind (call_inTandem iteration tool request) fun step => ?_
        cases step with
        | answer answer => exact .value _
        | result result summary => exact .bind (say_inTandem _) fun _ => ih
      · simp only [hoffered, Bool.false_eq_true, if_false]
        exact .value _

theorem complete_inTandem (tools : List ToolSpec) :
    InTandem c.tools.summaries m n (Setting.complete ⟨c, f, m⟩ tools)
      (Setting.complete ⟨c, f, n⟩ tools) := by
  refine .look fun s t hst => ?_
  rw [← s.masked_transcript, hst, t.masked_transcript]
  exact .call rfl rfl fun _ _ _ h => h

theorem iteration_inTandem {total toCome : Nat} {words : Option String}
    {next next' : Option String → RunM String}
    (hnext : ∀ words, InTandem c.tools.summaries m n (next words) (next' words)) :
    InTandem c.tools.summaries m n (Setting.iteration ⟨c, f, m⟩ total toCome words next)
      (Setting.iteration ⟨c, f, n⟩ total toCome words next') := by
  refine .bind (complete_inTandem _) fun completion => ?_
  by_cases hnone : completion.calls.isEmpty = true
  · simp only [hnone, if_true]
    exact .value _
  · simp only [hnone, Bool.false_eq_true, if_false]
    refine .bind (say_inTandem _) fun _ => ?_
    refine .bind (dispatch_inTandem _ _ completion.calls) fun ending => ?_
    cases ending with
    | complete => exact hnext _
    | answer answer => exact .value _
    | withheld => exact .value _

theorem iterate_inTandem {total toCome : Nat} {words : Option String} :
    InTandem c.tools.summaries m n (Setting.iterate ⟨c, f, m⟩ total toCome words)
      (Setting.iterate ⟨c, f, n⟩ total toCome words) := by
  induction toCome generalizing words with
  | zero => exact .value _
  | succ toCome ih =>
    rw [Setting.iterate, Setting.iterate]
    by_cases hlast : toCome = 0
    · rw [if_pos hlast, if_pos hlast]
      exact .bind (say_inTandem _) fun _ => iteration_inTandem fun words => ih
    · rw [if_neg hlast, if_neg hlast]
      exact iteration_inTandem fun words => ih

/-! ### Outcomes -/

/-- Two outcomes with the same result, after calls that differ in documents only. -/
structure Outcome.Indistinct (o o' : Outcome) : Prop where
  /-- The model is asked with the same transcripts and tools. -/
  asked : o.calls.filter Call.isComplete = o'.calls.filter Call.isComplete
  /-- Searches of passages are restricted to as many documents, and all else is the same. -/
  calls : o.calls.map Call.masked = o'.calls.map Call.masked
  result : o.result = o'.result

theorem filter_isComplete_masked (calls : List Call) :
    (calls.map Call.masked).filter Call.isComplete = calls.filter Call.isComplete := by
  induction calls with
  | nil => rfl
  | cons call calls ih =>
    rw [List.map_cons, List.filter_cons, List.filter_cons, ih]
    cases call <;> rfl

theorem outcome_workflow (env : Setting) (start : List Message) :
    (env.outcome start).workflow = (env.run.run.run { transcript := start }).2.workflow := by
  rw [Setting.outcome]
  rcases env.run.run.run { transcript := start } with ⟨e | answer, t⟩ <;> rfl

/-- The records of an outcome tell the threshold of each search of documents by its number. -/
theorem outcome_thresholds (env : Setting) (start : List Message) :
    ∃ log : List ToolRun, (env.outcome start).workflow = log.map ToolRun.record ∧
      ∀ run ∈ log, run.calls <+: (env.outcome start).calls ∧
        (run.record.tool = .summaries →
          (env.corpus.tools.summaries.thresholds (env.outcome start).workflow)[run.earlier.countP
            Call.isSearchDocuments]? =
              some (limitAndThreshold env.corpus.tools.summaries run.record.arguments).2) := by
  obtain ⟨log, done, left, rest, failed, r, t, hreport⟩ := outcome_report env start
  obtain ⟨m, hpath, -⟩ := hreport.course.path
  have hworkflow : (env.outcome start).workflow = m.workflow :=
    hreport.workflow.trans hpath.workflow_eq.symm
  refine ⟨log, hreport.workflow, fun run hrun => ⟨hreport.ledger.placed run hrun, ?_⟩⟩
  rw [hworkflow]
  exact hpath.threshold rfl run hrun

/-- Two runs on a corpus whose searches find other documents. -/
theorem outcome_indistinct {start : List Message}
    (h : RunsMatch m n c.tools.summaries (Setting.outcome ⟨c, f, m⟩ start).workflow
      (Setting.outcome ⟨c, f, m⟩ start).calls (Setting.outcome ⟨c, f, n⟩ start).calls) :
    (Setting.outcome ⟨c, f, m⟩ start).Indistinct (Setting.outcome ⟨c, f, n⟩ start) := by
  have htandem : InTandem c.tools.summaries m n (Setting.run ⟨c, f, m⟩) (Setting.run ⟨c, f, n⟩) :=
    iterate_inTandem
  rw [outcome_workflow, outcome_calls, outcome_calls] at h
  have hstart : Beside { transcript := start } { transcript := start } := ⟨rfl, rfl⟩
  obtain ⟨hresult, hbeside⟩ := htandem.alike _ _ hstart h
  have hcalls : (Setting.outcome ⟨c, f, m⟩ start).calls.map Call.masked =
      (Setting.outcome ⟨c, f, n⟩ start).calls.map Call.masked := by
    rw [outcome_calls, outcome_calls]
    exact congrArg RunState.calls hbeside.masked
  refine ⟨?_, hcalls, ?_⟩
  · rw [← filter_isComplete_masked, hcalls, filter_isComplete_masked]
  · rw [Setting.outcome, Setting.outcome]
    rcases hleft : (Setting.run ⟨c, f, m⟩).run.run { transcript := start } with ⟨a, s⟩
    rcases hright : (Setting.run ⟨c, f, n⟩).run.run { transcript := start } with ⟨b, t⟩
    rw [hleft, hright] at hresult hbeside
    obtain rfl := hresult
    have hworkflow : s.workflow = t.workflow := by
      rw [← s.masked_workflow, hbeside.masked, t.masked_workflow]
    have hpassages : s.passages = t.passages := by
      rw [← s.masked_passages, hbeside.masked, t.masked_passages]
    cases a with
    | ok answer => simp only [result, hworkflow, hpassages]
    | error e => simp only [hworkflow]

/-- **Document searches disclose only counts.**  In two runs of one request, let the documents that
are found by summaries be entirely different, as long as as many of them reach the threshold in each
search.  If all other replies are the same, the model is asked the same, the result is the same, and
nothing differs but the documents that searches of passages are restricted to. -/
theorem retrieve_indistinct {corpora : List Corpus} {r : Request}
    (h : ∀ c, r.corpus? corpora = some c → RunsMatch m n c.tools.summaries
      (retrieve corpora m r).workflow (retrieve corpora m r).calls (retrieve corpora n r).calls) :
    (retrieve corpora m r).Indistinct (retrieve corpora n r) := by
  rw [retrieve, retrieve] at h ⊢
  cases hc : corpora.find? fun c => c.id == r.corpusId with
  | none => exact ⟨rfl, rfl, rfl⟩
  | some c =>
    have hmatch := h c hc
    rw [hc] at hmatch
    cases hopening : opening c r.messages with
    | error fault =>
      simp only [hopening]
      exact ⟨rfl, rfl, rfl⟩
    | ok transcript =>
      simp only [hopening] at hmatch ⊢
      exact outcome_indistinct hmatch

/-! ### Scripted replies -/

/-- Two searches of documents succeed, and as many of their hits reach a threshold. -/
def FoundAlike (threshold : Single) (x y : Except ServiceError (List DocumentHit)) : Prop :=
  ∃ hits hits', x = .ok hits ∧ y = .ok hits' ∧ reaching threshold hits = reaching threshold hits'

/-- Without control of the search the model cannot change the threshold. -/
theorem eq_of_mem_thresholds {settings : SimilaritySettings}
    (hcontrol : settings.searchControl ≠ .agent) {workflow : List Record} {threshold : Single}
    (h : threshold ∈ settings.thresholds workflow) : threshold = settings.scoreThreshold := by
  obtain ⟨record, -, rfl⟩ := List.mem_map.mp h
  rw [limitAndThreshold, if_neg hcontrol]

theorem countP_masked (kind : Call → Bool) (hkind : ∀ call, kind call.masked = kind call)
    {calls more : List Call} (h : calls.map Call.masked = more.map Call.masked) :
    calls.countP kind = more.countP kind := by
  have hcount : ∀ l : List Call, (l.map Call.masked).countP kind = l.countP kind := by
    intro l
    rw [List.countP_map]
    exact List.countP_congr fun call _ => by rw [Function.comp_apply, hkind]
  rw [← hcount calls, h, hcount more]

/-- Scripts that differ in the documents found only, of which as many reach the threshold of the
settings, match. -/
theorem script_matches (s : Script) {settings : SimilaritySettings}
    (hcontrol : settings.searchControl ≠ .agent)
    {documents : List (Except ServiceError (List DocumentHit))}
    (h : List.Forall₂ (FoundAlike settings.scoreThreshold) s.documents documents)
    (workflow : List Record) (calls more : List Call) :
    RunsMatch s.collaborators { s with documents := documents : Script }.collaborators settings
      workflow calls more := by
  intro before call before' call' _ _ hbefore hmasked
  cases call with
  | complete =>
    cases call' with
    | complete =>
      have hcount := countP_masked Call.isComplete (fun call => by cases call <;> rfl) hbefore
      exact congrArg (Script.reply s.completions _) hcount
    | _ => trivial
  | embed =>
    cases call' with
    | embed =>
      have hcount := countP_masked Call.isEmbed (fun call => by cases call <;> rfl) hbefore
      exact congrArg (Script.reply s.embeddings _) hcount
    | _ => trivial
  | countDocuments =>
    cases call' with
    | countDocuments =>
      have hcount := countP_masked Call.isCountDocuments (fun call => by cases call <;> rfl) hbefore
      exact congrArg (Script.reply s.counts _) hcount
    | _ => trivial
  | searchDocuments =>
    cases call' with
    | searchDocuments =>
      have hcount := countP_masked Call.isSearchDocuments isSearchDocuments_masked hbefore
      have hempty : FoundAlike settings.scoreThreshold (.ok []) (.ok []) := ⟨[], [], rfl, rfl, rfl⟩
      obtain ⟨hits, hits', hfirst, hsecond, hreaching⟩ :=
        reply_alike h hempty (before.countP Call.isSearchDocuments)
      rw [hcount] at hsecond
      refine ⟨hits, hits', hfirst, hsecond, fun threshold hthreshold => ?_⟩
      rwa [eq_of_mem_thresholds hcontrol (List.mem_of_getElem? hthreshold)]
    | _ => trivial
  | searchChunks =>
    cases call' with
    | searchChunks =>
      have hcount := countP_masked Call.isSearchChunks (fun call => by cases call <;> rfl) hbefore
      exact congrArg (Script.reply s.passages _) hcount
    | _ => trivial

/-- The model searches for documents and then for passages in them. -/
def archiveScript (documents : List DocumentHit) : Script where
  completions := [
    .ok ⟨none, [⟨"1", "findDocumentsBySummarySimilarity", "\x7b\"query\":\"payroll\"\x7d"⟩,
      ⟨"2", "findChunksBySimilarity", "\x7b\"query\":\"salaries\"\x7d"⟩]⟩,
    .ok ⟨some "Salaries are paid monthly.", []⟩]
  embeddings := []
  counts := []
  documents := [.ok documents]
  passages := []

def archive : Corpus := ⟨"archive", none, none, {}, {}, []⟩

def archiveRequest : Request := ⟨"archive", [⟨.user, "When are salaries paid?"⟩], none⟩

/-- One document, whose score is that of the settings. -/
def ledgerHits : List DocumentHit := [⟨⟨1⟩, some "Ledger", none, .zero false⟩]

/-- Another document, and one with a score that is too small. -/
def diaryHits : List DocumentHit :=
  [⟨⟨2⟩, some "Diary", some "Private.", Binary.ofInt .single 1⟩,
    ⟨⟨3⟩, none, none, Binary.ofInt .single (-1)⟩]

theorem retrieve_indistinct_archive :
    (∀ c, archiveRequest.corpus? [archive] = some c →
      RunsMatch (archiveScript ledgerHits).collaborators (archiveScript diaryHits).collaborators
        c.tools.summaries
        (retrieve [archive] (archiveScript ledgerHits).collaborators archiveRequest).workflow
        (retrieve [archive] (archiveScript ledgerHits).collaborators archiveRequest).calls
        (retrieve [archive] (archiveScript diaryHits).collaborators archiveRequest).calls) ∧
      (retrieve [archive] (archiveScript ledgerHits).collaborators archiveRequest).Indistinct
        (retrieve [archive] (archiveScript diaryHits).collaborators archiveRequest) := by
  have hmatch : ∀ c, archiveRequest.corpus? [archive] = some c →
      RunsMatch (archiveScript ledgerHits).collaborators (archiveScript diaryHits).collaborators
        c.tools.summaries
        (retrieve [archive] (archiveScript ledgerHits).collaborators archiveRequest).workflow
        (retrieve [archive] (archiveScript ledgerHits).collaborators archiveRequest).calls
        (retrieve [archive] (archiveScript diaryHits).collaborators archiveRequest).calls := by
    intro c hc
    obtain rfl := List.mem_singleton.mp (List.mem_of_find?_eq_some hc)
    have hfound : FoundAlike archive.tools.summaries.scoreThreshold (.ok ledgerHits)
        (.ok diaryHits) := ⟨_, _, rfl, rfl, by decide +kernel⟩
    exact script_matches (archiveScript ledgerHits) (by decide) (.cons hfound .nil) _ _ _
  exact ⟨hmatch, retrieve_indistinct hmatch⟩

example : (retrieve [archive] (archiveScript diaryHits).collaborators
    archiveRequest).calls.filterMap
    (fun | .searchChunks query => some query.onlyDocuments | _ => none) = [some [⟨2⟩]] := by
  decide +kernel

end CorpusAgent.Retrieval
