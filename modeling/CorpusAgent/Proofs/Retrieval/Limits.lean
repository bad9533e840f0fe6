import CorpusAgent.Proofs.Number.Rounding
import CorpusAgent.Proofs.Retrieval.Offered
import CorpusAgent.Proofs.Settings.Sound

/-!
# Limits and thresholds of searches

A search by similarity goes by a limit and a threshold.  Both are those of the settings, unless the
model controls the search and its numbers are of use.

* `LimitFrom`, `ThresholdFrom`: what becomes of a number of the model.
* `Governs`: the limit and the threshold that settings and arguments come to.
* `governs_limitAndThreshold`, `Governs.safe`: a search has these, and in valid settings they make
  sense: the limit is positive and fits 64 bits, and the threshold is finite.
* `Restrained`: a call is no search, or its limit is that of the tool call for which it is made.
* `Compared`: the hits of a completed search were compared with the threshold of its tool call.
* `retrieve_safe`: so it is for all searches of a run in valid settings.
-/

namespace CorpusAgent.Retrieval

open Binary (ofRat towardZero IsNearest)

/-! ### Numbers of the model -/

/-- The limit that comes of a number, if there is one: cut off after the point and kept below the
greatest of 64 bits, unless nothing positive is left. -/
inductive LimitFrom (configured : ℤ) : Option Double → ℤ → Prop
  | missing : LimitFrom configured none configured
  | taken {x : Double} {q : ℚ} (hvalue : x.value = ofRat q) (hpos : 1 ≤ towardZero q) :
    LimitFrom configured (some x) (min (towardZero q) maxLimit)
  | tooSmall {x : Double} {q : ℚ} (hvalue : x.value = ofRat q) (hsmall : towardZero q < 1) :
    LimitFrom configured (some x) configured
  -- JSON has no names for the others
  | beyond : LimitFrom configured (some (.infinite false)) maxLimit
  | below : LimitFrom configured (some (.infinite true)) configured
  | nan : LimitFrom configured (some .nan) configured

/-- The threshold that comes of a number, if there is one: the nearest number of 32 bits, unless the
number is too great. -/
inductive ThresholdFrom (configured : Single) : Option Double → Single → Prop
  | missing : ThresholdFrom configured none configured
  | taken {x : Double} {q y : ℚ} (hvalue : x.value = ofRat q)
    (hfinite : (x.toFormat .single).isFinite = true)
    (hthreshold : (x.toFormat .single).value = ofRat y) (hnearest : IsNearest .single q y) :
    ThresholdFrom configured (some x) (x.toFormat .single)
  | tooGreat {x : Double} (hinfinite : (x.toFormat .single).isFinite = false) :
    ThresholdFrom configured (some x) configured

/-- The limit and the threshold that settings and arguments come to. -/
inductive Governs (s : SimilaritySettings) (args : Arguments) : ℤ → Single → Prop
  /-- The model does not control the search. -/
  | settings (hcontrol : s.searchControl ≠ .agent) : Governs s args s.limit.toNat s.scoreThreshold
  | model {limit : ℤ} {threshold : Single} (hcontrol : s.searchControl = .agent)
    (hlimit : LimitFrom s.limit.toNat (numberArgument? "limit" args) limit)
    (hthreshold : ThresholdFrom s.scoreThreshold (numberArgument? "scoreThreshold" args)
      threshold) : Governs s args limit threshold

theorem maxLimit_pos : 1 ≤ maxLimit := by decide

theorem limitFrom_filter (configured : ℤ) (number : Option Double) :
    LimitFrom configured number
      (((number.map (Binary.truncate (-maxLimit - 1) maxLimit)).filter fun limit => 0 < limit).getD
        configured) := by
  cases number with
  | none => exact .missing
  | some x =>
    cases x with
    | nan => exact .nan
    | infinite negative =>
      cases negative with
      | false => exact .beyond
      | true => exact .below
    | finite negative m e =>
      obtain ⟨q, hvalue⟩ : ∃ q, (Binary.finite negative m e : Double).value = ofRat q := ⟨_, rfl⟩
      have hmax := maxLimit_pos
      rw [Option.map_some, Binary.truncate_eq hvalue]
      by_cases hpos : 1 ≤ towardZero q
      · have hkept : max (-maxLimit - 1) (min maxLimit (towardZero q)) =
            min (towardZero q) maxLimit := by omega
        rw [hkept, Option.filter_some_pos (by simpa using by omega)]
        exact .taken hvalue hpos
      · rw [Option.filter_some_neg (by simpa using by omega)]
        exact .tooSmall hvalue (Int.not_le.mp hpos)

theorem thresholdFrom_filter (configured : Single) (number : Option Double) :
    ThresholdFrom configured number
      (((number.map (Binary.toFormat .single)).filter Binary.isFinite).getD configured) := by
  cases number with
  | none => exact .missing
  | some x =>
    rw [Option.map_some]
    by_cases hfinite : (x.toFormat .single).isFinite = true
    · rw [Option.filter_some_pos hfinite]
      cases x with
      | nan | infinite => cases hfinite
      | finite negative m e =>
        obtain ⟨-, y, hthreshold, hnearest⟩ :=
          Binary.toFormat_nearest (g := .single) (by decide) (by decide) rfl hfinite
        exact .taken rfl hfinite hthreshold hnearest
    · rw [Bool.not_eq_true] at hfinite
      rw [Option.filter_some_neg hfinite]
      exact .tooGreat hfinite

/-- A search goes by the limit and the threshold that its settings and arguments come to. -/
theorem governs_limitAndThreshold (s : SimilaritySettings) (args : Arguments) :
    Governs s args (limitAndThreshold s args).1 (limitAndThreshold s args).2 := by
  unfold limitAndThreshold
  by_cases hcontrol : s.searchControl = .agent
  · rw [if_pos hcontrol]
    exact .model hcontrol (limitFrom_filter _ _) (thresholdFrom_filter _ _)
  · rw [if_neg hcontrol]
    exact .settings hcontrol

theorem LimitFrom.bounds {configured limit : ℤ} {number : Option Double}
    (h : LimitFrom configured number limit) (hpos : 1 ≤ configured) (hle : configured ≤ maxLimit) :
    1 ≤ limit ∧ limit ≤ maxLimit := by
  have hmax := maxLimit_pos
  cases h with
  | missing | tooSmall | below | nan => exact ⟨hpos, hle⟩
  | taken hvalue hpos => omega
  | beyond => omega

theorem ThresholdFrom.isFinite {configured threshold : Single} {number : Option Double}
    (h : ThresholdFrom configured number threshold) (hconfigured : configured.isFinite = true) :
    threshold.isFinite = true := by
  cases h with
  | missing | tooGreat => exact hconfigured
  | taken hvalue hfinite => exact hfinite

theorem Governs.safe {s : SimilaritySettings} {args : Arguments} {limit : ℤ} {threshold : Single}
    {tool : String} (h : Governs s args limit threshold) (hs : s.fault? tool = none) :
    (1 ≤ limit ∧ limit ≤ maxLimit) ∧ threshold.isFinite = true := by
  obtain ⟨hlimit, hfinite, -⟩ := SimilaritySettings.fault?_eq_none_iff.mp hs
  have hpos : 1 ≤ (s.limit.toNat : ℤ) := by
    have hne : s.limit.toNat ≠ 0 := fun hzero => hlimit (UInt32.toNat_inj.mp hzero)
    omega
  have hle : (s.limit.toNat : ℤ) ≤ maxLimit := by
    have hlt := s.limit.toNat_lt
    have hmax : maxLimit = 2 ^ 63 - 1 := rfl
    omega
  cases h with
  | settings => exact ⟨⟨hpos, hle⟩, hfinite⟩
  | model hcontrol hlimit hthreshold => exact ⟨hlimit.bounds hpos hle, hthreshold.isFinite hfinite⟩

/-! ### One tool call -/

/-- The tool that makes a search, and the limit of the search. -/
def Call.search? : Call → Option (Tool × ℤ)
  | .searchDocuments _ _ limit => some (.summaries, limit)
  | .searchChunks query => some (.chunks, query.limit)
  | _ => none

/-- The settings of a search by similarity. -/
def Tool.similarity? (settings : ToolSettings) : Tool → Option SimilaritySettings
  | .chunks => some settings.chunks
  | .summaries => some settings.summaries
  | _ => none

section

variable (env : Setting)

/-- A call is no search, or it is one of the tool, and settings and arguments come to its limit. -/
def Limited (tool : Tool) (args : Arguments) (call : Call) : Prop :=
  ∀ own limit, call.search? = some (own, limit) → own = tool ∧
    ∃ s threshold, Tool.similarity? env.corpus.tools tool = some s ∧ Governs s args limit threshold

/-- A call is no search, or it is made for one of the tool calls, whose arguments govern it. -/
def Restrained (_ : List ToolSpec) (requests : List ToolCall) (_ : List Call)
    (call : Call) : Prop :=
  ∃ request ∈ requests, ∃ tool args, tool.name = request.name ∧ arguments request = .ok args ∧
    Limited env tool args call

/-- The hits of a completed search were compared with the threshold of its tool call. -/
inductive Compared (run : ToolRun) : Prop
  | documents {query : String} {vector : List Single} {limit : ℤ} {threshold : Single}
    {hits : List DocumentHit} (htool : run.record.tool = .summaries)
    (hgoverns : Governs env.corpus.tools.summaries run.record.arguments limit threshold)
    (hmade : run.made = [env.embedding query, .searchDocuments env.corpus.id vector limit])
    (hreply : env.collaborators.searchDocuments (run.earlier ++ [env.embedding query])
      env.corpus.id vector limit = .ok hits)
    (hfound : run.documents env =
      some ((hits.filter fun hit => hit.score.isAtLeast threshold).map DocumentHit.id))
  | passages {query : String} {search : Storage.ChunkQuery} {threshold : Single}
    {hits : List Passage} (htool : run.record.tool = .chunks)
    (hgoverns : Governs env.corpus.tools.chunks run.record.arguments search.limit threshold)
    (hmade : run.made = [env.embedding query, .searchChunks search])
    (hreply : env.collaborators.searchChunks (run.earlier ++ [env.embedding query]) search =
      .ok hits)
    (hfound : run.passages env = hits.filter fun hit => hit.score.isAtLeast threshold)
  | other (htool : Tool.similarity? env.corpus.tools run.record.tool = none)
    (hmade : ∀ call ∈ run.made, call.search? = none)

end

variable {env : Setting} {s m t : RunState} {args : Arguments} {tool : Tool}

theorem Performed.limited {r : Except ServiceError Step} {made : List Call}
    (h : Performed env args s tool r t) (hmade : t.calls = s.calls ++ made) :
    ∀ call ∈ made, Limited env tool args call := by
  have hembedding : ∀ query, Limited env tool args (env.embedding query) := by
    intro query own limit hsearch
    cases hsearch
  have hown : ∀ own : List Call, t.calls = s.calls ++ own →
      (∀ call ∈ own, Limited env tool args call) →
      ∀ call ∈ made, Limited env tool args call := by
    intro own hcalls hlimited
    rwa [← List.append_cancel_left (hcalls.symm.trans hmade)]
  cases h with
  | refused | exited | unfiltered => exact hown [] (List.append_nil _).symm (List.forall_mem_nil _)
  | unembedded => exact hown [_] rfl (List.forall_mem_singleton.mpr (hembedding _))
  | countFailed | counted =>
    refine hown [_] rfl (List.forall_mem_singleton.mpr ?_)
    intro own limit hsearch
    cases hsearch
  | chunksFailed | chunks | summariesFailed | summaries =>
    refine hown [_, _] (List.append_assoc ..)
      (List.forall_mem_cons.mpr ⟨hembedding _, List.forall_mem_singleton.mpr ?_⟩)
    intro own limit hsearch
    obtain ⟨rfl, rfl⟩ := Prod.mk.inj (Option.some.inj hsearch)
    exact ⟨rfl, _, _, rfl, governs_limitAndThreshold ..⟩

/-- A search that is completed compares its hits with the threshold of its arguments. -/
theorem Performed.compared {run : ToolRun} {step : Step}
    (h : Performed env run.record.arguments s run.record.tool (.ok step) m)
    (hearlier : run.earlier = s.calls) (hcalls : m.calls = run.calls) : Compared env run := by
  have hsearched := h.searched hearlier hcalls
  rw [ToolRun.calls, hearlier] at hcalls
  generalize htool : run.record.tool = tool at h
  cases h with
  | exited | unfiltered =>
    have hown : run.made = [] := by simpa using hcalls
    refine .other (by rw [htool]; rfl) ?_
    rw [hown]
    exact List.forall_mem_nil _
  | chunks =>
    obtain ⟨query, vector, hits, hsearched⟩ := hsearched htool
    exact .passages htool (governs_limitAndThreshold ..) hsearched.made hsearched.reply
      hsearched.found
  | @summaries query vector hits _ _ hhits =>
    have hown : [env.embedding query, env.summariesSearch run.record.arguments vector] =
        run.made := by simpa [RunState.asked] using hcalls
    rw [← hearlier] at hhits
    exact .documents htool (governs_limitAndThreshold ..) hown.symm hhits
      (ToolRun.documents_of_summaries htool hown.symm hhits)
  | @counted filter count hfilter =>
    have hown : [Call.countDocuments env.corpus.id (some (filter.compile env.corpus.fields))] =
        run.made := by simpa [RunState.asked] using hcalls
    refine .other (by rw [htool]; rfl) ?_
    rw [← hown]
    exact List.forall_mem_singleton.mpr rfl

/-! ### Whole runs -/

/-- A tool call makes no searches but those that its arguments govern. -/
theorem throughout_restrained {tools : List ToolSpec} {request : ToolCall}
    {requests : List ToolCall} {made : List Call} (hname : Tool.ofName? request.name = some tool)
    (harguments : arguments request = .ok args) (h : ∀ call ∈ made, Limited env tool args call) :
    Throughout (Restrained env tools (request :: requests)) made :=
  throughout_of_forall fun call hcall _ => ⟨request, List.mem_cons_self, tool, args,
    name_eq_of_ofName? hname, harguments, h call hcall⟩

theorem Completed.restrained {tools : List ToolSpec} {number : Nat} {request : ToolCall}
    {requests : List ToolCall} {run : ToolRun} {step : Step}
    (h : Completed env tools number request s run step t) :
    Throughout (Restrained env tools (request :: requests)) run.made :=
  throughout_restrained h.name h.arguments (h.performed.limited h.calls_eq)

theorem Restrained.cons {tools : List ToolSpec} {request : ToolCall} {requests : List ToolCall}
    {before : List Call} {call : Call} (h : Restrained env tools requests before call) :
    Restrained env tools (request :: requests) before call := by
  obtain ⟨other, hother, h⟩ := h
  exact ⟨other, List.mem_cons_of_mem _ hother, h⟩

theorem Dispatched.restrained {tools : List ToolSpec} {number : Nat} {requests : List ToolCall}
    {log : List ToolRun} {r : Except ServiceError Ending}
    (h : Dispatched env tools number requests s log r t) :
    ∃ made, t.calls = s.calls ++ made ∧ Throughout (Restrained env tools requests) made := by
  induction h with
  | done | withheld => exact ⟨[], (List.append_nil _).symm, throughout_nil⟩
  | failed h =>
    cases h with
    | unknown | unreadable => exact ⟨[], (List.append_nil _).symm, throughout_nil⟩
    | performed hname hoffered harguments h =>
      obtain ⟨made, hcalls⟩ := h.exists_calls
      exact ⟨made, hcalls, throughout_restrained hname harguments (h.limited hcalls)⟩
  | exited h => exact ⟨_, h.calls_eq, h.restrained⟩
  | @answered request rest s m t run result summary log r h _ ih =>
    obtain ⟨made, hcalls, hmade⟩ := ih
    refine ⟨run.made ++ made, ?_, ?_⟩
    · have hfirst : (m.recorded run.record).calls = s.calls ++ run.made := h.calls_eq
      rw [hcalls, RunState.said_calls, hfirst, List.append_assoc]
    · rw [throughout_append_iff]
      exact ⟨h.restrained, hmade.mono fun before call hcall => hcall.cons⟩

theorem Path.compared {log : List ToolRun} (h : Path env s log t) :
    ∀ run ∈ log, Compared env run := by
  induction h with
  | refl => exact List.forall_mem_nil _
  | said message _ ih => exact ih
  | completed hreply _ ih => exact ih
  | performed run h hsummary hearlier hcalls _ ih =>
    exact List.forall_mem_cons.mpr ⟨h.compared hearlier hcalls, ih⟩

/-- What is certain of a run in valid settings. -/
structure Safe (env : Setting) (start : List Message) (o : Outcome) : Prop where
  /-- The model is asked at least once. -/
  asked : 1 ≤ o.calls.countP Call.isComplete
  /-- Every search is made for a tool call of the last completion, whose arguments govern it. -/
  searches : Throughout (Attributed env (Restrained env)) o.calls
  /-- No store is asked for nothing, or for more than 64 bits can count. -/
  limits : ∀ call ∈ o.calls, ∀ tool limit, call.search? = some (tool, limit) →
    1 ≤ limit ∧ limit ≤ maxLimit
  /-- No arguments make a threshold that is not finite. -/
  thresholds : ∀ tool s args limit threshold,
    Tool.similarity? env.corpus.tools tool = some s → Governs s args limit threshold →
      threshold.isFinite = true
  /-- The passages and documents of the run come from hits that reached such a threshold. -/
  compared : ∃ log, o.workflow = log.map ToolRun.record ∧ Holds env log (env.final start) ∧
    ∀ run ∈ log, run.calls <+: o.calls ∧ Compared env run

theorem fault?_of_similarity? {c : Corpus} (hc : c.fault? = none) {s : SimilaritySettings}
    (hs : Tool.similarity? c.tools tool = some s) : ∃ name, s.fault? name = none := by
  obtain ⟨-, -, hchunks, hsummaries, -⟩ := Corpus.fault?_eq_none_iff.mp hc
  cases tool with
  | exit | metadata => cases hs
  | chunks =>
    obtain rfl := Option.some.inj hs
    exact ⟨_, hchunks⟩
  | summaries =>
    obtain rfl := Option.some.inj hs
    exact ⟨_, hsummaries⟩

theorem outcome_safe (env : Setting) (hc : env.corpus.fault? = none) (start : List Message) :
    Safe env start (env.outcome start) := by
  obtain ⟨log, done, left, rest, failed, r, t, hreport⟩ := outcome_report env start
  have hsearches : Throughout (Attributed env (Restrained env)) (env.outcome start).calls := by
    obtain ⟨calls, hmade, hattributed⟩ := hreport.course.attributed Dispatched.restrained
    rw [hreport.calls.trans hmade]
    exact hattributed
  have hsafe : ∀ tool s args limit threshold, Tool.similarity? env.corpus.tools tool = some s →
      Governs s args limit threshold →
        (1 ≤ limit ∧ limit ≤ maxLimit) ∧ threshold.isFinite = true := by
    intro tool s args limit threshold hs hgoverns
    obtain ⟨name, hfault⟩ := fault?_of_similarity? hc hs
    exact hgoverns.safe hfault
  refine ⟨?_, hsearches, ?_, fun tool s args limit threshold hs hgoverns =>
    (hsafe tool s args limit threshold hs hgoverns).2, log, hreport.workflow, ?_, ?_⟩
  · have hiterations : 1 ≤ env.iterations := by
      have hne : env.corpus.run.maxIterations.toNat ≠ 0 := fun hzero =>
        (Corpus.fault?_eq_none_iff.mp hc).1 (UInt32.toNat_inj.mp hzero)
      exact Nat.one_le_iff_ne_zero.mpr hne
    exact (env.outcome_bounded start).atLeast hiterations
  · intro call hcall own limit hsearch
    obtain ⟨before, after, hsplit⟩ := List.append_of_mem hcall
    have hquiet : call.isComplete = false := by
      cases call with
      | complete => cases hsearch
      | _ => rfl
    obtain ⟨-, -, -, -, -, -, -, -, -, request, -, tool, args, -, -, hlimited⟩ :=
      hsearches before call after hsplit hquiet
    obtain ⟨-, s, threshold, hs, hgoverns⟩ := hlimited own limit hsearch
    exact (hsafe tool s args limit threshold hs hgoverns).1
  · rw [hreport.final]
    exact hreport.holds
  · obtain ⟨m, hpath, -⟩ := hreport.course.path
    exact fun run hrun => ⟨hreport.ledger.placed run hrun, hpath.compared run hrun⟩

/-- **Valid settings make runs safe.**  Whatever the model asks for, in valid settings each search
has a positive limit that fits 64 bits and compares its hits with a finite threshold, both from the
settings or from the arguments of its tool call; and a request that is not refused reaches the
model. -/
theorem retrieve_safe {s : Settings} (hs : s.fault? = none) (collaborators : Collaborators)
    (r : Request) :
    (r.Refused s.corpora ∧ (retrieve s.corpora collaborators r).calls = []) ∨
      ∃ c ∈ s.corpora, c.id = r.corpusId ∧
        Safe ⟨c, lenientFilter r.filter, collaborators⟩ (conversation c r.messages)
          (retrieve s.corpora collaborators r) := by
  rcases retrieve_cases s.corpora collaborators r with hrefused | ⟨c, hc, hid, -, hretrieve⟩
  · exact .inl hrefused
  · rw [hretrieve]
    exact .inr ⟨c, hc, hid, outcome_safe _ (s.corpus_sound hs hc) _⟩

/-- Settings with a corpus whose model controls the search of passages. -/
def handbookSettings : Settings where
  service := ⟨"127.0.0.1:8080", "info"⟩
  database := ⟨"postgres://localhost/handbook", 5, 3⟩
  embedding := ⟨⟨"embedding", "http://localhost", "key", "/embeddings", "small", 1000, []⟩, 3⟩
  completion := ⟨⟨"llm", "http://localhost", "key", "/completions", "large", 1000, []⟩, .zero false⟩
  corpora := [⟨"handbook", none, none, {}, { chunks := { searchControl := .agent } }, []⟩]

/-- The model searches for less than three passages. -/
def handbookScript : Script where
  completions := [.ok ⟨none, [⟨"1", "findChunksBySimilarity",
    "\x7b\"query\":\"holidays\",\"limit\":2.7,\"scoreThreshold\":1e300\x7d"⟩]⟩]
  embeddings := []
  counts := []
  documents := []
  passages := []

def handbookRequest : Request := ⟨"handbook", [⟨.user, "How many holidays are there?"⟩], none⟩

theorem retrieve_safe_handbook :
    handbookSettings.fault? = none ∧
    ((handbookRequest.Refused handbookSettings.corpora ∧ (retrieve handbookSettings.corpora
        handbookScript.collaborators handbookRequest).calls = []) ∨
      ∃ c ∈ handbookSettings.corpora, c.id = handbookRequest.corpusId ∧
        Safe ⟨c, lenientFilter handbookRequest.filter, handbookScript.collaborators⟩
          (conversation c handbookRequest.messages)
          (retrieve handbookSettings.corpora handbookScript.collaborators handbookRequest)) := by
  have hfault : handbookSettings.fault? = none := by decide +kernel
  exact ⟨hfault, retrieve_safe hfault handbookScript.collaborators handbookRequest⟩

example : (retrieve handbookSettings.corpora handbookScript.collaborators
    handbookRequest).calls.filterMap Call.search? = List.replicate 4 (.chunks, 2) := by
  decide +kernel

end CorpusAgent.Retrieval
