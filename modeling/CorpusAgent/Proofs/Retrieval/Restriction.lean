import CorpusAgent.Proofs.Filter.Compile
import CorpusAgent.Proofs.Retrieval.Path

/-!
# What searches are restricted to

A run remembers the documents that the last search by summaries found and the predicate of the last
search by metadata that had a filter.

* `ToolRun.documents`, `ToolRun.predicate`: what a completed tool call restricts later searches to,
  read off its arguments and the reply it got.
* `Performed.restricts`: one tool call replaces the restrictions it makes and keeps the others.
* `Path.restrictions`, `Path.search`: so the state and the searches of a run have the restrictions
  of the most recent tool calls that made some.
* `searches_restricted`: this holds of every search of every run, and no restriction is ever lifted.
-/

namespace CorpusAgent.Retrieval

/-! ### Restrictions -/

namespace ToolRun

/-- The documents that a search by summaries found: those of the reply whose score reaches the
threshold of the call. -/
def documents (env : Setting) (run : ToolRun) : Option (List Uuid) :=
  match run.record.tool, run.made with
  | .summaries, [embedding, .searchDocuments graph vector limit] =>
    match env.collaborators.searchDocuments (run.earlier ++ [embedding]) graph vector limit with
    | .ok hits => some (env.foundDocuments run.record.arguments hits)
    | .error _ => none
  | _, _ => none

/-- The predicate of a search by metadata, if there was a filter for it. -/
def predicate (env : Setting) (run : ToolRun) : Option Predicate :=
  if run.record.tool = .metadata then
    (env.effectiveFilter run.record.arguments).map fun filter => filter.compile env.corpus.fields
  else none

/-- The calls are those of the tool. -/
def Made (env : Setting) (run : ToolRun) : Prop :=
  match run.record.tool with
  | .exit => run.made = []
  | .chunks => ∃ query q, run.made = [env.embedding query, .searchChunks q]
  | .summaries => ∃ query vector found,
      run.made = [env.embedding query, env.summariesSearch run.record.arguments vector] ∧
      run.documents env = some found
  | .metadata => run.made = ((run.predicate env).map fun p =>
      .countDocuments env.corpus.id (some p)).toList

end ToolRun

/-- The tool calls that were completed when so many calls of collaborators had been made. -/
def completedBefore (log : List ToolRun) (n : Nat) : List ToolRun :=
  log.filter fun run => run.calls.length ≤ n

theorem completedBefore_eq_nil {log : List ToolRun} {n : Nat}
    (h : ∀ run ∈ log, n < run.calls.length) : completedBefore log n = [] :=
  List.filter_eq_nil_iff.mpr fun run hrun => by simpa using h run hrun

theorem completedBefore_eq_self {log : List ToolRun} {n : Nat}
    (h : ∀ run ∈ log, run.calls.length ≤ n) : completedBefore log n = log :=
  List.filter_eq_self.mpr fun run hrun => by simpa using h run hrun

theorem completedBefore_cons {run : ToolRun} {n : Nat} (h : run.calls.length ≤ n)
    (log : List ToolRun) : completedBefore (run :: log) n = run :: completedBefore log n :=
  List.filter_cons_of_pos (by simpa using h)

theorem completedBefore_subset {log : List ToolRun} {n more : Nat} (h : n ≤ more) :
    completedBefore log n ⊆ completedBefore log more := by
  intro run hrun
  obtain ⟨hmem, hle⟩ := List.mem_filter.mp hrun
  refine List.mem_filter.mpr ⟨hmem, ?_⟩
  have hle : run.calls.length ≤ n := by simpa using hle
  simpa using Nat.le_trans hle h

/-- What the most recent tool call that has it has. -/
def latest {α : Type} (f : ToolRun → Option α) (log : List ToolRun) : Option α :=
  (log.filterMap f).getLast?

theorem latest_cons {α : Type} (f : ToolRun → Option α) (run : ToolRun) (log : List ToolRun) :
    latest f (run :: log) = (latest f log).or (f run) := by
  unfold latest
  cases hf : f run with
  | none => rw [List.filterMap_cons_none hf, Option.or_none]
  | some a =>
    rw [List.filterMap_cons_some hf, List.getLast?_cons]
    cases (log.filterMap f).getLast? <;> rfl

theorem latest_isSome_of_subset {α : Type} {f : ToolRun → Option α} {log more : List ToolRun}
    (h : log ⊆ more) (hsome : (latest f log).isSome) : (latest f more).isSome := by
  obtain ⟨a, ha⟩ := Option.isSome_iff_exists.mp hsome
  obtain ⟨run, hrun, hf⟩ := List.mem_filterMap.mp (List.mem_of_getLast? ha)
  have hmem : a ∈ more.filterMap f := List.mem_filterMap.mpr ⟨run, h hrun, hf⟩
  exact Option.isSome_iff_exists.mpr
    ⟨_, List.getLast?_eq_some_getLast (List.ne_nil_of_mem hmem)⟩

/-! ### One tool call -/

variable {env : Setting} {s m t : RunState} {log : List ToolRun}

namespace ToolRun

variable {run : ToolRun}

theorem documents_of_summaries {query : String} {vector : List Single} {hits : List DocumentHit}
    (htool : run.record.tool = .summaries)
    (hmade : run.made = [env.embedding query, env.summariesSearch run.record.arguments vector])
    (hhits : env.collaborators.searchDocuments (run.earlier ++ [env.embedding query]) env.corpus.id
      vector (limitAndThreshold env.corpus.tools.summaries run.record.arguments).1 = .ok hits) :
    run.documents env = some (env.foundDocuments run.record.arguments hits) := by
  unfold documents
  simp only [htool, hmade, Setting.summariesSearch, hhits]

theorem documents_of_ne (htool : run.record.tool ≠ .summaries) : run.documents env = none := by
  unfold documents
  cases h : run.record.tool with
  | summaries => exact absurd h htool
  | exit | chunks | metadata => rfl

theorem predicate_of_metadata (htool : run.record.tool = .metadata) :
    run.predicate env = (env.effectiveFilter run.record.arguments).map fun filter =>
      filter.compile env.corpus.fields := by
  rw [predicate, if_pos htool]

theorem predicate_of_ne (htool : run.record.tool ≠ .metadata) : run.predicate env = none := by
  rw [predicate, if_neg htool]

end ToolRun

/-- A tool call replaces the restrictions that it makes and keeps the others. -/
theorem Performed.restricts {run : ToolRun} {step : Step}
    (h : Performed env run.record.arguments s run.record.tool (.ok step) m)
    (hearlier : run.earlier = s.calls) (hcalls : m.calls = run.calls) :
    run.Made env ∧ m.documents = (run.documents env).or s.documents ∧
      m.filter = (run.predicate env).or s.filter := by
  rw [ToolRun.calls, hearlier] at hcalls
  unfold ToolRun.Made
  generalize htool : run.record.tool = tool at h
  cases h with
  | exited =>
    have hown : run.made = [] := by simpa using hcalls
    rw [ToolRun.documents_of_ne (by simp [htool]), ToolRun.predicate_of_ne (by simp [htool])]
    exact ⟨hown, rfl, rfl⟩
  | @chunks query vector hits =>
    have hown : [env.embedding query,
        .searchChunks (env.chunkQuery run.record.arguments s vector)] = run.made := by
      simpa [RunState.asked] using hcalls
    rw [ToolRun.documents_of_ne (by simp [htool]), ToolRun.predicate_of_ne (by simp [htool])]
    exact ⟨⟨query, _, hown.symm⟩, rfl, rfl⟩
  | @summaries query vector hits _ _ hhits =>
    have hown : [env.embedding query, env.summariesSearch run.record.arguments vector] =
        run.made := by simpa [RunState.asked] using hcalls
    rw [← hearlier] at hhits
    rw [ToolRun.documents_of_summaries htool hown.symm hhits,
      ToolRun.predicate_of_ne (by simp [htool])]
    exact ⟨⟨query, vector, _, hown.symm, rfl⟩, rfl, rfl⟩
  | unfiltered hfilter =>
    have hown : run.made = [] := by simpa using hcalls
    rw [ToolRun.documents_of_ne (by simp [htool]), ToolRun.predicate_of_metadata htool, hfilter]
    exact ⟨hown, rfl, rfl⟩
  | @counted filter count hfilter =>
    have hown : [Call.countDocuments env.corpus.id (some (filter.compile env.corpus.fields))] =
        run.made := by simpa [RunState.asked] using hcalls
    rw [ToolRun.documents_of_ne (by simp [htool]), ToolRun.predicate_of_metadata htool, hfilter]
    simp only [Filter.isEmpty_compile]
    exact ⟨hown.symm, rfl, rfl⟩

/-- A search of passages has the restrictions of the state in which its tool call begins. -/
theorem Performed.search {args : Arguments} {tool : Tool} {r : Except ServiceError Step}
    {made : List Call} (h : Performed env args s tool r t) (hmade : t.calls = s.calls ++ made)
    {q : Storage.ChunkQuery} (hq : .searchChunks q ∈ made) :
    q.onlyDocuments = s.documents ∧ q.filter = s.filter := by
  have hown : ∀ own : List Call, t.calls = s.calls ++ own → .searchChunks q ∈ own := by
    intro own hc
    rwa [← List.append_cancel_left (hmade.symm.trans hc)]
  cases h with
  | refused | exited | unfiltered => cases hown [] (List.append_nil _).symm
  | unembedded | countFailed | counted => simpa [Setting.embedding] using hown [_] rfl
  | @chunksFailed query vector | @chunks query vector =>
    have hmem := hown [_, _] (List.append_assoc ..)
    obtain rfl : q = env.chunkQuery args s vector := by simpa [Setting.embedding] using hmem
    exact ⟨rfl, rfl⟩
  | summariesFailed | summaries =>
    simpa [Setting.embedding, Setting.summariesSearch] using hown [_, _] (List.append_assoc ..)

/-! ### Whole runs -/

namespace Path

/-- A state has the restrictions that the most recent tool calls made. -/
theorem restrictions (h : Path env s log t) :
    (∀ run ∈ log, run.Made env) ∧
      t.documents = (latest (ToolRun.documents env) log).or s.documents ∧
      t.filter = (latest (ToolRun.predicate env) log).or s.filter := by
  induction h with
  | refl s => exact ⟨fun run hrun => absurd hrun List.not_mem_nil, rfl, rfl⟩
  | said message _ ih => exact ih
  | completed hreply _ ih => exact ih
  | performed run h hsummary hearlier hcalls _ ih =>
    obtain ⟨hmade, hdocuments, hfilter⟩ := h.restricts hearlier hcalls
    obtain ⟨hmades, hdocuments', hfilter'⟩ := ih
    refine ⟨List.forall_mem_cons.mpr ⟨hmade, hmades⟩, ?_, ?_⟩
    · rw [latest_cons, hdocuments', Option.or_assoc]
      exact congrArg _ hdocuments
    · rw [latest_cons, hfilter', Option.or_assoc]
      exact congrArg _ hfilter

theorem search (h : Path env s log t) {n : Nat} {q : Storage.ChunkQuery}
    (hq : t.calls[n]? = some (.searchChunks q)) (hn : s.calls.length ≤ n) :
    q.onlyDocuments = (latest (ToolRun.documents env) (completedBefore log n)).or s.documents ∧
      q.filter = (latest (ToolRun.predicate env) (completedBefore log n)).or s.filter := by
  induction h with
  | refl s => exact absurd (List.getElem?_eq_some_iff.mp hq).1 (Nat.not_lt.mpr hn)
  | said message _ ih => exact ih hq hn
  | @completed s t log tools force completion hreply rest ih =>
    by_cases hlt : n < (s.calls ++ [Call.complete s.transcript tools force]).length
    · obtain ⟨later, hlater⟩ := rest.calls_prefix
      rw [← hlater] at hq
      cases List.mem_singleton.mp (mem_of_getElem?_append hq hn hlt)
    · exact ih hq (Nat.not_lt.mp hlt)
  | @performed s m t log step run h hsummary hearlier hcalls rest ih =>
    have hmade : m.calls = s.calls ++ run.made := by rw [hcalls, ToolRun.calls, hearlier]
    by_cases hlt : n < run.calls.length
    · -- The search belongs to this tool call, so neither this one nor a later one was completed.
      have hnone : completedBefore (run :: log) n = [] := by
        refine completedBefore_eq_nil fun later hmem => ?_
        rcases List.mem_cons.mp hmem with rfl | hmem
        · exact hlt
        · have hle := (rest.ordered.1 later hmem).1.length_le
          have hcalls' : (m.recorded run.record).calls.length = run.calls.length :=
            congrArg List.length hcalls
          rw [ToolRun.calls, List.length_append]
          omega
      obtain ⟨later, hlater⟩ := rest.calls_prefix
      have hsplit : s.calls ++ run.made ++ later = t.calls := hmade ▸ hlater
      rw [← hsplit] at hq
      rw [hnone]
      refine h.search hmade (mem_of_getElem?_append hq hn ?_)
      rwa [← hearlier]
    · have hle := Nat.not_lt.mp hlt
      obtain ⟨-, hdocuments, hfilter⟩ := h.restricts hearlier hcalls
      obtain ⟨hdocuments', hfilter'⟩ := ih hq (hcalls ▸ hle)
      rw [completedBefore_cons hle, latest_cons, latest_cons, Option.or_assoc, Option.or_assoc,
        ← hdocuments, ← hfilter]
      exact ⟨hdocuments', hfilter'⟩

end Path

/-- The end of a run keeps its calls, and a search of passages in it has the restrictions of the
state in which the tool call began that failed. -/
theorem Stopped.search {α : Type} {r : Except ServiceError α} (h : Stopped env m r t) :
    m.calls <+: t.calls ∧ ∀ {n : Nat} {q : Storage.ChunkQuery},
      t.calls[n]? = some (.searchChunks q) → m.calls.length ≤ n →
        q.onlyDocuments = m.documents ∧ q.filter = m.filter := by
  cases h with
  | finished | fault =>
    refine ⟨List.prefix_refl _, fun hq hn => ?_⟩
    exact absurd (List.getElem?_eq_some_iff.mp hq).1 (Nat.not_lt.mpr hn)
  | @completionFailed tools force e hreply =>
    refine ⟨List.prefix_append .., fun hq hn => ?_⟩
    have hlt := (List.getElem?_eq_some_iff.mp hq).1
    rw [← List.append_nil (m.asked _).calls] at hq
    cases List.mem_singleton.mp (mem_of_getElem?_append hq hn hlt)
  | toolFailed h =>
    obtain ⟨made, hmade⟩ := h.exists_calls
    refine ⟨hmade ▸ List.prefix_append .., fun hq hn => ?_⟩
    have hlt := (List.getElem?_eq_some_iff.mp hq).1
    rw [hmade] at hlt
    rw [hmade, ← List.append_nil (m.calls ++ made)] at hq
    exact h.search hmade (mem_of_getElem?_append hq hn hlt)

/-- What the completed tool calls of a run tell of its outcome. -/
structure Chronicle (env : Setting) (o : Outcome) (log : List ToolRun) : Prop where
  /-- The completed tool calls are those that are recorded. -/
  workflow : o.workflow = log.map ToolRun.record
  /-- Each made the calls of its tool. -/
  made : ∀ run ∈ log, run.Made env
  within : ∀ run ∈ log, run.calls <+: o.calls
  ordered : log.Pairwise fun a b => a.calls <+: b.earlier
  /-- A search of passages looks at the documents that the most recent search by summaries completed
  before it found, and at all documents if there was none. -/
  documents : ∀ (n : Nat) (q : Storage.ChunkQuery), o.calls[n]? = some (.searchChunks q) →
    q.onlyDocuments = latest (ToolRun.documents env) (completedBefore log n)
  /-- A search of passages has the predicate of the most recent search by metadata that had a filter
  and was completed before it, and none if there was no such search. -/
  filter : ∀ (n : Nat) (q : Storage.ChunkQuery), o.calls[n]? = some (.searchChunks q) →
    q.filter = latest (ToolRun.predicate env) (completedBefore log n)
  /-- No restriction is ever lifted. -/
  stays : ∀ (n more : Nat) (q later : Storage.ChunkQuery), n ≤ more →
    o.calls[n]? = some (.searchChunks q) → o.calls[more]? = some (.searchChunks later) →
      (q.onlyDocuments.isSome → later.onlyDocuments.isSome) ∧
        (q.filter.isSome → later.filter.isSome)

theorem outcome_chronicle (env : Setting) (transcript : List Message) :
    ∃ log, Chronicle env (env.outcome transcript) log := by
  obtain ⟨log, m, t, r, hpath, hstopped, hcalls, hworkflow⟩ := outcome_path env transcript
  obtain ⟨hkept, hlast⟩ := hstopped.search
  obtain ⟨hmade, hdocuments, hfilter⟩ := hpath.restrictions
  rw [Option.or_none] at hdocuments hfilter
  have hsearch : ∀ n q, t.calls[n]? = some (.searchChunks q) →
      q.onlyDocuments = latest (ToolRun.documents env) (completedBefore log n) ∧
        q.filter = latest (ToolRun.predicate env) (completedBefore log n) := by
    intro n q hq
    by_cases hlt : n < m.calls.length
    · obtain ⟨rest, hrest⟩ := hkept
      rw [← hrest, List.getElem?_append_left hlt] at hq
      have hfound := hpath.search hq (Nat.zero_le n)
      rwa [Option.or_none, Option.or_none] at hfound
    · have hle := Nat.not_lt.mp hlt
      have hall : completedBefore log n = log := completedBefore_eq_self fun run hrun =>
        Nat.le_trans (hpath.ordered.1 run hrun).2.length_le hle
      rw [hall, ← hdocuments, ← hfilter]
      exact hlast hq hle
  rw [← hcalls] at hsearch
  refine ⟨log, ?_, hmade, fun run hrun => ?_, hpath.ordered.2, fun n q hq => (hsearch n q hq).1,
    fun n q hq => (hsearch n q hq).2, fun n more q later hle hq hlater => ?_⟩
  · rw [hworkflow, hpath.workflow_eq]
    rfl
  · rw [hcalls]
    exact (hpath.ordered.1 run hrun).2.trans hkept
  · have hsubset : completedBefore log n ⊆ completedBefore log more := completedBefore_subset hle
    rw [(hsearch n q hq).1, (hsearch n q hq).2, (hsearch more later hlater).1,
      (hsearch more later hlater).2]
    exact ⟨latest_isSome_of_subset hsubset, latest_isSome_of_subset hsubset⟩

/-- Every run has a chronicle, so each of its searches of passages has the restrictions that the
tool calls before it made. -/
theorem searches_restricted (corpora : List Corpus) (collaborators : Collaborators) (r : Request) :
    (retrieve corpora collaborators r).calls = [] ∨
      ∃ c ∈ corpora, c.id = r.corpusId ∧ ∃ log,
        Chronicle ⟨c, lenientFilter r.filter, collaborators⟩ (retrieve corpora collaborators r)
          log := by
  rw [retrieve]
  cases hc : corpora.find? fun c => c.id == r.corpusId with
  | none => exact .inl rfl
  | some c =>
    cases hopening : opening c r.messages with
    | error fault => exact .inl (by simp only [hopening])
    | ok transcript =>
      refine .inr ⟨c, List.mem_of_find?_eq_some hc, ?_, ?_⟩
      · simpa using List.find?_some hc
      · simp only [hopening]
        exact outcome_chronicle _ transcript

end CorpusAgent.Retrieval
