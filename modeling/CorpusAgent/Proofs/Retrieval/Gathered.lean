import CorpusAgent.Proofs.Retrieval.Restriction

/-!
# What a run gathers

* `ToolRun.passages`: the passages that a completed tool call found, read off the reply it got.
* `Searched`, `Performed.searched`: what a completed search of passages does.
* `Performed.gathers`: one tool call adds the passages that it found to those before.
* `Holds`: a state holds what completed tool calls gathered, and nothing else.
* `Course.holds`: so does the state at the end of a run.
-/

namespace CorpusAgent.Retrieval

/-- The passages that a search found: those of the reply whose score reaches the threshold of the
call, in the order of the reply. -/
def ToolRun.passages (env : Setting) (run : ToolRun) : List Passage :=
  match run.record.tool, run.made with
  | .chunks, [embedding, .searchChunks query] =>
    match env.collaborators.searchChunks (run.earlier ++ [embedding]) query with
    | .ok hits => env.foundPassages run.record.arguments hits
    | .error _ => []
  | _, _ => []

/-- The passages that completed tool calls found, one tool call after the other. -/
def collected (env : Setting) (log : List ToolRun) : List Passage :=
  log.flatMap (ToolRun.passages env)

/-- The restrictions, the passages and the records of a state are those of completed tool calls. -/
structure Holds (env : Setting) (log : List ToolRun) (s : RunState) : Prop where
  documents : s.documents = latest (ToolRun.documents env) log
  filter : s.filter = latest (ToolRun.predicate env) log
  passages : s.passages = collected env log
  workflow : s.workflow = log.map ToolRun.record

variable {env : Setting} {s m t : RunState} {log : List ToolRun}

namespace ToolRun

variable {run : ToolRun}

theorem passages_of_chunks {embedding : Call} {query : Storage.ChunkQuery} {hits : List Passage}
    (htool : run.record.tool = .chunks) (hmade : run.made = [embedding, .searchChunks query])
    (hhits : env.collaborators.searchChunks (run.earlier ++ [embedding]) query = .ok hits) :
    run.passages env = env.foundPassages run.record.arguments hits := by
  unfold passages
  simp only [htool, hmade, hhits]

theorem passages_of_ne (htool : run.record.tool ≠ .chunks) : run.passages env = [] := by
  unfold passages
  cases h : run.record.tool with
  | chunks => exact absurd h htool
  | exit | summaries | metadata => rfl

end ToolRun

/-- What a completed search of passages does: it makes two calls, the second one brings hits, and
those that reach the threshold are gathered. -/
structure Searched (env : Setting) (run : ToolRun) (s m : RunState) (step : Step) (query : String)
    (vector : List Single) (hits : List Passage) : Prop where
  made : run.made =
    [env.embedding query, .searchChunks (env.chunkQuery run.record.arguments s vector)]
  reply : env.collaborators.searchChunks (run.earlier ++ [env.embedding query])
    (env.chunkQuery run.record.arguments s vector) = .ok hits
  found : run.passages env = env.foundPassages run.record.arguments hits
  gathered : m.passages = s.passages ++ run.passages env
  step : ∃ limit threshold, step = .chunks limit threshold s (run.passages env)

theorem Performed.searched {run : ToolRun} {step : Step}
    (h : Performed env run.record.arguments s run.record.tool (.ok step) m)
    (hearlier : run.earlier = s.calls) (hcalls : m.calls = run.calls)
    (htool : run.record.tool = .chunks) :
    ∃ query vector hits, Searched env run s m step query vector hits := by
  rw [ToolRun.calls, hearlier] at hcalls
  rw [htool] at h
  cases h with
  | @chunks query vector hits _ _ hhits =>
    have hmade : [env.embedding query,
        .searchChunks (env.chunkQuery run.record.arguments s vector)] = run.made := by
      simpa [RunState.asked] using hcalls
    rw [← hearlier] at hhits
    have hfound := ToolRun.passages_of_chunks htool hmade.symm hhits
    exact ⟨query, vector, hits, {
      made := hmade.symm
      reply := hhits
      found := hfound
      gathered := by rw [hfound]
      step := ⟨_, _, by rw [hfound]⟩ }⟩

theorem Performed.gathers {run : ToolRun} {step : Step}
    (h : Performed env run.record.arguments s run.record.tool (.ok step) m)
    (hearlier : run.earlier = s.calls) (hcalls : m.calls = run.calls) :
    m.passages = s.passages ++ run.passages env := by
  by_cases htool : run.record.tool = .chunks
  · obtain ⟨_, _, _, hsearched⟩ := h.searched hearlier hcalls htool
    exact hsearched.gathered
  · rw [ToolRun.passages_of_ne htool, List.append_nil]
    generalize run.record.tool = tool at h htool
    cases h with
    | chunks => exact absurd rfl htool
    | exited | summaries | unfiltered | counted => rfl

/-- A state has the passages that the tool calls before it found. -/
theorem Path.passages_eq (h : Path env s log t) :
    t.passages = s.passages ++ collected env log := by
  induction h with
  | refl s => exact (List.append_nil _).symm
  | said message _ ih => exact ih
  | completed hreply _ ih => exact ih
  | performed run h hsummary hearlier hcalls _ ih =>
    have hfirst := h.gathers hearlier hcalls
    rw [ih, RunState.recorded, hfirst, List.append_assoc]
    rfl

theorem Performed.keeps {args : Arguments} {tool : Tool} {e : ServiceError}
    (h : Performed env args s tool (.error e) t) :
    t.documents = s.documents ∧ t.filter = s.filter ∧ t.passages = s.passages := by
  cases h <;> exact ⟨rfl, rfl, rfl⟩

theorem Stopped.keeps {α : Type} {r : Except ServiceError α} (h : Stopped env m r t) :
    t.documents = m.documents ∧ t.filter = m.filter ∧ t.passages = m.passages := by
  cases h with
  | finished | fault | completionFailed => exact ⟨rfl, rfl, rfl⟩
  | toolFailed h => exact h.keeps

/-- At its end a run holds what its completed tool calls gathered. -/
theorem Course.holds {total toCome : Nat} {words : Option String} {r : Except ServiceError String}
    {start : List Message} (h : Course env total toCome words { transcript := start } log r t) :
    Holds env log t := by
  obtain ⟨m, hpath, hstopped⟩ := h.path
  obtain ⟨hdocuments, hfilter, hpassages⟩ := hstopped.keeps
  obtain ⟨-, hdocuments', hfilter'⟩ := hpath.restrictions
  rw [Option.or_none] at hdocuments' hfilter'
  exact {
    documents := hdocuments.trans hdocuments'
    filter := hfilter.trans hfilter'
    passages := hpassages.trans hpath.passages_eq
    workflow := hstopped.workflow_eq.trans hpath.workflow_eq }

end CorpusAgent.Retrieval
