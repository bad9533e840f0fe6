import CorpusAgent.Retrieval.Step

/-!
# What a tool call comes to

* `Performed`: the ways in which a tool can be carried out, each with its result and the state after
  it.
* `perform_performed`: there are no other ways.
* `call_cases`: a call that fails leaves no record, and one that succeeds is recorded.
-/

namespace CorpusAgent.Retrieval

/-! ### Parts of a run -/

/-- The state after a call of a collaborator. -/
def RunState.asked (s : RunState) (call : Call) : RunState := { s with calls := s.calls ++ [call] }

/-- The state after a tool call that is recorded. -/
def RunState.recorded (s : RunState) (record : Record) : RunState :=
  { s with workflow := s.workflow ++ [record] }

section

variable {α β : Type} {s t : RunState}

theorem bind_cases {x : RunM α} {k : α → RunM β} {r : Except ServiceError β}
    (h : (x >>= k).run.run s = (r, t)) :
    (∃ e, x.run.run s = (.error e, t) ∧ r = .error e) ∨
      ∃ a u, x.run.run s = (.ok a, u) ∧ (k a).run.run u = (r, t) := by
  have hbind : (x >>= k).run.run s = (ExceptT.bindCont k (x.run.run s).1).run (x.run.run s).2 := rfl
  rw [hbind] at h
  rcases hx : x.run.run s with ⟨e | a, u⟩
  · rw [hx] at h
    obtain ⟨rfl, rfl⟩ := Prod.mk.inj h
    exact .inl ⟨e, rfl, rfl⟩
  · rw [hx] at h
    exact .inr ⟨a, u, rfl, h⟩

theorem ask_cases {call : Call} {reply : List Call → Except ServiceError α}
    {r : Except ServiceError α} (h : (ask call reply).run.run s = (r, t)) :
    reply s.calls = r ∧ t = s.asked call := by
  rw [run_ask] at h
  obtain ⟨hr, rfl⟩ := Prod.mk.inj h
  exact ⟨hr, rfl⟩

theorem obeyed_cases {rule : Except ProtocolFault α} {r : Except ServiceError α}
    (h : (obeyed rule).run.run s = (r, t)) :
    t = s ∧ ((∃ a, rule = .ok a ∧ r = .ok a) ∨
      ∃ fault, rule = .error fault ∧ r = .error fault.error) := by
  cases rule with
  | ok a =>
    rw [run_obeyed_ok] at h
    obtain ⟨rfl, rfl⟩ := Prod.mk.inj h
    exact ⟨rfl, .inl ⟨a, rfl, rfl⟩⟩
  | error fault =>
    rw [run_obeyed_error] at h
    obtain ⟨rfl, rfl⟩ := Prod.mk.inj h
    exact ⟨rfl, .inr ⟨fault, rfl, rfl⟩⟩

end

/-! ### Tools -/

/-- The argument without which a tool refuses. -/
def neededText : Tool → Option String
  | .exit => some "answer"
  | .chunks | .summaries => some "query"
  | .metadata => none

namespace Setting

/-- The call for the vector of a query. -/
def embedding (env : Setting) (query : String) : Call :=
  .embed env.corpus.embeddingModel [query]

/-- The vector of a query after a history of calls. -/
def vector (env : Setting) (history : List Call) (query : String) :
    Except ServiceError (List Single) :=
  match env.collaborators.embed history env.corpus.embeddingModel [query] with
  | .ok (vector :: _) => .ok vector
  | .ok [] => .error (.provider "Embedding provider returned no vectors.")
  | .error e => .error e

/-- The search of passages from a state on. -/
def chunkQuery (env : Setting) (args : Arguments) (s : RunState) (vector : List Single) :
    Storage.ChunkQuery :=
  ⟨env.corpus.id, vector, (limitAndThreshold env.corpus.tools.chunks args).1, s.documents, s.filter⟩

/-- The search of documents by summaries. -/
def summariesSearch (env : Setting) (args : Arguments) (vector : List Single) : Call :=
  .searchDocuments env.corpus.id vector (limitAndThreshold env.corpus.tools.summaries args).1

/-- The passages of a reply whose score reaches the threshold of the call. -/
def foundPassages (env : Setting) (args : Arguments) (hits : List Passage) : List Passage :=
  hits.filter fun hit => hit.score.isAtLeast (limitAndThreshold env.corpus.tools.chunks args).2

/-- The documents of a reply whose score reaches the threshold of the call. -/
def foundDocuments (env : Setting) (args : Arguments) (hits : List DocumentHit) : List Uuid :=
  (hits.filter fun hit => hit.score.isAtLeast
    (limitAndThreshold env.corpus.tools.summaries args).2).map DocumentHit.id

end Setting

section

variable (env : Setting) (args : Arguments) (s : RunState)

/-- What carrying out a tool can come to, and the state after it. -/
inductive Performed : Tool → Except ServiceError Step → RunState → Prop
  /-- A text that the tool needs is not there. -/
  | refused {tool : Tool} {name : String} {fault : ProtocolFault}
    (hname : neededText tool = some name) (htext : requiredText tool name args = .error fault) :
    Performed tool (.error fault.error) s
  | exited {answer : String} (htext : requiredText .exit "answer" args = .ok answer) :
    Performed .exit (.ok (.answer answer)) s
  /-- The query has no vector. -/
  | unembedded {tool : Tool} {query : String} {e : ServiceError}
    (hname : neededText tool = some "query") (htext : requiredText tool "query" args = .ok query)
    (hvector : env.vector s.calls query = .error e) :
    Performed tool (.error e) (s.asked (env.embedding query))
  | chunksFailed {query : String} {vector : List Single} {e : ServiceError}
    (htext : requiredText .chunks "query" args = .ok query)
    (hvector : env.vector s.calls query = .ok vector)
    (hhits : env.collaborators.searchChunks (s.calls ++ [env.embedding query])
      (env.chunkQuery args s vector) = .error e) :
    Performed .chunks (.error e)
      ((s.asked (env.embedding query)).asked (.searchChunks (env.chunkQuery args s vector)))
  | chunks {query : String} {vector : List Single} {hits : List Passage}
    (htext : requiredText .chunks "query" args = .ok query)
    (hvector : env.vector s.calls query = .ok vector)
    (hhits : env.collaborators.searchChunks (s.calls ++ [env.embedding query])
      (env.chunkQuery args s vector) = .ok hits) :
    Performed .chunks
      (.ok (.chunks (limitAndThreshold env.corpus.tools.chunks args).1
        (limitAndThreshold env.corpus.tools.chunks args).2 s (env.foundPassages args hits)))
      { (s.asked (env.embedding query)).asked (.searchChunks (env.chunkQuery args s vector)) with
        passages := s.passages ++ env.foundPassages args hits }
  | summariesFailed {query : String} {vector : List Single} {e : ServiceError}
    (htext : requiredText .summaries "query" args = .ok query)
    (hvector : env.vector s.calls query = .ok vector)
    (hhits : env.collaborators.searchDocuments (s.calls ++ [env.embedding query]) env.corpus.id
      vector (limitAndThreshold env.corpus.tools.summaries args).1 = .error e) :
    Performed .summaries (.error e)
      ((s.asked (env.embedding query)).asked (env.summariesSearch args vector))
  | summaries {query : String} {vector : List Single} {hits : List DocumentHit}
    (htext : requiredText .summaries "query" args = .ok query)
    (hvector : env.vector s.calls query = .ok vector)
    (hhits : env.collaborators.searchDocuments (s.calls ++ [env.embedding query]) env.corpus.id
      vector (limitAndThreshold env.corpus.tools.summaries args).1 = .ok hits) :
    Performed .summaries
      (.ok (.summaries (limitAndThreshold env.corpus.tools.summaries args).1
        (limitAndThreshold env.corpus.tools.summaries args).2 (env.foundDocuments args hits)))
      { (s.asked (env.embedding query)).asked (env.summariesSearch args vector) with
        documents := some (env.foundDocuments args hits) }
  /-- No filter counts for the search by metadata. -/
  | unfiltered (hfilter : env.effectiveFilter args = none) :
    Performed .metadata (.ok (.metadata 0 .null)) s
  | countFailed {filter : Filter} {e : ServiceError}
    (hfilter : env.effectiveFilter args = some filter)
    (hcount : env.collaborators.countDocuments s.calls env.corpus.id
      (some (filter.compile env.corpus.fields)) = .error e) :
    Performed .metadata (.error e)
      (s.asked (.countDocuments env.corpus.id (some (filter.compile env.corpus.fields))))
  | counted {filter : Filter} {count : Int} (hfilter : env.effectiveFilter args = some filter)
    (hcount : env.collaborators.countDocuments s.calls env.corpus.id
      (some (filter.compile env.corpus.fields)) = .ok count) :
    Performed .metadata (.ok (.metadata count filter.toJson))
      { s.asked (.countDocuments env.corpus.id (some (filter.compile env.corpus.fields))) with
        filter := if (filter.compile env.corpus.fields).isEmpty then none
          else some (filter.compile env.corpus.fields) }

end

section

variable {env : Setting} {args : Arguments} {s t : RunState} {r : Except ServiceError Step}

theorem embed_cases {query : String} {r : Except ServiceError (List Single)}
    (h : (env.embed query).run.run s = (r, t)) :
    env.vector s.calls query = r ∧ t = s.asked (env.embedding query) := by
  rcases bind_cases h with ⟨e, hask, rfl⟩ | ⟨vectors, u, hask, hmatch⟩
  · obtain ⟨hreply, rfl⟩ := ask_cases hask
    refine ⟨?_, rfl⟩
    rw [Setting.vector, hreply]
  · obtain ⟨hreply, rfl⟩ := ask_cases hask
    rw [Setting.vector, hreply]
    cases vectors with
    | nil =>
      obtain ⟨rfl, rfl⟩ := Prod.mk.inj hmatch
      exact ⟨rfl, rfl⟩
    | cons vector rest =>
      obtain ⟨rfl, rfl⟩ := Prod.mk.inj hmatch
      exact ⟨rfl, rfl⟩

theorem text_cases {tool : Tool} {name : String} (hname : neededText tool = some name)
    {k : String → RunM Step}
    (h : (obeyed (requiredText tool name args) >>= k).run.run s = (r, t)) :
    Performed env args s tool r t ∨
      ∃ text, requiredText tool name args = .ok text ∧ (k text).run.run s = (r, t) := by
  rcases bind_cases h with ⟨e, hobeyed, rfl⟩ | ⟨text, u, hobeyed, hk⟩
  · obtain ⟨rfl, ⟨a, -, ha⟩ | ⟨fault, hfault, he⟩⟩ := obeyed_cases hobeyed
    · cases ha
    · obtain rfl := Except.error.inj he
      exact .inl (.refused hname hfault)
  · obtain ⟨rfl, ⟨a, ha, he⟩ | ⟨fault, -, he⟩⟩ := obeyed_cases hobeyed
    · obtain rfl := Except.ok.inj he
      exact .inr ⟨text, ha, hk⟩
    · cases he

/-- A search by similarity begins with the vector of its query. -/
theorem query_cases {tool : Tool} (hname : neededText tool = some "query")
    {k : List Single → RunM Step}
    (h : (do
      let query ← obeyed (requiredText tool "query" args)
      let vector ← env.embed query
      k vector).run.run s = (r, t)) :
    Performed env args s tool r t ∨
      ∃ query vector, requiredText tool "query" args = .ok query ∧
        env.vector s.calls query = .ok vector ∧
        (k vector).run.run (s.asked (env.embedding query)) = (r, t) := by
  rcases text_cases hname h with hdone | ⟨query, htext, h⟩
  · exact .inl hdone
  · rcases bind_cases h with ⟨e, hembed, rfl⟩ | ⟨vector, u, hembed, hk⟩
    · obtain ⟨hvector, rfl⟩ := embed_cases hembed
      exact .inl (.unembedded hname htext hvector)
    · obtain ⟨hvector, rfl⟩ := embed_cases hembed
      exact .inr ⟨query, vector, htext, hvector, hk⟩

theorem findChunks_eq (env : Setting) (args : Arguments) : env.findChunks args = (do
    let query ← obeyed (requiredText .chunks "query" args)
    let vector ← env.embed query
    let s ← get
    let hits ← ask (.searchChunks (env.chunkQuery args s vector)) fun history =>
      env.collaborators.searchChunks history (env.chunkQuery args s vector)
    modify fun s => { s with passages := s.passages ++ env.foundPassages args hits }
    pure (.chunks (limitAndThreshold env.corpus.tools.chunks args).1
      (limitAndThreshold env.corpus.tools.chunks args).2 s (env.foundPassages args hits))) := rfl

theorem findChunks_performed (h : (env.findChunks args).run.run s = (r, t)) :
    Performed env args s .chunks r t := by
  rw [findChunks_eq] at h
  rcases query_cases rfl h with hdone | ⟨query, vector, htext, hvector, hsearch⟩
  · exact hdone
  · rcases bind_cases hsearch with ⟨e, hget, -⟩ | ⟨u, m, hget, hsearch⟩
    · cases (Prod.mk.inj hget).1
    obtain ⟨hu, rfl⟩ := Prod.mk.inj hget
    obtain rfl := Except.ok.inj hu
    rcases bind_cases hsearch with ⟨e, hask, rfl⟩ | ⟨hits, u, hask, hrest⟩
    · obtain ⟨hhits, rfl⟩ := ask_cases hask
      exact .chunksFailed htext hvector hhits
    · obtain ⟨hhits, rfl⟩ := ask_cases hask
      obtain ⟨rfl, rfl⟩ := Prod.mk.inj hrest
      exact .chunks htext hvector hhits

theorem findBySummary_eq (env : Setting) (args : Arguments) : env.findBySummary args = (do
    let query ← obeyed (requiredText .summaries "query" args)
    let vector ← env.embed query
    let hits ← ask (env.summariesSearch args vector) fun history =>
      env.collaborators.searchDocuments history env.corpus.id vector
        (limitAndThreshold env.corpus.tools.summaries args).1
    modify fun s => { s with documents := some (env.foundDocuments args hits) }
    pure (.summaries (limitAndThreshold env.corpus.tools.summaries args).1
      (limitAndThreshold env.corpus.tools.summaries args).2 (env.foundDocuments args hits))) := rfl

theorem findBySummary_performed (h : (env.findBySummary args).run.run s = (r, t)) :
    Performed env args s .summaries r t := by
  rw [findBySummary_eq] at h
  rcases query_cases rfl h with hdone | ⟨query, vector, htext, hvector, hsearch⟩
  · exact hdone
  · rcases bind_cases hsearch with ⟨e, hask, rfl⟩ | ⟨hits, u, hask, hrest⟩
    · obtain ⟨hhits, rfl⟩ := ask_cases hask
      exact .summariesFailed htext hvector hhits
    · obtain ⟨hhits, rfl⟩ := ask_cases hask
      obtain ⟨rfl, rfl⟩ := Prod.mk.inj hrest
      exact .summaries htext hvector hhits

theorem findByMetadata_performed (h : (env.findByMetadata args).run.run s = (r, t)) :
    Performed env args s .metadata r t := by
  rw [Setting.findByMetadata] at h
  cases hfilter : env.effectiveFilter args with
  | none =>
    rw [hfilter] at h
    obtain ⟨rfl, rfl⟩ := Prod.mk.inj h
    exact .unfiltered hfilter
  | some filter =>
    rw [hfilter] at h
    rcases bind_cases h with ⟨e, hask, rfl⟩ | ⟨count, u, hask, hrest⟩
    · obtain ⟨hcount, rfl⟩ := ask_cases hask
      exact .countFailed hfilter hcount
    · obtain ⟨hcount, rfl⟩ := ask_cases hask
      obtain ⟨rfl, rfl⟩ := Prod.mk.inj hrest
      exact .counted hfilter hcount

/-- A tool is carried out in one of these ways. -/
theorem perform_performed {tool : Tool} (h : (env.perform tool args).run.run s = (r, t)) :
    Performed env args s tool r t := by
  cases tool with
  | exit =>
    rcases text_cases rfl h with hdone | ⟨answer, htext, h⟩
    · exact hdone
    · obtain ⟨rfl, rfl⟩ := Prod.mk.inj h
      exact .exited htext
  | chunks => exact findChunks_performed h
  | summaries => exact findBySummary_performed h
  | metadata => exact findByMetadata_performed h

/-- A call that fails leaves no record, and one that succeeds is recorded. -/
theorem call_cases {iteration : Nat} {tool : Tool} {request : ToolCall}
    (h : (env.call iteration tool request).run.run s = (r, t)) :
    (∃ fault, arguments request = .error fault ∧ r = .error fault.error ∧ t = s) ∨
      ∃ args, arguments request = .ok args ∧
        ((∃ e, r = .error e ∧ Performed env args s tool r t) ∨
          ∃ step u, r = .ok step ∧ Performed env args s tool r u ∧
            t = u.recorded ⟨iteration, tool, args, step.summary⟩) := by
  rw [Setting.call] at h
  rcases bind_cases h with ⟨e, hobeyed, rfl⟩ | ⟨args, u, hobeyed, hperformed⟩
  · obtain ⟨rfl, ⟨a, -, ha⟩ | ⟨fault, hfault, he⟩⟩ := obeyed_cases hobeyed
    · cases ha
    · obtain rfl := Except.error.inj he
      exact .inl ⟨fault, hfault, rfl, rfl⟩
  · obtain ⟨rfl, ⟨a, ha, he⟩ | ⟨fault, -, he⟩⟩ := obeyed_cases hobeyed
    · obtain rfl := Except.ok.inj he
      refine .inr ⟨args, ha, ?_⟩
      rcases bind_cases hperformed with ⟨e, hperform, rfl⟩ | ⟨step, m, hperform, hrest⟩
      · exact .inl ⟨e, rfl, perform_performed hperform⟩
      · obtain ⟨rfl, rfl⟩ := Prod.mk.inj hrest
        exact .inr ⟨step, m, rfl, perform_performed hperform, rfl⟩
    · cases he

end

end CorpusAgent.Retrieval
