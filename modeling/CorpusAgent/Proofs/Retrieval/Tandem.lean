import CorpusAgent.Proofs.Retrieval.Lockstep
import CorpusAgent.Proofs.Retrieval.Path

/-!
# Two runs that find other documents

Two runs of the same request, whose searches of documents bring different documents.  Nothing but
their number is seen by the model.

* `Call.masked`, `RunState.masked`: a call and a state without the documents, of which only the
  number stays.
* `SimilaritySettings.thresholds`: the thresholds of the searches of documents, read off the
  records.
* `Path.threshold`: the search of a number is compared with the threshold of that number.
* `RunsMatch`: as long as the calls of two runs differ in documents only, the replies to them are
  the same; but searches of documents may find any others, if as many of them reach the threshold.
* `InTandem`: two parts of runs with the same result, whose states differ in documents only.
-/

namespace CorpusAgent

/-- The thresholds of the recorded searches of documents by summaries, in order. -/
def SimilaritySettings.thresholds (s : SimilaritySettings) (workflow : List Retrieval.Record) :
    List Single :=
  (workflow.filter fun record => record.tool = .summaries).map fun record =>
    (Retrieval.limitAndThreshold s record.arguments).2

namespace Retrieval

/-- A list of documents with their number left and nothing else. -/
def concealed (documents : List Uuid) : List Uuid := List.replicate documents.length .nil

/-- A call without the documents that it is restricted to. -/
def Call.masked : Call → Call
  | .searchChunks query =>
    .searchChunks { query with onlyDocuments := query.onlyDocuments.map concealed }
  | call => call

/-- A state without the documents found. -/
def RunState.masked (s : RunState) : RunState :=
  { s with
    calls := s.calls.map Call.masked
    documents := s.documents.map concealed }

/-- How many of the documents found reach a threshold. -/
def reaching (threshold : Single) (hits : List DocumentHit) : Nat :=
  hits.countP fun hit => hit.score.isAtLeast threshold

section

variable (m n : Collaborators)

/-- The replies to two calls, each after a history of calls, are the same.  Only searches of
documents may find others, if as many of them reach the threshold of their number. -/
def RepliesMatch (thresholds : List Single) (before : List Call) (call : Call)
    (before' : List Call) (call' : Call) : Prop :=
  match call, call' with
  | .complete transcript tools force, .complete transcript' tools' force' =>
    m.complete before transcript tools force = n.complete before' transcript' tools' force'
  | .embed model texts, .embed model' texts' =>
    m.embed before model texts = n.embed before' model' texts'
  | .countDocuments graph p, .countDocuments graph' p' =>
    m.countDocuments before graph p = n.countDocuments before' graph' p'
  | .searchDocuments graph vector limit, .searchDocuments graph' vector' limit' =>
    ∃ hits hits', m.searchDocuments before graph vector limit = .ok hits ∧
      n.searchDocuments before' graph' vector' limit' = .ok hits' ∧
      ∀ threshold ∈ thresholds[before.countP Call.isSearchDocuments]?,
        reaching threshold hits = reaching threshold hits'
  | .searchChunks query, .searchChunks query' =>
    m.searchChunks before query = n.searchChunks before' query'
  | _, _ => True

/-- As long as the calls of two runs differ in documents only, the replies to them match.  The first
run tells the thresholds by its records. -/
def RunsMatch (s : SimilaritySettings) (workflow : List Record) (calls more : List Call) : Prop :=
  ∀ before call before' call', before ++ [call] <+: calls → before' ++ [call'] <+: more →
    before.map Call.masked = before'.map Call.masked → call.masked = call'.masked →
      RepliesMatch m n (s.thresholds workflow) before call before' call'

end

/-! ### Documents -/

theorem concealed_eq_iff {documents documents' : List Uuid} :
    concealed documents = concealed documents' ↔ documents.length = documents'.length := by
  constructor
  · intro h
    simpa [concealed] using congrArg List.length h
  · intro h
    rw [concealed, concealed, h]

namespace RunState

variable (s : RunState)

@[simp] theorem masked_transcript : s.masked.transcript = s.transcript := rfl

@[simp] theorem masked_passages : s.masked.passages = s.passages := rfl

@[simp] theorem masked_workflow : s.masked.workflow = s.workflow := rfl

end RunState

theorem masked_asked (s : RunState) (call : Call) :
    (s.asked call).masked = s.masked.asked call.masked := by
  simp [RunState.masked, RunState.asked]

theorem chunks_masked (limit : Int) (threshold : Single) (s : RunState) (found : List Passage) :
    Step.chunks limit threshold s.masked found = Step.chunks limit threshold s found := by
  unfold Step.chunks RunState.masked
  cases s.documents <;> simp [concealed]

theorem isSearchDocuments_masked (call : Call) :
    call.masked.isSearchDocuments = call.isSearchDocuments := by
  cases call <;> rfl

/-! ### Thresholds -/

theorem thresholds_append (s : SimilaritySettings) (workflow more : List Record) :
    s.thresholds (workflow ++ more) = s.thresholds workflow ++ s.thresholds more := by
  simp [SimilaritySettings.thresholds]

/-- Every search of documents has been recorded. -/
def Filed (s : RunState) : Prop :=
  s.calls.countP Call.isSearchDocuments =
    s.workflow.countP fun record => record.tool = .summaries

theorem Filed.length_thresholds {s : RunState} (h : Filed s) (settings : SimilaritySettings) :
    (settings.thresholds s.workflow).length = s.calls.countP Call.isSearchDocuments := by
  rw [SimilaritySettings.thresholds, List.length_map, ← List.countP_eq_length_filter, h]

theorem Filed.asked {s : RunState} {call : Call} (h : Filed s)
    (hquiet : call.isSearchDocuments = false) : Filed (s.asked call) := by
  unfold Filed at h ⊢
  simpa [RunState.asked, hquiet] using h

theorem getElem?_of_isPrefix {α : Type} {l l' : List α} {i : Nat} {a : α} (h : l <+: l')
    (hi : l[i]? = some a) : l'[i]? = some a := by
  obtain ⟨hlt, rfl⟩ := List.getElem?_eq_some_iff.mp hi
  exact List.prefix_iff_getElem?.mp h i hlt

theorem thresholds_mono {workflow more : List Record} (s : SimilaritySettings)
    (h : workflow <+: more) : s.thresholds workflow <+: s.thresholds more :=
  (h.filter _).map _

theorem Filed.threshold {s : RunState} {record : Record} {workflow : List Record}
    (h : Filed s) (settings : SimilaritySettings) (htool : record.tool = .summaries)
    (hworkflow : s.workflow ++ [record] <+: workflow) :
    (settings.thresholds workflow)[s.calls.countP Call.isSearchDocuments]? =
      some (limitAndThreshold settings record.arguments).2 := by
  have hown : settings.thresholds [record] =
      [(limitAndThreshold settings record.arguments).2] := by
    simp [SimilaritySettings.thresholds, htool]
  refine getElem?_of_isPrefix (thresholds_mono settings hworkflow) ?_
  rw [thresholds_append, hown, ← h.length_thresholds settings]
  exact List.getElem?_concat_length

section

variable {env : Setting} {s t m : RunState}

/-- A tool call that is recorded leaves every search of documents with a record. -/
theorem Performed.filed {args : Arguments} {tool : Tool} {step : Step} {record : Record}
    (h : Performed env args s tool (.ok step) m) (htool : record.tool = tool) (hs : Filed s) :
    Filed (m.recorded record) := by
  unfold Filed at hs ⊢
  cases h <;> simp [RunState.recorded, RunState.asked, htool, hs, Setting.embedding,
    Setting.summariesSearch, Call.isSearchDocuments]

/-- The search of documents of a number is compared with the threshold of that number. -/
theorem Path.threshold {log : List ToolRun} (h : Path env s log t) (hs : Filed s) :
    ∀ run ∈ log, run.record.tool = .summaries →
      (env.corpus.tools.summaries.thresholds t.workflow)[run.earlier.countP
        Call.isSearchDocuments]? =
          some (limitAndThreshold env.corpus.tools.summaries run.record.arguments).2 := by
  induction h with
  | refl => exact List.forall_mem_nil _
  | said message _ ih => exact ih hs
  | completed hreply _ ih => exact ih (hs.asked rfl)
  | @performed s m t log step run h hsummary hearlier hcalls rest ih =>
    refine List.forall_mem_cons.mpr ⟨fun htool => ?_, ih (h.filed rfl hs)⟩
    rw [hearlier]
    refine hs.threshold _ htool ?_
    have hworkflow : (m.recorded run.record).workflow = s.workflow ++ [run.record] :=
      congrArg (· ++ [run.record]) h.workflow_eq
    rw [rest.workflow_eq, hworkflow]
    exact List.prefix_append ..

end

/-! ### Parts of two runs -/

/-- A part of a run only adds to the calls and to the records. -/
def Advances {α : Type} (x : RunM α) : Prop :=
  ∀ s, s.calls <+: (x.run.run s).2.calls ∧ s.workflow <+: (x.run.run s).2.workflow

variable {settings : SimilaritySettings} {m n : Collaborators} {α β : Type}

theorem Advances.bind {x : RunM α} {k : α → RunM β} (hx : Advances x) (hk : ∀ a, Advances (k a)) :
    Advances (x >>= k) := by
  intro s
  have hfirst := hx s
  rcases hrun : x.run.run s with ⟨e | a, u⟩
  · rw [run_bind_of_error hrun]
    rwa [hrun] at hfirst
  · rw [run_bind_of_ok hrun]
    rw [hrun] at hfirst
    exact ⟨hfirst.1.trans (hk a u).1, hfirst.2.trans (hk a u).2⟩

/-- What matches until the end of two runs has matched all along. -/
theorem RunsMatch.earlier {workflow workflow' : List Record} {calls calls' more more' : List Call}
    (h : RunsMatch m n settings workflow' calls' more') (hworkflow : workflow <+: workflow')
    (hcalls : calls <+: calls') (hmore : more <+: more') :
    RunsMatch m n settings workflow calls more := by
  intro before call before' call' hcall hcall' hbefore hmasked
  have hmatch := h before call before' call' (hcall.trans hcalls) (hcall'.trans hmore) hbefore
    hmasked
  cases call with
  | complete | embed | countDocuments | searchChunks => cases call' <;> exact hmatch
  | searchDocuments =>
    cases call' with
    | complete | embed | countDocuments | searchChunks => trivial
    | searchDocuments =>
      obtain ⟨hits, hits', hfirst, hsecond, hreaching⟩ := hmatch
      refine ⟨hits, hits', hfirst, hsecond, fun threshold hthreshold => hreaching threshold ?_⟩
      exact getElem?_of_isPrefix (thresholds_mono settings hworkflow) hthreshold

/-- Two states that differ in documents only, after runs whose searches of documents have all been
recorded. -/
structure Beside (s t : RunState) : Prop where
  masked : s.masked = t.masked
  filed : Filed s

-- `InStep` is of no use here: which replies match depends on the records, not on the calls alone.
variable (settings m n) in
/-- Two parts of runs that have the same result, and whose states differ in documents only, if the
replies match. -/
structure InTandem (x y : RunM α) : Prop where
  left : Advances x
  right : Advances y
  alike : ∀ s t, Beside s t → RunsMatch m n settings (x.run.run s).2.workflow
      (x.run.run s).2.calls (y.run.run t).2.calls →
    (x.run.run s).1 = (y.run.run t).1 ∧ Beside (x.run.run s).2 (y.run.run t).2

namespace InTandem

theorem value (a : α) : InTandem settings m n (pure a) (pure a) where
  left := fun _ => ⟨List.prefix_refl _, List.prefix_refl _⟩
  right := fun _ => ⟨List.prefix_refl _, List.prefix_refl _⟩
  alike := fun _ _ hst _ => ⟨rfl, hst⟩

theorem failure (e : ServiceError) : InTandem settings m n (throw e : RunM α) (throw e) where
  left := fun _ => ⟨List.prefix_refl _, List.prefix_refl _⟩
  right := fun _ => ⟨List.prefix_refl _, List.prefix_refl _⟩
  alike := fun _ _ hst _ => ⟨rfl, hst⟩

theorem rule (x : Except ProtocolFault α) : InTandem settings m n (obeyed x) (obeyed x) := by
  cases x with
  | ok a => exact value a
  | error fault => exact failure fault.error

theorem bind {x y : RunM α} {k l : α → RunM β} (hx : InTandem settings m n x y)
    (hk : ∀ a, InTandem settings m n (k a) (l a)) : InTandem settings m n (x >>= k) (y >>= l) where
  left := hx.left.bind fun a => (hk a).left
  right := hx.right.bind fun a => (hk a).right
  alike := by
    intro s t hst hmatch
    have hfirst := hx.alike s t hst
    rcases hrun : x.run.run s with ⟨e | a, u⟩
    · rcases hrun' : y.run.run t with ⟨e' | b, v⟩
      · rw [run_bind_of_error hrun, run_bind_of_error hrun'] at hmatch ⊢
        rw [hrun, hrun'] at hfirst
        obtain ⟨hresult, hbeside⟩ := hfirst hmatch
        obtain rfl := Except.error.inj hresult
        exact ⟨rfl, hbeside⟩
      · rw [run_bind_of_error hrun, run_bind_of_ok hrun'] at hmatch
        rw [hrun, hrun'] at hfirst
        have hgrows := ((hk b).right v).1
        cases (hfirst (hmatch.earlier (List.prefix_refl _) (List.prefix_refl _) hgrows)).1
    · have hgrows := (hk a).left u
      rcases hrun' : y.run.run t with ⟨e' | b, v⟩
      · rw [run_bind_of_ok hrun, run_bind_of_error hrun'] at hmatch
        rw [hrun, hrun'] at hfirst
        cases (hfirst (hmatch.earlier hgrows.2 hgrows.1 (List.prefix_refl _))).1
      · rw [run_bind_of_ok hrun, run_bind_of_ok hrun'] at hmatch ⊢
        rw [hrun, hrun'] at hfirst
        have hgrows' := ((hk b).right v).1
        obtain ⟨hresult, hbeside⟩ := hfirst (hmatch.earlier hgrows.2 hgrows.1 hgrows')
        obtain rfl := Except.ok.inj hresult
        exact (hk a).alike u v hbeside hmatch

/-- What comes after a look at the states may depend on all of them but the documents. -/
theorem look {k l : RunState → RunM α}
    (h : ∀ s t, s.masked = t.masked → InTandem settings m n (k s) (l t)) :
    InTandem settings m n (get >>= k) (get >>= l) where
  left := fun s => (h s s rfl).left s
  right := fun t => (h t t rfl).right t
  alike := fun s t hst hmatch => (h s t hst.masked).alike s t hst hmatch

/-- Calls that are no searches of documents, and that differ in documents only. -/
theorem call {c d : Call} {f g : List Call → Except ServiceError α} (hmasked : c.masked = d.masked)
    (hquiet : c.isSearchDocuments = false)
    (hreply : ∀ thresholds before before', RepliesMatch m n thresholds before c before' d →
      f before = g before') :
    InTandem settings m n (ask c f) (ask d g) where
  left := fun _ => ⟨List.prefix_append .., List.prefix_refl _⟩
  right := fun _ => ⟨List.prefix_append .., List.prefix_refl _⟩
  alike := by
    intro s t hst hmatch
    refine ⟨?_, ?_, ?_⟩
    · have hbefore : s.calls.map Call.masked = t.calls.map Call.masked :=
        congrArg RunState.calls hst.masked
      exact hreply _ _ _ (hmatch s.calls c t.calls d (List.prefix_refl _) (List.prefix_refl _)
        hbefore hmasked)
    · have hstates : (s.asked c).masked = (t.asked d).masked := by
        rw [masked_asked, masked_asked, hst.masked, hmasked]
      exact hstates
    · exact hst.filed.asked hquiet

/-- A change that leaves the calls alone and that takes no notice of documents. -/
theorem extend {f : RunState → RunState} (hcalls : ∀ s, (f s).calls = s.calls)
    (hworkflow : ∀ s, s.workflow <+: (f s).workflow) (hmasked : ∀ s, (f s).masked = f s.masked)
    (hfiled : ∀ s, Filed s → Filed (f s)) :
    InTandem settings m n (modify f : RunM PUnit) (modify f) where
  left := fun s => ⟨(hcalls s).symm ▸ List.prefix_refl _, hworkflow s⟩
  right := fun s => ⟨(hcalls s).symm ▸ List.prefix_refl _, hworkflow s⟩
  alike := by
    intro s t hst _
    have hstates : (f s).masked = (f t).masked := by
      rw [hmasked, hmasked, hst.masked]
    exact ⟨rfl, hstates, hfiled s hst.filed⟩

theorem change {f : RunState → RunState} (hcalls : ∀ s, (f s).calls = s.calls)
    (hworkflow : ∀ s, (f s).workflow = s.workflow) (hmasked : ∀ s, (f s).masked = f s.masked) :
    InTandem settings m n (modify f : RunM PUnit) (modify f) := by
  refine .extend hcalls (fun s => (hworkflow s).symm ▸ List.prefix_refl _) hmasked fun s h => ?_
  rwa [Filed, hcalls, hworkflow]

end InTandem

end Retrieval

end CorpusAgent
