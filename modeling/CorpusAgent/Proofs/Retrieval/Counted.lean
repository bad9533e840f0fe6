import CorpusAgent.Proofs.Filter.Emission
import CorpusAgent.Proofs.Retrieval.History
import CorpusAgent.Proofs.Retrieval.Restriction

/-!
# What is counted stays in force

A search by metadata counts the documents that satisfy a predicate and restricts later searches to
them, unless the predicate is blank.

* `Path.split`: a course falls apart at each of its completed tool calls.
* `Performed.counted`: a search by metadata with a filter leaves the predicate that it counted.
* `LeavesCounted`: so does each such search on a course.
* `no_filter_lost`: no filter is blank, no part of one is left out, and no run forgets the predicate
  that it counted.
-/

namespace CorpusAgent.Retrieval

variable {env : Setting} {s t : RunState}

/-- A course falls apart at each tool call that was completed on it. -/
theorem Path.split {log earlier later : List ToolRun} {run : ToolRun} (h : Path env s log t)
    (hlog : log = earlier ++ run :: later) :
    ∃ before m step, Path env s earlier before ∧
      Performed env run.record.arguments before run.record.tool (.ok step) m ∧
      run.record.summary = step.summary ∧ run.earlier = before.calls ∧ m.calls = run.calls ∧
      Path env (m.recorded run.record) later t := by
  induction h generalizing earlier with
  | refl s => simp at hlog
  | said message _ ih =>
    obtain ⟨before, m, step, hbefore, hrest⟩ := ih hlog
    exact ⟨before, m, step, .said message hbefore, hrest⟩
  | completed hreply _ ih =>
    obtain ⟨before, m, step, hbefore, hrest⟩ := ih hlog
    exact ⟨before, m, step, .completed hreply hbefore, hrest⟩
  | @performed s m t log step first h hsummary hearlier hcalls rest ih =>
    cases earlier with
    | nil =>
      obtain ⟨rfl, rfl⟩ := List.cons.inj hlog
      exact ⟨s, m, step, .refl s, h, hsummary, hearlier, hcalls, rest⟩
    | cons other earlier =>
      obtain ⟨rfl, hlater⟩ := List.cons.inj hlog
      obtain ⟨before, m', step', hbefore, hrest⟩ := ih hlater
      exact ⟨before, m', step', .performed first h hsummary hearlier hcalls hbefore, hrest⟩

theorem Performed.counted_eq {args : Arguments} {filter : Filter} {step : Step}
    (h : Performed env args s .metadata (.ok step) t)
    (hfilter : env.effectiveFilter args = some filter) :
    t.calls = s.calls ++
        [.countDocuments env.corpus.id (some (filter.compile env.corpus.fields))] ∧
      t.filter = some (filter.compile env.corpus.fields) := by
  cases h with
  | unfiltered hnone => cases hnone.symm.trans hfilter
  | counted hsome =>
    obtain rfl := Option.some.inj (hsome.symm.trans hfilter)
    refine ⟨rfl, ?_⟩
    simp only [Filter.isEmpty_compile, Bool.false_eq_true, if_false]

/-- Each completed search by metadata on a course that had a filter counted with the predicate of
the filter, and this predicate is what it left. -/
def LeavesCounted (env : Setting) (s : RunState) (log : List ToolRun) (t : RunState) : Prop :=
  ∀ earlier run later filter, log = earlier ++ run :: later → run.record.tool = .metadata →
    env.effectiveFilter run.record.arguments = some filter →
      ∃ before after, Path env s earlier before ∧ Path env after later t ∧
        after.workflow = before.workflow ++ [run.record] ∧
        after.calls = before.calls ++
          [.countDocuments env.corpus.id (some (filter.compile env.corpus.fields))] ∧
        after.filter = some (filter.compile env.corpus.fields)

theorem Path.leavesCounted {log : List ToolRun} (h : Path env s log t) :
    LeavesCounted env s log t := by
  intro earlier run later filter hlog htool hfilter
  obtain ⟨before, m, step, hbefore, hperformed, -, -, -, hafter⟩ := h.split hlog
  rw [htool] at hperformed
  obtain ⟨hcalls, hleft⟩ := hperformed.counted_eq hfilter
  refine ⟨before, m.recorded run.record, hbefore, hafter, ?_, hcalls, hleft⟩
  exact congrArg (· ++ [run.record]) hperformed.workflow_eq

/-- **No filter is lost.**  The predicate of a filter is not blank, and that of a tree is blank only
if the tree is no filter.  No part of a group and no negated part comes to an empty text, so none is
left out.  In every run each completed search by metadata that has a filter leaves exactly the
predicate that it counted with. -/
theorem no_filter_lost :
    (∀ (f : Filter) (fields : List Field), (f.compile fields).isEmpty = false ∧
      f.compile fields = ⟨((Filter.emit fields f).run #[]).1,
        Filter.paramsOf ((Filter.emit fields f).run #[]).2⟩) ∧
    (∀ (v : Json) (fields : List Field),
      ((Filter.compileValue v fields).isEmpty = true ↔ ∃ e, Filter.parse v = .error e) ∧
        ((Filter.compileValue v fields).isEmpty = true →
          (Filter.compileValue v fields).params = [])) ∧
    (∀ (fields : List Field) (bound : Array String),
      (∀ part, Text.isBlank ((Filter.emit fields part).run bound).1 = false) ∧
      ∀ parts, ((Filter.emitEach fields parts).run bound).1.length = parts.length ∧
        ((Filter.emitEach fields parts).run bound).1.filter (· ≠ "") =
          ((Filter.emitEach fields parts).run bound).1) ∧
    ∀ (corpora : List Corpus) (collaborators : Collaborators) (r : Request),
      (retrieve corpora collaborators r).calls = [] ∨
        ∃ c ∈ corpora, c.id = r.corpusId ∧ ∃ log m t, ∃ answer : Except ServiceError String,
          Path ⟨c, lenientFilter r.filter, collaborators⟩
            { transcript := conversation c r.messages } log m ∧
          Stopped ⟨c, lenientFilter r.filter, collaborators⟩ m answer t ∧
          (retrieve corpora collaborators r).calls = t.calls ∧
          (retrieve corpora collaborators r).workflow = log.map ToolRun.record ∧
          LeavesCounted ⟨c, lenientFilter r.filter, collaborators⟩
            { transcript := conversation c r.messages } log m := by
  refine ⟨fun f fields => ⟨f.isEmpty_compile fields, Filter.compile_eq_emit fields f⟩,
    Filter.isEmpty_compileValue_iff, fun fields bound => ⟨fun part => Filter.isBlank_emit ..,
      fun parts => Filter.emitEach_kept ..⟩, ?_⟩
  intro corpora collaborators r
  rcases retrieve_cases corpora collaborators r with ⟨-, hnone⟩ | ⟨c, hc, hid, -, hretrieve⟩
  · exact .inl hnone
  · obtain ⟨log, m, t, answer, hpath, hstopped, hcalls, hworkflow⟩ :=
      outcome_path ⟨c, lenientFilter r.filter, collaborators⟩ (conversation c r.messages)
    rw [hretrieve]
    exact .inr ⟨c, hc, hid, log, m, t, answer, hpath, hstopped, hcalls,
      hworkflow.trans hpath.workflow_eq, hpath.leavesCounted⟩

end CorpusAgent.Retrieval
