import CorpusAgent.Proofs.Retrieval.Course
import CorpusAgent.Retrieval.Service
import Mathlib.Data.List.Infix

/-!
# The course of a run

A run goes on by completions, messages and tool calls until it ends or something fails.

* `Path`: a course from one state to another, with the tool calls that were completed on it.
* `Path.ordered`, `Path.workflow_eq`: these follow one another, and they are those recorded.
* `Stopped`: how a run ends in the last state of its course.
* `outcome_path`: every run takes such a course, and its outcome tells where it ended.
-/

namespace CorpusAgent.Retrieval

section

variable (env : Setting)

/-- A course of a run, with the tool calls completed on it. -/
inductive Path : RunState → List ToolRun → RunState → Prop
  | refl (s : RunState) : Path s [] s
  | said {s t : RunState} {log : List ToolRun} (message : Message)
    (rest : Path { s with transcript := s.transcript ++ [message] } log t) : Path s log t
  | completed {s t : RunState} {log : List ToolRun} {tools : List ToolSpec} {force : Bool}
    {completion : Completion}
    (hreply : env.collaborators.complete s.calls s.transcript tools force = .ok completion)
    (rest : Path (s.asked (.complete s.transcript tools force)) log t) : Path s log t
  | performed {s m t : RunState} {log : List ToolRun} {step : Step} (run : ToolRun)
    (h : Performed env run.record.arguments s run.record.tool (.ok step) m)
    (hsummary : run.record.summary = step.summary) (hearlier : run.earlier = s.calls)
    (hcalls : m.calls = run.calls) (rest : Path (m.recorded run.record) log t) :
    Path s (run :: log) t

/-- The end of a run in a state: nothing more, or one more call of a collaborator that fails or a
tool that does. -/
inductive Stopped {α : Type} (m : RunState) : Except ServiceError α → RunState → Prop
  | finished (a : α) : Stopped m (.ok a) m
  | fault (fault : ProtocolFault) : Stopped m (.error fault.error) m
  | completionFailed {tools : List ToolSpec} {force : Bool} {e : ServiceError}
    (hreply : env.collaborators.complete m.calls m.transcript tools force = .error e) :
    Stopped m (.error e) (m.asked (.complete m.transcript tools force))
  | toolFailed {args : Arguments} {tool : Tool} {e : ServiceError} {t : RunState}
    (h : Performed env args m tool (.error e) t) : Stopped m (.error e) t

end

variable {env : Setting} {s m t : RunState} {log : List ToolRun}

theorem Path.trans {later : List ToolRun} (h : Path env s log m) (g : Path env m later t) :
    Path env s (log ++ later) t := by
  induction h with
  | refl => exact g
  | said message _ ih => exact .said message (ih g)
  | completed hreply _ ih => exact .completed hreply (ih g)
  | performed run h hsummary hearlier hcalls _ ih =>
    exact .performed run h hsummary hearlier hcalls (ih g)

theorem mem_of_getElem?_append {earlier made rest : List Call} {n : Nat} {c : Call}
    (h : (earlier ++ made ++ rest)[n]? = some c) (hle : earlier.length ≤ n)
    (hlt : n < (earlier ++ made).length) : c ∈ made := by
  rw [List.getElem?_append_left hlt, List.getElem?_append_right hle] at h
  exact List.mem_of_getElem? h

/-- No tool touches the records. -/
theorem Performed.workflow_eq {args : Arguments} {tool : Tool} {r : Except ServiceError Step}
    (h : Performed env args s tool r t) : t.workflow = s.workflow := by
  cases h <;> rfl

namespace Path

theorem calls_prefix (h : Path env s log t) : s.calls <+: t.calls := by
  induction h with
  | refl s => exact List.prefix_refl _
  | said message _ ih => exact ih
  | completed hreply _ ih => exact (List.prefix_append ..).trans ih
  | @performed s m t log step run h hsummary hearlier hcalls _ ih =>
    have hfirst : s.calls <+: m.calls := by
      rw [hcalls, ToolRun.calls, hearlier]
      exact List.prefix_append ..
    exact hfirst.trans ih

theorem ordered (h : Path env s log t) :
    (∀ run ∈ log, s.calls <+: run.earlier ∧ run.calls <+: t.calls) ∧
      log.Pairwise fun a b => a.calls <+: b.earlier := by
  induction h with
  | refl s => exact ⟨fun run hrun => absurd hrun List.not_mem_nil, List.Pairwise.nil⟩
  | said message _ ih => exact ih
  | completed hreply _ ih =>
    refine ⟨fun run hrun => ?_, ih.2⟩
    exact ⟨(List.prefix_append ..).trans (ih.1 run hrun).1, (ih.1 run hrun).2⟩
  | @performed s m t log step run h hsummary hearlier hcalls rest ih =>
    have hlater : ∀ later ∈ log, run.calls <+: later.earlier ∧ later.calls <+: t.calls := by
      rw [← hcalls]
      exact ih.1
    refine ⟨fun later hmem => ?_, .cons (fun later hmem => (hlater later hmem).1) ih.2⟩
    rcases List.mem_cons.mp hmem with rfl | hmem
    · exact ⟨hearlier ▸ List.prefix_refl _, hcalls ▸ rest.calls_prefix⟩
    · have hown : s.calls <+: run.calls := by
        rw [ToolRun.calls, hearlier]
        exact List.prefix_append ..
      exact ⟨hown.trans (hlater later hmem).1, (hlater later hmem).2⟩

/-- The tool calls are those that are recorded. -/
theorem workflow_eq (h : Path env s log t) :
    t.workflow = s.workflow ++ log.map ToolRun.record := by
  induction h with
  | refl s => exact (List.append_nil _).symm
  | said message _ ih => exact ih
  | completed hreply _ ih => exact ih
  | performed run h hsummary hearlier hcalls _ ih =>
    rw [ih, RunState.recorded, h.workflow_eq, List.append_assoc]
    rfl

end Path

theorem Stopped.of_error {α β : Type} {e : ServiceError}
    (h : Stopped env m (.error e : Except ServiceError α) t) :
    Stopped env m (.error e : Except ServiceError β) t := by
  cases h with
  | fault fault => exact .fault fault
  | completionFailed hreply => exact .completionFailed hreply
  | toolFailed h => exact .toolFailed h

theorem Stopped.workflow_eq {α : Type} {r : Except ServiceError α} (h : Stopped env m r t) :
    t.workflow = m.workflow := by
  cases h with
  | finished | fault | completionFailed => rfl
  | toolFailed h => exact h.workflow_eq

/-! ### Every run takes a course -/

theorem Failed.stopped {α : Type} {offered : List ToolSpec} {request : ToolCall} {e : ServiceError}
    (h : Failed env offered request s e t) :
    Stopped env s (.error e : Except ServiceError α) t := by
  cases h with
  | unknown hname => exact .fault _
  | unreadable => exact .fault _
  | performed hname hoffered harguments h => exact .toolFailed h

theorem Completed.path {offered : List ToolSpec} {iteration : Nat} {request : ToolCall}
    {run : ToolRun} {step : Step} (h : Completed env offered iteration request s run step m)
    (rest : Path env (m.recorded run.record) log t) : Path env s (run :: log) t :=
  .performed run h.performed h.summary h.earlier h.calls rest

theorem Dispatched.path {offered : List ToolSpec} {iteration : Nat} {requests : List ToolCall}
    {r : Except ServiceError Ending} (h : Dispatched env offered iteration requests s log r t) :
    ∃ m, Path env s log m ∧ Stopped env m r t := by
  induction h with
  | done s => exact ⟨s, .refl s, .finished _⟩
  | withheld hname hoffered => exact ⟨_, .refl _, .finished _⟩
  | failed h => exact ⟨_, .refl _, h.stopped⟩
  | exited h => exact ⟨_, h.path (.refl _), .finished _⟩
  | answered h later ih =>
    obtain ⟨m, hpath, hstopped⟩ := ih
    exact ⟨m, h.path (.said _ hpath), hstopped⟩

theorem Last.path {total toCome : Nat} {words : Option String} {completion : Completion}
    {r : Except ServiceError String} (h : Last env total toCome words completion s log r t) :
    ∃ m, Path env s log m ∧ Stopped env m r t := by
  cases h with
  | spoken hcalls => exact ⟨s, .refl s, .finished _⟩
  | exited h | withheld h =>
    obtain ⟨m, hpath, hstopped⟩ := h.path
    cases hstopped
    exact ⟨_, .said _ hpath, .finished _⟩
  | failed h =>
    obtain ⟨m, hpath, hstopped⟩ := h.path
    exact ⟨m, .said _ hpath, hstopped.of_error⟩

theorem Path.of_prompted {toCome : Nat} (h : Path env (s.prompted toCome) log t) :
    Path env s log t := by
  unfold RunState.prompted at h
  by_cases hlast : toCome = 0
  · rw [if_pos hlast] at h
    exact .said _ h
  · rwa [if_neg hlast] at h

theorem Course.path {total toCome : Nat} {words : Option String} {r : Except ServiceError String}
    (h : Course env total toCome words s log r t) :
    ∃ m, Path env s log m ∧ Stopped env m r t := by
  induction h with
  | exhausted words s => exact ⟨s, .refl s, .finished _⟩
  | unanswered hreply => exact ⟨_, .of_prompted (.refl _), .completionFailed hreply⟩
  | last hreply h =>
    obtain ⟨m, hpath, hstopped⟩ := h.path
    exact ⟨m, .of_prompted (.completed hreply hpath), hstopped⟩
  | next hreply hcalls h rest ih =>
    obtain ⟨m, hpath, hstopped⟩ := h.path
    obtain ⟨m', hlater, hstopped'⟩ := ih
    cases hstopped
    have hfirst : Path env _ _ _ := .of_prompted (.completed hreply (.said _ hpath))
    exact ⟨m', hfirst.trans hlater, hstopped'⟩

/-- The records of an outcome. -/
def Outcome.workflow (o : Outcome) : List Record :=
  match o.result with
  | .ok result => result.workflow
  | .error (.runFailed _ workflow) => workflow
  | .error _ => []

/-- The outcome of a run tells where its course ended. -/
theorem outcome_path (env : Setting) (transcript : List Message) :
    ∃ log m t, ∃ r : Except ServiceError String,
      Path env { transcript := transcript } log m ∧ Stopped env m r t ∧
        (env.outcome transcript).calls = t.calls ∧
        (env.outcome transcript).workflow = m.workflow := by
  rcases h : env.run.run.run { transcript := transcript } with ⟨r, t⟩
  obtain ⟨log, hcourse⟩ := iterate_course h
  obtain ⟨m, hpath, hstopped⟩ := hcourse.path
  refine ⟨log, m, t, r, hpath, hstopped, ?_⟩
  rw [← hstopped.workflow_eq, Setting.outcome, h]
  cases r with
  | ok answer => exact ⟨rfl, rfl⟩
  | error e => exact ⟨rfl, rfl⟩

end CorpusAgent.Retrieval
