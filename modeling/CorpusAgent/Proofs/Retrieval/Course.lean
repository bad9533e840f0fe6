import CorpusAgent.Proofs.Retrieval.Tools
import CorpusAgent.Retrieval.Run
import CorpusAgent.Retrieval.Script

/-!
# What a run does

A run as a tree of what happens in it, with everything that a case depends on.

* `Completed`, `Failed`: a tool call that comes to a step, and one that does not.
* `Dispatched`: how the tool calls of a completion are carried out one after the other.
* `Course`: how the iterations follow one another.
* `Dispatched.exists_quiet`: the tool calls of a completion ask for no other completion.
* `iterate_course`: every run has a course.
-/

namespace CorpusAgent.Retrieval

/-- A completed tool call: its record, the calls of collaborators before it and its own ones. -/
structure ToolRun where
  record : Record
  earlier : List Call
  made : List Call

/-- The calls of collaborators up to the end of the tool call. -/
def ToolRun.calls (run : ToolRun) : List Call := run.earlier ++ run.made

/-- The state after a message. -/
def RunState.said (s : RunState) (message : Message) : RunState :=
  { s with transcript := s.transcript ++ [message] }

/-- The state in which the model is asked when so many more iterations are to come. -/
def RunState.prompted (s : RunState) (toCome : Nat) : RunState :=
  if toCome = 0 then s.said (.plain .system finalPrompt) else s

namespace Setting

variable (env : Setting) (toCome : Nat) (s : RunState)

/-- The request for a completion. -/
def request : Call :=
  .complete s.transcript (env.offered toCome) (!(env.offered toCome).isEmpty)

/-- The reply to that request. -/
def reply : Except ServiceError Completion :=
  env.collaborators.complete s.calls s.transcript (env.offered toCome)
    (!(env.offered toCome).isEmpty)

end Setting

/-- A tool is among those offered. -/
def isOffered (offered : List ToolSpec) (tool : Tool) : Bool :=
  offered.any fun spec => spec.name == tool.name

section

variable (env : Setting) (offered : List ToolSpec)

/-- A tool call that comes to a step. -/
structure Completed (iteration : Nat) (request : ToolCall) (s : RunState) (run : ToolRun)
    (step : Step) (t : RunState) : Prop where
  name : Tool.ofName? request.name = some run.record.tool
  offered : isOffered offered run.record.tool = true
  arguments : arguments request = .ok run.record.arguments
  iteration : run.record.iteration = iteration
  summary : run.record.summary = step.summary
  earlier : run.earlier = s.calls
  calls : t.calls = run.calls
  performed : Performed env run.record.arguments s run.record.tool (.ok step) t

/-- A tool call that fails. -/
inductive Failed (request : ToolCall) (s : RunState) : ServiceError → RunState → Prop
  | unknown (hname : Tool.ofName? request.name = none) :
    Failed request s (ProtocolFault.unknownTool request.name).error s
  | unreadable {tool : Tool} {fault : ProtocolFault}
    (hname : Tool.ofName? request.name = some tool) (hoffered : isOffered offered tool = true)
    (harguments : arguments request = .error fault) : Failed request s fault.error s
  | performed {tool : Tool} {args : Arguments} {e : ServiceError} {t : RunState}
    (hname : Tool.ofName? request.name = some tool) (hoffered : isOffered offered tool = true)
    (harguments : arguments request = .ok args) (h : Performed env args s tool (.error e) t) :
    Failed request s e t

/-- How tool calls are carried out one after the other, with those that were completed. -/
inductive Dispatched (iteration : Nat) : List ToolCall → RunState → List ToolRun →
    Except ServiceError Ending → RunState → Prop
  | done (s : RunState) : Dispatched iteration [] s [] (.ok .complete) s
  | withheld {request : ToolCall} {rest : List ToolCall} {s : RunState} {tool : Tool}
    (hname : Tool.ofName? request.name = some tool) (hoffered : isOffered offered tool = false) :
    Dispatched iteration (request :: rest) s [] (.ok .withheld) s
  | failed {request : ToolCall} {rest : List ToolCall} {s t : RunState} {e : ServiceError}
    (h : Failed env offered request s e t) :
    Dispatched iteration (request :: rest) s [] (.error e) t
  | exited {request : ToolCall} {rest : List ToolCall} {s m : RunState} {run : ToolRun}
    {answer : String} (h : Completed env offered iteration request s run (.answer answer) m) :
    Dispatched iteration (request :: rest) s [run] (.ok (.answer answer)) (m.recorded run.record)
  | answered {request : ToolCall} {rest : List ToolCall} {s m t : RunState} {run : ToolRun}
    {result summary : Json} {log : List ToolRun} {r : Except ServiceError Ending}
    (h : Completed env offered iteration request s run (.result result summary) m)
    (later : Dispatched iteration rest
      ((m.recorded run.record).said (.result request.id result.print)) log r t) :
    Dispatched iteration (request :: rest) s (run :: log) r t

end

section

variable (env : Setting) (total : Nat)

/-- How an iteration after which nothing comes ends, from the completion on. -/
inductive Last (toCome : Nat) (words : Option String) (completion : Completion) (s : RunState) :
    List ToolRun → Except ServiceError String → RunState → Prop
  /-- A completion without tool calls is the answer. -/
  | spoken (hcalls : completion.calls = []) :
    Last toCome words completion s [] (.ok (completion.content.getD "")) s
  | exited {log : List ToolRun} {answer : String} {t : RunState}
    (h : Dispatched env (env.offered toCome) (total - toCome) completion.calls
      (s.said (.calls completion.content completion.calls)) log (.ok (.answer answer)) t) :
    Last toCome words completion s log (.ok answer) t
  | withheld {log : List ToolRun} {t : RunState}
    (h : Dispatched env (env.offered toCome) (total - toCome) completion.calls
      (s.said (.calls completion.content completion.calls)) log (.ok .withheld) t) :
    Last toCome words completion s log (.ok ((completion.content <|> words).getD "")) t
  | failed {log : List ToolRun} {e : ServiceError} {t : RunState}
    (h : Dispatched env (env.offered toCome) (total - toCome) completion.calls
      (s.said (.calls completion.content completion.calls)) log (.error e) t) :
    Last toCome words completion s log (.error e) t

/-- How the iterations that remain follow one another, after the last words of the model, with the
tool calls that were completed. -/
inductive Course : Nat → Option String → RunState → List ToolRun → Except ServiceError String →
    RunState → Prop
  | exhausted (words : Option String) (s : RunState) : Course 0 words s [] (.ok (words.getD "")) s
  | unanswered {toCome : Nat} {words : Option String} {s : RunState} {e : ServiceError}
    (hreply : env.reply toCome (s.prompted toCome) = .error e) :
    Course (toCome + 1) words s [] (.error e)
      ((s.prompted toCome).asked (env.request toCome (s.prompted toCome)))
  | last {toCome : Nat} {words : Option String} {s t : RunState} {completion : Completion}
    {log : List ToolRun} {r : Except ServiceError String}
    (hreply : env.reply toCome (s.prompted toCome) = .ok completion)
    (h : Last env total toCome words completion
      ((s.prompted toCome).asked (env.request toCome (s.prompted toCome))) log r t) :
    Course (toCome + 1) words s log r t
  | next {toCome : Nat} {words : Option String} {s m t : RunState} {completion : Completion}
    {log later : List ToolRun} {r : Except ServiceError String}
    (hreply : env.reply toCome (s.prompted toCome) = .ok completion)
    (hcalls : completion.calls ≠ [])
    (h : Dispatched env (env.offered toCome) (total - toCome) completion.calls
      (((s.prompted toCome).asked (env.request toCome (s.prompted toCome))).said
        (.calls completion.content completion.calls)) log (.ok .complete) m)
    (rest : Course toCome (completion.content <|> words) m later r t) :
    Course (toCome + 1) words s (log ++ later) r t

end

variable {env : Setting} {s t : RunState}

namespace RunState

@[simp] theorem asked_calls (call : Call) : (s.asked call).calls = s.calls ++ [call] := rfl

@[simp] theorem asked_transcript (call : Call) : (s.asked call).transcript = s.transcript := rfl

@[simp] theorem said_calls (message : Message) : (s.said message).calls = s.calls := rfl

@[simp] theorem said_transcript (message : Message) :
    (s.said message).transcript = s.transcript ++ [message] := rfl

@[simp] theorem prompted_calls (toCome : Nat) : (s.prompted toCome).calls = s.calls := by
  unfold RunState.prompted
  split <;> rfl

end RunState

theorem name_eq_of_ofName? {tool : Tool} {name : String} (h : Tool.ofName? name = some tool) :
    tool.name = name := by
  simpa using List.find?_some h

/-! ### Calls of tools -/

/-- None of the calls is a request for a completion. -/
def Quiet (calls : List Call) : Prop := ∀ call ∈ calls, call.isComplete = false

theorem quiet_nil : Quiet [] := List.forall_mem_nil _

theorem Quiet.append {calls more : List Call} (h : Quiet calls) (g : Quiet more) :
    Quiet (calls ++ more) := List.forall_mem_append.mpr ⟨h, g⟩

theorem Performed.exists_quiet {args : Arguments} {tool : Tool} {r : Except ServiceError Step}
    (h : Performed env args s tool r t) : ∃ made, t.calls = s.calls ++ made ∧ Quiet made := by
  cases h with
  | refused | exited | unfiltered => exact ⟨[], (List.append_nil _).symm, quiet_nil⟩
  | unembedded | countFailed | counted => exact ⟨_, rfl, List.forall_mem_singleton.mpr rfl⟩
  | chunksFailed | chunks | summariesFailed | summaries =>
    refine ⟨[_, _], List.append_assoc .., List.forall_mem_cons.mpr ⟨rfl, ?_⟩⟩
    exact List.forall_mem_singleton.mpr rfl

/-- A tool adds its calls to those before. -/
theorem Performed.exists_calls {args : Arguments} {tool : Tool} {r : Except ServiceError Step}
    (h : Performed env args s tool r t) : ∃ made, t.calls = s.calls ++ made := by
  obtain ⟨made, hmade, -⟩ := h.exists_quiet
  exact ⟨made, hmade⟩

theorem Completed.calls_eq {offered : List ToolSpec} {iteration : Nat} {request : ToolCall}
    {run : ToolRun} {step : Step} (h : Completed env offered iteration request s run step t) :
    t.calls = s.calls ++ run.made := by
  rw [h.calls, ToolRun.calls, h.earlier]

theorem Completed.quiet {offered : List ToolSpec} {iteration : Nat} {request : ToolCall}
    {run : ToolRun} {step : Step} (h : Completed env offered iteration request s run step t) :
    Quiet run.made := by
  obtain ⟨made, hmade, hquiet⟩ := h.performed.exists_quiet
  rw [h.calls_eq, List.append_cancel_left_eq] at hmade
  exact hmade ▸ hquiet

theorem Failed.exists_quiet {offered : List ToolSpec} {request : ToolCall} {e : ServiceError}
    (h : Failed env offered request s e t) : ∃ made, t.calls = s.calls ++ made ∧ Quiet made := by
  cases h with
  | unknown | unreadable => exact ⟨[], (List.append_nil _).symm, quiet_nil⟩
  | performed _ _ _ h => exact h.exists_quiet

/-- Carrying out the tool calls of a completion asks for no other. -/
theorem Dispatched.exists_quiet {offered : List ToolSpec} {iteration : Nat}
    {requests : List ToolCall} {log : List ToolRun} {r : Except ServiceError Ending}
    (h : Dispatched env offered iteration requests s log r t) :
    ∃ made, t.calls = s.calls ++ made ∧ Quiet made := by
  induction h with
  | done | withheld => exact ⟨[], (List.append_nil _).symm, quiet_nil⟩
  | failed h => exact h.exists_quiet
  | exited h => exact ⟨_, h.calls_eq, h.quiet⟩
  | answered h _ ih =>
    obtain ⟨made, hmade, hlater⟩ := ih
    refine ⟨_, ?_, h.quiet.append hlater⟩
    rw [hmade, ← List.append_assoc, ← h.calls_eq]
    rfl

theorem Last.exists_quiet {total toCome : Nat} {words : Option String} {completion : Completion}
    {log : List ToolRun} {r : Except ServiceError String}
    (h : Last env total toCome words completion s log r t) :
    ∃ made, t.calls = s.calls ++ made ∧ Quiet made := by
  cases h with
  | spoken => exact ⟨[], (List.append_nil _).symm, quiet_nil⟩
  | exited h | withheld h | failed h => exact h.exists_quiet

/-! ### Every run has a course -/

/-- A tool call that is carried out is completed or fails. -/
theorem call_completed {iteration : Nat} {offered : List ToolSpec} {tool : Tool}
    {request : ToolCall} {r : Except ServiceError Step}
    (hname : Tool.ofName? request.name = some tool) (hoffered : isOffered offered tool = true)
    (h : (env.call iteration tool request).run.run s = (r, t)) :
    (∃ e, r = .error e ∧ Failed env offered request s e t) ∨
      ∃ run step m, r = .ok step ∧ Completed env offered iteration request s run step m ∧
        t = m.recorded run.record := by
  rcases call_cases h with ⟨fault, hfault, rfl, rfl⟩ | ⟨args, hargs, hcase⟩
  · exact .inl ⟨_, rfl, .unreadable hname hoffered hfault⟩
  · rcases hcase with ⟨e, rfl, hperformed⟩ | ⟨step, m, rfl, hperformed, rfl⟩
    · exact .inl ⟨e, rfl, .performed hname hoffered hargs hperformed⟩
    · obtain ⟨made, hmade⟩ := hperformed.exists_calls
      refine .inr ⟨⟨⟨iteration, tool, args, step.summary⟩, s.calls, made⟩, step, m, rfl, ?_, rfl⟩
      exact ⟨hname, hoffered, hargs, rfl, rfl, rfl, hmade, hperformed⟩

theorem dispatch_dispatched {iteration : Nat} {offered : List ToolSpec} {requests : List ToolCall}
    {r : Except ServiceError Ending}
    (h : (env.dispatch iteration offered requests).run.run s = (r, t)) :
    ∃ log, Dispatched env offered iteration requests s log r t := by
  induction requests generalizing s with
  | nil =>
    obtain ⟨rfl, rfl⟩ := Prod.mk.inj h
    exact ⟨[], .done s⟩
  | cons request rest ih =>
    rw [Setting.dispatch] at h
    cases hname : Tool.ofName? request.name with
    | none =>
      rw [hname] at h
      obtain ⟨rfl, rfl⟩ := Prod.mk.inj h
      exact ⟨[], .failed (.unknown hname)⟩
    | some tool =>
      rw [hname] at h
      by_cases hoffered : isOffered offered tool = true
      · rw [isOffered] at hoffered
        simp only [hoffered, if_true] at h
        rcases bind_cases h with ⟨e, hcall, rfl⟩ | ⟨step, u, hcall, hrest⟩
        · rcases call_completed hname hoffered hcall with ⟨e', he, hfailed⟩ | ⟨_, _, _, hok, -⟩
          · obtain rfl := Except.error.inj he
            exact ⟨[], .failed hfailed⟩
          · cases hok
        · rcases call_completed hname hoffered hcall with ⟨e, he, -⟩ |
            ⟨run, step', m, hok, hcompleted, rfl⟩
          · cases he
          obtain rfl := Except.ok.inj hok
          cases step with
          | answer answer =>
            obtain ⟨rfl, rfl⟩ := Prod.mk.inj hrest
            exact ⟨[run], .exited hcompleted⟩
          | result result summary =>
            obtain ⟨log, hlater⟩ := ih hrest
            exact ⟨run :: log, .answered hcompleted hlater⟩
      · rw [Bool.not_eq_true, isOffered] at hoffered
        simp only [hoffered] at h
        obtain ⟨rfl, rfl⟩ := Prod.mk.inj h
        exact ⟨[], .withheld hname hoffered⟩

theorem complete_cases {tools : List ToolSpec} {r : Except ServiceError Completion}
    (h : (env.complete tools).run.run s = (r, t)) :
    env.collaborators.complete s.calls s.transcript tools (!tools.isEmpty) = r ∧
      t = s.asked (.complete s.transcript tools (!tools.isEmpty)) := by
  rcases bind_cases h with ⟨e, hget, -⟩ | ⟨u, m, hget, hask⟩
  · cases (Prod.mk.inj hget).1
  · obtain ⟨hu, rfl⟩ := Prod.mk.inj hget
    obtain rfl := Except.ok.inj hu
    exact ask_cases hask

/-- An iteration is the last one or goes on to the next. -/
theorem iteration_cases {total toCome : Nat} {words : Option String}
    {next : Option String → RunM String} {r : Except ServiceError String}
    (h : (env.iteration total toCome words next).run.run s = (r, t)) :
    (∃ e, r = .error e ∧ env.reply toCome s = .error e ∧ t = s.asked (env.request toCome s)) ∨
      ∃ completion, env.reply toCome s = .ok completion ∧
        ((∃ log, Last env total toCome words completion (s.asked (env.request toCome s)) log r t) ∨
          ∃ log m, completion.calls ≠ [] ∧
            Dispatched env (env.offered toCome) (total - toCome) completion.calls
              ((s.asked (env.request toCome s)).said (.calls completion.content completion.calls))
              log (.ok .complete) m ∧
            (next (completion.content <|> words)).run.run m = (r, t)) := by
  rcases bind_cases h with ⟨e, hask, rfl⟩ | ⟨completion, u, hask, hrest⟩
  · obtain ⟨hreply, rfl⟩ := complete_cases hask
    exact .inl ⟨e, rfl, hreply, rfl⟩
  obtain ⟨hreply, rfl⟩ := complete_cases hask
  refine .inr ⟨completion, hreply, ?_⟩
  by_cases hcalls : completion.calls = []
  · rw [if_pos (List.isEmpty_iff.mpr hcalls)] at hrest
    obtain ⟨rfl, rfl⟩ := Prod.mk.inj hrest
    exact .inl ⟨[], .spoken hcalls⟩
  · rw [if_neg (mt List.isEmpty_iff.mp hcalls)] at hrest
    rcases bind_cases hrest with ⟨e, hsay, -⟩ | ⟨_, w, hsay, hrest⟩
    · cases (Prod.mk.inj hsay).1
    rw [run_say] at hsay
    obtain ⟨-, rfl⟩ := Prod.mk.inj hsay
    rcases bind_cases hrest with ⟨e, hdispatch, rfl⟩ | ⟨ending, x, hdispatch, hrest⟩
    · obtain ⟨log, hdispatched⟩ := dispatch_dispatched hdispatch
      exact .inl ⟨log, .failed hdispatched⟩
    · obtain ⟨log, hdispatched⟩ := dispatch_dispatched hdispatch
      cases ending with
      | complete => exact .inr ⟨log, x, hcalls, hdispatched, hrest⟩
      | answer answer =>
        obtain ⟨rfl, rfl⟩ := Prod.mk.inj hrest
        exact .inl ⟨log, .exited hdispatched⟩
      | withheld =>
        obtain ⟨rfl, rfl⟩ := Prod.mk.inj hrest
        exact .inl ⟨log, .withheld hdispatched⟩

/-- Every run has a course. -/
theorem iterate_course {total toCome : Nat} {words : Option String}
    {r : Except ServiceError String}
    (h : (env.iterate total toCome words).run.run s = (r, t)) :
    ∃ log, Course env total toCome words s log r t := by
  induction toCome generalizing s t words r with
  | zero =>
    obtain ⟨rfl, rfl⟩ := Prod.mk.inj h
    exact ⟨[], .exhausted words s⟩
  | succ toCome ih =>
    have hiteration : (env.iteration total toCome words (env.iterate total toCome)).run.run
        (s.prompted toCome) = (r, t) := by
      rw [Setting.iterate] at h
      unfold RunState.prompted
      by_cases hlast : toCome = 0
      · rw [if_pos hlast] at h ⊢
        exact h
      · rw [if_neg hlast] at h ⊢
        exact h
    rcases iteration_cases hiteration with ⟨e, rfl, hreply, rfl⟩ | ⟨completion, hreply, hcase⟩
    · exact ⟨[], .unanswered hreply⟩
    · rcases hcase with ⟨log, hlast⟩ | ⟨log, m, hcalls, hdispatched, hrest⟩
      · exact ⟨log, .last hreply hlast⟩
      · obtain ⟨later, hcourse⟩ := ih hrest
        exact ⟨log ++ later, .next hreply hcalls hdispatched hcourse⟩

end CorpusAgent.Retrieval
