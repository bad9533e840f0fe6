import CorpusAgent.Proofs.Retrieval.Path

/-!
# Histories of calls

What can be read off the calls that a run made of its collaborators.

* `Throughout`: each call has a property together with the calls before it.
* `Collaborators.completions`: the completions that the model replied with.
* `Collaborators.Succeeds`, `Collaborators.AllSucceed`: calls bring what the run needs.
* `retrieve_cases`: a request is refused before any call, or a run is carried out for it.
-/

namespace CorpusAgent.Retrieval

/-- Each of the calls has a property together with those before it. -/
def Throughout (P : List Call → Call → Prop) (calls : List Call) : Prop :=
  ∀ before call after, calls = before ++ call :: after → P before call

section

variable {P Q : List Call → Call → Prop} {calls more : List Call} {call : Call}

theorem throughout_nil : Throughout P [] := by
  intro before call after h
  exact absurd h.symm (by simp)

theorem throughout_cons_iff :
    Throughout P (call :: calls) ↔
      P [] call ∧ Throughout (fun before => P (call :: before)) calls := by
  constructor
  · intro h
    refine ⟨h [] call calls rfl, fun before c after hcalls => ?_⟩
    exact h (call :: before) c after (congrArg (call :: ·) hcalls)
  · rintro ⟨hcall, hrest⟩ before c after h
    cases before with
    | nil =>
      obtain ⟨rfl, -⟩ := List.cons.inj h
      exact hcall
    | cons first before =>
      obtain ⟨rfl, hcalls⟩ := List.cons.inj h
      exact hrest before c after hcalls

theorem throughout_append_iff :
    Throughout P (calls ++ more) ↔
      Throughout P calls ∧ Throughout (fun before => P (calls ++ before)) more := by
  induction calls generalizing P with
  | nil => exact ⟨fun h => ⟨throughout_nil, h⟩, And.right⟩
  | cons call calls ih =>
    rw [List.cons_append, throughout_cons_iff, throughout_cons_iff, ih, and_assoc]
    rfl

theorem throughout_singleton_iff : Throughout P [call] ↔ P [] call := by
  rw [throughout_cons_iff, and_iff_left throughout_nil]

theorem Throughout.mono (h : Throughout P calls)
    (hmono : ∀ before call, P before call → Q before call) : Throughout Q calls :=
  fun before call after hcalls => hmono _ _ (h before call after hcalls)

theorem throughout_of_forall (h : ∀ call ∈ calls, ∀ before, P before call) :
    Throughout P calls := by
  rintro before call after rfl
  exact h call (List.mem_append_right _ List.mem_cons_self) before

end

namespace Collaborators

variable (c : Collaborators)

/-- The completion that the reply to a call brings, after a history of calls. -/
def completion? (earlier : List Call) : Call → Option Completion
  | .complete transcript tools force => (c.complete earlier transcript tools force).toOption
  | _ => none

/-- The completions that the replies to calls bring, after a history of calls. -/
def completions (earlier : List Call) : List Call → List Completion
  | [] => []
  | call :: rest => (c.completion? earlier call).toList ++ completions (earlier ++ [call]) rest

/-- A call brings what a run needs: a reply, and to the embedding of a query also a vector. -/
def Succeeds (earlier : List Call) : Call → Prop
  | .complete transcript tools force => (c.complete earlier transcript tools force).isOk
  | .embed model texts => ∃ vector rest, c.embed earlier model texts = .ok (vector :: rest)
  | .countDocuments graph filter => (c.countDocuments earlier graph filter).isOk
  | .searchDocuments graph vector limit => (c.searchDocuments earlier graph vector limit).isOk
  | .searchChunks query => (c.searchChunks earlier query).isOk

/-- Calls after a history all succeed. -/
def AllSucceed (earlier calls : List Call) : Prop :=
  Throughout (fun before call => c.Succeeds (earlier ++ before) call) calls

variable {c} in
theorem allSucceed_append_iff {earlier calls more : List Call} :
    c.AllSucceed earlier (calls ++ more) ↔
      c.AllSucceed earlier calls ∧ c.AllSucceed (earlier ++ calls) more := by
  simp only [AllSucceed, throughout_append_iff, List.append_assoc]

variable {c} in
theorem allSucceed_singleton_iff {earlier : List Call} {call : Call} :
    c.AllSucceed earlier [call] ↔ c.Succeeds earlier call := by
  rw [AllSucceed, throughout_singleton_iff, List.append_nil]

theorem completions_append (earlier calls more : List Call) :
    c.completions earlier (calls ++ more) =
      c.completions earlier calls ++ c.completions (earlier ++ calls) more := by
  induction calls generalizing earlier with
  | nil => rw [List.append_nil]; rfl
  | cons call calls ih =>
    rw [List.cons_append, completions, completions, ih, List.append_assoc, List.append_assoc]
    rfl

/-- Only requests for completions bring completions. -/
theorem completions_eq_nil {earlier calls : List Call} (h : Quiet calls) :
    c.completions earlier calls = [] := by
  induction calls generalizing earlier with
  | nil => rfl
  | cons call calls ih =>
    obtain ⟨hcall, hcalls⟩ := List.forall_mem_cons.mp h
    rw [completions, ih hcalls, List.append_nil]
    cases call with
    | complete => cases hcall
    | _ => rfl

theorem completions_length_le (earlier calls : List Call) :
    (c.completions earlier calls).length ≤ calls.countP Call.isComplete := by
  induction calls generalizing earlier with
  | nil => exact Nat.le_refl _
  | cons call calls ih =>
    have hrest := ih (earlier ++ [call])
    have hcall : (c.completion? earlier call).toList.length ≤ if call.isComplete then 1 else 0 := by
      cases call with
      | complete => exact Option.length_toList_le
      | _ => exact Nat.le_refl _
    rw [completions, List.length_append, List.countP_cons]
    omega

end Collaborators

theorem Quiet.countP_eq_zero {calls : List Call} (h : Quiet calls) :
    calls.countP Call.isComplete = 0 := by
  rw [List.countP_eq_zero]
  intro call hcall
  rw [h call hcall]
  exact Bool.false_ne_true

section

variable {env : Setting} {s : RunState} {toCome : Nat}

theorem Quiet.countP_request {made : List Call} (h : Quiet made) :
    (env.request toCome s :: made).countP Call.isComplete = 1 := by
  rw [List.countP_cons, h.countP_eq_zero]
  rfl

/-- A request that is answered brings its completion first. -/
theorem completions_answered {completion : Completion}
    (hreply : env.reply toCome s = .ok completion) (calls : List Call) :
    env.collaborators.completions s.calls (env.request toCome s :: calls) =
      completion :: env.collaborators.completions (s.calls ++ [env.request toCome s]) calls := by
  have hcompletion : env.collaborators.completion? s.calls (env.request toCome s) =
      some completion := congrArg Except.toOption hreply
  rw [Collaborators.completions, hcompletion]
  rfl

theorem completions_unanswered {e : ServiceError} (hreply : env.reply toCome s = .error e) :
    env.collaborators.completions s.calls [env.request toCome s] = [] := by
  have hcompletion : env.collaborators.completion? s.calls (env.request toCome s) = none :=
    congrArg Except.toOption hreply
  rw [Collaborators.completions, hcompletion]
  rfl

end

/-! ### Runs of requests -/

/-- A request for which there is no run: its corpus does not exist, or its conversation is empty or
contains the result of a tool. -/
def Request.Refused (corpora : List Corpus) (r : Request) : Prop :=
  (∀ c ∈ corpora, c.id ≠ r.corpusId) ∨ r.messages = [] ∨ ∃ m ∈ r.messages, m.role = .tool

/-- The messages at the beginning of a run: the system prompt and the conversation so far. -/
def conversation (c : Corpus) (messages : List ChatMessage) : List Message :=
  .plain .system (c.systemPrompt.getD defaultPrompt) ::
    messages.map fun m => .plain m.role m.content

/-- A request is refused before any call, or a run is carried out for it. -/
theorem retrieve_cases (corpora : List Corpus) (collaborators : Collaborators) (r : Request) :
    (r.Refused corpora ∧ (retrieve corpora collaborators r).calls = []) ∨
      ∃ c ∈ corpora, c.id = r.corpusId ∧ (∀ m ∈ r.messages, m.role ≠ .tool) ∧
        retrieve corpora collaborators r =
          Setting.outcome ⟨c, lenientFilter r.filter, collaborators⟩
            (conversation c r.messages) := by
  rw [retrieve]
  cases hc : corpora.find? fun c => c.id == r.corpusId with
  | none =>
    have hnone : ∀ c ∈ corpora, c.id ≠ r.corpusId := by
      simpa using List.find?_eq_none.mp hc
    exact .inl ⟨.inl hnone, rfl⟩
  | some c =>
    simp only [opening]
    by_cases hempty : r.messages.isEmpty = true
    · rw [if_pos hempty]
      exact .inl ⟨.inr (.inl (List.isEmpty_iff.mp hempty)), rfl⟩
    rw [if_neg hempty]
    by_cases htool : (r.messages.any fun m => m.role = .tool) = true
    · rw [if_pos htool]
      exact .inl ⟨.inr (.inr (by simpa using htool)), rfl⟩
    · rw [if_neg htool]
      refine .inr ⟨c, List.mem_of_find?_eq_some hc, ?_, by simpa using htool, rfl⟩
      simpa using List.find?_some hc

/-- The iterations that a run may take. -/
def Setting.iterations (env : Setting) : Nat := env.corpus.run.maxIterations.toNat

/-- A run has a course, and its outcome tells how it ended. -/
theorem outcome_course (env : Setting) (start : List Message) :
    ∃ log r t, Course env env.iterations env.iterations none { transcript := start } log r t ∧
      env.run.run.run { transcript := start } = (r, t) ∧
      (env.outcome start).calls = t.calls ∧
      ((∃ result, (env.outcome start).result = .ok result ∧ result.workflow = t.workflow ∧
          r.isOk = true) ∨
        ∃ text, (env.outcome start).result = .error (.runFailed text t.workflow) ∧
          r.isOk = false) := by
  rcases h : env.run.run.run { transcript := start } with ⟨r, t⟩
  obtain ⟨log, hcourse⟩ := iterate_course h
  refine ⟨log, r, t, hcourse, rfl, ?_⟩
  rw [Setting.outcome, h]
  cases r with
  | ok answer => exact ⟨rfl, .inl ⟨_, rfl, rfl, rfl⟩⟩
  | error e => exact ⟨rfl, .inr ⟨_, rfl, rfl⟩⟩

end CorpusAgent.Retrieval
