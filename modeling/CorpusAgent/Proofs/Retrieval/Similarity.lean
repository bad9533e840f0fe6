import CorpusAgent.Proofs.Retrieval.Lockstep
import CorpusAgent.Retrieval.Script
import CorpusAgent.Retrieval.Service

/-!
# Runs with similar tool calls

Two runs on one corpus, whose model asks for similar tool calls.

* `Similarity`: when two tool calls are similar, and when their arguments are.
* `StateAlike`, `CallAlike`, `RepliesAlike`: what similar tool calls make alike of states, calls of
  collaborators and replies.
* `script_agrees`: scripts with similar completions give like replies.
* `iterate_inStep`: the two runs go in step if similar searches by metadata have the same filter.
* `outcome_alike`: so their outcomes are alike.
-/

namespace CorpusAgent.Retrieval

/-- When tool calls and their arguments are similar.  Only those of searches by metadata may
differ. -/
structure Similarity where
  calls : ToolCall → ToolCall → Prop
  args : Tool → Arguments → Arguments → Prop
  refl : ∀ c, calls c c
  args_refl : ∀ tool a, args tool a a
  id : ∀ {c d}, calls c d → c.id = d.id
  name : ∀ {c d}, calls c d → c.name = d.name
  arguments : ∀ {c d tool}, calls c d → Tool.ofName? c.name = some tool →
    ResultAlike (args tool) (Retrieval.arguments c) (Retrieval.arguments d)
  same : ∀ {tool a b}, args tool a b → tool ≠ .metadata → a = b

section

variable (S : Similarity)

structure CompletionAlike (a b : Completion) : Prop where
  content : a.content = b.content
  calls : List.Forall₂ S.calls a.calls b.calls

inductive MessageAlike : Message → Message → Prop
  | plain (role : Role) (text : String) : MessageAlike (.plain role text) (.plain role text)
  | calls (content : Option String) {cs ds : List ToolCall} (h : List.Forall₂ S.calls cs ds) :
    MessageAlike (.calls content cs) (.calls content ds)
  | result (id text : String) : MessageAlike (.result id text) (.result id text)

/-- Requests for completions may differ in the transcript; all other calls are the same. -/
inductive CallAlike : Call → Call → Prop
  | complete {transcript transcript' : List Message} (tools : List ToolSpec) (force : Bool)
    (h : List.Forall₂ (MessageAlike S) transcript transcript') :
    CallAlike (.complete transcript tools force) (.complete transcript' tools force)
  | other {c : Call} (h : c.isComplete = false) : CallAlike c c

structure RecordAlike (a b : Record) : Prop where
  iteration : a.iteration = b.iteration
  tool : a.tool = b.tool
  arguments : S.args a.tool a.arguments b.arguments
  summary : a.summary = b.summary

structure StateAlike (s t : RunState) : Prop where
  calls : List.Forall₂ (CallAlike S) s.calls t.calls
  transcript : List.Forall₂ (MessageAlike S) s.transcript t.transcript
  documents : s.documents = t.documents
  filter : s.filter = t.filter
  passages : s.passages = t.passages
  workflow : List.Forall₂ (RecordAlike S) s.workflow t.workflow

/-- The replies of two sets of collaborators are alike: completions may differ in similar tool
calls, and all other replies are the same. -/
def RepliesAlike (m n : Collaborators) (before : List Call) (c : Call) (before' : List Call)
    (d : Call) : Prop :=
  match c, d with
  | .complete t tools force, .complete t' tools' force' =>
    ResultAlike (CompletionAlike S) (m.complete before t tools force)
      (n.complete before' t' tools' force')
  | .embed model texts, .embed model' texts' =>
    m.embed before model texts = n.embed before' model' texts'
  | .countDocuments graph p, .countDocuments graph' p' =>
    m.countDocuments before graph p = n.countDocuments before' graph' p'
  | .searchDocuments graph v limit, .searchDocuments graph' v' limit' =>
    m.searchDocuments before graph v limit = n.searchDocuments before' graph' v' limit'
  | .searchChunks q, .searchChunks q' => m.searchChunks before q = n.searchChunks before' q'
  | _, _ => True

/-- The results of two requests are alike: their records may differ in similar arguments. -/
inductive AnswerAlike : Except ServiceError Result → Except ServiceError Result → Prop
  | refused (e : ServiceError) : AnswerAlike (.error e) (.error e)
  | ok {content : String} {sources : List Passage} {workflow workflow' : List Record}
    (h : List.Forall₂ (RecordAlike S) workflow workflow') :
    AnswerAlike (.ok ⟨content, sources, workflow⟩) (.ok ⟨content, sources, workflow'⟩)
  | failed {text : String} {workflow workflow' : List Record}
    (h : List.Forall₂ (RecordAlike S) workflow workflow') :
    AnswerAlike (.error (.runFailed text workflow)) (.error (.runFailed text workflow'))

structure OutcomeAlike (o o' : Outcome) : Prop where
  calls : List.Forall₂ (CallAlike S) o.calls o'.calls
  result : AnswerAlike S o.result o'.result

end

variable {S : Similarity}

theorem outcome_calls (env : Setting) (start : List Message) :
    (env.outcome start).calls = (env.run.run.run { transcript := start }).2.calls := by
  rw [Setting.outcome]
  rcases env.run.run.run { transcript := start } with ⟨e | answer, t⟩ <;> rfl

/-! ### What is alike to itself -/

theorem forall₂_refl {α : Type} {R : α → α → Prop} (h : ∀ a, R a a) (l : List α) :
    List.Forall₂ R l l := List.forall₂_same.mpr fun a _ => h a

theorem CompletionAlike.refl (a : Completion) : CompletionAlike S a a :=
  ⟨rfl, forall₂_refl S.refl _⟩

theorem MessageAlike.refl (m : Message) : MessageAlike S m m := by
  cases m with
  | plain role text => exact .plain role text
  | calls content requests => exact .calls content (forall₂_refl S.refl requests)
  | result id text => exact .result id text

theorem CallAlike.refl (c : Call) : CallAlike S c c := by
  cases c with
  | complete transcript tools force =>
    exact .complete tools force (forall₂_refl MessageAlike.refl _)
  | embed | countDocuments | searchDocuments | searchChunks => exact .other rfl

theorem RecordAlike.refl (r : Record) : RecordAlike S r r := ⟨rfl, rfl, S.args_refl _ _, rfl⟩

theorem StateAlike.refl (s : RunState) : StateAlike S s s :=
  ⟨forall₂_refl CallAlike.refl _, forall₂_refl MessageAlike.refl _, rfl, rfl, rfl,
    forall₂_refl RecordAlike.refl _⟩

/-! ### What keeps states alike -/

namespace StateAlike

variable {s t : RunState}

theorem asked (h : StateAlike S s t) {c d : Call} (hcalls : CallAlike S c d) :
    StateAlike S (s.asked c) (t.asked d) :=
  { h with calls := List.rel_append h.calls (.cons hcalls .nil) }

theorem said (h : StateAlike S s t) {a b : Message} (hmessage : MessageAlike S a b) :
    StateAlike S { s with transcript := s.transcript ++ [a] }
      { t with transcript := t.transcript ++ [b] } :=
  { h with transcript := List.rel_append h.transcript (.cons hmessage .nil) }

theorem recorded (h : StateAlike S s t) {a b : Record} (hrecord : RecordAlike S a b) :
    StateAlike S { s with workflow := s.workflow ++ [a] }
      { t with workflow := t.workflow ++ [b] } :=
  { h with workflow := List.rel_append h.workflow (.cons hrecord .nil) }

end StateAlike

/-- Runs whose collaborators differ at most in similar tool calls. -/
abbrev Similarity.comparison (S : Similarity) (m n : Collaborators) : Comparison where
  states := StateAlike S
  calls := CallAlike S
  replies := RepliesAlike S m n
  refl := StateAlike.refl
  history := StateAlike.calls
  asked := fun h hcalls => h.asked hcalls

/-! ### Scripted replies -/

theorem reply_alike {α : Type} {R : α → α → Prop} {xs ys : List α} {x y : α}
    (h : List.Forall₂ R xs ys) (hempty : R x y) (before : Nat) :
    R (Script.reply xs x before) (Script.reply ys y before) := by
  rw [Script.reply, Script.reply, h.length_eq]
  generalize min before (ys.length - 1) = i
  induction h generalizing i with
  | nil => exact hempty
  | cons hfirst _ ih =>
    cases i with
    | zero => exact hfirst
    | succ i => exact ih i

/-- Calls that are alike are of the same kind. -/
theorem countP_alike (kind : Call → Bool)
    (hkind : ∀ transcript transcript' tools force,
      kind (.complete transcript tools force) = kind (.complete transcript' tools force))
    {calls calls' : List Call} (h : List.Forall₂ (CallAlike S) calls calls') :
    calls.countP kind = calls'.countP kind := by
  induction h with
  | nil => rfl
  | @cons c d calls calls' hfirst _ ih =>
    have hsame : kind c = kind d := by
      cases hfirst with
      | complete tools force => exact hkind _ _ tools force
      | other => rfl
    rw [List.countP_cons, List.countP_cons, ih, hsame]

/-- Scripts whose completions differ at most in similar tool calls give like replies. -/
theorem script_agrees (s : Script) {completions : List (Except ServiceError Completion)}
    (h : List.Forall₂ (ResultAlike (CompletionAlike S)) s.completions completions)
    (calls more : List Call) :
    (S.comparison s.collaborators
      { s with completions := completions : Script }.collaborators).Agrees calls more := by
  intro before c before' d _ _ hbefore hcalls
  cases hcalls with
  | complete tools force =>
    have hcount := countP_alike Call.isComplete (fun _ _ _ _ => rfl) hbefore
    show ResultAlike (CompletionAlike S) (Script.reply s.completions _ _)
      (Script.reply completions _ _)
    rw [hcount]
    exact reply_alike h (.error _) _
  | other hquiet =>
    cases c with
    | complete => cases hquiet
    | embed =>
      have hcount := countP_alike Call.isEmbed (fun _ _ _ _ => rfl) hbefore
      exact congrArg (Script.reply s.embeddings _) hcount
    | countDocuments =>
      have hcount := countP_alike Call.isCountDocuments (fun _ _ _ _ => rfl) hbefore
      exact congrArg (Script.reply s.counts _) hcount
    | searchDocuments =>
      have hcount := countP_alike Call.isSearchDocuments (fun _ _ _ _ => rfl) hbefore
      exact congrArg (Script.reply s.documents _) hcount
    | searchChunks =>
      have hcount := countP_alike Call.isSearchChunks (fun _ _ _ _ => rfl) hbefore
      exact congrArg (Script.reply s.passages _) hcount

/-! ### Tools -/

section

variable {c : Corpus} {f g : Option Filter} {m n : Collaborators}

theorem say_inStep {a b : Message} (h : MessageAlike S a b) :
    InStep (S.comparison m n) Eq (say a) (say b) :=
  .change (fun _ => rfl) (fun _ => rfl) fun _ _ hst => hst.said h

theorem ask_inStep {α : Type} {call : Call} {reply reply' : List Call → Except ServiceError α}
    (hquiet : call.isComplete = false)
    (hreply : ∀ before before', RepliesAlike S m n before call before' call →
      reply before = reply' before') :
    InStep (S.comparison m n) Eq (ask call reply) (ask call reply') :=
  .call (.other hquiet) fun before before' h =>
    hreply before before' h ▸ ResultAlike.refl (fun _ => rfl) _

theorem text_inStep (tool : Tool) (name : String) (args : Arguments) :
    InStep (S.comparison m n) Eq (obeyed (requiredText tool name args))
      (obeyed (requiredText tool name args)) :=
  .rule (ResultAlike.refl (fun _ => rfl) _)

theorem embed_inStep (query : String) :
    InStep (S.comparison m n) Eq (Setting.embed ⟨c, f, m⟩ query)
      (Setting.embed ⟨c, g, n⟩ query) := by
  refine .bind_eq (ask_inStep rfl fun _ _ h => h) fun vectors => ?_
  cases vectors with
  | nil => exact .failure _
  | cons vector rest => exact .value rfl

theorem findChunks_inStep (args : Arguments) :
    InStep (S.comparison m n) Eq (Setting.findChunks ⟨c, f, m⟩ args)
      (Setting.findChunks ⟨c, g, n⟩ args) := by
  rw [findChunks_eq, findChunks_eq]
  refine .bind_eq (text_inStep ..) fun query => ?_
  refine .bind_eq (embed_inStep query) fun vector => ?_
  refine .bind StateAlike.refl .state fun s t hst => ?_
  -- the restrictions of the two searches are the same
  have hsearch : Setting.chunkQuery ⟨c, f, m⟩ args s vector =
      Setting.chunkQuery ⟨c, g, n⟩ args t vector := by
    rw [Setting.chunkQuery, Setting.chunkQuery, hst.documents, hst.filter]
  rw [hsearch]
  refine .bind_eq (ask_inStep rfl fun _ _ h => h) fun hits => ?_
  refine .bind_eq (.change (fun _ => rfl) (fun _ => rfl) fun _ _ h => ?_) fun _ => ?_
  · exact { h with passages := congrArg (· ++ _) h.passages }
  · refine .value ?_
    rw [Step.chunks, Step.chunks, hst.documents, hst.filter]
    rfl

theorem findBySummary_inStep (args : Arguments) :
    InStep (S.comparison m n) Eq (Setting.findBySummary ⟨c, f, m⟩ args)
      (Setting.findBySummary ⟨c, g, n⟩ args) := by
  rw [findBySummary_eq, findBySummary_eq]
  refine .bind_eq (text_inStep ..) fun query => ?_
  refine .bind_eq (embed_inStep query) fun vector => ?_
  refine .bind_eq (ask_inStep rfl fun _ _ h => h) fun hits => ?_
  refine .bind_eq (.change (fun _ => rfl) (fun _ => rfl) fun _ _ h => ?_) fun _ => ?_
  · exact { h with documents := rfl }
  · exact .value rfl

/-- Searches by metadata go in step if they have the same filter. -/
theorem findByMetadata_inStep {a b : Arguments}
    (hfilter : Setting.effectiveFilter ⟨c, f, m⟩ a = Setting.effectiveFilter ⟨c, g, n⟩ b) :
    InStep (S.comparison m n) Eq (Setting.findByMetadata ⟨c, f, m⟩ a)
      (Setting.findByMetadata ⟨c, g, n⟩ b) := by
  rw [Setting.findByMetadata, Setting.findByMetadata, hfilter]
  cases Setting.effectiveFilter ⟨c, g, n⟩ b with
  | none => exact .value rfl
  | some filter =>
    refine .bind_eq (ask_inStep rfl fun _ _ h => h) fun count => ?_
    refine .bind_eq (.change (fun _ => rfl) (fun _ => rfl) fun _ _ h => ?_) fun _ => ?_
    · exact { h with filter := rfl }
    · exact .value rfl

theorem complete_inStep (tools : List ToolSpec) :
    InStep (S.comparison m n) (CompletionAlike S) (Setting.complete ⟨c, f, m⟩ tools)
      (Setting.complete ⟨c, g, n⟩ tools) :=
  .bind StateAlike.refl .state fun _ _ hst =>
    .call (.complete tools _ hst.transcript) fun _ _ h => h

/-! ### Runs -/

variable (hfilter : ∀ a b, S.args .metadata a b →
  Setting.effectiveFilter ⟨c, f, m⟩ a = Setting.effectiveFilter ⟨c, g, n⟩ b)

include hfilter

theorem perform_inStep {tool : Tool} {a b : Arguments} (h : S.args tool a b) :
    InStep (S.comparison m n) Eq (Setting.perform ⟨c, f, m⟩ tool a)
      (Setting.perform ⟨c, g, n⟩ tool b) := by
  cases tool with
  | exit =>
    obtain rfl := S.same h nofun
    exact .bind_eq (text_inStep ..) fun answer => .value rfl
  | chunks =>
    obtain rfl := S.same h nofun
    exact findChunks_inStep a
  | summaries =>
    obtain rfl := S.same h nofun
    exact findBySummary_inStep a
  | metadata => exact findByMetadata_inStep (hfilter a b h)

theorem call_inStep {iteration : Nat} {tool : Tool} {request request' : ToolCall}
    (h : S.calls request request') (hname : Tool.ofName? request.name = some tool) :
    InStep (S.comparison m n) Eq (Setting.call ⟨c, f, m⟩ iteration tool request)
      (Setting.call ⟨c, g, n⟩ iteration tool request') := by
  refine .bind (S.args_refl tool) (.rule (S.arguments h hname)) fun a b hargs => ?_
  refine .bind_eq (perform_inStep hfilter hargs) fun step => ?_
  refine .bind_eq (.change (fun _ => rfl) (fun _ => rfl) fun _ _ hst => ?_) fun _ => .value rfl
  exact hst.recorded ⟨rfl, rfl, hargs, rfl⟩

/-- Similar tool calls are carried out in step. -/
theorem dispatch_inStep {iteration : Nat} {offered : List ToolSpec}
    {requests requests' : List ToolCall} (h : List.Forall₂ S.calls requests requests') :
    InStep (S.comparison m n) Eq (Setting.dispatch ⟨c, f, m⟩ iteration offered requests)
      (Setting.dispatch ⟨c, g, n⟩ iteration offered requests') := by
  induction h with
  | nil => exact .value rfl
  | @cons request request' rest rest' hfirst _ ih =>
    rw [Setting.dispatch, Setting.dispatch, ← S.name hfirst, ← S.id hfirst]
    cases hname : Tool.ofName? request.name with
    | none => exact .failure _
    | some tool =>
      by_cases hoffered : (offered.any fun spec => spec.name == tool.name) = true
      · simp only [hoffered, if_true]
        refine .bind_eq (call_inStep hfilter hfirst hname) fun step => ?_
        cases step with
        | answer answer => exact .value rfl
        | result result summary =>
          exact .bind_eq (say_inStep (.result ..)) fun _ => ih
      · simp only [hoffered, Bool.false_eq_true, if_false]
        exact .value rfl

theorem iteration_inStep {total toCome : Nat} {words : Option String}
    {next next' : Option String → RunM String}
    (hnext : ∀ words, InStep (S.comparison m n) Eq (next words) (next' words)) :
    InStep (S.comparison m n) Eq (Setting.iteration ⟨c, f, m⟩ total toCome words next)
      (Setting.iteration ⟨c, g, n⟩ total toCome words next') := by
  have hcomplete : InStep (S.comparison m n) (CompletionAlike S)
      (Setting.complete ⟨c, f, m⟩ (Setting.offered ⟨c, f, m⟩ toCome))
      (Setting.complete ⟨c, g, n⟩ (Setting.offered ⟨c, g, n⟩ toCome)) := complete_inStep _
  refine .bind CompletionAlike.refl hcomplete fun a b hab => ?_
  obtain ⟨hcontent, hcalls⟩ := hab
  have hempty : a.calls.isEmpty = b.calls.isEmpty := by
    rw [Bool.eq_iff_iff, List.isEmpty_iff, List.isEmpty_iff, ← List.length_eq_zero_iff,
      ← List.length_eq_zero_iff, hcalls.length_eq]
  rw [hcontent, hempty]
  by_cases hnone : b.calls.isEmpty = true
  · simp only [hnone, if_true]
    exact .value rfl
  · simp only [hnone, Bool.false_eq_true, if_false]
    refine .bind_eq (say_inStep (.calls _ hcalls)) fun _ => ?_
    refine .bind_eq (dispatch_inStep hfilter hcalls) fun ending => ?_
    cases ending with
    | complete => exact hnext _
    | answer answer => exact .value rfl
    | withheld => exact .value rfl

theorem iterate_inStep {total toCome : Nat} {words : Option String} :
    InStep (S.comparison m n) Eq (Setting.iterate ⟨c, f, m⟩ total toCome words)
      (Setting.iterate ⟨c, g, n⟩ total toCome words) := by
  induction toCome generalizing words with
  | zero => exact .value rfl
  | succ toCome ih =>
    rw [Setting.iterate, Setting.iterate]
    by_cases hlast : toCome = 0
    · rw [if_pos hlast, if_pos hlast]
      refine .bind_eq (say_inStep (.plain ..)) fun _ => ?_
      exact iteration_inStep hfilter fun words => ih
    · rw [if_neg hlast, if_neg hlast]
      exact iteration_inStep hfilter fun words => ih

/-- Two runs on a corpus, on behalf of callers whose filters may differ. -/
theorem outcome_alike {start : List Message}
    (hagrees : (S.comparison m n).Agrees (Setting.outcome ⟨c, f, m⟩ start).calls
      (Setting.outcome ⟨c, g, n⟩ start).calls) :
    OutcomeAlike S (Setting.outcome ⟨c, f, m⟩ start) (Setting.outcome ⟨c, g, n⟩ start) := by
  have hstep : InStep (S.comparison m n) Eq (Setting.run ⟨c, f, m⟩) (Setting.run ⟨c, g, n⟩) :=
    iterate_inStep hfilter
  rw [outcome_calls, outcome_calls] at hagrees
  obtain ⟨hresult, hstates⟩ := hstep.alike _ _ (StateAlike.refl _) hagrees
  refine ⟨?_, ?_⟩
  · rw [outcome_calls, outcome_calls]
    exact hstates.calls
  · rw [Setting.outcome, Setting.outcome]
    rcases hleft : (Setting.run ⟨c, f, m⟩).run.run { transcript := start } with ⟨r, s⟩
    rcases hright : (Setting.run ⟨c, g, n⟩).run.run { transcript := start } with ⟨r', t⟩
    rw [hleft, hright] at hresult hstates
    obtain rfl := hresult.eq
    cases r with
    | ok answer =>
      have hstates : StateAlike S s t := hstates
      have hsources : result c answer s = ⟨(result c answer t).content, (result c answer t).sources,
          s.workflow⟩ := by
        rw [result, result, hstates.passages]
      have hok : AnswerAlike S (.ok (result c answer s)) (.ok (result c answer t)) :=
        hsources ▸ .ok hstates.workflow
      exact hok
    | error e => exact .failed hstates.workflow

end

end CorpusAgent.Retrieval
