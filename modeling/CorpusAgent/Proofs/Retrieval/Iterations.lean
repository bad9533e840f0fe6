import CorpusAgent.Proofs.Retrieval.Transcript
import CorpusAgent.Proofs.Retrieval.Workflow

/-!
# The iterations of a run

* `offered_zero`: in the last iteration only `exit` is offered.
* `systemMessages`: among the messages that a run adds only the final prompt is one.
* `Course.bounded`: a course makes at most one request for a completion in each iteration.
* `Bounded`: what the iterations of a run have to do with its requests, messages and records.
* `retrieve_bounded`: every run is bounded in this way.
-/

namespace CorpusAgent.Retrieval

theorem name_beq_exit (tool : Tool) : (tool.name == Tool.exit.name) = (tool == .exit) := by
  cases tool <;> decide

/-- In the last iteration only `exit` is offered, if it is enabled. -/
theorem offered_zero (env : Setting) :
    env.offered 0 = if env.corpus.tools.exit.enabled then [env.corpus.toolSpec .exit] else [] := by
  have hname : ∀ tool, (env.corpus.toolSpec tool).name = tool.name := fun _ => rfl
  rw [Setting.offered, if_pos rfl, Corpus.offer, List.filter_map, List.filter_filter]
  simp only [Function.comp_def, hname, name_beq_exit, Tool.all]
  cases h : env.corpus.tools.exit.enabled <;> simp [Tool.isEnabled, h]

/-- The messages that are instructions for the model. -/
def systemMessages (messages : List Message) : List Message :=
  messages.filter fun m => m.role == .system

theorem systemMessages_append (messages more : List Message) :
    systemMessages (messages ++ more) = systemMessages messages ++ systemMessages more :=
  List.filter_append ..

theorem systemMessages_closing (toCome : Nat) :
    systemMessages (closing toCome) = closing toCome := by
  unfold closing
  split <;> rfl

theorem systemMessages_results (requests : List ToolCall) (texts : List String) :
    systemMessages (resultMessages requests texts) = [] := by
  induction requests generalizing texts with
  | nil => rfl
  | cons request requests ih =>
    cases texts with
    | nil => rfl
    | cons text texts => exact ih texts

theorem systemMessages_asked (completion : Completion) (texts : List String) :
    systemMessages (.calls completion.content completion.calls ::
      resultMessages completion.calls texts) = [] :=
  systemMessages_results ..

theorem systemMessages_exchanges (exchanges : List Exchange) :
    systemMessages (exchanges.flatMap Exchange.messages) = [] := by
  induction exchanges with
  | nil => rfl
  | cons x exchanges ih =>
    rw [List.flatMap_cons, systemMessages_append, ih, List.append_nil]
    exact systemMessages_results ..

/-! ### Numbers of requests -/

variable {env : Setting} {s t : RunState}

theorem Last.exists_messages {total toCome : Nat} {words : Option String} {completion : Completion}
    {log : List ToolRun} {r : Except ServiceError String}
    (h : Last env total toCome words completion s log r t) :
    ∃ added, t.transcript = s.transcript ++ added ∧ systemMessages added = [] := by
  cases h with
  | spoken => exact ⟨[], (List.append_nil _).symm, rfl⟩
  | exited h | withheld h | failed h =>
    obtain ⟨texts, htranscript, -⟩ := h.exists_results
    refine ⟨.calls completion.content completion.calls :: resultMessages completion.calls texts, ?_,
      systemMessages_asked ..⟩
    rw [htranscript]
    exact List.append_assoc ..

/-- A course makes at most one request for a completion in each iteration, and adds the final prompt
if it comes to the last one. -/
theorem Course.bounded {total toCome : Nat} {words : Option String} {log : List ToolRun}
    {r : Except ServiceError String} (h : Course env total toCome words s log r t) :
    ∃ calls added, t.calls = s.calls ++ calls ∧ t.transcript = s.transcript ++ added ∧
      calls.countP Call.isComplete ≤ toCome ∧ (0 < toCome → 0 < calls.countP Call.isComplete) ∧
      systemMessages added =
        if 0 < toCome then closing (toCome - calls.countP Call.isComplete) else [] := by
  induction h with
  | exhausted words s =>
    exact ⟨[], [], (List.append_nil _).symm, (List.append_nil _).symm, Nat.le_refl _, id, rfl⟩
  | @unanswered toCome words s e hreply =>
    exact ⟨[env.request toCome (s.prompted toCome)], closing toCome, by simp,
      s.prompted_transcript toCome, Nat.succ_le_succ (Nat.zero_le _), fun _ => Nat.one_pos,
      systemMessages_closing toCome⟩
  | @last toCome words s t completion log r hreply h =>
    obtain ⟨made, hmade, hquiet⟩ := h.exists_quiet
    obtain ⟨added, hadded, hsystem⟩ := h.exists_messages
    refine ⟨env.request toCome (s.prompted toCome) :: made, closing toCome ++ added,
      ?_, ?_, ?_, ?_, ?_⟩
    · simpa using hmade
    · simpa [RunState.prompted_transcript] using hadded
    · rw [hquiet.countP_request]
      exact Nat.succ_le_succ (Nat.zero_le _)
    · rw [hquiet.countP_request]
      exact fun _ => Nat.one_pos
    · rw [systemMessages_append, hsystem, systemMessages_closing, List.append_nil,
        hquiet.countP_request, if_pos (Nat.succ_pos _), Nat.add_sub_cancel]
  | @next toCome words s m t completion log later r hreply hrequested h _ ih =>
    obtain ⟨calls, added, hcalls, hadded, hatMost, -, hsystem⟩ := ih
    obtain ⟨made, hmade, hquiet⟩ := h.exists_quiet
    obtain ⟨texts, htexts, -⟩ := h.exists_results
    have hcount : (env.request toCome (s.prompted toCome) :: made ++ calls).countP Call.isComplete =
        calls.countP Call.isComplete + 1 := by
      rw [List.countP_append, hquiet.countP_request, Nat.add_comm]
    refine ⟨env.request toCome (s.prompted toCome) :: made ++ calls,
      closing toCome ++ (.calls completion.content completion.calls ::
        resultMessages completion.calls texts) ++ added, ?_, ?_, ?_, ?_, ?_⟩
    · simp [hcalls, hmade]
    · simp [hadded, htexts, RunState.prompted_transcript]
    · rw [hcount]
      exact Nat.succ_le_succ hatMost
    · rw [hcount]
      exact fun _ => Nat.succ_pos _
    · rw [hcount, if_pos (Nat.succ_pos _), Nat.add_sub_add_right, systemMessages_append,
        systemMessages_append, systemMessages_closing, hsystem, systemMessages_asked,
        List.append_nil]
      -- the prompt comes from this iteration if it is the last one, else from the later ones
      rcases Nat.eq_zero_or_pos toCome with rfl | hpos
      · rw [if_neg (Nat.lt_irrefl 0), List.append_nil, Nat.zero_sub]
      · rw [if_pos hpos, closing_of_pos hpos, List.nil_append]

/-! ### Numbers of records -/

theorem demands_number {first : Nat} {completions : List Completion} :
    ∀ demand ∈ demands first completions,
      first ≤ demand.number ∧ demand.number < first + completions.length := by
  induction completions generalizing first with
  | nil => exact List.forall_mem_nil _
  | cons completion completions ih =>
    rw [demands, List.forall_mem_append, List.forall_mem_map]
    constructor
    · intro call hcall
      exact ⟨Nat.le_refl _, Nat.lt_add_of_pos_right (Nat.succ_pos _)⟩
    · intro demand hdemand
      have := ih demand hdemand
      rw [List.length_cons]
      omega

theorem demands_sorted (first : Nat) (completions : List Completion) :
    (demands first completions).Pairwise fun a b => a.number ≤ b.number := by
  induction completions generalizing first with
  | nil => exact .nil
  | cons completion completions ih =>
    rw [demands, List.pairwise_append]
    refine ⟨?_, ih (first + 1), ?_⟩
    · rw [List.pairwise_map]
      exact List.pairwise_of_forall fun _ _ => Nat.le_refl _
    · rw [List.forall_mem_map]
      intro call hcall demand hdemand
      exact Nat.le_of_succ_le (demands_number demand hdemand).1

/-! ### Whole runs -/

/-- What goes with a request for a completion, by its number in the run of a corpus. -/
structure Offers (c : Corpus) (start : List Message) (number : Nat) (transcript : List Message)
    (tools : List ToolSpec) (force : Bool) : Prop where
  within : number ≤ c.run.maxIterations.toNat
  offered : tools =
    if number = c.run.maxIterations.toNat then
      if c.tools.exit.enabled then [c.toolSpec .exit] else []
    else c.offer
  forced : force = true ↔ tools ≠ []
  /-- Only the last request is made with the final prompt, which comes last. -/
  prompted : ∃ added, systemMessages added = [] ∧ transcript = start ++ added ++
    if number = c.run.maxIterations.toNat then [.plain .system finalPrompt] else []

/-- The iterations of a run from a transcript on, by its outcome. -/
structure Bounded (env : Setting) (start : List Message) (o : Outcome) : Prop where
  atMost : o.calls.countP Call.isComplete ≤ env.iterations
  atLeast : 1 ≤ env.iterations → 1 ≤ o.calls.countP Call.isComplete
  offers : ∀ before transcript tools force after,
    o.calls = before ++ .complete transcript tools force :: after →
    Offers env.corpus start (before.countP Call.isComplete + 1) transcript tools force
  /-- The final prompt is in the last transcript if there was a request in each iteration. -/
  entered : ∃ added, (env.run.run.run { transcript := start }).2.transcript = start ++ added ∧
    systemMessages added =
      if 1 ≤ env.iterations ∧ o.calls.countP Call.isComplete = env.iterations then
        [.plain .system finalPrompt]
      else []
  /-- The records have the numbers of the completions that asked for their tool calls. -/
  numbered : ∃ done, done <+: demands 1 (env.collaborators.completions [] o.calls) ∧
    List.Forall₂ Record.Meets o.workflow done
  sorted : o.workflow.Pairwise fun a b => a.iteration ≤ b.iteration
  range : ∀ record ∈ o.workflow, 1 ≤ record.iteration ∧ record.iteration ≤ env.iterations

theorem Asked.offers {exchanges : List Exchange} {start : List Message} {before : List Call}
    {transcript : List Message} {tools : List ToolSpec} {force : Bool}
    (h : Asked env env.iterations { transcript := start } exchanges before transcript tools force) :
    Offers env.corpus start (before.countP Call.isComplete + 1) transcript tools force where
  within := h.within
  offered := by
    have hwithin : before.countP Call.isComplete < env.corpus.run.maxIterations.toNat := h.within
    rw [h.offered]
    by_cases hlast : before.countP Call.isComplete + 1 = env.corpus.run.maxIterations.toNat
    · rw [if_pos hlast, ← offered_zero, hlast]
      exact congrArg _ (Nat.sub_self _)
    · rw [if_neg hlast, Setting.offered, if_neg]
      show env.corpus.run.maxIterations.toNat - (before.countP Call.isComplete + 1) ≠ 0
      omega
  forced := by
    rw [h.forced, Bool.not_eq_true', ← Bool.not_eq_true, List.isEmpty_iff]
  prompted := by
    refine ⟨_, systemMessages_exchanges (exchanges.take (before.countP Call.isComplete)), ?_⟩
    rw [h.composed, closing_sub h.within]
    rfl

/-- Demands that come first are numbered from the first completion on, in order. -/
theorem numbered_sorted {done : List Demand} {completions : List Completion}
    {workflow : List Record} (hdone : done <+: demands 1 completions)
    (h : List.Forall₂ Record.Meets workflow done) :
    (workflow.Pairwise fun a b => a.iteration ≤ b.iteration) ∧
      ∀ record ∈ workflow, 1 ≤ record.iteration ∧ record.iteration ≤ completions.length := by
  have hsame : workflow.map Record.iteration = done.map Demand.number := by
    clear hdone
    induction h with
    | nil => rfl
    | cons hrecord _ ih => rw [List.map_cons, List.map_cons, hrecord.iteration, ih]
  constructor
  · rw [← List.pairwise_map, hsame, List.pairwise_map]
    exact (demands_sorted 1 completions).sublist hdone.sublist
  · intro record hrecord
    have hnumber : record.iteration ∈ done.map Demand.number :=
      hsame ▸ List.mem_map_of_mem hrecord
    obtain ⟨demand, hdemand, hiteration⟩ := List.mem_map.mp hnumber
    have hrange := demands_number demand (hdone.subset hdemand)
    omega

theorem Setting.outcome_bounded (env : Setting) (start : List Message) :
    Bounded env start (env.outcome start) := by
  obtain ⟨log, answer, t, hcourse, hrun, hcalls, hresult⟩ := outcome_course env start
  have hworkflow : (env.outcome start).workflow = log.map ToolRun.record := by
    have hrecords : t.workflow = log.map ToolRun.record := hcourse.workflow_eq
    rw [Outcome.workflow, ← hrecords]
    rcases hresult with ⟨result, hok, hsame, -⟩ | ⟨text, herror, -⟩
    · rw [hok]
      exact hsame
    · rw [herror]
  -- the three facts on the course speak of the same calls
  obtain ⟨calls, added, hmade, hadded, hatMost, hatLeast, hsystem⟩ := hcourse.bounded
  obtain rfl : (env.outcome start).calls = calls := hcalls.trans hmade
  obtain ⟨calls, exchanges, hmade, hasks⟩ := hcourse.asked
  obtain rfl : (env.outcome start).calls = calls := hcalls.trans hmade
  obtain ⟨calls, done, left, rest, failed, hmade, hledger⟩ := hcourse.ledger (Nat.le_refl _)
  obtain rfl : (env.outcome start).calls = calls := hcalls.trans hmade
  have hdone : done <+: demands 1 (env.collaborators.completions [] (env.outcome start).calls) := by
    have hdemands := hledger.demands
    rw [Nat.add_sub_cancel_left] at hdemands
    exact ⟨left, hdemands.symm⟩
  have hnumbered : List.Forall₂ Record.Meets (env.outcome start).workflow done :=
    hworkflow ▸ hledger.meets
  obtain ⟨hsorted, hrange⟩ := numbered_sorted hdone hnumbered
  have hlength := env.collaborators.completions_length_le [] (env.outcome start).calls
  exact {
    atMost := hatMost
    atLeast := hatLeast
    offers := fun before transcript tools force after h =>
      (hasks before _ after h transcript tools force rfl).offers
    entered := by
      refine ⟨added, ?_, ?_⟩
      · rw [hrun]
        exact hadded
      · rw [hsystem, closing_sub hatMost, ite_and]
        rfl
    numbered := ⟨done, hdone, hnumbered⟩
    sorted := hsorted
    range := fun record hrecord =>
      ⟨(hrange record hrecord).1, (hrange record hrecord).2.trans (hlength.trans hatMost)⟩ }

/-- **Runs are bounded.**  A run makes at most one request for a completion in each iteration,
offers the tools of its corpus until the last of them, and numbers its records by the
completions. -/
theorem retrieve_bounded (corpora : List Corpus) (collaborators : Collaborators) (r : Request) :
    (r.Refused corpora ∧ (retrieve corpora collaborators r).calls = []) ∨
      ∃ c ∈ corpora, c.id = r.corpusId ∧
        Bounded ⟨c, lenientFilter r.filter, collaborators⟩ (conversation c r.messages)
          (retrieve corpora collaborators r) := by
  rcases retrieve_cases corpora collaborators r with hrefused | ⟨c, hc, hid, -, hretrieve⟩
  · exact .inl hrefused
  · rw [hretrieve]
    exact .inr ⟨c, hc, hid, Setting.outcome_bounded ..⟩

end CorpusAgent.Retrieval
