import CorpusAgent.Proofs.Retrieval.History

/-!
# The transcripts of a run

What the model is sent with each request for a completion.

* `Exchange`: a completion with the results of its tool calls.
* `answered`: each tool call is followed by its result, and each result follows its call.
* `Asked`: a request for a completion comes after the exchanges so far.
* `Course.asked`: so do all requests of a course.
* `retrieve_transcripts`: the transcripts of a run are made of its conversation and its exchanges.
-/

namespace CorpusAgent.Retrieval

/-- The results of tool calls, each in a message of its own. -/
def resultMessages (requests : List ToolCall) (texts : List String) : List Message :=
  List.zipWith (fun request text => .result request.id text) requests texts

/-- A completion that asks for tool calls, and the texts of their results. -/
structure Exchange where
  completion : Completion
  results : List String
  requested : completion.calls ≠ []
  complete : results.length = completion.calls.length

/-- The messages of an exchange: that of the model, then the result of each tool call. -/
def Exchange.messages (x : Exchange) : List Message :=
  .calls x.completion.content x.completion.calls :: resultMessages x.completion.calls x.results

/-- Each tool call is followed by its result, and each result follows its call, where the calls with
the given ids come first. -/
def answered : List String → List Message → Bool
  | [], [] => true
  | [], .plain role _ :: rest => role != .tool && answered [] rest
  | [], .calls _ requests :: rest => answered (requests.map ToolCall.id) rest
  | id :: pending, .result found _ :: rest => id == found && answered pending rest
  | _, _ => false

/-- What is added to the transcript when so many more iterations are to come. -/
def closing (toCome : Nat) : List Message :=
  if toCome = 0 then [.plain .system finalPrompt] else []

theorem closing_of_pos {toCome : Nat} (h : 0 < toCome) : closing toCome = [] :=
  if_neg (Nat.ne_of_gt h)

theorem closing_sub {number total : Nat} (h : number ≤ total) :
    closing (total - number) = if number = total then [.plain .system finalPrompt] else [] :=
  if_congr (by omega) rfl rfl

theorem RunState.prompted_transcript (s : RunState) (toCome : Nat) :
    (s.prompted toCome).transcript = s.transcript ++ closing toCome := by
  unfold RunState.prompted closing
  by_cases h : toCome = 0
  · rw [if_pos h, if_pos h]
    rfl
  · rw [if_neg h, if_neg h, List.append_nil]

/-! ### Results of tool calls -/

section

variable {pending : List String} {requests : List ToolCall} {texts : List String}
  {messages rest : List Message}

theorem answered_plain (h : ∀ m ∈ messages, ∃ role text, m = .plain role text ∧ role ≠ .tool) :
    answered [] (messages ++ rest) = answered [] rest := by
  induction messages with
  | nil => rfl
  | cons m messages ih =>
    obtain ⟨⟨role, text, rfl, hrole⟩, hmessages⟩ := List.forall_mem_cons.mp h
    rw [List.cons_append, answered, ih hmessages, bne_iff_ne.mpr hrole, Bool.true_and]

theorem answered_results (h : texts.length = requests.length) :
    answered (requests.map ToolCall.id) (resultMessages requests texts ++ rest) =
      answered [] rest := by
  induction requests generalizing texts with
  | nil => rfl
  | cons request requests ih =>
    cases texts with
    | nil => cases h
    | cons text texts =>
      have hlater := ih (Nat.succ.inj h)
      rw [resultMessages, List.zipWith_cons_cons, List.map_cons, List.cons_append, answered,
        beq_self_eq_true, Bool.true_and]
      exact hlater

theorem answered_exchanges (exchanges : List Exchange) :
    answered [] (exchanges.flatMap Exchange.messages ++ rest) = answered [] rest := by
  induction exchanges with
  | nil => rfl
  | cons x exchanges ih =>
    rw [List.flatMap_cons, List.append_assoc, Exchange.messages, List.cons_append, answered,
      answered_results x.complete, ih]

end

variable {env : Setting} {s m t : RunState}

theorem Performed.transcript_eq {args : Arguments} {tool : Tool} {r : Except ServiceError Step}
    (h : Performed env args s tool r t) : t.transcript = s.transcript := by
  cases h <;> rfl

theorem Failed.transcript_eq {offered : List ToolSpec} {request : ToolCall} {e : ServiceError}
    (h : Failed env offered request s e t) : t.transcript = s.transcript := by
  cases h with
  | unknown | unreadable => rfl
  | performed _ _ _ h => exact h.transcript_eq

/-- Tool calls add their results to the transcript, all of them if the run goes on. -/
theorem Dispatched.exists_results {offered : List ToolSpec} {iteration : Nat}
    {requests : List ToolCall} {log : List ToolRun} {r : Except ServiceError Ending}
    (h : Dispatched env offered iteration requests s log r t) :
    ∃ texts, t.transcript = s.transcript ++ resultMessages requests texts ∧
      (r = .ok .complete → texts.length = requests.length) := by
  induction h with
  | done s => exact ⟨[], (List.append_nil _).symm, fun _ => rfl⟩
  | withheld => exact ⟨[], (List.append_nil _).symm, nofun⟩
  | failed h => exact ⟨[], h.transcript_eq.trans (List.append_nil _).symm, nofun⟩
  | exited h => exact ⟨[], h.performed.transcript_eq.trans (List.append_nil _).symm, nofun⟩
  | @answered request rest s m t run result summary log r h _ ih =>
    obtain ⟨texts, htranscript, hlength⟩ := ih
    refine ⟨result.print :: texts, ?_, fun hr => congrArg Nat.succ (hlength hr)⟩
    have hsame : (m.recorded run.record).transcript = s.transcript := h.performed.transcript_eq
    rw [htranscript, RunState.said, hsame, List.append_assoc]
    rfl

/-! ### Requests for completions -/

section

variable (env : Setting) (toCome : Nat) (s : RunState) (exchanges : List Exchange)

/-- A request for a completion after the calls since a state from which so many iterations were to
come: it comes after as many exchanges as there were requests. -/
structure Asked (before : List Call) (transcript : List Message) (tools : List ToolSpec)
    (force : Bool) : Prop where
  within : before.countP Call.isComplete < toCome
  exchanged : before.countP Call.isComplete ≤ exchanges.length
  completions : (exchanges.take (before.countP Call.isComplete)).map Exchange.completion =
    env.collaborators.completions s.calls before
  composed : transcript = s.transcript ++
    (exchanges.take (before.countP Call.isComplete)).flatMap Exchange.messages ++
      closing (toCome - (before.countP Call.isComplete + 1))
  offered : tools = env.offered (toCome - (before.countP Call.isComplete + 1))
  forced : force = !tools.isEmpty

/-- If the call is a request for a completion, it sends what it should. -/
def Asks (before : List Call) (call : Call) : Prop :=
  ∀ transcript tools force, call = .complete transcript tools force →
    Asked env toCome s exchanges before transcript tools force

end

variable {toCome : Nat} {exchanges : List Exchange}

/-- The first request of an iteration comes after no exchange, and tools make no further ones. -/
theorem throughout_asks (env : Setting) (s : RunState) (exchanges : List Exchange)
    {made : List Call} (hquiet : Quiet made) :
    Throughout (Asks env (toCome + 1) s exchanges)
      (env.request toCome (s.prompted toCome) :: made) := by
  rw [throughout_cons_iff]
  constructor
  · intro transcript tools force h
    obtain ⟨rfl, rfl, rfl⟩ := Call.complete.inj h
    refine ⟨Nat.succ_pos _, Nat.zero_le _, rfl, ?_, rfl, rfl⟩
    rw [RunState.prompted_transcript]
    simp
  · refine throughout_of_forall fun call hcall before transcript tools force h => ?_
    have hquiet := hquiet call hcall
    rw [h] at hquiet
    cases hquiet

theorem Asked.after {x : Exchange} {first before : List Call} {transcript : List Message}
    {tools : List ToolSpec} {force : Bool}
    (h : Asked env toCome m exchanges before transcript tools force)
    (hcalls : m.calls = s.calls ++ first) (hcount : first.countP Call.isComplete = 1)
    (hcompletions : env.collaborators.completions s.calls first = [x.completion])
    (htranscript : m.transcript = s.transcript ++ closing toCome ++ x.messages) :
    Asked env (toCome + 1) s (x :: exchanges) (first ++ before) transcript tools force := by
  have hnumber : (first ++ before).countP Call.isComplete = before.countP Call.isComplete + 1 := by
    rw [List.countP_append, hcount, Nat.add_comm]
  have hpos : 0 < toCome := Nat.zero_lt_of_lt h.within
  refine ⟨?_, ?_, ?_, ?_, ?_, h.forced⟩
  · rw [hnumber]
    exact Nat.succ_lt_succ h.within
  · rw [hnumber]
    exact Nat.succ_le_succ h.exchanged
  · rw [hnumber, List.take_succ_cons, List.map_cons, h.completions, hcalls,
      Collaborators.completions_append, hcompletions]
    rfl
  · rw [hnumber, List.take_succ_cons, List.flatMap_cons, Nat.add_sub_add_right, h.composed,
      htranscript, closing_of_pos hpos, List.append_nil, List.append_assoc s.transcript]
  · rw [hnumber, Nat.add_sub_add_right]
    exact h.offered

/-- Each request of a course comes after the exchanges so far. -/
theorem Course.asked {total : Nat} {words : Option String} {log : List ToolRun}
    {r : Except ServiceError String} (h : Course env total toCome words s log r t) :
    ∃ calls exchanges, t.calls = s.calls ++ calls ∧
      Throughout (Asks env toCome s exchanges) calls := by
  induction h with
  | exhausted words s => exact ⟨[], [], (List.append_nil _).symm, throughout_nil⟩
  | @unanswered toCome words s e hreply =>
    exact ⟨_, [], by simp, throughout_asks env s [] quiet_nil⟩
  | @last toCome words s t completion log r hreply h =>
    obtain ⟨made, hmade, hquiet⟩ := h.exists_quiet
    exact ⟨_, [], by simpa using hmade, throughout_asks env s [] hquiet⟩
  | @next toCome words s m t completion log later r hreply hrequested h _ ih =>
    obtain ⟨calls, exchanges, hcalls, hasks⟩ := ih
    obtain ⟨made, hmade, hquiet⟩ := h.exists_quiet
    obtain ⟨texts, htranscript, hlength⟩ := h.exists_results
    have hfirst : m.calls = s.calls ++ env.request toCome (s.prompted toCome) :: made := by
      simpa using hmade
    refine ⟨env.request toCome (s.prompted toCome) :: made ++ calls,
      ⟨completion, texts, hrequested, hlength rfl⟩ :: exchanges, ?_, ?_⟩
    · rw [hcalls, hfirst, List.append_assoc]
    -- the request of this iteration comes before the exchange, those of the later ones after it
    rw [throughout_append_iff]
    refine ⟨throughout_asks env s _ hquiet, hasks.mono ?_⟩
    intro before call hasks transcript tools force hcall
    refine (hasks transcript tools force hcall).after hfirst ?_ ?_ ?_
    · exact hquiet.countP_request
    · rw [← s.prompted_calls toCome, completions_answered hreply,
        Collaborators.completions_eq_nil _ hquiet]
    · simpa [RunState.prompted_transcript, Exchange.messages] using htranscript

/-! ### Runs of requests -/

/-- The transcript that the model is sent after calls of a run on a conversation. -/
structure Transcribed (c : Corpus) (collaborators : Collaborators) (messages : List ChatMessage)
    (before : List Call) (exchanges : List Exchange) (transcript : List Message) : Prop where
  /-- There is an exchange for each completion so far. -/
  completions : exchanges.map Exchange.completion = collaborators.completions [] before
  /-- All requests so far have been answered. -/
  length : exchanges.length = before.countP Call.isComplete
  composed : transcript = conversation c messages ++ exchanges.flatMap Exchange.messages ++
    if before.countP Call.isComplete + 1 = c.run.maxIterations.toNat then
      [.plain .system finalPrompt]
    else []
  paired : answered [] transcript = true
  /-- The transcripts that were sent before are continued. -/
  continues : ∀ earlier shorter tools force later,
    before = earlier ++ .complete shorter tools force :: later → shorter <+: transcript

theorem answered_conversation (c : Corpus) {messages : List ChatMessage}
    (h : ∀ m ∈ messages, m.role ≠ .tool) (rest : List Message) :
    answered [] (conversation c messages ++ rest) = answered [] rest := by
  refine answered_plain (List.forall_mem_cons.mpr ⟨⟨_, _, rfl, nofun⟩, ?_⟩)
  rw [List.forall_mem_map]
  exact fun m hm => ⟨_, _, rfl, h m hm⟩

theorem answered_closing (toCome : Nat) : answered [] (closing toCome) = true := by
  unfold closing
  split <;> rfl

theorem Asked.continues {earlier later : List Call} {shorter transcript : List Message}
    {tools tools' : List ToolSpec} {force force' : Bool}
    (h : Asked env toCome s exchanges (earlier ++ .complete shorter tools' force' :: later)
      transcript tools force)
    (hshorter : Asked env toCome s exchanges earlier shorter tools' force') :
    shorter <+: transcript := by
  have hcount : (earlier ++ .complete shorter tools' force' :: later).countP Call.isComplete =
      earlier.countP Call.isComplete + (later.countP Call.isComplete + 1) := by
    rw [List.countP_append, List.countP_cons]
    rfl
  have hmore : 0 < toCome - (earlier.countP Call.isComplete + 1) := by
    have := h.within
    omega
  rw [hshorter.composed, closing_of_pos hmore, List.append_nil, h.composed, hcount,
    List.take_add, List.flatMap_append, List.append_assoc, List.append_assoc]
  exact (List.prefix_append_right_inj _).mpr (List.prefix_append ..)

/-- **Transcripts are well-formed.**  Each request for a completion is sent the conversation, then
every exchange so far, and before the last iteration the final prompt. -/
theorem retrieve_transcripts (corpora : List Corpus) (collaborators : Collaborators) (r : Request) :
    (r.Refused corpora ∧ (retrieve corpora collaborators r).calls = []) ∨
      ∃ c ∈ corpora, c.id = r.corpusId ∧ ∀ before transcript tools force after,
        (retrieve corpora collaborators r).calls =
          before ++ .complete transcript tools force :: after →
        ∃ exchanges, Transcribed c collaborators r.messages before exchanges transcript := by
  rcases retrieve_cases corpora collaborators r with hrefused | ⟨c, hc, hid, hroles, hretrieve⟩
  · exact .inl hrefused
  refine .inr ⟨c, hc, hid, ?_⟩
  rw [hretrieve]
  obtain ⟨log, answer, t, hcourse, -, hcalls, -⟩ :=
    outcome_course ⟨c, lenientFilter r.filter, collaborators⟩ (conversation c r.messages)
  obtain ⟨calls, exchanges, hmade, hasks⟩ := hcourse.asked
  have hown : t.calls = calls := hmade
  rw [hcalls, hown]
  intro before transcript tools force after hsplit
  have hasked := hasks before _ after hsplit transcript tools force rfl
  refine ⟨exchanges.take (before.countP Call.isComplete), hasked.completions, ?_, ?_, ?_, ?_⟩
  · rw [List.length_take, Nat.min_eq_left hasked.exchanged]
  · rw [hasked.composed, closing_sub hasked.within]
    rfl
  · rw [hasked.composed, List.append_assoc, answered_conversation c hroles, answered_exchanges]
    exact answered_closing _
  · rintro earlier shorter tools' force' later rfl
    refine hasked.continues (hasks earlier _ (later ++ .complete transcript tools force :: after) ?_
      shorter tools' force' rfl)
    rw [hsplit, List.append_assoc]
    rfl

end CorpusAgent.Retrieval
