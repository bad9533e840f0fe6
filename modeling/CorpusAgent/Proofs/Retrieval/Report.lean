import CorpusAgent.Proofs.Retrieval.Conclusion
import CorpusAgent.Proofs.Retrieval.Gathered
import CorpusAgent.Proofs.Retrieval.Iterations

/-!
# Reports of runs

Everything that a run did, told by its outcome.

* `Report`: the outcome of a run beside its completed tool calls and the way in which it concluded.
* `outcome_report`: every outcome of a run has a report.
* `Outcome.Reaches`: a run gets to a tool call if all those before it were carried out.
* `Report.reached`: such a tool call has a record, or it is the first one without.
* `Outcome.Offers`, `Outcome.Withholds`: a tool was offered with a completion, or it was not.
-/

namespace CorpusAgent.Retrieval

/-- The demands of all completions that calls bring, in order. -/
def Collaborators.demanded (c : Collaborators) (calls : List Call) : List Demand :=
  demands 1 (c.completions [] calls)

/-- A completed tool call had been offered, and its tool came to a step. -/
structure CarriedOut (env : Setting) (run : ToolRun) : Prop where
  offered : isOffered (env.offeredWith run.record.iteration) run.record.tool = true
  performed : ∃ s step t, Performed env run.record.arguments s run.record.tool (.ok step) t

/-- The state at the end of a run. -/
def Setting.final (env : Setting) (start : List Message) : RunState :=
  (env.run.run.run { transcript := start }).2

/-- The result of a request whose run ended in a state. -/
def Setting.finished (env : Setting) (t : RunState) :
    Except ServiceError String → Except ServiceError Result
  | .ok answer => .ok (Retrieval.result env.corpus answer t)
  | .error e => .error (.runFailed e.message t.workflow)

/-- The request for the completion of a number was made with these tools. -/
def Requested (calls : List Call) (number : Nat) (tools : List ToolSpec) : Prop :=
  ∃ before transcript force after, calls = before ++ .complete transcript tools force :: after ∧
    before.countP Call.isComplete + 1 = number

namespace Outcome

/-- A tool was among those offered with the completion of a number. -/
def Offers (o : Outcome) (number : Nat) (tool : Tool) : Prop :=
  ∃ tools, Requested o.calls number tools ∧ isOffered tools tool = true

/-- A tool was not among those offered with the completion of a number. -/
def Withholds (o : Outcome) (number : Nat) (tool : Tool) : Prop :=
  ∃ tools, Requested o.calls number tools ∧ isOffered tools tool = false

/-- The run gets to the tool call after these demands: all of them have records, and none is an
`exit`. -/
def Reaches (o : Outcome) (before : List Demand) : Prop :=
  before.length ≤ o.workflow.length ∧
    ∀ record ∈ o.workflow.take before.length, record.tool ≠ .exit

end Outcome

/-- What a run from a transcript on did, told by its outcome. -/
structure Report (env : Setting) (start : List Message) (o : Outcome) (log : List ToolRun)
    (done left : List Demand) (rest failed : List Call) (r : Except ServiceError String)
    (t : RunState) : Prop where
  course : Course env env.iterations env.iterations none { transcript := start } log r t
  final : env.final start = t
  calls : o.calls = t.calls
  result : o.result = env.finished t r
  workflow : o.workflow = log.map ToolRun.record
  ledger : Ledger env [] (env.collaborators.demanded o.calls) o.calls r.isOk log done left rest
    failed
  conclusion : Conclusion env env.iterations none (env.collaborators.completions [] o.calls) log
    left r
  requested : ∀ number tools, Requested o.calls number tools →
    number ≤ env.iterations ∧ tools = env.offeredWith number

variable {env : Setting} {s t : RunState} {log : List ToolRun}

/-! ### Completed tool calls -/

theorem Completed.carriedOut {number : Nat} {request : ToolCall} {run : ToolRun} {step : Step}
    (h : Completed env (env.offeredWith number) number request s run step t) :
    CarriedOut env run := by
  refine ⟨?_, s, step, t, h.performed⟩
  rw [h.iteration]
  exact h.offered

theorem Dispatched.carriedOut {number : Nat} {requests : List ToolCall}
    {r : Except ServiceError Ending}
    (h : Dispatched env (env.offeredWith number) number requests s log r t) :
    ∀ run ∈ log, CarriedOut env run := by
  induction h with
  | done | withheld | failed => exact List.forall_mem_nil _
  | exited h => exact List.forall_mem_singleton.mpr h.carriedOut
  | answered h _ ih => exact List.forall_mem_cons.mpr ⟨h.carriedOut, ih⟩

theorem offeredWith_sub {toCome : Nat} (h : toCome ≤ env.iterations) :
    env.offeredWith (env.iterations - toCome) = env.offered toCome :=
  congrArg env.offered (Nat.sub_sub_self h)

theorem Course.carriedOut {toCome : Nat} {words : Option String} {r : Except ServiceError String}
    (h : Course env env.iterations toCome words s log r t) (hle : toCome ≤ env.iterations) :
    ∀ run ∈ log, CarriedOut env run := by
  induction h with
  | exhausted | unanswered => exact List.forall_mem_nil _
  | last hreply h =>
    cases h with
    | spoken => exact List.forall_mem_nil _
    | exited h | withheld h | failed h =>
      rw [← offeredWith_sub (Nat.le_of_succ_le hle)] at h
      exact h.carriedOut
  | next hreply hrequested h _ ih =>
    rw [← offeredWith_sub (Nat.le_of_succ_le hle)] at h
    exact List.forall_mem_append.mpr ⟨h.carriedOut, ih (Nat.le_of_succ_le hle)⟩

theorem Performed.exists_text {args : Arguments} {tool : Tool} {step : Step} {name : String}
    (h : Performed env args s tool (.ok step) t) (hneeded : neededText tool = some name) :
    ∃ text, (Json.find? name args).bind Json.text? = some text := by
  cases h with
  | exited htext | chunks htext | summaries htext =>
    obtain rfl := Option.some.inj hneeded
    exact ⟨_, requiredText_eq_ok_iff.mp htext⟩
  | unfiltered | counted => cases hneeded

theorem exists_meets {records : List Record} {done : List Demand}
    (h : List.Forall₂ Record.Meets records done) {record : Record} (hrecord : record ∈ records) :
    ∃ demand ∈ done, record.Meets demand := by
  induction h with
  | nil => cases hrecord
  | cons hfirst _ ih =>
    rcases List.mem_cons.mp hrecord with rfl | hlater
    · exact ⟨_, List.mem_cons_self, hfirst⟩
    · obtain ⟨demand, hdemand, hmeets⟩ := ih hlater
      exact ⟨demand, List.mem_cons_of_mem _ hdemand, hmeets⟩

/-! ### Requests for completions -/

/-- If all calls succeed, each request for a completion brings one. -/
theorem Collaborators.completions_length_eq {c : Collaborators} {earlier calls : List Call}
    (h : c.AllSucceed earlier calls) :
    (c.completions earlier calls).length = calls.countP Call.isComplete := by
  induction calls generalizing earlier with
  | nil => rfl
  | cons call calls ih =>
    have hfirst : c.AllSucceed earlier ([call] ++ calls) := h
    rw [Collaborators.allSucceed_append_iff, Collaborators.allSucceed_singleton_iff] at hfirst
    have hcall : (c.completion? earlier call).toList.length =
        if call.isComplete then 1 else 0 := by
      cases call with
      | complete transcript tools force =>
        have hok : (c.complete earlier transcript tools force).isOk := hfirst.1
        rw [Collaborators.completion?]
        cases hreply : c.complete earlier transcript tools force with
        | ok completion => rfl
        | error e =>
          rw [hreply] at hok
          cases hok
      | embed | countDocuments | searchDocuments | searchChunks => rfl
    rw [Collaborators.completions, List.length_append, hcall, ih hfirst.2, List.countP_cons,
      Nat.add_comm]

/-- There are requests of all numbers up to that of the last one. -/
theorem exists_requested {calls : List Call} {number : Nat} (hpos : 1 ≤ number)
    (hle : number ≤ calls.countP Call.isComplete) : ∃ tools, Requested calls number tools := by
  induction calls generalizing number with
  | nil => exact absurd hle (Nat.not_le.mpr hpos)
  | cons call calls ih =>
    rw [List.countP_cons] at hle
    by_cases hlater : 1 ≤ number - (if call.isComplete then 1 else 0)
    · obtain ⟨tools, before, transcript, force, after, hcalls, hnumber⟩ :=
        ih hlater (Nat.sub_le_of_le_add hle)
      refine ⟨tools, call :: before, transcript, force, after, congrArg (call :: ·) hcalls, ?_⟩
      rw [List.countP_cons]
      omega
    · cases call with
      | complete transcript tools force =>
        have hfirst : number = 1 := by
          have hone : (if (Call.complete transcript tools force).isComplete = true then 1 else 0) =
            1 := rfl
          omega
        exact ⟨tools, [], transcript, force, calls, rfl, hfirst.symm⟩
      | embed | countDocuments | searchDocuments | searchChunks => exact absurd hpos hlater

/-! ### Reports -/

theorem outcome_report (env : Setting) (start : List Message) :
    ∃ log done left rest failed r t,
      Report env start (env.outcome start) log done left rest failed r t := by
  rcases hrun : env.run.run.run { transcript := start } with ⟨r, t⟩
  obtain ⟨log, hcourse⟩ : ∃ log,
      Course env env.iterations env.iterations none { transcript := start } log r t :=
    iterate_course hrun
  have hfinal : env.final start = t := congrArg Prod.snd hrun
  have hcalls : (env.outcome start).calls = t.calls := by
    rw [Setting.outcome, hrun]
    cases r <;> rfl
  have hresult : (env.outcome start).result = env.finished t r := by
    rw [Setting.outcome, hrun]
    cases r <;> rfl
  -- the facts on the course speak of the same calls
  obtain ⟨calls, done, left, rest, failed, hmade, hledger⟩ := hcourse.ledger (Nat.le_refl _)
  obtain rfl : (env.outcome start).calls = calls := hcalls.trans hmade
  obtain ⟨calls, hmade, hconclusion⟩ := hcourse.conclusion (Nat.le_refl _)
  obtain rfl : (env.outcome start).calls = calls := hcalls.trans hmade
  obtain ⟨calls, exchanges, hmade, hasks⟩ := hcourse.asked
  obtain rfl : (env.outcome start).calls = calls := hcalls.trans hmade
  rw [Nat.add_sub_cancel_left] at hledger hconclusion
  have hleft : (demands 1 (env.collaborators.completions [] (env.outcome start).calls)).drop
      log.length = left := by
    have hlength : done.length = log.length := by
      rw [← hledger.meets.length_eq, List.length_map]
    have hdemands := hledger.demands
    rw [hdemands, List.drop_left' hlength]
  have hworkflow : (env.outcome start).workflow = t.workflow := by
    rw [Outcome.workflow, hresult]
    cases r <;> rfl
  refine ⟨log, done, left, rest, failed, r, t, hcourse, hfinal, hcalls, hresult,
    hworkflow.trans hcourse.holds.workflow, hledger, hleft ▸ hconclusion, ?_⟩
  rintro number tools ⟨before, transcript, force, after, hsplit, rfl⟩
  have hasked := hasks before _ after hsplit transcript tools force rfl
  exact ⟨hasked.within, hasked.offered⟩

namespace Report

variable {start : List Message} {o : Outcome} {done left : List Demand} {rest failed : List Call}
  {r : Except ServiceError String}

theorem holds (h : Report env start o log done left rest failed r t) : Holds env log t :=
  h.course.holds

theorem carriedOut (h : Report env start o log done left rest failed r t) :
    ∀ run ∈ log, CarriedOut env run := h.course.carriedOut (Nat.le_refl _)

theorem kept (h : Report env start o log done left rest failed r t) :
    t.workflow = o.workflow := h.holds.workflow.trans h.workflow.symm

theorem length_done (h : Report env start o log done left rest failed r t) :
    done.length = o.workflow.length := by
  rw [h.workflow]
  exact h.ledger.meets.length_eq.symm

theorem number_le {demand : Demand} (hdemand : demand ∈ env.collaborators.demanded o.calls) :
    1 ≤ demand.number ∧ demand.number ≤ o.calls.countP Call.isComplete := by
  have hrange := demands_number demand hdemand
  have hlength := env.collaborators.completions_length_le [] o.calls
  omega

/-- The tools offered with the completion that asks for a tool call are those for its number. -/
theorem requested_iff (h : Report env start o log done left rest failed r t) {demand : Demand}
    (hdemand : demand ∈ env.collaborators.demanded o.calls) {tools : List ToolSpec} :
    Requested o.calls demand.number tools ↔ tools = env.offeredWith demand.number := by
  constructor
  · intro hrequested
    exact (h.requested _ _ hrequested).2
  · rintro rfl
    obtain ⟨tools, hrequested⟩ := exists_requested (number_le hdemand).1 (number_le hdemand).2
    rwa [← (h.requested _ _ hrequested).2]

theorem offers_iff (h : Report env start o log done left rest failed r t) {demand : Demand}
    (hdemand : demand ∈ env.collaborators.demanded o.calls) {tool : Tool} :
    o.Offers demand.number tool ↔ isOffered (env.offeredWith demand.number) tool = true := by
  simp only [Outcome.Offers, h.requested_iff hdemand, exists_eq_left]

theorem withholds_iff (h : Report env start o log done left rest failed r t) {demand : Demand}
    (hdemand : demand ∈ env.collaborators.demanded o.calls) {tool : Tool} :
    o.Withholds demand.number tool ↔ isOffered (env.offeredWith demand.number) tool = false := by
  simp only [Outcome.Withholds, h.requested_iff hdemand, exists_eq_left]

/-- A tool call that the run gets to has a record, or it is the first one that is left. -/
theorem reached (h : Report env start o log done left rest failed r t) {before after : List Demand}
    {demand : Demand} (hasked : env.collaborators.demanded o.calls = before ++ demand :: after)
    (hreaches : o.Reaches before) :
    (before.length < o.workflow.length ∧
        ∃ run ∈ log, run.record.Meets demand ∧ CarriedOut env run) ∨
      done = before ∧ left = demand :: after ∧ NoExit log := by
  have hsplit : done ++ left = before ++ demand :: after := h.ledger.demands.symm.trans hasked
  have hlength := h.length_done
  rcases Nat.eq_or_lt_of_le hreaches.1 with heq | hlt
  · obtain ⟨hdone, hleft⟩ := List.append_inj hsplit (hlength.trans heq.symm)
    refine .inr ⟨hdone, hleft, fun run hrun => ?_⟩
    refine hreaches.2 run.record ?_
    rw [heq, List.take_length, h.workflow]
    exact List.mem_map_of_mem hrun
  · have hplace : before.length < done.length := hlength ▸ hlt
    have hdemand : done[before.length] = demand := by
      have hget : (done ++ left)[before.length]? = some demand := by
        rw [hsplit, List.getElem?_append_right (Nat.le_refl _), Nat.sub_self]
        rfl
      rw [List.getElem?_append_left hplace, List.getElem?_eq_getElem hplace] at hget
      exact Option.some.inj hget
    have hrecord : before.length < (log.map ToolRun.record).length := h.workflow ▸ hlt
    have hmeets := h.ledger.meets.get hrecord hplace
    rw [List.length_map] at hrecord
    refine .inl ⟨hlt, log[before.length], List.getElem_mem hrecord, ?_,
      h.carriedOut _ (List.getElem_mem hrecord)⟩
    simpa [hdemand] using hmeets

end Report

end CorpusAgent.Retrieval
