import CorpusAgent.Proofs.Retrieval.Report

/-!
# Only offered tools run

* `Served`: the calls that a tool call makes if its tool was offered.
* `OnBehalf`, `MadeFor`: a call of a collaborator belongs to a tool call of the last completion, and
  the tool was offered with it.
* `Course.attributed`: what the tool calls of a completion always do, the calls of a run do.
* `Course.accounted`: so every call of a run that is no request for a completion belongs to one.
* `isEnabled_of_isOffered`, `eq_exit_of_isOffered`: what is offered is enabled, and in the end it is
  only `exit`.
* `retrieve_onlyOffered`: what this means for a whole run, and what becomes of tool calls whose tool
  was not offered or does not exist.
-/

namespace CorpusAgent.Retrieval

theorem ofName?_eq_some_iff_name {name : String} {tool : Tool} :
    Tool.ofName? name = some tool ↔ tool.name = name := by
  constructor
  · exact name_eq_of_ofName?
  · rintro rfl
    cases tool <;> decide

theorem ofName?_eq_none_iff_name {name : String} :
    Tool.ofName? name = none ↔ ∀ tool : Tool, tool.name ≠ name := by
  constructor
  · intro h tool htool
    rw [ofName?_eq_some_iff_name.mpr htool] at h
    cases h
  · intro h
    rw [Option.eq_none_iff_forall_ne_some]
    intro tool htool
    exact h tool (name_eq_of_ofName? htool)

section

variable (env : Setting) (tools : List ToolSpec)

/-- The calls of collaborators that a tool call makes when nothing fails, if its tool was
offered. -/
def Served (request : ToolCall) (segment : List Call) : Prop :=
  ∃ tool args, tool.name = request.name ∧ isOffered tools tool = true ∧
    arguments request = .ok args ∧ Segment env args tool segment

/-- A call that comes after others belongs to one of the tool calls, which are carried out in order:
the others are all those of the tool calls before it and some of its own. -/
inductive OnBehalf (requests : List ToolCall) (made : List Call) (call : Call) : Prop
  | intro {done rest : List ToolCall} {request : ToolCall} {segments : List (List Call)}
    {segment beginning : List Call} (hrequests : requests = done ++ request :: rest)
    (hdone : List.Forall₂ (Served env tools) done segments)
    (hserved : Served env tools request segment) (hmade : made = segments.flatten ++ beginning)
    (hbeginning : beginning ++ [call] <+: segment)

end

/-- A call belongs to a tool call of the last completion before it. -/
def MadeFor (env : Setting) (before : List Call) (call : Call) : Prop :=
  ∃ earlier transcript tools force made completion,
    before = earlier ++ .complete transcript tools force :: made ∧ Quiet made ∧
      env.collaborators.complete earlier transcript tools force = .ok completion ∧
      OnBehalf env tools completion.calls made call

theorem MadeFor.exists_segment {env : Setting} {before : List Call} {call : Call}
    (h : MadeFor env before call) :
    ∃ args tool segment, Segment env args tool segment ∧ call ∈ segment := by
  obtain ⟨_, _, _, _, made, _, _, _, _, hbehalf⟩ := h
  obtain ⟨-, -, ⟨tool, args, -, -, -, hsegment⟩, -, hbeginning⟩ := hbehalf
  exact ⟨args, tool, _, hsegment,
    hbeginning.subset (List.mem_append_right _ (List.mem_singleton_self call))⟩

/-- A call that is no request for a completion is made for a call of the model. -/
def Accounted (env : Setting) (before : List Call) (call : Call) : Prop :=
  call.isComplete = false → MadeFor env before call

variable {env : Setting} {s t : RunState} {log : List ToolRun}

/-! ### Calls of a completion -/

section

variable {tools : List ToolSpec} {request : ToolCall} {requests : List ToolCall}

theorem OnBehalf.cons {segment before : List Call} {call : Call}
    (hserved : Served env tools request segment) (h : OnBehalf env tools requests before call) :
    OnBehalf env tools (request :: requests) (segment ++ before) call := by
  obtain ⟨hrequests, hdone, hown, hmade, hbeginning⟩ := h
  refine .intro (congrArg (request :: ·) hrequests) (.cons hserved hdone) hown ?_ hbeginning
  rw [hmade, List.flatten_cons, List.append_assoc]

/-- The first tool call is served by the beginning of its segment. -/
theorem throughout_onBehalf {segment made : List Call} (hserved : Served env tools request segment)
    (hmade : made <+: segment) : Throughout (OnBehalf env tools (request :: requests)) made := by
  rintro before call after rfl
  have hrequests : request :: requests = [] ++ request :: requests := rfl
  refine .intro hrequests .nil hserved rfl ?_
  have hfirst : before ++ [call] <+: before ++ call :: after :=
    (List.prefix_append_right_inj before).mpr (List.prefix_append [call] after)
  exact hfirst.trans hmade

theorem Completed.served {number : Nat} {run : ToolRun} {step : Step}
    (h : Completed env tools number request s run step t) : Served env tools request run.made :=
  ⟨_, _, name_eq_of_ofName? h.name, h.offered, h.arguments, h.segment.1⟩

theorem Failed.onBehalf {e : ServiceError} (h : Failed env tools request s e t) :
    ∃ made, t.calls = s.calls ++ made ∧
      Throughout (OnBehalf env tools (request :: requests)) made := by
  cases h with
  | unknown | unreadable => exact ⟨[], (List.append_nil _).symm, throughout_nil⟩
  | performed hname hoffered harguments h =>
    rcases h.cut with ⟨hcalls, -⟩ | ⟨before, call, segment, hcalls, hsegment, hbeginning, -, -⟩
    · exact ⟨[], hcalls.trans (List.append_nil _).symm, throughout_nil⟩
    · refine ⟨before ++ [call], hcalls, throughout_onBehalf ?_ hbeginning⟩
      exact ⟨_, _, name_eq_of_ofName? hname, hoffered, harguments, hsegment⟩

theorem Dispatched.onBehalf {number : Nat} {r : Except ServiceError Ending}
    (h : Dispatched env tools number requests s log r t) :
    ∃ made, t.calls = s.calls ++ made ∧ Throughout (OnBehalf env tools requests) made := by
  induction h with
  | done | withheld => exact ⟨[], (List.append_nil _).symm, throughout_nil⟩
  | failed h => exact h.onBehalf
  | exited h => exact ⟨_, h.calls_eq, throughout_onBehalf h.served (List.prefix_refl _)⟩
  | @answered request rest s m t run result summary log r h _ ih =>
    obtain ⟨made, hcalls, hmade⟩ := ih
    refine ⟨run.made ++ made, ?_, ?_⟩
    · have hfirst : (m.recorded run.record).calls = s.calls ++ run.made := h.calls_eq
      rw [hcalls, RunState.said_calls, hfirst, List.append_assoc]
    · rw [throughout_append_iff]
      refine ⟨throughout_onBehalf h.served (List.prefix_refl _), hmade.mono ?_⟩
      intro before call hcall
      exact hcall.cons h.served

end

/-! ### Calls of a run -/

section

variable (env : Setting) (P : List ToolSpec → List ToolCall → List Call → Call → Prop)

/-- A call has a property together with what the last completion before it offered and asks for, and
with the calls since. -/
def SinceCompletion (before : List Call) (call : Call) : Prop :=
  ∃ earlier transcript tools force made completion,
    before = earlier ++ .complete transcript tools force :: made ∧ Quiet made ∧
      env.collaborators.complete earlier transcript tools force = .ok completion ∧
      P tools completion.calls made call

/-- A call that is no request for a completion comes of the last completion before it. -/
def Attributed (before : List Call) (call : Call) : Prop :=
  call.isComplete = false → SinceCompletion env P before call

end

section

variable {P : List ToolSpec → List ToolCall → List Call → Call → Prop}

/-- The calls after a request for a completion belong to the tool calls of its reply. -/
theorem throughout_attributed {toCome : Nat} {completion : Completion} {made : List Call}
    (hreply : env.reply toCome s = .ok completion) (hquiet : Quiet made)
    (hmade : Throughout (P (env.offered toCome) completion.calls) made) :
    Throughout (fun before => Attributed env P (s.calls ++ before))
      (env.request toCome s :: made) := by
  rw [throughout_cons_iff]
  constructor
  · intro hcall
    cases hcall
  · rintro before call after hsplit -
    refine ⟨s.calls, _, _, _, before, completion, rfl, ?_, hreply, hmade before call after hsplit⟩
    rw [hsplit] at hquiet
    exact (List.forall_mem_append.mp hquiet).1

-- what the tool calls of a completion do is known to have the property
variable (hP : ∀ {tools : List ToolSpec} {number : Nat} {requests : List ToolCall} {s t : RunState}
  {log : List ToolRun} {r : Except ServiceError Ending},
  Dispatched env tools number requests s log r t →
    ∃ made, t.calls = s.calls ++ made ∧ Throughout (P tools requests) made)

include hP

theorem Dispatched.attributed {toCome number : Nat} {completion : Completion}
    {r : Except ServiceError Ending} {message : Message}
    (hreply : env.reply toCome s = .ok completion)
    (h : Dispatched env (env.offered toCome) number completion.calls
      ((s.asked (env.request toCome s)).said message) log r t) :
    ∃ made, t.calls = s.calls ++ env.request toCome s :: made ∧
      Throughout (fun before => Attributed env P (s.calls ++ before))
        (env.request toCome s :: made) := by
  obtain ⟨made, hcalls, hquiet⟩ := h.exists_quiet
  obtain ⟨made', hcalls', hmade⟩ := hP h
  obtain rfl : made = made' := List.append_cancel_left (hcalls.symm.trans hcalls')
  refine ⟨made, ?_, throughout_attributed hreply hquiet hmade⟩
  rw [hcalls, RunState.said_calls, RunState.asked_calls, List.append_assoc]
  rfl

theorem Course.attributed {total toCome : Nat} {words : Option String}
    {r : Except ServiceError String} (h : Course env total toCome words s log r t) :
    ∃ calls, t.calls = s.calls ++ calls ∧
      Throughout (fun before => Attributed env P (s.calls ++ before)) calls := by
  induction h with
  | exhausted => exact ⟨[], (List.append_nil _).symm, throughout_nil⟩
  | @unanswered toCome words s e hreply =>
    rw [← s.prompted_calls toCome]
    refine ⟨[_], rfl, throughout_singleton_iff.mpr ?_⟩
    intro hcall
    cases hcall
  | @last toCome words s t completion log r hreply h =>
    rw [← s.prompted_calls toCome]
    generalize s.prompted toCome = p at hreply h ⊢
    cases h with
    | spoken =>
      exact ⟨[_], rfl, throughout_attributed hreply quiet_nil throughout_nil⟩
    | exited h | withheld h | failed h =>
      obtain ⟨made, hcalls, hmade⟩ := h.attributed hP hreply
      exact ⟨_, hcalls, hmade⟩
  | @next toCome words s m t completion log later r hreply hrequested h _ ih =>
    rw [← s.prompted_calls toCome]
    generalize s.prompted toCome = p at hreply h ⊢
    obtain ⟨made, hcalls, hmade⟩ := h.attributed hP hreply
    obtain ⟨calls, hlater, hattributed⟩ := ih
    rw [hcalls] at hlater hattributed
    refine ⟨env.request toCome p :: made ++ calls, ?_, ?_⟩
    · rw [hlater, List.append_assoc]
    · rw [throughout_append_iff]
      refine ⟨hmade, hattributed.mono ?_⟩
      intro before call hcall
      rwa [← List.append_assoc]

end

/-- Every call of a course that is no request for a completion belongs to a tool call of the last
completion, whose tool was offered with it. -/
theorem Course.accounted {total toCome : Nat} {words : Option String}
    {r : Except ServiceError String} (h : Course env total toCome words s log r t) :
    ∃ calls, t.calls = s.calls ++ calls ∧
      Throughout (fun before => Accounted env (s.calls ++ before)) calls :=
  h.attributed Dispatched.onBehalf

/-! ### What is offered -/

theorem isEnabled_of_isOffered {toCome : Nat} {tool : Tool}
    (h : isOffered (env.offered toCome) tool = true) :
    tool.isEnabled env.corpus.tools = true := by
  have hsubset : ∀ spec ∈ env.offered toCome, spec ∈ env.corpus.offer := by
    intro spec hspec
    unfold Setting.offered at hspec
    split at hspec
    · exact List.mem_of_mem_filter hspec
    · exact hspec
  obtain ⟨spec, hspec, hname⟩ := List.any_eq_true.mp h
  obtain ⟨other, hother, rfl⟩ := List.mem_map.mp (hsubset spec hspec)
  have hsame : other = tool := by
    have hnames : other.name = tool.name := by simpa [Corpus.toolSpec] using hname
    have hother := ofName?_eq_some_iff_name.mpr hnames
    rw [ofName?_eq_some_iff_name.mpr rfl] at hother
    exact (Option.some.inj hother).symm
  rw [← hsame]
  exact (List.mem_filter.mp hother).2

theorem eq_exit_of_isOffered {tool : Tool} (h : isOffered (env.offered 0) tool = true) :
    tool = .exit := by
  rw [offered_zero] at h
  split at h
  · have hname : Tool.exit.name = tool.name := by
      simpa [isOffered, Corpus.toolSpec] using h
    cases tool with
    | exit => rfl
    | chunks | summaries | metadata => exact absurd hname (by decide)
  · cases h

/-! ### Whole runs -/

section

variable (env : Setting) (start : List Message) (o : Outcome)

/-- The run is over at a demand: the demands before it were carried out by completed tool calls,
what these gathered stays, and nothing was done after them. -/
structure EndsAt (before : List Demand) (demand : Demand) (log : List ToolRun) : Prop where
  /-- Only the demands before the last have records. -/
  workflow : o.workflow = log.map ToolRun.record
  meets : List.Forall₂ Record.Meets o.workflow before
  served : List.Forall₂ (fun d => Served env (env.offeredWith d.number) d.call) before
    (log.map ToolRun.made)
  /-- All other calls of collaborators than requests for completions are made for those demands. -/
  calls : o.calls.filter (fun call => !call.isComplete) = log.flatMap ToolRun.made
  /-- No further completion is asked for. -/
  last : o.calls.countP Call.isComplete = demand.number
  gathered : Holds env log (env.final start)

/-- What the outcome of a run has to do with what was offered. -/
structure OnlyOffered : Prop where
  /-- Every call that is no request for a completion is made on behalf of a tool call of the last
  completion, and the tool was offered with it. -/
  accounted : Throughout (Accounted env) o.calls
  /-- The tool of every record was offered with the completion that asked for it. -/
  recorded : ∀ record ∈ o.workflow, o.Offers record.iteration record.tool
  /-- No tool that is disabled was ever offered. -/
  enabled : ∀ number tool, o.Offers number tool → tool.isEnabled env.corpus.tools = true
  /-- Nothing is called in the last iteration after the request for its completion. -/
  quiet : ∀ before transcript tools force after,
    o.calls = before ++ .complete transcript tools force :: after →
    before.countP Call.isComplete + 1 = env.iterations → after = []
  /-- A tool call whose tool exists but was not offered ends the run successfully, whatever its
  arguments are. -/
  withheld : ∀ before demand after tool,
    env.collaborators.demanded o.calls = before ++ demand :: after → o.Reaches before →
    tool.name = demand.call.name → o.Withholds demand.number tool →
    (∃ log, EndsAt env start o before demand log) ∧
      ∃ answer, o.result = .ok (result env.corpus answer (env.final start))
  /-- A tool call whose tool does not exist fails the run, whatever was offered. -/
  unknown : ∀ before demand after,
    env.collaborators.demanded o.calls = before ++ demand :: after → o.Reaches before →
    (∀ tool : Tool, tool.name ≠ demand.call.name) →
    (∃ log, EndsAt env start o before demand log) ∧ o.result =
      .error (.runFailed (ProtocolFault.unknownTool demand.call.name).error.message o.workflow)

end

theorem forall₂_served {done : List Demand}
    (hmeets : List.Forall₂ Record.Meets (log.map ToolRun.record) done)
    (hcarried : ∀ run ∈ log, CarriedOut env run)
    (hsegments : ∀ run ∈ log, Segment env run.record.arguments run.record.tool run.made) :
    List.Forall₂ (fun d => Served env (env.offeredWith d.number) d.call) done
      (log.map ToolRun.made) := by
  induction log generalizing done with
  | nil =>
    cases hmeets
    exact .nil
  | cons run log ih =>
    obtain ⟨hrun, hcarried⟩ := List.forall_mem_cons.mp hcarried
    obtain ⟨hsegment, hsegments⟩ := List.forall_mem_cons.mp hsegments
    rw [List.map_cons] at hmeets
    cases hmeets with
    | cons hmeet hmeets =>
      refine .cons ⟨_, _, hmeet.name, ?_, hmeet.arguments, hsegment⟩ (ih hmeets hcarried hsegments)
      rw [← hmeet.iteration]
      exact hrun.offered

namespace Report

variable {start : List Message} {o : Outcome} {done left : List Demand} {rest failed : List Call}
  {r : Except ServiceError String}

/-- If the first tool call without a record made no calls, the run is over there. -/
theorem endsAt (h : Report env start o log done left rest failed r t) {demand : Demand}
    (hnumber : demand.number = (env.collaborators.completions [] o.calls).length)
    (hrest : rest = []) (hfailed : failed = []) : EndsAt env start o done demand log where
  workflow := h.workflow
  meets := by
    rw [h.workflow]
    exact h.ledger.meets
  served := forall₂_served h.ledger.meets h.carriedOut h.ledger.segments
  calls := by
    rw [h.ledger.split, hrest, List.append_nil]
  last := by
    obtain ⟨good, hcalls, hgood, -⟩ := h.ledger.sound
    rw [hfailed, List.append_nil] at hcalls
    rw [← hcalls] at hgood
    rw [hnumber, Collaborators.completions_length_eq hgood]
  gathered := by
    rw [h.final]
    exact h.holds

theorem offers_record (h : Report env start o log done left rest failed r t) {record : Record}
    (hrecord : record ∈ o.workflow) : o.Offers record.iteration record.tool := by
  rw [h.workflow] at hrecord
  obtain ⟨run, hrun, rfl⟩ := List.mem_map.mp hrecord
  obtain ⟨demand, hdemand, hmeets⟩ := exists_meets h.ledger.meets (List.mem_map_of_mem hrun)
  have hasked : demand ∈ env.collaborators.demanded o.calls := by
    rw [h.ledger.demands]
    exact List.mem_append_left _ hdemand
  rw [hmeets.iteration, h.offers_iff hasked, ← hmeets.iteration]
  exact (h.carriedOut run hrun).offered

/-- A tool call that the run gets to is the first one without a record if its tool was not offered,
and then the last words are the answer. -/
theorem left_of_withheld (h : Report env start o log done left rest failed r t)
    {before after : List Demand} {demand : Demand} {tool : Tool}
    (hasked : env.collaborators.demanded o.calls = before ++ demand :: after)
    (hreaches : o.Reaches before) (hname : tool.name = demand.call.name)
    (hwithheld : o.Withholds demand.number tool) :
    done = before ∧ left = demand :: after ∧
      demand.number = (env.collaborators.completions [] o.calls).length ∧
      r = .ok ((latestWords (env.collaborators.completions [] o.calls)).getD "") := by
  have hdemand : demand ∈ env.collaborators.demanded o.calls := by
    rw [hasked]
    exact List.mem_append_right _ List.mem_cons_self
  rw [h.withholds_iff hdemand] at hwithheld
  have htool := ofName?_eq_some_iff_name.mpr hname
  rcases h.reached hasked hreaches with ⟨-, run, -, hmeets, hcarried⟩ | ⟨hdone, hleft, hexit⟩
  · -- a tool call with a record had been offered
    have hsame : run.record.tool = tool := by
      rw [ofName?_eq_some_iff_name.mpr hmeets.name] at htool
      exact Option.some.inj htool
    have hoffered := hcarried.offered
    rw [hsame, hmeets.iteration, hwithheld] at hoffered
    cases hoffered
  · have hconclusion := h.conclusion
    rw [hleft] at hconclusion
    obtain ⟨hnumber, ⟨-, hr, -, -⟩ | ⟨e, s, u, -, hfailed⟩⟩ := hconclusion.left_cases hexit
    · rw [latestWords_orElse_none] at hr
      exact ⟨hdone, hleft, by omega, hr⟩
    · cases hfailed with
      | unknown hnone =>
        rw [htool] at hnone
        cases hnone
      | unreadable hother hoffered | performed hother hoffered =>
        obtain rfl := Option.some.inj (htool.symm.trans hother)
        rw [hwithheld] at hoffered
        cases hoffered

theorem withheld (h : Report env start o log done left rest failed r t)
    {before after : List Demand} {demand : Demand} {tool : Tool}
    (hasked : env.collaborators.demanded o.calls = before ++ demand :: after)
    (hreaches : o.Reaches before) (hname : tool.name = demand.call.name)
    (hwithheld : o.Withholds demand.number tool) :
    EndsAt env start o before demand log ∧
      ∃ answer, o.result = .ok (Retrieval.result env.corpus answer (env.final start)) := by
  obtain ⟨rfl, rfl, hnumber, hr⟩ := h.left_of_withheld hasked hreaches hname hwithheld
  have hleftover := h.ledger.leftover
  have hnothing : rest = [] ∧ failed = [] := by
    rw [hr] at hleftover
    cases hleftover with
    | exited | withheld => exact ⟨rfl, rfl⟩
  rw [h.final, h.result, hr]
  exact ⟨h.endsAt hnumber hnothing.1 hnothing.2, _, rfl⟩

theorem unknown (h : Report env start o log done left rest failed r t)
    {before after : List Demand} {demand : Demand}
    (hasked : env.collaborators.demanded o.calls = before ++ demand :: after)
    (hreaches : o.Reaches before) (hname : ∀ tool : Tool, tool.name ≠ demand.call.name) :
    EndsAt env start o before demand log ∧ o.result = .error
      (.runFailed (ProtocolFault.unknownTool demand.call.name).error.message o.workflow) := by
  have htool := ofName?_eq_none_iff_name.mpr hname
  rcases h.reached hasked hreaches with ⟨-, run, -, hmeets, -⟩ | ⟨rfl, rfl, hexit⟩
  · exact absurd hmeets.name (hname _)
  · obtain ⟨hnumber, ⟨tool, -, hother, -⟩ | ⟨e, s, u, rfl, hfailed⟩⟩ :=
      h.conclusion.left_cases hexit
    · rw [htool] at hother
      cases hother
    · cases hfailed with
      | unknown =>
        have hleftover := h.ledger.leftover
        have hnothing : rest = [] ∧ failed = [] := by
          cases hleftover with
          | refused => exact ⟨rfl, rfl⟩
          | cut hother =>
            rw [htool] at hother
            cases hother
        refine ⟨h.endsAt (by omega) hnothing.1 hnothing.2, ?_⟩
        rw [h.result, Setting.finished, h.kept]
      | unreadable hother | performed hother =>
        rw [htool] at hother
        cases hother

theorem isEnabled (h : Report env start o log done left rest failed r t) {number : Nat}
    {tool : Tool} (hoffers : o.Offers number tool) : tool.isEnabled env.corpus.tools = true := by
  obtain ⟨tools, hrequested, hoffered⟩ := hoffers
  obtain ⟨-, rfl⟩ := h.requested number tools hrequested
  exact isEnabled_of_isOffered hoffered

theorem quiet (h : Report env start o log done left rest failed r t)
    (haccounted : Throughout (Accounted env) o.calls) {before after : List Call}
    {transcript : List Message} {tools : List ToolSpec} {force : Bool}
    (hcalls : o.calls = before ++ .complete transcript tools force :: after)
    (hlast : before.countP Call.isComplete + 1 = env.iterations) : after = [] := by
  cases after with
  | nil => rfl
  | cons call later =>
    exfalso
    have hsplit : o.calls = (before ++ [.complete transcript tools force]) ++ call :: later := by
      rw [hcalls, List.append_assoc]
      rfl
    cases hcall : call.isComplete with
    | true =>
      -- there is no iteration left for another request
      cases call with
      | complete transcript' tools' force' =>
        have hrequested := h.requested _ tools' ⟨_, transcript', force', later, hsplit, rfl⟩
        have hcount : (before ++ [Call.complete transcript tools force]).countP Call.isComplete =
            before.countP Call.isComplete + 1 := List.countP_append
        omega
      | _ => cases hcall
    | false =>
      obtain ⟨earlier, transcript', tools', force', made, completion, hbefore, hquiet, -,
        hbehalf⟩ := haccounted _ call later hsplit hcall
      -- nothing was made since the request, which offered nothing but `exit`
      have hmade : made = [] := by
        rcases List.eq_nil_or_concat made with hnone | ⟨first, final, rfl⟩
        · exact hnone
        · rw [List.concat_eq_append, ← List.cons_append, ← List.append_assoc] at hbefore
          obtain ⟨-, hfinal⟩ := List.append_inj' hbefore rfl
          have hno := hquiet final (by simp)
          rw [← List.head_eq_of_cons_eq hfinal] at hno
          cases hno
      rw [hmade] at hbefore hbehalf
      obtain ⟨-, hsame⟩ := List.append_inj' hbefore rfl
      obtain ⟨-, rfl, -⟩ := Call.complete.inj (List.head_eq_of_cons_eq hsame)
      obtain ⟨-, htools⟩ := h.requested _ tools ⟨before, transcript, force, _, hcalls, hlast⟩
      rw [Setting.offeredWith, Nat.sub_self] at htools
      obtain ⟨-, -, ⟨tool, args, -, hoffered, -, hsegment⟩, -, hbeginning⟩ := hbehalf
      rw [htools] at hoffered
      obtain rfl := eq_exit_of_isOffered hoffered
      cases hsegment
      exact absurd (List.prefix_nil.mp hbeginning) (by simp)

end Report

theorem outcome_onlyOffered (env : Setting) (start : List Message) :
    OnlyOffered env start (env.outcome start) := by
  obtain ⟨log, done, left, rest, failed, r, t, hreport⟩ := outcome_report env start
  have haccounted : Throughout (Accounted env) (env.outcome start).calls := by
    obtain ⟨calls, hmade, haccounted⟩ := hreport.course.accounted
    rw [hreport.calls.trans hmade]
    exact haccounted
  exact {
    accounted := haccounted
    recorded := fun record hrecord => hreport.offers_record hrecord
    enabled := fun number tool hoffers => hreport.isEnabled hoffers
    quiet := fun before transcript tools force after hcalls hlast =>
      hreport.quiet haccounted hcalls hlast
    withheld := fun before demand after tool hasked hreaches hname hwithheld =>
      have hends := hreport.withheld hasked hreaches hname hwithheld
      ⟨⟨log, hends.1⟩, hends.2⟩
    unknown := fun before demand after hasked hreaches hname =>
      have hends := hreport.unknown hasked hreaches hname
      ⟨⟨log, hends.1⟩, hends.2⟩ }

/-- **Only offered tools run.**  A run calls the embedding and the store only for tool calls whose
tool was offered with the completion that asks for them; a tool call whose tool was not offered ends
the run, and one whose tool does not exist fails it. -/
theorem retrieve_onlyOffered (corpora : List Corpus) (collaborators : Collaborators) (r : Request) :
    (r.Refused corpora ∧ (retrieve corpora collaborators r).calls = []) ∨
      ∃ c ∈ corpora, c.id = r.corpusId ∧
        OnlyOffered ⟨c, lenientFilter r.filter, collaborators⟩ (conversation c r.messages)
          (retrieve corpora collaborators r) := by
  rcases retrieve_cases corpora collaborators r with hrefused | ⟨c, hc, hid, -, hretrieve⟩
  · exact .inl hrefused
  · rw [hretrieve]
    exact .inr ⟨c, hc, hid, outcome_onlyOffered ..⟩

end CorpusAgent.Retrieval
