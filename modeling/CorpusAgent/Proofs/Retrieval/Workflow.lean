import CorpusAgent.Proofs.Retrieval.History
import Mathlib.Data.List.Forall2

/-!
# The workflow of a run

A run records the tool calls that it completes, in the order in which the completions ask for them.

* `Demand`, `demands`: the tool calls that completions ask for.
* `Segment`: the calls of collaborators that a tool makes when nothing fails.
* `Leftover`: how a run leaves off, by what becomes of the first tool call that has no record.
* `Account`, `Ledger`: the demands, the records and the calls of collaborators side by side.
* `Course.ledger`: every course has a ledger.
* `retrieve_workflow`: so has every run, and its records are those of the ledger.
-/

namespace CorpusAgent.Retrieval

/-- A tool call that a completion asks for, with the number of the completion. -/
structure Demand where
  number : Nat
  call : ToolCall

/-- The tool calls that completions ask for, numbered from the first completion on. -/
def demands (first : Nat) : List Completion → List Demand
  | [] => []
  | completion :: rest => completion.calls.map (⟨first, ·⟩) ++ demands (first + 1) rest

theorem demands_singleton (first : Nat) (completion : Completion) :
    demands first [completion] = completion.calls.map (⟨first, ·⟩) := List.append_nil _

/-- A record is that of a demand: it has the number of the completion, the tool of the name and the
arguments that can be read. -/
structure Record.Meets (record : Record) (demand : Demand) : Prop where
  iteration : record.iteration = demand.number
  name : record.tool.name = demand.call.name
  arguments : Retrieval.arguments demand.call = .ok record.arguments

section

variable (env : Setting)

/-- The calls of collaborators that a tool makes when nothing fails. -/
inductive Segment (args : Arguments) : Tool → List Call → Prop
  | exit : Segment args .exit []
  | chunks {query : String} (hquery : requiredText .chunks "query" args = .ok query)
    (search : Storage.ChunkQuery) :
    Segment args .chunks [env.embedding query, .searchChunks search]
  | summaries {query : String} (hquery : requiredText .summaries "query" args = .ok query)
    (vector : List Single) :
    Segment args .summaries [env.embedding query, env.summariesSearch args vector]
  | unfiltered (hfilter : env.effectiveFilter args = none) : Segment args .metadata []
  | counted {filter : Filter} (hfilter : env.effectiveFilter args = some filter) :
    Segment args .metadata
      [.countDocuments env.corpus.id (some (filter.compile env.corpus.fields))]

/-- A tool call that fails before any call of a collaborator: its tool does not exist, its arguments
cannot be read, or a text that the tool needs is missing. -/
inductive Refuses (call : ToolCall) : Prop
  | unknown (hname : Tool.ofName? call.name = none)
  | unreadable {fault : ProtocolFault} (harguments : arguments call = .error fault)
  | missing {tool : Tool} {args : Arguments} {name : String}
    (hname : Tool.ofName? call.name = some tool) (harguments : arguments call = .ok args)
    (hneeded : neededText tool = some name)
    (hmissing : (Json.find? name args).bind Json.text? = none)

/-- How a run leaves off: whether it succeeds, the demands that are left after the completed tool
calls, the calls of collaborators since the last completed one, and the call that failed. -/
inductive Leftover (log : List ToolRun) : Bool → List Demand → List Call → List Call → Prop
  /-- Nothing is left to do. -/
  | nothing : Leftover log true [] [] []
  /-- The last tool call was `exit`. -/
  | exited {run : ToolRun} {left : List Demand} (hlast : log.getLast? = some run)
    (htool : run.record.tool = .exit) : Leftover log true left [] []
  /-- The next tool was not offered. -/
  | withheld {demand : Demand} {rest : List Demand} {tool : Tool}
    (hname : Tool.ofName? demand.call.name = some tool)
    (hoffered : isOffered (env.offered (env.iterations - demand.number)) tool = false) :
    Leftover log true (demand :: rest) [] []
  /-- The model failed. -/
  | unanswered {call : Call} (hcall : call.isComplete = true) : Leftover log false [] [] [call]
  | refused {demand : Demand} {rest : List Demand} (h : Refuses demand.call) :
    Leftover log false (demand :: rest) [] []
  /-- A call of the next tool failed, and what it had done is the beginning of its segment. -/
  | cut {demand : Demand} {rest : List Demand} {tool : Tool} {args : Arguments}
    {segment before : List Call} {call : Call} (hname : Tool.ofName? demand.call.name = some tool)
    (harguments : arguments demand.call = .ok args) (hsegment : Segment env args tool segment)
    (hbeginning : before ++ [call] <+: segment) :
    Leftover log false (demand :: rest) (before ++ [call]) [call]

/-- The demands of completions, the completed tool calls and the calls of collaborators after
earlier ones, side by side. -/
structure Account (earlier : List Call) (asked : List Demand) (calls : List Call)
    (succeeded : Bool) (log : List ToolRun) (done left : List Demand) (rest failed : List Call) :
    Prop where
  demands : asked = done ++ left
  /-- The completed tool calls carry out the first demands, one each and in order. -/
  meets : List.Forall₂ Record.Meets (log.map ToolRun.record) done
  segments : ∀ run ∈ log, Segment env run.record.arguments run.record.tool run.made
  /-- Each stands at its place among the calls. -/
  placed : ∀ run ∈ log, run.calls <+: earlier ++ calls
  /-- Apart from the requests for completions there are no other calls. -/
  split : calls.filter (fun call => !call.isComplete) = log.flatMap ToolRun.made ++ rest
  /-- All calls succeed but the last, if that is the one that failed. -/
  sound : ∃ good, calls = good ++ failed ∧ env.collaborators.AllSucceed earlier good ∧
    ∀ call ∈ failed, ¬env.collaborators.Succeeds (earlier ++ good) call
  /-- Nothing happens after an `exit`. -/
  exit : ∀ before run after, log = before ++ run :: after → run.record.tool = .exit →
    after = [] ∧ run.calls = earlier ++ calls ∧ succeeded = true

/-- An account of a run, together with how the run leaves off. -/
structure Ledger (earlier : List Call) (asked : List Demand) (calls : List Call)
    (succeeded : Bool) (log : List ToolRun) (done left : List Demand) (rest failed : List Call) :
    Prop extends Account env earlier asked calls succeeded log done left rest failed where
  leftover : Leftover env log succeeded left rest failed

end

variable {env : Setting} {s t m : RunState} {args : Arguments} {tool : Tool}

/-! ### Calls that succeed -/

theorem requiredText_eq_ok_iff {name text : String} :
    requiredText tool name args = .ok text ↔
      (Json.find? name args).bind Json.text? = some text := by
  unfold requiredText
  cases (Json.find? name args).bind Json.text? with
  | none => exact iff_of_false (fun h => by cases h) fun h => by cases h
  | some found =>
    exact ⟨fun h => congrArg some (Except.ok.inj h), fun h => congrArg _ (Option.some.inj h)⟩

theorem embedding_succeeds {earlier : List Call} {query : String} {vector : List Single}
    (h : env.vector earlier query = .ok vector) :
    env.collaborators.Succeeds earlier (env.embedding query) := by
  unfold Setting.vector at h
  split at h
  · next found rest hreply => exact ⟨found, rest, hreply⟩
  · cases h
  · cases h

theorem embedding_fails {earlier : List Call} {query : String} {e : ServiceError}
    (h : env.vector earlier query = .error e) :
    ¬env.collaborators.Succeeds earlier (env.embedding query) := by
  rintro ⟨vector, rest, hreply⟩
  rw [Setting.vector, hreply] at h
  cases h

theorem isOk_of_eq_ok {ε α : Type} {x : Except ε α} {a : α} (h : x = .ok a) : x.isOk = true := by
  rw [h]
  rfl

theorem isOk_of_eq_error {ε α : Type} {x : Except ε α} {e : ε} (h : x = .error e) :
    ¬x.isOk = true := by
  rw [h]
  exact Bool.false_ne_true

theorem Quiet.filter_eq {calls : List Call} (h : Quiet calls) :
    calls.filter (fun call => !call.isComplete) = calls := by
  rw [List.filter_eq_self]
  intro call hcall
  rw [h call hcall, Bool.not_false]

/-! ### One tool call -/

/-- A tool that succeeds makes the calls of its segment, and all of them succeed. -/
theorem Performed.segment {step : Step} (h : Performed env args s tool (.ok step) t) :
    ∃ made, t.calls = s.calls ++ made ∧ Segment env args tool made ∧
      env.collaborators.AllSucceed s.calls made := by
  cases h with
  | exited => exact ⟨[], (List.append_nil _).symm, .exit, throughout_nil⟩
  | chunks hquery hvector hhits =>
    refine ⟨[_] ++ [_], List.append_assoc .., .chunks hquery _, ?_⟩
    rw [Collaborators.allSucceed_append_iff, Collaborators.allSucceed_singleton_iff,
      Collaborators.allSucceed_singleton_iff]
    exact ⟨embedding_succeeds hvector, isOk_of_eq_ok hhits⟩
  | summaries hquery hvector hhits =>
    refine ⟨[_] ++ [_], List.append_assoc .., .summaries hquery _, ?_⟩
    rw [Collaborators.allSucceed_append_iff, Collaborators.allSucceed_singleton_iff,
      Collaborators.allSucceed_singleton_iff]
    exact ⟨embedding_succeeds hvector, isOk_of_eq_ok hhits⟩
  | unfiltered hfilter => exact ⟨[], (List.append_nil _).symm, .unfiltered hfilter, throughout_nil⟩
  | counted hfilter hcount =>
    refine ⟨_, rfl, .counted hfilter, ?_⟩
    exact Collaborators.allSucceed_singleton_iff.mpr (isOk_of_eq_ok hcount)

theorem exists_segment_embedding (env : Setting) {query : String}
    (hneeded : neededText tool = some "query")
    (hquery : requiredText tool "query" args = .ok query) :
    ∃ rest, Segment env args tool (env.embedding query :: rest) := by
  cases tool with
  | exit => exact absurd hneeded (by decide)
  | chunks => exact ⟨_, .chunks hquery (env.chunkQuery args { transcript := [] } [])⟩
  | summaries => exact ⟨_, .summaries hquery []⟩
  | metadata => cases hneeded

/-- A tool that fails lacks a text, or its last call fails and what it has done is the beginning of
its segment. -/
theorem Performed.cut {e : ServiceError} (h : Performed env args s tool (.error e) t) :
    (t.calls = s.calls ∧ ∃ name, neededText tool = some name ∧
      (Json.find? name args).bind Json.text? = none) ∨
    ∃ before call segment, t.calls = s.calls ++ (before ++ [call]) ∧
      Segment env args tool segment ∧ before ++ [call] <+: segment ∧
      env.collaborators.AllSucceed s.calls before ∧
      ¬env.collaborators.Succeeds (s.calls ++ before) call := by
  cases h with
  | @refused _ name fault hname htext =>
    refine .inl ⟨rfl, name, hname, ?_⟩
    rw [Option.eq_none_iff_forall_ne_some]
    intro text hfound
    rw [requiredText_eq_ok_iff.mpr hfound] at htext
    cases htext
  | unembedded hname hquery hvector =>
    obtain ⟨rest, hsegment⟩ := exists_segment_embedding env hname hquery
    refine .inr ⟨[], _, _, rfl, hsegment, List.prefix_append [_] rest, throughout_nil, ?_⟩
    rw [List.append_nil]
    exact embedding_fails hvector
  | chunksFailed hquery hvector hhits =>
    refine .inr ⟨[_], _, _, List.append_assoc .., .chunks hquery _, List.prefix_refl _, ?_, ?_⟩
    · exact Collaborators.allSucceed_singleton_iff.mpr (embedding_succeeds hvector)
    · exact isOk_of_eq_error hhits
  | summariesFailed hquery hvector hhits =>
    refine .inr ⟨[_], _, _, List.append_assoc .., .summaries hquery _, List.prefix_refl _, ?_, ?_⟩
    · exact Collaborators.allSucceed_singleton_iff.mpr (embedding_succeeds hvector)
    · exact isOk_of_eq_error hhits
  | countFailed hfilter hcount =>
    refine .inr ⟨[], _, _, rfl, .counted hfilter, List.prefix_refl _, throughout_nil, ?_⟩
    rw [List.append_nil]
    exact isOk_of_eq_error hcount

theorem Performed.eq_exit {answer : String}
    (h : Performed env args s tool (.ok (.answer answer)) t) : tool = .exit := by
  cases h
  rfl

theorem Performed.ne_exit {result summary : Json}
    (h : Performed env args s tool (.ok (.result result summary)) t) : tool ≠ .exit := by
  cases h <;> exact Tool.noConfusion

section

variable {offered : List ToolSpec} {number : Nat} {request : ToolCall} {run : ToolRun} {step : Step}

theorem Completed.meets (h : Completed env offered number request s run step t) :
    run.record.Meets ⟨number, request⟩ :=
  ⟨h.iteration, name_eq_of_ofName? h.name, h.arguments⟩

theorem Completed.segment (h : Completed env offered number request s run step t) :
    Segment env run.record.arguments run.record.tool run.made ∧
      env.collaborators.AllSucceed s.calls run.made := by
  obtain ⟨made, hcalls, hsegment, hsucceed⟩ := h.performed.segment
  rw [h.calls_eq, List.append_cancel_left_eq] at hcalls
  exact hcalls ▸ ⟨hsegment, hsucceed⟩

end

/-! ### Ledgers -/

section

variable {earlier calls rest failed : List Call} {asked done left : List Demand} {ok : Bool}
  {log : List ToolRun}

theorem Leftover.cons (run : ToolRun) (h : Leftover env log ok left rest failed) :
    Leftover env (run :: log) ok left rest failed := by
  cases h with
  | nothing => exact .nothing
  | exited hlast htool =>
    refine .exited ?_ htool
    rw [List.getLast?_cons, hlast]
    rfl
  | withheld hname hoffered => exact .withheld hname hoffered
  | unanswered hcall => exact .unanswered hcall
  | refused h => exact .refused h
  | cut hname harguments hsegment hbeginning => exact .cut hname harguments hsegment hbeginning

theorem Account.idle : Account env earlier left [] ok [] [] left [] [] where
  demands := rfl
  meets := .nil
  segments := by simp
  placed := by simp
  split := rfl
  sound := ⟨[], rfl, throughout_nil, by simp⟩
  exit := by simp

theorem Ledger.idle (h : Leftover env [] ok left [] []) :
    Ledger env earlier left [] ok [] [] left [] [] := ⟨.idle, h⟩

theorem Account.cons {offered : List ToolSpec} {number : Nat} {request : ToolCall} {run : ToolRun}
    {step : Step} (hrun : Completed env offered number request s run step m)
    (h : Account env m.calls asked calls ok log done left rest failed)
    (hexit : run.record.tool = .exit → log = [] ∧ calls = [] ∧ ok = true) :
    Account env s.calls (⟨number, request⟩ :: asked) (run.made ++ calls) ok (run :: log)
      (⟨number, request⟩ :: done) left rest failed := by
  have hsegment := hrun.segment
  have hearlier : s.calls ++ (run.made ++ calls) = m.calls ++ calls := by
    rw [hrun.calls_eq, List.append_assoc]
  refine ⟨congrArg _ h.demands, .cons hrun.meets h.meets, ?_, ?_, ?_, ?_, ?_⟩
  · exact List.forall_mem_cons.mpr ⟨hsegment.1, h.segments⟩
  · rw [hearlier]
    exact List.forall_mem_cons.mpr ⟨hrun.calls ▸ List.prefix_append .., h.placed⟩
  · rw [List.filter_append, hrun.quiet.filter_eq, h.split, List.flatMap_cons, List.append_assoc]
  · obtain ⟨good, hcalls, hgood, hfailed⟩ := h.sound
    refine ⟨run.made ++ good, ?_, ?_, ?_⟩
    · rw [hcalls, List.append_assoc]
    · exact Collaborators.allSucceed_append_iff.mpr ⟨hsegment.2, hrun.calls_eq ▸ hgood⟩
    · rw [← List.append_assoc, ← hrun.calls_eq]
      exact hfailed
  · -- an `exit` is the tool call in front, or one of the others
    rintro (_ | ⟨first, before⟩) other after hlog htool
    · obtain ⟨rfl, rfl⟩ := List.cons.inj hlog
      obtain ⟨rfl, rfl, rfl⟩ := hexit htool
      exact ⟨rfl, by rw [ToolRun.calls, hrun.earlier, List.append_nil], rfl⟩
    · have hlater : log = before ++ other :: after := (List.cons.inj hlog).2
      rw [hearlier]
      exact h.exit before other after hlater htool

/-- A completed tool call after which the run goes on. -/
theorem Ledger.cons {offered : List ToolSpec} {number : Nat} {request : ToolCall} {run : ToolRun}
    {result summary : Json}
    (hrun : Completed env offered number request s run (.result result summary) m)
    (h : Ledger env m.calls asked calls ok log done left rest failed) :
    Ledger env s.calls (⟨number, request⟩ :: asked) (run.made ++ calls) ok (run :: log)
      (⟨number, request⟩ :: done) left rest failed :=
  ⟨.cons hrun h.toAccount fun hexit => absurd hexit hrun.performed.ne_exit, h.leftover.cons run⟩

theorem Ledger.exited {offered : List ToolSpec} {number : Nat} {request : ToolCall} {run : ToolRun}
    {answer : String} (hrun : Completed env offered number request s run (.answer answer) m)
    (later : List Demand) :
    Ledger env s.calls (⟨number, request⟩ :: later) (run.made ++ []) true [run]
      [⟨number, request⟩] later [] [] :=
  ⟨.cons hrun .idle fun _ => ⟨rfl, rfl, rfl⟩, .exited rfl hrun.performed.eq_exit⟩

theorem Ledger.completed {call : Call} (hcall : call.isComplete = true)
    (hsucceeds : env.collaborators.Succeeds earlier call)
    (h : Ledger env (earlier ++ [call]) asked calls ok log done left rest failed) :
    Ledger env earlier asked (call :: calls) ok log done left rest failed := by
  have hearlier : earlier ++ call :: calls = earlier ++ [call] ++ calls := List.append_cons ..
  refine ⟨⟨h.demands, h.meets, h.segments, ?_, ?_, ?_, ?_⟩, h.leftover⟩
  · rw [hearlier]
    exact h.placed
  · rw [List.filter_cons_of_neg (by simp [hcall]), h.split]
  · obtain ⟨good, hcalls, hgood, hfailed⟩ := h.sound
    refine ⟨[call] ++ good, ?_, ?_, ?_⟩
    · rw [hcalls, List.append_assoc]
      rfl
    · rw [Collaborators.allSucceed_append_iff, Collaborators.allSucceed_singleton_iff]
      exact ⟨hsucceeds, hgood⟩
    · rw [← List.append_assoc]
      exact hfailed
  · rw [hearlier]
    exact h.exit

theorem Ledger.unanswered {call : Call} (hcall : call.isComplete = true)
    (hfails : ¬env.collaborators.Succeeds earlier call) :
    Ledger env earlier [] [call] false [] [] [] [] [call] where
  demands := rfl
  meets := .nil
  segments := by simp
  placed := by simp
  split := List.filter_cons_of_neg (by simp [hcall])
  sound := by
    refine ⟨[], rfl, throughout_nil, List.forall_mem_singleton.mpr ?_⟩
    rwa [List.append_nil]
  exit := by simp
  leftover := .unanswered hcall

end

theorem Failed.ledger {offered : List ToolSpec} {number : Nat} {request : ToolCall}
    {e : ServiceError} (h : Failed env offered request s e t) (later : List Demand) :
    ∃ calls failed, t.calls = s.calls ++ calls ∧ Quiet calls ∧
      Ledger env s.calls (⟨number, request⟩ :: later) calls false [] [] (⟨number, request⟩ :: later)
        calls failed := by
  obtain ⟨made, hmade, hquiet⟩ := h.exists_quiet
  cases h with
  | unknown hname =>
    exact ⟨[], [], (List.append_nil _).symm, quiet_nil, .idle (.refused (.unknown hname))⟩
  | unreadable hname hoffered harguments =>
    exact ⟨[], [], (List.append_nil _).symm, quiet_nil, .idle (.refused (.unreadable harguments))⟩
  | performed hname hoffered harguments h =>
    rcases h.cut with ⟨hcalls, name, hneeded, hmissing⟩ |
      ⟨before, call, segment, hcalls, hsegment, hbeginning, hbefore, hcall⟩
    · refine ⟨[], [], by rw [hcalls, List.append_nil], quiet_nil, .idle (.refused ?_)⟩
      exact .missing hname harguments hneeded hmissing
    · rw [hcalls, List.append_cancel_left_eq] at hmade
      obtain rfl := hmade
      exact
        ⟨before ++ [call], [call], hcalls, hquiet, {
          demands := rfl
          meets := .nil
          segments := by simp
          placed := by simp
          split := hquiet.filter_eq
          sound := ⟨before, rfl, hbefore, List.forall_mem_singleton.mpr hcall⟩
          exit := by simp
          leftover := .cut hname harguments hsegment hbeginning }⟩

/-! ### Whole runs -/

section

variable {earlier calls rest failed : List Call} {asked done left : List Demand} {ok : Bool}
  {log : List ToolRun}

theorem Dispatched.prepend {offered : List ToolSpec} {number : Nat} {requests : List ToolCall}
    {first : List ToolRun} (h : Dispatched env offered number requests s first (.ok .complete) m)
    (hrest : Ledger env m.calls asked calls ok log done left rest failed) :
    ∃ made, m.calls = s.calls ++ made ∧ Quiet made ∧
      Ledger env s.calls (requests.map (⟨number, ·⟩) ++ asked) (made ++ calls) ok (first ++ log)
        (requests.map (⟨number, ·⟩) ++ done) left rest failed := by
  -- along the tool calls, the ledger of the rest staying behind them
  generalize hending : (Except.ok Ending.complete : Except ServiceError Ending) = r at h
  induction h with
  | done s => exact ⟨[], (List.append_nil _).symm, quiet_nil, hrest⟩
  | withheld | failed | exited => cases hending
  | answered h _ ih =>
    obtain ⟨made, hcalls, hquiet, hledger⟩ := ih hrest hending
    refine ⟨_, ?_, h.quiet.append hquiet, ?_⟩
    · rw [hcalls, ← List.append_assoc, ← h.calls_eq]
      rfl
    · rw [List.append_assoc]
      exact .cons h hledger

theorem Dispatched.ledger {offered : List ToolSpec} {number : Nat} {requests : List ToolCall}
    {r : Except ServiceError Ending} (h : Dispatched env offered number requests s log r t)
    (hoffered : env.offered (env.iterations - number) = offered) (hr : r ≠ .ok .complete) :
    ∃ calls done left rest failed, t.calls = s.calls ++ calls ∧ Quiet calls ∧
      Ledger env s.calls (requests.map (⟨number, ·⟩)) calls r.isOk log done left rest failed := by
  induction h with
  | done s => exact absurd rfl hr
  | withheld hname hnot =>
    refine ⟨[], [], _, [], [], (List.append_nil _).symm, quiet_nil, .idle ?_⟩
    exact .withheld hname (hoffered ▸ hnot)
  | failed h =>
    obtain ⟨calls, failed, hcalls, hquiet, hledger⟩ := h.ledger _
    exact ⟨calls, [], _, calls, failed, hcalls, hquiet, hledger⟩
  | exited h =>
    refine ⟨_, _, _, _, _, ?_, h.quiet.append quiet_nil, .exited h _⟩
    rw [List.append_nil]
    exact h.calls_eq
  | answered h _ ih =>
    obtain ⟨calls, done, left, rest, failed, hcalls, hquiet, hledger⟩ := ih hr
    refine ⟨_, _, left, rest, failed, ?_, h.quiet.append hquiet, .cons h hledger⟩
    rw [hcalls, ← List.append_assoc, ← h.calls_eq]
    rfl

/-- How an iteration after which nothing comes goes on from its completion. -/
theorem Last.ledger {toCome : Nat} {words : Option String} {completion : Completion}
    {r : Except ServiceError String} (hle : toCome ≤ env.iterations)
    (h : Last env env.iterations toCome words completion s log r t) :
    ∃ calls done left rest failed, t.calls = s.calls ++ calls ∧ Quiet calls ∧
      Ledger env s.calls (completion.calls.map (⟨env.iterations - toCome, ·⟩)) calls r.isOk log done
        left rest failed := by
  have hoffered : env.offered (env.iterations - (env.iterations - toCome)) = env.offered toCome :=
    congrArg _ (Nat.sub_sub_self hle)
  cases h with
  | spoken hcalls =>
    rw [hcalls]
    exact ⟨[], [], [], [], [], (List.append_nil _).symm, quiet_nil, .idle .nothing⟩
  | exited h => exact h.ledger hoffered nofun
  | withheld h => exact h.ledger hoffered nofun
  | failed h => exact h.ledger hoffered nofun

/-- The iterations that remain of a run have a ledger. -/
theorem Course.ledger {toCome : Nat} {words : Option String} {r : Except ServiceError String}
    (h : Course env env.iterations toCome words s log r t) (hle : toCome ≤ env.iterations) :
    ∃ calls done left rest failed, t.calls = s.calls ++ calls ∧
      Ledger env s.calls (demands (env.iterations + 1 - toCome)
        (env.collaborators.completions s.calls calls)) calls r.isOk log done left rest failed := by
  induction h with
  | exhausted words s =>
    exact ⟨[], [], [], [], [], (List.append_nil _).symm, .idle .nothing⟩
  | @unanswered toCome words s e hreply =>
    rw [← s.prompted_calls toCome]
    generalize s.prompted toCome = p at hreply ⊢
    refine ⟨[env.request toCome p], [], [], [], [env.request toCome p], rfl, ?_⟩
    rw [completions_unanswered hreply]
    exact .unanswered rfl (isOk_of_eq_error hreply)
  | @last toCome words s t completion log r hreply h =>
    -- the tools ask for no completion, so this one is the only one left
    rw [← s.prompted_calls toCome]
    generalize s.prompted toCome = p at hreply h ⊢
    obtain ⟨made, done, left, rest, failed, hcalls, hquiet, hledger⟩ := h.ledger (by omega)
    refine ⟨env.request toCome p :: made, done, left, rest, failed, ?_, ?_⟩
    · rw [hcalls]
      exact List.append_assoc ..
    · rw [completions_answered hreply, Collaborators.completions_eq_nil _ hquiet,
        Nat.add_sub_add_right, demands_singleton]
      exact .completed rfl (isOk_of_eq_ok hreply) hledger
  | @next toCome words s m t completion log later r hreply hrequested h _ ih =>
    rw [← s.prompted_calls toCome]
    generalize s.prompted toCome = p at hreply h ⊢
    obtain ⟨calls, done, left, rest, failed, hcalls, hledger⟩ := ih (by omega)
    obtain ⟨made, hmade, hquiet, hledger⟩ := h.prepend hledger
    refine ⟨env.request toCome p :: (made ++ calls),
      completion.calls.map (⟨env.iterations - toCome, ·⟩) ++ done, left, rest, failed, ?_, ?_⟩
    · rw [hcalls, hmade, List.append_assoc]
      exact List.append_assoc ..
    · have hnumber : env.iterations + 1 - toCome = env.iterations - toCome + 1 := by omega
      rw [hnumber, hmade] at hledger
      rw [completions_answered hreply, Collaborators.completions_append,
        Collaborators.completions_eq_nil _ hquiet, Nat.add_sub_add_right]
      exact .completed rfl (isOk_of_eq_ok hreply) hledger

end

theorem Course.workflow_eq {toCome : Nat} {words : Option String} {log : List ToolRun}
    {r : Except ServiceError String} (h : Course env env.iterations toCome words s log r t) :
    t.workflow = s.workflow ++ log.map ToolRun.record := by
  obtain ⟨m, hpath, hstopped⟩ := h.path
  rw [hstopped.workflow_eq, hpath.workflow_eq]

/-- **Workflows are exact.**  The workflow of a request, which comes with its result or with the
failure of its run, consists of the records of the tool calls that were completed; these carry out
the first demands of the completions, and the calls of collaborators are theirs, apart from the
requests for completions and from what a failing tool call had done. -/
theorem retrieve_workflow (corpora : List Corpus) (collaborators : Collaborators) (r : Request) :
    (r.Refused corpora ∧ (retrieve corpora collaborators r).calls = []) ∨
      ∃ c ∈ corpora, c.id = r.corpusId ∧ ∃ log ok done left rest failed,
        ((∃ result, (retrieve corpora collaborators r).result = .ok result ∧ ok = true ∧
            result.workflow = log.map ToolRun.record) ∨
          ∃ text, (retrieve corpora collaborators r).result =
            .error (.runFailed text (log.map ToolRun.record)) ∧ ok = false) ∧
        Ledger ⟨c, lenientFilter r.filter, collaborators⟩ []
          (demands 1 (collaborators.completions [] (retrieve corpora collaborators r).calls))
          (retrieve corpora collaborators r).calls ok log done left rest failed := by
  rcases retrieve_cases corpora collaborators r with hrefused | ⟨c, hc, hid, -, hretrieve⟩
  · exact .inl hrefused
  refine .inr ⟨c, hc, hid, ?_⟩
  rw [hretrieve]
  obtain ⟨log, answer, t, hcourse, -, hcalls, hresult⟩ :=
    outcome_course ⟨c, lenientFilter r.filter, collaborators⟩ (conversation c r.messages)
  obtain ⟨calls, done, left, rest, failed, hmade, hledger⟩ := hcourse.ledger (Nat.le_refl _)
  have hworkflow : t.workflow = log.map ToolRun.record := hcourse.workflow_eq
  have hown : t.calls = calls := hmade
  rw [Nat.add_sub_cancel_left] at hledger
  rw [hcalls, hown]
  refine ⟨log, answer.isOk, done, left, rest, failed, ?_, hledger⟩
  rw [← hworkflow]
  rcases hresult with ⟨result, hok, hsame, hisOk⟩ | ⟨text, herror, hisOk⟩
  · exact .inl ⟨result, hok, hisOk, hsame⟩
  · exact .inr ⟨text, herror, hisOk⟩

end CorpusAgent.Retrieval
