import CorpusAgent.Proofs.Retrieval.Answer
import CorpusAgent.Retrieval.Deployed

/-!
# Errors within a run

Where the errors of a run come from, and what becomes of them.

* `Breaks`: a tool call breaks a rule.
* `Raised`: an error comes up in a run: a collaborator replies with it, whatever its kind, a query
  has no vector, or the run gets to a tool call that breaks a rule.
* `Contained`: an error that comes up in a run ends it and is wrapped once, and no run fails
  otherwise.
* `outcome_contained`: the errors of every run are contained.
-/

namespace CorpusAgent.Retrieval

/-! ### Errors of replies -/

/-- The error of a reply, if it is one. -/
def errorOf? {α : Type} : Except ServiceError α → Option ServiceError
  | .error e => some e
  | .ok _ => none

/-- The error that a collaborator replies to a call with, after a history of calls. -/
def Collaborators.error? (c : Collaborators) (earlier : List Call) : Call → Option ServiceError
  | .complete transcript tools force => errorOf? (c.complete earlier transcript tools force)
  | .embed model texts => errorOf? (c.embed earlier model texts)
  | .countDocuments graph filter => errorOf? (c.countDocuments earlier graph filter)
  | .searchDocuments graph vector limit => errorOf? (c.searchDocuments earlier graph vector limit)
  | .searchChunks query => errorOf? (c.searchChunks earlier query)

/-- The error of a query without a vector. -/
def noVectors : ServiceError := .provider "Embedding provider returned no vectors."

/-- The last of the calls failed with an error. -/
inductive FailedLast (c : Collaborators) (calls : List Call) : ServiceError → Prop
  | replied {before : List Call} {call : Call} {e : ServiceError}
    (hcalls : calls = before ++ [call]) (herror : c.error? before call = some e) :
    FailedLast c calls e
  | unembedded {before : List Call} {model : Option String} {texts : List String}
    (hcalls : calls = before ++ [.embed model texts])
    (hreply : c.embed before model texts = .ok []) : FailedLast c calls noVectors

/-- A tool call breaks a rule: there is no such tool, or else its arguments are no JSON or no
object, or a text that the tool needs is not among them. -/
inductive Breaks (call : ToolCall) : ProtocolFault → Prop
  | unknown (hname : ∀ tool : Tool, tool.name ≠ call.name) : Breaks call (.unknownTool call.name)
  | notObject {tool : Tool} {value : Json} (hname : tool.name = call.name)
    (hblank : Text.isBlank call.arguments = false)
    (hread : Json.read? call.arguments = some value) (hvalue : ∀ members, value ≠ .object members) :
    Breaks call (.argumentsNotObject call.name)
  | notJson {tool : Tool} (hname : tool.name = call.name)
    (hblank : Text.isBlank call.arguments = false)
    (hread : Json.read? call.arguments = none) : Breaks call (.argumentsNotJson call.name)
  | missing {tool : Tool} {args : Arguments} {name : String} (hname : tool.name = call.name)
    (harguments : HasArguments call args) (hneeded : neededText tool = some name)
    (hmissing : ∀ text, Json.find? name args ≠ some (.text text)) :
    Breaks call (.missingText tool name)

/-! ### Errors of runs -/

section

variable (env : Setting) (start : List Message) (o : Outcome)

/-- An error comes up in a run. -/
inductive Raised : ServiceError → Prop
  | failed {e : ServiceError} (h : FailedLast env.collaborators o.calls e) : Raised e
  /-- The run got to a tool call that breaks a rule, and its tool was offered if there is such a
  tool. -/
  | broken {before after : List Demand} {demand : Demand} {fault : ProtocolFault}
    (hasked : env.collaborators.demanded o.calls = before ++ demand :: after)
    (hreaches : o.Reaches before)
    (hoffers : ∀ tool : Tool, tool.name = demand.call.name → o.Offers demand.number tool)
    (hbreaks : Breaks demand.call fault) : Raised fault.error

/-- Errors stay within the run. -/
structure Contained : Prop where
  /-- An error that comes up ends the run, and its text is wrapped once. -/
  wrapped : ∀ e, Raised env o e → o.result = .error (.runFailed e.message o.workflow)
  /-- A run that fails does so with an error that came up. -/
  raised : ∀ e, o.result = .error e →
    ∃ inner, Raised env o inner ∧ e = .runFailed inner.message o.workflow
  /-- Even a statement that cannot be formed is a failure of the run, although it counts as an
  invalid request by itself. -/
  unbound : ∀ fault, Raised env o (.ofQuery (.unbound fault)) →
    ServiceError.ofQuery (.unbound fault) = .invalidRequest fault.message ∧
      o.result = .error (.runFailed ("Invalid request: " ++ fault.message) o.workflow)
  /-- The records are those that the run had gathered: one for each of the first tool calls that
  were asked for. -/
  gathered : o.workflow = (env.final start).workflow ∧
    ∃ done left, env.collaborators.demanded o.calls = done ++ left ∧
      List.Forall₂ Record.Meets o.workflow done

end

variable {env : Setting} {s t : RunState}

/-! ### Replies that are errors -/

theorem errorOf?_eq_some_iff {α : Type} {x : Except ServiceError α} {e : ServiceError} :
    errorOf? x = some e ↔ x = .error e := by
  cases x with
  | ok a => exact iff_of_false nofun nofun
  | error e' => exact ⟨fun h => congrArg _ (Option.some.inj h), fun h => by cases h; rfl⟩

theorem FailedLast.not_succeeds {c : Collaborators} {calls : List Call} {e : ServiceError}
    (h : FailedLast c calls e) :
    ∃ before call, calls = before ++ [call] ∧ ¬c.Succeeds before call := by
  cases h with
  | @replied before call _ hcalls herror =>
    refine ⟨before, call, hcalls, ?_⟩
    cases call with
    | embed =>
      rintro ⟨vector, rest, hreply⟩
      rw [Collaborators.error?, hreply] at herror
      cases herror
    | complete | countDocuments | searchDocuments | searchChunks =>
      exact isOk_of_eq_error (errorOf?_eq_some_iff.mp herror)
  | unembedded hcalls hreply =>
    refine ⟨_, _, hcalls, ?_⟩
    rintro ⟨vector, rest, hother⟩
    rw [hreply] at hother
    cases hother

theorem FailedLast.unique {c : Collaborators} {calls : List Call} {e e' : ServiceError}
    (h : FailedLast c calls e) (h' : FailedLast c calls e') : e = e' := by
  have hsame : ∀ {before before' : List Call} {call call' : Call},
      calls = before ++ [call] → calls = before' ++ [call'] → before = before' ∧ call = call' := by
    intro before before' call call' hcalls hcalls'
    obtain ⟨hbefore, hcall⟩ := List.append_inj' (hcalls.symm.trans hcalls') rfl
    exact ⟨hbefore, List.singleton_inj.mp hcall⟩
  cases h with
  | replied hcalls herror =>
    cases h' with
    | replied hcalls' herror' =>
      obtain ⟨rfl, rfl⟩ := hsame hcalls hcalls'
      exact Option.some.inj (herror.symm.trans herror')
    | unembedded hcalls' hreply =>
      obtain ⟨rfl, rfl⟩ := hsame hcalls hcalls'
      rw [Collaborators.error?, hreply] at herror
      cases herror
  | unembedded hcalls hreply =>
    cases h' with
    | replied hcalls' herror' =>
      obtain ⟨rfl, rfl⟩ := hsame hcalls hcalls'
      rw [Collaborators.error?, hreply] at herror'
      cases herror'
    | unembedded => rfl

/-! ### Errors of calls -/

/-- From some calls on, either the last call failed with the error of the result, or all calls
succeeded. -/
def Blamed {α : Type} (c : Collaborators) (earlier calls : List Call) (r : Except ServiceError α) :
    Prop :=
  (∃ e, r = .error e ∧ FailedLast c calls e) ∨
    ∃ made, calls = earlier ++ made ∧ c.AllSucceed earlier made

/-- After calls that succeeded, the blame is the same. -/
theorem Blamed.after {α : Type} {c : Collaborators} {earlier made calls : List Call}
    {r : Except ServiceError α} (hmade : c.AllSucceed earlier made)
    (h : Blamed c (earlier ++ made) calls r) : Blamed c earlier calls r := by
  rcases h with hfailed | ⟨more, hcalls, hmore⟩
  · exact .inl hfailed
  · refine .inr ⟨made ++ more, by rw [hcalls, List.append_assoc], ?_⟩
    exact Collaborators.allSucceed_append_iff.mpr ⟨hmade, hmore⟩

theorem vector_blamed {query : String} {e : ServiceError} {earlier : List Call}
    (h : env.vector earlier query = .error e) :
    FailedLast env.collaborators (earlier ++ [env.embedding query]) e := by
  unfold Setting.vector at h
  split at h
  · cases h
  · next hreply =>
    obtain rfl := Except.error.inj h
    exact .unembedded rfl hreply
  · next e' hreply =>
    obtain rfl := Except.error.inj h
    exact .replied rfl (errorOf?_eq_some_iff.mpr hreply)

theorem Performed.blamed {args : Arguments} {tool : Tool} {r : Except ServiceError Step}
    (h : Performed env args s tool r t) : Blamed env.collaborators s.calls t.calls r := by
  have hfailed : ∀ e, r = .error e → FailedLast env.collaborators t.calls e →
      Blamed env.collaborators s.calls t.calls r := fun e hr hlast => .inl ⟨e, hr, hlast⟩
  cases r with
  | ok step =>
    obtain ⟨made, hcalls, -, hmade⟩ := h.segment
    exact .inr ⟨made, hcalls, hmade⟩
  | error e =>
    cases h with
    | refused => exact .inr ⟨[], (List.append_nil _).symm, throughout_nil⟩
    | unembedded _ _ hvector => exact hfailed e rfl (vector_blamed hvector)
    | chunksFailed _ _ hhits | summariesFailed _ _ hhits | countFailed _ hhits =>
      exact hfailed e rfl (.replied rfl (errorOf?_eq_some_iff.mpr hhits))

theorem Failed.blamed {offered : List ToolSpec} {request : ToolCall} {e : ServiceError}
    (h : Failed env offered request s e t) (α : Type) :
    Blamed env.collaborators s.calls t.calls (.error e : Except ServiceError α) := by
  cases h with
  | unknown | unreadable => exact .inr ⟨[], (List.append_nil _).symm, throughout_nil⟩
  | performed _ _ _ h =>
    rcases h.blamed with ⟨e', he, hlast⟩ | hmade
    · obtain rfl := Except.error.inj he
      exact .inl ⟨e, rfl, hlast⟩
    · exact .inr hmade

theorem Dispatched.blamed {offered : List ToolSpec} {number : Nat} {requests : List ToolCall}
    {log : List ToolRun} {r : Except ServiceError Ending}
    (h : Dispatched env offered number requests s log r t) :
    Blamed env.collaborators s.calls t.calls r := by
  induction h with
  | done | withheld => exact .inr ⟨[], (List.append_nil _).symm, throughout_nil⟩
  | failed h => exact h.blamed Ending
  | exited h => exact .inr ⟨_, h.calls_eq, h.segment.2⟩
  | answered h _ ih =>
    refine .after h.segment.2 ?_
    rw [← h.calls_eq]
    exact ih

theorem Last.blamed {total toCome : Nat} {words : Option String} {completion : Completion}
    {log : List ToolRun} {r : Except ServiceError String}
    (h : Last env total toCome words completion s log r t) :
    Blamed env.collaborators s.calls t.calls r := by
  cases h with
  | spoken => exact .inr ⟨[], (List.append_nil _).symm, throughout_nil⟩
  | exited h | withheld h =>
    rcases h.blamed with ⟨e, he, -⟩ | hmade
    · cases he
    · exact .inr hmade
  | failed h =>
    rcases h.blamed with ⟨e, he, hlast⟩ | hmade
    · obtain rfl := Except.error.inj he
      exact .inl ⟨_, rfl, hlast⟩
    · exact .inr hmade

/-- A run whose last call did not fail has no call that failed. -/
theorem Course.blamed {total toCome : Nat} {words : Option String} {log : List ToolRun}
    {r : Except ServiceError String} (h : Course env total toCome words s log r t) :
    Blamed env.collaborators s.calls t.calls r := by
  -- a request that is answered is a call that succeeded
  have hanswered : ∀ {toCome : Nat} {s : RunState} {completion : Completion},
      env.reply toCome (s.prompted toCome) = .ok completion →
      env.collaborators.AllSucceed s.calls [env.request toCome (s.prompted toCome)] := by
    intro toCome s completion hreply
    rw [← s.prompted_calls toCome, Collaborators.allSucceed_singleton_iff]
    exact isOk_of_eq_ok hreply
  induction h with
  | exhausted => exact .inr ⟨[], (List.append_nil _).symm, throughout_nil⟩
  | @unanswered toCome words s e hreply =>
    exact .inl ⟨e, rfl, .replied rfl (errorOf?_eq_some_iff.mpr hreply)⟩
  | @last toCome words s t completion log r hreply h =>
    refine .after (hanswered hreply) ?_
    have hlast := h.blamed
    rwa [RunState.asked_calls, RunState.prompted_calls] at hlast
  | @next toCome words s m t completion log later r hreply _ h _ ih =>
    refine .after (hanswered hreply) ?_
    have hfirst := h.blamed
    rw [RunState.said_calls, RunState.asked_calls, RunState.prompted_calls] at hfirst
    rcases hfirst with ⟨e, he, -⟩ | ⟨made, hmade, hsucceed⟩
    · cases he
    · exact .after hsucceed (hmade ▸ ih)

/-! ### Tool calls that break a rule -/

section

variable {call : ToolCall} {tool : Tool} {args : Arguments} {name : String} {fault : ProtocolFault}

theorem arguments_eq_notObject {value : Json} (hblank : Text.isBlank call.arguments = false)
    (hread : Json.read? call.arguments = some value) (hvalue : ∀ members, value ≠ .object members) :
    arguments call = .error (.argumentsNotObject call.name) := by
  rw [arguments, hblank, hread]
  cases value with
  | object members => exact absurd rfl (hvalue members)
  | _ => rfl

theorem arguments_eq_notJson (hblank : Text.isBlank call.arguments = false)
    (hread : Json.read? call.arguments = none) :
    arguments call = .error (.argumentsNotJson call.name) := by
  rw [arguments, hblank, hread]
  rfl

theorem breaks_of_arguments (hname : tool.name = call.name) (h : arguments call = .error fault) :
    Breaks call fault := by
  cases hblank : Text.isBlank call.arguments with
  | true =>
    rw [arguments, hblank] at h
    cases h
  | false =>
    cases hread : Json.read? call.arguments with
    | none =>
      obtain rfl := Except.error.inj ((arguments_eq_notJson hblank hread).symm.trans h)
      exact .notJson hname hblank hread
    | some value =>
      by_cases hvalue : ∃ members, value = .object members
      · obtain ⟨members, rfl⟩ := hvalue
        rw [arguments, hblank, hread] at h
        cases h
      · rw [not_exists] at hvalue
        obtain rfl := Except.error.inj ((arguments_eq_notObject hblank hread hvalue).symm.trans h)
        exact .notObject hname hblank hread hvalue

theorem requiredText_eq_missing (tool : Tool)
    (hmissing : ∀ text, Json.find? name args ≠ some (.text text)) :
    requiredText tool name args = .error (.missingText tool name) := by
  rw [requiredText, text?_eq_none_iff.mpr hmissing]

/-- A tool call that is refused breaks a rule. -/
theorem exists_breaks (h : Refuses call) : ∃ fault, Breaks call fault := by
  cases h with
  | unknown hname => exact ⟨_, .unknown (ofName?_eq_none_iff_name.mp hname)⟩
  | @unreadable fault hread =>
    cases hname : Tool.ofName? call.name with
    | none => exact ⟨_, .unknown (ofName?_eq_none_iff_name.mp hname)⟩
    | some tool => exact ⟨fault, breaks_of_arguments (name_eq_of_ofName? hname) hread⟩
  | missing hname hread hneeded hmissing =>
    exact ⟨_, .missing (name_eq_of_ofName? hname) (arguments_eq_ok_iff.mp hread) hneeded
      (text?_eq_none_iff.mp hmissing)⟩

theorem Breaks.faulty (h : Breaks call fault) : Faulty call := by
  cases h with
  | unknown hname => exact .unknown hname
  | notObject hname hblank hread hvalue =>
    refine .unreadable fun args hargs => ?_
    rw [← arguments_eq_ok_iff, arguments_eq_notObject hblank hread hvalue] at hargs
    cases hargs
  | notJson hname hblank hread =>
    refine .unreadable fun args hargs => ?_
    rw [← arguments_eq_ok_iff, arguments_eq_notJson hblank hread] at hargs
    cases hargs
  | missing hname harguments hneeded hmissing => exact .missing hname harguments hneeded hmissing

theorem Performed.eq_missing {e : ServiceError} (h : Performed env args s tool (.error e) t)
    (hneeded : neededText tool = some name)
    (hmissing : ∀ text, Json.find? name args ≠ some (.text text)) :
    e = (ProtocolFault.missingText tool name).error := by
  have htext := requiredText_eq_missing tool hmissing
  cases h with
  | refused hneeded' htext' =>
    obtain rfl := Option.some.inj (hneeded.symm.trans hneeded')
    rw [Except.error.inj (htext'.symm.trans htext)]
  | unembedded hneeded' htext' =>
    obtain rfl := Option.some.inj (hneeded.symm.trans hneeded')
    cases htext.symm.trans htext'
  | chunksFailed htext' | summariesFailed htext' =>
    obtain rfl := Option.some.inj hneeded
    cases htext.symm.trans htext'
  | countFailed => cases hneeded

theorem Failed.eq_of_breaks {offered : List ToolSpec} {e : ServiceError}
    (h : Failed env offered call s e t) (hbreaks : Breaks call fault) : e = fault.error := by
  cases h with
  | unknown hnone =>
    cases hbreaks with
    | unknown => rfl
    | notObject hname | notJson hname | missing hname =>
      exact absurd hname (ofName?_eq_none_iff_name.mp hnone _)
  | unreadable hname _ hread =>
    cases hbreaks with
    | unknown hnone => exact absurd (name_eq_of_ofName? hname) (hnone _)
    | notObject _ hblank hvalue hno =>
      rw [Except.error.inj (hread.symm.trans (arguments_eq_notObject hblank hvalue hno))]
    | notJson _ hblank hnone =>
      rw [Except.error.inj (hread.symm.trans (arguments_eq_notJson hblank hnone))]
    | missing _ harguments => cases hread.symm.trans (arguments_eq_ok_iff.mpr harguments)
  | performed hname _ hread h =>
    cases hbreaks with
    | unknown hnone => exact absurd (name_eq_of_ofName? hname) (hnone _)
    | notObject _ hblank hvalue hno =>
      cases hread.symm.trans (arguments_eq_notObject hblank hvalue hno)
    | notJson _ hblank hnone => cases hread.symm.trans (arguments_eq_notJson hblank hnone)
    | missing hname' harguments hneeded hmissing =>
      obtain rfl := Option.some.inj (hname.symm.trans (ofName?_eq_some_iff_name.mpr hname'))
      obtain rfl := Except.ok.inj (hread.symm.trans (arguments_eq_ok_iff.mpr harguments))
      exact h.eq_missing hneeded hmissing

end

/-! ### Errors of runs stay within -/

namespace Report

variable {start : List Message} {o : Outcome} {log : List ToolRun} {done left : List Demand}
  {rest failed : List Call} {r : Except ServiceError String}

theorem blamed (h : Report env start o log done left rest failed r t) :
    (∃ e, r = .error e ∧ FailedLast env.collaborators o.calls e) ∨
      env.collaborators.AllSucceed [] o.calls := by
  rw [h.calls]
  rcases h.course.blamed with hfailed | ⟨made, hcalls, hsucceed⟩
  · exact .inl hfailed
  · rw [show t.calls = made from hcalls]
    exact .inr hsucceed

theorem error_of_failedLast (h : Report env start o log done left rest failed r t)
    {e : ServiceError} (hlast : FailedLast env.collaborators o.calls e) : r = .error e := by
  rcases h.blamed with ⟨e', hr, hlast'⟩ | hsucceed
  · rw [hr, hlast'.unique hlast]
  · obtain ⟨before, call, hcalls, hfails⟩ := hlast.not_succeeds
    exact absurd (hsucceed before call [] hcalls) hfails

theorem error_of_breaks (h : Report env start o log done left rest failed r t)
    {before after : List Demand} {demand : Demand} {fault : ProtocolFault}
    (hasked : env.collaborators.demanded o.calls = before ++ demand :: after)
    (hreaches : o.Reaches before)
    (hoffers : ∀ tool : Tool, tool.name = demand.call.name → o.Offers demand.number tool)
    (hbreaks : Breaks demand.call fault) : r = .error fault.error := by
  have hdemand : demand ∈ env.collaborators.demanded o.calls := by
    rw [hasked]
    exact List.mem_append_right _ List.mem_cons_self
  rcases h.reached hasked hreaches with ⟨-, run, -, hmeets, hcarried⟩ | ⟨-, rfl, hexit⟩
  · exact absurd hbreaks.faulty (hcarried.not_faulty hmeets)
  · rcases (h.conclusion.left_cases hexit).2 with ⟨tool, -, htool, hnot⟩ | ⟨e, s, t, hr, hfailed⟩
    · have hoffered := hoffers tool (name_eq_of_ofName? htool)
      rw [h.offers_iff hdemand, hnot] at hoffered
      cases hoffered
    · rw [hr, hfailed.eq_of_breaks hbreaks]

/-- An error that comes up is that of the run. -/
theorem error_of_raised (h : Report env start o log done left rest failed r t) {e : ServiceError}
    (hraised : Raised env o e) : r = .error e := by
  cases hraised with
  | failed hlast => exact h.error_of_failedLast hlast
  | broken hasked hreaches hoffers hbreaks =>
    exact h.error_of_breaks hasked hreaches hoffers hbreaks

/-- The error of a run came up in it. -/
theorem raised_of_error (h : Report env start o log done left rest failed r t) {e : ServiceError}
    (hr : r = .error e) : Raised env o e := by
  rcases h.blamed with ⟨e', he, hlast⟩ | hsucceed
  · obtain rfl := Except.error.inj (hr.symm.trans he)
    exact .failed hlast
  · rcases h.cause_of_error hr with ⟨before, call, after, hcalls, hfails⟩ | hrefused
    · exact absurd (hsucceed before call after hcalls) hfails
    · obtain ⟨before, demand, after, hasked, hreaches, hoffers, hfaulty⟩ := hrefused
      obtain ⟨fault, hbreaks⟩ := exists_breaks (faulty_iff.mp hfaulty)
      have herror := h.error_of_breaks hasked hreaches hoffers hbreaks
      obtain rfl := Except.error.inj (hr.symm.trans herror)
      exact .broken hasked hreaches hoffers hbreaks

end Report

/-- The errors of every run stay within it. -/
theorem outcome_contained (env : Setting) (start : List Message) :
    Contained env start (env.outcome start) := by
  obtain ⟨log, done, left, rest, failed, r, t, h⟩ := outcome_report env start
  have hwrapped : ∀ e, Raised env (env.outcome start) e →
      (env.outcome start).result = .error (.runFailed e.message (env.outcome start).workflow) := by
    intro e hraised
    rw [h.result, h.error_of_raised hraised, Setting.finished, h.kept]
  refine ⟨hwrapped, fun e hresult => ?_, fun fault hraised => ⟨rfl, hwrapped _ hraised⟩, ?_⟩
  · cases r with
    | ok answer =>
      rw [h.result] at hresult
      cases hresult
    | error inner =>
      rw [h.result, Setting.finished, h.kept] at hresult
      exact ⟨inner, h.raised_of_error rfl, (Except.error.inj hresult).symm⟩
  · refine ⟨?_, done, left, h.ledger.demands, ?_⟩
    · rw [h.final, h.kept]
    · rw [h.workflow]
      exact h.ledger.meets

end CorpusAgent.Retrieval
