import CorpusAgent.Proofs.Json.Members
import CorpusAgent.Proofs.Retrieval.Offered

/-!
# Failures and answers

* `Faulty`: a tool call that cannot be carried out, whatever the collaborators reply.
* `CallFails`, `CallRefused`: the two ways in which a run fails.
* `Ends`: the ways in which a run ends otherwise, each with the answer that goes with it.
* `retrieve_settled`: a run fails in these two ways only, and its answer is that of its end.

No filter is among the causes of a failure: one that cannot be read counts as absent.
-/

namespace CorpusAgent.Retrieval

/-! ### Tool calls that cannot be carried out -/

/-- The text of a tool call gives these arguments: they are the members of a JSON object, and blank
text has none. -/
def HasArguments (call : ToolCall) (args : Arguments) : Prop :=
  if Text.isBlank call.arguments then args = []
  else Json.read? call.arguments = some (.object args)

theorem arguments_eq_ok_iff {call : ToolCall} {args : Arguments} :
    arguments call = .ok args ↔ HasArguments call args := by
  unfold arguments HasArguments
  by_cases hblank : Text.isBlank call.arguments = true
  · rw [if_pos hblank, if_pos hblank]
    exact ⟨fun h => (Except.ok.inj h).symm, fun h => congrArg _ h.symm⟩
  · rw [if_neg hblank, if_neg hblank]
    constructor
    · intro h
      split at h
      · next members hread =>
        rw [hread, Except.ok.inj h]
      · cases h
      · cases h
    · intro h
      rw [h]

/-- A tool call cannot be carried out: there is no such tool, its arguments are no JSON object, or a
text that the tool needs is not among them. -/
inductive Faulty (call : ToolCall) : Prop
  | unknown (hname : ∀ tool : Tool, tool.name ≠ call.name)
  | unreadable (harguments : ∀ args, ¬HasArguments call args)
  | missing {tool : Tool} {args : Arguments} {name : String} (hname : tool.name = call.name)
    (harguments : HasArguments call args) (hneeded : neededText tool = some name)
    (hmissing : ∀ text, Json.find? name args ≠ some (.text text))

theorem text?_eq_none_iff {name : String} {args : Arguments} :
    (Json.find? name args).bind Json.text? = none ↔
      ∀ text, Json.find? name args ≠ some (.text text) := by
  cases Json.find? name args with
  | none => exact iff_of_true rfl nofun
  | some value => cases value <;> simp [Json.text?]

theorem faulty_iff {call : ToolCall} : Faulty call ↔ Refuses call := by
  constructor
  · intro h
    cases h with
    | unknown hname => exact .unknown (ofName?_eq_none_iff_name.mpr hname)
    | unreadable harguments =>
      cases hread : arguments call with
      | ok args => exact absurd (arguments_eq_ok_iff.mp hread) (harguments args)
      | error fault => exact .unreadable hread
    | missing hname harguments hneeded hmissing =>
      exact .missing (ofName?_eq_some_iff_name.mpr hname) (arguments_eq_ok_iff.mpr harguments)
        hneeded (text?_eq_none_iff.mpr hmissing)
  · intro h
    cases h with
    | unknown hname => exact .unknown (ofName?_eq_none_iff_name.mp hname)
    | unreadable hread =>
      refine .unreadable fun args hargs => ?_
      rw [arguments_eq_ok_iff.mpr hargs] at hread
      cases hread
    | missing hname harguments hneeded hmissing =>
      exact .missing (name_eq_of_ofName? hname) (arguments_eq_ok_iff.mp harguments) hneeded
        (text?_eq_none_iff.mp hmissing)

theorem CarriedOut.not_faulty {env : Setting} {run : ToolRun} {demand : Demand}
    (h : CarriedOut env run) (hmeets : run.record.Meets demand) : ¬Faulty demand.call := by
  intro hfaulty
  have hargs : HasArguments demand.call run.record.arguments :=
    arguments_eq_ok_iff.mp hmeets.arguments
  cases hfaulty with
  | unknown hname => exact hname _ hmeets.name
  | unreadable harguments => exact harguments _ hargs
  | missing hname harguments hneeded hmissing =>
    have htool := ofName?_eq_some_iff_name.mpr hname
    rw [ofName?_eq_some_iff_name.mpr hmeets.name] at htool
    obtain rfl := Option.some.inj htool
    have hread := arguments_eq_ok_iff.mpr harguments
    rw [hmeets.arguments] at hread
    obtain rfl := Except.ok.inj hread
    obtain ⟨s, step, t, hperformed⟩ := h.performed
    obtain ⟨text, htext⟩ := hperformed.exists_text hneeded
    rw [text?_eq_none_iff.mpr hmissing] at htext
    cases htext

/-! ### Ends of runs -/

section

variable (env : Setting) (start : List Message) (o : Outcome)

/-- The completions that the model replied with in a run. -/
def repliedWith : List Completion := env.collaborators.completions [] o.calls

/-- A call of a collaborator did not bring what the run needs: it failed, or the embedding of a
query brought no vector. -/
def CallFails : Prop :=
  ∃ before call after, o.calls = before ++ call :: after ∧ ¬env.collaborators.Succeeds before call

/-- The run got to a tool call that cannot be carried out, and its tool was offered if there is such
a tool. -/
def CallRefused : Prop :=
  ∃ before demand after, env.collaborators.demanded o.calls = before ++ demand :: after ∧
    o.Reaches before ∧ (∀ tool : Tool, tool.name = demand.call.name → o.Offers demand.number tool) ∧
    Faulty demand.call

/-- The ways in which a run ends without a failure, with its answer. -/
inductive Ends : String → Prop
  /-- The first `exit` brings the answer. -/
  | exited {before after : List Record} {record : Record} {answer : String}
    (hworkflow : o.workflow = before ++ record :: after)
    (hfirst : ∀ earlier ∈ before, earlier.tool ≠ .exit) (htool : record.tool = .exit)
    (htext : Json.find? "answer" record.arguments = some (.text answer)) : Ends answer
  /-- A completion without tool calls is the answer, even if it has no words. -/
  | spoken {earlier : List Completion} {completion : Completion}
    (hlast : repliedWith env o = earlier ++ [completion]) (hcalls : completion.calls = []) :
    Ends (completion.content.getD "")
  /-- The run got to a tool call whose tool was not offered. -/
  | withheld {before after : List Demand} {demand : Demand} {tool : Tool}
    (hasked : env.collaborators.demanded o.calls = before ++ demand :: after)
    (hreaches : o.Reaches before) (hname : tool.name = demand.call.name)
    (hwithheld : o.Withholds demand.number tool) : Ends ((latestWords (repliedWith env o)).getD "")
  /-- There was a completion in each iteration, and all tool calls were carried out. -/
  | exhausted (hspent : (repliedWith env o).length = env.iterations)
    (hasking : ∀ completion ∈ repliedWith env o, completion.calls ≠ [])
    (hreaches : o.Reaches (env.collaborators.demanded o.calls)) :
    Ends ((latestWords (repliedWith env o)).getD "")

/-- How a run fails or succeeds, and with which answer. -/
structure Settled : Prop where
  fails : (∃ text, o.result = .error (.runFailed text o.workflow)) ↔
    CallFails env o ∨ CallRefused env o
  /-- A run that does not fail ends in one of the ways. -/
  ends : ¬(CallFails env o ∨ CallRefused env o) → ∃ answer, Ends env o answer
  /-- If it ends in one of the ways, it succeeds with the answer of that way. -/
  answers : ∀ answer, Ends env o answer → ∃ result, o.result = .ok result ∧
    result.content = if env.corpus.run.responseMode = .sourcesOnly then "" else answer
  /-- A search by metadata that the run gets to is carried out whatever its filter is, unless the
  store fails to count. -/
  metadata : ∀ before demand after args,
    env.collaborators.demanded o.calls = before ++ demand :: after → o.Reaches before →
    demand.call.name = Tool.metadata.name → o.Offers demand.number .metadata →
    HasArguments demand.call args →
    before.length < o.workflow.length ∨ ∃ earlier predicate,
      o.calls = earlier ++ [.countDocuments env.corpus.id predicate] ∧
        (env.collaborators.countDocuments earlier env.corpus.id predicate).isOk = false

end

namespace Report

variable {env : Setting} {start : List Message} {o : Outcome} {log : List ToolRun}
  {done left : List Demand} {rest failed : List Call} {r : Except ServiceError String}
  {t : RunState}

theorem noExit_iff (h : Report env start o log done left rest failed r t) :
    NoExit log ↔ ∀ record ∈ o.workflow, record.tool ≠ .exit := by
  rw [h.workflow, List.forall_mem_map]
  rfl

/-- If no tool call ended the run, it gets to all those that have records. -/
theorem reaches_done (h : Report env start o log done left rest failed r t) (hexit : NoExit log) :
    o.Reaches done := by
  refine ⟨Nat.le_of_eq h.length_done, fun record hrecord => ?_⟩
  exact h.noExit_iff.mp hexit record (List.mem_of_mem_take hrecord)

theorem not_callFails (h : Report env start o log done left rest failed r t) {answer : String}
    (hr : r = .ok answer) : ¬CallFails env o := by
  rintro ⟨before, call, after, hcalls, hfails⟩
  have hnone : failed = [] := by
    have hleftover := h.ledger.leftover
    rw [hr] at hleftover
    cases hleftover <;> rfl
  obtain ⟨good, hgood, hsucceed, -⟩ := h.ledger.sound
  rw [hnone, List.append_nil] at hgood
  rw [← hgood] at hsucceed
  exact hfails (hsucceed before call after hcalls)

theorem error_of_callRefused (h : Report env start o log done left rest failed r t)
    (hrefused : CallRefused env o) : ∃ e, r = .error e := by
  obtain ⟨before, demand, after, hasked, hreaches, hoffers, hfaulty⟩ := hrefused
  have hdemand : demand ∈ env.collaborators.demanded o.calls := by
    rw [hasked]
    exact List.mem_append_right _ List.mem_cons_self
  rcases h.reached hasked hreaches with ⟨-, run, -, hmeets, hcarried⟩ | ⟨-, rfl, hexit⟩
  · exact absurd hfaulty (hcarried.not_faulty hmeets)
  · rcases (h.conclusion.left_cases hexit).2 with ⟨tool, -, htool, hnot⟩ | ⟨e, -, -, hr, -⟩
    · have hoffered := hoffers tool (name_eq_of_ofName? htool)
      rw [h.offers_iff hdemand, hnot] at hoffered
      cases hoffered
    · exact ⟨e, hr⟩

/-- A run that fails has a call that failed or a tool call that cannot be carried out. -/
theorem cause_of_error (h : Report env start o log done left rest failed r t) {e : ServiceError}
    (hr : r = .error e) : CallFails env o ∨ CallRefused env o := by
  obtain ⟨good, hgood, -, hfails⟩ := h.ledger.sound
  have hcall : ∀ call, failed = [call] → CallFails env o := by
    rintro call rfl
    exact ⟨good, call, [], hgood, hfails call (List.mem_singleton_self call)⟩
  have hleftover := h.ledger.leftover
  have hconclusion := h.conclusion
  rw [hr] at hleftover hconclusion
  cases hleftover with
  | unanswered => exact .inl (hcall _ rfl)
  | cut => exact .inl (hcall _ rfl)
  | @refused demand later hrefuses =>
    refine .inr ⟨done, demand, later, h.ledger.demands, ?_⟩
    have hdemand : demand ∈ env.collaborators.demanded o.calls := by
      rw [h.ledger.demands]
      exact List.mem_append_right _ List.mem_cons_self
    cases hconclusion with
    | failed hgoes hnumber hfailed =>
      refine ⟨h.reaches_done hgoes.noExit, fun tool htool => ?_, faulty_iff.mpr hrefuses⟩
      have hname := ofName?_eq_some_iff_name.mpr htool
      rw [h.offers_iff hdemand]
      cases hfailed with
      | unknown hnone =>
        rw [hname] at hnone
        cases hnone
      | unreadable hother hoffered | performed hother hoffered =>
        obtain rfl := Option.some.inj (hname.symm.trans hother)
        exact hoffered

theorem length_lt_of_unanswered (h : Report env start o log done [] rest failed r t)
    {e : ServiceError} (hr : r = .error e) : (repliedWith env o).length < env.iterations := by
  obtain ⟨good, hcalls, hgood, hfails⟩ := h.ledger.sound
  have hleftover := h.ledger.leftover
  rw [hr] at hleftover
  generalize hleft : ([] : List Demand) = remaining at hleftover
  cases hleftover with
  | @unanswered call hcall =>
    cases call with
    | complete transcript tools force =>
      have hfailed := hfails _ (List.mem_singleton_self _)
      have hnone : env.collaborators.completion? good (.complete transcript tools force) =
          none := by
        rw [Collaborators.completion?]
        cases hreply : env.collaborators.complete good transcript tools force with
        | error e => rfl
        | ok completion => exact absurd (isOk_of_eq_ok hreply) hfailed
      have hreplied : repliedWith env o = env.collaborators.completions [] good := by
        rw [repliedWith, hcalls, Collaborators.completions_append, Collaborators.completions,
          List.nil_append, hnone]
        exact List.append_nil _
      have hrequested := h.requested _ tools ⟨good, transcript, force, [], hcalls, rfl⟩
      rw [hreplied, Collaborators.completions_length_eq hgood]
      exact hrequested.1
    | embed | countDocuments | searchDocuments | searchChunks => cases hcall
  | refused | cut => cases hleft

/-- Each run that succeeds ends in one of the ways. -/
theorem ends (h : Report env start o log done left rest failed r t) {answer : String}
    (hr : r = .ok answer) : Ends env o answer := by
  have hconclusion := h.conclusion
  rw [hr] at hconclusion
  generalize hleft : left = remaining at hconclusion
  generalize hanswer : (Except.ok answer : Except ServiceError String) = r' at hconclusion
  cases hconclusion with
  | exhausted hgoes hspent =>
    obtain rfl := Except.ok.inj hanswer
    have hall : env.collaborators.demanded o.calls = done := by
      rw [h.ledger.demands, hleft, List.append_nil]
    rw [latestWords_orElse_none]
    exact .exhausted hspent hgoes.asking (hall ▸ h.reaches_done hgoes.noExit)
  | spoken hgoes hlast hcalls =>
    obtain rfl := Except.ok.inj hanswer
    exact .spoken hlast hcalls
  | @exited before run _ _ hgoes hlog htool htext =>
    obtain rfl := Except.ok.inj hanswer
    have hworkflow : o.workflow = before.map ToolRun.record ++ run.record :: [] := by
      rw [h.workflow, hlog, List.map_append]
      rfl
    refine .exited hworkflow (List.forall_mem_map.mpr hgoes.noExit) htool ?_
    exact Json.bind_text?_eq_some_iff.mp (requiredText_eq_ok_iff.mp htext)
  | @withheld demand later tool hgoes hnumber hname hoffered =>
    obtain rfl := Except.ok.inj hanswer
    have hasked : env.collaborators.demanded o.calls = done ++ demand :: later :=
      hleft ▸ h.ledger.demands
    have hdemand : demand ∈ env.collaborators.demanded o.calls := by
      rw [hasked]
      exact List.mem_append_right _ List.mem_cons_self
    rw [latestWords_orElse_none]
    exact .withheld hasked (h.reaches_done hgoes.noExit) (name_eq_of_ofName? hname)
      ((h.withholds_iff hdemand).mpr hoffered)
  | unanswered | failed => cases hanswer

theorem answer_of_exit (h : Report env start o log done left rest failed r t)
    {before after : List Record} {record : Record} {answer : String}
    (hworkflow : o.workflow = before ++ record :: after)
    (hfirst : ∀ earlier ∈ before, earlier.tool ≠ .exit) (htool : record.tool = .exit)
    (htext : Json.find? "answer" record.arguments = some (.text answer)) : r = .ok answer := by
  have hno : ¬NoExit log := by
    rw [h.noExit_iff, hworkflow]
    exact fun hnone => hnone record (List.mem_append_right _ List.mem_cons_self) htool
  have hconclusion := h.conclusion
  cases hconclusion with
  | exhausted hgoes | spoken hgoes | withheld hgoes | unanswered hgoes | failed hgoes =>
    exact absurd hgoes.noExit hno
  | @exited first run other _ hgoes hlog hexit hother =>
    -- no `exit` comes before either of them, so they are the same
    have hsame : first.map ToolRun.record ++ [run.record] = before ++ record :: after := by
      rw [← hworkflow, h.workflow, hlog, List.map_append]
      rfl
    have hrecord : run.record = record := by
      rcases List.append_eq_append_iff.mp hsame with ⟨more, hbefore, hrest⟩ | ⟨more, hmap, hrest⟩
      · cases more with
        | nil => exact (List.cons.inj hrest).1
        | cons other more =>
          obtain ⟨rfl, -⟩ := List.cons.inj hrest
          refine absurd hexit (hfirst run.record ?_)
          rw [hbefore]
          exact List.mem_append_right _ List.mem_cons_self
      · cases more with
        | nil => exact (List.cons.inj hrest).1.symm
        | cons other more =>
          obtain ⟨rfl, -⟩ := List.cons.inj hrest
          have hmem : record ∈ first.map ToolRun.record := by
            rw [hmap]
            exact List.mem_append_right _ List.mem_cons_self
          obtain ⟨earlier, hearlier, rfl⟩ := List.mem_map.mp hmem
          exact absurd htool (hgoes.noExit earlier hearlier)
    rw [hrecord, requiredText_eq_ok_iff, Json.bind_text?_eq_some_iff, htext] at hother
    rw [Json.text.inj (Option.some.inj hother)]

theorem answer_of_spoken (h : Report env start o log done left rest failed r t)
    {earlier : List Completion} {completion : Completion}
    (hlast : repliedWith env o = earlier ++ [completion]) (hcalls : completion.calls = []) :
    r = .ok (completion.content.getD "") := by
  have hmem : completion ∈ env.collaborators.completions [] o.calls := by
    rw [← repliedWith, hlast]
    exact List.mem_append_right _ (List.mem_singleton_self _)
  have hconclusion := h.conclusion
  cases hconclusion with
  | exhausted hgoes | exited hgoes | withheld hgoes | unanswered hgoes | failed hgoes =>
    exact absurd hcalls (hgoes.asking completion hmem)
  | spoken hgoes hother =>
    obtain ⟨-, hsame⟩ := List.append_inj' (hlast.symm.trans hother) rfl
    rw [List.head_eq_of_cons_eq hsame]

theorem answer_of_withheld (h : Report env start o log done left rest failed r t)
    {before after : List Demand} {demand : Demand} {tool : Tool}
    (hasked : env.collaborators.demanded o.calls = before ++ demand :: after)
    (hreaches : o.Reaches before) (hname : tool.name = demand.call.name)
    (hwithheld : o.Withholds demand.number tool) :
    r = .ok ((latestWords (repliedWith env o)).getD "") := by
  exact (h.left_of_withheld hasked hreaches hname hwithheld).2.2.2

theorem answer_of_exhausted (h : Report env start o log done left rest failed r t)
    (hspent : (repliedWith env o).length = env.iterations)
    (hasking : ∀ completion ∈ repliedWith env o, completion.calls ≠ [])
    (hreaches : o.Reaches (env.collaborators.demanded o.calls)) :
    r = .ok ((latestWords (repliedWith env o)).getD "") := by
  have hlength : (env.collaborators.demanded o.calls).length = done.length + left.length := by
    rw [h.ledger.demands, List.length_append]
  have hnone : left = [] := by
    have hle := hreaches.1
    rw [hlength, h.length_done] at hle
    exact List.eq_nil_of_length_eq_zero (by omega)
  have hexit : NoExit log := by
    rw [h.noExit_iff]
    intro record hrecord
    refine hreaches.2 record ?_
    have hall : (env.collaborators.demanded o.calls).length = o.workflow.length := by
      rw [hlength, hnone, h.length_done]
      rfl
    rwa [hall, List.take_length]
  subst hnone
  have hconclusion := h.conclusion
  cases hconclusion with
  | exhausted => rw [latestWords_orElse_none, repliedWith]
  | @spoken earlier completion hgoes hlast hcalls =>
    have hmem : completion ∈ repliedWith env o := by
      rw [repliedWith, hlast]
      exact List.mem_append_right _ (List.mem_singleton_self _)
    exact absurd hcalls (hasking completion hmem)
  | exited hgoes hlog htool =>
    refine absurd htool (hexit _ ?_)
    rw [hlog]
    exact List.mem_append_right _ (List.mem_singleton_self _)
  | unanswered => exact absurd hspent (Nat.ne_of_lt (h.length_lt_of_unanswered rfl))

/-- A run that ends in one of the ways succeeds with the answer of that way. -/
theorem answer_of_ends (h : Report env start o log done left rest failed r t) {answer : String}
    (hends : Ends env o answer) : r = .ok answer := by
  cases hends with
  | exited hworkflow hfirst htool htext => exact h.answer_of_exit hworkflow hfirst htool htext
  | spoken hlast hcalls => exact h.answer_of_spoken hlast hcalls
  | withheld hasked hreaches hname hwithheld =>
    exact h.answer_of_withheld hasked hreaches hname hwithheld
  | exhausted hspent hasking hreaches => exact h.answer_of_exhausted hspent hasking hreaches

theorem metadata (h : Report env start o log done left rest failed r t) {before after : List Demand}
    {demand : Demand} {args : Arguments}
    (hasked : env.collaborators.demanded o.calls = before ++ demand :: after)
    (hreaches : o.Reaches before) (hname : demand.call.name = Tool.metadata.name)
    (hoffers : o.Offers demand.number .metadata) (harguments : HasArguments demand.call args) :
    before.length < o.workflow.length ∨ ∃ earlier predicate,
      o.calls = earlier ++ [.countDocuments env.corpus.id predicate] ∧
        (env.collaborators.countDocuments earlier env.corpus.id predicate).isOk = false := by
  have hdemand : demand ∈ env.collaborators.demanded o.calls := by
    rw [hasked]
    exact List.mem_append_right _ List.mem_cons_self
  have htool : Tool.ofName? demand.call.name = some .metadata :=
    ofName?_eq_some_iff_name.mpr hname.symm
  rcases h.reached hasked hreaches with ⟨hlt, -⟩ | ⟨-, rfl, hexit⟩
  · exact .inl hlt
  right
  rw [h.offers_iff hdemand] at hoffers
  have hread := arguments_eq_ok_iff.mpr harguments
  have hleftover := h.ledger.leftover
  rcases (h.conclusion.left_cases hexit).2 with ⟨other, -, hother, hnot⟩ | ⟨e, -, -, rfl, -⟩
  · obtain rfl := Option.some.inj (htool.symm.trans hother)
    rw [hoffers] at hnot
    cases hnot
  · cases hleftover with
    | refused hrefuses =>
      cases hrefuses with
      | unknown hnone =>
        rw [htool] at hnone
        cases hnone
      | unreadable hfault =>
        rw [hread] at hfault
        cases hfault
      | missing hother _ hneeded =>
        obtain rfl := Option.some.inj (htool.symm.trans hother)
        cases hneeded
    | @cut _ _ tool _ segment first call hother hargs hsegment hbeginning =>
      obtain rfl := Option.some.inj (htool.symm.trans hother)
      obtain ⟨good, hgood, -, hfails⟩ := h.ledger.sound
      have hfailed := hfails call (List.mem_singleton_self call)
      cases hsegment with
      | unfiltered => exact absurd (List.prefix_nil.mp hbeginning) (by simp)
      | counted =>
        obtain ⟨more, hmore⟩ := hbeginning
        cases first with
        | nil =>
          obtain ⟨rfl, -⟩ := List.cons.inj hmore
          exact ⟨good, _, hgood, Bool.not_eq_true _ ▸ hfailed⟩
        | cons => exact absurd (congrArg List.length hmore) (by simp)

end Report

theorem outcome_settled (env : Setting) (start : List Message) :
    Settled env (env.outcome start) := by
  obtain ⟨log, done, left, rest, failed, r, t, h⟩ := outcome_report env start
  exact {
    fails := by
      constructor
      · rintro ⟨text, hresult⟩
        cases r with
        | ok answer =>
          rw [h.result] at hresult
          cases hresult
        | error e => exact h.cause_of_error rfl
      · intro hcause
        have herror : ∃ e, r = .error e := by
          rcases hcause with hfails | hrefused
          · cases r with
            | ok answer => exact absurd hfails (h.not_callFails rfl)
            | error e => exact ⟨e, rfl⟩
          · exact h.error_of_callRefused hrefused
        obtain ⟨e, rfl⟩ := herror
        refine ⟨e.message, ?_⟩
        rw [h.result, Setting.finished, h.kept]
    ends := by
      intro hnone
      cases r with
      | ok answer => exact ⟨answer, h.ends rfl⟩
      | error e => exact absurd (h.cause_of_error rfl) hnone
    answers := by
      intro answer hends
      refine ⟨result env.corpus answer t, ?_, ?_⟩
      · rw [h.result, h.answer_of_ends hends]
        rfl
      · cases hmode : env.corpus.run.responseMode <;>
          simp [result, hmode, ResponseMode.includesAnswer]
    metadata := fun before demand after args hasked hreaches hname hoffers harguments =>
      h.metadata hasked hreaches hname hoffers harguments }

/-- **Runs fail for a cause and answer by their end.**  A run fails just if a call of a collaborator
does not bring what it needs or a tool call cannot be carried out; otherwise it succeeds with the
answer of the way in which it ends.  A caller's filter that cannot be read is as good as none. -/
theorem retrieve_settled (corpora : List Corpus) (collaborators : Collaborators) (r : Request) :
    ((r.Refused corpora ∧ (retrieve corpora collaborators r).calls = []) ∨
      ∃ c ∈ corpora, c.id = r.corpusId ∧
        Settled ⟨c, lenientFilter r.filter, collaborators⟩ (retrieve corpora collaborators r)) ∧
      ∀ value fault, Filter.parseValue value = .error fault →
        retrieve corpora collaborators { r with filter := some value } =
          retrieve corpora collaborators { r with filter := none } := by
  constructor
  · rcases retrieve_cases corpora collaborators r with hrefused | ⟨c, hc, hid, -, hretrieve⟩
    · exact .inl hrefused
    · rw [hretrieve]
      exact .inr ⟨c, hc, hid, outcome_settled ..⟩
  · intro value fault hfault
    have hnone : lenientFilter (some value) = lenientFilter none := by
      simp only [lenientFilter, Option.map_some, hfault]
      rfl
    simp only [retrieve, hnone]

end CorpusAgent.Retrieval
