import CorpusAgent.Proofs.Retrieval.Transcript
import CorpusAgent.Proofs.Retrieval.Workflow

/-!
# How runs conclude

The tool calls that the completions of a run ask for are carried out in order, so the run is over at
the first one that is left, or when none is left.

* `Halt`: the ways in which the tool calls of a completion end.
* `Conclusion`: the ways in which a run ends.
* `Conclusion.left_cases`: what is left begins with a tool call that was not offered or that fails.
* `Course.conclusion`: there are no other ways.
-/

namespace CorpusAgent.Retrieval

/-- The latest words among completions. -/
def latestWords (completions : List Completion) : Option String :=
  (completions.filterMap Completion.content).getLast?

theorem latestWords_cons (completion : Completion) (completions : List Completion)
    (words : Option String) :
    (latestWords (completion :: completions) <|> words) =
      (latestWords completions <|> (completion.content <|> words)) := by
  unfold latestWords
  cases hcontent : completion.content with
  | none =>
    rw [List.filterMap_cons_none hcontent]
    rfl
  | some content =>
    rw [List.filterMap_cons_some hcontent, List.getLast?_cons]
    cases (completions.filterMap Completion.content).getLast? <;> rfl

theorem latestWords_orElse_none (completions : List Completion) :
    (latestWords completions <|> none) = latestWords completions := by
  cases latestWords completions <;> rfl

/-- The tools that are offered with the completion of a number. -/
def Setting.offeredWith (env : Setting) (number : Nat) : List ToolSpec :=
  env.offered (env.iterations - number)

/-- No tool call among these ends a run. -/
def NoExit (log : List ToolRun) : Prop := ∀ run ∈ log, run.record.tool ≠ .exit

/-- A run goes on after completions all of which ask for tool calls, and after completed tool calls
none of which is an `exit`. -/
structure GoesOn (completions : List Completion) (log : List ToolRun) : Prop where
  asking : ∀ completion ∈ completions, completion.calls ≠ []
  noExit : NoExit log

section

variable (env : Setting) (offered : List ToolSpec) (log : List ToolRun)

/-- How the tool calls of a completion end, by those that are left after the completed ones. -/
inductive Halt : List ToolCall → Except ServiceError Ending → Prop
  | complete (hexit : NoExit log) : Halt [] (.ok .complete)
  | answered {before : List ToolRun} {run : ToolRun} {answer : String} {left : List ToolCall}
    (hlog : log = before ++ [run]) (hexit : NoExit before) (htool : run.record.tool = .exit)
    (htext : requiredText .exit "answer" run.record.arguments = .ok answer) :
    Halt left (.ok (.answer answer))
  | withheld {request : ToolCall} {rest : List ToolCall} {tool : Tool} (hexit : NoExit log)
    (hname : Tool.ofName? request.name = some tool) (hoffered : isOffered offered tool = false) :
    Halt (request :: rest) (.ok .withheld)
  | failed {request : ToolCall} {rest : List ToolCall} {s t : RunState} {e : ServiceError}
    (hexit : NoExit log) (h : Failed env offered request s e t) : Halt (request :: rest) (.error e)

end

section

variable (env : Setting) (toCome : Nat) (words : Option String) (completions : List Completion)
  (log : List ToolRun)

/-- How the iterations that remain conclude, by the demands of their completions that are left after
the completed tool calls. -/
inductive Conclusion : List Demand → Except ServiceError String → Prop
  /-- There was a completion in each iteration. -/
  | exhausted (h : GoesOn completions log) (hspent : completions.length = toCome) :
    Conclusion [] (.ok ((latestWords completions <|> words).getD ""))
  /-- The last completion asks for no tool call. -/
  | spoken {earlier : List Completion} {completion : Completion} (h : GoesOn earlier log)
    (hlast : completions = earlier ++ [completion]) (hcalls : completion.calls = []) :
    Conclusion [] (.ok (completion.content.getD ""))
  | exited {before : List ToolRun} {run : ToolRun} {answer : String} {left : List Demand}
    (h : GoesOn completions before) (hlog : log = before ++ [run])
    (htool : run.record.tool = .exit)
    (htext : requiredText .exit "answer" run.record.arguments = .ok answer) :
    Conclusion left (.ok answer)
  /-- The next tool was not offered with the last completion. -/
  | withheld {demand : Demand} {rest : List Demand} {tool : Tool} (h : GoesOn completions log)
    (hnumber : demand.number + toCome = env.iterations + completions.length)
    (hname : Tool.ofName? demand.call.name = some tool)
    (hoffered : isOffered (env.offeredWith demand.number) tool = false) :
    Conclusion (demand :: rest) (.ok ((latestWords completions <|> words).getD ""))
  /-- The model failed. -/
  | unanswered {e : ServiceError} (h : GoesOn completions log) : Conclusion [] (.error e)
  | failed {demand : Demand} {rest : List Demand} {s t : RunState} {e : ServiceError}
    (h : GoesOn completions log)
    (hnumber : demand.number + toCome = env.iterations + completions.length)
    (hfailed : Failed env (env.offeredWith demand.number) demand.call s e t) :
    Conclusion (demand :: rest) (.error e)

end

variable {env : Setting} {s t : RunState} {log : List ToolRun}

/-! ### Tool calls of a completion -/

theorem noExit_nil : NoExit [] := List.forall_mem_nil _

theorem NoExit.cons {run : ToolRun} (hrun : run.record.tool ≠ .exit) (h : NoExit log) :
    NoExit (run :: log) := List.forall_mem_cons.mpr ⟨hrun, h⟩

theorem NoExit.append {first : List ToolRun} (hfirst : NoExit first) (h : NoExit log) :
    NoExit (first ++ log) := List.forall_mem_append.mpr ⟨hfirst, h⟩

theorem Halt.cons {offered : List ToolSpec} {run : ToolRun} {left : List ToolCall}
    {r : Except ServiceError Ending} (hrun : run.record.tool ≠ .exit)
    (h : Halt env offered log left r) : Halt env offered (run :: log) left r := by
  cases h with
  | complete hexit => exact .complete (hexit.cons hrun)
  | answered hlog hexit htool htext =>
    exact .answered (congrArg _ hlog) (hexit.cons hrun) htool htext
  | withheld hexit hname hoffered => exact .withheld (hexit.cons hrun) hname hoffered
  | failed hexit h => exact .failed (hexit.cons hrun) h

theorem Performed.answer_eq {args : Arguments} {tool : Tool} {answer : String}
    (h : Performed env args s tool (.ok (.answer answer)) t) :
    requiredText .exit "answer" args = .ok answer := by
  cases h with
  | exited htext => exact htext

theorem Dispatched.halt {offered : List ToolSpec} {number : Nat} {requests : List ToolCall}
    {r : Except ServiceError Ending} (h : Dispatched env offered number requests s log r t) :
    log.length ≤ requests.length ∧ Halt env offered log (requests.drop log.length) r := by
  induction h with
  | done s => exact ⟨Nat.le_refl _, .complete noExit_nil⟩
  | withheld hname hoffered => exact ⟨Nat.zero_le _, .withheld noExit_nil hname hoffered⟩
  | failed h => exact ⟨Nat.zero_le _, .failed noExit_nil h⟩
  | @exited request rest s m run answer h =>
    refine ⟨Nat.succ_le_succ (Nat.zero_le _), ?_⟩
    have hlog : [run] = [] ++ [run] := rfl
    exact .answered hlog noExit_nil h.performed.eq_exit h.performed.answer_eq
  | answered h _ ih =>
    exact ⟨Nat.succ_le_succ ih.1, ih.2.cons h.performed.ne_exit⟩

theorem Dispatched.length_eq {offered : List ToolSpec} {number : Nat} {requests : List ToolCall}
    (h : Dispatched env offered number requests s log (.ok .complete) t) :
    log.length = requests.length ∧ NoExit log := by
  obtain ⟨hle, hhalt⟩ := h.halt
  generalize hleft : requests.drop log.length = left at hhalt
  cases hhalt with
  | complete hexit => exact ⟨Nat.le_antisymm hle (List.drop_eq_nil_iff.mp hleft), hexit⟩

/-! ### Iterations -/

theorem goesOn_nil : GoesOn [] [] := ⟨List.forall_mem_nil _, noExit_nil⟩

theorem GoesOn.append {completion : Completion} {completions : List Completion}
    {first : List ToolRun} (hcalls : completion.calls ≠ []) (hfirst : NoExit first)
    (h : GoesOn completions log) : GoesOn (completion :: completions) (first ++ log) :=
  ⟨List.forall_mem_cons.mpr ⟨hcalls, h.asking⟩, hfirst.append h.noExit⟩

theorem Conclusion.cons {toCome : Nat} {words : Option String} {completion : Completion}
    {completions : List Completion} {first : List ToolRun} {left : List Demand}
    {r : Except ServiceError String} (hcalls : completion.calls ≠ []) (hfirst : NoExit first)
    (h : Conclusion env toCome (completion.content <|> words) completions log left r) :
    Conclusion env (toCome + 1) words (completion :: completions) (first ++ log) left r := by
  cases h with
  | exhausted h hspent =>
    rw [← latestWords_cons]
    exact .exhausted (h.append hcalls hfirst) (congrArg Nat.succ hspent)
  | spoken h hlast hnone => exact .spoken (h.append hcalls hfirst) (congrArg _ hlast) hnone
  | exited h hlog htool htext =>
    refine .exited (h.append hcalls hfirst) ?_ htool htext
    rw [hlog, List.append_assoc]
  | withheld h hnumber hname hoffered =>
    rw [← latestWords_cons]
    exact .withheld (h.append hcalls hfirst) (congrArg Nat.succ hnumber) hname hoffered
  | unanswered h => exact .unanswered (h.append hcalls hfirst)
  | failed h hnumber hfailed =>
    exact .failed (h.append hcalls hfirst) (congrArg Nat.succ hnumber) hfailed

/-- The first demand that is left is withheld or fails, unless an `exit` came before it. -/
theorem Conclusion.left_cases {toCome : Nat} {words : Option String}
    {completions : List Completion} {demand : Demand} {rest : List Demand}
    {r : Except ServiceError String}
    (h : Conclusion env toCome words completions log (demand :: rest) r) (hexit : NoExit log) :
    demand.number + toCome = env.iterations + completions.length ∧
      ((∃ tool, r = .ok ((latestWords completions <|> words).getD "") ∧
          Tool.ofName? demand.call.name = some tool ∧
          isOffered (env.offeredWith demand.number) tool = false) ∨
        ∃ e s t, r = .error e ∧
          Failed env (env.offeredWith demand.number) demand.call s e t) := by
  cases h with
  | exited _ hlog htool _ =>
    exact absurd htool (hexit _ (hlog ▸ List.mem_append_right _ (List.mem_singleton_self _)))
  | withheld _ hnumber hname hoffered =>
    exact ⟨hnumber, .inl ⟨_, rfl, hname, hoffered⟩⟩
  | failed _ hnumber hfailed => exact ⟨hnumber, .inr ⟨_, _, _, rfl, hfailed⟩⟩

/-- An iteration after which nothing comes concludes the run. -/
theorem Last.conclusion {toCome : Nat} {words : Option String} {completion : Completion}
    {r : Except ServiceError String} (hlt : toCome < env.iterations)
    (h : Last env env.iterations toCome words completion s log r t) :
    Conclusion env (toCome + 1) words [completion] log
      ((completion.calls.map (⟨env.iterations - toCome, ·⟩)).drop log.length) r := by
  have hoffered : env.offeredWith (env.iterations - toCome) = env.offered toCome :=
    congrArg env.offered (Nat.sub_sub_self (Nat.le_of_lt hlt))
  have hwords : (completion.content <|> words) = (latestWords [completion] <|> words) := by
    rw [latestWords_cons]
    rfl
  have hnumber : env.iterations - toCome + (toCome + 1) = env.iterations + [completion].length := by
    rw [List.length_singleton]
    omega
  have hasking : completion.calls ≠ [] → ∀ c ∈ [completion], c.calls ≠ [] := by
    intro hcalls c hc
    rwa [List.mem_singleton.mp hc]
  have hleft : ∀ request rest, completion.calls.drop log.length = request :: rest →
      completion.calls ≠ [] := by
    intro request rest hdrop hnone
    rw [hnone, List.drop_nil] at hdrop
    cases hdrop
  rw [← List.map_drop]
  cases h with
  | spoken hcalls =>
    rw [hcalls]
    have hlast : [completion] = [] ++ [completion] := rfl
    exact .spoken goesOn_nil hlast hcalls
  | exited h =>
    obtain ⟨hle, hhalt⟩ := h.halt
    generalize completion.calls.drop log.length = left at hhalt
    cases hhalt with
    | answered hlog hexit htool htext =>
      refine .exited ⟨hasking fun hnone => ?_, hexit⟩ hlog htool htext
      rw [hnone, hlog, List.length_append] at hle
      exact Nat.not_succ_le_zero _ hle
  | withheld h =>
    obtain ⟨-, hhalt⟩ := h.halt
    generalize completion.calls.drop log.length = left at hhalt hleft
    cases hhalt with
    | withheld hexit hname hnot =>
      rw [hwords]
      exact .withheld ⟨hasking (hleft _ _ rfl), hexit⟩ hnumber hname (hoffered ▸ hnot)
  | failed h =>
    obtain ⟨-, hhalt⟩ := h.halt
    generalize completion.calls.drop log.length = left at hhalt hleft
    cases hhalt with
    | failed hexit hfailed =>
      exact .failed ⟨hasking (hleft _ _ rfl), hexit⟩ hnumber (hoffered ▸ hfailed)

/-- Every course concludes in one of these ways. -/
theorem Course.conclusion {toCome : Nat} {words : Option String} {r : Except ServiceError String}
    (h : Course env env.iterations toCome words s log r t) (hle : toCome ≤ env.iterations) :
    ∃ calls, t.calls = s.calls ++ calls ∧
      Conclusion env toCome words (env.collaborators.completions s.calls calls) log
        ((demands (env.iterations + 1 - toCome)
          (env.collaborators.completions s.calls calls)).drop log.length) r := by
  induction h with
  | exhausted words s =>
    exact ⟨[], (List.append_nil _).symm, .exhausted goesOn_nil rfl⟩
  | @unanswered toCome words s e hreply =>
    rw [← s.prompted_calls toCome]
    generalize s.prompted toCome = p at hreply ⊢
    refine ⟨[env.request toCome p], rfl, ?_⟩
    rw [completions_unanswered hreply]
    exact .unanswered goesOn_nil
  | @last toCome words s t completion log r hreply h =>
    rw [← s.prompted_calls toCome]
    generalize s.prompted toCome = p at hreply h ⊢
    obtain ⟨made, hmade, hquiet⟩ := h.exists_quiet
    refine ⟨env.request toCome p :: made, ?_, ?_⟩
    · rw [hmade]
      exact List.append_assoc ..
    · rw [completions_answered hreply, Collaborators.completions_eq_nil _ hquiet,
        Nat.add_sub_add_right, demands_singleton]
      exact h.conclusion hle
  | @next toCome words s m t completion log later r hreply hrequested h _ ih =>
    rw [← s.prompted_calls toCome]
    generalize s.prompted toCome = p at hreply h ⊢
    obtain ⟨calls, hcalls, hconclusion⟩ := ih (by omega)
    obtain ⟨made, hmade, hquiet⟩ := h.exists_quiet
    obtain ⟨hlength, hexit⟩ := h.length_eq
    have hfirst : m.calls = p.calls ++ env.request toCome p :: made := by
      rw [hmade]
      exact List.append_assoc ..
    refine ⟨env.request toCome p :: (made ++ calls), ?_, ?_⟩
    · rw [hcalls, hfirst, List.append_assoc]
      rfl
    · have hnumber : env.iterations + 1 - toCome = env.iterations - toCome + 1 := by omega
      have hlater : (p.calls ++ [env.request toCome p]) ++ made = m.calls := by
        rw [hfirst, List.append_assoc]
        rfl
      rw [hnumber] at hconclusion
      rw [completions_answered hreply, Collaborators.completions_append,
        Collaborators.completions_eq_nil _ hquiet, Nat.add_sub_add_right, List.nil_append, hlater]
      -- the demands of this completion are all carried out, so those left are later ones
      have hdrop : (demands (env.iterations - toCome)
          (completion :: env.collaborators.completions m.calls calls)).drop (log ++ later).length =
          (demands (env.iterations - toCome + 1)
            (env.collaborators.completions m.calls calls)).drop later.length := by
        rw [demands, List.length_append, hlength, ← List.drop_drop, List.drop_left']
        exact List.length_map ..
      rw [hdrop]
      exact hconclusion.cons hrequested hexit

end CorpusAgent.Retrieval
