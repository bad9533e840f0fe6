import CorpusAgent.Retrieval.Step
import CorpusAgent.Tool.Offer

/-!
# Runs

A run asks the model for its next message, carries out the tool calls in it one after the other,
puts their results into the transcript, and asks again.  It ends

* with the answer of an `exit` call,
* with a message without calls, whose words are the answer,
* with a call of a tool that was not offered, or after the last iteration; then the last words of
  the model are the answer,
* or with the first failure.

In the last iteration only `exit` is offered.
-/

namespace CorpusAgent.Retrieval

/-- The words before the last iteration. -/
def finalPrompt : String :=
  "This is the final step. Call exit now with the best answer the collected passages support."

/-- How the calls of a message end. -/
inductive Ending where
  /-- All of them have their results. -/
  | complete
  | answer (answer : String)
  /-- A tool was called that had not been offered. -/
  | withheld

namespace Setting

/-- Asks the model for its next message. -/
def complete (env : Setting) (tools : List ToolSpec) : RunM Completion := do
  let transcript := (← get).transcript
  let force := !tools.isEmpty
  ask (.complete transcript tools force) fun history =>
    env.collaborators.complete history transcript tools force

/-- Carries out tool calls one after the other. -/
def dispatch (env : Setting) (iteration : Nat) (offered : List ToolSpec) :
    List ToolCall → RunM Ending
  | [] => pure .complete
  | request :: rest =>
    match Tool.ofName? request.name with
    | none => throw (ProtocolFault.unknownTool request.name).error
    | some tool =>
      if offered.any fun spec => spec.name == tool.name then do
        match ← env.call iteration tool request with
        | .answer answer => pure (.answer answer)
        | .result result _ =>
          say (.result request.id result.print)
          env.dispatch iteration offered rest
      else pure .withheld

/-- The tools that are offered when so many more iterations are to come. -/
def offered (env : Setting) (toCome : Nat) : List ToolSpec :=
  if toCome = 0 then env.corpus.offer.filter fun spec => spec.name == Tool.exit.name
  else env.corpus.offer

/-- One iteration, after the last words of the model; `next` goes on from the new last words. -/
def iteration (env : Setting) (total toCome : Nat) (words : Option String)
    (next : Option String → RunM String) : RunM String := do
  let offered := env.offered toCome
  let completion ← env.complete offered
  let words := completion.content <|> words
  if completion.calls.isEmpty then pure (completion.content.getD "")
  else
    say (.calls completion.content completion.calls)
    match ← env.dispatch (total - toCome) offered completion.calls with
    | .complete => next words
    | .answer answer => pure answer
    | .withheld => pure (words.getD "")

/-- The iterations that remain of a total, after the last words of the model; the answer. -/
def iterate (env : Setting) (total : Nat) : Nat → Option String → RunM String
  | 0, words => pure (words.getD "")
  | toCome + 1, words => do
    if toCome = 0 then say (.plain .system finalPrompt)
    env.iteration total toCome words (env.iterate total toCome)

def run (env : Setting) : RunM String :=
  let total := env.corpus.run.maxIterations.toNat
  env.iterate total total none

end Setting

end CorpusAgent.Retrieval
