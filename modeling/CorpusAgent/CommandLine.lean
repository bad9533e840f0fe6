/-!
# The command line

The program takes one option, the settings file: `-c FILE`, `-cFILE`, `-c=FILE`, `--config FILE` or
`--config=FILE`.  The option has to be given exactly once and the file name may not be empty.  Apart
from it there are only `-h`, `--help`, `-V` and `--version`.

An option is settled, with whatever error that brings, only when the next option follows or the
arguments end; an argument that is not understood is reported before that.

* `CommandLine.parse` gives the file name, or what else is to be reported.
-/

namespace CorpusAgent

/-- What is reported instead of running. -/
inductive Notice where
  | help
  | version
  | missingOption
  | badValue
  | repeatedOption
  | unknownArgument
  | needlessValue
  deriving DecidableEq, Repr

namespace CommandLine

/-- An option that is not settled yet. -/
inductive Pending where
  | nothing
  /-- The file name is to follow. -/
  | name
  | named (file : String)

/-- What the arguments so far say. -/
structure State where
  file : Option String := none
  pending : Pending := .nothing

/-- The option takes effect. -/
def State.assign (s : State) (file : String) : Except Notice State :=
  if s.file.isSome then .error .repeatedOption
  else if file.isEmpty then .error .badValue
  else .ok ⟨some file, .nothing⟩

/-- Settles the option before. -/
def State.settle (s : State) : Except Notice State :=
  match s.pending with
  | .nothing => .ok s
  | .name => .error .badValue
  | .named file => s.assign file

/-- The option, with its file name if that is part of the argument. -/
def State.option (s : State) (file : Option String) : Except Notice State := do
  let s ← s.settle
  match file with
  | some file => s.assign file
  | none => .ok { s with pending := .name }

/-- Settles the option before and reports. -/
def State.report (s : State) (notice : Notice) : Except Notice State := do
  let _ ← s.settle
  .error notice

/-- An argument that begins with two hyphens, without them. -/
def State.long (s : State) (cs : List Char) : Except Notice State :=
  let name := String.ofList (cs.takeWhile (· ≠ '='))
  let value := match cs.dropWhile (· ≠ '=') with
    | _ :: rest => some (String.ofList rest)
    | [] => none
  if name = "config" then s.option value
  else if name = "help" || name = "version" then
    if value.isSome then .error .needlessValue
    else s.report (if name = "help" then .help else .version)
  else .error .unknownArgument

/-- An argument that begins with one hyphen, without it. -/
def State.short (s : State) : List Char → Except Notice State
  | 'c' :: '=' :: rest => s.option (some (String.ofList rest))
  | 'c' :: [] => s.option none
  | 'c' :: rest => s.option (some (String.ofList rest))
  | 'h' :: _ => s.report .help
  | 'V' :: _ => s.report .version
  | _ => .error .unknownArgument

/-- An argument that is no option. -/
def State.plain (s : State) (argument : String) : Except Notice State :=
  match s.pending with
  | .name => .ok { s with pending := .named argument }
  | _ => .error .unknownArgument

def State.run (s : State) : List String → Except Notice State
  | [] => s.settle
  | argument :: rest =>
    match argument.toList with
    | ['-', '-'] => if rest.isEmpty then s.settle else .error .unknownArgument
    | '-' :: '-' :: cs => s.long cs >>= fun s => s.run rest
    | '-' :: c :: cs => s.short (c :: cs) >>= fun s => s.run rest
    | _ => s.plain argument >>= fun s => s.run rest

def parse (arguments : List String) : Except Notice String := do
  let s ← State.run {} arguments
  match s.file with
  | some file => .ok file
  | none => .error .missingOption

end CommandLine

end CorpusAgent
