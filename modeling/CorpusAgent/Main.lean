import CorpusAgent.CommandLine
import CorpusAgent.Settings.Load

/-!
# The program

Reads the settings file that the command line names and says what the service would serve.
-/

namespace CorpusAgent

def usage : String := "Usage: corpus-agent --config <FILE>"

def Notice.message : Notice → String
  | .help => usage
  | .version => "corpus-agent"
  | .missingOption => "error: the option --config is missing\n\n" ++ usage
  | .badValue => "error: the option --config needs a file name\n\n" ++ usage
  | .repeatedOption => "error: the option --config is given more than once\n\n" ++ usage
  | .unknownArgument => "error: unexpected argument\n\n" ++ usage
  | .needlessValue => "error: unexpected value\n\n" ++ usage

/-- The notice is no error. -/
def Notice.isAnswer : Notice → Bool
  | .help => true
  | .version => true
  | _ => false

/-- The text of a file, if it can be read. -/
def textOf? (file : String) : IO (Option String) := do
  try
    return some (← IO.FS.readFile file)
  catch _ =>
    return none

end CorpusAgent

open CorpusAgent in
def main (arguments : List String) : IO UInt32 := do
  match CommandLine.parse arguments with
  | .error notice =>
    if notice.isAnswer then
      IO.println notice.message
      return 0
    else
      IO.eprintln notice.message
      return 2
  | .ok file =>
    match Settings.load file (← textOf? file) with
    | .error e =>
      IO.eprintln e.message
      return 1
    | .ok settings =>
      IO.println ("Listening on " ++ settings.service.httpBind ++ " for " ++
        toString settings.corpora.length ++ " corpora.")
      return 0
