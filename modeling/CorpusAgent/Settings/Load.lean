import CorpusAgent.Settings.Decode
import CorpusAgent.Settings.Fault
import CorpusAgent.Settings.Normal
import CorpusAgent.Toml.Document

/-!
# Loading settings

Settings come from a file of TOML text.  They are decoded, brought into normal form and checked.

* `Settings.load` takes the name of the file and its text, if there is one.
-/

namespace CorpusAgent

/-- Why settings were not loaded. -/
inductive LoadError where
  | unreadable (file : String)
  | malformed (file : String)
  | invalid (fault : SettingsFault)
  deriving DecidableEq, Repr

def LoadError.message : LoadError → String
  | .unreadable file => "Failed to read config file at " ++ Text.quoted file ++ "."
  | .malformed file => "Failed to parse config file at " ++ Text.quoted file ++ "."
  | .invalid fault => fault.message

namespace Settings

/-- Settings in normal form without a fault. -/
def check (s : Settings) : Except LoadError Settings :=
  match s.normalize.fault? with
  | some fault => .error (.invalid fault)
  | none => .ok s.normalize

def ofTree (file : String) (tree : Option Json) : Except LoadError Settings :=
  match tree.bind (Settings.ofJson? .toml) with
  | some s => s.check
  | none => .error (.malformed file)

def load (file : String) (text : Option String) : Except LoadError Settings :=
  match text with
  | some text => ofTree file (Toml.read? text)
  | none => .error (.unreadable file)

end Settings

end CorpusAgent
