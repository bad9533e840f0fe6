import CorpusAgent.Settings.Basic
import CorpusAgent.Text.Blank

/-!
# Settings in normal form

A text that replaces a default counts as absent when it is blank: the embedding model and the system
prompt of a corpus and the descriptions of its tools.
-/

namespace CorpusAgent

/-- The text, unless it is blank. -/
def present (text : Option String) : Option String := text.filter fun s => !Text.isBlank s

/-- The tools without blank descriptions. -/
def ToolSettings.normalize (t : ToolSettings) : ToolSettings where
  exit := { t.exit with description := present t.exit.description }
  chunks := { t.chunks with description := present t.chunks.description }
  summaries := { t.summaries with description := present t.summaries.description }
  metadata := { t.metadata with description := present t.metadata.description }

/-- The corpus without blank texts in place of defaults. -/
def Corpus.normalize (c : Corpus) : Corpus :=
  { c with
    embeddingModel := present c.embeddingModel
    systemPrompt := present c.systemPrompt
    tools := c.tools.normalize }

/-- The settings without blank texts in place of defaults. -/
def Settings.normalize (s : Settings) : Settings :=
  { s with corpora := s.corpora.map Corpus.normalize }

end CorpusAgent
