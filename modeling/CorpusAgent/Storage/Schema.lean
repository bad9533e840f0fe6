import CorpusAgent.Storage.Statement
import CorpusAgent.Text.Blank
import CorpusAgent.Text.Split

/-!
# The database schema

The tables of documents and chunks with vectors of a given dimension, and the statements that set
them up within one transaction under a lock.
-/

namespace CorpusAgent.Storage

def extensionScript : String := "CREATE EXTENSION IF NOT EXISTS vector;\n"

def documentsScript (dim : String) : String :=
  "CREATE TABLE IF NOT EXISTS documents (\n\tdocument_id uuid PRIMARY KEY,\n" ++
  "\tgraph_id text NOT NULL,\n\tsource_id text NULL,\n\ttitle text NULL,\n" ++
  "\tsummary text NULL,\n\tstatus text NOT NULL DEFAULT 'pending',\n" ++
  "\tfile_metadata jsonb NOT NULL DEFAULT '\x7b\x7d'::jsonb,\n" ++
  "\tsource_metadata jsonb NOT NULL DEFAULT '\x7b\x7d'::jsonb,\n" ++
  "\tllm_metadata jsonb NOT NULL DEFAULT '\x7b\x7d'::jsonb,\n" ++
  "\tsummary_vec vector(" ++ dim ++ ") NULL,\n" ++
  "\tcreated_at timestamptz NOT NULL DEFAULT now(),\n" ++
  "\tupdated_at timestamptz NOT NULL DEFAULT now()\n);\n" ++
  "CREATE INDEX IF NOT EXISTS idx_documents_graph_status\n\tON documents (graph_id, status);\n" ++
  "CREATE INDEX IF NOT EXISTS idx_documents_summary_vec\n" ++
  "\tON documents USING hnsw (summary_vec vector_cosine_ops);\n"

def chunksScript (dim : String) : String :=
  "CREATE TABLE IF NOT EXISTS chunks (\n\tchunk_id uuid PRIMARY KEY,\n" ++
  "\tdocument_id uuid NOT NULL REFERENCES documents(document_id) ON DELETE CASCADE,\n" ++
  "\tgraph_id text NOT NULL,\n\tchunk_index int NOT NULL,\n\ttitle text NULL,\n" ++
  "\tcontent text NOT NULL,\n\tvec vector(" ++ dim ++ ") NULL,\n" ++
  "\tcreated_at timestamptz NOT NULL DEFAULT now(),\n" ++
  "\tUNIQUE (document_id, chunk_index)\n);\n" ++
  "CREATE INDEX IF NOT EXISTS idx_chunks_graph\n\tON chunks (graph_id);\n" ++
  "CREATE INDEX IF NOT EXISTS idx_chunks_document\n\tON chunks (document_id);\n" ++
  "CREATE INDEX IF NOT EXISTS idx_chunks_vec\n\tON chunks USING hnsw (vec vector_cosine_ops);\n"

/-- The schema as one script, an empty line after each part. -/
def schemaText (dim : Nat) : String :=
  String.join ([extensionScript, documentsScript (toString dim), chunksScript (toString dim)].map
    (· ++ "\n"))

/-- The statements of a script, without blank ones. -/
def scriptStatements (script : String) : List String :=
  ((Text.splitAt ';' script.toList).map fun part => Text.trim (String.ofList part)).filter
    fun statement => !statement.isEmpty

/-- The number of the lock that keeps two set-ups apart. -/
def schemaLock : Int := 4172205

def setupStatements (dim : Nat) : List Statement :=
  [⟨"BEGIN", []⟩, ⟨"SELECT pg_advisory_xact_lock($1)", [.integer schemaLock]⟩] ++
    (scriptStatements (schemaText dim)).map (⟨·, []⟩) ++ [⟨"COMMIT", []⟩]

end CorpusAgent.Storage
