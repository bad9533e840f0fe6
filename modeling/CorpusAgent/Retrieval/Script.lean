import CorpusAgent.Retrieval.Call

/-!
# Scripted collaborators

A script fixes the replies of the collaborators in advance, one list for each kind of call.  The
replies are given in order; when they run out, the last one is given again and again.
-/

namespace CorpusAgent.Retrieval

/-- The replies to each kind of call. -/
structure Script where
  completions : List (Except ServiceError Completion)
  embeddings : List (Except ServiceError (List (List Single)))
  counts : List (Except ServiceError Int)
  documents : List (Except ServiceError (List DocumentHit))
  passages : List (Except ServiceError (List Passage))

namespace Call

def isComplete : Call → Bool
  | .complete .. => true
  | _ => false

def isEmbed : Call → Bool
  | .embed .. => true
  | _ => false

def isCountDocuments : Call → Bool
  | .countDocuments .. => true
  | _ => false

def isSearchDocuments : Call → Bool
  | .searchDocuments .. => true
  | _ => false

def isSearchChunks : Call → Bool
  | .searchChunks .. => true
  | _ => false

end Call

namespace Script

/-- The reply to a call of a kind after so many calls of that kind; the last entry repeats. -/
def reply {α : Type} (entries : List α) (empty : α) (before : Nat) : α :=
  (entries[min before (entries.length - 1)]?).getD empty

/-- The vector for texts without a scripted one. -/
def zeroVector : List Single := [.zero false, .zero false, .zero false]

/-- The collaborators that follow a script.  Without entries the model fails, and the others find
nothing. -/
def collaborators (s : Script) : Collaborators where
  complete history _ _ _ :=
    reply s.completions (.error (.provider "no scripted completion"))
      (history.countP Call.isComplete)
  embed history _ _ := reply s.embeddings (.ok [zeroVector]) (history.countP Call.isEmbed)
  countDocuments history _ _ := reply s.counts (.ok 0) (history.countP Call.isCountDocuments)
  searchDocuments history _ _ _ :=
    reply s.documents (.ok []) (history.countP Call.isSearchDocuments)
  searchChunks history _ := reply s.passages (.ok []) (history.countP Call.isSearchChunks)

end Script

end CorpusAgent.Retrieval
