/-!
# Text in parts
-/

namespace CorpusAgent.Text

/-- The parts between separators; there is one more of them than separators. -/
def splitAt (separator : Char) : List Char → List (List Char)
  | [] => [[]]
  | c :: rest =>
    match splitAt separator rest with
    | [] => [[c]]
    | part :: parts => if c = separator then [] :: part :: parts else (c :: part) :: parts

end CorpusAgent.Text
