import CorpusAgent.Sql.Placeholder
import CorpusAgent.Sql.Render

/-!
# Reading conditions

A reader of the text of a condition, by the precedence of the query language: `OR` binds weaker
than `AND`, `AND` weaker than `NOT`, and `NOT` weaker than the comparisons.

* `Phrase` is an expression of any of the three kinds; what kind is meant is found out by reading.
* `primary` reads what is closed by itself; its first word says which of the forms it is.
* `readPhrase` reads all; its fuel bounds how deep brackets are nested.
-/

namespace CorpusAgent.Sql

/-- An expression of any kind. -/
inductive Phrase where
  | term (t : Term)
  | values (v : Values)
  | cond (c : Cond)

namespace Phrase

/-- The text of an expression. -/
def render : Phrase → String
  | .term t => t.render
  | .values v => v.render
  | .cond c => c.render

def term? : Phrase → Option Term
  | .term t => some t
  | _ => none

def values? : Phrase → Option Values
  | .values v => some v
  | _ => none

def cond? : Phrase → Option Cond
  | .cond c => some c
  | _ => none

/-- Several conditions as one; a single expression may be of any kind. -/
def join (op : Cond → Cond → Cond) : List Phrase → Option Phrase
  | [] => none
  | [p] => some p
  | p :: rest => do some (.cond (Cond.joined op (← p.cond?) (← rest.mapM cond?)))

end Phrase

/-- The number of a bound value. -/
def Term.index? : Term → Option Nat
  | .bound i => some i
  | _ => none

/-- A reader takes some of the characters and leaves the rest. -/
abbrev Reader (α : Type) := List Char → Option (α × List Char)

/-- Takes a given word. -/
def word (w : String) (cs : List Char) : Option (List Char) := w.toList.isPrefixOf? cs

section

variable {α β : Type}

/-- Takes the first of several words that is there and goes on as it says. -/
def choose (otherwise : Reader α) : List (String × Reader α) → Reader α
  | [], cs => otherwise cs
  | (w, next) :: more, cs =>
    match word w cs with
    | some rest => next rest
    | none => choose otherwise more cs

/-- Reads an item and gives up unless it is of a kind. -/
def narrow (kind : α → Option β) (item : Reader α) : Reader β := fun cs => do
  let (a, cs) ← item cs
  some (← kind a, cs)

/-- More items, each after a separator. -/
def readMore (separator : String) (item : Reader α) : Nat → Reader (List α)
  | 0, cs => some ([], cs)
  | fuel + 1, cs =>
    match word separator cs with
    | none => some ([], cs)
    | some cs => do
      let (a, cs) ← item cs
      let (more, cs) ← readMore separator item fuel cs
      some (a :: more, cs)

/-- Items with separators between them, at least one. -/
def separated (separator : String) (item : Reader α) : Reader (List α) := fun cs => do
  let (a, cs) ← item cs
  let (more, cs) ← readMore separator item cs.length cs
  some (a :: more, cs)

end

/-! ### Bound values -/

/-- The number of a name. -/
def index? (name : List Char) : Option Nat :=
  let i := Nat.ofDigitChars 10 (name.drop 1) 0
  if (paramName i).toList = name then some i else none

/-- The rest of a placeholder: a name, as long as there are characters for it. -/
def readName : Reader Nat := fun cs => do
  some (← index? (cs.takeWhile Piece.isNamePart), cs.dropWhile Piece.isNamePart)

def readPlaceholder : Reader Nat := fun cs => do readName (← word ":" cs)

/-- The column of an origin, with an arrow and a bound key. -/
def readMember (arrow : String) : Reader (Origin × Nat) :=
  choose (fun _ => none) ([.file, .source, .llm].map fun origin =>
    (columnName origin ++ arrow, fun cs => do
      let (key, cs) ← readPlaceholder cs
      some ((origin, key), cs)))

/-! ### Closed forms -/

section

variable (nested : Reader Phrase)

def nestedTerm : Reader Term := narrow Phrase.term? nested

def nestedValues : Reader Values := narrow Phrase.values? nested

def nestedCond : Reader Cond := narrow Phrase.cond? nested

/-- A term within brackets. -/
def readWrapped (wrap : Term → Term) (closing : String) : Reader Phrase := fun cs => do
  let (t, cs) ← nestedTerm nested cs
  some (.term (wrap t), ← word closing cs)

/-- A list of bound values or of one term. -/
def readArray : Reader Phrase := fun cs => do
  let (ts, cs) ← separated ", " (nestedTerm nested) cs
  let cs ← word "]" cs
  match word "::text[]" cs, ts with
  | some cs, ts => do
    let indices ← ts.mapM Term.index?
    some (.values (.bounds indices), cs)
  | none, [t] => some (.values (.single t), cs)
  | none, _ => none

/-- The first of several lists, or a condition that is false where it would be unknown. -/
def readCoalesce : Reader Phrase := fun cs => do
  match ← nested cs with
  | (.cond c, cs) => some (.cond (.orFalse c), ← word ", FALSE)" cs)
  | (.values v, cs) => do
    let (more, cs) ← readMore ", " (nestedValues nested) cs.length cs
    some (.values (.coalesce (v :: more)), ← word ")" cs)
  | (.term _, _) => none

def readExists : Reader Phrase := fun cs => do
  let (v, cs) ← nestedValues nested cs
  let cs ← word ") AS el WHERE " cs
  let (c, cs) ← nestedCond nested cs
  some (.cond (.someElement v c), ← word ")" cs)

def readContains : Reader Phrase := fun cs => do
  let (haystack, cs) ← nestedTerm nested cs
  let cs ← word "), lower(" cs
  let (needle, cs) ← nestedTerm nested cs
  some (.cond (.contains haystack needle), ← word ")) > 0" cs)

/-- The two lists of a case distinction. -/
def readBranches (choice : Values → Values → Values) : Reader Phrase := fun cs => do
  let (v, cs) ← nestedValues nested cs
  let cs ← word " ELSE " cs
  let (w, cs) ← nestedValues nested cs
  some (.values (choice v w), ← word " END)" cs)

def readIfNull : Reader Phrase := fun cs => do
  match ← nestedCond nested cs with
  | (.isNull t, cs) => readBranches nested (.ifNull t) (← word " THEN " cs)
  | _ => none

def readIfArray : Reader Phrase := fun cs => do
  let ((origin, key), cs) ← readMember " -> " cs
  readBranches nested (.ifArray origin key) (← word ") WHEN 'array' THEN " cs)

def readElements : Reader Phrase := fun cs => do
  let (item, cs) ← nestedTerm nested cs
  let cs ← word ") FROM jsonb_array_elements_text(" cs
  let ((origin, key), cs) ← readMember " -> " cs
  let cs ← word ") AS el WHERE " cs
  match ← nestedCond nested cs with
  | (.isNotNull kept, cs) => some (.values (.elements item origin key kept), ← word ")" cs)
  | _ => none

/-- What stands in plain parentheses: a condition, a case distinction or a query. -/
def readParenthesis : Reader Phrase := fun cs =>
  match nested cs with
  | some (p, cs) => do some (.cond (.paren (← p.cond?)), ← word ")" cs)
  | none =>
    choose (fun _ => none)
      [("CASE WHEN ", readIfNull nested), ("CASE jsonb_typeof(", readIfArray nested),
        ("SELECT array_agg(", readElements nested)] cs

/-- An expression that is closed by itself. -/
def primary : Reader Phrase :=
  choose (narrow (fun (origin, key) => some (.term (.member origin key))) (readMember " ->> "))
    [(":", narrow (fun i => some (.term (.bound i))) readName),
      ("d.source_id", fun cs => some (.term .sourceId, cs)),
      ("el", fun cs => some (.term .element, cs)),
      ("btrim(", readWrapped nested .btrim ")"),
      ("NULLIF(", readWrapped nested .nullIfEmpty ", '')"),
      ("NULL::text[]", fun cs => some (.values .null, cs)),
      ("ARRAY[", readArray nested),
      ("COALESCE(", readCoalesce nested),
      ("TRUE", fun cs => some (.cond (.literal true), cs)),
      ("FALSE", fun cs => some (.cond (.literal false), cs)),
      ("EXISTS (SELECT 1 FROM unnest(", readExists nested),
      ("strpos(lower(", readContains nested),
      ("(", readParenthesis nested)]

end

/-! ### Precedence -/

section

variable (item : Reader Phrase)

/-- An expression, possibly compared with something. -/
def comparison : Reader Phrase := fun cs => do
  match ← item cs with
  | (.term a, cs) =>
    choose (fun cs => some (.term a, cs))
      [(" = ", narrow (fun b => some (.cond (.equal a b))) (nestedTerm item)),
        (" IS NULL", fun cs => some (.cond (.isNull a), cs)),
        (" IS NOT NULL", fun cs => some (.cond (.isNotNull a), cs)),
        (" IS NOT DISTINCT FROM ",
          narrow (fun b => some (.cond (.isNotDistinct a b))) (nestedTerm item)),
        (" IS DISTINCT FROM ",
          narrow (fun b => some (.cond (.isDistinct a b))) (nestedTerm item)),
        (" NOT IN (", fun cs => do
          let (indices, cs) ← separated ", " readPlaceholder cs
          some (.cond (.notAmong a indices), ← word ")" cs))] cs
  | (.values v, cs) =>
    choose (fun cs => some (.values v, cs))
      [(" IS NULL", fun cs => some (.cond (.noValues v), cs)),
        (" IS NOT NULL", fun cs => some (.cond (.someValues v), cs))] cs
  | (.cond c, cs) => some (.cond c, cs)

/-- An expression, possibly negated. -/
def negation : Reader Phrase := fun cs =>
  match item cs with
  | some found => some found
  | none => do
    let (c, cs) ← nestedCond item (← word "NOT " cs)
    some (.cond (.negate c), cs)

/-- Conditions with an operator between them, taken together from the left, or one expression. -/
def joinedBy (operator : String) (op : Cond → Cond → Cond) : Reader Phrase :=
  narrow (Phrase.join op) (separated operator item)

end

/-- An expression. -/
def readPhrase : Nat → Reader Phrase
  | 0 => fun _ => none
  | fuel + 1 =>
    joinedBy (joinedBy (negation (comparison (primary (readPhrase fuel)))) " AND " .both)
      " OR " .either

/-- The condition of a text, if all of it is one. -/
def Cond.read? (text : String) : Option Cond :=
  match readPhrase (text.length + 1) text.toList with
  | some (.cond c, []) => some c
  | _ => none

end CorpusAgent.Sql
