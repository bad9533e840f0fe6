import CorpusAgent.Catalog

/-!
# Filters

A filter is a boolean expression over the metadata of a document.  Its leaves compare a field of the
catalog, or the value at a key of one origin, with an operand.
-/

namespace CorpusAgent

/-- What a leaf asks of the values it looks at. -/
inductive Operator where
  | equal
  | notEqual
  | oneOf
  | contains
  | present
  | absent
  | notContains
  /-- Any other name.  Such a leaf never holds. -/
  | unsupported (name : String)
  deriving DecidableEq, Repr

namespace Operator

def name : Operator → String
  | .equal => "eq"
  | .notEqual => "ne"
  | .oneOf => "in"
  | .contains => "contains"
  | .present => "exists"
  | .absent => "not_exists"
  | .notContains => "not_contains"
  | .unsupported name => name

/-- An ASCII letter in lower case; other characters are kept. -/
def lower (c : Char) : Char :=
  if 'A' ≤ c && c ≤ 'Z' then Char.ofNat (c.toNat + 32) else c

/-- The operator of a name.  ASCII case does not matter, and `like` is another name of
`contains`. -/
def ofName (raw : String) : Operator :=
  let known := String.ofList (raw.toList.map lower)
  if known = "eq" then .equal
  else if known = "ne" then .notEqual
  else if known = "in" then .oneOf
  else if known = "contains" ∨ known = "like" then .contains
  else if known = "exists" then .present
  else if known = "not_exists" then .absent
  else if known = "not_contains" then .notContains
  else .unsupported raw

/-- The operator is one of the seven known ones. -/
def isSupported : Operator → Bool
  | .unsupported _ => false
  | _ => true

end Operator

/-- A value to compare with. -/
inductive Scalar where
  | text (value : String)
  | number (value : Number)
  | bool (value : Bool)
  | null
  deriving DecidableEq, Repr

/-- What a leaf compares with: a single value, a list, both or neither. -/
structure Operand where
  value : Option Scalar
  values : Option (List Scalar)
  deriving DecidableEq, Repr

namespace Operand

/-- The value to compare with: the single one, else the first of the list, else `null`. -/
def single (o : Operand) : Scalar :=
  match o.value with
  | some v => v
  | none => ((o.values.getD []).head?).getD .null

/-- The candidates: the list if there is one, else the single value alone. -/
def candidates (o : Operand) : List Scalar :=
  match o.values with
  | some vs => vs
  | none => o.value.toList

end Operand

structure Condition where
  operator : Operator
  operand : Operand
  deriving DecidableEq, Repr

/-- A boolean expression over the metadata of a document. -/
inductive Filter where
  | all (parts : List Filter)
  | any (parts : List Filter)
  | not (part : Filter)
  /-- The values of a field of the catalog. -/
  | field (name : String) (condition : Condition)
  /-- The value at a key of one origin. -/
  | path (origin : Origin) (key : String) (condition : Condition)
  deriving Inhabited, Repr

namespace Filter

mutual

def decEq : (a b : Filter) → Decidable (a = b)
  | .all ps, .all qs =>
    match decEqList ps qs with
    | isTrue h => isTrue (by rw [h])
    | isFalse h => isFalse (by intro e; cases e; exact h rfl)
  | .any ps, .any qs =>
    match decEqList ps qs with
    | isTrue h => isTrue (by rw [h])
    | isFalse h => isFalse (by intro e; cases e; exact h rfl)
  | .not p, .not q =>
    match decEq p q with
    | isTrue h => isTrue (by rw [h])
    | isFalse h => isFalse (by intro e; cases e; exact h rfl)
  | .field n c, .field m d =>
    if h : n = m ∧ c = d then isTrue (by rw [h.1, h.2])
    else isFalse (by intro e; cases e; exact h ⟨rfl, rfl⟩)
  | .path o k c, .path p l d =>
    if h : o = p ∧ k = l ∧ c = d then isTrue (by rw [h.1, h.2.1, h.2.2])
    else isFalse (by intro e; cases e; exact h ⟨rfl, rfl, rfl⟩)
  | .all _, .any _ | .all _, .not _ | .all _, .field .. | .all _, .path ..
  | .any _, .all _ | .any _, .not _ | .any _, .field .. | .any _, .path ..
  | .not _, .all _ | .not _, .any _ | .not _, .field .. | .not _, .path ..
  | .field .., .all _ | .field .., .any _ | .field .., .not _ | .field .., .path ..
  | .path .., .all _ | .path .., .any _ | .path .., .not _ | .path .., .field .. =>
    isFalse (by intro e; cases e)

def decEqList : (a b : List Filter) → Decidable (a = b)
  | [], [] => isTrue rfl
  | [], _ :: _ => isFalse (by intro e; cases e)
  | _ :: _, [] => isFalse (by intro e; cases e)
  | p :: ps, q :: qs =>
    match decEq p q, decEqList ps qs with
    | isTrue h, isTrue hs => isTrue (by rw [h, hs])
    | isFalse h, _ => isFalse (by intro e; cases e; exact h rfl)
    | _, isFalse hs => isFalse (by intro e; cases e; exact hs rfl)

end

instance : DecidableEq Filter := decEq

end Filter

end CorpusAgent
