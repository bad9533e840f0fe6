import CorpusAgent.Proofs.Sql.Fragment
import CorpusAgent.Storage.Query

/-!
# Positions in a statement

How a statement refers to its values, outside of literals.

* `Token.scan` cuts the text of a statement into literals in single quotes, positions (a dollar sign
  with digits) and other characters.
* `Statement.positions` are the positions that are used; `Statement.filled` is the statement with
  the values in place of their positions.
* `Token.scan_template`: a text with positions falls into the texts between them and the positions.
* `scan_pieces`: with positions in place of its placeholders, a text has the tokens that correspond
  to its pieces, each placeholder being one position.
-/

namespace CorpusAgent.Storage

open Sql (Piece Parted)

/-- A part of a statement. -/
inductive Token where
  /-- A literal with its quotes. -/
  | literal (chars : List Char)
  | position (number : Nat)
  | other (c : Char)
  deriving DecidableEq, Repr

namespace Token

/-- What a scan has begun; characters read are kept in reverse. -/
inductive Mode where
  | outside
  | literal (seen : List Char)
  | dollar (digits : List Char)

/-- A dollar sign alone is no position. -/
def ofDollar (digits : List Char) : Token :=
  if digits = [] then .other '$' else .position (Nat.ofDigitChars 10 digits.reverse 0)

/-- The tokens that a character completes. -/
def completed : Mode → Char → List Token
  | .outside, c => if c = '\'' ∨ c = '$' then [] else [.other c]
  | .literal seen, c => if c = '\'' then [.literal (c :: seen).reverse] else []
  | .dollar digits, c =>
    if c.isDigit then []
    else if c = '\'' ∨ c = '$' then [ofDollar digits]
    else [ofDollar digits, .other c]

/-- The mode after a character. -/
def after : Mode → Char → Mode
  | .outside, c => if c = '\'' then .literal [c] else if c = '$' then .dollar [] else .outside
  | .literal seen, c => if c = '\'' then .outside else .literal (c :: seen)
  | .dollar digits, c =>
    if c.isDigit then .dollar (c :: digits)
    else if c = '\'' then .literal [c]
    else if c = '$' then .dollar []
    else .outside

/-- The tokens that the end of the text completes. -/
def pending : Mode → List Token
  | .outside => []
  | .literal seen => [.literal seen.reverse]
  | .dollar digits => [ofDollar digits]

/-- The tokens of a text from a mode on. -/
def scanFrom : Mode → List Char → List Token
  | m, [] => pending m
  | m, c :: rest => completed m c ++ scanFrom (after m c) rest

/-- The tokens of a text. -/
def scan (cs : List Char) : List Token := scanFrom .outside cs

/-- The number of a position. -/
def position? : Token → Option Nat
  | .position n => some n
  | _ => none

end Token

/-- A character of a statement or a value in place of a position; there may be no value for it. -/
inductive Part where
  | char (c : Char)
  | value (v : Option Value)
  deriving DecidableEq, Repr

/-- Text with no value in it. -/
def Part.text (s : String) : List Part := s.toList.map .char

theorem Part.text_append (s t : String) : text (s ++ t) = text s ++ text t := by
  simp [text]

/-- A token with the value of its position; positions count from 1. -/
def Token.fill (values : List Value) : Token → List Part
  | .literal cs => cs.map .char
  | .position 0 => [.value none]
  | .position (n + 1) => [.value values[n]?]
  | .other c => [.char c]

namespace Statement

/-- The positions that are used. -/
def positions (s : Statement) : List Nat := (Token.scan s.sql.toList).filterMap Token.position?

/-- The statement with its values in place of their positions. -/
def filled (s : Statement) : List Part := (Token.scan s.sql.toList).flatMap (Token.fill s.values)

end Statement

/-! ### Scans of parts -/

namespace Token

/-- What follows does not continue a position. -/
def NoDigit (rest : List Char) : Prop := ∀ c ∈ rest.head?, c.isDigit = false

theorem scanFrom_dollar (digits : List Char) {rest : List Char} (hr : NoDigit rest) :
    scanFrom (.dollar digits) rest = ofDollar digits :: scan rest := by
  cases rest with
  | nil => rfl
  | cons c rest =>
    have hc : c.isDigit = false := hr c rfl
    by_cases hq : c = '\'' ∨ c = '$' <;> simp [scan, scanFrom, completed, after, hc, hq]

theorem scan_literal {body : List Char} (hb : '\'' ∉ body) (rest : List Char) :
    scan ('\'' :: (body ++ ['\'']) ++ rest) = .literal ('\'' :: (body ++ ['\''])) :: scan rest := by
  have hseen : ∀ seen : List Char, scanFrom (.literal seen) (body ++ ('\'' :: rest)) =
      .literal (seen.reverse ++ (body ++ ['\''])) :: scan rest := by
    induction body with
    | nil =>
      intro seen
      simp [scanFrom, completed, after, scan]
    | cons c body ih =>
      intro seen
      simp only [List.mem_cons, not_or] at hb
      have hc : ¬c = '\'' := fun h => hb.1 h.symm
      rw [List.cons_append, scanFrom, completed, after, if_neg hc, if_neg hc, List.nil_append,
        ih hb.2]
      simp
  have h := hseen ['\'']
  rw [List.cons_append, List.append_assoc, scan, scanFrom]
  exact h

/-- Digits after a dollar sign are one position. -/
theorem scan_position (n : Nat) {rest : List Char} (hr : NoDigit rest) :
    scan (("$" ++ toString n).toList ++ rest) = .position n :: scan rest := by
  have htext : ("$" ++ toString n).toList = '$' :: Nat.toDigits 10 n := by simp
  have hdigits : ∀ ds seen : List Char, (∀ c ∈ ds, c.isDigit = true) →
      scanFrom (.dollar seen) (ds ++ rest) = ofDollar (ds.reverse ++ seen) :: scan rest := by
    intro ds
    induction ds with
    | nil => exact fun seen _ => scanFrom_dollar seen hr
    | cons c ds ih =>
      intro seen hds
      obtain ⟨hc, hds⟩ := List.forall_mem_cons.mp hds
      rw [List.cons_append, scanFrom, completed, after, if_pos hc, if_pos hc, List.nil_append,
        ih (c :: seen) hds]
      simp
  have hall : ∀ c ∈ Nat.toDigits 10 n, c.isDigit = true := fun c hc =>
    Nat.isDigit_of_mem_toDigits (by omega) (by omega) hc
  have hne : (Nat.toDigits 10 n).reverse ≠ [] := by
    simp
  rw [htext, List.cons_append, scan, scanFrom]
  show scanFrom (.dollar []) _ = _
  rw [hdigits _ [] hall, List.append_nil, ofDollar, if_neg hne, List.reverse_reverse,
    Nat.ofDigitChars_ten_toDigits]

/-- A text without literals and positions that does not continue a position. -/
def isPlain (s : String) : Bool :=
  (s.toList.all fun c => c != '\'' && c != '$') && (s.toList.head?.all fun c => !c.isDigit)

/-- The tokens of such a text. -/
def plain (s : String) : List Token := s.toList.map .other

theorem scan_plain {s : String} (h : isPlain s = true) (rest : List Char) :
    scan (s.toList ++ rest) = plain s ++ scan rest := by
  rw [isPlain, Bool.and_eq_true] at h
  have hall := h.1
  rw [plain]
  revert hall
  induction s.toList with
  | nil => exact fun _ => rfl
  | cons c cs ih =>
    intro hall
    rw [List.all_cons, Bool.and_eq_true, Bool.and_eq_true, bne_iff_ne, bne_iff_ne] at hall
    have hcompleted : completed .outside c = [.other c] := by
      simp [completed, hall.1.1, hall.1.2]
    have hafter : after .outside c = .outside := by simp [after, hall.1.1, hall.1.2]
    show completed .outside c ++ scanFrom (after .outside c) (cs ++ rest) = _
    rw [hcompleted, hafter]
    exact congrArg (Token.other c :: ·) (ih hall.2)

theorem noDigit_plain {s : String} (h : isPlain s = true) {rest : List Char} (hr : NoDigit rest) :
    NoDigit (s.toList ++ rest) := by
  rw [isPlain, Bool.and_eq_true] at h
  have hhead := h.2
  cases hs : s.toList with
  | nil => exact hr
  | cons c cs => simpa [hs, NoDigit] using hhead

end Token

/-- A text with positions, each after some text. -/
def template : List (String × Nat) → String → String
  | [], last => last
  | (s, n) :: rest, last => s ++ ("$" ++ toString n) ++ template rest last

namespace Token

theorem noDigit_template {ps : List (String × Nat)} {last : String}
    (hps : ∀ p ∈ ps, isPlain p.1 = true) (hlast : isPlain last = true) {rest : List Char}
    (hr : NoDigit rest) : NoDigit ((template ps last).toList ++ rest) := by
  cases ps with
  | nil => exact noDigit_plain hlast hr
  | cons p ps =>
    rw [template, String.toList_append, String.toList_append, List.append_assoc, List.append_assoc]
    refine noDigit_plain (hps p (List.mem_cons_self ..)) fun c hc => ?_
    obtain rfl : '$' = c := by simpa using hc
    decide

/-- A template falls into its texts and its positions. -/
theorem scan_template {ps : List (String × Nat)} {last : String}
    (hps : ∀ p ∈ ps, isPlain p.1 = true) (hlast : isPlain last = true) {rest : List Char}
    (hr : NoDigit rest) : scan ((template ps last).toList ++ rest) =
      (ps.flatMap fun p => plain p.1 ++ [.position p.2]) ++ (plain last ++ scan rest) := by
  induction ps with
  | nil => exact scan_plain hlast rest
  | cons p ps ih =>
    obtain ⟨hp, hps⟩ := List.forall_mem_cons.mp hps
    rw [template, String.toList_append, String.toList_append, List.append_assoc, List.append_assoc,
      scan_plain hp, scan_position p.2 (noDigit_template hps hlast hr), ih hps, List.flatMap_cons]
    simp only [List.append_assoc, List.cons_append, List.nil_append]

theorem flatMap_plain (values : List Value) (s : String) :
    (plain s).flatMap (Token.fill values) = Part.text s := by
  rw [plain, Part.text, List.flatMap_map]
  exact List.flatMap_pure_eq_map _ _

theorem filterMap_plain (s : String) : (plain s).filterMap position? = [] := by
  rw [plain, List.filterMap_map, List.filterMap_eq_nil_iff]
  exact fun _ _ => rfl

end Token

/-! ### Placeholders as positions -/

open Token

/-- The tokens of a piece, a placeholder with its position. -/
def pieceTokens (number : String → Nat) : Piece → List Token
  | .literal cs => [.literal cs]
  | .cast => [.other ':', .other ':']
  | .named name => [.position (number (String.ofList name))]
  | .other c => [.other c]

/-- The text of a position. -/
def mark (number : String → Nat) (name : String) : List Char :=
  ("$" ++ toString (number name)).toList

theorem noDigit_pieces {n : Nat} {number : String → Nat} {ps : List Piece} {rest : List Char}
    (hall : ∀ p ∈ ps, p.Allowed n) (hfirst : Piece.NoNameFirst ps) (hr : NoDigit rest) :
    NoDigit (ps.flatMap (Piece.chars (mark number)) ++ rest) := by
  cases ps with
  | nil => exact hr
  | cons p ps =>
    intro c hc
    cases p with
    | literal cs =>
      obtain ⟨body, -, rfl⟩ := hall _ (List.mem_cons_self ..)
      obtain rfl : '\'' = c := by simpa [Piece.chars] using hc
      decide
    | cast =>
      obtain rfl : ':' = c := by simpa [Piece.chars] using hc
      decide
    | named name =>
      obtain rfl : '$' = c := by simpa [Piece.chars, mark] using hc
      decide
    | other d =>
      obtain rfl : d = c := by simpa [Piece.chars] using hc
      have hd := hfirst d rfl
      simp only [Piece.isNamePart, Char.isAlphanum, Bool.or_eq_false_iff] at hd
      exact hd.1.2

/-- With positions for its placeholders a text falls into the tokens of its pieces. -/
theorem scan_pieces {n : Nat} (number : String → Nat) {ps : List Piece} {rest : List Char}
    (hall : ∀ p ∈ ps, p.Allowed n) (hsep : Piece.Separated ps) (hr : NoDigit rest) :
    scan (ps.flatMap (Piece.chars (mark number)) ++ rest) =
      ps.flatMap (pieceTokens number) ++ scan rest := by
  induction ps with
  | nil => rfl
  | cons p ps ih =>
    obtain ⟨hp, hps⟩ := List.forall_mem_cons.mp hall
    have hrest := ih hps hsep.2
    rw [List.flatMap_cons, List.flatMap_cons, List.append_assoc, List.append_assoc, ← hrest]
    cases p with
    | literal cs =>
      obtain ⟨body, hbody, rfl⟩ := hp
      exact scan_literal hbody _
    | cast => rfl
    | named name =>
      exact scan_position _ (noDigit_pieces hps (hsep.1 name rfl) hr)
    | other c =>
      have hq : ¬(c = '\'' ∨ c = '$') := by
        rintro (h | h)
        · exact hp.2 h
        · exact hp.1 h
      have hcompleted : Token.completed .outside c = [.other c] := if_neg hq
      have hafter : after .outside c = .outside := by
        simp only [not_or] at hq
        simp [after, hq.1, hq.2]
      show Token.completed .outside c ++ scanFrom (after .outside c) _ = _
      rw [hcompleted, hafter]
      rfl

end CorpusAgent.Storage
