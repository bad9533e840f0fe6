import CorpusAgent.Proofs.Sql.Fragment

/-!
# Lexemes of a query

What the text of a query consists of: literals in single quotes, words, brackets and other
characters.  A word takes all ASCII letters, digits and underscores that stand side by side, so a
keyword is a keyword only if it is a whole word.  White space only parts words.

* `lex`: the lexemes of a text; a literal that is not closed is a lexeme of its own kind.
* `lex_append`: a text whose literals are closed is read apart from what follows, provided that no
  word reaches from one to the other.
* `closed_lex_iff`: the literals are closed if none is begun at the end.
-/

namespace CorpusAgent.Sql

open Piece (isNamePart)

/-- A kind of brackets. -/
inductive Bracket where
  | round
  | square
  deriving DecidableEq, Repr

/-- A lexeme of a query. -/
inductive Lexeme where
  /-- A literal with its quotes. -/
  | literal (chars : List Char)
  /-- A literal that runs to the end. -/
  | unclosed (chars : List Char)
  | word (letters : List Char)
  | opening (bracket : Bracket)
  | closing (bracket : Bracket)
  | other (c : Char)
  deriving DecidableEq, Repr

namespace Lexeme

/-- What has been begun; characters read are kept in reverse. -/
inductive Mode where
  | outside
  | literal (seen : List Char)
  | word (seen : List Char)

/-- The lexeme of a character that belongs neither to a literal nor to a word; a space has none. -/
def ofChar : Char → List Lexeme
  | '(' => [.opening .round]
  | ')' => [.closing .round]
  | '[' => [.opening .square]
  | ']' => [.closing .square]
  | c => if c.isWhitespace then [] else [.other c]

/-- The lexemes that a character completes. -/
def completed : Mode → Char → List Lexeme
  | .outside, c => if c = '\'' ∨ isNamePart c = true then [] else ofChar c
  | .literal seen, c => if c = '\'' then [.literal (c :: seen).reverse] else []
  | .word seen, c =>
    if isNamePart c then [] else if c = '\'' then [.word seen.reverse]
    else .word seen.reverse :: ofChar c

/-- The mode after a character. -/
def after : Mode → Char → Mode
  | .outside, c =>
    if c = '\'' then .literal [c] else if isNamePart c then .word [c] else .outside
  | .literal seen, c => if c = '\'' then .outside else .literal (c :: seen)
  | .word seen, c =>
    if isNamePart c then .word (c :: seen) else if c = '\'' then .literal [c] else .outside

/-- The lexemes that the end of the text completes. -/
def pending : Mode → List Lexeme
  | .outside => []
  | .literal seen => [.unclosed seen.reverse]
  | .word seen => [.word seen.reverse]

/-- The lexemes of a text from a mode on. -/
def lexFrom : Mode → List Char → List Lexeme
  | m, [] => pending m
  | m, c :: rest => completed m c ++ lexFrom (after m c) rest

/-- No literal has been begun. -/
def Mode.isClosed : Mode → Bool
  | .literal _ => false
  | _ => true

/-- Nothing has been begun. -/
def Mode.isOutside : Mode → Bool
  | .outside => true
  | _ => false

/-- A literal that is not closed. -/
def isUnclosed : Lexeme → Bool
  | .unclosed _ => true
  | _ => false

end Lexeme

open Lexeme

/-- The lexemes of a text. -/
def lex (cs : List Char) : List Lexeme := lexFrom .outside cs

/-- The mode at the end of a text. -/
def modeAfter (cs : List Char) : Mode := cs.foldl after .outside

/-! ### Texts side by side -/

theorem parted_cons {c : Char} {rest : List Char} (hc : isNamePart c = false) :
    Parted (c :: rest) := by
  intro d hd
  obtain rfl : c = d := Option.some.inj hd
  exact hc

section

variable {m : Mode} {cs rest : List Char}

/-- Where no literal has been begun, what follows is read apart if it does not continue a word. -/
theorem lexFrom_of_parted (hm : m.isClosed = true) (hr : Parted rest) :
    lexFrom m rest = pending m ++ lex rest := by
  cases m with
  | outside => rfl
  | literal seen => cases hm
  | word seen =>
    cases rest with
    | nil => rfl
    | cons c rest =>
      have hc : isNamePart c = false := hr c rfl
      by_cases hquote : c = '\''
      · subst hquote
        rfl
      · simp [lex, lexFrom, completed, after, pending, hc, hquote]

theorem lexFrom_append (h : (cs.foldl after m).isClosed = true) (hr : Parted rest) :
    lexFrom m (cs ++ rest) = lexFrom m cs ++ lex rest := by
  induction cs generalizing m with
  | nil => exact lexFrom_of_parted h hr
  | cons c cs ih => rw [List.cons_append, lexFrom, lexFrom, ih h, List.append_assoc]

/-- A text whose literals are closed is read apart from what follows if no word reaches from one to
the other. -/
theorem lex_append (h : (modeAfter cs).isClosed = true) (hr : Parted rest) :
    lex (cs ++ rest) = lex cs ++ lex rest :=
  lexFrom_append h hr

/-- Where nothing has been begun, anything that follows is read apart. -/
theorem lexFrom_append_outside (h : cs.foldl after m = .outside) :
    lexFrom m (cs ++ rest) = lexFrom m cs ++ lex rest := by
  induction cs generalizing m with
  | nil =>
    obtain rfl : m = .outside := h
    rfl
  | cons c cs ih => rw [List.cons_append, lexFrom, lexFrom, ih h, List.append_assoc]

theorem lex_append_outside (h : modeAfter cs = .outside) : lex (cs ++ rest) = lex cs ++ lex rest :=
  lexFrom_append_outside h

end

/-! ### Closed literals -/

@[simp] theorem isUnclosed_literal (cs : List Char) : (literal cs).isUnclosed = false := rfl

@[simp] theorem isUnclosed_word (cs : List Char) : (Lexeme.word cs).isUnclosed = false := rfl

theorem isUnclosed_ofChar (c : Char) : ∀ l ∈ ofChar c, l.isUnclosed = false := by
  unfold ofChar
  split
  iterate 4 simp [isUnclosed]
  · split <;> simp [isUnclosed]

/-- Only the end of the text leaves a literal unclosed. -/
theorem isUnclosed_completed (m : Mode) (c : Char) : ∀ l ∈ completed m c, l.isUnclosed = false := by
  cases m with
  | outside =>
    simp only [completed]
    split_ifs
    · simp
    · exact isUnclosed_ofChar c
  | literal seen =>
    simp only [completed]
    split_ifs <;> simp
  | word seen =>
    simp only [completed]
    split_ifs
    · simp
    · simp
    · exact List.forall_mem_cons.mpr ⟨rfl, isUnclosed_ofChar c⟩

/-- The literals of a text are closed exactly if none is begun at its end. -/
theorem closed_lexFrom_iff {m : Mode} {cs : List Char} :
    (∀ l ∈ lexFrom m cs, l.isUnclosed = false) ↔ (cs.foldl after m).isClosed = true := by
  induction cs generalizing m with
  | nil => cases m <;> simp [lexFrom, pending, Mode.isClosed, isUnclosed]
  | cons c cs ih =>
    rw [lexFrom, List.forall_mem_append, and_iff_right (isUnclosed_completed m c), ih]
    rfl

theorem closed_lex_iff {cs : List Char} :
    (∀ l ∈ lex cs, l.isUnclosed = false) ↔ (modeAfter cs).isClosed = true :=
  closed_lexFrom_iff

/-! ### Words -/

theorem lexFrom_word {letters : List Char} (hletters : ∀ c ∈ letters, isNamePart c = true)
    (seen : List Char) {rest : List Char} (hr : Parted rest) :
    lexFrom (.word seen) (letters ++ rest) = .word (seen.reverse ++ letters) :: lex rest := by
  induction letters generalizing seen with
  | nil =>
    rw [List.append_nil]
    exact lexFrom_of_parted rfl hr
  | cons c letters ih =>
    obtain ⟨hc, hletters⟩ := List.forall_mem_cons.mp hletters
    rw [List.cons_append, lexFrom, completed, after, if_pos hc, if_pos hc, ih hletters]
    simp

theorem lex_word {c : Char} {letters : List Char}
    (hletters : ∀ d ∈ c :: letters, isNamePart d = true) {rest : List Char} (hr : Parted rest) :
    lex (c :: letters ++ rest) = .word (c :: letters) :: lex rest := by
  obtain ⟨hc, hmore⟩ := List.forall_mem_cons.mp hletters
  have hquote : c ≠ '\'' := by
    rintro rfl
    exact absurd hc (by decide)
  rw [lex, List.cons_append, lexFrom, completed, after, if_pos (.inr hc), if_neg hquote, if_pos hc,
    List.nil_append, lexFrom_word hmore [c] hr]
  rfl

/-! ### Literals and casts -/

theorem lexFrom_literal {body : List Char} (hbody : '\'' ∉ body) (seen rest : List Char) :
    lexFrom (.literal seen) (body ++ '\'' :: rest) =
      .literal (seen.reverse ++ (body ++ ['\''])) :: lex rest := by
  induction body generalizing seen with
  | nil => simp [lexFrom, completed, after, lex]
  | cons c body ih =>
    simp only [List.mem_cons, not_or] at hbody
    have hc : ¬c = '\'' := fun h => hbody.1 h.symm
    rw [List.cons_append, lexFrom, completed, after, if_neg hc, if_neg hc, ih hbody.2]
    simp

section

variable {m : Mode}

theorem lexFrom_quoted (hm : m.isClosed = true) {body : List Char} (hbody : '\'' ∉ body)
    (rest : List Char) : lexFrom m ('\'' :: (body ++ '\'' :: rest)) =
      pending m ++ (.literal ('\'' :: (body ++ ['\''])) :: lex rest) := by
  rw [lexFrom_of_parted hm (parted_cons (by decide))]
  exact congrArg _ (lexFrom_literal hbody ['\''] rest)

theorem lexFrom_cast (hm : m.isClosed = true) (rest : List Char) :
    lexFrom m (':' :: ':' :: rest) = pending m ++ (.other ':' :: .other ':' :: lex rest) := by
  rw [lexFrom_of_parted hm (parted_cons (by decide))]
  rfl

theorem isClosed_after (hm : m.isClosed = true) {c : Char} (hc : c ≠ '\'') :
    (after m c).isClosed = true := by
  cases m with
  | literal seen => cases hm
  | outside | word =>
    simp only [after, if_neg hc]
    split <;> rfl

theorem closed_of_notMem {cs : List Char} (h : '\'' ∉ cs) : ∀ l ∈ lex cs, l.isUnclosed = false := by
  refine closed_lex_iff.mpr ?_
  have hclosed : ∀ m : Mode, m.isClosed = true → (cs.foldl after m).isClosed = true := by
    induction cs with
    | nil => exact fun _ hm => hm
    | cons c cs ih =>
      simp only [List.mem_cons, not_or] at h
      exact fun _ hm => ih h.2 _ (isClosed_after hm (Ne.symm h.1))
  exact hclosed .outside rfl

end

end CorpusAgent.Sql
