import CorpusAgent.Proofs.Sql.Fragment
import Mathlib.Data.List.TakeWhile

/-!
# Splits of a text

What the pieces of a text are, said without a scanner.

* `Splits`: a text falls into pieces from left to right.
* `exists_splits`: every text does.
* `scan_eq_iff`: there is no other way than that of `Piece.scan`.
* `Splits.source`: put together again, the pieces are the text.
* `Splits.replaced`: where other characters stand in place of the placeholders, all other pieces
  stay as they are.
-/

namespace CorpusAgent.Sql

open Piece

/-- A text falls into pieces from left to right.  A literal that is not closed runs to the end, a
placeholder takes every character that can belong to its name, and a colon is a piece of its own
only where neither a cast nor a placeholder begins. -/
inductive Splits : List Char → List Piece → Prop
  | nil : Splits [] []
  | literal {body rest : List Char} {ps : List Piece} (hbody : '\'' ∉ body) (h : Splits rest ps) :
    Splits ('\'' :: (body ++ '\'' :: rest)) (.literal ('\'' :: (body ++ ['\''])) :: ps)
  | unclosed {body : List Char} (hbody : '\'' ∉ body) :
    Splits ('\'' :: body) [.literal ('\'' :: body)]
  | cast {rest : List Char} {ps : List Piece} (h : Splits rest ps) :
    Splits (':' :: ':' :: rest) (.cast :: ps)
  | named {first : Char} {name rest : List Char} {ps : List Piece}
    (hfirst : isNameStart first = true) (hname : ∀ c ∈ name, isNamePart c = true)
    (hrest : Parted rest) (h : Splits rest ps) :
    Splits (':' :: first :: (name ++ rest)) (.named (first :: name) :: ps)
  | other {c : Char} {rest : List Char} {ps : List Piece} (hquote : c ≠ '\'')
    (hcolon : c = ':' → ∀ d ∈ rest.head?, d ≠ ':' ∧ isNameStart d = false) (h : Splits rest ps) :
    Splits (c :: rest) (.other c :: ps)

/-! ### One way to split -/

theorem scanFrom_literal {body : List Char} (hbody : '\'' ∉ body) (seen rest : List Char) :
    scanFrom (.literal seen) (body ++ '\'' :: rest) =
      .literal (seen.reverse ++ (body ++ ['\''])) :: scan rest := by
  induction body generalizing seen with
  | nil => simp [scanFrom, scan]
  | cons c body ih =>
    simp only [List.mem_cons, not_or] at hbody
    have hc : ¬c = '\'' := fun h => hbody.1 h.symm
    rw [List.cons_append, scanFrom, if_neg hc, ih hbody.2]
    simp

theorem scanFrom_unclosed {body : List Char} (hbody : '\'' ∉ body) (seen : List Char) :
    scanFrom (.literal seen) body = [.literal (seen.reverse ++ body)] := by
  induction body generalizing seen with
  | nil => simp [scanFrom]
  | cons c body ih =>
    simp only [List.mem_cons, not_or] at hbody
    have hc : ¬c = '\'' := fun h => hbody.1 h.symm
    rw [scanFrom, if_neg hc, ih hbody.2]
    simp

theorem ne_of_isNameStart {c : Char} (h : isNameStart c = true) : c ≠ '\'' ∧ c ≠ ':' := by
  constructor
  · rintro rfl
    exact absurd h (by decide)
  · rintro rfl
    exact absurd h (by decide)

theorem scanFrom_colon {rest : List Char}
    (h : ∀ d ∈ rest.head?, d ≠ ':' ∧ isNameStart d = false) :
    scanFrom .colon rest = .other ':' :: scan rest := by
  cases rest with
  | nil => rfl
  | cons d rest =>
    obtain ⟨hcolon, hstart⟩ := h d rfl
    rw [scanFrom_cons, scan, scanFrom_cons]
    by_cases hquote : d = '\''
    · subst hquote
      rfl
    · simp [completed, after, hcolon, hstart, hquote]

theorem scan_eq_of_splits {cs : List Char} {ps : List Piece} (h : Splits cs ps) :
    scan cs = ps := by
  induction h with
  | nil => rfl
  | @literal body rest ps hbody _ ih =>
    have hscan : scan ('\'' :: (body ++ '\'' :: rest)) =
        scanFrom (.literal ['\'']) (body ++ '\'' :: rest) := rfl
    rw [hscan, scanFrom_literal hbody, ih]
    rfl
  | @unclosed body hbody =>
    have hscan : scan ('\'' :: body) = scanFrom (.literal ['\'']) body := rfl
    rw [hscan, scanFrom_unclosed hbody]
    rfl
  | @cast rest ps _ ih =>
    have hscan : scan (':' :: ':' :: rest) = .cast :: scan rest := rfl
    rw [hscan, ih]
  | @named first name rest ps hfirst hname hrest _ ih =>
    have hscan : scan (':' :: first :: (name ++ rest)) =
        scanFrom (.name [first]) (name ++ rest) := by
      show scanFrom .colon (first :: (name ++ rest)) = _
      rw [scanFrom, if_neg (ne_of_isNameStart hfirst).2, if_pos hfirst]
    rw [hscan, scanFrom_name hname [first] hrest, ih]
    rfl
  | @other c rest ps hquote hcolon _ ih =>
    by_cases hc : c = ':'
    · have hscan : scan (c :: rest) = scanFrom .colon rest := by
        rw [scan, scanFrom, if_neg hquote, if_pos hc]
      rw [hscan, scanFrom_colon (hcolon hc), ih, hc]
    · have hscan : scan (c :: rest) = .other c :: scan rest := by
        rw [scan, scanFrom, if_neg hquote, if_neg hc]
        rfl
      rw [hscan, ih]

theorem exists_name (cs : List Char) :
    ∃ name rest, cs = name ++ rest ∧ (∀ c ∈ name, isNamePart c = true) ∧ Parted rest := by
  refine ⟨cs.takeWhile isNamePart, cs.dropWhile isNamePart,
    List.takeWhile_append_dropWhile.symm, fun c hc => List.mem_takeWhile_imp hc, fun c hc => ?_⟩
  have hnot := List.head?_dropWhile_not isNamePart cs
  rw [Option.mem_def.mp hc] at hnot
  simpa using hnot

/-- Every text falls into pieces. -/
theorem exists_splits (cs : List Char) : ∃ ps, Splits cs ps := by
  induction hn : cs.length using Nat.strongRecOn generalizing cs with
  | ind n ih =>
    have hshorter : ∀ rest : List Char, rest.length < cs.length → ∃ ps, Splits rest ps :=
      fun rest hlt => ih rest.length (hn ▸ hlt) rest rfl
    cases cs with
    | nil => exact ⟨[], .nil⟩
    | cons c rest =>
      by_cases hquote : c = '\''
      · subst hquote
        by_cases hclosed : '\'' ∈ rest
        · obtain ⟨body, more, rfl, hbody⟩ := List.eq_append_cons_of_mem hclosed
          have hlength : more.length < ('\'' :: (body ++ '\'' :: more)).length := by
            simp only [List.length_cons, List.length_append]
            omega
          obtain ⟨ps, hps⟩ := hshorter more hlength
          exact ⟨_, .literal hbody hps⟩
        · exact ⟨_, .unclosed hclosed⟩
      obtain ⟨ps, hps⟩ := hshorter rest (Nat.lt_succ_self _)
      by_cases hbegins : c = ':' → ∀ d ∈ rest.head?, d ≠ ':' ∧ isNameStart d = false
      · exact ⟨_, .other hquote hbegins hps⟩
      -- the colon begins a cast or a placeholder
      · obtain ⟨hcolon, hnot⟩ := Classical.not_imp.mp hbegins
        subst hcolon
        cases rest with
        | nil => exact absurd (fun d hd => by cases hd) hnot
        | cons d more =>
          by_cases hd : d = ':'
          · subst hd
            obtain ⟨qs, hqs⟩ := hshorter more (Nat.lt_succ_of_lt (Nat.lt_succ_self _))
            exact ⟨_, .cast hqs⟩
          · have hstart : isNameStart d = true := by
              by_contra hstart
              refine hnot fun e he => ?_
              obtain rfl : d = e := Option.some.inj he
              exact ⟨hd, Bool.not_eq_true _ ▸ hstart⟩
            obtain ⟨name, later, rfl, hname, hparted⟩ := exists_name more
            have hlength : later.length < (':' :: d :: (name ++ later)).length := by
              simp only [List.length_cons, List.length_append]
              omega
            obtain ⟨qs, hqs⟩ := hshorter later hlength
            exact ⟨_, .named hstart hname hparted hqs⟩

/-- There is one way to split a text, and a scan finds it. -/
theorem scan_eq_iff {cs : List Char} {ps : List Piece} : scan cs = ps ↔ Splits cs ps := by
  refine ⟨fun h => ?_, scan_eq_of_splits⟩
  obtain ⟨qs, hqs⟩ := exists_splits cs
  rwa [← h, scan_eq_of_splits hqs]

theorem splits_scan (cs : List Char) : Splits cs (scan cs) := scan_eq_iff.mp rfl

/-! ### Pieces put together -/

theorem Splits.source {cs : List Char} {ps : List Piece} (h : Splits cs ps) :
    ps.flatMap (Piece.chars byName) = cs := by
  rw [← scan_eq_of_splits h, source_scan]

/-- A placeholder as characters of its own; other pieces as they are. -/
def Piece.replaced (mark : String → List Char) : Piece → List Piece
  | .named name => (mark (String.ofList name)).map .other
  | p => [p]

theorem Splits.others {cs rest : List Char} {ps : List Piece}
    (hcs : ∀ c ∈ cs, c ≠ '\'' ∧ c ≠ ':') (h : Splits rest ps) :
    Splits (cs ++ rest) (cs.map .other ++ ps) := by
  induction cs with
  | nil => exact h
  | cons c cs ih =>
    obtain ⟨hc, hcs⟩ := List.forall_mem_cons.mp hcs
    exact .other hc.1 (fun hcolon => absurd hcolon hc.2) (ih hcs)

theorem Splits.head?_replaced {mark : String → List Char} {cs : List Char} {ps : List Piece}
    (h : Splits cs ps) (hfirst : ∀ c ∈ cs.head?, c ≠ ':') :
    (ps.flatMap (Piece.chars mark)).head? = cs.head? := by
  cases h with
  | nil => rfl
  | literal => rfl
  | unclosed => rfl
  | cast | named => exact absurd rfl (hfirst ':' rfl)
  | other => rfl

/-- Where other characters stand in place of the placeholders, no placeholder is left, and all
other pieces stay as they are. -/
theorem Splits.replaced {mark : String → List Char}
    (hmark : ∀ name, ∀ c ∈ mark name, c ≠ '\'' ∧ c ≠ ':') {cs : List Char} {ps : List Piece}
    (h : Splits cs ps) :
    Splits (ps.flatMap (Piece.chars mark)) (ps.flatMap (Piece.replaced mark)) := by
  induction h with
  | nil => exact .nil
  | @literal body rest ps hbody _ ih =>
    have hsplits := Splits.literal hbody ih
    simpa [Piece.chars, Piece.replaced] using hsplits
  | @unclosed body hbody =>
    have hsplits := Splits.unclosed hbody
    simpa [Piece.chars, Piece.replaced] using hsplits
  | cast _ ih => exact .cast ih
  | named _ _ _ _ ih => exact .others (hmark _) ih
  | @other c rest ps hquote hcolon h ih =>
    refine .other hquote (fun hc d hd => ?_) ih
    -- a lone colon is followed by no colon, so by no placeholder either
    have hfirst : ∀ e ∈ rest.head?, e ≠ ':' := fun e he => (hcolon hc e he).1
    have hhead : (ps.flatMap (Piece.chars mark)).head? = rest.head? := h.head?_replaced hfirst
    exact hcolon hc d (hhead ▸ hd)

end CorpusAgent.Sql
