import CorpusAgent.Proofs.Filter.Emission
import CorpusAgent.Proofs.Sql.Operands
import CorpusAgent.Proofs.Storage.Bindable

/-!
# Filters among the other conditions of a statement

The fragments of a filter are self-contained, before and after their placeholders have become
positions.  So no filter can escape the conditions that a statement puts beside it.

* `Filter.Emitted`: the fragments that a filter is made of; `Filter.Emitted.selfContained`.
* `forall₂_lex_marked`: positions in place of placeholders leave all other lexemes as they are.
* `Embedded`: the text of a predicate stands sheltered in a statement.
* `fragments_sheltered`: what is self-contained, and what follows from it.
-/

namespace CorpusAgent

open Sql

/-! ### Fragments -/

namespace Filter

/-- The fragments of filters over some fields, whatever was bound before. -/
inductive Emitted (fields : List Field) : String → Prop
  /-- A filter, which may be part of another one. -/
  | filter (f : Filter) (bound : Array String) : Emitted fields ((emit fields f).run bound).1
  /-- The text at a key. -/
  | operand (origin : Origin) (key : Nat) : Emitted fields (trimmedMember origin key).render
  | step (s : Step) (bound : Array String) : Emitted fields ((stepValues s).run bound).1.render
  | chain (steps : List Step) (bound : Array String) :
    Emitted fields ((chainValues steps).run bound).1.render
  /-- An operator on the values of a chain. -/
  | operator (steps : List Step) (c : Condition) (bound : Array String) :
    Emitted fields ((do valuesCondition (← chainValues steps) c).run bound).1.render
  /-- The clause of a source. -/
  | source (c : Condition) (rules : List SourceRule) (bound : Array String) {clause : Nat × Cond}
    (h : clause ∈ ((ruleConditions c rules).run bound).1) : Emitted fields clause.2.render

section

variable {fields : List Field}

theorem Emitted.selfContained {text : String} (h : Emitted fields text) :
    SelfContained (lex text.toList) := by
  cases h with
  | filter f bound =>
    have hfit := (condition_fitting fields f bound).2 _ (List.prefix_refl _)
    rw [emit_eq]
    exact Cond.selfContained (Nat.le_zero.mp hfit.level_le)
  | operand origin key => exact Term.selfContained _
  | step | chain => exact Values.selfContained _
  | operator steps c bound =>
    have hyields := (chainValues_fitting steps).bind fun v => valuesCondition_fitting v c
    have hfit := (hyields bound).2 _ (List.prefix_refl _)
    exact Cond.selfContained (Nat.le_zero.mp hfit.level_le)
  | source c rules bound hclause =>
    have hfit := ((ruleConditions_fitting c rules bound).2 _ (List.prefix_refl _) _ hclause).2
    exact Cond.selfContained (Nat.le_zero.mp hfit.level_le)

theorem emitted_compile (f : Filter) : Emitted fields (f.compile fields).sql := by
  rw [compile_eq_emit]
  exact .filter f #[]

end

end Filter

namespace Storage

open Sql.Piece (isNamePart isNameStart)

/-! ### Positions in place of placeholders -/

/-- A walk makes no difference between the lexemes. -/
def InPlace (l l' : Lexeme) : Prop := ∀ opened, l.walk opened = l'.walk opened

theorem forall₂_inPlace_refl (ls : List Lexeme) : List.Forall₂ InPlace ls ls :=
  List.forall₂_same.mpr fun _ _ _ => rfl

theorem forall₂_inPlace_append (front : List Lexeme) {ls ls' : List Lexeme}
    (h : List.Forall₂ InPlace ls ls') : List.Forall₂ InPlace (front ++ ls) (front ++ ls') :=
  List.rel_append (forall₂_inPlace_refl front) h

theorem walk_eq_of_inPlace {ls ls' : List Lexeme} (h : List.Forall₂ InPlace ls ls')
    (opened : List Bracket) : walk opened ls = walk opened ls' := by
  induction h generalizing opened with
  | nil => rfl
  | @cons l l' ls ls' hl _ ih =>
    rw [walk_cons, walk_cons, hl opened]
    exact congrArg _ (funext ih)

theorem selfContained_of_inPlace {ls ls' : List Lexeme} (h : List.Forall₂ InPlace ls ls')
    (hls : SelfContained ls) : SelfContained ls' := by
  rw [selfContained_iff_walk] at hls ⊢
  rw [← walk_eq_of_inPlace h, hls]

section

variable {number : String → Nat} {n : Nat}

theorem toUpper_of_isDigit {c : Char} (h : c.isDigit = true) : c.toUpper = c := by
  unfold Char.toUpper
  refine dif_neg fun hletter => ?_
  simp only [Char.isDigit, Bool.and_eq_true, decide_eq_true_iff] at h
  have hle : c.val ≤ '9'.val := h.2
  have hge : 'a'.val ≤ c.val := hletter.1
  exact absurd (UInt32.le_trans hge hle) (by decide)

theorem exists_toDigits (n : Nat) : ∃ d ds, Nat.toDigits 10 n = d :: ds ∧ d.isDigit = true ∧
    ∀ c ∈ d :: ds, isNamePart c = true := by
  have hdigit : ∀ c ∈ Nat.toDigits 10 n, c.isDigit = true := fun c hc =>
    Nat.isDigit_of_mem_toDigits (by omega) (by omega) hc
  obtain ⟨d, ds, hds⟩ := List.exists_cons_of_ne_nil (@Nat.toDigits_ne_nil n 10)
  rw [hds] at hdigit
  refine ⟨d, ds, hds, hdigit d List.mem_cons_self, fun c hc => ?_⟩
  simp [isNamePart, Char.isAlphanum, hdigit c hc]

theorem connective?_toDigits (n : Nat) : (Lexeme.word (Nat.toDigits 10 n)).connective? = none := by
  obtain ⟨d, ds, hds, hd, -⟩ := exists_toDigits n
  rw [hds]
  refine connective?_word ?_
  rw [toUpper_of_isDigit hd]
  refine ⟨?_, ?_, ?_⟩ <;> rintro rfl <;> exact absurd hd (by decide)

theorem lexFrom_mark {m : Lexeme.Mode} (hm : m.isClosed = true) (name : String) {rest : List Char}
    (hr : Parted rest) : Lexeme.lexFrom m (mark number name ++ rest) =
      Lexeme.pending m ++
        (.other '$' :: .word (Nat.toDigits 10 (number name)) :: lex rest) := by
  obtain ⟨d, ds, hds, -, hparts⟩ := exists_toDigits (number name)
  have htext : mark number name ++ rest = '$' :: (d :: ds ++ rest) := by simp [mark, hds]
  have hparted : Parted ('$' :: (d :: ds ++ rest)) := parted_cons (by decide)
  have hdollar : lex ('$' :: (d :: ds ++ rest)) = .other '$' :: lex (d :: ds ++ rest) := rfl
  rw [htext, lexFrom_of_parted hm hparted, hdollar, lex_word hparts hr, hds]

theorem lexFrom_byName {m : Lexeme.Mode} (hm : m.isClosed = true) (i : Nat) {rest : List Char}
    (hr : Parted rest) : Lexeme.lexFrom m (':' :: ((paramName i).toList ++ rest)) =
      Lexeme.pending m ++ (.other ':' :: .word (paramName i).toList :: lex rest) := by
  have hparted : Parted (':' :: ((paramName i).toList ++ rest)) := parted_cons (by decide)
  have hcolon : lex (':' :: ((paramName i).toList ++ rest)) =
      .other ':' :: lex ((paramName i).toList ++ rest) := rfl
  rw [lexFrom_of_parted hm hparted, hcolon, lex_paramName i hr]

theorem parted_marked {cs : List Char} {ps : List Piece} (h : Splits cs ps) (hcs : Parted cs) :
    Parted (ps.flatMap (Piece.chars (mark number))) := by
  cases h with
  | nil => exact hcs
  | literal | unclosed | cast => exact parted_cons (by decide)
  | @named first name rest ps =>
    have htext : mark number (String.ofList (first :: name)) =
        '$' :: Nat.toDigits 10 (number (String.ofList (first :: name))) := by simp [mark]
    rw [List.flatMap_cons, Piece.chars, htext]
    exact parted_cons (by decide)
  | other =>
    intro d hd
    exact hcs d hd

/-- **Positions.**  With positions in place of placeholders, a text has the same lexemes in the
same places, but for the placeholders. -/
theorem forall₂_lex_marked {cs : List Char} {ps : List Piece} (h : Splits cs ps)
    (hall : ∀ p ∈ ps, p.Allowed n) {m : Lexeme.Mode} (hm : m.isClosed = true) :
    List.Forall₂ InPlace (Lexeme.lexFrom m cs)
      (Lexeme.lexFrom m (ps.flatMap (Piece.chars (mark number)))) := by
  induction h generalizing m with
  | nil => exact forall₂_inPlace_refl _
  | @literal body rest ps hbody _ ih =>
    have hrest := ih (fun p hp => hall p (List.mem_cons_of_mem _ hp)) (m := .outside) rfl
    have hmarked : (Piece.literal ('\'' :: (body ++ ['\''])) :: ps).flatMap
        (Piece.chars (mark number)) =
          '\'' :: (body ++ '\'' :: ps.flatMap (Piece.chars (mark number))) := by
      simp [Piece.chars]
    rw [hmarked, lexFrom_quoted hm hbody, lexFrom_quoted hm hbody]
    exact forall₂_inPlace_append _ (.cons (fun _ => rfl) hrest)
  | unclosed _ =>
    simpa [Piece.chars] using forall₂_inPlace_refl _
  | @cast rest ps _ ih =>
    have hrest := ih (fun p hp => hall p (List.mem_cons_of_mem _ hp)) (m := .outside) rfl
    have hmarked : (Piece.cast :: ps).flatMap (Piece.chars (mark number)) =
        ':' :: ':' :: ps.flatMap (Piece.chars (mark number)) := rfl
    rw [hmarked, lexFrom_cast hm, lexFrom_cast hm]
    exact forall₂_inPlace_append _ (.cons (fun _ => rfl) (.cons (fun _ => rfl) hrest))
  | @named first name rest ps hfirst hname hparted h ih =>
    obtain ⟨i, -, hi⟩ := hall _ List.mem_cons_self
    have hrest := ih (fun p hp => hall p (List.mem_cons_of_mem _ hp)) (m := .outside) rfl
    have hsource : ':' :: first :: (name ++ rest) = ':' :: ((paramName i).toList ++ rest) := by
      rw [← hi]
      rfl
    rw [hsource, lexFrom_byName hm i hparted, List.flatMap_cons, Piece.chars,
      lexFrom_mark hm _ (parted_marked h hparted)]
    -- a colon and a dollar sign, then two words that are no connectives
    refine forall₂_inPlace_append _ (.cons (fun _ => rfl) (.cons (fun opened => ?_) hrest))
    rw [walk_word (connective?_paramName i), walk_word (connective?_toDigits _)]
  | @other c rest ps hquote _ _ ih =>
    have hafter := isClosed_after hm hquote
    have hrest := ih (fun p hp => hall p (List.mem_cons_of_mem _ hp)) hafter
    exact forall₂_inPlace_append (Lexeme.completed m c) hrest

end

/-! ### Statements -/

theorem exists_bound_selfContained (f : Filter) (fields : List Field) (offset : Nat) :
    ∃ bound, bindNamed (f.compile fields).sql (f.compile fields).params offset = .ok bound ∧
      SelfContained (lex bound.sql.toList) := by
  obtain ⟨hall, hnames⟩ := compile_pieces f fields
  have hsplits := splits_scan (f.compile fields).sql.toList
  have hbind := bindNamed_of_values hsplits hnames offset
  rw [chars_placed] at hbind
  refine ⟨_, hbind, ?_⟩
  rw [String.toList_ofList]
  exact selfContained_of_inPlace (forall₂_lex_marked hsplits hall rfl)
    (Filter.emitted_compile f).selfContained

/-- With a predicate a statement is the same as without, but for one clause, in which the text of
the predicate is sheltered. -/
def Embedded (p : Predicate) (statement : Option Predicate → Except Unbound Statement) : Prop :=
  ∃ front back values bound,
    statement none = .ok ⟨front ++ back, values⟩ ∧
    bindNamed p.sql p.params values.length = .ok bound ∧
    statement (some p) = .ok ⟨front ++ "\n\tAND (" ++ bound.sql ++ ")" ++ back,
      values ++ bound.values.map .text⟩ ∧
    SelfContained (lex bound.sql.toList) ∧
    Sheltered (front ++ "\n\tAND (").toList bound.sql.toList (")" ++ back).toList

theorem quote_notMem_template {ps : List (String × Nat)} {last : String}
    (hps : ∀ p ∈ ps, Token.isPlain p.1 = true) (hlast : Token.isPlain last = true) :
    '\'' ∉ (template ps last).toList := by
  have hplain : ∀ s : String, Token.isPlain s = true → '\'' ∉ s.toList := by
    intro s hs hquote
    rw [Token.isPlain, Bool.and_eq_true, List.all_eq_true] at hs
    exact absurd (hs.1 '\'' hquote) (by decide)
  induction ps with
  | nil => exact hplain last hlast
  | cons p ps ih =>
    obtain ⟨hp, hps⟩ := List.forall_mem_cons.mp hps
    have hposition : '\'' ∉ mark (fun _ => p.2) "" := fun hquote => (mem_mark hquote).1 rfl
    rw [template, String.toList_append, String.toList_append, List.mem_append, List.mem_append,
      not_or, not_or]
    exact ⟨⟨hplain p.1 hp, hposition⟩, ih hps⟩

/-- A statement that puts its clause between two texts embeds the predicates of filters. -/
theorem embedded_of_clause (f : Filter) (fields : List Field)
    {statement : Option Predicate → Except Unbound Statement} (front back : String)
    (values : List Value) (hfront : '\'' ∉ front.toList)
    (hstatement : ∀ filter text more, clause filter values.length = .ok (text, more) →
      statement filter = .ok ⟨front ++ text ++ back, values ++ more⟩) :
    Embedded (f.compile fields) statement := by
  obtain ⟨bound, hbind, hself⟩ := exists_bound_selfContained f fields values.length
  have hclause : clause (some (f.compile fields)) values.length =
      .ok ("\n\tAND (" ++ bound.sql ++ ")", bound.values.map .text) := by
    rw [clause, if_neg (by simp [f.isEmpty_compile]), hbind]
  have hwithout := hstatement none "" [] rfl
  have hwith := hstatement _ _ _ hclause
  rw [String.append_empty, List.append_nil] at hwithout
  refine ⟨front, back, values, bound, hwithout, hbind, ?_, hself, ?_⟩
  · rw [hwith]
    simp only [String.append_assoc]
  · have hjoiner : "\n\tAND (" ∈ joiners := by decide
    have hends : EndsBefore front.toList "\n\tAND (" :=
      ⟨closed_of_notMem hfront, .inl (parted_cons (by decide))⟩
    have hback : EndsOperand (")" ++ back).toList :=
      .inr ⟨")", by decide, back.toList, String.toList_append.symm⟩
    rw [String.toList_append]
    exact sheltered (gap_joiner hjoiner hends hback) hself

theorem countStatement_embeds (f : Filter) (fields : List Field) (graph : String) :
    Embedded (f.compile fields) (countStatement graph) := by
  refine embedded_of_clause f fields (template countTexts "") "" [.text graph, .text completed]
    (by decide +kernel) fun filter text more h => ?_
  rw [countStatement_eq h, String.append_empty]

theorem chunksStatement_embeds (f : Filter) (fields : List Field) (graph : String)
    (vector : List Single) (limit : Int) (only : Option (List Uuid)) :
    Embedded (f.compile fields) fun filter =>
      chunksStatement ⟨graph, vector, limit, only, filter⟩ := by
  refine embedded_of_clause f fields
    (template chunksTexts "\n\tAND c.vec IS NOT NULL" ++
      template (onlyTexts only) (onlyLast only)) (template chunksEnd "")
    (chunksFront ⟨graph, vector, limit, only, none⟩) ?_ fun filter text more h => ?_
  · have honly := isPlain_onlyTexts only
    rw [String.toList_append, List.mem_append, not_or]
    exact ⟨quote_notMem_template isPlain_chunksTexts (by simp [Token.isPlain]),
      quote_notMem_template honly.1 honly.2⟩
  · exact chunksStatement_eq h

/-- **Filters stay among the other conditions.**  Every fragment of a filter closes its quotes and
brackets and has no connective outside of brackets.  As an operand of any connective it keeps the
operands of its own operators, and belongs to the operands of the others wholly or not at all; and
so it does in the statements that restrict by it. -/
theorem fragments_sheltered (f : Filter) (fields : List Field) :
    Filter.Emitted fields (f.compile fields).sql ∧
    (∀ text, Filter.Emitted fields text → SelfContained (lex text.toList) ∧
      ∀ front joiner back, joiner ∈ joiners → EndsBefore front joiner → EndsOperand back →
        Sheltered (front ++ joiner.toList) text.toList back) ∧
    (∀ graph, Embedded (f.compile fields) (countStatement graph)) ∧
    ∀ graph vector limit only, Embedded (f.compile fields) fun filter =>
      chunksStatement ⟨graph, vector, limit, only, filter⟩ :=
  ⟨Filter.emitted_compile f,
    fun _ htext => ⟨htext.selfContained, fun _ _ _ hjoiner hfront hback =>
      sheltered (gap_joiner hjoiner hfront hback) htext.selfContained⟩,
    countStatement_embeds f fields, chunksStatement_embeds f fields⟩

end Storage

end CorpusAgent
