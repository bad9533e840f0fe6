import CorpusAgent.Proofs.Sql.Lexeme
import CorpusAgent.Proofs.Sql.Reading

/-!
# Texts that are self-contained

A text can stand among operators as one operand if it closes what it opens and has no operator of
its own outside of brackets.

* `SelfContained`: the quotes are closed, the brackets are balanced, and no `AND`, `OR` or `NOT`
  stands outside of all brackets.
* `selfContained_iff_walk`: the same as one walk over the lexemes.
* `Passes`: a text leads from some open brackets to others, whatever follows it.
* `Term.passes`, `Values.passes`, `Cond.passes`: the induction over expressions.
* `Cond.selfContained`: the text of a condition that binds as strongly as a closed one is
  self-contained.
-/

namespace CorpusAgent.Sql

open Piece (isNamePart)

/-! ### Brackets and connectives -/

/-- The operators that join or negate conditions. -/
inductive Connective where
  | and
  | or
  | not
  deriving DecidableEq, Repr

namespace Lexeme

/-- The connective of a lexeme: a whole word, in capitals or not. -/
def connective? : Lexeme → Option Connective
  | .word letters =>
    match letters.map Char.toUpper with
    | ['A', 'N', 'D'] => some .and
    | ['O', 'R'] => some .or
    | ['N', 'O', 'T'] => some .not
    | _ => none
  | _ => none

/-- The open brackets after a lexeme, the innermost first.  Only that one can be closed. -/
def nest : List Bracket → Lexeme → Option (List Bracket)
  | opened, .opening b => some (b :: opened)
  | [], .closing _ => none
  | b :: opened, .closing c => if b = c then some opened else none
  | opened, _ => some opened

/-- The same, where a literal must be closed and a connective must be within brackets. -/
def walk (opened : List Bracket) (l : Lexeme) : Option (List Bracket) :=
  if l.isUnclosed || (opened.isEmpty && l.connective?.isSome) then none else l.nest opened

end Lexeme

open Lexeme (nest)

/-- The open brackets after some lexemes. -/
def nesting (opened : List Bracket) (ls : List Lexeme) : Option (List Bracket) :=
  ls.foldlM nest opened

/-- A text can stand as one operand. -/
structure SelfContained (ls : List Lexeme) : Prop where
  /-- Quotes are closed. -/
  closed : ∀ l ∈ ls, l.isUnclosed = false
  /-- Each bracket is closed by one of its kind, and none is closed that was not opened. -/
  balanced : nesting [] ls = some []
  /-- No connective stands outside of all brackets. -/
  free : ∀ us l vs, ls = us ++ l :: vs → nesting [] us = some [] → l.connective? = none

/-- The open brackets after some lexemes that can stand as part of an operand. -/
def walk (opened : List Bracket) (ls : List Lexeme) : Option (List Bracket) :=
  ls.foldlM Lexeme.walk opened

section

variable {opened after more : List Bracket} {l : Lexeme} {ls : List Lexeme}

theorem nesting_cons : nesting opened (l :: ls) = (l.nest opened).bind fun o => nesting o ls := rfl

theorem walk_cons : walk opened (l :: ls) = (l.walk opened).bind fun o => walk o ls := rfl

theorem walk_append (us vs : List Lexeme) :
    walk opened (us ++ vs) = (walk opened us).bind fun o => walk o vs :=
  List.foldlM_append ..

theorem Lexeme.walk_eq_some_iff : l.walk opened = some after ↔
    l.isUnclosed = false ∧ (opened = [] → l.connective? = none) ∧ l.nest opened = some after := by
  rw [Lexeme.walk]
  cases l.isUnclosed <;> cases opened <;> cases l.connective? <;> simp

/-- A connective is exposed if it comes where no bracket is open. -/
theorem free_cons_iff :
    (∀ us m vs, l :: ls = us ++ m :: vs → nesting opened us = some [] → m.connective? = none) ↔
      (opened = [] → l.connective? = none) ∧
        ∀ o, l.nest opened = some o → ∀ us m vs, ls = us ++ m :: vs → nesting o us = some [] →
          m.connective? = none := by
  constructor
  · intro h
    refine ⟨fun hopened => h [] l ls rfl (congrArg some hopened), fun o ho us m vs hsplit hus => ?_⟩
    refine h (l :: us) m vs (congrArg (l :: ·) hsplit) ?_
    rw [nesting_cons, ho]
    exact hus
  · rintro ⟨hfirst, hrest⟩ us m vs hsplit hus
    cases us with
    | nil =>
      obtain ⟨rfl, -⟩ := List.cons.inj hsplit
      exact hfirst (Option.some.inj hus)
    | cons l' us =>
      obtain ⟨rfl, htail⟩ := List.cons.inj hsplit
      obtain ⟨o, ho, hus⟩ := Option.bind_eq_some_iff.mp hus
      exact hrest o ho us m vs htail hus

theorem walk_eq_some_iff : walk opened ls = some after ↔
    (∀ l ∈ ls, l.isUnclosed = false) ∧ nesting opened ls = some after ∧
      ∀ us l vs, ls = us ++ l :: vs → nesting opened us = some [] → l.connective? = none := by
  induction ls generalizing opened with
  | nil => simp [walk, nesting]
  | cons l ls ih =>
    rw [walk_cons, nesting_cons, free_cons_iff, List.forall_mem_cons, Option.bind_eq_some_iff,
      Option.bind_eq_some_iff]
    simp only [Lexeme.walk_eq_some_iff, ih]
    constructor
    · rintro ⟨o, ⟨hclosed, hfirst, ho⟩, hclosed', hnesting, hfree⟩
      refine ⟨⟨hclosed, hclosed'⟩, ⟨o, ho, hnesting⟩, hfirst, fun o' ho' => ?_⟩
      rwa [← Option.some.inj (ho.symm.trans ho')]
    · rintro ⟨⟨hclosed, hclosed'⟩, ⟨o, ho, hnesting⟩, hfirst, hfree⟩
      exact ⟨o, ⟨hclosed, hfirst, ho⟩, hclosed', hnesting, hfree o ho⟩

/-- A text is self-contained if a walk over it comes back to where it began. -/
theorem selfContained_iff_walk : SelfContained ls ↔ walk [] ls = some [] :=
  ⟨fun h => walk_eq_some_iff.mpr ⟨h.closed, h.balanced, h.free⟩, fun h =>
    have hwalk := walk_eq_some_iff.mp h
    ⟨hwalk.1, hwalk.2.1, hwalk.2.2⟩⟩

instance : DecidablePred SelfContained := fun _ => decidable_of_iff _ selfContained_iff_walk.symm

example : SelfContained (lex "(a OR 'it''s]')".toList) ∧ ¬SelfContained (lex "a OR b".toList) ∧
    ¬SelfContained (lex "(a) OR (b)".toList) := by decide

/-! ### Walks within more brackets -/

theorem Lexeme.walk_append_opened (h : l.walk opened = some after) (more : List Bracket) :
    l.walk (opened ++ more) = some (after ++ more) := by
  rw [Lexeme.walk_eq_some_iff] at h ⊢
  obtain ⟨hclosed, hfree, hnest⟩ := h
  refine ⟨hclosed, fun hnil => hfree (List.append_eq_nil_iff.mp hnil).1, ?_⟩
  cases l with
  | closing c =>
    cases opened with
    | nil => cases hnest
    | cons b opened =>
      simp only [nest, List.cons_append] at hnest ⊢
      split_ifs at hnest ⊢ with hbc
      exact congrArg (fun o => some (o ++ more)) (Option.some.inj hnest)
  | _ =>
    obtain rfl := Option.some.inj hnest
    rfl

/-- Within more brackets a walk goes the same way. -/
theorem walk_append_opened (h : walk opened ls = some after) (more : List Bracket) :
    walk (opened ++ more) ls = some (after ++ more) := by
  induction ls generalizing opened with
  | nil =>
    obtain rfl := Option.some.inj h
    rfl
  | cons l ls ih =>
    rw [walk_cons] at h ⊢
    obtain ⟨o, ho, hls⟩ := Option.bind_eq_some_iff.mp h
    rw [Lexeme.walk_append_opened ho more]
    exact ih hls

end

/-! ### Texts under way -/

/-- A text leads from some open brackets to others, whatever follows it. -/
def Passes (opened after : List Bracket) (cs : List Char) : Prop :=
  ∃ ls, (∀ rest, Parted rest → lex (cs ++ rest) = ls ++ lex rest) ∧ walk opened ls = some after

/-- A text leads from some open brackets to others, and nothing has been begun at its end. -/
def leads (opened after : List Bracket) (cs : List Char) : Bool :=
  (modeAfter cs).isOutside && decide (walk opened (lex cs) = some after)

section

variable {opened middle after last : List Bracket} {cs ds es : List Char}

theorem passes_nil : Passes opened opened [] := ⟨[], fun _ _ => rfl, rfl⟩

/-- A text whose literals are closed can be walked over as it stands. -/
theorem passes_of_closed (hclosed : (modeAfter cs).isClosed = true)
    (hwalk : walk opened (lex cs) = some after) : Passes opened after cs :=
  ⟨lex cs, fun _ hr => lex_append hclosed hr, hwalk⟩

theorem Passes.walk_eq (h : Passes opened after cs) : walk opened (lex cs) = some after := by
  obtain ⟨ls, hlex, hwalk⟩ := h
  have hcs := hlex [] (by simp [Parted])
  rw [List.append_nil, show lex [] = [] from rfl, List.append_nil] at hcs
  rwa [hcs]

theorem Passes.within (h : Passes [] [] cs) (opened : List Bracket) : Passes opened opened cs := by
  obtain ⟨ls, hlex, hwalk⟩ := h
  exact ⟨ls, hlex, walk_append_opened hwalk opened⟩

theorem leads_append (h : leads opened middle cs = true) (hd : Passes middle after ds) :
    Passes opened after (cs ++ ds) := by
  obtain ⟨ls, hlex, hwalk⟩ := hd
  rw [leads, Bool.and_eq_true, decide_eq_true_iff] at h
  have houtside : modeAfter cs = .outside := by
    have hout := h.1
    cases hm : modeAfter cs with
    | outside => rfl
    | _ => rw [hm] at hout; cases hout
  refine ⟨lex cs ++ ls, fun rest hr => ?_, ?_⟩
  · rw [List.append_assoc, lex_append_outside houtside, hlex rest hr, List.append_assoc]
  · rw [walk_append, h.2]
    exact hwalk

/-- Texts of which one does not continue the other. -/
theorem Passes.append (hc : Passes opened middle cs)
    (hh : (ds.head?.any fun c => !isNamePart c) = true) (hd : Passes middle after ds) :
    Passes opened after (cs ++ ds) := by
  obtain ⟨ls, hlex, hwalk⟩ := hc
  obtain ⟨ks, hlex', hwalk'⟩ := hd
  refine ⟨ls ++ ks, fun rest hr => ?_, ?_⟩
  · rw [List.append_assoc, hlex _ (parted_append hh), hlex' rest hr, List.append_assoc]
  · rw [walk_append, hwalk]
    exact hwalk'

/-- A text, another one that does not continue it, and a third. -/
theorem Passes.leads_append (hc : Passes opened middle cs) (h : leads middle after ds = true)
    (hh : (ds.head?.any fun c => !isNamePart c) = true) (he : Passes after last es) :
    Passes opened last (cs ++ (ds ++ es)) := by
  refine hc.append ?_ (Sql.leads_append h he)
  cases ds with
  | nil => cases hh
  | cons d ds => exact hh

theorem Passes.leads_end (hc : Passes opened middle cs) (h : leads middle after ds = true)
    (hh : (ds.head?.any fun c => !isNamePart c) = true) : Passes opened after (cs ++ ds) := by
  have hend := hc.leads_append h hh passes_nil
  rwa [List.append_nil] at hend

end

/-! ### Expressions -/

theorem connective?_word {c : Char} {letters : List Char}
    (hc : c.toUpper ≠ 'A' ∧ c.toUpper ≠ 'O' ∧ c.toUpper ≠ 'N') :
    (Lexeme.word (c :: letters)).connective? = none := by
  simp only [Lexeme.connective?, List.map_cons]
  split
  · next h => exact absurd (List.cons.inj h).1 hc.1
  · next h => exact absurd (List.cons.inj h).1 hc.2.1
  · next h => exact absurd (List.cons.inj h).1 hc.2.2
  · rfl

theorem walk_word {letters : List Char} (h : (Lexeme.word letters).connective? = none)
    (opened : List Bracket) : (Lexeme.word letters).walk opened = some opened :=
  Lexeme.walk_eq_some_iff.mpr ⟨rfl, fun _ => h, rfl⟩

theorem lex_paramName (i : Nat) {rest : List Char} (hr : Parted rest) :
    lex ((paramName i).toList ++ rest) = .word (paramName i).toList :: lex rest := by
  have hname : (paramName i).toList = 'p' :: Nat.toDigits 10 i := by simp [paramName]
  rw [hname]
  exact lex_word (hname ▸ isNamePart_paramName i) hr

theorem connective?_paramName (i : Nat) :
    (Lexeme.word (paramName i).toList).connective? = none := by
  have hname : (paramName i).toList = 'p' :: Nat.toDigits 10 i := by simp [paramName]
  rw [hname]
  exact connective?_word (by decide)

theorem passes_placeholder (i : Nat) : Passes [] [] (placeholder i).toList := by
  refine ⟨[.other ':', .word (paramName i).toList], fun rest hr => ?_, ?_⟩
  · have hcolon : ∀ cs, lex (":".toList ++ cs) = .other ':' :: lex cs := fun _ => rfl
    rw [placeholder, String.toList_append, List.append_assoc, hcolon, lex_paramName i hr]
    rfl
  · rw [walk_cons, show (Lexeme.other ':').walk [] = some [] from rfl, Option.bind_some, walk_cons,
      walk_word (connective?_paramName i), Option.bind_some]
    rfl

/-- More texts, each after a comma. -/
theorem passes_commas {texts : List String} (h : ∀ s ∈ texts, Passes [] [] s.toList) :
    Passes [] [] (", ".intercalate texts).toList := by
  induction texts with
  | nil => exact passes_nil
  | cons first rest ih =>
    obtain ⟨hf, hrest⟩ := List.forall_mem_cons.mp h
    cases rest with
    | nil =>
      rw [String.intercalate_singleton]
      exact hf
    | cons second rest =>
      rw [String.intercalate_cons_cons, String.toList_append, String.toList_append,
        List.append_assoc]
      exact hf.leads_append (by decide) (by decide) (ih hrest)

theorem passes_placeholders (is : List Nat) : Passes [] [] (placeholders is).toList := by
  refine passes_commas fun s hs => ?_
  obtain ⟨i, -, rfl⟩ := List.mem_map.mp hs
  exact passes_placeholder i

theorem passes_column (origin : Origin) : Passes [] [] (columnName origin).toList := by
  cases origin <;> exact passes_of_closed (by decide) (by decide)

theorem Term.passes (t : Term) : Passes [] [] t.render.toList := by
  induction t with
  | bound i => exact passes_placeholder i
  | sourceId => exact passes_of_closed (by decide) (by decide)
  | element => exact passes_of_closed (by decide) (by decide)
  | member origin key =>
    simp only [Term.render, String.toList_append, List.append_assoc]
    exact (passes_column origin).leads_append (by decide) (by decide) (passes_placeholder key)
  | btrim t ih =>
    simp only [Term.render, String.toList_append, List.append_assoc]
    exact leads_append (by decide) ((ih.within [.round]).leads_end (by decide) (by decide))
  | nullIfEmpty t ih =>
    simp only [Term.render, String.toList_append, List.append_assoc]
    exact leads_append (by decide) ((ih.within [.round]).leads_end (by decide) (by decide))

mutual

theorem Values.passes (v : Values) : Passes [] [] v.render.toList := by
  cases v with
  | null => exact passes_of_closed (by decide) (by decide)
  | bounds is =>
    simp only [Values.render_bounds, String.toList_append, List.append_assoc]
    exact leads_append (by decide)
      (((passes_placeholders is).within [.square]).append (by decide)
        (passes_of_closed (by decide) (by decide)))
  | single t =>
    simp only [Values.render_single, String.toList_append, List.append_assoc]
    exact leads_append (by decide) ((t.passes.within [.square]).leads_end (by decide) (by decide))
  | ifNull t missing present =>
    have hend : Passes [.round] [] (present.render.toList ++ " END)".toList) :=
      ((Values.passes present).within [.round]).leads_end (by decide) (by decide)
    simp only [Values.render_ifNull, String.toList_append, List.append_assoc]
    exact leads_append (by decide) ((t.passes.within [.round]).leads_append (by decide) (by decide)
      (((Values.passes missing).within [.round]).leads_append (by decide) (by decide) hend))
  | ifArray origin key array other =>
    have hend : Passes [.round] [] (other.render.toList ++ " END)".toList) :=
      ((Values.passes other).within [.round]).leads_end (by decide) (by decide)
    have hbranches : Passes [.round] [] (array.render.toList ++
        (" ELSE ".toList ++ (other.render.toList ++ " END)".toList))) :=
      ((Values.passes array).within [.round]).leads_append (by decide) (by decide) hend
    have hkey : Passes [.round, .round] [] ((placeholder key).toList ++
        (") WHEN 'array' THEN ".toList ++ (array.render.toList ++
          (" ELSE ".toList ++ (other.render.toList ++ " END)".toList))))) :=
      ((passes_placeholder key).within [.round, .round]).leads_append (by decide) (by decide)
        hbranches
    simp only [Values.render_ifArray, String.toList_append, List.append_assoc]
    exact leads_append (by decide)
      (((passes_column origin).within [.round, .round]).leads_append (by decide) (by decide) hkey)
  | elements item origin key kept =>
    have hend : Passes [.round] [] (kept.render.toList ++ " IS NOT NULL)".toList) :=
      (kept.passes.within [.round]).leads_end (by decide) (by decide)
    have hkey : Passes [.round, .round] [] ((placeholder key).toList ++
        (") AS el WHERE ".toList ++ (kept.render.toList ++ " IS NOT NULL)".toList))) :=
      ((passes_placeholder key).within [.round, .round]).leads_append (by decide) (by decide) hend
    have hlist : Passes [.round, .round] [] ((columnName origin).toList ++ (" -> ".toList ++
        ((placeholder key).toList ++
          (") AS el WHERE ".toList ++ (kept.render.toList ++ " IS NOT NULL)".toList))))) :=
      ((passes_column origin).within [.round, .round]).leads_append (by decide) (by decide) hkey
    simp only [Values.render_elements, String.toList_append, List.append_assoc]
    exact leads_append (by decide)
      ((item.passes.within [.round, .round]).leads_append (by decide) (by decide) hlist)
  | coalesce choices =>
    have hchoices : Passes [] [] (", ".intercalate (choices.map Values.render)).toList :=
      passes_commas fun s hs => by
        obtain ⟨v, hv, rfl⟩ := List.mem_map.mp hs
        exact Values.passes_each choices v hv
    simp only [Values.render_coalesce, String.toList_append, List.append_assoc]
    exact leads_append (by decide) ((hchoices.within [.round]).leads_end (by decide) (by decide))

theorem Values.passes_each (vs : List Values) : ∀ v ∈ vs, Passes [] [] v.render.toList := by
  cases vs with
  | nil => exact fun v hv => absurd hv List.not_mem_nil
  | cons v rest => exact List.forall_mem_cons.mpr ⟨Values.passes v, Values.passes_each rest⟩

end

/-- The brackets that a condition needs around it: none if it is closed. -/
def Cond.around (c : Cond) : List Bracket := if c.level = 0 then [] else [.round]

theorem Cond.passes_of_around {c : Cond} (h : Passes c.around c.around c.render.toList) :
    Passes [.round] [.round] c.render.toList := by
  unfold Cond.around at h
  split_ifs at h
  · exact h.within [.round]
  · exact h

/-- The text of a condition keeps to the brackets around it. -/
theorem Cond.passes (c : Cond) : Passes c.around c.around c.render.toList := by
  induction c with
  | literal b => cases b <;> exact passes_of_closed (by decide) (by decide)
  | equal a b =>
    change Passes [.round] [.round] _
    simp only [Cond.render_equal, String.toList_append, List.append_assoc]
    exact (a.passes.within [.round]).leads_append (by decide) (by decide)
      (b.passes.within [.round])
  | isNull t =>
    change Passes [.round] [.round] _
    simp only [Cond.render_isNull, String.toList_append]
    exact (t.passes.within [.round]).append (by decide) (passes_of_closed (by decide) (by decide))
  | isNotNull t =>
    change Passes [.round] [.round] _
    simp only [Cond.render_isNotNull, String.toList_append]
    exact (t.passes.within [.round]).append (by decide) (passes_of_closed (by decide) (by decide))
  | isNotDistinct a b =>
    change Passes [.round] [.round] _
    simp only [Cond.render_isNotDistinct, String.toList_append, List.append_assoc]
    exact (a.passes.within [.round]).leads_append (by decide) (by decide)
      (b.passes.within [.round])
  | isDistinct a b =>
    change Passes [.round] [.round] _
    simp only [Cond.render_isDistinct, String.toList_append, List.append_assoc]
    exact (a.passes.within [.round]).leads_append (by decide) (by decide)
      (b.passes.within [.round])
  | contains a b =>
    have hneedle : Passes [.round, .round] [] (b.render.toList ++ ")) > 0".toList) :=
      (b.passes.within [.round, .round]).append (by decide)
        (passes_of_closed (by decide) (by decide))
    change Passes [] [] _
    simp only [Cond.render_contains, String.toList_append, List.append_assoc]
    exact leads_append (by decide)
      ((a.passes.within [.round, .round]).leads_append (by decide) (by decide) hneedle)
  | notAmong t is =>
    have hlist : Passes [.round, .round] [.round] ((placeholders is).toList ++ ")".toList) :=
      ((passes_placeholders is).within [.round, .round]).leads_end (by decide) (by decide)
    change Passes [.round] [.round] _
    simp only [Cond.render_notAmong, String.toList_append, List.append_assoc]
    exact (t.passes.within [.round]).leads_append (by decide) (by decide) hlist
  | noValues v =>
    change Passes [.round] [.round] _
    simp only [Cond.render_noValues, String.toList_append]
    exact (v.passes.within [.round]).append (by decide) (passes_of_closed (by decide) (by decide))
  | someValues v =>
    change Passes [.round] [.round] _
    simp only [Cond.render_someValues, String.toList_append]
    exact (v.passes.within [.round]).append (by decide) (passes_of_closed (by decide) (by decide))
  | someElement v c ih =>
    have hend : Passes [.round] [] (c.render.toList ++ ")".toList) :=
      (passes_of_around ih).leads_end (by decide) (by decide)
    change Passes [] [] _
    simp only [Cond.render_someElement, String.toList_append, List.append_assoc]
    exact leads_append (by decide)
      ((v.passes.within [.round, .round]).leads_append (by decide) (by decide) hend)
  | orFalse c ih =>
    change Passes [] [] _
    simp only [Cond.render_orFalse, String.toList_append, List.append_assoc]
    exact leads_append (by decide) ((passes_of_around ih).leads_end (by decide) (by decide))
  | negate c ih =>
    change Passes [.round] [.round] _
    simp only [Cond.render_negate, String.toList_append]
    exact leads_append (by decide) (passes_of_around ih)
  | both a b iha ihb =>
    change Passes [.round] [.round] _
    simp only [Cond.render_both, String.toList_append, List.append_assoc]
    exact (passes_of_around iha).leads_append (by decide) (by decide) (passes_of_around ihb)
  | either a b iha ihb =>
    change Passes [.round] [.round] _
    simp only [Cond.render_either, String.toList_append, List.append_assoc]
    exact (passes_of_around iha).leads_append (by decide) (by decide) (passes_of_around ihb)
  | paren c ih =>
    change Passes [] [] _
    simp only [Cond.render_paren, String.toList_append, List.append_assoc]
    exact leads_append (by decide) ((passes_of_around ih).leads_end (by decide) (by decide))

/-! ### Self-contained texts -/

theorem Passes.selfContained {cs : List Char} (h : Passes [] [] cs) : SelfContained (lex cs) :=
  selfContained_iff_walk.mpr h.walk_eq

theorem Term.selfContained (t : Term) : SelfContained (lex t.render.toList) :=
  t.passes.selfContained

theorem Values.selfContained (v : Values) : SelfContained (lex v.render.toList) :=
  v.passes.selfContained

/-- A condition that binds as strongly as a closed one has a self-contained text. -/
theorem Cond.selfContained {c : Cond} (h : c.level = 0) : SelfContained (lex c.render.toList) := by
  have hpasses := c.passes
  rw [Cond.around, if_pos h] at hpasses
  exact hpasses.selfContained

end CorpusAgent.Sql
