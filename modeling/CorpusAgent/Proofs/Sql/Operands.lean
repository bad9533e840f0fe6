import CorpusAgent.Proofs.Sql.SelfContained

/-!
# Operands among other texts

What an operator applies to reaches from the operator to the first bracket that was open before, or
to the first connective outside of brackets that binds too weakly to belong to the operand.  Which
connectives these are is a matter of precedence; here they may be any, but all of them end the
operands of an operator that is no connective itself.

* `operandAfter`, `operandBefore`: what an operator applies to on either side.
* `takeOperand_append`: an operand that reaches a self-contained text takes it in and goes on.
* `operandAfter_inside`: an operand that begins in a self-contained text ends there.
* `Gap`: two texts between which another one is read apart.
* `Sheltered`: a text between two others keeps the operands of its own operators, and belongs to the
  operands of the others wholly or not at all.
* `sheltered`: a self-contained text in a gap does.
* `gap_joiner`: after a connective there is a gap, before another one, a closing bracket or the end.
-/

namespace CorpusAgent.Sql

open Piece (isNamePart)

/-! ### Operands -/

/-- The number of brackets that an operand has opened and not closed, after one more lexeme; nothing
where the operand ends before it. -/
def Lexeme.inOperand (stop : Connective → Bool) : Nat → Lexeme → Option Nat
  | depth, .opening _ => some (depth + 1)
  | 0, .closing _ => none
  | depth + 1, .closing _ => some depth
  | 0, l => if l.connective?.any stop then none else some 0
  | depth + 1, _ => some (depth + 1)

/-- The lexemes that belong to an operand that has opened so many brackets. -/
def takeOperand (stop : Connective → Bool) : Nat → List Lexeme → List Lexeme
  | _, [] => []
  | depth, l :: rest =>
    match l.inOperand stop depth with
    | none => []
    | some depth => l :: takeOperand stop depth rest

/-- What an operator applies to among the lexemes after it. -/
def operandAfter (stop : Connective → Bool) (ls : List Lexeme) : List Lexeme :=
  takeOperand stop 0 ls

/-- The connectives end the operands of an operator.  Some do for a connective, and all do for any
other operator, since it binds more strongly. -/
def Lexeme.EndedBy (op : Lexeme) (stop : Connective → Bool) : Prop :=
  op.connective? = none → ∀ c, stop c = true

/-- A lexeme as it is met from the other side. -/
def Lexeme.mirror : Lexeme → Lexeme
  | .opening b => .closing b
  | .closing b => .opening b
  | l => l

/-- Lexemes as they are met from the other side. -/
def mirrored (ls : List Lexeme) : List Lexeme := (ls.map Lexeme.mirror).reverse

/-- What an operator applies to among the lexemes before it. -/
def operandBefore (stop : Connective → Bool) (ls : List Lexeme) : List Lexeme :=
  mirrored (operandAfter stop (mirrored ls))

theorem mirrored_append (us vs : List Lexeme) :
    mirrored (us ++ vs) = mirrored vs ++ mirrored us := by
  rw [mirrored, List.map_append, List.reverse_append]
  rfl

theorem mirrored_mirrored (ls : List Lexeme) : mirrored (mirrored ls) = ls := by
  have hmirror : Lexeme.mirror ∘ Lexeme.mirror = id := by
    funext l
    cases l <;> rfl
  rw [mirrored, mirrored, List.map_reverse, List.reverse_reverse, List.map_map, hmirror,
    List.map_id]

section

variable {stop : Connective → Bool} {opened after : List Bracket} {l : Lexeme}
  {ls us vs front back rest : List Lexeme}

/-- From the other side a walk goes back. -/
theorem Lexeme.walk_mirror (h : l.walk opened = some after) :
    l.mirror.walk after = some opened := by
  rw [Lexeme.walk_eq_some_iff] at h ⊢
  obtain ⟨hclosed, hfree, hnest⟩ := h
  cases l with
  | opening b =>
    obtain rfl := Option.some.inj hnest
    exact ⟨rfl, fun _ => rfl, if_pos rfl⟩
  | closing c =>
    cases opened with
    | nil => cases hnest
    | cons b opened =>
      simp only [nest] at hnest
      split_ifs at hnest with hbc
      obtain rfl := Option.some.inj hnest
      subst hbc
      exact ⟨rfl, fun _ => rfl, rfl⟩
  | _ =>
    obtain rfl := Option.some.inj hnest
    exact ⟨hclosed, hfree, rfl⟩

theorem walk_mirrored (h : walk opened ls = some after) :
    walk after (mirrored ls) = some opened := by
  induction ls generalizing opened with
  | nil =>
    obtain rfl := Option.some.inj h
    rfl
  | cons l ls ih =>
    obtain ⟨o, ho, hls⟩ := Option.bind_eq_some_iff.mp h
    have hcons : mirrored (l :: ls) = mirrored ls ++ [l.mirror] := mirrored_append [l] ls
    rw [hcons, walk_append, ih hls, Option.bind_some, walk_cons, Lexeme.walk_mirror ho]
    rfl

theorem SelfContained.mirrored (h : SelfContained ls) : SelfContained (mirrored ls) :=
  selfContained_iff_walk.mpr (walk_mirrored (selfContained_iff_walk.mp h))

/-! ### Texts that an operand reaches -/

theorem Lexeme.inOperand_of_walk (h : l.walk opened = some after) (depth : Nat) :
    l.inOperand stop (opened.length + depth) = some (after.length + depth) := by
  obtain ⟨-, hfree, hnest⟩ := Lexeme.walk_eq_some_iff.mp h
  cases l with
  | opening b =>
    obtain rfl := Option.some.inj hnest
    rw [Lexeme.inOperand, List.length_cons]
    congr 1
    omega
  | closing c =>
    cases opened with
    | nil => cases hnest
    | cons b opened =>
      simp only [nest] at hnest
      split_ifs at hnest
      obtain rfl := Option.some.inj hnest
      rw [List.length_cons, Nat.add_right_comm]
      rfl
  | _ =>
    obtain rfl := Option.some.inj hnest
    cases opened with
    | nil =>
      cases depth with
      | zero => simp [Lexeme.inOperand, hfree rfl]
      | succ depth => rfl
    | cons b opened =>
      rw [List.length_cons, Nat.add_right_comm]
      rfl

theorem takeOperand_append_of_walk (h : walk opened ls = some after) (depth : Nat) :
    takeOperand stop (opened.length + depth) (ls ++ rest) =
      ls ++ takeOperand stop (after.length + depth) rest := by
  induction ls generalizing opened with
  | nil =>
    obtain rfl := Option.some.inj h
    rfl
  | cons l ls ih =>
    obtain ⟨o, ho, hls⟩ := Option.bind_eq_some_iff.mp h
    rw [List.cons_append, takeOperand, Lexeme.inOperand_of_walk ho]
    exact congrArg (l :: ·) (ih hls)

/-- An operand that reaches a self-contained text takes it in and goes on after it. -/
theorem takeOperand_append (h : SelfContained ls) (depth : Nat) (rest : List Lexeme) :
    takeOperand stop depth (ls ++ rest) = ls ++ takeOperand stop depth rest := by
  have hwalk : takeOperand stop (([] : List Bracket).length + depth) (ls ++ rest) =
      ls ++ takeOperand stop (([] : List Bracket).length + depth) rest :=
    takeOperand_append_of_walk (selfContained_iff_walk.mp h) depth
  rwa [List.length_nil, Nat.zero_add] at hwalk

/-- An operand ends among some lexemes, or it takes them all in; what follows does not matter. -/
theorem takeOperand_cases (stop : Connective → Bool) (depth : Nat) (ls : List Lexeme) :
    (∃ operand, ∀ rest, takeOperand stop depth (ls ++ rest) = operand) ∨
      ∃ depth', ∀ rest, takeOperand stop depth (ls ++ rest) =
        ls ++ takeOperand stop depth' rest := by
  induction ls generalizing depth with
  | nil => exact .inr ⟨depth, fun _ => rfl⟩
  | cons l ls ih =>
    simp only [List.cons_append, takeOperand]
    cases l.inOperand stop depth with
    | none => exact .inl ⟨[], fun _ => rfl⟩
    | some depth =>
      rcases ih depth with ⟨operand, h⟩ | ⟨depth', h⟩
      · exact .inl ⟨l :: operand, fun rest => congrArg (l :: ·) (h rest)⟩
      · exact .inr ⟨depth', fun rest => congrArg (l :: ·) (h rest)⟩

theorem Lexeme.inOperand_eq (hl : l.mirror = l) {depth depth' : Nat}
    (h : l.inOperand stop depth = some depth') : depth' = depth := by
  cases l with
  | opening | closing => cases hl
  | _ =>
    cases depth with
    | zero =>
      simp only [Lexeme.inOperand] at h
      split_ifs at h
      exact (Option.some.inj h).symm
    | succ depth => exact (Option.some.inj h).symm

theorem takeOperand_of_closes {inner outer : List Bracket} (houter : outer ≠ [])
    (h : walk (inner ++ outer) ls = some []) (rest : List Lexeme) :
    takeOperand stop inner.length (ls ++ rest) = takeOperand stop inner.length ls := by
  induction ls generalizing inner with
  | nil => exact absurd (List.append_eq_nil_iff.mp (Option.some.inj h)).2 houter
  | cons l ls ih =>
    obtain ⟨o, ho, hls⟩ := Option.bind_eq_some_iff.mp h
    obtain ⟨-, -, hnest⟩ := Lexeme.walk_eq_some_iff.mp ho
    rw [List.cons_append, takeOperand, takeOperand]
    cases l with
    | opening b =>
      obtain rfl := Option.some.inj hnest
      have hinner : walk ((b :: inner) ++ outer) ls = some [] := hls
      exact congrArg (_ :: ·) (ih hinner)
    | closing c =>
      cases inner with
      | nil => rfl
      | cons b inner =>
        simp only [Lexeme.nest, List.cons_append] at hnest
        split_ifs at hnest
        obtain rfl := Option.some.inj hnest
        exact congrArg (_ :: ·) (ih hls)
    | _ =>
      obtain rfl := Option.some.inj hnest
      cases hin : Lexeme.inOperand stop inner.length _ with
      | none => rfl
      | some depth =>
        obtain rfl := Lexeme.inOperand_eq rfl hin
        exact congrArg (_ :: ·) (ih hls)

theorem operandAfter_of_closes (hopened : opened ≠ []) (h : walk opened ls = some [])
    (rest : List Lexeme) : operandAfter stop (ls ++ rest) = operandAfter stop ls :=
  @takeOperand_of_closes stop ls [] opened hopened h rest

/-! ### Operators of a self-contained text -/

theorem Lexeme.connective?_of_walk (h : l.walk opened = some []) : l.connective? = none := by
  obtain ⟨-, hfree, hnest⟩ := Lexeme.walk_eq_some_iff.mp h
  cases l with
  | word letters => exact hfree (Option.some.inj hnest)
  | _ => rfl

theorem SelfContained.operandAfter_eq (h : SelfContained ls) :
    operandAfter stop (ls ++ rest) = ls ++ operandAfter stop rest :=
  takeOperand_append h 0 rest

/-- An operand is part of a text if its brackets are closed there, or if it ends where the text
does. -/
theorem operandAfter_inside (h : walk opened ls = some [])
    (hends : opened = [] → operandAfter stop rest = []) :
    operandAfter stop (ls ++ rest) = operandAfter stop ls := by
  by_cases hopened : opened = []
  · subst hopened
    have hself : SelfContained ls := selfContained_iff_walk.mpr h
    have hall : operandAfter stop (ls ++ []) = ls ++ operandAfter stop [] := hself.operandAfter_eq
    rw [List.append_nil] at hall
    rw [hself.operandAfter_eq, hends rfl, hall]
    rfl
  · exact operandAfter_of_closes hopened h rest

/-- The operands of the operators of a self-contained text are part of it, on both sides. -/
theorem SelfContained.operands_inside (h : SelfContained (us ++ l :: vs)) (hl : l.EndedBy stop)
    (hfront : operandBefore (fun _ => true) front = [])
    (hback : operandAfter (fun _ => true) back = []) :
    operandBefore stop (front ++ us) = operandBefore stop us ∧
      operandAfter stop (vs ++ back) = operandAfter stop vs := by
  have hwalk := selfContained_iff_walk.mp h
  rw [walk_append] at hwalk
  obtain ⟨opened, hus, hrest⟩ := Option.bind_eq_some_iff.mp hwalk
  obtain ⟨after, hafter, hvs⟩ := Option.bind_eq_some_iff.mp hrest
  have hstop : l.connective? = none → stop = fun _ => true := fun hnone => funext (hl hnone)
  constructor
  · have hends : opened = [] → operandAfter stop (Sql.mirrored front) = [] := by
      rintro rfl
      rw [hstop ((Lexeme.walk_eq_some_iff.mp hafter).2.1 rfl)]
      have hmirrored := congrArg Sql.mirrored hfront
      rwa [operandBefore, mirrored_mirrored] at hmirrored
    rw [operandBefore, mirrored_append, operandAfter_inside (walk_mirrored hus) hends]
    rfl
  · refine operandAfter_inside hvs ?_
    rintro rfl
    rw [hstop (Lexeme.connective?_of_walk hafter)]
    exact hback

/-! ### Operators around a self-contained text -/

/-- What an operator applies to holds a self-contained text wholly or not at all, whichever text it
is. -/
def HoldsWhole (operand : List Lexeme → List Lexeme) : Prop :=
  (∃ all, ∀ text, SelfContained text → operand text = all) ∨
    ∃ front back, ∀ text, SelfContained text → operand text = front ++ text ++ back

theorem holdsWhole_after (stop : Connective → Bool) (vs back : List Lexeme) :
    HoldsWhole fun text => operandAfter stop (vs ++ text ++ back) := by
  simp only [List.append_assoc]
  rcases takeOperand_cases stop 0 vs with ⟨all, h⟩ | ⟨depth, h⟩
  · exact .inl ⟨all, fun text _ => h (text ++ back)⟩
  · refine .inr ⟨vs, takeOperand stop depth back, fun text htext => ?_⟩
    change takeOperand stop 0 (vs ++ (text ++ back)) = _
    rw [h, takeOperand_append htext, List.append_assoc]

theorem holdsWhole_before (stop : Connective → Bool) (front us : List Lexeme) :
    HoldsWhole fun text => operandBefore stop (front ++ text ++ us) := by
  have hmirror : ∀ text, operandBefore stop (front ++ text ++ us) =
      mirrored (operandAfter stop (mirrored us ++ mirrored text ++ mirrored front)) := by
    intro text
    rw [operandBefore, mirrored_append, mirrored_append, List.append_assoc]
  simp only [hmirror]
  rcases holdsWhole_after stop (mirrored us) (mirrored front) with ⟨all, h⟩ | ⟨before, after, h⟩
  · exact .inl ⟨mirrored all, fun text htext => congrArg mirrored (h _ htext.mirrored)⟩
  · refine .inr ⟨mirrored after, mirrored before, fun text htext => ?_⟩
    refine (congrArg mirrored (h _ htext.mirrored)).trans ?_
    rw [mirrored_append, mirrored_append, mirrored_mirrored, List.append_assoc]

end

/-! ### Texts in gaps -/

/-- Two texts between which another one is read apart: no literal and no word reaches into the gap
from before, none of its words reaches out, and on both sides a connective or a bracket is next. -/
structure Gap (front back : List Char) : Prop where
  closed : ∀ l ∈ lex front, l.isUnclosed = false
  last : ∀ c ∈ front.getLast?, isNamePart c = false
  parted : Parted back
  before : operandBefore (fun _ => true) (lex front) = []
  after : operandAfter (fun _ => true) (lex back) = []

/-- A text between two others is an operand or part of one. -/
structure Sheltered (front text back : List Char) : Prop where
  /-- The text is read as it would be alone. -/
  lexed : lex (front ++ text ++ back) = lex front ++ lex text ++ lex back
  /-- Its operators apply to the same as without the others. -/
  inside : ∀ stop us op vs, lex text = us ++ op :: vs → op.EndedBy stop →
    operandBefore stop (lex front ++ us) = operandBefore stop us ∧
      operandAfter stop (vs ++ lex back) = operandAfter stop vs
  /-- What an operator before it applies to holds the text wholly or not at all. -/
  before : ∀ stop us op vs, lex front = us ++ op :: vs →
    HoldsWhole fun text => operandAfter stop (vs ++ text ++ lex back)
  /-- What an operator after it applies to holds the text wholly or not at all. -/
  after : ∀ stop us op vs, lex back = us ++ op :: vs →
    HoldsWhole fun text => operandBefore stop (lex front ++ text ++ us)

section

variable {front text back : List Char}

/-- A text whose literals are closed and whose last character belongs to no word leaves nothing
begun. -/
theorem modeAfter_eq_outside (hclosed : ∀ l ∈ lex front, l.isUnclosed = false)
    (hlast : ∀ c ∈ front.getLast?, isNamePart c = false) : modeAfter front = .outside := by
  rw [closed_lex_iff] at hclosed
  rcases List.eq_nil_or_concat front with rfl | ⟨cs, c, rfl⟩
  · rfl
  · have hc : isNamePart c = false := hlast c (by simp)
    rw [List.concat_eq_append, modeAfter, List.foldl_append] at hclosed ⊢
    rw [List.foldl_cons, List.foldl_nil] at hclosed ⊢
    generalize cs.foldl Lexeme.after .outside = m at hclosed ⊢
    by_cases hquote : c = '\''
    · subst hquote
      cases m with
      | literal seen => rfl
      | _ => cases hclosed
    · cases m with
      | outside | word => simp [Lexeme.after, hquote, hc]
      | literal seen =>
        rw [Lexeme.after, if_neg hquote] at hclosed
        cases hclosed

/-- **A self-contained text is sheltered in every gap.** -/
theorem sheltered (hgap : Gap front back) (htext : SelfContained (lex text)) :
    Sheltered front text back where
  lexed := by
    rw [List.append_assoc, lex_append_outside (modeAfter_eq_outside hgap.closed hgap.last),
      lex_append (closed_lex_iff.mp htext.closed) hgap.parted, List.append_assoc]
  inside stop us op vs hsplit hop := by
    rw [hsplit] at htext
    exact htext.operands_inside hop hgap.before hgap.after
  before stop us op vs _ := holdsWhole_after stop vs (lex back)
  after stop us op vs _ := holdsWhole_before stop (lex front) us

/-! ### Joiners -/

/-- The texts that a condition can follow as an operand. -/
def joiners : List String := [" AND ", " OR ", "NOT ", " AND (", "\n\tAND ("]

/-- What follows an operand: the end, another operand or a closing bracket. -/
def EndsOperand (back : List Char) : Prop :=
  back = [] ∨ ∃ ending ∈ [" AND ", " OR ", ")"], ending.toList <+: back

/-- A text ends before a joiner: its literals are closed, and no word reaches into the joiner. -/
structure EndsBefore (front : List Char) (joiner : String) : Prop where
  closed : ∀ l ∈ lex front, l.isUnclosed = false
  parted : Parted joiner.toList ∨ ∀ c ∈ front.getLast?, isNamePart c = false

theorem EndsBefore.lex_append {joiner : String} (h : EndsBefore front joiner) :
    lex (front ++ joiner.toList) = lex front ++ lex joiner.toList := by
  rcases h.parted with hparted | hlast
  · exact Sql.lex_append (closed_lex_iff.mp h.closed) hparted
  · exact lex_append_outside (modeAfter_eq_outside h.closed hlast)

theorem operandBefore_eq_nil {stop : Connective → Bool} {ls : List Lexeme}
    (h : ∀ l ∈ ls.getLast?, l.mirror.inOperand stop 0 = none) : operandBefore stop ls = [] := by
  rcases List.eq_nil_or_concat ls with rfl | ⟨us, l, rfl⟩
  · rfl
  · have hl : l.mirror.inOperand stop 0 = none := h l (by simp)
    rw [List.concat_eq_append, operandBefore, mirrored_append]
    change mirrored (takeOperand stop 0 (l.mirror :: mirrored us)) = []
    rw [takeOperand, hl]
    rfl

theorem EndsOperand.ends (h : EndsOperand back) :
    Parted back ∧ operandAfter (fun _ => true) (lex back) = [] := by
  obtain rfl | ⟨ending, hending, rest, rfl⟩ := h
  · exact ⟨fun c hc => absurd hc (Option.not_mem_none c), rfl⟩
  · simp only [List.mem_cons, List.not_mem_nil, or_false] at hending
    obtain rfl | rfl | rfl := hending <;>
      exact ⟨parted_append (by decide), rfl⟩

theorem gap_joiner {joiner : String} (hjoiner : joiner ∈ joiners) (hfront : EndsBefore front joiner)
    (hback : EndsOperand back) : Gap (front ++ joiner.toList) back := by
  have hall : ∀ j ∈ joiners, (∀ l ∈ lex j.toList, l.isUnclosed = false) ∧
      (j.toList ≠ [] ∧ j.toList.getLast?.any isNamePart = false) ∧ lex j.toList ≠ [] ∧
        ∀ l ∈ (lex j.toList).getLast?, l.mirror.inOperand (fun _ => true) 0 = none := by decide
  obtain ⟨hclosed, ⟨hne, hlast⟩, hlexemes, hends⟩ := hall joiner hjoiner
  refine ⟨?_, fun c hc => ?_, hback.ends.1, operandBefore_eq_nil fun l hl => ?_, hback.ends.2⟩
  · rw [hfront.lex_append]
    exact List.forall_mem_append.mpr ⟨hfront.closed, hclosed⟩
  · rw [List.getLast?_append_of_ne_nil _ hne] at hc
    rwa [Option.mem_def.mp hc] at hlast
  · rw [hfront.lex_append, List.getLast?_append_of_ne_nil _ hlexemes] at hl
    exact hends l hl

end

end CorpusAgent.Sql
