import CorpusAgent.Sql.Placeholder

/-!
# Scans for placeholders

How the pieces of a text depend on its characters.

* `scanFrom_cons`: a scan completes some pieces with each character and goes on in another mode.
* `source_scan`: put together again, the pieces are the text.
* `scanFrom_append`: a text with nothing pending after it is scanned apart from what follows.
* `separated_scanFrom`: what follows a placeholder does not continue its name.
* `name?_scanFrom`: a placeholder takes a colon.
-/

namespace CorpusAgent.Sql

/-- A placeholder as it is written. -/
def byName (name : String) : List Char := ':' :: name.toList

namespace Piece

/-- The pieces that a character completes. -/
def completed : Mode → Char → List Piece
  | .outside, c => if c = '\'' ∨ c = ':' then [] else [.other c]
  | .literal seen, c => if c = '\'' then [.literal (c :: seen).reverse] else []
  | .colon, c =>
    if c = ':' then [.cast]
    else if isNameStart c then []
    else if c = '\'' then [.other ':']
    else [.other ':', .other c]
  | .name seen, c =>
    if isNamePart c then []
    else if c = '\'' ∨ c = ':' then [.named seen.reverse]
    else [.named seen.reverse, .other c]

/-- The mode after a character. -/
def after : Mode → Char → Mode
  | .outside, c => if c = '\'' then .literal [c] else if c = ':' then .colon else .outside
  | .literal seen, c => if c = '\'' then .outside else .literal (c :: seen)
  | .colon, c =>
    if c = ':' then .outside
    else if isNameStart c then .name [c]
    else if c = '\'' then .literal [c]
    else .outside
  | .name seen, c =>
    if isNamePart c then .name (c :: seen)
    else if c = '\'' then .literal [c]
    else if c = ':' then .colon
    else .outside

theorem scanFrom_cons (m : Mode) (c : Char) (rest : List Char) :
    scanFrom m (c :: rest) = completed m c ++ scanFrom (after m c) rest := by
  by_cases hq : c = '\''
  · subst hq
    cases m <;> rfl
  by_cases hc : c = ':'
  · subst hc
    cases m <;> rfl
  cases m with
  | outside => simp [scanFrom, completed, after, hq, hc]
  | literal seen => simp [scanFrom, completed, after, hq]
  | colon =>
    simp only [scanFrom, completed, after]
    by_cases hs : isNameStart c = true <;> simp [hq, hc, hs]
  | name seen =>
    simp only [scanFrom, completed, after]
    by_cases hp : isNamePart c = true <;> simp [hq, hc, hp]

/-- The characters that are read and not part of a piece yet. -/
def Mode.pending : Mode → List Char
  | .outside => []
  | .literal seen => seen.reverse
  | .colon => [':']
  | .name seen => ':' :: seen.reverse

/-- With each character, those of the completed pieces go before those that are pending. -/
theorem source_completed (m : Mode) (c : Char) :
    (completed m c).flatMap (chars byName) ++ (after m c).pending = m.pending ++ [c] := by
  by_cases hq : c = '\''
  · subst hq
    cases m <;> simp [completed, after, Mode.pending, chars, byName, isNamePart, isNameStart]
  by_cases hc : c = ':'
  · subst hc
    cases m <;> simp [completed, after, Mode.pending, chars, byName, isNamePart]
  cases m with
  | outside => simp [completed, after, Mode.pending, chars, hq, hc]
  | literal seen => simp [completed, after, Mode.pending, hq]
  | colon =>
    by_cases hs : isNameStart c = true <;>
      simp [completed, after, Mode.pending, chars, hq, hc, hs]
  | name seen =>
    by_cases hp : isNamePart c = true <;>
      simp [completed, after, Mode.pending, chars, byName, hq, hc, hp]

/-- Put together again, the pieces are the text. -/
theorem source_scan (cs : List Char) : (scan cs).flatMap (chars byName) = cs := by
  have hfrom : ∀ m, (scanFrom m cs).flatMap (chars byName) = m.pending ++ cs := by
    induction cs with
    | nil => intro m; cases m <;> simp [scanFrom, Mode.pending, chars, byName]
    | cons c cs ih =>
      intro m
      rw [scanFrom_cons, List.flatMap_append, ih, ← List.append_assoc, source_completed,
        List.append_assoc, List.singleton_append]
  exact hfrom .outside

/-- Nothing is pending. -/
def Mode.isOutside : Mode → Bool
  | .outside => true
  | _ => false

/-- A text with nothing pending after it is scanned apart from what follows. -/
theorem scanFrom_append {m : Mode} {cs : List Char}
    (h : (cs.foldl after m).isOutside = true) (rest : List Char) :
    scanFrom m (cs ++ rest) = scanFrom m cs ++ scan rest := by
  induction cs generalizing m with
  | nil =>
    cases m with
    | outside => rfl
    | _ => cases h
  | cons c cs ih =>
    rw [List.cons_append, scanFrom_cons, scanFrom_cons, ih h, List.append_assoc]

/-! ### Neighbours -/

/-- The first piece does not continue a name. -/
def NoNameFirst (ps : List Piece) : Prop :=
  ∀ c, ps.head? = some (.other c) → isNamePart c = false

/-- After a placeholder stands no character that would continue its name. -/
def Separated : List Piece → Prop
  | [] => True
  | p :: rest => (∀ name, p = .named name → NoNameFirst rest) ∧ Separated rest

theorem separated_cons {p : Piece} {rest : List Piece} (hp : p.name? = none)
    (h : Separated rest) : Separated (p :: rest) := by
  refine ⟨fun name he => ?_, h⟩
  subst he
  cases hp

theorem noNameFirst_scanFrom {m : Mode} (hm : m.isOutside = false) (cs : List Char) :
    NoNameFirst (scanFrom m cs) := by
  induction cs generalizing m with
  | nil =>
    intro c hc
    cases m with
    | outside => cases hm
    | colon =>
      simp only [scanFrom, List.head?_cons, Option.some.injEq, Piece.other.injEq] at hc
      subst hc
      decide
    | _ => simp [scanFrom] at hc
  | cons d rest ih =>
    rw [scanFrom_cons]
    cases m with
    | outside => cases hm
    | literal seen =>
      by_cases hq : d = '\''
      · simp [completed, hq, NoNameFirst]
      · simp only [completed, after, hq, if_false, List.nil_append]
        exact ih rfl
    | colon =>
      by_cases hc : d = ':'
      · simp [completed, hc, NoNameFirst]
      · by_cases hs : isNameStart d = true
        · simp only [completed, after, hc, hs, if_true, if_false, List.nil_append]
          exact ih rfl
        · intro c h
          have hfirst : (completed .colon d).head? = some (.other ':') := by
            simp only [completed, hc, hs, if_false, Bool.false_eq_true]
            split <;> rfl
          have hcolon : Piece.other ':' = .other c := by
            rw [List.head?_append, hfirst] at h
            exact Option.some.inj h
          cases hcolon
          decide
    | name seen =>
      by_cases hp : isNamePart d = true
      · simp only [completed, after, hp, if_true, List.nil_append]
        exact ih rfl
      · by_cases hq : d = '\'' ∨ d = ':' <;> simp [completed, hp, hq, NoNameFirst]

theorem separated_scanFrom (m : Mode) (cs : List Char) : Separated (scanFrom m cs) := by
  induction cs generalizing m with
  | nil =>
    cases m with
    | outside => trivial
    | name seen => exact ⟨fun _ _ c hc => (nomatch hc), trivial⟩
    | _ => exact separated_cons rfl trivial
  | cons d rest ih =>
    rw [scanFrom_cons]
    have hrest := ih (after m d)
    cases m with
    | outside =>
      by_cases hq : d = '\'' ∨ d = ':'
      · simpa [completed, hq] using hrest
      · simpa [completed, hq] using separated_cons (p := .other d) rfl hrest
    | literal seen =>
      by_cases hq : d = '\''
      · simp only [completed, hq, if_true, List.singleton_append]
        exact separated_cons rfl (hq ▸ hrest)
      · simpa [completed, hq] using hrest
    | colon =>
      by_cases hc : d = ':'
      · simp only [completed, hc, if_true, List.singleton_append]
        exact separated_cons rfl (hc ▸ hrest)
      · by_cases hs : isNameStart d = true
        · simpa [completed, hc, hs] using hrest
        · by_cases hq : d = '\''
          · subst hq
            exact separated_cons (p := .other ':') rfl hrest
          · simpa [completed, hc, hs, hq] using
              separated_cons (p := .other ':') rfl (separated_cons (p := .other d) rfl hrest)
    | name seen =>
      by_cases hp : isNamePart d = true
      · simpa [completed, hp] using hrest
      · by_cases hq : d = '\'' ∨ d = ':'
        · simp only [completed, hp, hq, if_true, Bool.false_eq_true, if_false,
            List.singleton_append]
          refine ⟨fun _ _ => noNameFirst_scanFrom ?_ rest, hrest⟩
          rcases hq with rfl | rfl <;> rfl
        · simp only [completed, hp, hq, Bool.false_eq_true, if_false, List.cons_append,
            List.nil_append]
          refine ⟨fun _ _ c hc => ?_, separated_cons rfl hrest⟩
          simp only [List.head?_cons, Option.some.injEq, Piece.other.injEq] at hc
          subst hc
          simpa using hp

theorem name?_scanFrom {m : Mode} {cs : List Char} (hc : ':' ∉ cs)
    (hm : m = .outside ∨ ∃ seen, m = .literal seen) : ∀ p ∈ scanFrom m cs, p.name? = none := by
  induction cs generalizing m with
  | nil =>
    rcases hm with rfl | ⟨seen, rfl⟩
    · exact fun p hp => absurd hp List.not_mem_nil
    · intro p hp
      obtain rfl := List.mem_singleton.mp hp
      rfl
  | cons d rest ih =>
    simp only [List.mem_cons, not_or] at hc
    have hd : ¬d = ':' := fun h => hc.1 h.symm
    intro p hp
    rw [scanFrom_cons, List.mem_append] at hp
    rcases hm with rfl | ⟨seen, rfl⟩
    · by_cases hq : d = '\''
      · simp only [completed, after, hq, true_or, if_true, List.not_mem_nil, false_or] at hp
        exact ih hc.2 (.inr ⟨_, rfl⟩) p hp
      · simp only [completed, after, hq, hd, or_self, if_false, List.mem_singleton] at hp
        rcases hp with rfl | hp
        · rfl
        · exact ih hc.2 (.inl rfl) p hp
    · by_cases hq : d = '\''
      · simp only [completed, after, hq, if_true, List.mem_singleton] at hp
        rcases hp with rfl | hp
        · rfl
        · exact ih hc.2 (.inl rfl) p hp
      · simp only [completed, after, hq, if_false, List.not_mem_nil, false_or] at hp
        exact ih hc.2 (.inr ⟨_, rfl⟩) p hp

end Piece

end CorpusAgent.Sql
