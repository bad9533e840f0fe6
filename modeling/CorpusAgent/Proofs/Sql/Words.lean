import CorpusAgent.Proofs.Sql.Reader

/-!
# Words and lists under reading

What the readers of words, placeholders and lists take from a text that begins with one of them.

* `word_append` and `word_of_differ`: a word is taken where it stands, and nowhere else.
* `Ends`: what may follow an expression of a level without being taken for a part of it.
* `readPlaceholder_append`: a placeholder reads as its number.
* `separated_append`: items with separators between them are read one by one, and all of them.
-/

namespace CorpusAgent.Sql

/-! ### Words -/

theorem isPrefixOf?_cons (c d : Char) (cs ds : List Char) : List.isPrefixOf? (c :: cs) (d :: ds) =
    if c == d then List.isPrefixOf? cs ds else none := rfl

theorem word_append (w : String) (rest : List Char) : word w (w.toList ++ rest) = some rest := by
  unfold word
  induction w.toList with
  | nil => rfl
  | cons c cs ih => rw [List.cons_append, isPrefixOf?_cons, beq_self_eq_true, if_pos rfl, ih]

/-- Two texts have different characters at some place. -/
def differ : List Char → List Char → Bool
  | c :: cs, d :: ds => c != d || differ cs ds
  | _, _ => false

theorem word_of_differ {w : String} {cs : List Char} (h : differ w.toList cs = true)
    (rest : List Char) : word w (cs ++ rest) = none := by
  unfold word
  revert h
  generalize w.toList = ws
  induction ws generalizing cs with
  | nil => intro h; cases h
  | cons c ws ih =>
    intro h
    cases cs with
    | nil => cases h
    | cons d ds =>
      rw [List.cons_append, isPrefixOf?_cons]
      by_cases hc : c = d
      · subst hc
        have hd : differ ws ds = true := by simpa [differ] using h
        simp [ih hd]
      · simp [hc]

theorem choose_here {α : Type} {otherwise next : Reader α} {more : List (String × Reader α)}
    {w : String} (rest : List Char) :
    choose otherwise ((w, next) :: more) (w.toList ++ rest) = next rest := by
  rw [choose, word_append]

theorem choose_later {α : Type} {otherwise next : Reader α} {more : List (String × Reader α)}
    {w : String} {cs : List Char} (h : differ w.toList cs = true) (rest : List Char) :
    choose otherwise ((w, next) :: more) (cs ++ rest) = choose otherwise more (cs ++ rest) := by
  rw [choose, word_of_differ h]

theorem choose_of_none {α : Type} {otherwise : Reader α} {table : List (String × Reader α)}
    {cs : List Char} (h : ∀ entry ∈ table, word entry.1 cs = none) :
    choose otherwise table cs = otherwise cs := by
  induction table with
  | nil => rfl
  | cons entry more ih =>
    obtain ⟨w, next⟩ := entry
    rw [choose, h (w, next) (List.mem_cons_self ..)]
    exact ih fun e he => h e (List.mem_cons_of_mem _ he)

/-- What follows is neither more of a name or a cast nor one of some words. -/
structure Ends (words : List String) (rest : List Char) : Prop where
  head : ∀ c ∈ rest.head?, Piece.isNamePart c = false ∧ c ≠ ':'
  word : ∀ w ∈ words, word w rest = none

/-- A word that differs from all of some words and does not begin like a name. -/
def endsAll (words : List String) (cs : List Char) : Bool :=
  (cs.head?.any fun c => !Piece.isNamePart c && c != ':') &&
    words.all fun w => differ w.toList cs

theorem ends_append {words : List String} {cs : List Char} (h : endsAll words cs = true)
    (rest : List Char) : Ends words (cs ++ rest) := by
  rw [endsAll, Bool.and_eq_true, List.all_eq_true] at h
  refine ⟨?_, fun w hw => word_of_differ (h.2 w hw) rest⟩
  cases cs with
  | nil => exact absurd h.1 (by decide)
  | cons c cs => simpa using h.1

theorem Ends.mono {words fewer : List String} {rest : List Char} (h : Ends words rest)
    (hs : ∀ w ∈ fewer, w ∈ words) : Ends fewer rest :=
  ⟨h.head, fun w hw => h.word w (hs w hw)⟩

theorem ends_nil {words : List String} (h : ∀ w ∈ words, w ≠ "") : Ends words [] := by
  refine ⟨by simp, fun w hw => ?_⟩
  unfold word
  cases hl : w.toList with
  | nil => exact absurd (by simpa using hl) (h w hw)
  | cons c cs => rfl

/-! ### Placeholders and separated items -/

theorem index?_paramName (i : Nat) : index? (paramName i).toList = some i := by
  have hname : (paramName i).toList = 'p' :: Nat.toDigits 10 i := by simp [paramName]
  have hi : Nat.ofDigitChars 10 ((paramName i).toList.drop 1) 0 = i := by
    rw [hname]
    exact Nat.ofDigitChars_ten_toDigits
  simp only [index?, hi, if_true]

theorem isNamePart_paramName (i : Nat) : ∀ c ∈ (paramName i).toList, Piece.isNamePart c = true := by
  intro c hc
  have hname : (paramName i).toList = 'p' :: Nat.toDigits 10 i := by simp [paramName]
  rw [hname, List.mem_cons] at hc
  rcases hc with rfl | hc
  · decide
  · have := Nat.isDigit_of_mem_toDigits (by omega) (by omega) hc
    simp [Piece.isNamePart, Char.isAlphanum, this]

theorem readName_append (i : Nat) {words : List String} {rest : List Char}
    (hr : Ends words rest) : readName ((paramName i).toList ++ rest) = some (i, rest) := by
  have htake : rest.takeWhile Piece.isNamePart = [] ∧ rest.dropWhile Piece.isNamePart = rest := by
    cases rest with
    | nil => exact ⟨rfl, rfl⟩
    | cons c cs =>
      have hc := (hr.head c (by simp)).1
      simp [hc]
  rw [readName, List.takeWhile_append_of_pos (isNamePart_paramName i),
    List.dropWhile_append_of_pos (isNamePart_paramName i), htake.1, htake.2, List.append_nil,
    index?_paramName]
  rfl

theorem readPlaceholder_append (i : Nat) {words : List String} {rest : List Char}
    (hr : Ends words rest) : readPlaceholder ((placeholder i).toList ++ rest) = some (i, rest) := by
  rw [placeholder, String.toList_append, List.append_assoc, readPlaceholder, word_append]
  exact readName_append i hr

section

variable {α : Type} {separator : String} {item : Reader α} {text : α → List Char}
  {words : List String}

/-- What ends an item before the rest also ends it before more items. -/
theorem ends_items {as : List α} {rest : List Char} (hsep : endsAll words separator.toList = true)
    (hr : Ends words rest) :
    Ends words (as.flatMap (fun a => separator.toList ++ text a) ++ rest) := by
  cases as with
  | nil => exact hr
  | cons b bs =>
    rw [List.flatMap_cons, List.append_assoc, List.append_assoc]
    exact ends_append hsep _

theorem readMore_items {as : List α} {rest : List Char}
    (hitem : ∀ a ∈ as, ∀ rest, Ends words rest → item (text a ++ rest) = some (a, rest))
    (hsep : endsAll words separator.toList = true) (hr : Ends (separator :: words) rest)
    {fuel : Nat} (hf : as.length ≤ fuel) :
    readMore separator item fuel
      (as.flatMap (fun a => separator.toList ++ text a) ++ rest) = some (as, rest) := by
  have hword := hr.word separator (List.mem_cons_self ..)
  have hr' := hr.mono fun w hw => List.mem_cons_of_mem separator hw
  induction as generalizing fuel with
  | nil => cases fuel <;> simp [readMore, hword]
  | cons a as ih =>
    obtain ⟨fuel, rfl⟩ : ∃ n, fuel = n + 1 := ⟨fuel - 1, by simp at hf; omega⟩
    rw [List.flatMap_cons, List.append_assoc, List.append_assoc, readMore, word_append]
    simp only [hitem a (List.mem_cons_self ..) _ (ends_items hsep hr'), Option.bind_eq_bind,
      Option.bind_some,
      ih (fun b hb => hitem b (List.mem_cons_of_mem a hb)) (Nat.le_of_succ_le_succ hf)]

variable (text) in
/-- As many separators as items, so there is fuel for all of them. -/
theorem length_le_flatMap {as : List α} (hsep : endsAll words separator.toList = true) :
    as.length ≤ (as.flatMap fun a => separator.toList ++ text a).length := by
  have hpos : 0 < separator.toList.length := by
    cases h : separator.toList with
    | nil => rw [h] at hsep; exact absurd hsep (by simp [endsAll])
    | cons c cs => simp
  induction as with
  | nil => simp
  | cons a as ih =>
    rw [List.flatMap_cons, List.length_append, List.length_append, List.length_cons]
    omega

variable (text) in
theorem readMore_append {as : List α} {rest : List Char}
    (hitem : ∀ a ∈ as, ∀ rest, Ends words rest → item (text a ++ rest) = some (a, rest))
    (hsep : endsAll words separator.toList = true) (hr : Ends (separator :: words) rest) :
    readMore separator item (as.flatMap (fun a => separator.toList ++ text a) ++ rest).length
      (as.flatMap (fun a => separator.toList ++ text a) ++ rest) = some (as, rest) := by
  have hlen : as.length ≤ (as.flatMap fun a => separator.toList ++ text a).length :=
    length_le_flatMap text hsep
  refine readMore_items hitem hsep hr ?_
  rw [List.length_append]
  omega

variable (text) in
theorem separated_append {a : α} {as : List α} {rest : List Char}
    (hitem : ∀ b ∈ a :: as, ∀ rest, Ends words rest → item (text b ++ rest) = some (b, rest))
    (hsep : endsAll words separator.toList = true) (hr : Ends (separator :: words) rest) :
    separated separator item
      (text a ++ (as.flatMap (fun b => separator.toList ++ text b) ++ rest)) =
        some (a :: as, rest) := by
  have hr' := hr.mono fun w hw => List.mem_cons_of_mem separator hw
  simp only [separated, hitem a (List.mem_cons_self ..) _ (ends_items hsep hr'),
    Option.bind_eq_bind, Option.bind_some,
    readMore_append text (fun b hb => hitem b (List.mem_cons_of_mem a hb)) hsep hr]

end

/-- The text of a list with commas, after its first item. -/
theorem toList_commas (first : String) (rest : List String) :
    (", ".intercalate (first :: rest)).toList =
      first.toList ++ rest.flatMap fun s => ", ".toList ++ s.toList := by
  induction rest generalizing first with
  | nil => simp
  | cons second rest ih =>
    rw [String.intercalate_cons_cons, String.toList_append, String.toList_append, ih,
      List.flatMap_cons]
    simp only [List.append_assoc]

theorem readMember_append {arrow : String} (ha : arrow = " ->> " ∨ arrow = " -> ")
    (origin : Origin) (key : Nat) {words : List String} {rest : List Char}
    (hr : Ends words rest) :
    readMember arrow ((columnName origin).toList ++ (arrow.toList ++
      ((placeholder key).toList ++ rest))) = some ((origin, key), rest) := by
  have hkey := readPlaceholder_append key hr
  rw [readMember, ← List.append_assoc, ← String.toList_append]
  simp only [List.map_cons, List.map_nil]
  have hne : ∀ o, o ≠ origin →
      differ (columnName o ++ arrow).toList (columnName origin ++ arrow).toList = true := by
    rcases ha with rfl | rfl <;> intro o ho <;> cases o <;> cases origin <;>
      first | decide | exact absurd rfl ho
  cases origin with
  | file => rw [choose_here, hkey]; rfl
  | source => rw [choose_later (hne .file (by decide)), choose_here, hkey]; rfl
  | llm =>
    rw [choose_later (hne .file (by decide)), choose_later (hne .source (by decide)), choose_here,
      hkey]
    rfl

end CorpusAgent.Sql
