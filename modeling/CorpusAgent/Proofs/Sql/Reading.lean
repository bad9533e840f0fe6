import CorpusAgent.Proofs.Sql.Words

/-!
# What the text of a condition reads as

The text of an expression that fits together reads as this expression, so nothing is lost when a
condition is written down.

* `Phrase.Fits`: operands bind at least as strongly as their place asks for, and no list is empty.
* `readPhrase_render`: the induction over the depth of brackets, one lemma for each level.
* `Cond.read?_render`: the text of a condition reads as the condition.
-/

namespace CorpusAgent.Sql

/-! ### What fits together -/

mutual

/-- No list within a list expression is empty. -/
def Values.Fits : Values → Prop
  | .bounds indices => indices ≠ []
  | .ifNull _ missing present => missing.Fits ∧ present.Fits
  | .ifArray _ _ array other => array.Fits ∧ other.Fits
  | .coalesce choices => choices ≠ [] ∧ Values.FitEach choices
  | _ => True

/-- `Values.Fits` of several list expressions. -/
def Values.FitEach : List Values → Prop
  | [] => True
  | v :: rest => v.Fits ∧ Values.FitEach rest

end

/-- How weakly a condition binds: 0 if it is closed, 1 for comparisons, 2, 3 and 4 for negation,
conjunction and disjunction. -/
def Cond.level : Cond → Nat
  | .literal _ | .contains .. | .someElement .. | .orFalse _ | .paren _ => 0
  | .equal .. | .isNull _ | .isNotNull _ | .isNotDistinct .. | .isDistinct .. | .notAmong ..
  | .noValues _ | .someValues _ => 1
  | .negate _ => 2
  | .both .. => 3
  | .either .. => 4

theorem Cond.level_le (c : Cond) : c.level ≤ 4 := by
  cases c <;> simp [Cond.level]

/-- Operands bind as strongly as their places ask for. -/
def Cond.Fits : Cond → Prop
  | .notAmong _ indices => indices ≠ []
  | .noValues v | .someValues v => v.Fits
  | .someElement v c => v.Fits ∧ c.Fits
  | .orFalse c | .paren c => c.Fits
  | .negate c => c.Fits ∧ c.level ≤ 1
  | .both a b => (a.Fits ∧ a.level ≤ 3) ∧ b.Fits ∧ b.level ≤ 2
  | .either a b => a.Fits ∧ b.Fits ∧ b.level ≤ 3
  | _ => True

namespace Phrase

/-- The level of a condition; all other expressions are closed. -/
def level : Phrase → Nat
  | .cond c => c.level
  | _ => 0

/-- The expression fits together. -/
def Fits : Phrase → Prop
  | .term _ => True
  | .values v => v.Fits
  | .cond c => c.Fits

end Phrase

theorem Values.fitEach_iff {vs : List Values} : FitEach vs ↔ ∀ v ∈ vs, v.Fits := by
  induction vs with
  | nil => simp [FitEach]
  | cons v rest ih => rw [FitEach, ih, List.forall_mem_cons]

/-! ### Closed forms -/

/-- The words that compare what stands before them. -/
def comparisonWords : List String :=
  [" = ", " IS NULL", " IS NOT NULL", " IS NOT DISTINCT FROM ", " IS DISTINCT FROM ", " NOT IN ("]

/-- The words that take what stands before them as an operand of a conjunction or stronger. -/
def andWords : List String := " AND " :: comparisonWords

/-- The words that take what stands before them as an operand. -/
def allWords : List String := " OR " :: andWords

section

variable {nested : Reader Phrase} {n : Nat}

/-- What is nested is read back as long as it is short enough. -/
def ReadsNested (nested : Reader Phrase) (n : Nat) : Prop :=
  ∀ p : Phrase, p.Fits → p.render.length < n → ∀ rest, Ends allWords rest →
    nested (p.render.toList ++ rest) = some (p, rest)

theorem nestedTerm_append (h : ReadsNested nested n) {t : Term} (ht : t.render.length < n)
    {rest : List Char} (hr : Ends allWords rest) :
    nestedTerm nested (t.render.toList ++ rest) = some (t, rest) := by
  rw [nestedTerm, narrow, show t.render = (Phrase.term t).render from rfl,
    h (.term t) trivial ht rest hr]
  rfl

theorem nestedValues_append (h : ReadsNested nested n) {v : Values} (hv : v.Fits)
    (hlen : v.render.length < n) {rest : List Char} (hr : Ends allWords rest) :
    nestedValues nested (v.render.toList ++ rest) = some (v, rest) := by
  rw [nestedValues, narrow, show v.render = (Phrase.values v).render from rfl,
    h (.values v) hv hlen rest hr]
  rfl

theorem nestedCond_append (h : ReadsNested nested n) {c : Cond} (hc : c.Fits)
    (hlen : c.render.length < n) {rest : List Char} (hr : Ends allWords rest) :
    nestedCond nested (c.render.toList ++ rest) = some (c, rest) := by
  rw [nestedCond, narrow, show c.render = (Phrase.cond c).render from rfl,
    h (.cond c) hc hlen rest hr]
  rfl

theorem primary_term (h : ReadsNested nested n) {t : Term} (hn : t.render.length ≤ n)
    {rest : List Char} (hr : Ends [] rest) :
    primary nested (t.render.toList ++ rest) = some (.term t, rest) := by
  cases t with
  | bound i =>
    rw [Term.render, placeholder, String.toList_append, List.append_assoc, primary, choose_here,
      narrow, readName_append i hr]
    rfl
  | sourceId =>
    rw [Term.render]
    simp (disch := decide) only [primary, choose_here, choose_later]
  | element =>
    rw [Term.render]
    simp (disch := decide) only [primary, choose_here, choose_later]
  | member origin key =>
    have hm := readMember_append (.inl rfl) origin key hr
    rw [Term.render, String.toList_append, String.toList_append, List.append_assoc,
      List.append_assoc]
    revert hm
    cases origin <;> intro hm <;> simp only [columnName] at hm ⊢ <;>
      simp (disch := decide) only [primary, choose, narrow, hm] <;> rfl
  | btrim t =>
    have hlen : t.render.length < n := by
      have hpos : 0 < "btrim(".length := by decide
      simp only [Term.render, String.length_append] at hn
      omega
    simp only [Term.render, String.toList_append, List.append_assoc]
    simp (disch := decide) only [primary, choose_here, choose_later, readWrapped]
    rw [nestedTerm_append h hlen (ends_append (by decide) _)]
    simp only [Option.bind_eq_bind, Option.bind_some, word_append]
  | nullIfEmpty t =>
    have hlen : t.render.length < n := by
      have hpos : 0 < "NULLIF(".length := by decide
      simp only [Term.render, String.length_append] at hn
      omega
    simp only [Term.render, String.toList_append, List.append_assoc]
    simp (disch := decide) only [primary, choose_here, choose_later, readWrapped]
    rw [nestedTerm_append h hlen (ends_append (by decide) _)]
    simp only [Option.bind_eq_bind, Option.bind_some, word_append]

theorem length_le_commas {s : String} {l : List String} (hs : s ∈ l) :
    s.length ≤ (", ".intercalate l).length := by
  induction l with
  | nil => cases hs
  | cons first rest ih =>
    cases rest with
    | nil =>
      obtain rfl := List.mem_singleton.mp hs
      exact Nat.le_of_eq (congrArg String.length String.intercalate_singleton.symm)
    | cons second rest =>
      rw [String.intercalate_cons_cons, String.length_append, String.length_append]
      rcases List.mem_cons.mp hs with rfl | hs
      · omega
      · have := ih hs
        omega

theorem separated_bounds (h : ReadsNested nested n) {first : Nat} {rest : List Nat}
    (hlen : (placeholders (first :: rest)).length < n) {after : List Char}
    (hr : Ends (", " :: allWords) after) :
    separated ", " (nestedTerm nested) ((placeholders (first :: rest)).toList ++ after) =
      some ((first :: rest).map .bound, after) := by
  have htext : (placeholders (first :: rest)).toList = (Term.bound first).render.toList ++
      (rest.map Term.bound).flatMap fun t => ", ".toList ++ (Term.render t).toList := by
    rw [placeholders, List.map_cons, toList_commas, List.flatMap_map, List.flatMap_map]
    rfl
  rw [htext, List.append_assoc, List.map_cons]
  refine separated_append (fun t : Term => t.render.toList) ?_ (by decide) hr
  intro t ht after hr
  rw [← List.map_cons] at ht
  obtain ⟨i, hi, rfl⟩ := List.mem_map.mp ht
  have hle := length_le_commas (List.mem_map_of_mem (f := placeholder) hi)
  have hi : (placeholder i).length < n := Nat.lt_of_le_of_lt hle hlen
  exact nestedTerm_append (t := .bound i) h hi hr

theorem readBranches_append (h : ReadsNested nested n) {v w : Values} (hv : v.Fits) (hw : w.Fits)
    (hvn : v.render.length < n) (hwn : w.render.length < n) (choice : Values → Values → Values)
    (rest : List Char) :
    readBranches nested choice (v.render.toList ++ (" ELSE ".toList ++ (w.render.toList ++
      (" END)".toList ++ rest)))) = some (.values (choice v w), rest) := by
  rw [readBranches, nestedValues_append h hv hvn (ends_append (by decide) _)]
  simp only [Option.bind_eq_bind, Option.bind_some, word_append]
  rw [nestedValues_append h hw hwn (ends_append (by decide) _)]
  simp only [Option.bind_some, word_append]

/-- A parenthesis with a query or a case distinction is not taken for a condition. -/
theorem readParenthesis_word {w : String} {rest : List Char}
    (hnone : nested (w.toList ++ rest) = none) :
    readParenthesis nested (w.toList ++ rest) =
      choose (fun _ => none)
        [("CASE WHEN ", readIfNull nested), ("CASE jsonb_typeof(", readIfArray nested),
          ("SELECT array_agg(", readElements nested)] (w.toList ++ rest) := by
  rw [readParenthesis, hnone]

theorem primary_bounds (h : ReadsNested nested n) {is : List Nat} (hv : is ≠ [])
    (hn : (Values.bounds is).render.length ≤ n) (rest : List Char) :
    primary nested ((Values.bounds is).render.toList ++ rest) =
      some (.values (.bounds is), rest) := by
  obtain ⟨first, more, rfl⟩ := List.exists_cons_of_ne_nil hv
  have hlen : (placeholders (first :: more)).length < n := by
    have hpos : 0 < "ARRAY[".length := by decide
    simp only [Values.render_bounds, String.length_append] at hn
    omega
  have hsplit : "]::text[]".toList = "]".toList ++ "::text[]".toList := rfl
  have hindices : ((first :: more).map Term.bound).mapM Term.index? = some (first :: more) := by
    induction first :: more with
    | nil => rfl
    | cons i is ih => rw [List.map_cons, List.mapM_cons, ih]; rfl
  simp only [Values.render_bounds, String.toList_append, List.append_assoc]
  simp (disch := decide) only [primary, choose_here, choose_later, readArray]
  rw [separated_bounds h hlen (ends_append (by decide) _), hsplit]
  simp only [Option.bind_eq_bind, Option.bind_some, word_append, List.append_assoc]
  rw [hindices]
  rfl

theorem primary_single (h : ReadsNested nested n) {t : Term}
    (hn : (Values.single t).render.length ≤ n) {rest : List Char} (hr : Ends [] rest) :
    primary nested ((Values.single t).render.toList ++ rest) =
      some (.values (.single t), rest) := by
  have hlen : t.render.length < n := by
    have hpos : 0 < "ARRAY[".length := by decide
    simp only [Values.render_single, String.length_append] at hn
    omega
  have hcast : word "::text[]" rest = none := by
    cases rest with
    | nil => rfl
    | cons c cs =>
      have hc := (hr.head c (by simp)).2
      have hc' : (':' == c) = false := by simpa using Ne.symm hc
      rw [word, show "::text[]".toList = ':' :: ":text[]".toList from rfl, isPrefixOf?_cons, hc']
      rfl
  have hitem : ∀ u ∈ [t], ∀ rest, Ends allWords rest →
      nestedTerm nested (u.render.toList ++ rest) = some (u, rest) := by
    intro u hu rest hr
    obtain rfl := List.mem_singleton.mp hu
    exact nestedTerm_append h hlen hr
  have hend : Ends (", " :: allWords) ("]".toList ++ rest) := ends_append (by decide) rest
  have hsep := separated_append (fun t : Term => t.render.toList) hitem (by decide) hend
  rw [List.flatMap_nil, List.nil_append] at hsep
  simp only [Values.render_single, String.toList_append, List.append_assoc]
  simp (disch := decide) only [primary, choose_here, choose_later, readArray]
  rw [hsep]
  simp only [Option.bind_eq_bind, Option.bind_some, word_append, hcast]

theorem primary_ifNull (h : ReadsNested nested n)
    (hcase : ∀ rest, nested ("CASE ".toList ++ rest) = none) {t : Term} {missing present : Values}
    (hv : missing.Fits ∧ present.Fits) (hn : (Values.ifNull t missing present).render.length ≤ n)
    (rest : List Char) :
    primary nested ((Values.ifNull t missing present).render.toList ++ rest) =
      some (.values (.ifNull t missing present), rest) := by
  have hlen : (Cond.isNull t).render.length < n ∧ missing.render.length < n ∧
      present.render.length < n := by
    have hpos : 0 < "(CASE WHEN ".length := by decide
    have hle : " IS NULL".length ≤ " IS NULL THEN ".length := by decide
    simp only [Values.render_ifNull, Cond.render_isNull, String.length_append] at hn ⊢
    omega
  have htext : (Values.ifNull t missing present).render.toList ++ rest =
      "(".toList ++ ("CASE WHEN ".toList ++ ((Cond.isNull t).render.toList ++
        (" THEN ".toList ++ (missing.render.toList ++ (" ELSE ".toList ++
          (present.render.toList ++ (" END)".toList ++ rest))))))) := by
    simp only [Values.render_ifNull, Cond.render_isNull, String.toList_append, List.append_assoc]
    rfl
  have hnone : ∀ rest, nested ("CASE WHEN ".toList ++ rest) = none := fun rest =>
    hcase ("WHEN ".toList ++ rest)
  rw [htext]
  simp (disch := decide) only [primary, choose_here, choose_later]
  rw [readParenthesis_word (hnone _), choose_here, readIfNull,
    nestedCond_append h (c := .isNull t) trivial hlen.1 (ends_append (by decide) _)]
  simp only [Option.bind_eq_bind, Option.bind_some, word_append]
  exact readBranches_append h hv.1 hv.2 hlen.2.1 hlen.2.2 _ rest

theorem primary_ifArray (h : ReadsNested nested n)
    (hcase : ∀ rest, nested ("CASE ".toList ++ rest) = none) {origin : Origin} {key : Nat}
    {array other : Values} (hv : array.Fits ∧ other.Fits)
    (hn : (Values.ifArray origin key array other).render.length ≤ n) (rest : List Char) :
    primary nested ((Values.ifArray origin key array other).render.toList ++ rest) =
      some (.values (.ifArray origin key array other), rest) := by
  have hlen : array.render.length < n ∧ other.render.length < n := by
    have hpos : 0 < "(CASE jsonb_typeof(".length := by decide
    simp only [Values.render_ifArray, String.length_append] at hn
    omega
  have htext : (Values.ifArray origin key array other).render.toList ++ rest =
      "(".toList ++ ("CASE jsonb_typeof(".toList ++ ((columnName origin).toList ++
        (" -> ".toList ++ ((placeholder key).toList ++ (") WHEN 'array' THEN ".toList ++
          (array.render.toList ++ (" ELSE ".toList ++ (other.render.toList ++
            (" END)".toList ++ rest))))))))) := by
    simp only [Values.render_ifArray, String.toList_append, List.append_assoc]
    rfl
  have hnone : ∀ rest, nested ("CASE jsonb_typeof(".toList ++ rest) = none := fun rest =>
    hcase ("jsonb_typeof(".toList ++ rest)
  rw [htext]
  simp (disch := decide) only [primary, choose_here, choose_later]
  rw [readParenthesis_word (hnone _)]
  simp (disch := decide) only [choose_here, choose_later, readIfArray]
  rw [readMember_append (.inr rfl) origin key (@ends_append [] _ (by decide) _)]
  simp only [Option.bind_eq_bind, Option.bind_some, word_append]
  exact readBranches_append h hv.1 hv.2 hlen.1 hlen.2 _ rest

theorem primary_elements (h : ReadsNested nested n)
    (hselect : ∀ rest, nested ("SELECT ".toList ++ rest) = none) {item kept : Term}
    {origin : Origin} {key : Nat} (hn : (Values.elements item origin key kept).render.length ≤ n)
    (rest : List Char) :
    primary nested ((Values.elements item origin key kept).render.toList ++ rest) =
      some (.values (.elements item origin key kept), rest) := by
  have hlen : item.render.length < n ∧ (Cond.isNotNull kept).render.length < n := by
    have hpos : 0 < "(SELECT array_agg(".length := by decide
    have hle : " IS NOT NULL".length ≤ " IS NOT NULL)".length := by decide
    simp only [Values.render_elements, Cond.render_isNotNull, String.length_append] at hn ⊢
    omega
  have htext : (Values.elements item origin key kept).render.toList ++ rest =
      "(".toList ++ ("SELECT array_agg(".toList ++ (item.render.toList ++
        (") FROM jsonb_array_elements_text(".toList ++ ((columnName origin).toList ++
          (" -> ".toList ++ ((placeholder key).toList ++ (") AS el WHERE ".toList ++
            ((Cond.isNotNull kept).render.toList ++ (")".toList ++ rest))))))))) := by
    simp only [Values.render_elements, Cond.render_isNotNull, String.toList_append,
      List.append_assoc]
    rfl
  have hnone : ∀ rest, nested ("SELECT array_agg(".toList ++ rest) = none := fun rest =>
    hselect ("array_agg(".toList ++ rest)
  rw [htext]
  simp (disch := decide) only [primary, choose_here, choose_later]
  rw [readParenthesis_word (hnone _)]
  simp (disch := decide) only [choose_here, choose_later, readElements]
  rw [nestedTerm_append h hlen.1 (ends_append (by decide) _)]
  simp only [Option.bind_eq_bind, Option.bind_some, word_append]
  rw [readMember_append (.inr rfl) origin key (@ends_append [] _ (by decide) _)]
  simp only [Option.bind_some, word_append]
  rw [nestedCond_append h (c := .isNotNull kept) trivial hlen.2 (ends_append (by decide) _)]
  simp only [Option.bind_some, word_append]

theorem primary_coalesce (h : ReadsNested nested n) {choices : List Values}
    (hv : (Values.coalesce choices).Fits) (hn : (Values.coalesce choices).render.length ≤ n)
    (rest : List Char) :
    primary nested ((Values.coalesce choices).render.toList ++ rest) =
      some (.values (.coalesce choices), rest) := by
  obtain ⟨first, more, rfl⟩ := List.exists_cons_of_ne_nil hv.1
  have hfits := Values.fitEach_iff.mp hv.2
  have hlen : ∀ v ∈ first :: more, v.render.length < n := by
    intro v hv
    have hle := length_le_commas (List.mem_map_of_mem (f := Values.render) hv)
    have hpos : 0 < "COALESCE(".length := by decide
    simp only [Values.render_coalesce, String.length_append] at hn
    omega
  have hitem : ∀ v ∈ more, ∀ rest, Ends allWords rest →
      nestedValues nested (v.render.toList ++ rest) = some (v, rest) := fun v hv rest hr =>
    nestedValues_append h (hfits v (List.mem_cons_of_mem _ hv))
      (hlen v (List.mem_cons_of_mem _ hv)) hr
  have hend : Ends (", " :: allWords) (")".toList ++ rest) := ends_append (by decide) rest
  have hmore := readMore_append (fun v : Values => v.render.toList) hitem (by decide) hend
  have hfirst := h (.values first) (hfits first (List.mem_cons_self ..))
    (hlen first (List.mem_cons_self ..))
    (more.flatMap (fun v => ", ".toList ++ v.render.toList) ++ (")".toList ++ rest))
    (ends_items (by decide) (ends_append (by decide) _))
  simp only [Values.render_coalesce, String.toList_append, List.append_assoc, List.map_cons,
    toList_commas, List.flatMap_map]
  simp (disch := decide) only [primary, choose_here, choose_later, readCoalesce]
  rw [show first.render = (Phrase.values first).render from rfl, hfirst]
  simp only [Option.bind_eq_bind, Option.bind_some, hmore, word_append]

theorem primary_values (h : ReadsNested nested n)
    (hcase : ∀ rest, nested ("CASE ".toList ++ rest) = none)
    (hselect : ∀ rest, nested ("SELECT ".toList ++ rest) = none)
    {v : Values} (hv : v.Fits) (hn : v.render.length ≤ n)
    {rest : List Char} (hr : Ends [] rest) :
    primary nested (v.render.toList ++ rest) = some (.values v, rest) := by
  cases v with
  | null =>
    rw [Values.render_null]
    simp (disch := decide) only [primary, choose_here, choose_later]
  | bounds is => exact primary_bounds h hv hn rest
  | single t => exact primary_single h hn hr
  | ifNull t missing present => exact primary_ifNull h hcase hv hn rest
  | ifArray origin key array other => exact primary_ifArray h hcase hv hn rest
  | elements item origin key kept => exact primary_elements h hselect hn rest
  | coalesce choices => exact primary_coalesce h hv hn rest

theorem primary_cond (h : ReadsNested nested n) {c : Cond} (hc : c.Fits) (h0 : c.level = 0)
    (hn : c.render.length ≤ n) {rest : List Char} :
    primary nested (c.render.toList ++ rest) = some (.cond c, rest) := by
  cases c with
  | literal value =>
    cases value with
    | true =>
      rw [Cond.render_true]
      simp (disch := decide) only [primary, choose_here, choose_later]
    | false =>
      rw [Cond.render_false]
      simp (disch := decide) only [primary, choose_here, choose_later]
  | contains haystack needle =>
    have hlen : haystack.render.length < n ∧ needle.render.length < n := by
      have hpos : 0 < "strpos(lower(".length := by decide
      simp only [Cond.render_contains, String.length_append] at hn
      omega
    simp only [Cond.render_contains, String.toList_append, List.append_assoc]
    simp (disch := decide) only [primary, choose_here, choose_later, readContains]
    rw [nestedTerm_append h hlen.1 (ends_append (by decide) _)]
    simp only [Option.bind_eq_bind, Option.bind_some, word_append]
    rw [nestedTerm_append h hlen.2 (ends_append (by decide) _)]
    simp only [Option.bind_some, word_append]
  | someElement v c =>
    have hlen : v.render.length < n ∧ c.render.length < n := by
      have hpos : 0 < "EXISTS (SELECT 1 FROM unnest(".length := by decide
      simp only [Cond.render_someElement, String.length_append] at hn
      omega
    simp only [Cond.render_someElement, String.toList_append, List.append_assoc]
    simp (disch := decide) only [primary, choose_here, choose_later, readExists]
    rw [nestedValues_append h hc.1 hlen.1 (ends_append (by decide) _)]
    simp only [Option.bind_eq_bind, Option.bind_some, word_append]
    rw [nestedCond_append h hc.2 hlen.2 (ends_append (by decide) _)]
    simp only [Option.bind_some, word_append]
  | orFalse c =>
    have hlen : c.render.length < n := by
      have hpos : 0 < "COALESCE(".length := by decide
      simp only [Cond.render_orFalse, String.length_append] at hn
      omega
    have hread := h (.cond c) hc hlen (", FALSE)".toList ++ rest) (ends_append (by decide) _)
    simp only [Cond.render_orFalse, String.toList_append, List.append_assoc]
    simp (disch := decide) only [primary, choose_here, choose_later, readCoalesce]
    rw [show c.render = (Phrase.cond c).render from rfl, hread]
    simp only [Option.bind_eq_bind, Option.bind_some, word_append]
  | paren c =>
    have hlen : c.render.length < n := by
      have hpos : 0 < "(".length := by decide
      simp only [Cond.render_paren, String.length_append] at hn
      omega
    have hread := h (.cond c) hc hlen (")".toList ++ rest) (ends_append (by decide) _)
    simp only [Cond.render_paren, String.toList_append, List.append_assoc]
    simp (disch := decide) only [primary, choose_here, choose_later, readParenthesis]
    rw [show c.render = (Phrase.cond c).render from rfl, hread]
    simp only [Phrase.cond?, Option.bind_eq_bind, Option.bind_some, word_append]
  | _ => cases h0

end

/-! ### Precedence -/

section

variable {item : Reader Phrase} {n : Nat}

/-- Expressions up to a level are read back before anything that ends them. -/
def ReadsUpTo (item : Reader Phrase) (n : Nat) (level : Nat) (words : List String) : Prop :=
  ∀ p : Phrase, p.Fits → p.level ≤ level → p.render.length ≤ n → ∀ rest, Ends words rest →
    item (p.render.toList ++ rest) = some (p, rest)

theorem primary_reads {nested : Reader Phrase} (h : ReadsNested nested n)
    (hcase : ∀ rest, nested ("CASE ".toList ++ rest) = none)
    (hselect : ∀ rest, nested ("SELECT ".toList ++ rest) = none) :
    ReadsUpTo (primary nested) n 0 [] := by
  intro p hp hl hn rest hr
  cases p with
  | term t => exact primary_term h hn hr
  | values v => exact primary_values h hcase hselect hp hn hr
  | cond c => exact primary_cond h hp (Nat.le_zero.mp hl) hn

theorem nestedTerm_reads (h : ReadsUpTo item n 0 []) {t : Term} (hn : t.render.length ≤ n)
    {rest : List Char} (hr : Ends [] rest) :
    nestedTerm item (t.render.toList ++ rest) = some (t, rest) := by
  rw [nestedTerm, narrow, show t.render = (Phrase.term t).render from rfl,
    h (.term t) trivial (Nat.le_refl 0) hn rest hr]
  rfl

theorem comparison_term (h : ReadsUpTo item n 0 []) {t : Term} (hn : t.render.length ≤ n)
    {rest : List Char} (hr : Ends [] rest) :
    comparison item (t.render.toList ++ rest) =
      choose (fun cs => some (.term t, cs))
        [(" = ", narrow (fun b => some (.cond (.equal t b))) (nestedTerm item)),
          (" IS NULL", fun cs => some (.cond (.isNull t), cs)),
          (" IS NOT NULL", fun cs => some (.cond (.isNotNull t), cs)),
          (" IS NOT DISTINCT FROM ",
            narrow (fun b => some (.cond (.isNotDistinct t b))) (nestedTerm item)),
          (" IS DISTINCT FROM ",
            narrow (fun b => some (.cond (.isDistinct t b))) (nestedTerm item)),
          (" NOT IN (", fun cs => do
            let (indices, cs) ← separated ", " readPlaceholder cs
            some (.cond (.notAmong t indices), ← word ")" cs))] rest := by
  rw [comparison, show t.render = (Phrase.term t).render from rfl,
    h (.term t) trivial (Nat.le_refl 0) hn rest hr]
  rfl

theorem comparison_values (h : ReadsUpTo item n 0 []) {v : Values} (hv : v.Fits)
    (hn : v.render.length ≤ n) {rest : List Char} (hr : Ends [] rest) :
    comparison item (v.render.toList ++ rest) =
      choose (fun cs => some (.values v, cs))
        [(" IS NULL", fun cs => some (.cond (.noValues v), cs)),
          (" IS NOT NULL", fun cs => some (.cond (.someValues v), cs))] rest := by
  rw [comparison, show v.render = (Phrase.values v).render from rfl,
    h (.values v) hv (Nat.le_refl 0) hn rest hr]
  rfl

theorem comparison_cond (h : ReadsUpTo item n 0 []) {c : Cond} (hc : c.Fits) (h1 : c.level = 1)
    (hn : c.render.length ≤ n) {rest : List Char} (hr : Ends [] rest) :
    comparison item (c.render.toList ++ rest) = some (.cond c, rest) := by
  cases c with
  | equal a b =>
    simp only [Cond.render_equal, String.length_append] at hn
    simp only [Cond.render_equal, String.toList_append, List.append_assoc]
    rw [comparison_term h (by omega) (ends_append (by decide) _), choose_here, narrow,
      nestedTerm_reads h (by omega) hr]
    rfl
  | isNull t =>
    simp only [Cond.render_isNull, String.length_append] at hn
    simp only [Cond.render_isNull, String.toList_append, List.append_assoc]
    rw [comparison_term h (by omega) (ends_append (by decide) _)]
    simp (disch := decide) only [choose_here, choose_later]
  | isNotNull t =>
    simp only [Cond.render_isNotNull, String.length_append] at hn
    simp only [Cond.render_isNotNull, String.toList_append, List.append_assoc]
    rw [comparison_term h (by omega) (ends_append (by decide) _)]
    simp (disch := decide) only [choose_here, choose_later]
  | isNotDistinct a b =>
    simp only [Cond.render_isNotDistinct, String.length_append] at hn
    simp only [Cond.render_isNotDistinct, String.toList_append, List.append_assoc]
    rw [comparison_term h (by omega) (ends_append (by decide) _)]
    simp (disch := decide) only [choose_here, choose_later, narrow]
    rw [nestedTerm_reads h (by omega) hr]
    rfl
  | isDistinct a b =>
    simp only [Cond.render_isDistinct, String.length_append] at hn
    simp only [Cond.render_isDistinct, String.toList_append, List.append_assoc]
    rw [comparison_term h (by omega) (ends_append (by decide) _)]
    simp (disch := decide) only [choose_here, choose_later, narrow]
    rw [nestedTerm_reads h (by omega) hr]
    rfl
  | notAmong t is =>
    obtain ⟨first, more, rfl⟩ := List.exists_cons_of_ne_nil hc
    have hitem : ∀ i ∈ first :: more, ∀ rest, Ends [] rest →
        readPlaceholder ((placeholder i).toList ++ rest) = some (i, rest) := fun i _ _ hr =>
      readPlaceholder_append i hr
    have hend : Ends [", "] (")".toList ++ rest) := ends_append (by decide) rest
    have hsep := separated_append (fun i => (placeholder i).toList) hitem (by decide) hend
    simp only [Cond.render_notAmong, String.length_append] at hn
    simp only [Cond.render_notAmong, String.toList_append, List.append_assoc, placeholders,
      List.map_cons, toList_commas, List.flatMap_map]
    rw [comparison_term h (by omega) (ends_append (by decide) _)]
    simp (disch := decide) only [choose_here, choose_later]
    rw [hsep]
    simp only [Option.bind_eq_bind, Option.bind_some, word_append]
  | noValues v =>
    simp only [Cond.render_noValues, String.length_append] at hn
    simp only [Cond.render_noValues, String.toList_append, List.append_assoc]
    rw [comparison_values h hc (by omega) (ends_append (by decide) _), choose_here]
  | someValues v =>
    simp only [Cond.render_someValues, String.length_append] at hn
    simp only [Cond.render_someValues, String.toList_append, List.append_assoc]
    rw [comparison_values h hc (by omega) (ends_append (by decide) _)]
    simp (disch := decide) only [choose_here, choose_later]
  | _ => cases h1

theorem comparison_reads (h : ReadsUpTo item n 0 []) :
    ReadsUpTo (comparison item) n 1 comparisonWords := by
  intro p hp hl hn rest hr
  have hr0 : Ends [] rest := hr.mono (by simp)
  cases p with
  | term t =>
    rw [Phrase.render, comparison_term h hn hr0, choose_of_none]
    intro entry he
    exact hr.word entry.1 (by
      simp only [List.mem_cons, List.not_mem_nil, or_false] at he
      rcases he with rfl | rfl | rfl | rfl | rfl | rfl <;> simp [comparisonWords])
  | values v =>
    rw [Phrase.render, comparison_values h hp hn hr0, choose_of_none]
    intro entry he
    exact hr.word entry.1 (by
      simp only [List.mem_cons, List.not_mem_nil, or_false] at he
      rcases he with rfl | rfl <;> simp [comparisonWords])
  | cond c =>
    by_cases h0 : c.level = 0
    · rw [comparison, h (.cond c) hp (Nat.le_of_eq h0) hn rest hr0]
      rfl
    · exact comparison_cond h hp (by have : c.level ≤ 1 := hl; omega) hn hr0

theorem negation_reads {words : List String} (h : ReadsUpTo item n 1 words)
    (hnot : ∀ rest, item ("NOT ".toList ++ rest) = none) :
    ReadsUpTo (negation item) n 2 words := by
  intro p hp hl hn rest hr
  by_cases h1 : p.level ≤ 1
  · rw [negation, h p hp h1 hn rest hr]
  · obtain ⟨c, rfl⟩ : ∃ c, p = .cond (.negate c) := by
      cases p with
      | cond c =>
        cases c with
        | negate c => exact ⟨c, rfl⟩
        | _ => simp [Phrase.level, Cond.level] at hl h1
      | _ => exact absurd (Nat.zero_le 1) h1
    have hlen : c.render.length ≤ n := by
      simp only [Phrase.render, Cond.render_negate, String.length_append] at hn
      omega
    have hread := h (.cond c) hp.1 hp.2 hlen rest hr
    simp only [Phrase.render, Cond.render_negate, String.toList_append, List.append_assoc]
    rw [negation, hnot, word_append]
    simp only [nestedCond, narrow, Option.bind_eq_bind, Option.bind_some]
    rw [show c.render = (Phrase.cond c).render from rfl, hread]
    rfl

/-! ### Operands joined from the left -/

section

variable {operator : String} {op : Cond → Cond → Cond} {level : Nat}

/-- A condition of a level is joined from conditions below it. -/
theorem exists_joined (hrender : ∀ a b, (op a b).render = a.render ++ operator ++ b.render)
    (hsplit : ∀ c : Cond, c.Fits → c.level ≤ level + 1 → c.level ≤ level ∨
      ∃ a b, c = op a b ∧ (a.Fits ∧ a.level ≤ level + 1) ∧ b.Fits ∧ b.level ≤ level)
    (hpos : 0 < operator.length) {c : Cond} (hc : c.Fits) (hl : c.level ≤ level + 1) :
    ∃ first rest, c = Cond.joined op first rest ∧
      (∀ d ∈ first :: rest, d.Fits ∧ d.level ≤ level ∧ d.render.length ≤ c.render.length) ∧
      c.render.toList = first.render.toList ++
        rest.flatMap fun d => operator.toList ++ d.render.toList := by
  induction hn : c.render.length using Nat.strongRecOn generalizing c with
  | _ n ih =>
    rcases hsplit c hc hl with hlow | ⟨a, b, rfl, ⟨ha, hal⟩, hb, hbl⟩
    · refine ⟨c, [], rfl, fun d hd => ?_, by simp⟩
      obtain rfl := List.mem_singleton.mp hd
      exact ⟨hc, hlow, Nat.le_of_eq hn⟩
    · have hlen : (op a b).render.length = a.render.length + operator.length + b.render.length := by
        rw [hrender, String.length_append, String.length_append]
      obtain ⟨first, rest, rfl, hall, htext⟩ := ih a.render.length (by omega) ha hal rfl
      refine ⟨first, rest ++ [b], ?_, fun d hd => ?_, ?_⟩
      · simp [Cond.joined, List.foldl_append]
      · rw [← List.cons_append, List.mem_append] at hd
        rcases hd with hd | hd
        · obtain ⟨hf, hdl, hle⟩ := hall d hd
          exact ⟨hf, hdl, by omega⟩
        · obtain rfl := List.mem_singleton.mp hd
          exact ⟨hb, hbl, by omega⟩
      · rw [hrender, String.toList_append, String.toList_append, htext, List.flatMap_append]
        simp

theorem join_conds (first second : Cond) (rest : List Cond) :
    Phrase.join op ((first :: second :: rest).map .cond) =
      some (.cond (Cond.joined op first (second :: rest))) := by
  have hmap : ∀ cs : List Cond, (cs.map Phrase.cond).mapM Phrase.cond? = some cs := by
    intro cs
    induction cs with
    | nil => rfl
    | cons c cs ih => rw [List.map_cons, List.mapM_cons, ih]; rfl
  simp only [List.map_cons, Phrase.join]
  rw [← List.map_cons, hmap]
  rfl

theorem joinedBy_reads {words : List String} (h : ReadsUpTo item n level words)
    (hrender : ∀ a b, (op a b).render = a.render ++ operator ++ b.render)
    (hsplit : ∀ c : Cond, c.Fits → c.level ≤ level + 1 → c.level ≤ level ∨
      ∃ a b, c = op a b ∧ (a.Fits ∧ a.level ≤ level + 1) ∧ b.Fits ∧ b.level ≤ level)
    (hpos : 0 < operator.length) (hsep : endsAll words operator.toList = true) :
    ReadsUpTo (joinedBy item operator op) n (level + 1) (operator :: words) := by
  intro p hp hl hn rest hr
  have hsingle : p.level ≤ level →
      joinedBy item operator op (p.render.toList ++ rest) = some (p, rest) := by
    intro hlow
    have hitem : ∀ q ∈ [p], ∀ rest, Ends words rest →
        item (q.render.toList ++ rest) = some (q, rest) := by
      intro q hq rest hr
      obtain rfl := List.mem_singleton.mp hq
      exact h q hp hlow hn rest hr
    have hsepd := separated_append (fun p : Phrase => p.render.toList) hitem hsep hr
    rw [List.flatMap_nil, List.nil_append] at hsepd
    rw [joinedBy, narrow, hsepd]
    rfl
  cases p with
  | term t => exact hsingle (Nat.zero_le level)
  | values v => exact hsingle (Nat.zero_le level)
  | cond c =>
    obtain ⟨first, more, hjoin, hall, htext⟩ := exists_joined hrender hsplit hpos hp hl
    cases more with
    | nil =>
      obtain rfl := hjoin
      exact hsingle (hall c (List.mem_cons_self ..)).2.1
    | cons second more =>
      have hitem : ∀ q ∈ Phrase.cond first :: (second :: more).map .cond, ∀ rest,
          Ends words rest → item (q.render.toList ++ rest) = some (q, rest) := by
        intro q hq rest hr
        rw [← List.map_cons] at hq
        obtain ⟨d, hd, rfl⟩ := List.mem_map.mp hq
        obtain ⟨hf, hdl, hle⟩ := hall d hd
        exact h (.cond d) hf hdl (Nat.le_trans hle hn) rest hr
      have hsepd := separated_append (fun p : Phrase => p.render.toList) hitem hsep hr
      rw [List.flatMap_map] at hsepd
      rw [Phrase.render, htext, List.append_assoc, joinedBy, narrow]
      simp only [Phrase.render] at hsepd
      rw [hsepd]
      simp only [Option.bind_eq_bind, Option.bind_some]
      rw [← List.map_cons, join_conds, hjoin]
      rfl

end

end

/-! ### All levels -/

/-- Nothing is read if neither a closed form nor a negation is there. -/
theorem readPhrase_eq_none {cs : List Char} (hprimary : ∀ nested, primary nested cs = none)
    (hnot : word "NOT " cs = none) (n : Nat) : readPhrase n cs = none := by
  cases n with
  | zero => rfl
  | succ n =>
    have hneg : negation (comparison (primary (readPhrase n))) cs = none := by
      rw [negation, comparison, hprimary, hnot]
      rfl
    rw [readPhrase, joinedBy, narrow, separated, joinedBy, narrow, separated, hneg]
    rfl

/-- No closed form begins like this. -/
theorem primary_eq_none {cs : List Char}
    (h : ∀ w ∈ [":", "d.source_id", "el", "btrim(", "NULLIF(", "NULL::text[]", "ARRAY[",
      "COALESCE(", "TRUE", "FALSE", "EXISTS (SELECT 1 FROM unnest(", "strpos(lower(", "("],
      differ w.toList cs = true)
    (hmember : ∀ origin, differ (columnName origin ++ " ->> ").toList cs = true)
    (rest : List Char) (nested : Reader Phrase) : primary nested (cs ++ rest) = none := by
  have hcolumn : readMember " ->> " (cs ++ rest) = none := by
    rw [readMember, choose_of_none]
    intro entry he
    obtain ⟨origin, -, rfl⟩ := List.mem_map.mp he
    exact word_of_differ (hmember origin) rest
  rw [primary, choose_of_none, narrow, hcolumn]
  · rfl
  · intro entry he
    refine word_of_differ (h entry.1 ?_) rest
    simpa using List.mem_map_of_mem (f := Prod.fst) he

/-- The text of an expression reads as the expression, before anything that ends it. -/
theorem readPhrase_render (n : Nat) : ReadsNested (readPhrase n) n := by
  induction n with
  | zero => exact fun p _ hn => absurd hn (Nat.not_lt_zero _)
  | succ n ih =>
    have hcase : ∀ rest, readPhrase n ("CASE ".toList ++ rest) = none := fun rest =>
      readPhrase_eq_none (primary_eq_none (by decide) (by intro o; cases o <;> decide) rest)
        (word_of_differ (by decide) rest) n
    have hselect : ∀ rest, readPhrase n ("SELECT ".toList ++ rest) = none := fun rest =>
      readPhrase_eq_none (primary_eq_none (by decide) (by intro o; cases o <;> decide) rest)
        (word_of_differ (by decide) rest) n
    have hnot : ∀ rest, comparison (primary (readPhrase n)) ("NOT ".toList ++ rest) = none := by
      intro rest
      rw [comparison, primary_eq_none (by decide) (by intro o; cases o <;> decide)]
      rfl
    have hboth : ∀ c : Cond, c.Fits → c.level ≤ 2 + 1 → c.level ≤ 2 ∨
        ∃ a b, c = .both a b ∧ (a.Fits ∧ a.level ≤ 2 + 1) ∧ b.Fits ∧ b.level ≤ 2 := by
      intro c hc hl
      cases c with
      | both a b => exact .inr ⟨a, b, rfl, hc.1, hc.2⟩
      | either a b => exact absurd hl (Nat.not_succ_le_self 3)
      | _ => exact .inl (by simp [Cond.level])
    have heither : ∀ c : Cond, c.Fits → c.level ≤ 3 + 1 → c.level ≤ 3 ∨
        ∃ a b, c = .either a b ∧ (a.Fits ∧ a.level ≤ 3 + 1) ∧ b.Fits ∧ b.level ≤ 3 := by
      intro c hc hl
      cases c with
      | either a b => exact .inr ⟨a, b, rfl, ⟨hc.1, a.level_le⟩, hc.2⟩
      | _ => exact .inl (by simp [Cond.level])
    have hneg := negation_reads (comparison_reads (primary_reads ih hcase hselect)) hnot
    have hand := joinedBy_reads hneg Cond.render_both hboth (by decide) (by decide)
    have hor := joinedBy_reads hand Cond.render_either heither (by decide) (by decide)
    intro p hp hn rest hr
    refine hor p hp ?_ (Nat.le_of_lt_succ hn) rest hr
    cases p with
    | cond c => exact c.level_le
    | _ => exact Nat.zero_le _

/-- The text of a condition reads as the condition. -/
theorem Cond.read?_render {c : Cond} (hc : c.Fits) : read? c.render = some c := by
  have h := readPhrase_render (c.render.length + 1) (.cond c) hc (Nat.lt_succ_self _) []
    (ends_nil (by decide))
  rw [List.append_nil] at h
  have hread : readPhrase (c.render.length + 1) c.render.toList = some (.cond c, []) := h
  unfold read?
  rw [hread]

end CorpusAgent.Sql
