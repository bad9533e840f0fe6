import CorpusAgent.Proofs.Filter.Containment
import CorpusAgent.Proofs.Settings.Sound
import Mathlib.Data.List.Nodup

/-!
# Operators that ask for the opposite

`ne`, `not_exists` and `not_contains` ask of a list of texts the opposite of what `eq`, `exists` and
`contains` ask, except that neither `contains` nor `not_contains` holds for the value of nothing.  A
leaf on a field looks at several lists if the field has several rules for the source of the row, and
any of them will do, for an operator and for its opposite alike.

* `Condition.Opposes`: one condition asks for the opposite of another one.
* `Field.Agrees`: the rules for the source of a row give the same answer.
* `Field.holds_opposite_iff`: only then does a leaf hold exactly if its opposite does not.
* `satisfied_complement_iff`, `satisfied_opposite_iff`: the same of the predicates of both leaves,
  in valid settings; the rules agree if no source has two of them.
* `both_satisfied_of_repeated_source`: valid settings may have two rules for a source, and then both
  predicates can be true of a row.
-/

namespace CorpusAgent

open Sql

/-- The first condition asks for the opposite of the second one, of any texts. -/
inductive Condition.Opposes : Condition → Condition → Prop
  | notEqual (operand : Operand) : Opposes ⟨.notEqual, operand⟩ ⟨.equal, operand⟩
  | absent (operand other : Operand) : Opposes ⟨.absent, operand⟩ ⟨.present, other⟩
  | notContains {operand : Operand} (hvalue : operand.single ≠ .null) :
    Opposes ⟨.notContains, operand⟩ ⟨.contains, operand⟩

theorem Scalar.text?_eq_none_iff {s : Scalar} : s.text? = none ↔ s = .null := by
  match s with
  | .text _ | .number _ | .bool true | .bool false => exact iff_of_false nofun nofun
  | .null => exact iff_of_true rfl rfl

variable {lower : String → String} {row : Row} {c d : Condition}

theorem Condition.Opposes.holds (h : c.Opposes d) (texts : List String) :
    c.holds lower texts = !d.holds lower texts := by
  cases h with
  | notEqual => rfl
  | absent => exact (Bool.not_not _).symm
  | notContains hvalue =>
    obtain ⟨x, hx⟩ := Option.ne_none_iff_exists'.mp (mt Scalar.text?_eq_none_iff.mp hvalue)
    simp only [Condition.holds, hx]

namespace Field

variable {f : Field}

/-- The rules of the field for the source of a row agree on whether a condition holds. -/
def Agrees (lower : String → String) (row : Row) (f : Field) (d : Condition) : Prop :=
  ∀ rule ∈ f.sources, ∀ other ∈ f.sources, row.sourceId = some rule.sourceId →
    row.sourceId = some other.sourceId →
    d.holds lower (chainTexts row rule.chain) = d.holds lower (chainTexts row other.chain)

theorem agrees_of_nodup (h : (f.sources.map SourceRule.sourceId).Nodup) : f.Agrees lower row d := by
  intro rule hrule other hother hsource hsource'
  have hsame : rule.sourceId = other.sourceId := Option.some.inj (hsource.symm.trans hsource')
  rw [List.inj_on_of_nodup_map h hrule hother hsame]

theorem holds_of_unmapped (h : ∀ rule ∈ f.sources, row.sourceId ≠ some rule.sourceId) :
    f.holds lower row c = c.holds lower (chainTexts row f.fallbackChain) := by
  have hnone : (f.sources.any fun rule =>
      row.sourceId == some rule.sourceId && c.holds lower (chainTexts row rule.chain)) = false :=
    List.any_eq_false.mpr fun rule hrule => by simp [h rule hrule]
  have hall : (f.sources.all fun rule => row.sourceId != some rule.sourceId) = true :=
    List.all_eq_true.mpr fun rule hrule => bne_iff_ne.mpr (h rule hrule)
  rw [holds, hnone, hall, Bool.true_and, Bool.false_or]

theorem holds_iff_of_mapped (h : ∃ rule ∈ f.sources, row.sourceId = some rule.sourceId) :
    f.holds lower row c = true ↔ ∃ rule ∈ f.sources, row.sourceId = some rule.sourceId ∧
      c.holds lower (chainTexts row rule.chain) = true := by
  obtain ⟨rule, hrule, hsource⟩ := h
  have hall : (f.sources.all fun rule => row.sourceId != some rule.sourceId) = false :=
    List.all_eq_false.mpr ⟨rule, hrule, by simp [hsource]⟩
  simp only [holds, hall, Bool.false_and, Bool.or_false, List.any_eq_true, Bool.and_eq_true,
    beq_iff_eq]

/-- A leaf on a field holds exactly if its opposite does not, provided that the rules for the source
of the row agree, and only then. -/
theorem holds_opposite_iff (h : c.Opposes d) :
    (f.holds lower row c = true ↔ ¬f.holds lower row d = true) ↔ f.Agrees lower row d := by
  by_cases hmapped : ∃ rule ∈ f.sources, row.sourceId = some rule.sourceId
  · rw [holds_iff_of_mapped hmapped, holds_iff_of_mapped hmapped]
    simp only [h.holds, Bool.not_eq_true']
    obtain ⟨rule, hrule, hsource⟩ := hmapped
    constructor
    · -- If one rule says so and another one does not, both leaves hold.
      intro hcomplement
      have hforward : ∀ one ∈ f.sources, ∀ other ∈ f.sources, row.sourceId = some one.sourceId →
          row.sourceId = some other.sourceId →
          d.holds lower (chainTexts row one.chain) = true →
          d.holds lower (chainTexts row other.chain) = true := by
        intro one hone other hother hone' hother' htrue
        by_contra hfalse
        exact hcomplement.mp ⟨other, hother, hother', (Bool.not_eq_true _).mp hfalse⟩
          ⟨one, hone, hone', htrue⟩
      intro one hone other hother hone' hother'
      exact Bool.eq_iff_iff.mpr ⟨hforward one hone other hother hone' hother',
        hforward other hother one hone hother' hone'⟩
    · intro hagrees
      constructor
      · rintro ⟨one, hone, hone', hfalse⟩ ⟨other, hother, hother', htrue⟩
        rw [hagrees one hone other hother hone' hother', htrue] at hfalse
        cases hfalse
      · intro hnone
        refine ⟨rule, hrule, hsource, (Bool.not_eq_true _).mp fun htrue => ?_⟩
        exact hnone ⟨rule, hrule, hsource, htrue⟩
  · have hunmapped : ∀ rule ∈ f.sources, row.sourceId ≠ some rule.sourceId :=
      fun rule hrule hsource => hmapped ⟨rule, hrule, hsource⟩
    rw [holds_of_unmapped hunmapped, holds_of_unmapped hunmapped, h.holds, Bool.not_eq_true',
      Bool.not_eq_true]
    exact iff_of_true Iff.rfl fun rule hrule _ _ hsource => absurd hsource (hunmapped rule hrule)

theorem find?_of_mem {fields : List Field} (hf : f ∈ fields)
    (hdistinct : (fields.map Field.name).Nodup) : find? fields f.name = some f := by
  obtain ⟨g, hg⟩ : ∃ g, find? fields f.name = some g :=
    Option.isSome_iff_exists.mp (List.find?_isSome.mpr ⟨f, hf, beq_self_eq_true _⟩)
  have hname : g.name = f.name := by simpa using List.find?_some hg
  rw [hg, List.inj_on_of_nodup_map hdistinct (List.mem_of_find?_eq_some hg) hf hname]

end Field

section

variable {s : Settings} {corpus : Corpus} {f : Field}

/-- **Complements.**  In valid settings the predicates of a leaf and of its opposite, and of the
negation of the leaf, are true of complementary rows exactly as far as the rules agree. -/
theorem satisfied_complement_iff (hs : s.fault? = none) (hcorpus : corpus ∈ s.corpora)
    (hf : f ∈ corpus.fields) (h : c.Opposes d) :
    (((Filter.compile (.field f.name c) corpus.fields).Satisfied lower row ↔
      ¬(Filter.compile (.field f.name d) corpus.fields).Satisfied lower row) ↔
        f.Agrees lower row d) ∧
    (((Filter.compile (.field f.name c) corpus.fields).Satisfied lower row ↔
      (Filter.compile (.not (.field f.name d)) corpus.fields).Satisfied lower row) ↔
        f.Agrees lower row d) := by
  obtain ⟨-, -, -, -, -, hdistinct⟩ := Corpus.fault?_eq_none_iff.mp (s.corpus_sound hs hcorpus)
  have hfind : Field.find? corpus.fields f.name = some f := Field.find?_of_mem hf hdistinct
  have hleaf : ∀ condition, (Filter.compile (.field f.name condition) corpus.fields).Satisfied
      lower row ↔ f.holds lower row condition = true := by
    intro condition
    rw [Filter.satisfied_compile_iff, Filter.holds, hfind]
  have hnot : (Filter.compile (.not (.field f.name d)) corpus.fields).Satisfied lower row ↔
      ¬f.holds lower row d = true := by
    rw [Filter.satisfied_compile_iff, Filter.holds, Filter.holds, hfind, Bool.not_eq_true',
      Bool.not_eq_true]
  rw [hleaf, hleaf, hnot]
  exact ⟨Field.holds_opposite_iff h, Field.holds_opposite_iff h⟩

/-- **Negated operators.**  In valid settings, for a field that has one rule at most for a source,
the predicate of an operator is true of a row exactly if that of its opposite is not, which is to
say that it means the negation of its opposite. -/
theorem satisfied_opposite_iff (hs : s.fault? = none) (hcorpus : corpus ∈ s.corpora)
    (hf : f ∈ corpus.fields) (hsources : (f.sources.map SourceRule.sourceId).Nodup)
    (h : c.Opposes d) (lower : String → String) (row : Row) :
    ((Filter.compile (.field f.name c) corpus.fields).Satisfied lower row ↔
      ¬(Filter.compile (.field f.name d) corpus.fields).Satisfied lower row) ∧
    ((Filter.compile (.field f.name c) corpus.fields).Satisfied lower row ↔
      (Filter.compile (.not (.field f.name d)) corpus.fields).Satisfied lower row) := by
  have hagrees : f.Agrees lower row d := Field.agrees_of_nodup hsources
  exact (satisfied_complement_iff hs hcorpus hf h).imp (fun hopposite => hopposite.mpr hagrees)
    fun hnegation => hnegation.mpr hagrees

end

/-! ### A language field -/

/-- The language at a key of a file. -/
def languageRule (key : String) : SourceRule := ⟨"S1", [.member .file key]⟩

/-- The language of a document. -/
def languageField (rules : List SourceRule) : Field := ⟨"lang", none, none, rules, none⟩

/-- Settings with a corpus that has this field alone. -/
def languageSettings (rules : List SourceRule) : Settings where
  service := ⟨"127.0.0.1:8080", "info"⟩
  database := ⟨"postgres://localhost/library", 5, 3⟩
  embedding := ⟨⟨"embedding", "http://localhost", "key", "/embeddings", "small", 1000, []⟩, 3⟩
  completion := ⟨⟨"llm", "http://localhost", "key", "/completions", "large", 1000, []⟩, .zero false⟩
  corpora := [⟨"library", none, none, {}, {}, [languageField rules]⟩]

/-- A leaf that compares the language with English. -/
def languageLeaf (operator : Operator) : Filter :=
  .field "lang" ⟨operator, ⟨some (.text "en"), none⟩⟩

/-- A document that is in German by one key and in English by another one. -/
def bilingualRow : Row where
  sourceId := some "S1"
  metadata
    | .file => .object [("language", .text "de"), ("lang", .text "en")]
    | _ => .object []

/-- By the first key, the document is not in English. -/
theorem satisfied_opposite_iff_bilingual :
    (languageSettings [languageRule "language"]).fault? = none ∧
    ((Filter.compile (languageLeaf .notEqual) [languageField [languageRule "language"]]).Satisfied
        String.toLower bilingualRow ↔
      ¬(Filter.compile (languageLeaf .equal) [languageField [languageRule "language"]]).Satisfied
        String.toLower bilingualRow) ∧
    ((Filter.compile (languageLeaf .notEqual) [languageField [languageRule "language"]]).Satisfied
        String.toLower bilingualRow ↔
      (Filter.compile (.not (languageLeaf .equal))
        [languageField [languageRule "language"]]).Satisfied String.toLower bilingualRow) := by
  have hfault : (languageSettings [languageRule "language"]).fault? = none := by decide +kernel
  exact ⟨hfault, satisfied_opposite_iff hfault (List.mem_singleton.mpr rfl)
    (List.mem_singleton.mpr rfl) (List.nodup_singleton _) (.notEqual _) String.toLower bilingualRow⟩

/-- With a rule for each key, it is in English and not in English, though nothing is wrong with the
settings. -/
theorem both_satisfied_of_repeated_source :
    (languageSettings [languageRule "language", languageRule "lang"]).fault? = none ∧
    (Filter.compile (languageLeaf .equal)
      [languageField [languageRule "language", languageRule "lang"]]).Satisfied
        String.toLower bilingualRow ∧
    (Filter.compile (languageLeaf .notEqual)
      [languageField [languageRule "language", languageRule "lang"]]).Satisfied
        String.toLower bilingualRow := by
  refine ⟨by decide +kernel, ?_, ?_⟩
  · rw [Filter.satisfied_compile_iff]
    decide +kernel
  · rw [Filter.satisfied_compile_iff]
    decide +kernel

end CorpusAgent
