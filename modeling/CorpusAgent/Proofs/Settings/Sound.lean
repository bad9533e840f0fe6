import CorpusAgent.Settings.Fault

/-!
# Settings without a fault

What is known of settings in which `Settings.fault?` finds nothing.

* `Fresh`: the names of a list are distinct and none of them is taken.
* `KeepsNames`: a check of items one after the other that keeps the names that are taken.
* `fieldsFault?_eq_none_iff`, `corporaFault?_eq_none_iff`, `Corpus.fault?_eq_none_iff`: what fields,
  corpora and a single corpus are checked for.
* `Settings.corpus_sound`: every corpus of settings without a fault is without a fault.
-/

namespace CorpusAgent

open Text (isBlank)

/-- The names are distinct, and none of them is taken. -/
def Fresh (taken names : List String) : Prop := (∀ name ∈ names, name ∉ taken) ∧ names.Nodup

theorem fresh_nil (taken : List String) : Fresh taken [] := ⟨List.forall_mem_nil _, .nil⟩

theorem fresh_nil_iff {names : List String} : Fresh [] names ↔ names.Nodup :=
  and_iff_right fun _ _ => List.not_mem_nil

theorem fresh_cons_iff {taken names : List String} {name : String} :
    Fresh taken (name :: names) ↔ name ∉ taken ∧ Fresh (name :: taken) names := by
  simp only [Fresh, List.nodup_cons, List.mem_cons, forall_eq_or_imp, not_or]
  constructor
  · rintro ⟨⟨hname, hnames⟩, hfirst, hnodup⟩
    refine ⟨hname, fun other hother => ⟨?_, hnames other hother⟩, hnodup⟩
    rintro rfl
    exact hfirst hother
  · rintro ⟨hname, hnames, hnodup⟩
    exact ⟨⟨hname, fun other hother => (hnames other hother).2⟩,
      fun hfirst => (hnames name hfirst).1 rfl, hnodup⟩

theorem faultIf_eq_none_iff {α : Type} {condition : Bool} {fault : α} :
    faultIf condition fault = none ↔ condition = false := by
  cases condition <;> simp [faultIf]

theorem orElse_eq_none_iff {α : Type} {x y : Option α} :
    (x <|> y) = none ↔ x = none ∧ y = none := by
  cases x <;> simp

theorem contains_eq_false_iff {names : List String} {name : String} :
    names.contains name = false ↔ name ∉ names := by
  rw [← Bool.not_eq_true, List.contains_iff_mem]

/-- A check of items one after the other.  The name of an item may be neither blank nor taken, and
then it is taken. -/
structure KeepsNames {α φ : Type} (name : α → String) (blank : φ) (repeated : String → φ)
    (found : α → Option φ) (check : List String → List α → Option φ) : Prop where
  nil : ∀ taken, check taken [] = none
  cons : ∀ taken a rest, check taken (a :: rest) =
    (faultIf (isBlank (name a)) blank <|> faultIf (taken.contains (name a)) (repeated (name a)) <|>
      found a <|> check (name a :: taken) rest)

/-- A check that keeps the names it has seen finds nothing just if no name is blank or repeated and
nothing is found at an item. -/
theorem KeepsNames.eq_none_iff {α φ : Type} {name : α → String} {blank : φ} {repeated : String → φ}
    {found : α → Option φ} {check : List String → List α → Option φ}
    (h : KeepsNames name blank repeated found check) {taken : List String} {items : List α} :
    check taken items = none ↔
      (∀ a ∈ items, isBlank (name a) = false ∧ found a = none) ∧ Fresh taken (items.map name) := by
  induction items generalizing taken with
  | nil => exact iff_of_true (h.nil taken) ⟨List.forall_mem_nil _, fresh_nil taken⟩
  | cons a rest ih =>
    simp only [h.cons, orElse_eq_none_iff, faultIf_eq_none_iff, contains_eq_false_iff, ih,
      List.forall_mem_cons, List.map_cons, fresh_cons_iff]
    constructor
    · rintro ⟨hblank, htaken, hown, hrest, hfresh⟩
      exact ⟨⟨⟨hblank, hown⟩, hrest⟩, htaken, hfresh⟩
    · rintro ⟨⟨⟨hblank, hown⟩, hrest⟩, htaken, hfresh⟩
      exact ⟨hblank, htaken, hown, hrest, hfresh⟩

theorem fieldsFault?_keepsNames : KeepsNames Field.name .blankFieldName .repeatedField Field.fault?
    fieldsFault? := ⟨fun _ => rfl, fun _ _ _ => rfl⟩

theorem corporaFault?_keepsNames : KeepsNames Corpus.id .blankCorpusId .repeatedCorpus
    (fun c => c.fault?.map (.corpus c.id)) corporaFault? := ⟨fun _ => rfl, fun _ _ _ => rfl⟩

theorem fieldsFault?_eq_none_iff {taken : List String} {fields : List Field} :
    fieldsFault? taken fields = none ↔
      (∀ f ∈ fields, isBlank f.name = false ∧ f.fault? = none) ∧
        Fresh taken (fields.map Field.name) := fieldsFault?_keepsNames.eq_none_iff

theorem corporaFault?_eq_none_iff {taken : List String} {corpora : List Corpus} :
    corporaFault? taken corpora = none ↔
      (∀ c ∈ corpora, isBlank c.id = false ∧ c.fault? = none) ∧
        Fresh taken (corpora.map Corpus.id) := by
  simp only [corporaFault?_keepsNames.eq_none_iff, Option.map_eq_none_iff]

theorem SimilaritySettings.fault?_eq_none_iff {s : SimilaritySettings} {tool : String} :
    s.fault? tool = none ↔
      s.limit ≠ 0 ∧ s.scoreThreshold.isFinite = true ∧ isSimilarity s.scoreThreshold = true := by
  simp only [fault?, orElse_eq_none_iff, faultIf_eq_none_iff, Bool.not_eq_false',
    decide_eq_false_iff_not, ne_eq]

theorem Corpus.fault?_eq_none_iff {c : Corpus} :
    c.fault? = none ↔ c.run.maxIterations ≠ 0 ∧
      (c.run.responseMode.includesSources = true → c.run.maxSources ≠ 0) ∧
      c.tools.chunks.fault? "find_chunks_by_similarity" = none ∧
      c.tools.summaries.fault? "find_documents_by_summary_similarity" = none ∧
      (∀ f ∈ c.fields, isBlank f.name = false ∧ f.fault? = none) ∧
      (c.fields.map Field.name).Nodup := by
  simp only [fault?, orElse_eq_none_iff, faultIf_eq_none_iff, fieldsFault?_eq_none_iff,
    fresh_nil_iff, Bool.and_eq_false_iff, decide_eq_false_iff_not, ne_eq]
  have hsources : ∀ (b : Bool) (p : Prop), (¬p ∨ b = false) ↔ (b = true → ¬p) := by
    intro b p
    cases b <;> simp
  rw [hsources]

/-- A corpus of settings without a fault is without a fault. -/
theorem Settings.corpus_sound {s : Settings} (hs : s.fault? = none) {c : Corpus}
    (hc : c ∈ s.corpora) : c.fault? = none := by
  simp only [fault?, orElse_eq_none_iff, corporaFault?_eq_none_iff] at hs
  obtain ⟨-, -, -, -, -, -, hcorpora, -⟩ := hs
  exact (hcorpora c hc).2

end CorpusAgent
