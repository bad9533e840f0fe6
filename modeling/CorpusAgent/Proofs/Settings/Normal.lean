import CorpusAgent.Proofs.Settings.Sound
import CorpusAgent.Settings.Load
import CorpusAgent.Tool.Offer
import Mathlib.Data.List.Forall2

/-!
# Settings in normal form

A corpus has six texts that take the place of defaults.  In normal form none of them is blank.

* `Override`: the texts that take the place of defaults; `Corpus.bare` is a corpus without them.
* `Settings.Tidied`: settings differ in blank texts of their corpora, which are absent in the
  second, and in nothing else.
* `Settings.tidied_normalize`, `Settings.normalize_normalize`: what becomes of settings.
* `Settings.fault?_normalize`: it does not matter whether the check comes before or after.
* `Settings.exists_of_load`: settings that were loaded are in normal form.
-/

namespace CorpusAgent

open Text (isBlank)

/-! ### Texts in place of defaults -/

theorem present_eq_some_iff {text? : Option String} {text : String} :
    present text? = some text ↔ text? = some text ∧ isBlank text = false := by
  rw [present, Option.filter_eq_some_iff, Bool.not_eq_true']

theorem present_present (text? : Option String) : present (present text?) = present text? := by
  refine Option.ext fun text => ?_
  rw [present_eq_some_iff, and_iff_left_iff_imp]
  exact fun h => (present_eq_some_iff.mp h).2

/-- A text of a corpus that takes the place of a default. -/
inductive Override where
  | embeddingModel
  | systemPrompt
  | description (tool : Tool)

/-- The text that a corpus has in place of a default. -/
def Corpus.override? (c : Corpus) : Override → Option String
  | .embeddingModel => c.embeddingModel
  | .systemPrompt => c.systemPrompt
  | .description tool => tool.ownDescription c.tools

/-- The corpus with defaults only. -/
def Corpus.bare (c : Corpus) : Corpus :=
  { c with
    embeddingModel := none
    systemPrompt := none
    tools := {
      exit := { c.tools.exit with description := none }
      chunks := { c.tools.chunks with description := none }
      summaries := { c.tools.summaries with description := none }
      metadata := { c.tools.metadata with description := none } } }

/-- Corpora differ in texts that are blank, which are absent in the second, and in nothing else. -/
structure Corpus.Tidied (c d : Corpus) : Prop where
  absent : ∀ o text, c.override? o = some text → isBlank text = true → d.override? o = none
  kept : ∀ o text, c.override? o = some text → isBlank text = false → d.override? o = some text
  none : ∀ o, c.override? o = none → d.override? o = none
  rest : d.bare = c.bare

/-- Settings differ in such texts of their corpora, and in nothing else. -/
structure Settings.Tidied (s t : Settings) : Prop where
  corpora : List.Forall₂ Corpus.Tidied s.corpora t.corpora
  rest : { t with corpora := [] } = { s with corpora := [] }

namespace Corpus

variable (c : Corpus)

theorem override?_normalize (o : Override) :
    c.normalize.override? o = present (c.override? o) := by
  cases o with
  | embeddingModel => rfl
  | systemPrompt => rfl
  | description tool => cases tool <;> rfl

theorem tidied_normalize : c.Tidied c.normalize where
  absent o text htext hblank := by
    rw [override?_normalize, htext, present, Option.filter_some, hblank]
    rfl
  kept o text htext hblank := by
    rw [override?_normalize]
    exact present_eq_some_iff.mpr ⟨htext, hblank⟩
  none o hnone := by
    rw [override?_normalize, hnone]
    rfl
  rest := rfl

theorem normalize_normalize : c.normalize.normalize = c.normalize := by
  simp only [normalize, ToolSettings.normalize, present_present]

theorem fault?_normalize : c.normalize.fault? = c.fault? := rfl

end Corpus

/-- A check that keeps the names that are taken finds the same in items that were changed in a way
that it does not see. -/
theorem KeepsNames.map {α φ : Type} {name : α → String} {blank : φ} {repeated : String → φ}
    {found : α → Option φ} {check : List String → List α → Option φ}
    (h : KeepsNames name blank repeated found check) {f : α → α} (hname : ∀ a, name (f a) = name a)
    (hfound : ∀ a, found (f a) = found a) (taken : List String) (items : List α) :
    check taken (items.map f) = check taken items := by
  induction items generalizing taken with
  | nil => rfl
  | cons a rest ih => rw [List.map_cons, h.cons, h.cons, hname, hfound, ih]

namespace Settings

variable (s : Settings)

theorem tidied_normalize : s.Tidied s.normalize where
  corpora := by
    rw [normalize, List.forall₂_map_right_iff, List.forall₂_same]
    exact fun c _ => c.tidied_normalize
  rest := rfl

theorem normalize_normalize : s.normalize.normalize = s.normalize := by
  have hcorpora : (s.corpora.map Corpus.normalize).map Corpus.normalize =
      s.corpora.map Corpus.normalize := by
    rw [List.map_map]
    exact List.map_congr_left fun c _ => c.normalize_normalize
  rw [normalize, normalize, hcorpora]

/-- It does not matter whether settings are checked before or after they are normalized. -/
theorem fault?_normalize : s.normalize.fault? = s.fault? := by
  have hname : ∀ c : Corpus, c.normalize.id = c.id := fun _ => rfl
  have hfound : ∀ c : Corpus, c.normalize.fault?.map (.corpus c.normalize.id) =
      c.fault?.map (SettingsFault.corpus c.id) := by
    intro c
    rw [c.fault?_normalize, hname]
  have hcorpora : corporaFault? [] (s.corpora.map Corpus.normalize) =
      corporaFault? [] s.corpora := corporaFault?_keepsNames.map hname hfound [] s.corpora
  rw [fault?, fault?, ← hcorpora]
  rfl

variable {s}

/-- Settings that were loaded are in normal form. -/
theorem exists_of_load {file : String} {text : Option String} {loaded : Settings}
    (h : load file text = .ok loaded) : ∃ s : Settings, loaded = s.normalize := by
  cases text with
  | none => cases h
  | some text =>
    rw [load, ofTree] at h
    split at h
    · rename_i s hs
      rw [check] at h
      split at h
      · cases h
      · exact ⟨s, (Except.ok.inj h).symm⟩
    · cases h

end Settings

end CorpusAgent
