import CorpusAgent.Proofs.Filter.Negation
import Mathlib.Data.List.TakeWhile

/-!
# Blank values

A chain passes over the blank texts of metadata, whatever their number, but takes the texts of a
constant as they are.  So a chain can only end in a blank text that it is told to fall back on.

* `HasContent`: a text has a character other than a space.
* `Step.found`: the texts that a step comes upon, the blank ones as well.
* `constantDefault`: the texts of a chain for a row without metadata.
* `chainValue`: what the text of a chain evaluates to, with the values bound for it.
* `blank_never_counts`: if the texts that the chains of a field fall back on have content, then
  blank texts never count.
* `blank_constant_counts`: valid settings may have a blank constant, and then it does.
-/

namespace CorpusAgent

open Sql

/-! ### Texts with content -/

/-- A text has a character other than a space. -/
def HasContent (s : String) : Prop := ∃ c ∈ s.toList, c ≠ ' '

instance : DecidablePred HasContent := fun s =>
  decidable_of_iff (s.toList.any (· != ' ') = true) (by simp [HasContent])

theorem mem_dropSpaces_iff {cs : List Char} {c : Char} (hc : c ≠ ' ') :
    c ∈ cs.dropWhile (· == ' ') ↔ c ∈ cs := by
  have hspaces : c ∉ cs.takeWhile (· == ' ') := by
    intro hmem
    have hspace : (c == ' ') = true := List.mem_takeWhile_imp (p := fun d => d == ' ') hmem
    exact hc (beq_iff_eq.mp hspace)
  have hsplit : cs.takeWhile (· == ' ') ++ cs.dropWhile (· == ' ') = cs :=
    List.takeWhile_append_dropWhile
  rw [← List.mem_append.trans (or_iff_right hspaces), hsplit]

theorem mem_btrim_iff {s : String} {c : Char} (hc : c ≠ ' ') :
    c ∈ (btrim s).toList ↔ c ∈ s.toList := by
  rw [btrim, String.toList_ofList, List.mem_reverse, mem_dropSpaces_iff hc, List.mem_reverse,
    mem_dropSpaces_iff hc]

theorem hasContent_btrim_iff {s : String} : HasContent (btrim s) ↔ HasContent s := by
  constructor
  · rintro ⟨c, hmem, hc⟩
    exact ⟨c, (mem_btrim_iff hc).mp hmem, hc⟩
  · rintro ⟨c, hmem, hc⟩
    exact ⟨c, (mem_btrim_iff hc).mpr hmem, hc⟩

theorem btrim_eq_empty_iff {s : String} : btrim s = "" ↔ ¬HasContent s := by
  constructor
  · rintro hempty hcontent
    obtain ⟨c, hmem, -⟩ := hasContent_btrim_iff.mpr hcontent
    rw [hempty] at hmem
    exact List.not_mem_nil hmem
  · intro hblank
    have hspaces : ∀ c ∈ s.toList, (c == ' ') = true := by
      intro c hmem
      by_contra hc
      exact hblank ⟨c, hmem, mt beq_iff_eq.mpr hc⟩
    rw [btrim, List.dropWhile_eq_nil_iff.mpr hspaces]
    rfl

theorem trimmed?_some (s : String) :
    trimmed? (some s) = if HasContent s then some (btrim s) else none := by
  by_cases h : HasContent s
  · have hne : btrim s ≠ "" := fun hempty => btrim_eq_empty_iff.mp hempty h
    simp [trimmed?, h, hne]
  · simp [trimmed?, h, btrim_eq_empty_iff.mpr h]

/-! ### Steps -/

namespace Step

/-- The texts that a step comes upon, the blank ones as well. -/
def found (row : Row) : Step → List String
  | .member origin key =>
    match row.member? origin key with
    | some (.list items) => items.filterMap Jsonb.text?
    | v => (v.bind Jsonb.text?).toList
  | .constant value values => Filter.constantTexts value values

/-- The texts of a step that do not depend on the row. -/
def constants : Step → List String
  | .member .. => []
  | .constant value values => Filter.constantTexts value values

variable {row : Row}

theorem texts_member (origin : Origin) (key : String) :
    (member origin key).texts row =
      ((member origin key).found row).filterMap fun s => trimmed? (some s) := by
  have hsingle : ∀ text : Option String,
      (trimmed? text).toList = text.toList.filterMap fun s => trimmed? (some s) := by
    intro text
    cases text with
    | none => rfl
    | some s => cases h : trimmed? (some s) <;> simp [h]
  simp only [texts, Row.texts, Row.text?, found]
  cases row.member? origin key with
  | none => rfl
  | some v =>
    cases v with
    | list items =>
      rw [List.filterMap_filterMap]
      refine List.filterMap_congr fun v _ => ?_
      cases v.text? <;> rfl
    | _ => exact hsingle _

theorem mem_texts_member_iff {origin : Origin} {key text : String} :
    text ∈ (member origin key).texts row ↔
      ∃ s ∈ (member origin key).found row, HasContent s ∧ btrim s = text := by
  simp only [texts_member, List.mem_filterMap, trimmed?_some, ite_eq_iff, Option.some.injEq,
    reduceCtorEq, and_false, or_false]

/-- A text of a step is one of its constants or has content, and it stems from a text that the step
comes upon. -/
theorem mem_texts {step : Step} {text : String} (h : text ∈ step.texts row) :
    (text ∈ step.constants ∨ HasContent text) ∧
      ∃ s ∈ step.found row, HasContent text → HasContent s := by
  cases step with
  | member origin key =>
    obtain ⟨s, hs, hcontent, rfl⟩ := mem_texts_member_iff.mp h
    exact ⟨.inr (hasContent_btrim_iff.mpr hcontent), s, hs, fun _ => hcontent⟩
  | constant value values => exact ⟨.inl h, text, h, id⟩

theorem constants_eq_nil {step : Step} (h : step.texts row = []) : step.constants = [] := by
  cases step with
  | member => rfl
  | constant => exact h

theorem texts_ne_nil {step : Step} {s : String} (hs : s ∈ step.found row) (h : HasContent s) :
    step.texts row ≠ [] := by
  cases step with
  | member origin key =>
    exact List.ne_nil_of_mem (mem_texts_member_iff.mpr ⟨s, hs, h, rfl⟩)
  | constant value values => exact List.ne_nil_of_mem hs

end Step

/-! ### Chains -/

/-- The texts that a chain falls back on: those of its first constant that has any. -/
def constantDefault : List Step → List String
  | [] => []
  | step :: rest => if step.constants = [] then constantDefault rest else step.constants

/-- A chain does not fall back on a blank text. -/
def DefaultHasContent (chain : List Step) : Prop := ∀ text ∈ constantDefault chain, HasContent text

instance : DecidablePred DefaultHasContent := fun chain =>
  inferInstanceAs (Decidable (∀ text ∈ constantDefault chain, HasContent text))

/-- A row without metadata. -/
def bareRow (sourceId : Option String) : Row := ⟨sourceId, fun _ => .object []⟩

section

variable {row : Row} {chain before after : List Step} {step : Step}

theorem chainTexts_append : chainTexts row (before ++ after) =
    if chainTexts row before = [] then chainTexts row after else chainTexts row before := by
  induction before with
  | nil => rfl
  | cons step rest ih =>
    by_cases h : step.texts row = []
    · simp [chainTexts, h, ih]
    · simp [chainTexts, h]

theorem chainTexts_bareRow (sourceId : Option String) (chain : List Step) :
    chainTexts (bareRow sourceId) chain = constantDefault chain := by
  have hstep : ∀ step : Step, step.texts (bareRow sourceId) = step.constants := by
    intro step
    cases step <;> rfl
  induction chain with
  | nil => rfl
  | cons step rest ih => rw [chainTexts, constantDefault, hstep, ih]

/-- A text of a chain is one that the chain falls back on or has content, and it stems from a text
that one of the steps comes upon. -/
theorem mem_chainTexts {text : String} (h : text ∈ chainTexts row chain) :
    (text ∈ constantDefault chain ∨ HasContent text) ∧
      ∃ step ∈ chain, ∃ s ∈ step.found row, HasContent text → HasContent s := by
  induction chain with
  | nil => cases h
  | cons step rest ih =>
    by_cases hstep : step.texts row = []
    · rw [chainTexts, if_pos hstep] at h
      obtain ⟨hkind, other, hother, hfound⟩ := ih h
      rw [constantDefault, if_pos (Step.constants_eq_nil hstep)]
      exact ⟨hkind, other, List.mem_cons_of_mem step hother, hfound⟩
    · rw [chainTexts, if_neg hstep] at h
      obtain ⟨hkind, hfound⟩ := Step.mem_texts h
      refine ⟨hkind.imp_left fun hconstant => ?_, step, List.mem_cons_self, hfound⟩
      rwa [constantDefault, if_neg (List.ne_nil_of_mem hconstant)]

theorem hasContent_of_mem_chainTexts (h : DefaultHasContent chain) {text : String}
    (htext : text ∈ chainTexts row chain) : HasContent text :=
  (mem_chainTexts htext).1.elim (h text) id

theorem chainTexts_ne_nil_iff (h : DefaultHasContent chain) : chainTexts row chain ≠ [] ↔
    ∃ step ∈ chain, ∃ s ∈ step.found row, HasContent s := by
  constructor
  · intro hne
    obtain ⟨text, htext⟩ := List.exists_mem_of_ne_nil _ hne
    obtain ⟨-, step, hstep, s, hs, hcontent⟩ := mem_chainTexts htext
    exact ⟨step, hstep, s, hs, hcontent (hasContent_of_mem_chainTexts h htext)⟩
  · rintro ⟨step, hstep, s, hs, hcontent⟩ hnil
    obtain ⟨before, after, rfl⟩ := List.append_of_mem hstep
    rw [chainTexts_append] at hnil
    split_ifs at hnil with hbefore
    · rw [chainTexts, if_neg (Step.texts_ne_nil hs hcontent)] at hnil
      exact Step.texts_ne_nil hs hcontent hnil
    · exact hbefore hnil

/-- A step that comes upon blank texts alone leaves the turn to the others. -/
theorem chainTexts_skip (h : DefaultHasContent (before ++ step :: after))
    (hblank : ∀ s ∈ step.found row, ¬HasContent s) :
    chainTexts row (before ++ step :: after) = chainTexts row (before ++ after) := by
  rw [chainTexts_append, chainTexts_append]
  split_ifs with hbefore
  · rw [chainTexts]
    by_cases hstep : step.texts row = []
    · rw [if_pos hstep]
    · -- A text of the step would be one of the chain, so it has content.
      obtain ⟨text, htext⟩ := List.exists_mem_of_ne_nil _ hstep
      obtain ⟨-, s, hs, hcontent⟩ := Step.mem_texts htext
      have hmem : text ∈ chainTexts row (before ++ step :: after) := by
        rwa [chainTexts_append, if_pos hbefore, chainTexts, if_neg hstep]
      exact absurd (hcontent (hasContent_of_mem_chainTexts h hmem)) (hblank s hs)
  · rfl

end

/-! ### The value of a chain -/

/-- The list expression of a text, if all of it is one. -/
def Sql.Values.read? (text : String) : Option Values :=
  match readPhrase (text.length + 1) text.toList with
  | some (.values v, []) => some v
  | _ => none

theorem Sql.Values.read?_render {v : Values} (hv : v.Fits) : read? v.render = some v := by
  have h := readPhrase_render (v.render.length + 1) (.values v) hv (Nat.lt_succ_self _) []
    (ends_nil (by decide))
  rw [List.append_nil] at h
  have hread : readPhrase (v.render.length + 1) v.render.toList = some (.values v, []) := h
  unfold read?
  rw [hread]

/-- The value over a row of the text that a chain turns into after some values have been bound. -/
def chainValue (lower : String → String) (row : Row) (chain : List Step) (bound : Array String) :
    Except Fault (Option (List (Option String))) :=
  let built := (Filter.chainValues chain).run bound
  match Values.read? built.1.render with
  | none => .error .unread
  | some v => v.eval ⟨lower, row, fun i => lookup? (Filter.paramsOf built.2) (paramName i)⟩

theorem chainValue_eq (lower : String → String) (row : Row) (chain : List Step)
    (bound : Array String) :
    chainValue lower row chain bound = .ok (Filter.listValue (chainTexts row chain)) := by
  have hfit := (Filter.chainValues_fitting chain bound).2 _ (List.prefix_refl _)
  have heval := (Filter.chainValues_yields lower row chain bound).2 _ (List.prefix_refl _)
  have henv : (fun i => lookup? (Filter.paramsOf ((Filter.chainValues chain).run bound).2)
      (paramName i)) = fun i => ((Filter.chainValues chain).run bound).2.toList[i]? :=
    funext (Filter.lookup?_paramsOf _)
  unfold chainValue
  simp only [Values.read?_render hfit.fits, henv]
  exact heval

/-- A value is missing, or it is a list with elements, and all of them have content. -/
def NotBlank (value : Option (List (Option String))) : Prop :=
  ∀ elements ∈ value, elements ≠ [] ∧ ∀ element ∈ elements, ∃ s ∈ element, HasContent s

theorem notBlank_listValue_iff {texts : List String} :
    NotBlank (Filter.listValue texts) ↔ ∀ text ∈ texts, HasContent text := by
  cases texts with
  | nil => exact iff_of_true (fun _ h => by cases h) fun _ h => by cases h
  | cons text rest =>
    rw [NotBlank, Filter.listValue_cons]
    simp

/-- The values of a chain are never blank exactly if it does not fall back on a blank text. -/
theorem chainValue_notBlank_iff {chain : List Step} :
    (∀ lower row bound, ∃ value, chainValue lower row chain bound = .ok value ∧ NotBlank value) ↔
      DefaultHasContent chain := by
  simp only [chainValue_eq, Except.ok.injEq, exists_eq_left', notBlank_listValue_iff]
  constructor
  · intro h text htext
    rw [← chainTexts_bareRow none] at htext
    exact h id (bareRow none) #[] text htext
  · intro h _ _ _ text htext
    exact hasContent_of_mem_chainTexts h htext

/-! ### Fields -/

namespace Field

/-- The chains that count for a row: those of the rules for its source, else the fallback chain. -/
def inForce (row : Row) (f : Field) : List (List Step) :=
  match f.sources.filter fun rule => row.sourceId == some rule.sourceId with
  | [] => [f.fallbackChain]
  | rules => rules.map SourceRule.chain

variable {lower : String → String} {row : Row} {f : Field} {c : Condition}

theorem inForce_of_unmapped (h : ∀ rule ∈ f.sources, row.sourceId ≠ some rule.sourceId) :
    f.inForce row = [f.fallbackChain] := by
  have hnone : f.sources.filter (fun rule => row.sourceId == some rule.sourceId) = [] :=
    List.filter_eq_nil_iff.mpr fun rule hrule => by simp [h rule hrule]
  rw [inForce, hnone]

theorem mem_inForce_of_mapped (h : ∃ rule ∈ f.sources, row.sourceId = some rule.sourceId)
    {chain : List Step} : chain ∈ f.inForce row ↔
      ∃ rule ∈ f.sources, row.sourceId = some rule.sourceId ∧ rule.chain = chain := by
  obtain ⟨rule, hrule, hsource⟩ := h
  have hmem : rule ∈ f.sources.filter fun rule => row.sourceId == some rule.sourceId :=
    List.mem_filter.mpr ⟨hrule, beq_iff_eq.mpr hsource⟩
  have hin : f.inForce row =
      (f.sources.filter fun rule => row.sourceId == some rule.sourceId).map SourceRule.chain := by
    unfold inForce
    split
    · next hnil => exact absurd hmem (hnil ▸ List.not_mem_nil)
    · rfl
  simp only [hin, List.mem_map, List.mem_filter, beq_iff_eq, and_assoc]

/-- A leaf holds if its condition does of the texts of one of the chains that count. -/
theorem holds_iff_inForce : f.holds lower row c = true ↔
    ∃ chain ∈ f.inForce row, c.holds lower (chainTexts row chain) = true := by
  by_cases hmapped : ∃ rule ∈ f.sources, row.sourceId = some rule.sourceId
  · rw [holds_iff_of_mapped hmapped]
    simp only [mem_inForce_of_mapped hmapped]
    constructor
    · rintro ⟨rule, hrule, hsource, hholds⟩
      exact ⟨rule.chain, ⟨rule, hrule, hsource, rfl⟩, hholds⟩
    · rintro ⟨_, ⟨rule, hrule, hsource, rfl⟩, hholds⟩
      exact ⟨rule, hrule, hsource, hholds⟩
  · have hunmapped : ∀ rule ∈ f.sources, row.sourceId ≠ some rule.sourceId :=
      fun rule hrule hsource => hmapped ⟨rule, hrule, hsource⟩
    simp only [holds_of_unmapped hunmapped, inForce_of_unmapped hunmapped, List.mem_singleton,
      exists_eq_left]

end Field

/-- **Blank values.**  The values of a chain are never blank exactly if the chain does not fall back
on a blank text, and then a step that comes upon blank texts alone leaves the turn to the others.
In valid settings `exists` asks for a text with content, wherever the chains that count for the row
fall back on none that is blank. -/
theorem blank_never_counts {s : Settings} {corpus : Corpus} {f : Field} (hs : s.fault? = none)
    (hcorpus : corpus ∈ s.corpora) (hf : f ∈ corpus.fields) :
    (∀ chain, (∀ lower row bound, ∃ value,
        chainValue lower row chain bound = .ok value ∧ NotBlank value) ↔
      DefaultHasContent chain) ∧
    (∀ before step after, DefaultHasContent (before ++ step :: after) →
      ∀ lower row bound, (∀ text ∈ step.found row, ¬HasContent text) →
        chainValue lower row (before ++ step :: after) bound =
          chainValue lower row (before ++ after) bound) ∧
    ∀ lower row operand, (∀ chain ∈ f.inForce row, DefaultHasContent chain) →
      ((Filter.compile (.field f.name ⟨.present, operand⟩) corpus.fields).Satisfied lower row ↔
        ∃ chain ∈ f.inForce row, ∃ step ∈ chain, ∃ text ∈ step.found row, HasContent text) := by
  refine ⟨fun _ => chainValue_notBlank_iff, ?_, ?_⟩
  · intro before step after h lower row bound hblank
    rw [chainValue_eq, chainValue_eq, chainTexts_skip h hblank]
  · intro lower row operand h
    obtain ⟨-, -, -, -, -, hdistinct⟩ := Corpus.fault?_eq_none_iff.mp (s.corpus_sound hs hcorpus)
    rw [Filter.satisfied_compile_iff, Filter.holds, Field.find?_of_mem hf hdistinct]
    refine Field.holds_iff_inForce.trans (exists_congr fun chain =>
      and_congr_right fun hchain => ?_)
    rw [← chainTexts_ne_nil_iff (h chain hchain), Condition.holds, Bool.not_eq_true',
      List.isEmpty_eq_false_iff]

/-- The language at a key of a file, else the given text. -/
def languageOr (fallback : String) : SourceRule :=
  ⟨"S1", [.member .file "lang", .constant (some (.text fallback)) none]⟩

/-- A document that has a blank language. -/
def blankRow : Row where
  sourceId := some "S1"
  metadata
    | .file => .object [("lang", .list [.text "", .text "  "])]
    | _ => .object []

/-- With a default, a document has a language although that of its file is blank. -/
theorem blank_never_counts_default :
    (languageSettings [languageOr "none"]).fault? = none ∧
    (∃ value, chainValue String.toLower blankRow (languageOr "none").chain #[] = .ok value ∧
      NotBlank value) ∧
    chainValue String.toLower blankRow (languageOr "none").chain #[] =
      chainValue String.toLower blankRow [.constant (some (.text "none")) none] #[] ∧
    (Filter.compile (.field "lang" ⟨.present, ⟨none, none⟩⟩)
      [languageField [languageOr "none"]]).Satisfied String.toLower blankRow := by
  have hfault : (languageSettings [languageOr "none"]).fault? = none := by decide +kernel
  have hdefault : DefaultHasContent (languageOr "none").chain := by decide
  obtain ⟨hvalue, hskip, hpresent⟩ := blank_never_counts hfault (List.mem_singleton.mpr rfl)
    (List.mem_singleton.mpr rfl)
  have hforce : (languageField [languageOr "none"]).inForce blankRow =
      [(languageOr "none").chain] :=
    rfl
  refine ⟨hfault, (hvalue _).mpr hdefault _ _ _, ?_, ?_⟩
  · exact hskip [] _ _ hdefault String.toLower blankRow #[] (by decide)
  · refine (hpresent String.toLower blankRow ⟨none, none⟩ ?_).mpr ?_
    · rw [hforce]
      exact List.forall_mem_singleton.mpr hdefault
    · rw [hforce]
      exact ⟨_, List.mem_singleton.mpr rfl, .constant (some (.text "none")) none,
        by simp [languageOr], "none", by decide, by decide⟩

/-- A language that is blank, whatever the file says. -/
def blankLanguage : SourceRule :=
  ⟨"S1", [.constant (some (.text " ")) none, .member .file "lang"]⟩

/-- Settings without a fault may have a blank constant.  A chain that begins with it never comes to
its other steps, and `exists` holds of a document without metadata. -/
theorem blank_constant_counts :
    (languageSettings [blankLanguage]).fault? = none ∧
    chainValue String.toLower bilingualRow blankLanguage.chain #["S1"] = .ok (some [some " "]) ∧
    ¬NotBlank (some [some " "]) ∧
    (Filter.compile (.field "lang" ⟨.present, ⟨none, none⟩⟩)
      [languageField [blankLanguage]]).Satisfied String.toLower (bareRow (some "S1")) := by
  refine ⟨by decide +kernel, ?_, ?_, ?_⟩
  · rw [chainValue_eq]
    rfl
  · intro hvalue
    obtain ⟨-, helements⟩ := hvalue _ rfl
    obtain ⟨text, htext, hcontent⟩ := helements _ (List.mem_singleton.mpr rfl)
    obtain rfl := Option.some.inj htext
    exact absurd hcontent (by decide)
  · rw [Filter.satisfied_compile_iff]
    decide +kernel

end CorpusAgent
