import CorpusAgent.Proofs.Retrieval.Offered
import CorpusAgent.Proofs.Settings.Normal

/-!
# What providers get to see

The texts of a corpus that take the place of defaults come before the providers in three places: the
system prompt at the beginning of each transcript, the descriptions of the tools, and the model of
embeddings.

* `isBlank_toolDescription`: the description of a tool is blank only if the corpus has a blank one.
* `Call.Presentable`: a call has no blank text in these places.
* `outcome_presentable`: so are all calls of a run on a corpus without such texts.
* `normalize_presentable`: so are those of all runs in settings that were loaded.
-/

namespace CorpusAgent

open Text (isBlank)

/-- None of the texts that take the place of defaults is blank. -/
def Corpus.Presentable (c : Corpus) : Prop :=
  ∀ o text, c.override? o = some text → isBlank text = false

theorem Corpus.presentable_normalize (c : Corpus) : c.normalize.Presentable := by
  intro o text htext
  rw [override?_normalize] at htext
  exact (present_eq_some_iff.mp htext).2

theorem Corpus.Presentable.getD {c : Corpus} (h : c.Presentable) (o : Override) {default : String}
    (hdefault : isBlank default = false) : isBlank ((c.override? o).getD default) = false := by
  cases htext : c.override? o with
  | none => exact hdefault
  | some text => exact h o text htext

theorem isBlank_append_right (s : String) {t : String} (h : isBlank t = false) :
    isBlank (s ++ t) = false := by
  rw [Text.isBlank_append, h, Bool.and_false]

theorem Tool.isBlank_defaultDescription (tool : Tool) :
    isBlank tool.defaultDescription = false := by
  cases tool with
  | exit | chunks | summaries | metadata => exact isBlank_append_right _ rfl

theorem Corpus.Presentable.isBlank_toolDescription {c : Corpus} (h : c.Presentable) (tool : Tool) :
    isBlank (c.toolDescription tool) = false := by
  have hbase : isBlank ((tool.ownDescription c.tools).getD tool.defaultDescription) = false :=
    h.getD (.description tool) tool.isBlank_defaultDescription
  cases tool with
  | metadata =>
    rw [toolDescription, Text.isBlank_append, Text.isBlank_append, hbase, Bool.false_and,
      Bool.false_and]
  | exit | chunks | summaries => exact hbase

namespace Retrieval

theorem isBlank_defaultPrompt : isBlank defaultPrompt = false := isBlank_append_right _ rfl

/-- A call has no blank text in place of a default: the transcript begins with a prompt, the offered
tools are described, and a model that is asked for has a name. -/
def Call.Presentable : Call → Prop
  | .complete transcript tools _ =>
    (∃ prompt rest, transcript = .plain .system prompt :: rest ∧ isBlank prompt = false) ∧
      ∀ tool ∈ tools, isBlank tool.description = false
  | .embed model _ => ∀ name, model = some name → isBlank name = false
  | .countDocuments .. | .searchDocuments .. | .searchChunks _ => True

variable {env : Setting}

theorem Segment.model_eq {args : Arguments} {tool : Tool} {segment : List Call}
    {model : Option String} {texts : List String} (h : Segment env args tool segment)
    (hcall : .embed model texts ∈ segment) : model = env.corpus.embeddingModel := by
  cases h with
  | exit | unfiltered => cases hcall
  | chunks hquery search | summaries hquery vector =>
    rw [List.mem_pair] at hcall
    obtain hcall | hcall := hcall
    · exact (Call.embed.inj hcall).1
    · cases hcall
  | counted => cases List.mem_singleton.mp hcall

theorem Offers.exists_tool {c : Corpus} {start : List Message} {number : Nat}
    {transcript : List Message} {tools : List ToolSpec} {force : Bool}
    (h : Offers c start number transcript tools force) :
    ∀ spec ∈ tools, ∃ tool, spec = c.toolSpec tool := by
  intro spec hspec
  rw [h.offered] at hspec
  split at hspec
  · split at hspec
    · exact ⟨.exit, List.mem_singleton.mp hspec⟩
    · cases hspec
  · obtain ⟨tool, -, rfl⟩ := List.mem_map.mp hspec
    exact ⟨tool, rfl⟩

theorem Offers.presentable {c : Corpus} {messages : List ChatMessage} {number : Nat}
    {transcript : List Message} {tools : List ToolSpec} {force : Bool} (hc : c.Presentable)
    (h : Offers c (conversation c messages) number transcript tools force) :
    (Call.complete transcript tools force).Presentable := by
  obtain ⟨added, -, htranscript⟩ := h.prompted
  refine ⟨⟨_, _, htranscript, hc.getD .systemPrompt isBlank_defaultPrompt⟩, ?_⟩
  intro spec hspec
  obtain ⟨tool, rfl⟩ := h.exists_tool spec hspec
  exact hc.isBlank_toolDescription tool

/-- All calls of a run on a corpus without blank texts are presentable. -/
theorem outcome_presentable (hc : env.corpus.Presentable) (messages : List ChatMessage) :
    ∀ call ∈ (env.outcome (conversation env.corpus messages)).calls, call.Presentable := by
  intro call hcall
  obtain ⟨before, after, hsplit⟩ := List.append_of_mem hcall
  cases call with
  | complete transcript tools force =>
    exact ((env.outcome_bounded _).offers before transcript tools force after hsplit).presentable hc
  | embed model texts =>
    have hmade := (outcome_onlyOffered env _).accounted before _ after hsplit rfl
    obtain ⟨args, tool, segment, hsegment, hmem⟩ := hmade.exists_segment
    obtain rfl := hsegment.model_eq hmem
    exact hc .embeddingModel
  | countDocuments | searchDocuments | searchChunks => trivial

/-- **Blank texts never take the place of defaults.**  Normalization makes exactly the blank ones
absent and changes nothing else, a second time nothing at all, and it does not matter to the check.
So in no run in settings that were loaded a provider gets to see one: transcripts begin with a
prompt, offered tools are described, and a model that is asked for has a name. -/
theorem normalize_presentable (s : Settings) :
    s.Tidied s.normalize ∧ s.normalize.normalize = s.normalize ∧
      s.normalize.fault? = s.fault? ∧
      ∀ file text loaded, Settings.load file text = .ok loaded → ∀ collaborators r,
        ∀ call ∈ (retrieve loaded.corpora collaborators r).calls, call.Presentable := by
  refine ⟨s.tidied_normalize, s.normalize_normalize, s.fault?_normalize, ?_⟩
  intro file text loaded hload collaborators r call hcall
  obtain ⟨own, rfl⟩ := Settings.exists_of_load hload
  rcases retrieve_cases own.normalize.corpora collaborators r with
    ⟨-, hquiet⟩ | ⟨c, hc, -, -, hretrieve⟩
  · rw [hquiet] at hcall
    cases hcall
  · obtain ⟨d, -, rfl⟩ := List.mem_map.mp hc
    rw [hretrieve] at hcall
    exact outcome_presentable d.presentable_normalize r.messages call hcall

end Retrieval

end CorpusAgent
