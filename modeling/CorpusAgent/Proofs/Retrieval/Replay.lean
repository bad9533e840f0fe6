import CorpusAgent.Proofs.Filter.RoundTrip
import CorpusAgent.Proofs.Retrieval.Counted
import CorpusAgent.Proofs.Retrieval.FilterControl

/-!
# Recorded filters sent back

The record of a search by metadata has the filter that the search went by, in canonical form.  Each
of two filters that are joined keeps within the limits, but they are not checked again together.

* `Filter.FitTogether`: two filters keep within the limits also under one more node.
* `Filter.merge_cases`: only two filters that are joined come to a filter that was not read.
* `Filter.merge_again`: to join a filter with one of its parts once more changes nothing.
* `Replays`: what a recorded filter does as the filter of a caller.
* `retrieve_replay`: every recorded filter does so, unless two filters do not fit together.
-/

namespace CorpusAgent

/-! ### Joined filters -/

namespace Filter

/-- Two filters keep within the limits also under one more node. -/
structure FitTogether (e a : Filter) : Prop where
  count : e.nodes.length + a.nodes.length < maxNodes
  first : e.depth < maxDepth
  second : a.depth < maxDepth

theorem within_pair_iff {make : List Filter → Filter}
    (hdepth : ∀ parts, (make parts).depth = depthOf parts + 1)
    (hnodes : ∀ parts, (make parts).nodes = make parts :: nodesOf parts)
    (hwithin : ∀ parts, NodeWithin (make parts)) {e a : Filter} (he : e.Within) (ha : a.Within) :
    (make [e, a]).Within ↔ FitTogether e a := by
  have hcount : (make [e, a]).nodes.length = e.nodes.length + a.nodes.length + 1 := by
    rw [hnodes, nodesOf, nodesOf, nodesOf, List.append_nil, List.length_cons, List.length_append]
  have hlevels : (make [e, a]).depth = max e.depth a.depth + 1 := by
    rw [hdepth, depthOf, depthOf, depthOf, Nat.max_zero]
  constructor
  · intro h
    have hroom := h.count
    have hle := h.depth
    rw [hcount, Nat.add_one_le_iff] at hroom
    rw [hlevels, Nat.add_one_le_iff, Nat.max_lt] at hle
    exact ⟨hroom, hle.1, hle.2⟩
  · intro h
    refine ⟨hcount ▸ h.count, ?_, fun node hnode => ?_⟩
    · rw [hlevels, Nat.add_one_le_iff, Nat.max_lt]
      exact ⟨h.first, h.second⟩
    · rw [hnodes, nodesOf, nodesOf, nodesOf, List.append_nil] at hnode
      rcases List.mem_cons.mp hnode with rfl | hnode
      · exact hwithin _
      · exact (List.mem_append.mp hnode).elim (he.each node) (ha.each node)

/-- Two filters are joined by a strategy, neither having priority. -/
inductive Joined (a e : Filter) : MergeStrategy → Filter → Prop
  | both : Joined a e .mergeAnd (.all [e, a])
  | either : Joined a e .mergeOr (.any [e, a])

variable {a e f : Filter} {agent external : Option Filter} {mode : ControlMode}
  {strategy : MergeStrategy}

theorem Joined.within_iff (h : Joined a e strategy f) (he : e.Within) (ha : a.Within) :
    f.Within ↔ FitTogether e a := by
  cases h with
  | both =>
    exact within_pair_iff (fun _ => rfl) (fun _ => rfl) (fun _ => nodeWithin_of_texts rfl rfl) he ha
  | either =>
    exact within_pair_iff (fun _ => rfl) (fun _ => rfl) (fun _ => nodeWithin_of_texts rfl rfl) he ha

theorem Joined.denotes (h : Joined a e strategy f) (he : Denotes e.toJson e)
    (ha : Denotes a.toJson a) : Denotes f.toJson f := by
  cases h with
  | both => exact .all (.cons he (.cons ha .nil))
  | either => exact .any (.cons he (.cons ha .nil))

theorem merge_cases (h : merge agent external mode strategy = some f) :
    agent = some f ∨ external = some f ∨ mode = .collaborative ∧
      ∃ a e, agent = some a ∧ external = some e ∧ Joined a e strategy f := by
  cases mode with
  | agent => exact .inl h
  | external => exact .inr (.inl h)
  | collaborative =>
    cases agent with
    | none => exact .inr (.inl h)
    | some a =>
      cases external with
      | none => exact .inl h
      | some e =>
        obtain rfl := Option.some.inj h
        cases strategy with
        | mergeAnd => exact .inr (.inr ⟨rfl, a, e, rfl, rfl, .both⟩)
        | mergeOr => exact .inr (.inr ⟨rfl, a, e, rfl, rfl, .either⟩)
        | agentPriority => exact .inl rfl
        | externalPriority => exact .inr (.inl rfl)

theorem merge_alone (hmode : mode ≠ .agent)
    (h : mode = .external ∨ strategy = .externalPriority ∨ agent = none) :
    merge agent (some f) mode strategy = some f := by
  cases mode with
  | agent => exact absurd rfl hmode
  | external => rfl
  | collaborative =>
    cases agent with
    | none => rfl
    | some a =>
      rcases h with hexternal | rfl | hnone
      · cases hexternal
      · rfl
      · cases hnone

/-- Once more with the filter of a search in place of the caller's, the search is for the same
rows. -/
theorem merge_again (h : merge agent external mode strategy = some f) :
    ∃ g, merge agent (some f) mode strategy = some g ∧
      ∀ lower fields row, g.holds lower fields row = true ↔ f.holds lower fields row = true := by
  cases mode with
  | agent => exact ⟨f, h, fun _ _ _ => Iff.rfl⟩
  | external => exact ⟨f, rfl, fun _ _ _ => Iff.rfl⟩
  | collaborative =>
    cases agent with
    | none => exact ⟨f, rfl, fun _ _ _ => Iff.rfl⟩
    | some a =>
      refine ⟨strategy.combine a f, rfl, fun lower fields row => ?_⟩
      -- the rows of the model's filter are more or fewer already, if it was joined
      have hmodel : f = a ∨ ∃ e, f = strategy.combine a e := by
        cases external with
        | none => exact .inl (Option.some.inj h).symm
        | some e => exact .inr ⟨e, (Option.some.inj h).symm⟩
      cases strategy with
      | mergeAnd =>
        rw [MergeStrategy.combine, holds_all_pair, and_iff_left_iff_imp]
        rcases hmodel with rfl | ⟨e, rfl⟩
        · exact id
        · exact fun hf => ((holds_all_pair e a).mp hf).2
      | mergeOr =>
        rw [MergeStrategy.combine, holds_any_pair, or_iff_left_iff_imp]
        rcases hmodel with rfl | ⟨e, rfl⟩
        · exact id
        · exact fun ha => (holds_any_pair e a).mpr (.inr ha)
      | agentPriority =>
        rcases hmodel with rfl | ⟨e, rfl⟩ <;> exact Iff.rfl
      | externalPriority => exact Iff.rfl

end Filter

namespace Retrieval

/-! ### Filters of searches -/

theorem exists_parse_of_lenientFilter {given : Option Json} {e : Filter}
    (h : lenientFilter given = some e) : ∃ v, Filter.parse v = .ok e := by
  cases given with
  | none => cases h
  | some v =>
    have hread : Filter.parseValue v = .ok (some e) := by
      rw [lenientFilter, Option.map_some] at h
      split at h
      · rename_i f hf
        rw [Option.some.inj hf, h]
      · cases h
    have htree : ∀ w, some <$> Filter.parse w = .ok (some e) → Filter.parse w = .ok e := by
      intro w hw
      obtain ⟨f, hf, hsome⟩ := map_eq_ok_iff.mp hw
      rw [hf, Option.some.inj hsome]
    cases v with
    | null => cases hread
    | text s =>
      rw [Filter.parseValue] at hread
      split at hread
      · cases hread
      · obtain ⟨f, hf, hsome⟩ := map_eq_ok_iff.mp hread
        rw [Filter.parseText] at hf
        split at hf
        · rename_i w hw
          exact ⟨w, by rw [hf, Option.some.inj hsome]⟩
        · cases hf
    | bool b => exact ⟨_, htree _ hread⟩
    | number n => exact ⟨_, htree _ hread⟩
    | list items => exact ⟨_, htree _ hread⟩
    | object members => exact ⟨_, htree _ hread⟩

/-- The canonical form of the filter of a search stands for it, and if it does not keep within the
limits, two filters were joined that do not fit together. -/
theorem Setting.effectiveFilter_cases {c : Corpus} {given : Option Json}
    {collaborators : Collaborators} {args : Arguments} {f : Filter}
    (h : Setting.effectiveFilter ⟨c, lenientFilter given, collaborators⟩ args = some f) :
    Filter.Denotes f.toJson f ∧ (f.Within ∨ ¬f.Within ∧
      c.tools.metadata.controlMode = .collaborative ∧ ∃ a e,
        lenientFilter (Json.find? "filter" args) = some a ∧ lenientFilter given = some e ∧
        Filter.Joined a e c.tools.metadata.mergeStrategy f ∧ ¬Filter.FitTogether e a) := by
  rcases Filter.merge_cases h with hmodel | hcaller | ⟨hmode, a, e, hmodel, hcaller, hjoined⟩
  · obtain ⟨v, hv⟩ := exists_parse_of_lenientFilter hmodel
    obtain ⟨hdenotes, hwithin⟩ := Filter.denotes_of_parse hv
    exact ⟨hdenotes.toJson, .inl hwithin⟩
  · obtain ⟨v, hv⟩ := exists_parse_of_lenientFilter hcaller
    obtain ⟨hdenotes, hwithin⟩ := Filter.denotes_of_parse hv
    exact ⟨hdenotes.toJson, .inl hwithin⟩
  · obtain ⟨v, hv⟩ := exists_parse_of_lenientFilter hmodel
    obtain ⟨w, hw⟩ := exists_parse_of_lenientFilter hcaller
    obtain ⟨ha, hawithin⟩ := Filter.denotes_of_parse hv
    obtain ⟨he, hewithin⟩ := Filter.denotes_of_parse hw
    refine ⟨hjoined.denotes he.toJson ha.toJson, ?_⟩
    by_cases hwithin : f.Within
    · exact .inl hwithin
    · exact .inr ⟨hwithin, hmode, a, e, hmodel, hcaller, hjoined,
        fun hfit => hwithin ((hjoined.within_iff hewithin hawithin).mpr hfit)⟩

/-! ### Records -/

theorem exists_outcome_of_mem_workflow {corpora : List Corpus} {collaborators : Collaborators}
    {r : Request} {record : Record}
    (h : record ∈ (retrieve corpora collaborators r).workflow) :
    ∃ c start, r.corpus? corpora = some c ∧ retrieve corpora collaborators r =
      Setting.outcome ⟨c, lenientFilter r.filter, collaborators⟩ start := by
  rw [retrieve] at h ⊢
  cases hc : corpora.find? fun c => c.id == r.corpusId with
  | none =>
    rw [hc] at h
    cases h
  | some c =>
    cases hopening : opening c r.messages with
    | error fault =>
      simp only [hc, hopening] at h
      cases fault <;> cases h
    | ok start => exact ⟨c, start, hc, by simp only [hopening]⟩

/-- The record of a search by metadata that has a filter has the filter that was counted. -/
theorem outcome_recorded {env : Setting} {start : List Message} {record : Record} {value : Json}
    (h : record ∈ (env.outcome start).workflow) (htool : record.tool = .metadata)
    (hvalue : record.summary.member? "filter" = some value) (hnull : value ≠ .null) :
    ∃ f, env.effectiveFilter record.arguments = some f ∧ value = f.toJson ∧
      .countDocuments env.corpus.id (some (f.compile env.corpus.fields)) ∈
        (env.outcome start).calls := by
  obtain ⟨log, m, t, answer, hpath, hstopped, hcalls, hworkflow⟩ := outcome_path env start
  rw [hworkflow, hpath.workflow_eq] at h
  obtain ⟨run, hrun, rfl⟩ := List.mem_map.mp h
  obtain ⟨earlier, later, hlog⟩ := List.append_of_mem hrun
  obtain ⟨before, s, step, -, hperformed, hsummary, -, -, hafter⟩ := hpath.split hlog
  rw [htool] at hperformed
  have hfilter : ∀ count filter, step = .metadata count filter → value = filter := by
    rintro count filter rfl
    rw [hsummary, Step.metadata, Step.summary, Json.member?_ofMembers] at hvalue
    exact (Option.some.inj hvalue).symm
  have hprefix : s.calls <+: (env.outcome start).calls := by
    rw [hcalls]
    exact hafter.calls_prefix.trans hstopped.search.1
  cases hperformed with
  | unfiltered hnone => exact absurd (hfilter 0 .null rfl) hnull
  | @counted f count hsome hcount =>
    exact ⟨f, hsome, hfilter count f.toJson rfl,
      hprefix.subset (List.mem_append_right _ (List.mem_singleton_self _))⟩

/-! ### Replays -/

/-- What a recorded value does as the filter of a caller, on a corpus where a search with these
arguments had gone by the filter `f`. -/
structure Replays (corpora : List Corpus) (r : Request) (c : Corpus) (args : Arguments)
    (value : Json) (f : Filter) : Prop where
  /-- The recorded value is read as the filter. -/
  parsed : Filter.parse value = .ok f
  /-- Under the caller's control every run passes the predicate of the filter and no other. -/
  passed : c.tools.metadata.controlMode = .external → ∀ collaborators p,
    some p ∈ (retrieve corpora collaborators { r with filter := some value }).predicates →
      p = f.compile c.fields
  /-- A search goes by the filter itself where the caller's filter counts and the model has none or
  a lower priority. -/
  alone : ∀ collaborators other, c.tools.metadata.controlMode ≠ .agent →
    c.tools.metadata.controlMode = .external ∨
      c.tools.metadata.mergeStrategy = .externalPriority ∨
      lenientFilter (Json.find? "filter" other) = none →
    Setting.effectiveFilter ⟨c, lenientFilter (some value), collaborators⟩ other = some f
  /-- The same search again is for the same rows, whoever controls the filter. -/
  again : ∀ collaborators, ∃ g,
    Setting.effectiveFilter ⟨c, lenientFilter (some value), collaborators⟩ args = some g ∧
      ∀ lower row, (g.compile c.fields).Satisfied lower row ↔
        (f.compile c.fields).Satisfied lower row

section

variable {corpora : List Corpus} {r : Request} {c : Corpus} {given : Option Json}
  {collaborators : Collaborators} {args : Arguments} {f : Filter}

theorem replays_of_within (hc : r.corpus? corpora = some c)
    (hfilter : Setting.effectiveFilter ⟨c, lenientFilter given, collaborators⟩ args = some f)
    (hdenotes : Filter.Denotes f.toJson f) (hwithin : f.Within) :
    Replays corpora r c args f.toJson f := by
  have hparsed : Filter.parse f.toJson = .ok f := hdenotes.parse hwithin
  have hcaller : lenientFilter (some f.toJson) = some f :=
    lenientFilter_of_parsed (Filter.parse_toJson hparsed).2.1
  have halone : ∀ collaborators other, c.tools.metadata.controlMode ≠ .agent →
      c.tools.metadata.controlMode = .external ∨
        c.tools.metadata.mergeStrategy = .externalPriority ∨
        lenientFilter (Json.find? "filter" other) = none →
      Setting.effectiveFilter ⟨c, lenientFilter (some f.toJson), collaborators⟩ other = some f := by
    intro collaborators other hmode hcounts
    rw [hcaller]
    exact Filter.merge_alone hmode hcounts
  refine ⟨hparsed, fun hmode collaborators p hp => ?_, halone, fun collaborators => ?_⟩
  · obtain ⟨other, g, hg, rfl⟩ := retrieve_passed (r := { r with filter := some f.toJson }) hc hp
    have hagent : c.tools.metadata.controlMode ≠ .agent := by
      rw [hmode]
      decide
    rw [halone collaborators other hagent (.inl hmode)] at hg
    rw [Option.some.inj hg]
  · rw [hcaller]
    obtain ⟨g, hg, hrows⟩ := Filter.merge_again hfilter
    refine ⟨g, hg, fun lower row => ?_⟩
    rw [Filter.satisfied_compile_iff, Filter.satisfied_compile_iff]
    exact hrows lower c.fields row

end

/-- **Recorded filters can be sent back.**  In every run the record of a search by metadata that has
a filter has the canonical form of the filter that was counted.  If this filter keeps within the
limits, it is read from the record exactly and does the same as a caller's filter.  Otherwise it
cannot be read, and then two filters were joined that do not fit together. -/
theorem retrieve_replay {corpora : List Corpus} {collaborators : Collaborators} {r : Request}
    {record : Record} (hrecord : record ∈ (retrieve corpora collaborators r).workflow)
    (htool : record.tool = .metadata) {value : Json}
    (hvalue : record.summary.member? "filter" = some value) (hnull : value ≠ .null) :
    ∃ c f, r.corpus? corpora = some c ∧
      Setting.effectiveFilter ⟨c, lenientFilter r.filter, collaborators⟩ record.arguments =
        some f ∧
      .countDocuments c.id (some (f.compile c.fields)) ∈
        (retrieve corpora collaborators r).calls ∧
      value = f.toJson ∧
      (f.Within ∧ Replays corpora r c record.arguments value f ∨
        ¬f.Within ∧ (∃ e, Filter.parse value = .error e) ∧
        c.tools.metadata.controlMode = .collaborative ∧ ∃ a e,
          lenientFilter (Json.find? "filter" record.arguments) = some a ∧
          lenientFilter r.filter = some e ∧
          Filter.Joined a e c.tools.metadata.mergeStrategy f ∧ ¬Filter.FitTogether e a) := by
  obtain ⟨c, start, hc, hretrieve⟩ := exists_outcome_of_mem_workflow hrecord
  rw [hretrieve] at hrecord ⊢
  obtain ⟨f, hfilter, rfl, hcounted⟩ := outcome_recorded hrecord htool hvalue hnull
  obtain ⟨hdenotes, hlimits⟩ := Setting.effectiveFilter_cases hfilter
  refine ⟨c, f, hc, hfilter, hcounted, rfl, ?_⟩
  rcases hlimits with hwithin | ⟨hwithin, hjoined⟩
  · exact .inl ⟨hwithin, replays_of_within hc hfilter hdenotes hwithin⟩
  · refine .inr ⟨hwithin, ?_, hjoined⟩
    cases hparse : Filter.parse f.toJson with
    | error e => exact ⟨e, rfl⟩
    | ok g =>
      obtain ⟨hg, hgwithin⟩ := Filter.denotes_of_parse hparse
      exact absurd (hdenotes.unique hg ▸ hgwithin) hwithin

/-- The model searches once by metadata, with these arguments. -/
def searchScript (arguments : String) : Script where
  completions := [.ok ⟨none, [⟨"1", "findDocumentsByMetadata", arguments⟩]⟩, .ok ⟨some "None.", []⟩]
  embeddings := []
  counts := [.ok 3]
  documents := []
  passages := []

/-- A corpus whose searches by metadata go by the caller's filter and the model's together. -/
def sharedArchive : Corpus :=
  ⟨"archive", none, none, {}, { metadata := { controlMode := .collaborative } }, []⟩

/-- Conjunctions of conjunctions, so many levels below the first one. -/
def nestedLists : Nat → Json
  | 0 => .list []
  | levels + 1 => .list [nestedLists levels]

def searchRequest (levels : Nat) : Request :=
  ⟨"archive", [⟨.user, "How many letters are there?"⟩], some (nestedLists levels)⟩

/-- The outcome if the model adds a conjunction of nothing to so many levels of the caller. -/
def searchOutcome (levels : Nat) : Outcome :=
  retrieve [sharedArchive] (searchScript "\x7b\"filter\":[]\x7d").collaborators
    (searchRequest levels)

/-- Why a tree is not read as a filter. -/
def unread? (v : Json) : Option FilterError :=
  match Filter.parse v with
  | .ok _ => none
  | .error e => some e

/-- The tools of an outcome, each with why the filter of its record is not read. -/
def Outcome.unread (o : Outcome) : List (Tool × Option (Option FilterError)) :=
  o.workflow.map fun record => (record.tool, (record.summary.member? "filter").map unread?)

theorem exists_recorded {o : Outcome} {e : Option FilterError}
    (h : o.unread = [(.metadata, some e)]) (hnull : e ≠ some ⟨[], .noNode⟩) :
    ∃ record ∈ o.workflow, record.tool = .metadata ∧ ∃ value,
      record.summary.member? "filter" = some value ∧ value ≠ .null ∧ unread? value = e := by
  obtain ⟨record, hrecord, hfault⟩ := List.mem_map.mp (h ▸ List.mem_singleton_self _)
  obtain ⟨htool, hmember⟩ := Prod.mk.inj hfault
  obtain ⟨value, hvalue, he⟩ := Option.map_eq_some_iff.mp hmember
  refine ⟨record, hrecord, htool, value, hvalue, ?_, he⟩
  rintro rfl
  exact hnull he.symm

/-- Six levels below the first leave room for the node that joins both filters. -/
theorem retrieve_replay_sharedArchive :
    ∃ record ∈ (searchOutcome 6).workflow, record.tool = .metadata ∧ ∃ value,
      record.summary.member? "filter" = some value ∧ value ≠ .null ∧
      ∃ f, Replays [sharedArchive] (searchRequest 6) sharedArchive record.arguments value f := by
  have hfaults : (searchOutcome 6).unread = [(.metadata, some none)] := by decide +kernel
  obtain ⟨record, hrecord, htool, value, hvalue, hnull, hread⟩ := exists_recorded hfaults nofun
  obtain ⟨c, f, hc, -, -, -, ⟨-, hreplays⟩ | ⟨-, ⟨e, he⟩, -⟩⟩ :=
    retrieve_replay hrecord htool hvalue hnull
  · obtain rfl : sharedArchive = c := Option.some.inj hc
    exact ⟨record, hrecord, htool, value, hvalue, hnull, f, hreplays⟩
  · rw [unread?, he] at hread
    cases hread

/-- Seven levels below the first leave none: the recorded filter has nine levels. -/
theorem recorded_filter_too_deep :
    ∃ record ∈ (searchOutcome 7).workflow, record.tool = .metadata ∧ ∃ value,
      record.summary.member? "filter" = some value ∧ value ≠ .null ∧
      ∃ place, Filter.parse value = .error ⟨place, .tooDeep 9 8⟩ := by
  have hfaults : (searchOutcome 7).unread = [(.metadata, some (some
      ⟨(List.replicate 8 [.name "and", .index 0]).flatten, .tooDeep 9 8⟩))] := by
    decide +kernel
  obtain ⟨record, hrecord, htool, value, hvalue, hnull, hread⟩ :=
    exists_recorded hfaults (by decide)
  refine ⟨record, hrecord, htool, value, hvalue, hnull, ?_⟩
  cases hparse : Filter.parse value with
  | ok f =>
    rw [unread?, hparse] at hread
    cases hread
  | error e =>
    rw [unread?, hparse] at hread
    exact ⟨_, congrArg Except.error (Option.some.inj hread)⟩

end Retrieval

end CorpusAgent
