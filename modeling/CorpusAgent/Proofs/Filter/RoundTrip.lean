import CorpusAgent.Proofs.Filter.Reading
import CorpusAgent.Proofs.Json.ReadBack

/-!
# The canonical form of a filter is read back

* `Operator.Named.name`, `Operand.given_members`: an operator goes by its own name, and an operand
  is given by its own members.
* `Filter.Denotes.toJson`: what any tree stands for, its canonical form stands for.
* `Filter.writable_toJson`: the canonical form nests at most twice as deep as the filter, so text
  can hold it if the numbers of the filter are read back.
* `Filter.parse_toJson`: a filter that was read is read again from its canonical form.
-/

namespace CorpusAgent

/-! ### Leaves -/

theorem Operator.toLower_name {operator : Operator} (h : operator.isSupported = true) :
    operator.name.toLower = operator.name := by
  rw [← known_eq_toLower]
  cases operator with
  | unsupported name => cases h
  | _ => rfl

theorem Operator.Named.name {raw : String} {operator : Operator} (h : Named raw operator) :
    Named operator.name operator := by
  cases h with
  | known hsupported _ => exact .known hsupported (toLower_name hsupported)
  | like _ => exact .known rfl (toLower_name rfl)
  | other hlike h => exact .other hlike h

/-- The members of an operand are in order, behind the other members of a leaf. -/
theorem Operand.pairwise_members (o : Operand) :
    o.members.Pairwise (fun a b => a.1 < b.1) ∧ ∀ m ∈ o.members, "path" < m.1 := by
  have hvalue : "path" < "value" := by decide
  have hvalues : "path" < "values" := by decide
  have hboth : "value" < "values" := by decide
  obtain ⟨_ | value, _ | values⟩ := o
  · exact ⟨.nil, fun m hm => absurd hm List.not_mem_nil⟩
  · exact ⟨List.pairwise_singleton _ _, List.forall_mem_singleton.mpr hvalues⟩
  · exact ⟨List.pairwise_singleton _ _, List.forall_mem_singleton.mpr hvalue⟩
  · refine ⟨.cons (List.forall_mem_singleton.mpr hboth) (List.pairwise_singleton _ _), ?_⟩
    exact List.forall_mem_cons.mpr ⟨hvalue, List.forall_mem_singleton.mpr hvalues⟩

/-- Any other member of a leaf is none of its operand. -/
theorem Operand.find?_members (o : Operand) {name : String} (h : ¬"path" < name) :
    Json.find? name o.members = none :=
  Json.find?_eq_none fun m hm heq => h (heq ▸ o.pairwise_members.2 m hm)

theorem Operand.given_members (o : Operand) :
    Operand.Given (Json.find? "value" o.members) (Json.find? "values" o.members) o := by
  obtain ⟨_ | value, _ | values⟩ := o
  · exact .neither
  · exact .values values
  · exact .value value
  · exact .both value values

/-- A number is read back from its text; other scalars always are. -/
def Scalar.ReadsBack : Scalar → Prop
  | .number n => n.ReadsBack
  | _ => True

instance : (s : Scalar) → Decidable s.ReadsBack
  | .number n => inferInstanceAs (Decidable n.ReadsBack)
  | .text _ | .bool _ | .null => inferInstanceAs (Decidable True)

namespace Filter

theorem pairwise_field (name : String) (c : Condition) :
    (("field", .text name) :: c.members).Pairwise fun a b => a.1 < b.1 := by
  obtain ⟨horder, hbehind⟩ := c.operand.pairwise_members
  have hfield : "field" < "op" := by decide
  have hop : ∀ m ∈ c.operand.members, "op" < m.1 := fun m hm =>
    String.lt_trans (show "op" < "path" by decide) (hbehind m hm)
  refine .cons (List.forall_mem_cons.mpr ⟨hfield, fun m hm => ?_⟩) (.cons hop horder)
  exact String.lt_trans hfield (hop m hm)

theorem pairwise_path (origin : Origin) (key : String) (c : Condition) :
    (("op", .text c.operator.name) :: ("path", .list [.text origin.name, .text key]) ::
      c.operand.members).Pairwise fun a b => a.1 < b.1 := by
  obtain ⟨horder, hbehind⟩ := c.operand.pairwise_members
  have hpath : "op" < "path" := by decide
  refine .cons (List.forall_mem_cons.mpr ⟨hpath, fun m hm => ?_⟩) (.cons hbehind horder)
  exact String.lt_trans hpath (hbehind m hm)

theorem toJson_field (name : String) (c : Condition) :
    (Filter.field name c).toJson = .object (("field", .text name) :: c.members) :=
  Json.ofMembers_eq_object (pairwise_field name c)

theorem toJson_path (origin : Origin) (key : String) (c : Condition) :
    (Filter.path origin key c).toJson =
      .object (("op", .text c.operator.name) ::
        ("path", .list [.text origin.name, .text key]) :: c.operand.members) := by
  have hfirst : Json.insertMember "path" (.list [.text origin.name, .text key]) [] =
      [("path", .list [.text origin.name, .text key])] := rfl
  -- the operator is put in front of the path
  have hsecond : Json.insertMember "op" (.text c.operator.name)
      [("path", .list [.text origin.name, .text key])] =
      [("op", .text c.operator.name), ("path", .list [.text origin.name, .text key])] :=
    if_pos (by decide)
  rw [toJson, Json.ofMembers, Condition.members, List.foldl_cons, List.foldl_cons, hfirst, hsecond,
    Json.foldl_insertMember (pairwise_path origin key c)]
  rfl

theorem exists_toJson (e : Filter) : ∃ members, e.toJson = .object members := by
  cases e <;> exact ⟨_, rfl⟩

theorem find?_group (o : Operand) : ∀ group ∈ groups, Json.find? group o.members = none := by
  intro group hgroup
  refine o.find?_members ?_
  revert group
  decide

theorem find?_group_cons {members : List (String × Json)} {name : String} (v : Json)
    (hname : name ∉ groups) (h : ∀ group ∈ groups, Json.find? group members = none) :
    ∀ group ∈ groups, Json.find? group ((name, v) :: members) = none := by
  intro group hgroup
  have hne : name ≠ group := fun heq => hname (heq ▸ hgroup)
  rw [Json.find?, if_neg hne, h group hgroup]

theorem denotes_toJson_field {raw name : String} {c : Condition}
    (h : Operator.Named raw c.operator) : Denotes (Filter.field name c).toJson (.field name c) := by
  rw [toJson_field]
  refine .field ?_ rfl ⟨⟨c.operator.name, rfl, h.name⟩, c.operand.given_members⟩
  exact find?_group_cons _ (by decide) (find?_group_cons _ (by decide) (find?_group c.operand))

theorem denotes_toJson_path {raw key : String} {origin : Origin} {c : Condition}
    (h : Operator.Named raw c.operator) (hkey : Text.isBlank key = false) :
    Denotes (Filter.path origin key c).toJson (.path origin key c) := by
  rw [toJson_path]
  refine .path ?_ (c.operand.find?_members (by decide)) rfl hkey
    ⟨⟨c.operator.name, rfl, h.name⟩, c.operand.given_members⟩
  exact find?_group_cons _ (by decide) (find?_group_cons _ (by decide) (find?_group c.operand))

mutual

/-- What any tree stands for, its canonical form stands for. -/
theorem Denotes.toJson {v : Json} {e : Filter} (h : Denotes v e) : Denotes e.toJson e := by
  cases e with
  | all parts =>
    obtain ⟨items, hitems⟩ : ∃ items, List.Forall₂ Denotes items parts := by
      cases h with
      | list h => exact ⟨_, h⟩
      | all h => exact ⟨_, h⟩
    exact .all (denotes_toJsonList hitems)
  | any parts =>
    cases h with
    | any h => exact .any (denotes_toJsonList h)
  | not part =>
    obtain ⟨w, hpart⟩ : ∃ w, Denotes w part := by
      cases h with
      | notItem h => exact ⟨_, h⟩
      | notValue _ h => exact ⟨_, h⟩
    obtain ⟨members, hmembers⟩ := exists_toJson part
    exact .notValue (hmembers ▸ rfl) hpart.toJson
  | field name c =>
    cases h with
    | field _ _ hc =>
      obtain ⟨raw, -, hnamed⟩ := hc.operator
      exact denotes_toJson_field hnamed
  | path origin key c =>
    cases h with
    | path _ _ _ hkey hc =>
      obtain ⟨raw, -, hnamed⟩ := hc.operator
      exact denotes_toJson_path hnamed hkey

theorem denotes_toJsonList {items : List Json} {parts : List Filter}
    (h : List.Forall₂ Denotes items parts) : List.Forall₂ Denotes (toJsonList parts) parts := by
  cases parts with
  | nil => exact .nil
  | cons part rest =>
    cases h with
    | cons hpart hrest => exact .cons hpart.toJson (denotes_toJsonList hrest)

end

/-! ### Text -/

/-- The scalars that a node itself is written with, its parts apart. -/
def scalars : Filter → List Scalar
  | .field _ c => c.operand.scalars
  | .path _ _ c => c.operand.scalars
  | _ => []

/-- The numbers of a filter are read back from their text. -/
def ReadsBack (e : Filter) : Prop := ∀ node ∈ e.nodes, ∀ s ∈ node.scalars, s.ReadsBack

instance (e : Filter) : Decidable e.ReadsBack :=
  inferInstanceAs (Decidable (∀ node ∈ e.nodes, ∀ s ∈ node.scalars, s.ReadsBack))

theorem writable_scalar {depth : Nat} {s : Scalar} (h : s.ReadsBack) :
    Json.Writable depth s.toJson := by
  cases s with
  | text value => exact .text value
  | number n => exact .number h
  | bool value => exact .bool value
  | null => exact .null

theorem writable_operand {o : Operand} (h : ∀ s ∈ o.scalars, s.ReadsBack) :
    ∀ m ∈ o.members, Json.Writable 1 m.2 := by
  obtain ⟨hvalue, hvalues⟩ := List.forall_mem_append.mp h
  refine List.forall_mem_append.mpr ⟨?_, ?_⟩
  · cases ho : o.value with
    | none => exact fun m hm => absurd hm List.not_mem_nil
    | some s =>
      rw [ho] at hvalue
      exact List.forall_mem_singleton.mpr (writable_scalar (hvalue s (List.mem_singleton_self s)))
  · cases ho : o.values with
    | none => exact fun m hm => absurd hm List.not_mem_nil
    | some ss =>
      rw [ho] at hvalues
      refine List.forall_mem_singleton.mpr (.list (List.forall_mem_map.mpr fun s hs => ?_))
      exact writable_scalar (hvalues s hs)

theorem writable_field {name : String} {c : Condition}
    (h : ∀ s ∈ c.operand.scalars, s.ReadsBack) :
    Json.Writable 2 (Filter.field name c).toJson := by
  rw [toJson_field]
  refine .object (pairwise_field name c) ?_
  exact List.forall_mem_cons.mpr ⟨.text _, List.forall_mem_cons.mpr ⟨.text _, writable_operand h⟩⟩

theorem writable_path {origin : Origin} {key : String} {c : Condition}
    (h : ∀ s ∈ c.operand.scalars, s.ReadsBack) :
    Json.Writable 2 (Filter.path origin key c).toJson := by
  rw [toJson_path]
  have hpath : Json.Writable 1 (.list [.text origin.name, .text key]) :=
    .list (List.forall_mem_cons.mpr ⟨.text _, List.forall_mem_singleton.mpr (.text _)⟩)
  refine .object (pairwise_path origin key c) ?_
  exact List.forall_mem_cons.mpr ⟨.text _, List.forall_mem_cons.mpr ⟨hpath, writable_operand h⟩⟩

theorem writable_member {depth : Nat} {v : Json} (h : Json.Writable depth v) (name : String) :
    Json.Writable (depth + 1) (.object [(name, v)]) :=
  .object (List.pairwise_singleton _ _) (List.forall_mem_singleton.mpr h)

mutual

/-- Text can hold the canonical form of a filter whose numbers are read back. -/
theorem writable_toJson (e : Filter) (h : e.ReadsBack) :
    Json.Writable (2 * e.depth) e.toJson := by
  cases e with
  | all parts =>
    have hparts := writable_toJsonList parts (List.forall_mem_cons.mp h).2
    exact writable_member (.list hparts) "and"
  | any parts =>
    have hparts := writable_toJsonList parts (List.forall_mem_cons.mp h).2
    exact writable_member (.list hparts) "or"
  | not part =>
    have hpart := writable_toJson part (List.forall_mem_cons.mp h).2
    exact (writable_member hpart "not").mono (Nat.le_succ _)
  | field name c => exact writable_field (List.forall_mem_singleton.mp h)
  | path origin key c => exact writable_path (List.forall_mem_singleton.mp h)

theorem writable_toJsonList (parts : List Filter)
    (h : ∀ node ∈ nodesOf parts, ∀ s ∈ node.scalars, s.ReadsBack) :
    ∀ item ∈ toJsonList parts, Json.Writable (2 * depthOf parts) item := by
  cases parts with
  | nil => exact fun item hitem => absurd hitem List.not_mem_nil
  | cons part rest =>
    obtain ⟨hpart, hrest⟩ := List.forall_mem_append.mp h
    rw [toJsonList, depthOf, List.forall_mem_cons]
    refine ⟨(writable_toJson part hpart).mono ?_, fun item hitem => ?_⟩
    · exact Nat.mul_le_mul_left 2 (Nat.le_max_left _ _)
    · refine (writable_toJsonList rest hrest item hitem).mono ?_
      exact Nat.mul_le_mul_left 2 (Nat.le_max_right _ _)

end

theorem isBlank_canonicalText (e : Filter) : Text.isBlank e.canonicalText = false := by
  obtain ⟨members, hmembers⟩ := exists_toJson e
  rw [canonicalText, hmembers, Json.print, Text.isBlank_append, Text.isBlank_append]
  rfl

/-- **A filter that was read is read again from its canonical form**: as a tree, and as text where
this text is read back, which it is if the numbers in it are. -/
theorem parse_toJson {v : Json} {e : Filter} (h : parse v = .ok e) :
    parse e.toJson = .ok e ∧ parseValue e.toJson = .ok (some e) ∧
      (Json.read? e.canonicalText = some e.toJson →
        parseValue (.text e.canonicalText) = .ok (some e)) ∧
      (e.ReadsBack → Json.read? e.canonicalText = some e.toJson) := by
  obtain ⟨hdenotes, hwithin⟩ := denotes_of_parse h
  have hparse : parse e.toJson = .ok e := hdenotes.toJson.parse hwithin
  refine ⟨hparse, ?_, fun hread => ?_, fun hnumbers => ?_⟩
  · obtain ⟨members, hmembers⟩ := exists_toJson e
    have hvalue : parseValue e.toJson = some <$> parse e.toJson := by
      rw [hmembers]
      rfl
    rw [hvalue, hparse]
    rfl
  · have hvalue : parseValue (.text e.canonicalText) = some <$> parseText e.canonicalText := by
      rw [parseValue, isBlank_canonicalText]
      rfl
    rw [hvalue, parseText, hread]
    simp only [hparse]
    rfl
  · have hdepth : e.depth ≤ 8 := hwithin.depth
    exact Json.read?_print ((writable_toJson e hnumbers).mono (show 2 * e.depth ≤ 127 by omega))

/-- The number 2.5. -/
def twoAndHalf : Number := .decimal (.finite false (5 * twoTo 50) (-51))

/-- A tree that says in other words what the canonical form of its filter says. -/
def looseForm : Json :=
  .list [
    .object [("field", .text "author"), ("note", .null), ("op", .text "LIKE"), ("path", .null),
      ("value", .list [.text "\"Ada\"\n", .number (.integer (-7)), .null])],
    .object [("not", .list [.object [("op", .text "Eq"),
      ("path", .list [.text "file", .text "lang"]), ("value", .number twoAndHalf),
      ("values", .list [.bool true])]])]]

def looseFilter : Filter :=
  .all [
    .field "author" ⟨.contains, none, some [.text "\"Ada\"\n", .number (.integer (-7)), .null]⟩,
    .not (.path .file "lang" ⟨.equal, some (.number twoAndHalf), some [.bool true]⟩)]

theorem parse_toJson_looseForm :
    parse looseForm = .ok looseFilter ∧ parse looseFilter.toJson = .ok looseFilter ∧
      parseValue looseFilter.toJson = .ok (some looseFilter) ∧
      Json.read? looseFilter.canonicalText = some looseFilter.toJson ∧
      parseValue (.text looseFilter.canonicalText) = .ok (some looseFilter) := by
  have hparse : parse looseForm = .ok looseFilter := by rfl
  have hnumbers : looseFilter.ReadsBack := by decide +kernel
  obtain ⟨htree, hvalue, htext, hread⟩ := parse_toJson hparse
  exact ⟨hparse, htree, hvalue, hread hnumbers, htext (hread hnumbers)⟩

end Filter

end CorpusAgent
