import CorpusAgent.Proofs.Except
import CorpusAgent.Proofs.Filter.Grammar

/-!
# The leaves that can be read

* `Operator.ofName_eq_iff`: an operator is read from its names.
* `Filter.parseOperand_of_given`, `Filter.given_of_parseOperand`: an operand is read from its
  members.
* `Filter.parseLeaf_eq_ok_iff`: an object without the name of a group is read as the leaf that it
  stands for, if that keeps within the limits.
* `Condition.Given.unique`: the members of a leaf give one condition only.
-/

namespace CorpusAgent

/-! ### Operators -/

namespace Operator

theorem lower_eq_toLower (c : Char) : lower c = c.toLower := by
  have hle : (('A' ≤ c && c ≤ 'Z') = true) ↔ c.val ≥ 'A'.val ∧ c.val ≤ 'Z'.val := by
    rw [Bool.and_eq_true, decide_eq_true_iff, decide_eq_true_iff]
    rfl
  unfold lower Char.toLower
  by_cases h : c.val ≥ 'A'.val ∧ c.val ≤ 'Z'.val
  · rw [if_pos (hle.mpr h), dif_pos h]
    have hlast : c.toNat ≤ 90 := UInt32.le_iff_toNat_le.mp h.2
    have hvalid : (c.toNat + 32).isValidChar := .inl (by omega)
    have hcode : (Char.ofNat (c.toNat + 32)).toNat = c.toNat + 32 := by
      rw [Char.ofNat, dif_pos hvalid]
      rfl
    refine Char.toNat_inj.mp (hcode.trans ?_)
    change c.toNat + 32 = (c.toNat + 32) % 2 ^ 32
    omega
  · rw [if_neg (hle.not.mpr h), dif_neg h]

theorem toList_toLower (raw : String) : raw.toLower.toList = raw.toList.map Char.toLower :=
  String.toList_map

theorem known_eq_toLower (raw : String) :
    String.ofList (raw.toList.map lower) = raw.toLower := by
  rw [← String.toList_inj, toList_toLower, String.toList_ofList]
  exact List.map_congr_left fun c _ => lower_eq_toLower c

/-- Every name belongs to the operator that it is read as. -/
theorem named_ofName (raw : String) : Named raw (ofName raw) := by
  unfold ofName
  simp only [known_eq_toLower]
  split_ifs with heq hne hin hcontains hexists hnotExists hnotContains
  · exact .known rfl heq
  · exact .known rfl hne
  · exact .known rfl hin
  · rcases hcontains with hcontains | hlike
    · exact .known rfl hcontains
    · exact .like hlike
  · exact .known rfl hexists
  · exact .known rfl hnotExists
  · exact .known rfl hnotContains
  · rw [not_or] at hcontains
    refine .other hcontains.2 fun operator hsupported => ?_
    cases operator with
    | equal => exact heq
    | notEqual => exact hne
    | oneOf => exact hin
    | contains => exact hcontains.1
    | present => exact hexists
    | absent => exact hnotExists
    | notContains => exact hnotContains
    | unsupported name => cases hsupported

/-- A name is read as the operator that it belongs to. -/
theorem ofName_eq_of_named {raw : String} {operator : Operator} (h : Named raw operator) :
    ofName raw = operator := by
  unfold ofName
  simp only [known_eq_toLower]
  cases h with
  | known hsupported h =>
    rw [h]
    cases operator with
    | unsupported name => cases hsupported
    | _ => rfl
  | like h =>
    rw [h]
    rfl
  | other hlike h =>
    have hcontains : ¬(raw.toLower = "contains" ∨ raw.toLower = "like") :=
      not_or.mpr ⟨h .contains rfl, hlike⟩
    rw [if_neg (show raw.toLower ≠ "eq" from h .equal rfl),
      if_neg (show raw.toLower ≠ "ne" from h .notEqual rfl),
      if_neg (show raw.toLower ≠ "in" from h .oneOf rfl), if_neg hcontains,
      if_neg (show raw.toLower ≠ "exists" from h .present rfl),
      if_neg (show raw.toLower ≠ "not_exists" from h .absent rfl),
      if_neg (show raw.toLower ≠ "not_contains" from h .notContains rfl)]

theorem utf8ByteSize_ofList_le (cs : List Char) :
    (String.ofList cs).utf8ByteSize ≤ 4 * cs.length := by
  induction cs with
  | nil => exact Nat.le_refl _
  | cons c cs ih =>
    have hsize := c.utf8Size_le_four
    rw [String.ofList_cons, String.utf8ByteSize_append, String.utf8ByteSize_singleton,
      List.length_cons]
    omega

/-- All names of a supported operator are short, and others are kept. -/
theorem Named.size_le_iff {raw : String} {operator : Operator} (h : Named raw operator) :
    operator.name.utf8ByteSize ≤ Filter.maxTextBytes ↔ raw.utf8ByteSize ≤ Filter.maxTextBytes := by
  have hshort : ∀ name : String, name.toList.length ≤ 12 → raw.toLower = name →
      raw.utf8ByteSize ≤ Filter.maxTextBytes := by
    intro name hlength hname
    have hraw : raw.toList.length = name.toList.length := by
      rw [← hname, toList_toLower, List.length_map]
    have hsize := utf8ByteSize_ofList_le raw.toList
    rw [String.ofList_toList] at hsize
    unfold Filter.maxTextBytes
    omega
  cases h with
  | known hsupported h =>
    refine iff_of_true ?_ (hshort operator.name ?_ h)
    · cases operator with
      | unsupported name => cases hsupported
      | _ => decide
    · cases operator with
      | unsupported name => cases hsupported
      | _ => decide
  | like h => exact iff_of_true (by decide) (hshort "like" (by decide) h)
  | other hlike h => exact Iff.rfl

theorem ofName_eq_iff {raw : String} {operator : Operator} :
    ofName raw = operator ↔ Named raw operator :=
  ⟨fun h => h ▸ named_ofName raw, ofName_eq_of_named⟩

end Operator

/-! ### Leaves -/

namespace Filter

variable {place : FilterPath} {members : List (String × Json)}

theorem parseString_eq_ok_iff {v : Json} {s : String} :
    parseString place v = .ok s ↔ v = .text s ∧ s.utf8ByteSize ≤ maxTextBytes := by
  cases v with
  | text raw =>
    rw [parseString]
    split_ifs with hsize
    · rw [false_iff, Json.text.injEq]
      rintro ⟨rfl, hle⟩
      exact Nat.not_lt.mpr hle hsize
    · rw [pure_eq_ok_iff, Json.text.injEq]
      exact ⟨fun h => ⟨h, h ▸ Nat.not_lt.mp hsize⟩, And.left⟩
  | _ => exact iff_of_false (fun h => by cases h) fun h => by cases h.1

/-- The texts of a scalar are not too long. -/
def Short (s : Scalar) : Prop := ∀ text ∈ s.texts, text.utf8ByteSize ≤ maxTextBytes

theorem toJson_inj {s t : Scalar} : s.toJson = t.toJson ↔ s = t := by
  cases s <;> cases t <;> simp [Scalar.toJson]

/-- Without texts there is no limit to keep. -/
theorem eq_iff_short {s t : Scalar} (h : s.texts = []) :
    s = t ↔ s.toJson = t.toJson ∧ Short t := by
  rw [toJson_inj]
  refine (and_iff_left_of_imp ?_).symm
  rintro rfl text htext
  rw [h] at htext
  cases htext

theorem parseScalar_eq_ok_iff {v : Json} {s : Scalar} :
    parseScalar place v = .ok s ↔ v = s.toJson ∧ Short s := by
  cases v with
  | text raw =>
    rw [parseScalar, map_eq_ok_iff]
    simp only [parseString_eq_ok_iff]
    constructor
    · rintro ⟨text, ⟨htext, hsize⟩, rfl⟩
      exact ⟨htext, fun t ht => List.mem_singleton.mp ht ▸ hsize⟩
    · rintro ⟨hs, hshort⟩
      cases s with
      | text value => exact ⟨value, ⟨hs, hshort value (List.mem_singleton.mpr rfl)⟩, rfl⟩
      | _ => cases hs
  | number n => exact pure_eq_ok_iff.trans (eq_iff_short rfl)
  | bool b => exact pure_eq_ok_iff.trans (eq_iff_short rfl)
  | null => exact pure_eq_ok_iff.trans (eq_iff_short rfl)
  | list items => exact iff_of_false (fun h => by cases h) fun h => by cases s <;> cases h.1
  | object members => exact iff_of_false (fun h => by cases h) fun h => by cases s <;> cases h.1

theorem parseScalars_eq_ok_iff {i : Nat} {items : List Json} {ss : List Scalar} :
    parseScalars place i items = .ok ss ↔
      items = ss.map Scalar.toJson ∧ ∀ s ∈ ss, Short s := by
  induction items generalizing i ss with
  | nil =>
    rw [parseScalars, pure_eq_ok_iff]
    constructor
    · rintro rfl
      exact ⟨rfl, fun s hs => absurd hs List.not_mem_nil⟩
    · rintro ⟨hss, -⟩
      exact (List.map_eq_nil_iff.mp hss.symm).symm
  | cons v rest ih =>
    simp only [parseScalars, bind_eq_ok_iff, parseScalar_eq_ok_iff, ih, pure_eq_ok_iff]
    constructor
    · rintro ⟨s, ⟨rfl, hs⟩, ss, ⟨rfl, hss⟩, rfl⟩
      exact ⟨rfl, List.forall_mem_cons.mpr ⟨hs, hss⟩⟩
    · rintro ⟨hitems, hshort⟩
      cases ss with
      | nil => cases hitems
      | cons s ss =>
        obtain ⟨rfl, rfl⟩ := List.cons.inj hitems
        obtain ⟨hs, hss⟩ := List.forall_mem_cons.mp hshort
        exact ⟨s, ⟨rfl, hs⟩, ss, ⟨rfl, hss⟩, rfl⟩

theorem parseValues_eq_ok_iff {v : Json} {ss : List Scalar} :
    parseValues place v = .ok ss ↔
      v = .list (ss.map Scalar.toJson) ∧ ss.length ≤ maxValues ∧ ∀ s ∈ ss, Short s := by
  cases v with
  | list items =>
    rw [parseValues, Json.list.injEq]
    split_ifs with hlength
    · rw [false_iff]
      rintro ⟨rfl, hle, -⟩
      exact Nat.not_lt.mpr hle (List.length_map Scalar.toJson ▸ hlength)
    · rw [parseScalars_eq_ok_iff]
      refine and_congr_right fun hitems => (and_iff_right ?_).symm
      rw [← List.length_map Scalar.toJson, ← hitems]
      exact Nat.not_lt.mp hlength
  | _ => exact iff_of_false (fun h => by cases h) fun h => by cases h.1

/-- An operand keeps within the limits. -/
def OperandWithin (o : Operand) : Prop :=
  (∀ s, o.value = some s → Short s) ∧
    ∀ ss, o.values = some ss → ss.length ≤ maxValues ∧ ∀ s ∈ ss, Short s

theorem given_of_parseOperand {o : Operand} (h : parseOperand place members = .ok o) :
    Operand.Given (Json.find? "value" members) (Json.find? "values" members) o ∧
      OperandWithin o := by
  unfold parseOperand parseValuesMember at h
  generalize Json.find? "values" members = values at h ⊢
  generalize Json.find? "value" members = value at h ⊢
  obtain ⟨found, hfound, hrest⟩ := bind_eq_ok_iff.mp h
  cases values with
  | none =>
    obtain rfl := pure_eq_ok_iff.mp hfound
    cases value with
    | none =>
      obtain rfl := pure_eq_ok_iff.mp hrest
      exact ⟨.neither, fun s hs => (by cases hs), fun ss hss => (by cases hss)⟩
    | some v =>
      cases v with
      | list items =>
        obtain ⟨ss, hss, hrest⟩ := bind_eq_ok_iff.mp hrest
        obtain ⟨hitems, hwithin⟩ := parseValues_eq_ok_iff.mp hss
        obtain rfl := pure_eq_ok_iff.mp hrest
        rw [hitems]
        exact ⟨.listed ss, fun s hs => (by cases hs), fun ss hss => by cases hss; exact hwithin⟩
      | _ =>
        obtain ⟨s, hs, hrest⟩ := bind_eq_ok_iff.mp hrest
        obtain ⟨hv, hshort⟩ := parseScalar_eq_ok_iff.mp hs
        obtain rfl := pure_eq_ok_iff.mp hrest
        rw [hv]
        exact ⟨.value s, fun s hs => (by cases hs; exact hshort), fun ss hss => (by cases hss)⟩
  | some raw =>
    obtain ⟨ss, hss, rfl⟩ := map_eq_ok_iff.mp hfound
    obtain ⟨hitems, hwithin⟩ := parseValues_eq_ok_iff.mp hss
    rw [hitems]
    cases value with
    | none =>
      obtain rfl := pure_eq_ok_iff.mp hrest
      exact ⟨.values ss, fun s hs => (by cases hs), fun ss hss => by cases hss; exact hwithin⟩
    | some v =>
      have hscalar : (do
          let s ← parseScalar (place.member "value") v
          pure (⟨some s, some ss⟩ : Operand)) = .ok o := by
        cases v <;> exact hrest
      obtain ⟨s, hs, hrest⟩ := bind_eq_ok_iff.mp hscalar
      obtain ⟨hv, hshort⟩ := parseScalar_eq_ok_iff.mp hs
      obtain rfl := pure_eq_ok_iff.mp hrest
      rw [hv]
      exact ⟨.both s ss, fun s hs => (by cases hs; exact hshort),
        fun ss hss => by cases hss; exact hwithin⟩

theorem parseOperand_of_given {o : Operand}
    (h : Operand.Given (Json.find? "value" members) (Json.find? "values" members) o)
    (hwithin : OperandWithin o) : parseOperand place members = .ok o := by
  obtain ⟨hvalue, hvalues⟩ := hwithin
  unfold parseOperand parseValuesMember
  generalize Json.find? "values" members = values at h ⊢
  generalize Json.find? "value" members = value at h ⊢
  cases h with
  | neither => rfl
  | value s =>
    have hs : parseScalar (place.member "value") s.toJson = .ok s :=
      parseScalar_eq_ok_iff.mpr ⟨rfl, hvalue s rfl⟩
    refine bind_eq_ok_iff.mpr ⟨none, rfl, ?_⟩
    cases s <;> exact bind_eq_ok_iff.mpr ⟨_, hs, rfl⟩
  | values ss =>
    have hss : parseValues (place.member "values") (.list (ss.map Scalar.toJson)) = .ok ss :=
      parseValues_eq_ok_iff.mpr ⟨rfl, hvalues ss rfl⟩
    exact bind_eq_ok_iff.mpr ⟨some ss, map_eq_ok_iff.mpr ⟨ss, hss, rfl⟩, rfl⟩
  | both s ss =>
    have hs : parseScalar (place.member "value") s.toJson = .ok s :=
      parseScalar_eq_ok_iff.mpr ⟨rfl, hvalue s rfl⟩
    have hss : parseValues (place.member "values") (.list (ss.map Scalar.toJson)) = .ok ss :=
      parseValues_eq_ok_iff.mpr ⟨rfl, hvalues ss rfl⟩
    refine bind_eq_ok_iff.mpr ⟨some ss, map_eq_ok_iff.mpr ⟨ss, hss, rfl⟩, ?_⟩
    cases s <;> exact bind_eq_ok_iff.mpr ⟨_, hs, rfl⟩
  | listed ss =>
    have hss : parseValues (place.member "value") (.list (ss.map Scalar.toJson)) = .ok ss :=
      parseValues_eq_ok_iff.mpr ⟨rfl, hvalues ss rfl⟩
    exact bind_eq_ok_iff.mpr ⟨none, rfl, bind_eq_ok_iff.mpr ⟨ss, hss, rfl⟩⟩

/-- A condition keeps within the limits. -/
def ConditionWithin (c : Condition) : Prop :=
  (c.operand.values.getD []).length ≤ maxValues ∧
    ∀ text ∈ c.texts, text.utf8ByteSize ≤ maxTextBytes

theorem conditionWithin_iff {c : Condition} :
    ConditionWithin c ↔ c.operator.name.utf8ByteSize ≤ maxTextBytes ∧ OperandWithin c.operand := by
  obtain ⟨operator, value, values⟩ := c
  have htexts : (∀ text ∈ Condition.texts ⟨operator, value, values⟩,
      text.utf8ByteSize ≤ maxTextBytes) ↔ operator.name.utf8ByteSize ≤ maxTextBytes ∧
        (∀ s ∈ value.toList, Short s) ∧ ∀ s ∈ values.getD [], Short s := by
    rw [Condition.texts, List.forall_mem_cons, List.forall_mem_flatMap, Operand.scalars,
      List.forall_mem_append]
    rfl
  have hvalue : (∀ s, value = some s → Short s) ↔ ∀ s ∈ value.toList, Short s := by
    simp only [Option.mem_toList]
  have hvalues : (∀ ss, values = some ss → ss.length ≤ maxValues ∧ ∀ s ∈ ss, Short s) ↔
      (values.getD []).length ≤ maxValues ∧ ∀ s ∈ values.getD [], Short s := by
    cases values <;> simp
  rw [ConditionWithin, OperandWithin, htexts, hvalue, hvalues]
  tauto

theorem parseCondition_eq_ok_iff {c : Condition} :
    parseCondition place members = .ok c ↔ Condition.Given members c ∧ ConditionWithin c := by
  unfold parseCondition
  rw [conditionWithin_iff]
  cases hop : Json.find? "op" members with
  | none =>
    refine iff_of_false (fun h => by cases h) fun ⟨⟨⟨name, hname, _⟩, _⟩, _⟩ => ?_
    rw [hop] at hname
    cases hname
  | some raw =>
    simp only [bind_eq_ok_iff, parseString_eq_ok_iff, pure_eq_ok_iff]
    constructor
    · rintro ⟨name, ⟨rfl, hsize⟩, operand, hoperand, rfl⟩
      obtain ⟨hgiven, hwithin⟩ := given_of_parseOperand hoperand
      have hnamed := Operator.named_ofName name
      exact ⟨⟨⟨name, hop, hnamed⟩, hgiven⟩, hnamed.size_le_iff.mpr hsize, hwithin⟩
    · rintro ⟨⟨⟨name, hname, hnamed⟩, hgiven⟩, hsize, hwithin⟩
      obtain rfl := Option.some.inj (hop.symm.trans hname)
      refine ⟨name, ⟨rfl, hnamed.size_le_iff.mp hsize⟩, c.operand,
        parseOperand_of_given hgiven hwithin, ?_⟩
      rw [Operator.ofName_eq_of_named hnamed]

theorem ofName?_eq_some_iff {name : String} {origin : Origin} :
    Origin.ofName? name = some origin ↔ name = origin.name := by
  constructor
  · intro h
    have hfound : [Origin.file, .source, .llm].find? (fun origin => origin.name == name) =
        some origin := h
    have hname := List.find?_some hfound
    exact (beq_iff_eq.mp hname).symm
  · rintro rfl
    cases origin <;> rfl

theorem origin_size_le (origin : Origin) : origin.name.utf8ByteSize ≤ maxTextBytes := by
  cases origin <;> decide

theorem parseMetadataPath_eq_ok_iff {v : Json} {origin : Origin} {key : String} :
    parseMetadataPath place v = .ok (origin, key) ↔ v = .list [.text origin.name, .text key] ∧
      Text.isBlank key = false ∧ key.utf8ByteSize ≤ maxTextBytes := by
  constructor
  · intro h
    unfold parseMetadataPath at h
    split at h
    · obtain ⟨name, hname, hrest⟩ := bind_eq_ok_iff.mp h
      obtain ⟨rfl, -⟩ := parseString_eq_ok_iff.mp hname
      cases horigin : Origin.ofName? name with
      | none =>
        rw [horigin] at hrest
        cases hrest
      | some found =>
        rw [horigin] at hrest
        obtain ⟨text, htext, hpure⟩ := bind_eq_ok_iff.mp hrest
        obtain ⟨rfl, hsize⟩ := parseString_eq_ok_iff.mp htext
        by_cases hblank : Text.isBlank text = true
        · rw [if_pos hblank] at hpure
          cases hpure
        rw [if_neg hblank] at hpure
        obtain ⟨rfl, rfl⟩ := Prod.mk.inj (pure_eq_ok_iff.mp hpure)
        rw [ofName?_eq_some_iff.mp horigin]
        exact ⟨rfl, Bool.eq_false_iff.mpr hblank, hsize⟩
    · cases h
  · rintro ⟨rfl, hblank, hsize⟩
    have horigin : Origin.ofName? origin.name = some origin := ofName?_eq_some_iff.mpr rfl
    have hname : parseString (place.item 0) (.text origin.name) = .ok origin.name :=
      parseString_eq_ok_iff.mpr ⟨rfl, origin_size_le origin⟩
    have hkey : parseString (place.item 1) (.text key) = .ok key :=
      parseString_eq_ok_iff.mpr ⟨rfl, hsize⟩
    refine bind_eq_ok_iff.mpr ⟨_, hname, ?_⟩
    rw [horigin]
    refine bind_eq_ok_iff.mpr ⟨_, hkey, ?_⟩
    rw [if_neg (Bool.eq_false_iff.mp hblank)]
    rfl

theorem nodeWithin_field {name : String} {c : Condition} :
    NodeWithin (.field name c) ↔ name.utf8ByteSize ≤ maxTextBytes ∧ ConditionWithin c := by
  rw [NodeWithin, texts, List.forall_mem_cons, and_left_comm]
  rfl

theorem nodeWithin_path {origin : Origin} {key : String} {c : Condition} :
    NodeWithin (.path origin key c) ↔ key.utf8ByteSize ≤ maxTextBytes ∧ ConditionWithin c := by
  rw [NodeWithin, texts, List.forall_mem_cons, List.forall_mem_cons,
    and_iff_right (origin_size_le origin), and_left_comm]
  rfl

/-- An object without the name of a group stands for a leaf. -/
theorem Denotes.leaf {e : Filter} (h : Denotes (.object members) e)
    (hgroup : ∀ group ∈ groups, Json.find? group members = none) :
    (∃ name c, e = .field name c ∧ Json.find? "field" members = some (.text name) ∧
      Condition.Given members c) ∨
    ∃ origin key c, e = .path origin key c ∧ Json.find? "field" members = none ∧
      Json.find? "path" members = some (.list [.text origin.name, .text key]) ∧
        Text.isBlank key = false ∧ Condition.Given members c := by
  cases h with
  | all => exact absurd (hgroup "and" (by decide)) (by simp [Json.find?])
  | any => exact absurd (hgroup "or" (by decide)) (by simp [Json.find?])
  | notItem => exact absurd (hgroup "not" (by decide)) (by simp [Json.find?])
  | notValue => exact absurd (hgroup "not" (by decide)) (by simp [Json.find?])
  | field _ hname hc => exact .inl ⟨_, _, rfl, hname, hc⟩
  | path _ hfield hpath hkey hc => exact .inr ⟨_, _, _, rfl, hfield, hpath, hkey, hc⟩

/-- A leaf is read by its grammar. -/
theorem parseLeaf_eq_ok_iff {e : Filter}
    (hgroup : ∀ group ∈ groups, Json.find? group members = none) :
    parseLeaf place members = .ok e ↔ Denotes (.object members) e ∧ NodeWithin e := by
  unfold parseLeaf
  cases hfield : Json.find? "field" members with
  | some raw =>
    simp only [bind_eq_ok_iff, parseString_eq_ok_iff, parseCondition_eq_ok_iff, pure_eq_ok_iff]
    constructor
    · rintro ⟨name, ⟨rfl, hsize⟩, c, ⟨hc, hwithin⟩, rfl⟩
      exact ⟨.field hgroup hfield hc, nodeWithin_field.mpr ⟨hsize, hwithin⟩⟩
    · rintro ⟨hdenotes, hwithin⟩
      rcases hdenotes.leaf hgroup with ⟨name, c, rfl, hname, hc⟩ | ⟨_, _, _, _, hnone, -⟩
      · obtain rfl := Option.some.inj (hfield.symm.trans hname)
        obtain ⟨hsize, hwithin⟩ := nodeWithin_field.mp hwithin
        exact ⟨name, ⟨rfl, hsize⟩, c, ⟨hc, hwithin⟩, rfl⟩
      · cases hfield.symm.trans hnone
  | none =>
    cases hpath : Json.find? "path" members with
    | none =>
      refine iff_of_false (fun h => by cases h) fun ⟨hdenotes, _⟩ => ?_
      rcases hdenotes.leaf hgroup with ⟨_, _, _, hname, -⟩ | ⟨_, _, _, _, -, hsome, -⟩
      · cases hfield.symm.trans hname
      · cases hpath.symm.trans hsome
    | some raw =>
      simp only [bind_eq_ok_iff, Prod.exists, parseMetadataPath_eq_ok_iff,
        parseCondition_eq_ok_iff, pure_eq_ok_iff]
      constructor
      · rintro ⟨origin, key, ⟨rfl, hkey, hsize⟩, c, ⟨hc, hwithin⟩, rfl⟩
        exact ⟨.path hgroup hfield hpath hkey hc, nodeWithin_path.mpr ⟨hsize, hwithin⟩⟩
      · rintro ⟨hdenotes, hwithin⟩
        rcases hdenotes.leaf hgroup with ⟨_, _, _, hname, -⟩ |
          ⟨origin, key, c, rfl, -, hsome, hkey, hc⟩
        · cases hfield.symm.trans hname
        · obtain rfl := Option.some.inj (hpath.symm.trans hsome)
          obtain ⟨hsize, hwithin⟩ := nodeWithin_path.mp hwithin
          exact ⟨origin, key, ⟨rfl, hkey, hsize⟩, c, ⟨hc, hwithin⟩, rfl⟩

end Filter

/-! ### One reading only -/

theorem Scalar.map_toJson_inj {ss ts : List Scalar} :
    ss.map Scalar.toJson = ts.map Scalar.toJson ↔ ss = ts :=
  List.map_inj_right fun _ _ => Filter.toJson_inj.mp

/-- The members of an operand tell which one it is. -/
theorem Operand.Given.unique {value values : Option Json} {o o' : Operand}
    (h : Given value values o) (h' : Given value values o') : o = o' := by
  have hlist : ∀ (s : Scalar) (items : List Json), s.toJson ≠ .list items := by
    intro s items
    cases s <;> nofun
  cases h with
  | neither => cases h' with | neither => rfl
  | value s =>
    generalize hvalue : some s.toJson = value at h'
    cases h' with
    | neither => cases hvalue
    | value t => rw [Filter.toJson_inj.mp (Option.some.inj hvalue)]
    | listed ts => exact absurd (Option.some.inj hvalue) (hlist s _)
  | values ss =>
    generalize hvalues : some (Json.list (ss.map Scalar.toJson)) = values at h'
    cases h' with
    | neither => cases hvalues
    | values ts => rw [Scalar.map_toJson_inj.mp (Json.list.inj (Option.some.inj hvalues))]
  | both s ss =>
    generalize hvalue : some s.toJson = value at h'
    generalize hvalues : some (Json.list (ss.map Scalar.toJson)) = values at h'
    cases h' with
    | neither => cases hvalue
    | value t => cases hvalues
    | values ts => cases hvalue
    | both t ts =>
      rw [Filter.toJson_inj.mp (Option.some.inj hvalue),
        Scalar.map_toJson_inj.mp (Json.list.inj (Option.some.inj hvalues))]
    | listed ts => cases hvalues
  | listed ss =>
    generalize hvalue : some (Json.list (ss.map Scalar.toJson)) = value at h'
    cases h' with
    | neither => cases hvalue
    | value t => exact absurd (Option.some.inj hvalue).symm (hlist t _)
    | listed ts => rw [Scalar.map_toJson_inj.mp (Json.list.inj (Option.some.inj hvalue))]

theorem Condition.Given.unique {members : List (String × Json)} {c c' : Condition}
    (h : Given members c) (h' : Given members c') : c = c' := by
  obtain ⟨name, hop, hname⟩ := h.operator
  obtain ⟨name', hop', hname'⟩ := h'.operator
  obtain rfl : name = name' := Json.text.inj (Option.some.inj (hop.symm.trans hop'))
  have hoperator : c.operator = c'.operator :=
    (Operator.ofName_eq_of_named hname).symm.trans (Operator.ofName_eq_of_named hname')
  have hoperand : c.operand = c'.operand := h.operand.unique h'.operand
  cases c
  cases c'
  congr

end CorpusAgent
