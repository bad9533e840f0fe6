import CorpusAgent.Proofs.Filter.Reading

/-!
# What can be wrong with a node

Everything that can be wrong with a node of a filter tree by itself, apart from its parts: where it
is, which value it is about, and what is wrong with it.

* `Json.at?`: the value that steps lead to.
* `NodeFault`: the faults of a node.
* `NodeFault.at?`: the steps of a fault lead to the value that it is about; only an operator that is
  missing is looked for in vain.
* `Checks`: a reading that visits no node fails just if there is a fault, and with one of them.
* `parseLeaf_checks`: the reading of a leaf is such a one.
-/

namespace CorpusAgent

namespace Json

/-- The value that one step leads to. -/
def step? : Json → PathStep → Option Json
  | .list items, .index i => items[i]?
  | .object members, .name name => find? name members
  | _, _ => none

/-- The value that steps lead to. -/
def at? : Json → List PathStep → Option Json
  | v, [] => some v
  | v, step :: rest => (v.step? step).bind fun w => w.at? rest

theorem at?_append {v : Json} {front rest : List PathStep} :
    v.at? (front ++ rest) = (v.at? front).bind fun w => w.at? rest := by
  induction front generalizing v with
  | nil => rfl
  | cons step front ih =>
    rw [List.cons_append, at?, at?, Option.bind_assoc]
    exact congrArg (Option.bind (v.step? step)) (funext fun w => ih)

theorem find?_singleton (name : String) (v : Json) : find? name [(name, v)] = some v := if_pos rfl

theorem at?_member {members : List (String × Json)} {name : String} {raw : Json}
    (h : find? name members = some raw) (rest : List PathStep) :
    (object members).at? (.name name :: rest) = raw.at? rest := by
  rw [at?, step?, h, Option.bind_some]

theorem at?_item {items : List Json} {i : Nat} {item : Json} (h : items[i]? = some item)
    (rest : List PathStep) : (list items).at? (.index i :: rest) = item.at? rest := by
  rw [at?, step?, h, Option.bind_some]

end Json

namespace Filter

/-! ### Faults -/

/-- A value that should be a text. -/
inductive TextFault : Json → FilterFault → Prop
  | notText {v : Json} (h : v.text? = none) : TextFault v .notText
  | tooLong {s : String} (h : maxTextBytes < s.utf8ByteSize) :
    TextFault (.text s) (.textTooLong maxTextBytes)

/-- A value that should be a text, a number, a truth value or `null`. -/
inductive ScalarFault : Json → FilterFault → Prop
  | list (items : List Json) : ScalarFault (.list items) .notScalar
  | object (members : List (String × Json)) : ScalarFault (.object members) .notScalar
  | tooLong {s : String} (h : maxTextBytes < s.utf8ByteSize) :
    ScalarFault (.text s) (.textTooLong maxTextBytes)

/-- A value that should be a list of such values: the steps to a value, the value and its fault. -/
inductive ValuesFault : Json → FilterPath → Json → FilterFault → Prop
  | notList {v : Json} (h : v.list? = none) : ValuesFault v [] v .valuesNotList
  | tooMany {items : List Json} (h : maxValues < items.length) :
    ValuesFault (.list items) [] (.list items) (.tooManyValues items.length maxValues)
  | item {items : List Json} {i : Nat} {v : Json} {fault : FilterFault}
    (hlength : items.length ≤ maxValues) (hitem : items[i]? = some v) (h : ScalarFault v fault) :
    ValuesFault (.list items) [.index i] v fault

/-- A value that should be a metadata path. -/
inductive PathFault : Json → FilterPath → Json → FilterFault → Prop
  | shape {v : Json} (h : ∀ origin key, v ≠ .list [origin, key]) : PathFault v [] v .pathShape
  | origin {origin key : Json} {fault : FilterFault} (h : TextFault origin fault) :
    PathFault (.list [origin, key]) [.index 0] origin fault
  | unknown {name : String} {key : Json} (h : Origin.ofName? name = none) :
    PathFault (.list [.text name, key]) [.index 0] (.text name) (.unknownOrigin name)
  | key {origin key : Json} {fault : FilterFault} (h : TextFault key fault) :
    PathFault (.list [origin, key]) [.index 1] key fault
  | blank {origin : Json} {key : String} (h : Text.isBlank key = true) :
    PathFault (.list [origin, .text key]) [.index 1] (.text key) .blankKey

/-- The members of a leaf that should be an operand.  A list under `value` stands for `values` if
there is no other. -/
inductive OperandFault (members : List (String × Json)) :
    FilterPath → Json → FilterFault → Prop
  | values {raw v : Json} {inner : FilterPath} {fault : FilterFault}
    (hraw : Json.find? "values" members = some raw) (h : ValuesFault raw inner v fault) :
    OperandFault members (.name "values" :: inner) v fault
  | listed {items : List Json} {v : Json} {inner : FilterPath} {fault : FilterFault}
    (hvalues : Json.find? "values" members = none)
    (hraw : Json.find? "value" members = some (.list items))
    (h : ValuesFault (.list items) inner v fault) :
    OperandFault members (.name "value" :: inner) v fault
  | value {raw : Json} {fault : FilterFault} (hraw : Json.find? "value" members = some raw)
    (hlisted : raw.list? = none ∨ Json.find? "values" members ≠ none)
    (h : ScalarFault raw fault) : OperandFault members [.name "value"] raw fault

/-- The members of a leaf that should be a condition. -/
inductive ConditionFault (members : List (String × Json)) :
    FilterPath → Json → FilterFault → Prop
  | missing (hop : Json.find? "op" members = none) :
    ConditionFault members [.name "op"] (.object members) .missingOperator
  | operator {raw : Json} {fault : FilterFault} (hop : Json.find? "op" members = some raw)
    (h : TextFault raw fault) : ConditionFault members [.name "op"] raw fault
  | operand {v : Json} {inner : FilterPath} {fault : FilterFault}
    (h : OperandFault members inner v fault) : ConditionFault members inner v fault

/-- The members of a node that should be a leaf, on a field if there is one. -/
inductive LeafFault (members : List (String × Json)) : FilterPath → Json → FilterFault → Prop
  | unknown (hfield : Json.find? "field" members = none)
    (hpath : Json.find? "path" members = none) :
    LeafFault members [] (.object members) .unknownNode
  | field {raw : Json} {fault : FilterFault} (hfield : Json.find? "field" members = some raw)
    (h : TextFault raw fault) : LeafFault members [.name "field"] raw fault
  | path {raw v : Json} {inner : FilterPath} {fault : FilterFault}
    (hfield : Json.find? "field" members = none) (hpath : Json.find? "path" members = some raw)
    (h : PathFault raw inner v fault) : LeafFault members (.name "path" :: inner) v fault
  | condition {v : Json} {inner : FilterPath} {fault : FilterFault}
    (hleaf : Json.find? "field" members ≠ none ∨ Json.find? "path" members ≠ none)
    (h : ConditionFault members inner v fault) : LeafFault members inner v fault

/-- A node by itself: the steps from the node to a value, the value and what is wrong with it. -/
inductive NodeFault : Json → FilterPath → Json → FilterFault → Prop
  | noNode {v : Json} (hlist : v.list? = none) (hobject : v.object? = none) :
    NodeFault v [] v .noNode
  | extraKeys {members : List (String × Json)} {group : String} {raw : Json}
    (hgroup : groupOf? members = some (group, raw)) (h : members.length ≠ 1) :
    NodeFault (.object members) [] (.object members) (.extraKeys group)
  | argsNotList {group : String} {raw : Json} (hgroup : group = "and" ∨ group = "or")
    (h : raw.list? = none) : NodeFault (.object [(group, raw)]) [.name group] raw .argsNotList
  | notArity {items : List Json} (h : items.length ≠ 1) :
    NodeFault (.object [("not", .list items)]) [.name "not"] (.list items) .notArity
  | leaf {members : List (String × Json)} {v : Json} {inner : FilterPath} {fault : FilterFault}
    (hgroup : groupOf? members = none) (h : LeafFault members inner v fault) :
    NodeFault (.object members) inner v fault

/-! ### Where a fault is -/

section

variable {v w : Json} {members : List (String × Json)} {inner : FilterPath} {fault : FilterFault}

theorem ValuesFault.at? (h : ValuesFault v inner w fault) : v.at? inner = some w := by
  cases h with
  | notList | tooMany => rfl
  | item _ hitem => exact Json.at?_item hitem []

theorem PathFault.at? (h : PathFault v inner w fault) : v.at? inner = some w := by
  cases h <;> rfl

theorem OperandFault.at? (h : OperandFault members inner w fault) :
    (Json.object members).at? inner = some w := by
  cases h with
  | values hraw h => exact (Json.at?_member hraw _).trans h.at?
  | listed _ hraw h => exact (Json.at?_member hraw _).trans h.at?
  | value hraw => exact Json.at?_member hraw []

/-- The steps of a fault lead to the value that it is about; but an operator that is missing is
found nowhere, and then the node itself is meant. -/
theorem NodeFault.at? (h : NodeFault v inner w fault) : v.at? inner = some w ∨
    fault = .missingOperator ∧ inner = [.name "op"] ∧ w = v ∧ v.member? "op" = none := by
  cases h with
  | noNode | extraKeys => exact .inl rfl
  | argsNotList => exact .inl (Json.at?_member (Json.find?_singleton _ _) [])
  | notArity => exact .inl rfl
  | leaf _ h =>
    cases h with
    | unknown => exact .inl rfl
    | field hfield => exact .inl (Json.at?_member hfield [])
    | path _ hpath h => exact .inl ((Json.at?_member hpath _).trans h.at?)
    | condition _ h =>
      cases h with
      | missing hop => exact .inr ⟨rfl, rfl, rfl, hop⟩
      | operator hop => exact .inl (Json.at?_member hop [])
      | operand h => exact .inl h.at?

end

/-! ### Readings without visits -/

/-- A reading at a place fails just if there is one of the faults, and with one of them. -/
structure Checks {α : Type} (x : Except FilterError α) (place : FilterPath)
    (faults : FilterPath → Json → FilterFault → Prop) : Prop where
  none : ∀ {a}, x = .ok a → ∀ {inner w fault}, ¬faults inner w fault
  one : ∀ {e}, x = .error e → ∃ inner w, e.path = place ++ inner ∧ faults inner w e.fault

namespace Checks

variable {α β : Type} {x : Except FilterError α} {place : FilterPath}
  {F G H : FilterPath → Json → FilterFault → Prop}

theorem pure {a : α} (h : ∀ {inner w fault}, ¬F inner w fault) : Checks (Pure.pure a) place F :=
  ⟨fun _ _ _ _ => h, nofun⟩

theorem throw {inner : FilterPath} {w : Json} {fault : FilterFault} (h : F inner w fault) :
    Checks (throw ⟨place ++ inner, fault⟩ : Except FilterError α) place F := by
  refine ⟨nofun, fun he => ?_⟩
  obtain rfl := Except.error.inj he
  exact ⟨inner, w, rfl, h⟩

/-- A fault of the value itself. -/
theorem throw_here {w : Json} {fault : FilterFault} (h : F [] w fault) :
    Checks (MonadExcept.throw ⟨place, fault⟩ : Except FilterError α) place F := by
  have hthrow : Checks (MonadExcept.throw ⟨place ++ [], fault⟩ : Except FilterError α) place F :=
    .throw h
  rwa [List.append_nil] at hthrow

theorem congr (h : Checks x place F) (hiff : ∀ {inner w fault}, G inner w fault ↔ F inner w fault) :
    Checks x place G :=
  ⟨fun hx _ _ _ hfault => h.none hx (hiff.mp hfault),
    fun hx => (h.one hx).imp fun _ => .imp fun _ => .imp_right hiff.mpr⟩

/-- A reading at a place further down. -/
theorem under {front : FilterPath} (h : Checks x (place ++ front) F) :
    Checks x place fun inner w fault => ∃ rest, inner = front ++ rest ∧ F rest w fault := by
  refine ⟨fun hx _ _ _ ⟨rest, _, hfault⟩ => h.none hx hfault, fun hx => ?_⟩
  obtain ⟨rest, w, hpath, hfault⟩ := h.one hx
  exact ⟨front ++ rest, w, by rw [hpath, List.append_assoc], rest, rfl, hfault⟩

theorem bind {k : α → Except FilterError β} (hx : Checks x place F)
    (hk : ∀ a, x = .ok a → Checks (k a) place G)
    (hiff : ∀ {inner w fault}, H inner w fault ↔ F inner w fault ∨ G inner w fault) :
    Checks (x >>= k) place H := by
  cases hresult : x with
  | error e =>
    refine ⟨nofun, fun he => ?_⟩
    obtain rfl := Except.error.inj he
    obtain ⟨inner, w, hpath, hfault⟩ := hx.one hresult
    exact ⟨inner, w, hpath, hiff.mpr (.inl hfault)⟩
  | ok a =>
    refine ⟨fun hb _ _ _ hfault => ?_, fun he => ?_⟩
    · exact (hiff.mp hfault).elim (hx.none hresult) ((hk a hresult).none hb)
    · obtain ⟨inner, w, hpath, hfault⟩ := (hk a hresult).one he
      exact ⟨inner, w, hpath, hiff.mpr (.inr hfault)⟩

theorem map {f : α → β} (h : Checks x place F) : Checks (f <$> x) place F := by
  rw [map_eq_pure_bind]
  exact h.bind (G := fun _ _ _ => False) (fun a _ => .pure id) (or_iff_left id).symm

end Checks

section

variable {members : List (String × Json)}

theorem parseString_checks (place : FilterPath) (v : Json) : Checks (parseString place v) place
    fun inner w fault => inner = [] ∧ w = v ∧ TextFault v fault := by
  cases v with
  | text s =>
    rw [parseString]
    split_ifs with hsize
    · exact .throw_here ⟨rfl, rfl, .tooLong hsize⟩
    · refine .pure ?_
      rintro _ _ _ ⟨-, -, h⟩
      cases h with
      | notText h => cases h
      | tooLong h => exact hsize h
  | _ => exact .throw_here ⟨rfl, rfl, .notText rfl⟩

theorem parseScalar_checks (place : FilterPath) (v : Json) : Checks (parseScalar place v) place
    fun inner w fault => inner = [] ∧ w = v ∧ ScalarFault v fault := by
  cases v with
  | text s =>
    refine (parseString_checks _ (.text s)).map.congr fun {_ _ fault} => ?_
    refine and_congr_right fun _ => and_congr_right fun _ => ⟨fun h => ?_, fun h => ?_⟩
    · cases h with
      | tooLong h => exact .tooLong h
    · cases h with
      | notText h => cases h
      | tooLong h => exact .tooLong h
  | list items => exact .throw_here ⟨rfl, rfl, .list items⟩
  | object members => exact .throw_here ⟨rfl, rfl, .object members⟩
  | number n | bool b | null => exact .pure fun h => by cases h.2.2

theorem parseScalars_checks (place : FilterPath) (start : Nat) (items : List Json) :
    Checks (parseScalars place start items) place fun inner w fault =>
      ∃ i, inner = [.index (start + i)] ∧ items[i]? = some w ∧ ScalarFault w fault := by
  induction items generalizing start with
  | nil =>
    refine .pure ?_
    rintro _ _ _ ⟨i, -, h, -⟩
    cases h
  | cons v rest ih =>
    have hfirst := (parseScalar_checks (place ++ [.index start]) v).under
    have hrest (s : Scalar) := (ih (start + 1)).map (f := fun ss => s :: ss)
    refine hfirst.bind (fun s _ => hrest s) ?_
    intro inner w fault
    constructor
    · rintro ⟨i, rfl, hitem, h⟩
      cases i with
      | zero =>
        obtain rfl := Option.some.inj hitem
        exact .inl ⟨[], rfl, rfl, rfl, h⟩
      | succ i => exact .inr ⟨i, by rw [Nat.add_right_comm, Nat.add_assoc], hitem, h⟩
    · rintro (⟨_, rfl, rfl, rfl, h⟩ | ⟨i, rfl, hitem, h⟩)
      · exact ⟨0, rfl, rfl, h⟩
      · exact ⟨i + 1, by rw [Nat.add_right_comm, Nat.add_assoc], hitem, h⟩

theorem parseValues_checks (place : FilterPath) (v : Json) :
    Checks (parseValues place v) place (ValuesFault v) := by
  cases v with
  | list items =>
    rw [parseValues]
    split_ifs with hlength
    · exact .throw_here (.tooMany hlength)
    · refine (parseScalars_checks _ 0 items).congr fun {inner w fault} => ?_
      rw [Nat.not_lt] at hlength
      constructor
      · intro h
        cases h with
        | notList h => cases h
        | tooMany h => exact absurd h (Nat.not_lt.mpr hlength)
        | item _ hitem h => exact ⟨_, by rw [Nat.zero_add], hitem, h⟩
      · rintro ⟨i, rfl, hitem, h⟩
        rw [Nat.zero_add]
        exact .item hlength hitem h
  | _ => exact .throw_here (.notList rfl)

/-- What is read under `value` unless it stands for `values`. -/
theorem parseValue_checks (place : FilterPath) (raw : Json) (values : Option (List Scalar)) :
    Checks (do
        let value ← parseScalar (place.member "value") raw
        pure (⟨some value, values⟩ : Operand)) place
      fun inner w fault => inner = [.name "value"] ∧ w = raw ∧ ScalarFault raw fault := by
  have hvalue := (parseScalar_checks (place ++ [.name "value"]) raw).under
  refine (hvalue.map (f := fun value => (⟨some value, values⟩ : Operand))).congr ?_
  intro inner w fault
  constructor
  · rintro ⟨rfl, rfl, h⟩
    exact ⟨[], rfl, rfl, rfl, h⟩
  · rintro ⟨_, rfl, rfl, rfl, h⟩
    exact ⟨rfl, rfl, h⟩

theorem parseOperand_checks_of_none {place : FilterPath}
    (hvalues : Json.find? "values" members = none) :
    Checks (parseOperand place members) place (OperandFault members) := by
  have hnone : parseValuesMember place members = .ok none := by
    rw [parseValuesMember, hvalues]
    rfl
  unfold parseOperand
  rw [hnone]
  cases hvalue : Json.find? "value" members with
  | none =>
    refine Checks.pure (a := (⟨none, none⟩ : Operand)) fun h => ?_
    cases h with
    | values hraw => cases hvalues.symm.trans hraw
    | listed _ hraw => cases hvalue.symm.trans hraw
    | value hraw => cases hvalue.symm.trans hraw
  | some raw =>
    have hother (hlist : raw.list? = none) : Checks (do
        let value ← parseScalar (place.member "value") raw
        pure (⟨some value, none⟩ : Operand)) place (OperandFault members) := by
      refine (parseValue_checks _ raw none).congr fun {inner w fault} => ⟨fun h => ?_, ?_⟩
      · cases h with
        | values hraw => cases hvalues.symm.trans hraw
        | listed _ hraw =>
          obtain rfl := Option.some.inj (hvalue.symm.trans hraw)
          cases hlist
        | value hraw _ h =>
          obtain rfl := Option.some.inj (hvalue.symm.trans hraw)
          exact ⟨rfl, rfl, h⟩
      · rintro ⟨rfl, rfl, h⟩
        exact .value hvalue (.inl hlist) h
    cases raw with
    | list items =>
      have hitems := (parseValues_checks (place ++ [.name "value"]) (.list items)).under
      refine (hitems.map (f := fun items => (⟨none, some items⟩ : Operand))).congr ?_
      intro inner w fault
      constructor
      · intro h
        cases h with
        | values hraw => cases hvalues.symm.trans hraw
        | listed _ hraw h =>
          obtain rfl := Json.list.inj (Option.some.inj (hvalue.symm.trans hraw))
          exact ⟨_, rfl, h⟩
        | value hraw hlisted =>
          obtain rfl := Option.some.inj (hvalue.symm.trans hraw)
          exact (hlisted.elim nofun fun h => h hvalues).elim
      · rintro ⟨rest, rfl, h⟩
        exact .listed hvalues hvalue h
    | _ => exact hother rfl

theorem parseOperand_checks_of_some {place : FilterPath} {raw : Json}
    (hvalues : Json.find? "values" members = some raw) :
    Checks (parseOperand place members) place (OperandFault members) := by
  have hlist : parseValuesMember place members =
      some <$> parseValues (place ++ [.name "values"]) raw := by
    rw [parseValuesMember, hvalues]
    rfl
  unfold parseOperand
  rw [hlist]
  refine (parseValues_checks _ raw).under.map.bind (G := fun inner w fault =>
    inner = [.name "value"] ∧ Json.find? "value" members = some w ∧ ScalarFault w fault) ?_ ?_
  · rintro values hread
    obtain ⟨ss, -, rfl⟩ := map_eq_ok_iff.mp hread
    cases hvalue : Json.find? "value" members with
    | none => exact .pure fun h => nomatch h.2.1
    | some v =>
      have hscalar := (parseValue_checks place v (some ss)).congr
        (G := fun inner w fault => inner = [.name "value"] ∧ some v = some w ∧
          ScalarFault w fault) fun {inner w fault} => by
          rw [Option.some.injEq]
          refine and_congr_right fun _ => ⟨?_, ?_⟩
          · rintro ⟨rfl, h⟩
            exact ⟨rfl, h⟩
          · rintro ⟨rfl, h⟩
            exact ⟨rfl, h⟩
      cases v <;> exact hscalar
  · intro inner w fault
    constructor
    · intro h
      cases h with
      | values hraw h =>
        obtain rfl := Option.some.inj (hvalues.symm.trans hraw)
        exact .inl ⟨_, rfl, h⟩
      | listed hnone => cases hvalues.symm.trans hnone
      | value hraw _ h => exact .inr ⟨rfl, hraw, h⟩
    · rintro (⟨rest, rfl, h⟩ | ⟨rfl, hraw, h⟩)
      · exact .values hvalues h
      · exact .value hraw (.inr (hvalues ▸ nofun)) h

theorem parseOperand_checks (place : FilterPath) (members : List (String × Json)) :
    Checks (parseOperand place members) place (OperandFault members) := by
  cases hvalues : Json.find? "values" members with
  | none => exact parseOperand_checks_of_none hvalues
  | some raw => exact parseOperand_checks_of_some hvalues

theorem parseCondition_checks (place : FilterPath) (members : List (String × Json)) :
    Checks (parseCondition place members) place (ConditionFault members) := by
  unfold parseCondition
  cases hop : Json.find? "op" members with
  | none => exact .throw (.missing hop)
  | some raw =>
    have hname := (parseString_checks (place ++ [.name "op"]) raw).under
    refine hname.bind (fun name _ => (parseOperand_checks _ members).map) ?_
    intro inner w fault
    constructor
    · intro h
      cases h with
      | missing hnone => cases hop.symm.trans hnone
      | operator hsome h =>
        obtain rfl := Option.some.inj (hop.symm.trans hsome)
        exact .inl ⟨[], rfl, rfl, rfl, h⟩
      | operand h => exact .inr h
    · rintro (⟨_, rfl, rfl, rfl, h⟩ | h)
      · exact .operator hop h
      · exact .operand h

/-- The key of a metadata path. -/
theorem parseKey_checks (place : FilterPath) (origin : Origin) (v : Json) :
    Checks (do
        let key ← parseString (place.item 1) v
        if Text.isBlank key then throw ⟨place.item 1, .blankKey⟩ else pure (origin, key)) place
      fun inner w fault => inner = [.index 1] ∧ w = v ∧ (TextFault v fault ∨
        ∃ key, v = .text key ∧ Text.isBlank key = true ∧ fault = .blankKey) := by
  have hkey := (parseString_checks (place ++ [.index 1]) v).under
  refine hkey.bind (G := fun inner w fault => inner = [.index 1] ∧ w = v ∧
    ∃ key, v = .text key ∧ Text.isBlank key = true ∧ fault = .blankKey) ?_ ?_
  · intro key hread
    obtain ⟨rfl, -⟩ := parseString_eq_ok_iff.mp hread
    split_ifs with hblank
    · exact .throw ⟨rfl, rfl, key, rfl, hblank, rfl⟩
    · refine .pure ?_
      rintro _ _ _ ⟨-, -, other, hother, h, -⟩
      obtain rfl := Json.text.inj hother
      exact hblank h
  · intro inner w fault
    constructor
    · rintro ⟨rfl, rfl, h | h⟩
      · exact .inl ⟨[], rfl, rfl, rfl, h⟩
      · exact .inr ⟨rfl, rfl, h⟩
    · rintro (⟨_, rfl, rfl, rfl, h⟩ | ⟨rfl, rfl, h⟩)
      · exact ⟨rfl, rfl, .inl h⟩
      · exact ⟨rfl, rfl, .inr h⟩

theorem parseMetadataPath_checks (place : FilterPath) (v : Json) :
    Checks (parseMetadataPath place v) place (PathFault v) := by
  unfold parseMetadataPath
  split
  · rename_i first second
    have hname := (parseString_checks (place ++ [.index 0]) first).under
    refine hname.bind (G := fun inner w fault =>
      (∃ name, first = .text name ∧ Origin.ofName? name = none ∧ inner = [.index 0] ∧ w = first ∧
        fault = .unknownOrigin name) ∨ inner = [.index 1] ∧ w = second ∧
          (TextFault second fault ∨
            ∃ key, second = .text key ∧ Text.isBlank key = true ∧ fault = .blankKey)) ?_ ?_
    · intro name hread
      obtain ⟨rfl, -⟩ := parseString_eq_ok_iff.mp hread
      cases horigin : Origin.ofName? name with
      | none => exact .throw (.inl ⟨name, rfl, horigin, rfl, rfl, rfl⟩)
      | some origin =>
        refine (parseKey_checks _ origin second).congr fun {inner w fault} => or_iff_right ?_
        rintro ⟨other, hother, hnone, -⟩
        obtain rfl := Json.text.inj hother
        cases horigin.symm.trans hnone
    · intro inner w fault
      constructor
      · intro h
        cases h with
        | shape h => exact absurd rfl (h first second)
        | origin h => exact .inl ⟨[], rfl, rfl, rfl, h⟩
        | unknown h => exact .inr (.inl ⟨_, rfl, h, rfl, rfl, rfl⟩)
        | key h => exact .inr (.inr ⟨rfl, rfl, .inl h⟩)
        | blank h => exact .inr (.inr ⟨rfl, rfl, .inr ⟨_, rfl, h, rfl⟩⟩)
      · rintro (⟨_, rfl, rfl, rfl, h⟩ | ⟨name, rfl, h, rfl, rfl, rfl⟩ | ⟨rfl, rfl, h | h⟩)
        · exact .origin h
        · exact .unknown h
        · exact .key h
        · obtain ⟨key, rfl, h, rfl⟩ := h
          exact .blank h
  · rename_i hshape
    exact .throw_here (.shape hshape)

theorem parseLeaf_checks (place : FilterPath) (members : List (String × Json)) :
    Checks (parseLeaf place members) place (LeafFault members) := by
  unfold parseLeaf
  cases hfield : Json.find? "field" members with
  | some raw =>
    have hname := (parseString_checks (place ++ [.name "field"]) raw).under
    refine hname.bind (fun name _ => (parseCondition_checks _ members).map) ?_
    intro inner w fault
    constructor
    · intro h
      cases h with
      | unknown hnone => cases hfield.symm.trans hnone
      | field hsome h =>
        obtain rfl := Option.some.inj (hfield.symm.trans hsome)
        exact .inl ⟨[], rfl, rfl, rfl, h⟩
      | path hnone => cases hfield.symm.trans hnone
      | condition _ h => exact .inr h
    · rintro (⟨_, rfl, rfl, rfl, h⟩ | h)
      · exact .field hfield h
      · exact .condition (.inl (hfield ▸ nofun)) h
  | none =>
    cases hpath : Json.find? "path" members with
    | none => exact .throw_here (.unknown hfield hpath)
    | some raw =>
      have hplace := (parseMetadataPath_checks (place ++ [.name "path"]) raw).under
      refine hplace.bind (fun found _ => (parseCondition_checks _ members).map) ?_
      intro inner w fault
      constructor
      · intro h
        cases h with
        | unknown _ hnone => cases hpath.symm.trans hnone
        | field hsome => cases hfield.symm.trans hsome
        | path _ hsome h =>
          obtain rfl := Option.some.inj (hpath.symm.trans hsome)
          exact .inl ⟨_, rfl, h⟩
        | condition _ h => exact .inr h
      · rintro (⟨_, rfl, h⟩ | h)
        · exact .path hfield hpath h
        · exact .condition (.inr (hpath ▸ nofun)) h

end

end Filter

end CorpusAgent
