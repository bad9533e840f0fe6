import CorpusAgent.Json.Basic
import Mathlib.Data.List.Induction

/-!
# Members of objects

* `find?_insertMember_self`, `find?_insertMember_of_ne`: what is found after a member was put in.
* `member?_ofMembers`: an object that is made of members has the last value given for a name.
* `mem_names_ofMembers`: an object that is made of members has their names and no others.
* `foldl_insertMember`: members that come in ascending order are put in one behind the other.
-/

namespace CorpusAgent.Json

variable {name other : String}

theorem bind_text?_eq_some_iff {v? : Option Json} {text : String} :
    v?.bind text? = some text ↔ v? = some (.text text) := by
  cases v? with
  | none => exact iff_of_false nofun nofun
  | some v => cases v <;> simp [text?]

theorem bind_list?_eq_some_iff {v? : Option Json} {items : List Json} :
    v?.bind list? = some items ↔ v? = some (.list items) := by
  cases v? with
  | none => exact iff_of_false nofun nofun
  | some v => cases v <;> simp [list?]

theorem find?_eq_none {members : List (String × Json)} (h : ∀ m ∈ members, m.1 ≠ name) :
    find? name members = none := by
  induction members with
  | nil => rfl
  | cons m rest ih =>
    obtain ⟨hm, hrest⟩ := List.forall_mem_cons.mp h
    rw [find?, if_neg hm, ih hrest]

theorem find?_insertMember_self (name : String) (value : Json) (members : List (String × Json)) :
    find? name (insertMember name value members) = some value := by
  induction members with
  | nil => exact if_pos rfl
  | cons member rest ih =>
    rw [insertMember]
    split
    · exact if_pos rfl
    · split
      · exact if_pos rfl
      · rename_i hne
        rw [find?, if_neg fun h => hne h.symm, ih]

theorem find?_insertMember_of_ne (h : other ≠ name) (value : Json)
    (members : List (String × Json)) :
    find? name (insertMember other value members) = find? name members := by
  induction members with
  | nil => exact if_neg h
  | cons member rest ih =>
    rw [insertMember]
    split
    · exact if_neg h
    · split
      · rename_i heq
        rw [find?, if_neg h, find?, if_neg (heq ▸ h)]
      · rw [find?, find?, ih]

/-- An object that is made of members has the last value given for a name. -/
theorem member?_ofMembers (name : String) (members : List (String × Json)) :
    (ofMembers members).member? name = find? name members.reverse := by
  induction members using List.reverseRecOn with
  | nil => rfl
  | append_singleton members m ih =>
    rw [ofMembers, member?, List.foldl_append, List.foldl_cons, List.foldl_nil,
      List.reverse_append]
    change _ = find? name (m :: members.reverse)
    rw [find?]
    by_cases h : m.1 = name
    · rw [if_pos h, h, find?_insertMember_self]
    · rw [if_neg h, find?_insertMember_of_ne h]
      exact ih

/-- The names of the members of an object. -/
def names : Json → List String
  | .object members => members.map Prod.fst
  | _ => []

theorem mem_insertMember_names {value : Json} {members : List (String × Json)} :
    name ∈ (insertMember other value members).map Prod.fst ↔
      name = other ∨ name ∈ members.map Prod.fst := by
  induction members with
  | nil => simp [insertMember]
  | cons member rest ih =>
    rw [insertMember]
    split
    · rw [List.map_cons, List.mem_cons]
    · split
      · rename_i heq
        rw [List.map_cons, List.map_cons, List.mem_cons, List.mem_cons, heq, or_self_left]
      · rw [List.map_cons, List.map_cons, List.mem_cons, List.mem_cons, ih, or_left_comm]

theorem mem_names_ofMembers {members : List (String × Json)} :
    name ∈ (ofMembers members).names ↔ name ∈ members.map Prod.fst := by
  have hfold : ∀ (more : List (String × Json)),
      name ∈ (members.foldl (fun acc m => insertMember m.1 m.2 acc) more).map Prod.fst ↔
        name ∈ members.map Prod.fst ∨ name ∈ more.map Prod.fst := by
    induction members with
    | nil => simp
    | cons member rest ih =>
      intro more
      rw [List.foldl_cons, ih, mem_insertMember_names, List.map_cons, List.mem_cons, or_assoc,
        or_left_comm]
  rw [ofMembers, names, hfold, List.map_nil, or_iff_left List.not_mem_nil]

theorem insertMember_of_lt {value : Json} {members : List (String × Json)}
    (h : ∀ m ∈ members, m.1 < name) :
    insertMember name value members = members ++ [(name, value)] := by
  induction members with
  | nil => rfl
  | cons m rest ih =>
    obtain ⟨hm, hrest⟩ := List.forall_mem_cons.mp h
    have hne : name ≠ m.1 := fun heq => String.lt_irrefl _ (heq ▸ hm)
    rw [insertMember, if_neg (String.lt_asymm hm), if_neg hne, ih hrest, List.cons_append]

theorem foldl_insertMember {members more : List (String × Json)}
    (h : (members ++ more).Pairwise fun a b => a.1 < b.1) :
    more.foldl (fun acc m => insertMember m.1 m.2 acc) members = members ++ more := by
  induction more generalizing members with
  | nil => exact (List.append_nil members).symm
  | cons m rest ih =>
    have hbehind : ∀ a ∈ members, a.1 < m.1 := fun a ha =>
      (List.pairwise_append.mp h).2.2 a ha m List.mem_cons_self
    rw [List.foldl_cons, insertMember_of_lt hbehind, ih (by simpa using h)]
    simp

/-- An object keeps members that are in ascending order as they are. -/
theorem ofMembers_eq_object {members : List (String × Json)}
    (h : members.Pairwise fun a b => a.1 < b.1) : ofMembers members = .object members := by
  have hfold : members.foldl (fun acc m => insertMember m.1 m.2 acc) [] = [] ++ members :=
    foldl_insertMember h
  rw [ofMembers, hfold, List.nil_append]

end CorpusAgent.Json
