import CorpusAgent.Proofs.Sql.Splits
import CorpusAgent.Proofs.Storage.Position
import Mathlib.Data.List.Nodup

/-!
# Positions for names

What binding makes of a text, whatever the text and its placeholders.

* `placed`: the pieces of a text with positions in place of the names.
* `mem_positions_placed`: the positions are those after the offset, one for each name.
* `Rewrites`: the law of binding, for a text that falls into pieces.
* `bindNamed_rewrites`: every text falls into pieces in one way, and binding obeys the law.
-/

namespace CorpusAgent.Storage

open Sql (Piece Splits bindNamed byName firstAppearances lookup?)

/-! ### Names and their ranks -/

/-- The first appearances are what is left without the repeated names. -/
theorem firstAppearances_eq (names : List String) : firstAppearances names = names.eraseDups := by
  have hloop : ∀ seen : List String,
      (names.foldl (fun seen name => if seen.contains name then seen else name :: seen)
        seen).reverse = List.eraseDupsBy.loop (· == ·) names seen := by
    induction names with
    | nil => exact fun _ => rfl
    | cons name rest ih =>
      intro seen
      rw [List.foldl_cons, ih, List.eraseDupsBy.loop, List.any_beq]
      cases seen.contains name <;> rfl
  exact hloop []

theorem mem_firstAppearances {names : List String} {name : String} :
    name ∈ firstAppearances names ↔ name ∈ names := by
  rw [firstAppearances_eq, List.mem_eraseDups]

theorem nodup_firstAppearances (names : List String) : (firstAppearances names).Nodup := by
  have hloop : ∀ seen : List String, seen.Nodup →
      (names.foldl (fun seen name => if seen.contains name then seen else name :: seen)
        seen).Nodup := by
    induction names with
    | nil => exact fun _ hs => hs
    | cons first rest ih =>
      intro seen hs
      rw [List.foldl_cons]
      by_cases hf : first ∈ seen
      · rw [if_pos (List.contains_iff_mem.mpr hf)]
        exact ih seen hs
      · rw [if_neg (fun h => hf (List.contains_iff_mem.mp h))]
        exact ih _ (List.nodup_cons.mpr ⟨hf, hs⟩)
  rw [firstAppearances, List.nodup_reverse]
  exact hloop [] List.nodup_nil

theorem find?_eraseDups (kind : String → Bool) (names : List String) :
    names.eraseDups.find? kind = names.find? kind := by
  induction hn : names.length using Nat.strongRecOn generalizing names with
  | ind n ih =>
    cases names with
    | nil => rfl
    | cons name rest =>
      rw [List.eraseDups_cons, List.find?_cons, List.find?_cons]
      cases hkind : kind name with
      | true => rfl
      | false =>
        have hle := List.length_filter_le (fun other => !other == name) rest
        rw [List.length_cons] at hn
        have hrest := ih _ (by omega) (rest.filter fun other => !other == name) rfl
        -- what was left out is not of the kind either
        have hkept : (fun other => !other == name && kind other) = kind := by
          funext other
          by_cases hother : other = name
          · rw [hother, hkind, Bool.and_false]
          · simp [hother]
        simp only [hrest, List.find?_filter, ← Bool.and_eq_decide, hkept]

theorem getElem?_filterMap_idxOf {names : List String} {f : String → Option String}
    (hall : ∀ name ∈ names, (f name).isSome) {name : String} (h : name ∈ names) :
    (names.filterMap f)[names.idxOf name]? = f name := by
  induction names with
  | nil => cases h
  | cons first rest ih =>
    obtain ⟨hfirst, hrest⟩ := List.forall_mem_cons.mp hall
    obtain ⟨x, hx⟩ := Option.isSome_iff_exists.mp hfirst
    rw [List.filterMap_cons_some hx]
    by_cases he : first = name
    · subst he
      simp [hx]
    · rw [List.idxOf_cons_ne _ he, List.getElem?_cons_succ]
      exact ih hrest ((List.mem_cons.mp h).resolve_left (Ne.symm he))

theorem map_some_filterMap {names : List String} {f : String → Option String}
    (hall : ∀ name ∈ names, (f name).isSome) : (names.filterMap f).map some = names.map f := by
  induction names with
  | nil => rfl
  | cons first rest ih =>
    obtain ⟨hfirst, hrest⟩ := List.forall_mem_cons.mp hall
    obtain ⟨x, hx⟩ := Option.isSome_iff_exists.mp hfirst
    rw [List.filterMap_cons_some hx, List.map_cons, List.map_cons, ih hrest, hx]

theorem length_filterMap {names : List String} {f : String → Option String}
    (hall : ∀ name ∈ names, (f name).isSome) : (names.filterMap f).length = names.length := by
  have hlength := congrArg List.length (map_some_filterMap hall)
  rwa [List.length_map, List.length_map] at hlength

/-! ### Pieces with positions -/

/-- The names of the placeholders, in order. -/
def namesOf (ps : List Piece) : List String := ps.filterMap Piece.name?

/-- The position of a name after an offset: its rank among the names. -/
def place (offset : Nat) (names : List String) (name : String) : Nat :=
  offset + names.idxOf name + 1

/-- The pieces of a text with positions in place of the names. -/
def placed (offset : Nat) (ps : List Piece) : List Token :=
  ps.flatMap (pieceTokens (place offset (namesOf ps).eraseDups))

/-- The characters of a token. -/
def Token.chars : Token → List Char
  | .literal cs => cs
  | .position n => ("$" ++ toString n).toList
  | .other c => [c]

/-- A token with its position raised. -/
def Token.raise (k : Nat) : Token → Token
  | .position n => .position (n + k)
  | t => t

/-- The characters of a token, a position after an offset as the placeholder of the name that has
this rank. -/
def Token.restored (offset : Nat) (names : List String) : Token → List Char
  | .position n => ((names[n - (offset + 1)]?).map byName).getD []
  | t => t.chars

section

variable {ps : List Piece} {name : String} {offset : Nat}

theorem mem_namesOf {name : List Char} (h : .named name ∈ ps) : String.ofList name ∈ namesOf ps :=
  List.mem_filterMap.mpr ⟨.named name, h, rfl⟩

theorem getElem?_place {names : List String} (h : name ∈ names) :
    names[place offset names name - (offset + 1)]? = some name := by
  have hrank : place offset names name - (offset + 1) = names.idxOf name := by
    rw [place]
    omega
  rw [hrank, List.getElem?_eq_getElem (List.idxOf_lt_length_of_mem h), List.getElem_idxOf]

theorem chars_pieceTokens (number : String → Nat) (p : Piece) :
    (pieceTokens number p).flatMap Token.chars = p.chars (mark number) := by
  cases p with
  | literal cs => exact List.flatMap_singleton ..
  | cast => rfl
  | named name => exact List.flatMap_singleton ..
  | other c => rfl

theorem chars_placed (offset : Nat) (ps : List Piece) :
    (placed offset ps).flatMap Token.chars =
      ps.flatMap (Piece.chars (mark (place offset (namesOf ps).eraseDups))) := by
  rw [placed, List.flatMap_assoc]
  exact List.flatMap_congr fun p _ => chars_pieceTokens _ p

theorem restored_placed (offset : Nat) (ps : List Piece) :
    (placed offset ps).flatMap (Token.restored offset (namesOf ps).eraseDups) =
      ps.flatMap (Piece.chars byName) := by
  rw [placed, List.flatMap_assoc]
  refine List.flatMap_congr fun p hp => ?_
  cases p with
  | literal cs => exact List.flatMap_singleton ..
  | cast => rfl
  | other c => rfl
  | named name =>
    have hname := List.mem_eraseDups.mpr (mem_namesOf hp)
    rw [pieceTokens, List.flatMap_singleton, Token.restored, getElem?_place hname]
    rfl

/-- A higher offset raises the positions and leaves all else. -/
theorem placed_offset (offset : Nat) (ps : List Piece) :
    placed offset ps = (placed 0 ps).map (Token.raise offset) := by
  rw [placed, placed, List.map_flatMap]
  refine List.flatMap_congr fun p _ => ?_
  cases p with
  | named name =>
    have hplace : place offset (namesOf ps).eraseDups (String.ofList name) =
        place 0 (namesOf ps).eraseDups (String.ofList name) + offset := by
      rw [place, place]
      omega
    rw [pieceTokens, pieceTokens, hplace]
    rfl
  | _ => rfl

theorem mem_positions_placed (offset : Nat) (ps : List Piece) (k : Nat) :
    k ∈ (placed offset ps).filterMap Token.position? ↔
      offset < k ∧ k ≤ offset + (namesOf ps).eraseDups.length := by
  constructor
  · intro hk
    obtain ⟨token, htoken, hposition⟩ := List.mem_filterMap.mp hk
    obtain ⟨p, hp, htoken⟩ := List.mem_flatMap.mp htoken
    cases p with
    | named name =>
      obtain rfl := List.mem_singleton.mp htoken
      have hlt := List.idxOf_lt_length_of_mem (List.mem_eraseDups.mpr (mem_namesOf hp))
      obtain rfl : place offset _ (String.ofList name) = k := Option.some.inj hposition
      rw [place]
      omega
    | literal cs =>
      obtain rfl := List.mem_singleton.mp htoken
      cases hposition
    | cast =>
      simp only [pieceTokens, List.mem_cons, List.not_mem_nil, or_false, or_self] at htoken
      subst htoken
      cases hposition
    | other c =>
      obtain rfl := List.mem_singleton.mp htoken
      cases hposition
  · rintro ⟨hlo, hhi⟩
    have hi : k - offset - 1 < (namesOf ps).eraseDups.length := by omega
    have hmem := List.getElem_mem hi
    obtain ⟨p, hp, hname⟩ := List.mem_filterMap.mp (List.mem_eraseDups.mp hmem)
    refine List.mem_filterMap.mpr ⟨.position k, List.mem_flatMap.mpr ⟨p, hp, ?_⟩, rfl⟩
    cases p with
    | named name =>
      have hnodup := nodup_firstAppearances (namesOf ps)
      rw [firstAppearances_eq] at hnodup
      have hplace : place offset (namesOf ps).eraseDups (String.ofList name) = k := by
        rw [Option.some.inj hname, place, hnodup.idxOf_getElem]
        omega
      rw [pieceTokens, hplace]
      exact List.mem_singleton_self _
    | _ => cases hname

end

/-! ### The law of binding -/

section

variable {sql : String} {params : List (String × String)} {ps : List Piece} {offset : Nat}

/-- The first name without a value decides how binding ends. -/
theorem bindNamed_eq (h : Splits sql.toList ps) (params : List (String × String)) (offset : Nat) :
    bindNamed sql params offset =
      match (namesOf ps).find? fun name => (lookup? params name).isNone with
      | some name => .error name
      | none => .ok ⟨String.ofList ((placed offset ps).flatMap Token.chars),
          (namesOf ps).eraseDups.filterMap (lookup? params)⟩ := by
  rw [chars_placed, ← find?_eraseDups, ← firstAppearances_eq, ← Sql.scan_eq_of_splits h]
  rfl

/-- How binding treats a text that falls into pieces. -/
structure Rewrites (sql : String) (params : List (String × String)) (ps : List Piece) : Prop where
  /-- There is a result exactly if every name has a value. -/
  succeeds : ∀ offset, (∃ bound, bindNamed sql params offset = .ok bound) ↔
    ∀ name ∈ namesOf ps, ∃ value, lookup? params name = some value
  /-- The error is the first name without a value. -/
  fails : ∀ offset name, bindNamed sql params offset = .error name ↔
    (namesOf ps).find? (fun name => (lookup? params name).isNone) = some name
  /-- The values are those of the names, each once, in the order in which they first appear. -/
  values : ∀ offset bound, bindNamed sql params offset = .ok bound →
    bound.values.map some = (namesOf ps).eraseDups.map (lookup? params)
  /-- The text has positions in place of the names, and all else as it was. -/
  text : ∀ offset bound, bindNamed sql params offset = .ok bound →
    bound.sql.toList = (placed offset ps).flatMap Token.chars
  /-- The positions lead back to the names. -/
  restored : ∀ offset,
    (placed offset ps).flatMap (Token.restored offset (namesOf ps).eraseDups) = sql.toList
  /-- The offset raises the positions and changes nothing else. -/
  shifted : ∀ offset bound, bindNamed sql params 0 = .ok bound →
    bindNamed sql params offset =
      .ok ⟨String.ofList (((placed 0 ps).map (Token.raise offset)).flatMap Token.chars),
        bound.values⟩

theorem bindNamed_of_values (h : Splits sql.toList ps)
    (hvalues : ∀ name ∈ namesOf ps, (lookup? params name).isSome) (offset : Nat) :
    bindNamed sql params offset =
      .ok ⟨String.ofList ((placed offset ps).flatMap Token.chars),
        (namesOf ps).eraseDups.filterMap (lookup? params)⟩ := by
  have hfind : (namesOf ps).find? (fun name => (lookup? params name).isNone) = none := by
    refine List.find?_eq_none.mpr fun name hname => ?_
    obtain ⟨value, hvalue⟩ := Option.isSome_iff_exists.mp (hvalues name hname)
    simp [hvalue]
  rw [bindNamed_eq h, hfind]

/-- Where binding gives a result, every name has a value. -/
theorem values_of_bindNamed (h : Splits sql.toList ps) {bound : Sql.Positional}
    (hbound : bindNamed sql params offset = .ok bound) :
    ∀ name ∈ namesOf ps, (lookup? params name).isSome := by
  intro name hname
  rw [bindNamed_eq h] at hbound
  cases hfind : (namesOf ps).find? fun name => (lookup? params name).isNone with
  | some first => rw [hfind] at hbound; cases hbound
  | none =>
    have hnot := List.find?_eq_none.mp hfind name hname
    rwa [Bool.not_eq_true, Option.isNone_eq_false_iff] at hnot

theorem rewrites_of_splits (h : Splits sql.toList ps) (params : List (String × String)) :
    Rewrites sql params ps where
  succeeds offset := by
    simp only [← Option.isSome_iff_exists]
    exact ⟨fun ⟨_, hbound⟩ => values_of_bindNamed h hbound,
      fun hvalues => ⟨_, bindNamed_of_values h hvalues offset⟩⟩
  fails offset name := by
    rw [bindNamed_eq h]
    cases (namesOf ps).find? fun name => (lookup? params name).isNone with
    | some first =>
      exact ⟨fun he => congrArg some (Except.error.inj he), fun he => by cases he; rfl⟩
    | none => exact ⟨fun he => (by cases he), fun he => by cases he⟩
  values offset bound hbound := by
    have hvalues := values_of_bindNamed h hbound
    obtain rfl := Except.ok.inj ((bindNamed_of_values h hvalues offset).symm.trans hbound)
    exact map_some_filterMap fun name hname => hvalues name (List.mem_eraseDups.mp hname)
  text offset bound hbound := by
    have hvalues := values_of_bindNamed h hbound
    obtain rfl := Except.ok.inj ((bindNamed_of_values h hvalues offset).symm.trans hbound)
    exact String.toList_ofList
  restored offset := (restored_placed offset ps).trans h.source
  shifted offset bound hbound := by
    have hvalues := values_of_bindNamed h hbound
    obtain rfl := Except.ok.inj ((bindNamed_of_values h hvalues 0).symm.trans hbound)
    rw [bindNamed_of_values h hvalues offset, placed_offset offset]

end

/-- **The law of binding.**  Every text falls into literals, casts, placeholders and other
characters in one way, and binding replaces the placeholders alone: each by the position of its
name, which an offset raises. -/
theorem bindNamed_rewrites (sql : String) (params : List (String × String)) :
    ∃ ps, (∀ qs, Splits sql.toList qs ↔ qs = ps) ∧ Rewrites sql params ps :=
  ⟨Piece.scan sql.toList, fun _ => Sql.scan_eq_iff.symm.trans eq_comm,
    rewrites_of_splits (Sql.splits_scan _) params⟩

end CorpusAgent.Storage
