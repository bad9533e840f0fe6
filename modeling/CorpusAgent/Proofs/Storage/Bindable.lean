import CorpusAgent.Proofs.Storage.Alignment
import Mathlib.Data.List.Perm.Subperm

/-!
# Predicates of filters bind

A predicate that comes from a filter can be embedded in any statement.

* `Bound`: a predicate is bound as it should be after an offset.
* `Bindable`: the parameters of a predicate are numbered from zero, its placeholders are among them,
  and it is bound as it should be after every offset.
* `compile_bindable`: the predicate of a filter is bindable; there are filters with a parameter that
  no placeholder names, and such a parameter gets no position.
-/

namespace CorpusAgent.Storage

open Sql (Piece bindNamed lookup? paramName)
open CorpusAgent.Filter (paramsOf keys_paramsOf length_paramsOf)

/-! ### Bound predicates -/

/-- A predicate with positions for its names, after an offset. -/
structure Bound (p : Predicate) (offset : Nat) (bound : Sql.Positional) : Prop where
  /-- The values are those of the names, each once; other parameters have none. -/
  values : bound.values.map some = p.names.eraseDups.map (lookup? p.params)
  length_le : bound.values.length ≤ p.params.length
  /-- In the text each placeholder is the position of its name, and all else is as it was. -/
  tokens : Token.scan bound.sql.toList = placed offset (Piece.scan p.sql.toList)
  /-- The positions are those of the values. -/
  positions : ∀ k, k ∈ (Token.scan bound.sql.toList).filterMap Token.position? ↔
    offset < k ∧ k ≤ offset + bound.values.length
  /-- The position of a name has the value of the parameter with this name. -/
  value : ∀ name ∈ p.names, ∃ value, lookup? p.params name = some value ∧
    bound.values[place offset p.names.eraseDups name - (offset + 1)]? = some value
  /-- Different names have different positions. -/
  distinct : ∀ name ∈ p.names, ∀ other ∈ p.names,
    place offset p.names.eraseDups name = place offset p.names.eraseDups other → name = other
  /-- Literals and casts are still there, and no piece has become another one. -/
  pieces : Piece.scan bound.sql.toList =
    (Piece.scan p.sql.toList).flatMap (Piece.replaced (mark (place offset p.names.eraseDups)))
  /-- No placeholder is left. -/
  unnamed : ∀ piece ∈ Piece.scan bound.sql.toList, piece.name? = none

/-- A predicate that can be bound after every offset. -/
structure Bindable (p : Predicate) : Prop where
  /-- The parameters are numbered from zero. -/
  keys : p.params.map (·.1) = (List.range p.params.length).map paramName
  nodup : (p.params.map (·.1)).Nodup
  /-- The placeholders name parameters. -/
  names : ∀ name ∈ p.names, name ∈ p.params.map (·.1)
  binds : ∀ offset, ∃ bound, bindNamed p.sql p.params offset = .ok bound ∧ Bound p offset bound

/-! ### Positions in the text -/

theorem mem_mark {number : String → Nat} {name : String} {c : Char} (h : c ∈ mark number name) :
    c ≠ '\'' ∧ c ≠ ':' := by
  have htext : mark number name = '$' :: Nat.toDigits 10 (number name) := by simp [mark]
  rw [htext, List.mem_cons] at h
  rcases h with rfl | hdigit
  · decide
  · have hdigit := Nat.isDigit_of_mem_toDigits (by omega) (by omega) hdigit
    constructor
    · rintro rfl
      exact absurd hdigit (by decide)
    · rintro rfl
      exact absurd hdigit (by decide)

theorem name?_replaced {mark : String → List Char} {p q : Piece} (h : q ∈ p.replaced mark) :
    q.name? = none := by
  cases p with
  | named name =>
    obtain ⟨c, -, rfl⟩ := List.mem_map.mp h
    rfl
  | _ =>
    obtain rfl := List.mem_singleton.mp h
    rfl

theorem place_inj {offset : Nat} {names : List String} {name other : String} (h : name ∈ names)
    (hplace : place offset names name = place offset names other) : name = other := by
  have hrank : names.idxOf name = names.idxOf other := by
    rw [place, place] at hplace
    omega
  exact (List.idxOf_inj h).mp hrank

/-! ### Parameters -/

theorem nodup_paramNames (n : Nat) : ((List.range n).map paramName).Nodup :=
  List.Nodup.map (fun _ _ h => Filter.paramName_inj h) List.nodup_range

/-! ### The predicate of a filter -/

section

variable {p : Predicate} {n : Nat}

/-- A predicate of allowed pieces, with a value for each of its names, is bound as it should be. -/
theorem exists_bound (hall : ∀ piece ∈ Piece.scan p.sql.toList, piece.Allowed n)
    (hnames : ∀ name ∈ p.names, (lookup? p.params name).isSome)
    (hlength : p.names.eraseDups.length ≤ p.params.length) (offset : Nat) :
    ∃ bound, bindNamed p.sql p.params offset = .ok bound ∧ Bound p offset bound := by
  have hsplits := Sql.splits_scan p.sql.toList
  have hbind := bindNamed_of_values hsplits hnames offset
  have hdups : ∀ name ∈ p.names.eraseDups, (lookup? p.params name).isSome :=
    fun name hname => hnames name (List.mem_eraseDups.mp hname)
  have hvalues := length_filterMap hdups
  have hchars : (placed offset (Piece.scan p.sql.toList)).flatMap Token.chars =
      (Piece.scan p.sql.toList).flatMap
        (Piece.chars (mark (place offset p.names.eraseDups))) := chars_placed _ _
  have htokens : Token.scan ((placed offset (Piece.scan p.sql.toList)).flatMap Token.chars) =
      placed offset (Piece.scan p.sql.toList) := by
    have hends : Token.NoDigit [] := by simp [Token.NoDigit]
    have hscan := scan_pieces (place offset p.names.eraseDups) hall
      (Piece.separated_scanFrom .outside p.sql.toList) hends
    rw [List.append_nil, show Token.scan [] = [] from rfl, List.append_nil] at hscan
    rw [hchars, hscan]
    rfl
  have hpieces : Piece.scan ((placed offset (Piece.scan p.sql.toList)).flatMap Token.chars) =
      (Piece.scan p.sql.toList).flatMap
        (Piece.replaced (mark (place offset p.names.eraseDups))) := by
    rw [hchars]
    exact Sql.scan_eq_of_splits (hsplits.replaced fun _ _ hc => mem_mark hc)
  refine ⟨_, hbind, ?_⟩
  constructor
  · exact map_some_filterMap hdups
  · exact hvalues.trans_le hlength
  · rw [String.toList_ofList]
    exact htokens
  · intro k
    have hpositions := mem_positions_placed offset (Piece.scan p.sql.toList) k
    rw [show namesOf (Piece.scan p.sql.toList) = p.names from rfl, ← hvalues] at hpositions
    rw [String.toList_ofList, htokens]
    exact hpositions
  · intro name hname
    obtain ⟨value, hvalue⟩ := Option.isSome_iff_exists.mp (hnames name hname)
    refine ⟨value, hvalue, ?_⟩
    have hrank : place offset p.names.eraseDups name - (offset + 1) =
        p.names.eraseDups.idxOf name := by
      rw [place]
      omega
    rw [hrank, ← hvalue]
    exact getElem?_filterMap_idxOf hdups (List.mem_eraseDups.mpr hname)
  · exact fun name hname _ _ hplace => place_inj (List.mem_eraseDups.mpr hname) hplace
  · rw [String.toList_ofList]
    exact hpieces
  · intro piece hpiece
    rw [String.toList_ofList, hpieces] at hpiece
    obtain ⟨source, -, hpiece⟩ := List.mem_flatMap.mp hpiece
    exact name?_replaced hpiece

end

theorem bindable_compile (f : Filter) (fields : List Field) : Bindable (f.compile fields) := by
  obtain ⟨hall, hvalues⟩ := compile_pieces f fields
  have hkeys : (f.compile fields).params.map (·.1) =
      (List.range (f.compile fields).params.length).map paramName := by
    have hparams : (f.compile fields).params =
        paramsOf ((Filter.condition fields f).run #[]).2 := rfl
    rw [hparams, length_paramsOf, keys_paramsOf]
  have hnodup : ((f.compile fields).params.map (·.1)).Nodup := hkeys ▸ nodup_paramNames _
  have hnames : ∀ name ∈ (f.compile fields).names, name ∈ (f.compile fields).params.map (·.1) := by
    intro name hname
    obtain ⟨value, hvalue⟩ := Option.isSome_iff_exists.mp (hvalues name hname)
    obtain ⟨param, hparam, -⟩ := Option.map_eq_some_iff.mp hvalue
    have hkey := List.find?_some hparam
    rw [← eq_of_beq hkey]
    exact List.mem_map_of_mem (List.mem_of_find?_eq_some hparam)
  refine ⟨hkeys, hnodup, hnames, exists_bound hall hvalues ?_⟩
  -- distinct names are distinct parameters
  have hdups : (f.compile fields).names.eraseDups.Nodup :=
    firstAppearances_eq _ ▸ nodup_firstAppearances _
  have hsub : (f.compile fields).names.eraseDups ⊆ (f.compile fields).params.map (·.1) :=
    fun name hname => hnames name (List.mem_eraseDups.mp hname)
  have hle := (hdups.subperm hsub).length_le
  rwa [List.length_map] at hle

/-! ### Parameters without a placeholder -/

/-- An operator that is not known asks nothing of the text at a key, which is bound all the same. -/
theorem compile_path_unsupported (origin : Origin) (key name : String) (operand : Operand)
    (fields : List Field) : (Filter.path origin key ⟨.unsupported name, operand⟩).compile fields =
      ⟨"FALSE", [("p0", key)]⟩ := rfl

/-- An operator that is not known asks nothing of the values of a chain, whose key is bound all the
same. -/
theorem compile_field_unsupported (origin : Origin) (key field name : String) (operand : Operand) :
    (Filter.field field ⟨.unsupported name, operand⟩).compile
      [⟨field, none, none, [], some [.member origin key]⟩] = ⟨"FALSE", [("p0", key)]⟩ := by
  have hfind : Field.find? [⟨field, none, none, [], some [.member origin key]⟩] field =
      some ⟨field, none, none, [], some [.member origin key]⟩ :=
    List.find?_cons_of_pos (beq_self_eq_true field)
  rw [Filter.compile, Filter.condition, hfind]
  rfl

/-- **The predicate of a filter can be embedded in every statement.**  Its parameters are numbered
from zero, its placeholders are among them, and after any offset it has exactly the positions of its
values, with literals and casts as they were.  The key of a leaf that never holds is a parameter
without a placeholder, and gets no position. -/
theorem compile_bindable (f : Filter) (fields : List Field) :
    Bindable (f.compile fields) ∧
    (∀ origin key name operand,
      (Filter.path origin key ⟨.unsupported name, operand⟩).compile fields =
        ⟨"FALSE", [("p0", key)]⟩) ∧
    (∀ origin key field name operand,
      (Filter.field field ⟨.unsupported name, operand⟩).compile
          [⟨field, none, none, [], some [.member origin key]⟩] = ⟨"FALSE", [("p0", key)]⟩) ∧
    ∀ key offset, bindNamed "FALSE" [("p0", key)] offset = .ok ⟨"FALSE", []⟩ :=
  ⟨bindable_compile f fields,
    fun origin key name operand => compile_path_unsupported origin key name operand fields,
    compile_field_unsupported, fun _ _ => rfl⟩

end CorpusAgent.Storage
