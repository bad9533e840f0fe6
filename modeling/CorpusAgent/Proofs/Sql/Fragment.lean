import CorpusAgent.Proofs.Sql.Scan
import CorpusAgent.Proofs.Sql.Words
import Mathlib.Data.List.Forall2

/-!
# The pieces of a condition

What a scan for placeholders finds in the text of a condition: closed literals, casts, placeholders
of values that are bound, and other characters, none of which is a dollar sign.

* `Within`: an expression refers to the first `n` bound values only.
* `raise`: the expression for values that stand `k` places later.
* `Fragment`: a text falls into such pieces, whatever follows it.
* `Renumbered`: a fragment beside the text in which the numbers of its placeholders are raised.
* `Cond.renumbered`: the texts of a condition and of the raised condition are such a pair.
* `Cond.fragment`: so the text of a condition is a fragment.
-/

namespace CorpusAgent.Sql

/-! ### What a condition refers to -/

/-- A term refers to the first bound values only. -/
def Term.Within (n : Nat) : Term → Prop
  | .bound i => i < n
  | .member _ key => key < n
  | .btrim t | .nullIfEmpty t => t.Within n
  | _ => True

mutual

/-- A list expression refers to the first bound values only. -/
def Values.Within (n : Nat) : Values → Prop
  | .null => True
  | .bounds indices => ∀ i ∈ indices, i < n
  | .single t => t.Within n
  | .ifNull t missing present => t.Within n ∧ missing.Within n ∧ present.Within n
  | .ifArray _ key array other => key < n ∧ array.Within n ∧ other.Within n
  | .elements item _ key kept => item.Within n ∧ key < n ∧ kept.Within n
  | .coalesce choices => Values.WithinEach n choices

/-- `Values.Within` of several list expressions. -/
def Values.WithinEach (n : Nat) : List Values → Prop
  | [] => True
  | v :: rest => v.Within n ∧ Values.WithinEach n rest

end

/-- A condition refers to the first bound values only. -/
def Cond.Within (n : Nat) : Cond → Prop
  | .literal _ => True
  | .equal a b | .isNotDistinct a b | .isDistinct a b | .contains a b => a.Within n ∧ b.Within n
  | .isNull t | .isNotNull t => t.Within n
  | .notAmong t indices => t.Within n ∧ ∀ i ∈ indices, i < n
  | .noValues v | .someValues v => v.Within n
  | .someElement v c => v.Within n ∧ c.Within n
  | .orFalse c | .negate c | .paren c => c.Within n
  | .both a b | .either a b => a.Within n ∧ b.Within n

theorem Values.withinEach_iff {n : Nat} {vs : List Values} :
    WithinEach n vs ↔ ∀ v ∈ vs, v.Within n := by
  induction vs with
  | nil => simp [WithinEach]
  | cons v rest ih => rw [WithinEach, ih, List.forall_mem_cons]

/-! ### Values that stand later -/

/-- A term for values that stand `k` places later. -/
def Term.raise (k : Nat) : Term → Term
  | .bound i => .bound (i + k)
  | .sourceId => .sourceId
  | .element => .element
  | .member origin key => .member origin (key + k)
  | .btrim t => .btrim (t.raise k)
  | .nullIfEmpty t => .nullIfEmpty (t.raise k)

mutual

/-- A list expression for values that stand `k` places later. -/
def Values.raise (k : Nat) : Values → Values
  | .null => .null
  | .bounds indices => .bounds (indices.map (· + k))
  | .single t => .single (t.raise k)
  | .ifNull t missing present => .ifNull (t.raise k) (missing.raise k) (present.raise k)
  | .ifArray origin key array other =>
    .ifArray origin (key + k) (array.raise k) (other.raise k)
  | .elements item origin key kept => .elements (item.raise k) origin (key + k) (kept.raise k)
  | .coalesce choices => .coalesce (Values.raiseEach k choices)

/-- `Values.raise` of several list expressions. -/
def Values.raiseEach (k : Nat) : List Values → List Values
  | [] => []
  | v :: rest => v.raise k :: Values.raiseEach k rest

end

/-- A condition for values that stand `k` places later. -/
def Cond.raise (k : Nat) : Cond → Cond
  | .literal b => .literal b
  | .equal a b => .equal (a.raise k) (b.raise k)
  | .isNull t => .isNull (t.raise k)
  | .isNotNull t => .isNotNull (t.raise k)
  | .isNotDistinct a b => .isNotDistinct (a.raise k) (b.raise k)
  | .isDistinct a b => .isDistinct (a.raise k) (b.raise k)
  | .contains haystack needle => .contains (haystack.raise k) (needle.raise k)
  | .notAmong t indices => .notAmong (t.raise k) (indices.map (· + k))
  | .noValues v => .noValues (v.raise k)
  | .someValues v => .someValues (v.raise k)
  | .someElement v c => .someElement (v.raise k) (c.raise k)
  | .orFalse c => .orFalse (c.raise k)
  | .negate c => .negate (c.raise k)
  | .both a b => .both (a.raise k) (b.raise k)
  | .either a b => .either (a.raise k) (b.raise k)
  | .paren c => .paren (c.raise k)

theorem Values.raiseEach_eq_map (k : Nat) (vs : List Values) :
    Values.raiseEach k vs = vs.map (Values.raise k) := by
  induction vs with
  | nil => rfl
  | cons v rest ih => rw [raiseEach, ih, List.map_cons]

/-- The name of a placeholder with its number raised; what names no bound value is kept. -/
def raisedName (k : Nat) (name : String) : String :=
  match index? name.toList with
  | some i => paramName (i + k)
  | none => name

@[simp] theorem raisedName_paramName (k i : Nat) :
    raisedName k (paramName i) = paramName (i + k) := by
  rw [raisedName, index?_paramName]

/-- The text of a piece, a placeholder with its number raised. -/
def Piece.raised (k : Nat) : Piece → List Char :=
  Piece.chars fun name => byName (raisedName k name)

/-! ### Fragments -/

namespace Piece

/-- A piece of a text that stands outside of literals once all its literals are closed, with
placeholders for the first `n` bound values only. -/
def Allowed (n : Nat) : Piece → Prop
  | .literal cs => ∃ body, '\'' ∉ body ∧ cs = '\'' :: (body ++ ['\''])
  | .cast => True
  | .named name => ∃ i, i < n ∧ name = (paramName i).toList
  | .other c => c ≠ '$' ∧ c ≠ '\''

/-- A piece without a placeholder that is allowed. -/
def isFixed : Piece → Bool
  | .literal (c :: cs) => c == '\'' && cs.getLast? == some '\'' && !cs.dropLast.contains '\''
  | .cast => true
  | .other c => c != '$' && c != '\''
  | _ => false

theorem allowed_of_isFixed {n : Nat} {p : Piece} (h : p.isFixed = true) : p.Allowed n := by
  match p, h with
  | .literal (c :: cs), h =>
    simp only [isFixed, Bool.and_eq_true, beq_iff_eq, Bool.not_eq_true', List.contains_eq_mem,
      decide_eq_false_iff_not] at h
    obtain ⟨⟨rfl, hlast⟩, hbody⟩ := h
    refine ⟨cs.dropLast, hbody, ?_⟩
    rw [List.dropLast_append_getLast? '\'' hlast]
  | .cast, _ => trivial
  | .other c, h => simpa [isFixed, Allowed] using h

theorem chars_of_isFixed {p : Piece} (h : p.isFixed = true) (mark other : String → List Char) :
    p.chars mark = p.chars other := by
  cases p with
  | named name => cases h
  | literal cs | cast | other c => rfl

end Piece

open Piece

/-- What follows does not continue a name. -/
def Parted (rest : List Char) : Prop := ∀ c ∈ rest.head?, isNamePart c = false

/-- A text of allowed pieces. -/
def Fragment (n : Nat) (cs : List Char) : Prop :=
  ∃ ps, (∀ p ∈ ps, p.Allowed n) ∧ ∀ rest, Parted rest → scan (cs ++ rest) = ps ++ scan rest

/-- A text of allowed pieces beside the text in which the numbers of its placeholders are raised. -/
def Renumbered (n k : Nat) (cs ds : List Char) : Prop :=
  ∃ ps, (∀ p ∈ ps, p.Allowed n) ∧
    (∀ rest, Parted rest → scan (cs ++ rest) = ps ++ scan rest) ∧ ps.flatMap (Piece.raised k) = ds

/-- A text without placeholders and with nothing pending after it. -/
def isFixedText (cs : List Char) : Bool :=
  (cs.foldl after .outside).isOutside && (scan cs).all isFixed

variable {n k : Nat} {cs ds es fs : List Char}

theorem renumbered_nil : Renumbered n k [] [] := ⟨[], by simp, fun _ _ => rfl, rfl⟩

theorem raised_fixed (h : isFixedText cs = true) : (scan cs).flatMap (Piece.raised k) = cs := by
  rw [isFixedText, Bool.and_eq_true, List.all_eq_true] at h
  calc (scan cs).flatMap (Piece.raised k)
      = (scan cs).flatMap (Piece.chars byName) :=
        List.flatMap_congr fun p hp => chars_of_isFixed (h.2 p hp) _ _
    _ = cs := source_scan cs

theorem fixed_append (h : isFixedText cs = true) (hd : Renumbered n k ds es) :
    Renumbered n k (cs ++ ds) (cs ++ es) := by
  obtain ⟨ps, hps, hscan, rfl⟩ := hd
  have hraised := raised_fixed (k := k) h
  rw [isFixedText, Bool.and_eq_true, List.all_eq_true] at h
  refine ⟨scan cs ++ ps, fun p hp => ?_, fun rest hr => ?_, ?_⟩
  · rcases List.mem_append.mp hp with hp | hp
    · exact allowed_of_isFixed (h.2 p hp)
    · exact hps p hp
  · rw [List.append_assoc, scan, scanFrom_append h.1, hscan rest hr, List.append_assoc]
    rfl
  · rw [List.flatMap_append, hraised]

theorem renumbered_fixed (h : isFixedText cs = true) : Renumbered n k cs cs := by
  have hf : Renumbered n k (cs ++ []) (cs ++ []) := fixed_append h renumbered_nil
  rwa [List.append_nil] at hf

theorem parted_append {rest : List Char} (h : (cs.head?.any fun c => !isNamePart c) = true) :
    Parted (cs ++ rest) := by
  cases cs with
  | nil => cases h
  | cons c cs => simpa [Parted] using h

/-- A fragment and a text without placeholders that does not continue a name. -/
theorem renumbered_append {gs : List Char} (hc : Renumbered n k cs ds) (h : isFixedText es = true)
    (hh : (es.head?.any fun c => !isNamePart c) = true) (hf : Renumbered n k fs gs) :
    Renumbered n k (cs ++ (es ++ fs)) (ds ++ (es ++ gs)) := by
  obtain ⟨ps, hps, hscan, rfl⟩ := hc
  obtain ⟨qs, hqs, hscan', hraised⟩ := fixed_append h hf
  refine ⟨ps ++ qs, fun p hp => ?_, fun rest hr => ?_, ?_⟩
  · rcases List.mem_append.mp hp with hp | hp
    · exact hps p hp
    · exact hqs p hp
  · have hparted : Parted ((es ++ fs) ++ rest) := by
      rw [List.append_assoc]
      exact parted_append hh
    rw [List.append_assoc, hscan _ hparted, hscan' rest hr, List.append_assoc]
  · rw [List.flatMap_append, hraised]

theorem renumbered_append_fixed (hc : Renumbered n k cs ds) (h : isFixedText es = true)
    (hh : (es.head?.any fun c => !isNamePart c) = true) :
    Renumbered n k (cs ++ es) (ds ++ es) := by
  have hf := renumbered_append hc h hh renumbered_nil
  rwa [List.append_nil] at hf

theorem scanFrom_name {name : List Char} (hname : ∀ c ∈ name, isNamePart c = true)
    (seen : List Char) {rest : List Char} (hr : Parted rest) :
    scanFrom (.name seen) (name ++ rest) = .named (seen.reverse ++ name) :: scan rest := by
  induction name generalizing seen with
  | nil =>
    rw [List.nil_append, List.append_nil]
    cases rest with
    | nil => rfl
    | cons c rest =>
      have hc : isNamePart c = false := hr c rfl
      rw [scan, scanFrom_cons, scanFrom_cons]
      by_cases h : c = '\'' ∨ c = ':' <;> simp [completed, after, hc, h]
  | cons c name ih =>
    have hc : isNamePart c = true := hname c (List.mem_cons_self ..)
    rw [List.cons_append, scanFrom_cons, completed, after, if_pos hc, if_pos hc,
      ih fun d hd => hname d (List.mem_cons_of_mem c hd)]
    simp

theorem renumbered_placeholder {i : Nat} (hi : i < n) :
    Renumbered n k (placeholder i).toList (placeholder (i + k)).toList := by
  refine ⟨[.named (paramName i).toList], ?_, fun rest hr => ?_, ?_⟩
  · intro p hp
    obtain rfl := List.mem_singleton.mp hp
    exact ⟨i, hi, rfl⟩
  · have hname : (paramName i).toList = 'p' :: Nat.toDigits 10 i := by simp [paramName]
    have hparts := isNamePart_paramName i
    rw [hname] at hparts
    have htext : (placeholder i).toList ++ rest = ':' :: 'p' :: (Nat.toDigits 10 i ++ rest) := by
      rw [placeholder, String.toList_append, hname]
      rfl
    rw [htext, scan, scanFrom_cons, scanFrom_cons, hname]
    show scanFrom (.name ['p']) _ = _
    rw [scanFrom_name (fun c hc => hparts c (List.mem_cons_of_mem 'p' hc)) ['p'] hr]
    rfl
  · rw [List.flatMap_singleton, Piece.raised, chars, String.ofList_toList, raisedName_paramName,
      placeholder, String.toList_append]
    rfl

theorem renumbered_commas {texts others : List String}
    (h : List.Forall₂ (fun s t : String => Renumbered n k s.toList t.toList) texts others) :
    Renumbered n k (", ".intercalate texts).toList (", ".intercalate others).toList := by
  induction h with
  | nil => exact renumbered_nil
  | cons hfirst hrest ih =>
    cases hrest with
    | nil =>
      rw [String.intercalate_singleton, String.intercalate_singleton]
      exact hfirst
    | cons =>
      simp only [String.intercalate_cons_cons, String.toList_append, List.append_assoc]
      exact renumbered_append hfirst (by decide) (by decide) ih

theorem renumbered_placeholders {is : List Nat} (h : ∀ i ∈ is, i < n) :
    Renumbered n k (placeholders is).toList (placeholders (is.map (· + k))).toList := by
  refine renumbered_commas ?_
  rw [List.map_map, List.forall₂_map_left_iff, List.forall₂_map_right_iff, List.forall₂_same]
  exact fun i hi => renumbered_placeholder (h i hi)

/-! ### Expressions -/

theorem renumbered_column (origin : Origin) (h : Renumbered n k ds es) :
    Renumbered n k ((columnName origin).toList ++ ds) ((columnName origin).toList ++ es) := by
  cases origin <;> exact fixed_append (by decide) h


theorem Term.renumbered {t : Term} (h : t.Within n) :
    Renumbered n k t.render.toList (t.raise k).render.toList := by
  induction t with
  | bound i => exact renumbered_placeholder h
  | sourceId => exact renumbered_fixed (by decide)
  | element => exact renumbered_fixed (by decide)
  | member origin key =>
    simp only [Term.raise, Term.render, String.toList_append, List.append_assoc]
    exact renumbered_column origin (fixed_append (by decide) (renumbered_placeholder h))
  | btrim t ih =>
    simp only [Term.raise, Term.render, String.toList_append, List.append_assoc]
    exact fixed_append (by decide) (renumbered_append_fixed (ih h) (by decide) (by decide))
  | nullIfEmpty t ih =>
    simp only [Term.raise, Term.render, String.toList_append, List.append_assoc]
    exact fixed_append (by decide) (renumbered_append_fixed (ih h) (by decide) (by decide))

mutual

theorem Values.renumbered {v : Values} (h : v.Within n) :
    Renumbered n k v.render.toList (v.raise k).render.toList := by
  cases v with
  | null => exact renumbered_fixed (by decide)
  | bounds is =>
    simp only [Values.raise, Values.render_bounds, String.toList_append, List.append_assoc]
    exact fixed_append (by decide)
      (renumbered_append_fixed (renumbered_placeholders h) (by decide) (by decide))
  | single t =>
    simp only [Values.raise, Values.render_single, String.toList_append, List.append_assoc]
    exact fixed_append (by decide)
      (renumbered_append_fixed (Term.renumbered h) (by decide) (by decide))
  | ifNull t missing present =>
    have hend : Renumbered n k (present.render.toList ++ " END)".toList)
        ((present.raise k).render.toList ++ " END)".toList) :=
      renumbered_append_fixed (Values.renumbered h.2.2) (by decide) (by decide)
    simp only [Values.raise, Values.render_ifNull, String.toList_append, List.append_assoc]
    exact fixed_append (by decide) (renumbered_append (Term.renumbered h.1) (by decide) (by decide)
      (renumbered_append (Values.renumbered h.2.1) (by decide) (by decide) hend))
  | ifArray origin key array other =>
    have hend : Renumbered n k (other.render.toList ++ " END)".toList)
        ((other.raise k).render.toList ++ " END)".toList) :=
      renumbered_append_fixed (Values.renumbered h.2.2) (by decide) (by decide)
    have helse : isFixedText " ELSE ".toList = true := by decide
    have hbranches := renumbered_append (Values.renumbered h.2.1) helse (by decide) hend
    simp only [Values.raise, Values.render_ifArray, String.toList_append, List.append_assoc]
    exact fixed_append (by decide) (renumbered_column origin (fixed_append (by decide)
      (renumbered_append (renumbered_placeholder h.1) (by decide) (by decide) hbranches)))
  | elements item origin key kept =>
    have hend : Renumbered n k (kept.render.toList ++ " IS NOT NULL)".toList)
        ((kept.raise k).render.toList ++ " IS NOT NULL)".toList) :=
      renumbered_append_fixed (Term.renumbered h.2.2) (by decide) (by decide)
    have hwhere : isFixedText ") AS el WHERE ".toList = true := by decide
    have hkey := renumbered_append (renumbered_placeholder h.2.1) hwhere (by decide) hend
    simp only [Values.raise, Values.render_elements, String.toList_append, List.append_assoc]
    exact fixed_append (by decide) (renumbered_append (Term.renumbered h.1) (by decide) (by decide)
      (renumbered_column origin (fixed_append (by decide) hkey)))
  | coalesce choices =>
    have hchoices := renumbered_commas (Values.renumbered_each h)
    simp only [Values.raise, Values.raiseEach_eq_map, Values.render_coalesce,
      String.toList_append, List.append_assoc]
    exact fixed_append (by decide) (renumbered_append_fixed hchoices (by decide) (by decide))

theorem Values.renumbered_each {vs : List Values} (h : Values.WithinEach n vs) :
    List.Forall₂ (fun s t : String => Renumbered n k s.toList t.toList) (vs.map Values.render)
      ((vs.map (Values.raise k)).map Values.render) := by
  cases vs with
  | nil => exact .nil
  | cons v rest => exact .cons (Values.renumbered h.1) (Values.renumbered_each h.2)

end

/-- The texts of a condition and of the raised condition differ in the numbers of the placeholders
only. -/
theorem Cond.renumbered {c : Cond} (h : c.Within n) :
    Renumbered n k c.render.toList (c.raise k).render.toList := by
  induction c with
  | literal b => cases b <;> exact renumbered_fixed (by decide)
  | equal a b =>
    simp only [Cond.raise, Cond.render_equal, String.toList_append, List.append_assoc]
    exact renumbered_append (Term.renumbered h.1) (by decide) (by decide) (Term.renumbered h.2)
  | isNull t =>
    simp only [Cond.raise, Cond.render_isNull, String.toList_append]
    exact renumbered_append_fixed (Term.renumbered h) (by decide) (by decide)
  | isNotNull t =>
    simp only [Cond.raise, Cond.render_isNotNull, String.toList_append]
    exact renumbered_append_fixed (Term.renumbered h) (by decide) (by decide)
  | isNotDistinct a b =>
    simp only [Cond.raise, Cond.render_isNotDistinct, String.toList_append, List.append_assoc]
    exact renumbered_append (Term.renumbered h.1) (by decide) (by decide) (Term.renumbered h.2)
  | isDistinct a b =>
    simp only [Cond.raise, Cond.render_isDistinct, String.toList_append, List.append_assoc]
    exact renumbered_append (Term.renumbered h.1) (by decide) (by decide) (Term.renumbered h.2)
  | contains a b =>
    simp only [Cond.raise, Cond.render_contains, String.toList_append, List.append_assoc]
    exact fixed_append (by decide) (renumbered_append (Term.renumbered h.1) (by decide) (by decide)
      (renumbered_append_fixed (Term.renumbered h.2) (by decide) (by decide)))
  | notAmong t is =>
    simp only [Cond.raise, Cond.render_notAmong, String.toList_append, List.append_assoc]
    exact renumbered_append (Term.renumbered h.1) (by decide) (by decide)
      (renumbered_append_fixed (renumbered_placeholders h.2) (by decide) (by decide))
  | noValues v =>
    simp only [Cond.raise, Cond.render_noValues, String.toList_append]
    exact renumbered_append_fixed (Values.renumbered h) (by decide) (by decide)
  | someValues v =>
    simp only [Cond.raise, Cond.render_someValues, String.toList_append]
    exact renumbered_append_fixed (Values.renumbered h) (by decide) (by decide)
  | someElement v c ih =>
    simp only [Cond.raise, Cond.render_someElement, String.toList_append, List.append_assoc]
    exact fixed_append (by decide) (renumbered_append (Values.renumbered h.1) (by decide)
      (by decide) (renumbered_append_fixed (ih h.2) (by decide) (by decide)))
  | orFalse c ih =>
    simp only [Cond.raise, Cond.render_orFalse, String.toList_append, List.append_assoc]
    exact fixed_append (by decide) (renumbered_append_fixed (ih h) (by decide) (by decide))
  | negate c ih =>
    simp only [Cond.raise, Cond.render_negate, String.toList_append]
    exact fixed_append (by decide) (ih h)
  | both a b iha ihb =>
    simp only [Cond.raise, Cond.render_both, String.toList_append, List.append_assoc]
    exact renumbered_append (iha h.1) (by decide) (by decide) (ihb h.2)
  | either a b iha ihb =>
    simp only [Cond.raise, Cond.render_either, String.toList_append, List.append_assoc]
    exact renumbered_append (iha h.1) (by decide) (by decide) (ihb h.2)
  | paren c ih =>
    simp only [Cond.raise, Cond.render_paren, String.toList_append, List.append_assoc]
    exact fixed_append (by decide) (renumbered_append_fixed (ih h) (by decide) (by decide))


/-- The text of a condition falls into allowed pieces. -/
theorem Cond.fragment {c : Cond} (h : c.Within n) : Fragment n c.render.toList := by
  obtain ⟨ps, hps, hscan, _⟩ := Cond.renumbered (k := 0) h
  exact ⟨ps, hps, hscan⟩

/-- The text with raised numbers is that of the pieces with raised numbers. -/
theorem Renumbered.raised (h : Renumbered n k cs ds) : (scan cs).flatMap (Piece.raised k) = ds := by
  obtain ⟨ps, -, hscan, hds⟩ := h
  have hcs := hscan [] (by simp [Parted])
  rw [List.append_nil, show scan [] = [] from rfl, List.append_nil] at hcs
  rw [hcs, hds]

/-- The pieces of a text that is a fragment. -/
theorem Fragment.allowed (h : Fragment n cs) : ∀ p ∈ scan cs, p.Allowed n := by
  obtain ⟨ps, hps, hscan⟩ := h
  have hcs := hscan [] (by simp [Parted])
  rw [List.append_nil, show scan [] = [] from rfl, List.append_nil] at hcs
  rwa [hcs]

end CorpusAgent.Sql
