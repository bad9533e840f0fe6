import CorpusAgent.Proofs.Filter.Fit
import CorpusAgent.Proofs.Storage.Binding

/-!
# Statements and their values

The values of a statement stand where they are meant, whatever the filter.

* `Predicate.filled`: the text of a predicate with the values of its placeholders, by name.
* `countFilled`, `chunksFilled`: the statements with all values where they are meant.
* `statements_aligned`: for the predicate of a filter, a blank one or none, both statements use
  exactly the positions of their values, and each position has the value that is meant there.  For
  any other predicate with a placeholder that has no value, there is no statement at all.
-/

namespace CorpusAgent

open Sql (Piece lookup? firstAppearances)
open Storage (Value Part)

namespace Predicate

/-- The names of the placeholders, in order. -/
def names (p : Predicate) : List String := (Piece.scan p.sql.toList).filterMap Piece.name?

/-- The values of the placeholders, each once, in the order in which they first appear. -/
def values (p : Predicate) : List Value :=
  ((firstAppearances p.names).filterMap (lookup? p.params)).map .text

/-- A piece with the value of its placeholder. -/
def fill (params : List (String × String)) : Piece → List Part
  | .named name => [.value ((lookup? params (String.ofList name)).map .text)]
  | p => (p.chars fun _ => []).map .char

/-- The text with the values in place of their placeholders. -/
def filled (p : Predicate) : List Part := (Piece.scan p.sql.toList).flatMap (fill p.params)

end Predicate

namespace Storage

open Sql (Piece Parted lookup? firstAppearances)

/-! ### What is meant -/

/-- The clause of a filter with its values; a blank predicate and none are no clause. -/
def filterFilled : Option Predicate → List Part
  | none => []
  | some p => if p.isEmpty then [] else Part.text "\n\tAND (" ++ p.filled ++ Part.text ")"

/-- The values of a filter. -/
def filterValues : Option Predicate → List Value
  | none => []
  | some p => if p.isEmpty then [] else p.values

/-- The statement that counts, with its values. -/
def countFilled (graph : String) (filter : Option Predicate) : List Part :=
  Part.text "SELECT COUNT(*)\nFROM documents d\nWHERE d.graph_id = " ++
    [.value (some (.text graph))] ++ Part.text "\n\tAND d.status = " ++
    [.value (some (.text completed))] ++ filterFilled filter

/-- The clause of the only documents to search, with its value. -/
def onlyFilled : Option (List Uuid) → List Part
  | none => []
  | some ids =>
    Part.text "\n\tAND c.document_id = ANY(" ++ [.value (some (.ids ids))] ++ Part.text ")"

/-- The statement that searches, with its values. -/
def chunksFilled (q : ChunkQuery) : List Part :=
  Part.text "SELECT\n\tc.chunk_id,\n\tc.document_id,\n\tCOALESCE(c.title, d.title) AS title,\n" ++
    Part.text "\tc.content,\n\t(1 - (c.vec <=> " ++ [.value (some (.text (vectorText q.vector)))] ++
    Part.text "::text::vector))::real AS score\n" ++
    Part.text "FROM chunks c\nJOIN documents d ON d.document_id = c.document_id\n" ++
    Part.text "WHERE c.graph_id = " ++ [.value (some (.text q.graph))] ++
    Part.text "\n\tAND d.status = " ++ [.value (some (.text completed))] ++
    Part.text "\n\tAND c.vec IS NOT NULL" ++ onlyFilled q.onlyDocuments ++ filterFilled q.filter ++
    Part.text "\nORDER BY c.vec <=> " ++ [.value (some (.text (vectorText q.vector)))] ++
    Part.text "::text::vector ASC, c.chunk_id ASC\nLIMIT " ++ [.value (some (.integer q.limit))]

/-! ### The clause of a filter -/

/-- A part of a statement after some values, with the values that follow them: it can be scanned
apart, its positions are those of its own values, and filled with the values it is what is meant. -/
structure Aligned (front values : List Value) (parts : List Part) (text : String) : Prop where
  noDigit : ∀ rest, Token.NoDigit rest → Token.NoDigit (text.toList ++ rest)
  scan : ∀ rest, Token.NoDigit rest →
    Token.scan (text.toList ++ rest) = Token.scan text.toList ++ Token.scan rest
  filled : (Token.scan text.toList).flatMap (Token.fill (front ++ values)) = parts
  positions : ∀ k, k ∈ (Token.scan text.toList).filterMap Token.position? ↔
    front.length < k ∧ k ≤ front.length + values.length

theorem aligned_nil (front : List Value) : Aligned front [] [] "" where
  noDigit _ h := h
  scan _ _ := rfl
  filled := rfl
  positions k := by
    simp only [List.length_nil, Nat.add_zero]
    exact ⟨fun h => absurd h List.not_mem_nil, fun h => by omega⟩

section

variable {p : Predicate} {n : Nat} {front : List Value}

/-- The position of a name after some values. -/
def rank (front : List Value) (p : Predicate) (name : String) : Nat :=
  front.length + (firstAppearances p.names).idxOf name + 1

theorem fill_pieceTokens (hnames : ∀ name ∈ p.names, (lookup? p.params name).isSome) {piece : Piece}
    (h : piece ∈ Piece.scan p.sql.toList) :
    (pieceTokens (rank front p) piece).flatMap (Token.fill (front ++ p.values)) =
      Predicate.fill p.params piece := by
  cases piece with
  | literal cs => simp [pieceTokens, Token.fill, Predicate.fill, Piece.chars]
  | cast => rfl
  | other c => rfl
  | named name =>
    have hmem : String.ofList name ∈ firstAppearances p.names :=
      mem_firstAppearances.mpr (List.mem_filterMap.mpr ⟨.named name, h, rfl⟩)
    have hvalue := getElem?_filterMap_idxOf
      (fun name hn => hnames name (mem_firstAppearances.mp hn)) hmem
    simp only [pieceTokens, rank, List.flatMap_singleton, Token.fill, Predicate.fill]
    rw [List.getElem?_append_right (Nat.le_add_right _ _), Nat.add_sub_cancel_left,
      Predicate.values, List.getElem?_map, hvalue]

theorem mem_positions_pieces (hnames : ∀ name ∈ p.names, (lookup? p.params name).isSome) (k : Nat) :
    k ∈ ((Piece.scan p.sql.toList).flatMap (pieceTokens (rank front p))).filterMap
      Token.position? ↔ front.length < k ∧ k ≤ front.length + p.values.length := by
  have hlen : p.values.length = (firstAppearances p.names).length := by
    rw [Predicate.values, List.length_map,
      length_filterMap fun name hn => hnames name (mem_firstAppearances.mp hn)]
  have hpositions := mem_positions_placed front.length (Piece.scan p.sql.toList) k
  rw [placed, ← firstAppearances_eq] at hpositions
  rw [hlen]
  exact hpositions

/-- The clause of a predicate, with positions after those of some values. -/
def boundClause (front : List Value) (p : Predicate) : String :=
  "\n\tAND (" ++ String.ofList ((Piece.scan p.sql.toList).flatMap
    (Piece.chars (mark (rank front p)))) ++ ")"

theorem boundClause_eq : boundClause front p = "\n\tAND (" ++ String.ofList
    ((Piece.scan p.sql.toList).flatMap (Piece.chars (mark (rank front p)))) ++ ")" := rfl

theorem clause_eq (hblank : p.isEmpty = false)
    (hnames : ∀ name ∈ p.names, (lookup? p.params name).isSome) :
    clause (some p) front.length = .ok (boundClause front p, p.values) := by
  have hbind := bindNamed_of_values (Sql.splits_scan p.sql.toList) hnames front.length
  rw [chars_placed, ← firstAppearances_eq] at hbind
  rw [clause, if_neg (by simp [hblank]), hbind]
  rfl

theorem scan_boundClause (hall : ∀ piece ∈ Piece.scan p.sql.toList, piece.Allowed n)
    (rest : List Char) : Token.scan ((boundClause front p).toList ++ rest) =
      "\n\tAND (".toList.map .other ++
        ((Piece.scan p.sql.toList).flatMap (pieceTokens (rank front p)) ++
          (.other ')' :: Token.scan rest)) := by
  have hopen : ∀ cs, Token.scan ("\n\tAND (".toList ++ cs) =
      "\n\tAND (".toList.map .other ++ Token.scan cs := fun _ => rfl
  have hclose : Token.scan (")".toList ++ rest) = .other ')' :: Token.scan rest := rfl
  have hnoDigit : Token.NoDigit (")".toList ++ rest) := by
    intro c hc
    obtain rfl : ')' = c := Option.some.inj hc
    decide
  have hpieces := scan_pieces (rank front p) hall (Piece.separated_scanFrom .outside p.sql.toList)
    hnoDigit
  rw [boundClause_eq, String.toList_append, String.toList_append, List.append_assoc,
    List.append_assoc, hopen, @String.toList_ofList ((Piece.scan p.sql.toList).flatMap _), hpieces,
    hclose]

theorem boundClause_aligned (hall : ∀ piece ∈ Piece.scan p.sql.toList, piece.Allowed n)
    (hnames : ∀ name ∈ p.names, (lookup? p.params name).isSome) :
    Aligned front p.values (Part.text "\n\tAND (" ++ p.filled ++ Part.text ")")
      (boundClause front p) := by
  have hscan : Token.scan ((boundClause front p).toList ++ []) = _ := scan_boundClause hall []
  rw [List.append_nil, show Token.scan [] = [] from rfl] at hscan
  constructor
  · intro rest _ c hc
    have hhead : ((boundClause front p).toList ++ rest).head? = some '\n' := by
      rw [boundClause_eq, String.toList_append, String.toList_append, List.append_assoc,
        List.append_assoc]
      rfl
    rw [hhead] at hc
    cases hc
    decide
  · intro rest _
    rw [hscan, scan_boundClause hall]
    simp only [List.append_assoc, List.cons_append, List.nil_append]
  · rw [hscan, List.flatMap_append, List.flatMap_append, List.flatMap_assoc,
      List.flatMap_congr fun piece h => fill_pieceTokens hnames h, ← List.append_assoc]
    rfl
  · intro k
    have hopen : ("\n\tAND (".toList.map Token.other).filterMap Token.position? = [] := rfl
    have hclose : [Token.other ')'].filterMap Token.position? = [] := rfl
    rw [hscan, List.filterMap_append, List.filterMap_append, hopen, hclose, List.nil_append,
      List.append_nil, mem_positions_pieces hnames]

end

/-- In the predicate of a filter all placeholders have a value, and all literals are closed. -/
theorem compile_pieces (f : Filter) (fields : List Field) :
    (∀ piece ∈ Piece.scan (f.compile fields).sql.toList,
      piece.Allowed ((Filter.condition fields f).run #[]).2.size) ∧
    ∀ name ∈ (f.compile fields).names, (lookup? (f.compile fields).params name).isSome := by
  have hfit := (Filter.condition_fitting fields f #[]).2 _ (List.prefix_refl _)
  have hall := (Sql.Cond.fragment hfit.within).allowed
  refine ⟨hall, fun name hname => ?_⟩
  obtain ⟨piece, hpiece, hname⟩ := List.mem_filterMap.mp hname
  cases piece with
  | named cs =>
    obtain ⟨i, hi, rfl⟩ := hall (.named cs) hpiece
    obtain rfl : String.ofList (Sql.paramName i).toList = name := Option.some.inj hname
    rw [String.ofList_toList]
    show (lookup? (Filter.paramsOf ((Filter.condition fields f).run #[]).2) _).isSome
    rw [Filter.lookup?_paramsOf, List.getElem?_eq_getElem hi]
    rfl
  | _ => cases hname

/-- No filter, one that restricts nothing, or the predicate of a filter. -/
def FromFilter (filter : Option Predicate) : Prop :=
  ∀ p, filter = some p → p.isEmpty = true ∨ ∃ (f : Filter) (fields : List Field),
    p = f.compile fields

theorem clause_aligned {filter : Option Predicate} (hf : FromFilter filter) (front : List Value) :
    ∃ text, clause filter front.length = .ok (text, filterValues filter) ∧
      Aligned front (filterValues filter) (filterFilled filter) text := by
  cases filter with
  | none => exact ⟨"", rfl, aligned_nil front⟩
  | some p =>
    cases hblank : p.isEmpty with
    | true =>
      refine ⟨"", by rw [clause, if_pos hblank, filterValues, if_pos hblank], ?_⟩
      rw [filterValues, if_pos hblank, filterFilled, if_pos hblank]
      exact aligned_nil front
    | false =>
      have hne : ¬p.isEmpty = true := by simp [hblank]
      obtain ⟨f, fields, rfl⟩ := (hf p rfl).resolve_left hne
      obtain ⟨hall, hnames⟩ := compile_pieces f fields
      rw [filterValues, if_neg hne, filterFilled, if_neg hne]
      exact ⟨_, clause_eq hblank hnames, boundClause_aligned hall hnames⟩

/-! ### The statements -/

/-- The text before the filter of the statement that counts. -/
def countTexts : List (String × Nat) :=
  [("SELECT COUNT(*)\nFROM documents d\nWHERE d.graph_id = ", 1), ("\n\tAND d.status = ", 2)]

/-- The text before the clauses of the statement that searches, but for its end. -/
def chunksTexts : List (String × Nat) :=
  [("SELECT\n\tc.chunk_id,\n\tc.document_id,\n\tCOALESCE(c.title, d.title) AS title,\n" ++
    "\tc.content,\n\t(1 - (c.vec <=> ", 2), ("::text::vector))::real AS score\n" ++
    "FROM chunks c\nJOIN documents d ON d.document_id = c.document_id\n" ++
    "WHERE c.graph_id = ", 1),
    ("\n\tAND d.status = ", 3)]

/-- The text after the clauses. -/
def chunksEnd : List (String × Nat) :=
  [("\nORDER BY c.vec <=> ", 2), ("::text::vector ASC, c.chunk_id ASC\nLIMIT ", 4)]

/-- The clause of the only documents to search. -/
def onlyTexts : Option (List Uuid) → List (String × Nat)
  | none => []
  | some _ => [("\n\tAND c.document_id = ANY(", 5)]

/-- The end of this clause. -/
def onlyLast : Option (List Uuid) → String
  | none => ""
  | some _ => ")"

/-- The values before those of the filter in the statement that searches. -/
def chunksFront (q : ChunkQuery) : List Value :=
  [.text q.graph, .text (vectorText q.vector), .text completed, .integer q.limit] ++
    (q.onlyDocuments.map .ids).toList

theorem countStatement_eq {graph : String} {filter : Option Predicate} {text : String}
    {values : List Value} (h : clause filter 2 = .ok (text, values)) :
    countStatement graph filter =
      .ok ⟨template countTexts "" ++ text, [.text graph, .text completed] ++ values⟩ := by
  have hhead : template countTexts "" =
      "SELECT COUNT(*)\nFROM documents d\nWHERE d.graph_id = $1\n\tAND d.status = $2" := by
    decide +kernel
  rw [hhead]
  unfold countStatement
  rw [h]
  rfl

theorem chunksStatement_eq {q : ChunkQuery} {text : String} {values : List Value}
    (h : clause q.filter (chunksFront q).length = .ok (text, values)) :
    chunksStatement q =
      .ok ⟨template chunksTexts "\n\tAND c.vec IS NOT NULL" ++
        template (onlyTexts q.onlyDocuments) (onlyLast q.onlyDocuments) ++ text ++
          template chunksEnd "", chunksFront q ++ values⟩ := by
  have hhead : template chunksTexts "\n\tAND c.vec IS NOT NULL" =
      "SELECT\n\tc.chunk_id,\n\tc.document_id,\n\tCOALESCE(c.title, d.title) AS title,\n" ++
        "\tc.content,\n\t(1 - (c.vec <=> $2::text::vector))::real AS score\n" ++
        "FROM chunks c\nJOIN documents d ON d.document_id = c.document_id\n" ++
        "WHERE c.graph_id = $1\n\tAND d.status = $3\n\tAND c.vec IS NOT NULL" := by
    decide +kernel
  have hend : template chunksEnd "" =
      "\nORDER BY c.vec <=> $2::text::vector ASC, c.chunk_id ASC\nLIMIT $4" := by
    decide +kernel
  rw [hhead, hend]
  obtain ⟨graph, vector, limit, only, filter⟩ := q
  unfold chunksStatement
  cases only with
  | none =>
    have h : clause filter 4 = .ok (text, values) := h
    simp only [h]
    rfl
  | some ids =>
    have honly : template (onlyTexts (some ids)) (onlyLast (some ids)) =
        "\n\tAND c.document_id = ANY($5)" := by
      show template [("\n\tAND c.document_id = ANY(", 5)] ")" = _
      decide +kernel
    have h : clause filter 5 = .ok (text, values) := h
    simp only [h, honly]
    rfl

/-- The statement that counts has its values where they are meant. -/
theorem countStatement_aligned (graph : String) {filter : Option Predicate}
    (hf : FromFilter filter) :
    ∃ s, countStatement graph filter = .ok s ∧
      s.values = [.text graph, .text completed] ++ filterValues filter ∧
      (∀ k, k ∈ s.positions ↔ 1 ≤ k ∧ k ≤ s.values.length) ∧
      s.filled = countFilled graph filter := by
  obtain ⟨text, hclause, haligned⟩ := clause_aligned hf [.text graph, .text completed]
  have hnoDigit := haligned.noDigit [] (by simp [Token.NoDigit])
  rw [List.append_nil] at hnoDigit
  have hplain : ∀ p ∈ countTexts, Token.isPlain p.1 = true := by simp [countTexts, Token.isPlain]
  have hlast : Token.isPlain "" = true := by simp [Token.isPlain]
  have hscan := Token.scan_template hplain hlast hnoDigit
  rw [← String.toList_append] at hscan
  refine ⟨_, countStatement_eq hclause, rfl, fun k => ?_, ?_⟩
  · rw [Statement.positions, hscan]
    simp only [countTexts, List.flatMap_cons, List.flatMap_nil, List.filterMap_append,
      Token.filterMap_plain, List.mem_append, haligned.positions, List.length_append]
    simp [Token.position?]
    omega
  · rw [Statement.filled, hscan]
    simp only [countTexts, List.flatMap_cons, List.flatMap_nil, List.flatMap_append,
      Token.flatMap_plain, haligned.filled, countFilled, List.append_assoc]
    rfl

theorem isPlain_chunksTexts : ∀ p ∈ chunksTexts, Token.isPlain p.1 = true := by decide +kernel

theorem isPlain_onlyTexts (only : Option (List Uuid)) :
    (∀ p ∈ onlyTexts only, Token.isPlain p.1 = true) ∧ Token.isPlain (onlyLast only) = true := by
  cases only <;> simp [onlyTexts, onlyLast, Token.isPlain]

theorem scan_chunks {front values : List Value} {parts : List Part} {text : String}
    (haligned : Aligned front values parts text) (only : Option (List Uuid)) :
    Token.scan (template chunksTexts "\n\tAND c.vec IS NOT NULL" ++
        template (onlyTexts only) (onlyLast only) ++ text ++ template chunksEnd "").toList =
      (chunksTexts.flatMap fun p => Token.plain p.1 ++ [.position p.2]) ++
        (Token.plain "\n\tAND c.vec IS NOT NULL" ++
          ((onlyTexts only).flatMap (fun p => Token.plain p.1 ++ [.position p.2]) ++
            (Token.plain (onlyLast only) ++ (Token.scan text.toList ++
              chunksEnd.flatMap fun p => Token.plain p.1 ++ [.position p.2])))) := by
  have hnil : Token.NoDigit [] := by simp [Token.NoDigit]
  have hend : ∀ p ∈ chunksEnd, Token.isPlain p.1 = true := by simp [chunksEnd, Token.isPlain]
  have honly := isPlain_onlyTexts only
  have hlast : Token.isPlain "" = true := by simp [Token.isPlain]
  have htail := Token.noDigit_template hend hlast hnil
  have hscan := Token.scan_template hend hlast hnil
  rw [List.append_nil] at htail hscan
  have htext := haligned.noDigit _ htail
  rw [String.toList_append, String.toList_append, String.toList_append, List.append_assoc,
    List.append_assoc, Token.scan_template isPlain_chunksTexts
      (by simp [Token.isPlain]) (Token.noDigit_template honly.1 honly.2 htext),
    Token.scan_template honly.1 honly.2 htext, haligned.scan _ htail, hscan]
  have hnone : Token.plain "" ++ Token.scan [] = [] := rfl
  rw [hnone, List.append_nil]

/-- The statement that searches has its values where they are meant. -/
theorem chunksStatement_aligned {q : ChunkQuery} (hf : FromFilter q.filter) :
    ∃ s, chunksStatement q = .ok s ∧ s.values = chunksFront q ++ filterValues q.filter ∧
      (∀ k, k ∈ s.positions ↔ 1 ≤ k ∧ k ≤ s.values.length) ∧ s.filled = chunksFilled q := by
  obtain ⟨text, hclause, haligned⟩ := clause_aligned hf (chunksFront q)
  have hscan := scan_chunks haligned q.onlyDocuments
  refine ⟨_, chunksStatement_eq hclause, rfl, fun k => ?_, ?_⟩
  · rw [Statement.positions, hscan]
    simp only [chunksTexts, chunksEnd, List.flatMap_cons, List.flatMap_nil, List.filterMap_append,
      Token.filterMap_plain, List.mem_append, haligned.positions, List.length_append, chunksFront]
    cases q.onlyDocuments with
    | none =>
      simp [onlyTexts, Token.position?]
      omega
    | some ids =>
      simp [onlyTexts, Token.position?, Token.filterMap_plain]
      omega
  · rw [Statement.filled, hscan]
    simp only [chunksTexts, chunksEnd, List.flatMap_cons, List.flatMap_nil, List.flatMap_append,
      Token.flatMap_plain, haligned.filled, chunksFilled, List.append_assoc]
    obtain ⟨graph, vector, limit, only, filter⟩ := q
    cases only <;>
      simp only [onlyTexts, onlyLast, onlyFilled, List.flatMap_cons, List.flatMap_nil,
        List.flatMap_append, Token.flatMap_plain, Part.text_append, List.append_assoc] <;> rfl

/-! ### Placeholders without a value -/

theorem isEmpty_of_name {p : Predicate} {name : String} (h : name ∈ p.names) :
    p.isEmpty = false := by
  obtain ⟨piece, hpiece, hname⟩ := List.mem_filterMap.mp h
  by_contra hblank
  have hblank : p.isEmpty = true := by simpa using hblank
  have hblank : p.sql.toList.all Text.isSpace = true := hblank
  have hcolon : ':' ∉ p.sql.toList := fun hc => by
    have hspace := List.all_eq_true.mp hblank ':' hc
    exact absurd hspace (by decide)
  have hnone := Piece.name?_scanFrom hcolon (.inl rfl) piece hpiece
  rw [hnone] at hname
  cases hname

theorem clause_of_missing {p : Predicate} {name : String} (h : name ∈ p.names)
    (hmissing : lookup? p.params name = none) :
    ∃ first ∈ p.names, lookup? p.params first = none ∧
      ∀ offset, clause (some p) offset = .error ⟨first⟩ := by
  obtain ⟨first, hfirst⟩ : ∃ first, (firstAppearances p.names).find?
      (fun name => (lookup? p.params name).isNone) = some first := by
    rw [← Option.isSome_iff_exists, List.find?_isSome]
    exact ⟨name, mem_firstAppearances.mpr h, by simp [hmissing]⟩
  have hmem := mem_firstAppearances.mp (List.mem_of_find?_eq_some hfirst)
  have hnone := List.find?_some hfirst
  refine ⟨first, hmem, by simpa using hnone, fun offset => ?_⟩
  have hbind : Sql.bindNamed p.sql p.params offset = .error first := by
    rw [Predicate.names] at hfirst
    simp only [Sql.bindNamed, hfirst]
  rw [clause, if_neg (by simp [isEmpty_of_name h]), hbind]

/-- Both statements use exactly the positions of their values, and each position has the value that
is meant there; a placeholder without a value leaves no statement to send. -/
theorem statements_aligned {filter : Option Predicate} (hf : FromFilter filter) (graph : String)
    (vector : List Single) (limit : Int) (only : Option (List Uuid)) :
    (∃ s, countStatement graph filter = .ok s ∧
      s.values = [.text graph, .text completed] ++ filterValues filter ∧
      (∀ k, k ∈ s.positions ↔ 1 ≤ k ∧ k ≤ s.values.length) ∧
      s.filled = countFilled graph filter) ∧
    (∃ s, chunksStatement ⟨graph, vector, limit, only, filter⟩ = .ok s ∧
      s.values = [.text graph, .text (vectorText vector), .text completed, .integer limit] ++
        (only.map .ids).toList ++ filterValues filter ∧
      (∀ k, k ∈ s.positions ↔ 1 ≤ k ∧ k ≤ s.values.length) ∧
      s.filled = chunksFilled ⟨graph, vector, limit, only, filter⟩) ∧
    ∀ (p : Predicate) (name : String), name ∈ p.names → lookup? p.params name = none →
      ∃ first ∈ p.names, lookup? p.params first = none ∧
        (∀ db graph, count db graph (some p) = .error (.unbound ⟨first⟩)) ∧
        ∀ db graph vector limit only,
          passages db ⟨graph, vector, limit, only, some p⟩ = .error (.unbound ⟨first⟩) := by
  refine ⟨countStatement_aligned graph hf, chunksStatement_aligned hf, fun p name hn hmissing => ?_⟩
  obtain ⟨first, hmem, hnone, hclause⟩ := clause_of_missing hn hmissing
  refine ⟨first, hmem, hnone, fun db graph => ?_, fun db graph vector limit only => ?_⟩
  · have hs : countStatement graph (some p) = .error ⟨first⟩ := by
      unfold countStatement
      rw [hclause]
      rfl
    rw [count, hs]
    rfl
  · have hs : chunksStatement ⟨graph, vector, limit, only, some p⟩ = .error ⟨first⟩ := by
      unfold chunksStatement
      cases only <;> simp only [hclause] <;> rfl
    rw [passages, hs]
    rfl

/-- The values of a search for one key among no documents at all, and a count by a predicate whose
value was lost. -/
theorem statements_aligned_path :
    let filter := some ((Filter.path .file "year" ⟨.equal, ⟨some (.text "1999"), none⟩⟩).compile [])
    let lost : Predicate := ⟨"source_id = :p0", []⟩
    FromFilter filter ∧ (∃ s, chunksStatement ⟨"g", [], 5, some [], filter⟩ = .ok s ∧
      s.values = [.text "g", .text "[]", .text "completed", .integer 5, .ids [], .text "year",
        .text "1999"] ∧
      s.filled = chunksFilled ⟨"g", [], 5, some [], filter⟩) ∧
    "p0" ∈ lost.names ∧ lookup? lost.params "p0" = none ∧
      ∃ first, ∀ db, count db "g" (some lost) = .error (.unbound ⟨first⟩) := by
  intro filter lost
  have hf : FromFilter filter := fun p hp => .inr ⟨_, _, (Option.some.inj hp).symm⟩
  obtain ⟨-, ⟨s, hs, hvalues, -, hfilled⟩, hlost⟩ := statements_aligned hf "g" [] 5 (some [])
  have hname : "p0" ∈ lost.names := by decide +kernel
  obtain ⟨first, -, -, hcount, -⟩ := hlost lost "p0" hname rfl
  refine ⟨hf, ⟨s, hs, ?_, hfilled⟩, hname, rfl, first, fun db => hcount db "g"⟩
  rw [hvalues, show filterValues filter = [.text "year", .text "1999"] by decide +kernel]
  rfl

end Storage

end CorpusAgent
