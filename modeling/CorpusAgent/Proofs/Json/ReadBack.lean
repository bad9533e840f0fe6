import CorpusAgent.Json.Draft
import CorpusAgent.Proofs.Json.Members
import CorpusAgent.Proofs.Json.Tokens

/-!
# Printed JSON is read back

* `draft`: the draft of a whole value.
* `Encloses`, `Enters`: how a list or an object is opened, filled and closed.
* `takes_tokens`: where a value is due, the tokens of a value are taken as its draft, by recursion
  on the value.
* `json?_draft`: the draft of a value that text can hold has that value.
* `read?_print`: a value that text can hold is read back from its text.
-/

namespace CorpusAgent.Json

open Draft

mutual

/-- The draft of a whole value. -/
def draft : Json → Draft
  | .null => .null
  | .bool b => .bool b
  | .number n => .number n
  | .text s => .text s
  | .list items => .list (itemDrafts items) true
  | .object members => .object (memberDrafts members) true

/-- The drafts of items. -/
def itemDrafts : List Json → List Draft
  | [] => []
  | item :: rest => draft item :: itemDrafts rest

/-- The drafts of members with those of their names. -/
def memberDrafts : List (String × Json) → List (Draft × Draft)
  | [] => []
  | (name, value) :: rest => (.text name, draft value) :: memberDrafts rest

end

/-! ### The machine -/

theorem run_cons {s next : State} {t : Token} (h : s.step t = some next) (rest : List Token) :
    State.run s (t :: rest) = State.run next rest := by
  rw [State.run, h]

/-- How a frame of entries is opened and closed: the tokens for it, and what is due first and what
after a comma. -/
structure Encloses {α : Type} (frame : List α → Frame) (whole : List α → Draft)
    (opening closing : Token) (first due : Due) : Prop where
  opens : ∀ frames root,
    State.step ⟨frames, .value, root⟩ opening = some ⟨frame [] :: frames, first, root⟩
  comma : ∀ seen frames root, State.step ⟨frame seen :: frames, .commaOrClose, root⟩ .comma =
    some ⟨frame seen :: frames, due, root⟩
  closes : ∀ seen frames root, State.step ⟨frame seen :: frames, .commaOrClose, root⟩ closing =
    some (State.complete ⟨frames, .value, root⟩ (whole seen.reverse))
  closesEmpty : ∀ frames root, State.step ⟨frame [] :: frames, first, root⟩ closing =
    some (State.complete ⟨frames, .value, root⟩ (whole []))

theorem encloses_list :
    Encloses .list (Draft.list · true) .openList .closeList .valueOrClose .value :=
  ⟨fun _ _ => rfl, fun _ _ _ => rfl, fun _ _ _ => rfl, fun _ _ => rfl⟩

theorem encloses_object :
    Encloses (Frame.object · none) (Draft.object · true) .openObject .closeObject .nameOrClose
      .name :=
  ⟨fun _ _ => rfl, fun _ _ _ => rfl, fun _ _ _ => rfl, fun _ _ => rfl⟩

/-- The tokens of an entry put it into the innermost frame.  The first of them leads to the same
where the frame may also be closed. -/
structure Enters {α : Type} (frame : List α → Frame) (first due : Due) (ts : List Token)
    (entry : α) : Prop where
  begins : ∃ t more, ts = t :: more ∧ ∀ seen frames root, ∃ next,
    State.step ⟨frame seen :: frames, first, root⟩ t = some next ∧
      State.step ⟨frame seen :: frames, due, root⟩ t = some next
  enters : ∀ seen frames root rest, State.run ⟨frame seen :: frames, due, root⟩ (ts ++ rest) =
    State.run ⟨frame (entry :: seen) :: frames, .commaOrClose, root⟩ rest

/-- The machine takes tokens as a whole value where one is due. -/
def Takes (ts : List Token) (d : Draft) : Prop :=
  ∀ frames root rest, State.run ⟨frames, .value, root⟩ (ts ++ rest) =
    State.run (State.complete ⟨frames, .value, root⟩ d) rest

theorem takes_singleton {t : Token} {d : Draft}
    (h : ∀ frames root, State.step ⟨frames, .value, root⟩ t =
      some (State.complete ⟨frames, .value, root⟩ d)) : Takes [t] d :=
  fun frames root rest => run_cons (h frames root) rest

section

variable {α : Type} {frame : List α → Frame} {whole : List α → Draft} {opening closing : Token}
  {first due : Due} {tss : List (List Token)} {entries : List α}

/-- Entries with commas between them are put into the innermost frame one after the other. -/
theorem Encloses.run_intercalate (he : Encloses frame whole opening closing first due)
    (h : List.Forall₂ (Enters frame first due) tss entries) (hne : tss ≠ []) (seen : List α)
    (frames : List Frame) (root : Draft) (rest : List Token) :
    State.run ⟨frame seen :: frames, due, root⟩ ([.comma].intercalate tss ++ rest) =
      State.run ⟨frame (entries.reverse ++ seen) :: frames, .commaOrClose, root⟩ rest := by
  induction h generalizing seen with
  | nil => exact absurd rfl hne
  | @cons ts entry tss entries hfirst hmore ih =>
    cases hmore with
    | nil => simpa using hfirst.enters seen frames root rest
    | @cons us other tss entries hsecond hmore =>
      rw [List.intercalate_cons_cons, List.append_assoc, List.append_assoc, hfirst.enters,
        List.singleton_append, run_cons (he.comma _ _ _), ih (List.cons_ne_nil _ _)]
      simp

theorem run_first (h : List.Forall₂ (Enters frame first due) tss entries) (hne : tss ≠ [])
    (seen : List α) (frames : List Frame) (root : Draft) (rest : List Token) :
    State.run ⟨frame seen :: frames, first, root⟩ ([.comma].intercalate tss ++ rest) =
      State.run ⟨frame seen :: frames, due, root⟩ ([.comma].intercalate tss ++ rest) := by
  cases h with
  | nil => exact absurd rfl hne
  | @cons ts entry tss entries hfirst hmore =>
    obtain ⟨t, more, rfl, hstep⟩ := hfirst.begins
    obtain ⟨later, hlater⟩ : ∃ later, [.comma].intercalate ((t :: more) :: tss) = t :: later := by
      cases tss with
      | nil => exact ⟨more, by rw [List.intercalate_singleton]⟩
      | cons us tss => exact ⟨_, by rw [List.intercalate_cons_cons]; rfl⟩
    obtain ⟨next, hfirst, hdue⟩ := hstep seen frames root
    rw [hlater, List.cons_append, run_cons hfirst, run_cons hdue]

/-- Entries between the tokens that enclose them make a whole value. -/
theorem Encloses.takes (he : Encloses frame whole opening closing first due)
    (h : List.Forall₂ (Enters frame first due) tss entries) :
    Takes (opening :: ([.comma].intercalate tss ++ [closing])) (whole entries) := by
  intro frames root rest
  rw [List.cons_append, run_cons (he.opens _ _), List.append_assoc, List.singleton_append]
  by_cases hempty : tss = []
  · subst hempty
    obtain rfl := List.forall₂_nil_left_iff.mp h
    exact run_cons (he.closesEmpty _ _) rest
  · rw [run_first h hempty, he.run_intercalate h hempty, run_cons (he.closes _ _ _),
      List.append_nil, List.reverse_reverse]

end

theorem tokens_begin (v : Json) : ∃ t more, tokens v = t :: more ∧ ∀ frames root, ∃ next,
    State.step ⟨frames, .valueOrClose, root⟩ t = some next ∧
      State.step ⟨frames, .value, root⟩ t = some next := by
  cases v <;> exact ⟨_, _, rfl, fun _ _ => ⟨_, rfl, rfl⟩⟩

theorem Takes.enters_list {v : Json} (h : Takes (tokens v) (draft v)) :
    Enters .list .valueOrClose .value (tokens v) (draft v) := by
  obtain ⟨t, more, hbegin, hstep⟩ := tokens_begin v
  exact ⟨⟨t, more, hbegin, fun _ _ _ => hstep _ _⟩, fun _ _ _ _ => h _ _ _⟩

theorem Takes.enters_object {v : Json} (h : Takes (tokens v) (draft v)) (name : String) :
    Enters (Frame.object · none) .nameOrClose .name (.text (some name) :: .colon :: tokens v)
      (.text name, draft v) :=
  ⟨⟨_, _, rfl, fun _ _ _ => ⟨_, rfl, rfl⟩⟩, fun _ _ _ _ => h _ _ _⟩

mutual

/-- Where a value is due, the tokens of a value are taken as its draft. -/
theorem takes_tokens : (v : Json) → Takes (tokens v) (draft v)
  | .null => takes_singleton fun _ _ => rfl
  | .bool _ => takes_singleton fun _ _ => rfl
  | .number _ => takes_singleton fun _ _ => rfl
  | .text _ => takes_singleton fun _ _ => rfl
  | .list items => encloses_list.takes (enters_itemTokens items)
  | .object members => encloses_object.takes (enters_memberTokens members)

theorem enters_itemTokens : (items : List Json) →
    List.Forall₂ (Enters .list .valueOrClose .value) (itemTokens items) (itemDrafts items)
  | [] => .nil
  | item :: rest => .cons (takes_tokens item).enters_list (enters_itemTokens rest)

theorem enters_memberTokens : (members : List (String × Json)) →
    List.Forall₂ (Enters (Frame.object · none) .nameOrClose .name) (memberTokens members)
      (memberDrafts members)
  | [] => .nil
  | (name, value) :: rest =>
    .cons ((takes_tokens value).enters_object name) (enters_memberTokens rest)

end

/-! ### Values -/

theorem jsonItems?_drafts {depth : Nat} {items : List Json}
    (h : ∀ item ∈ items, (draft item).json? depth = some item) :
    jsonItems? depth (itemDrafts items) = some items := by
  induction items with
  | nil => rfl
  | cons item rest ih =>
    obtain ⟨hitem, hrest⟩ := List.forall_mem_cons.mp h
    simp only [itemDrafts, jsonItems?, hitem, ih hrest]

theorem jsonMembers?_drafts {depth : Nat} {members : List (String × Json)}
    (h : ∀ m ∈ members, (draft m.2).json? depth = some m.2) :
    jsonMembers? depth (memberDrafts members) = some members := by
  induction members with
  | nil => rfl
  | cons m rest ih =>
    obtain ⟨hvalue, hrest⟩ := List.forall_mem_cons.mp h
    simp only [memberDrafts, jsonMembers?, hvalue, ih hrest]

/-- The draft of a value that text can hold has that value. -/
theorem json?_draft {depth : Nat} {v : Json} (h : Writable depth v) :
    (draft v).json? depth = some v := by
  induction h with
  | null => rfl
  | bool b => rfl
  | number hn => rfl
  | text s => rfl
  | list _ ih =>
    rw [draft, json?, jsonItems?_drafts ih]
    rfl
  | object hnames _ ih =>
    rw [draft, json?, jsonMembers?_drafts ih, Option.map_some, ofMembers_eq_object hnames]

theorem read_print {depth : Nat} {v : Json} (h : Writable depth v) :
    Draft.read v.print = (draft v, true) := by
  have hscan : Token.scan v.print = tokens v ++ [] := by
    have hends : Ends [] := fun c hc => by cases hc
    rw [Token.scan, ← List.append_nil v.print.toList]
    exact scans_print h [] hends
  rw [Draft.read, hscan, takes_tokens v]
  rfl

/-- A value that text can hold is read back from its text. -/
theorem read?_print {v : Json} (h : Writable maxDepth v) : read? v.print = some v := by
  rw [read?, read_print h]
  exact json?_draft h

end CorpusAgent.Json
