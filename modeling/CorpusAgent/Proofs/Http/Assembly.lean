import CorpusAgent.Http.Header

/-!
# Assembly of headers

What headers a request gets from the key and the default headers of its settings.  Default headers
are told apart by case, headers are not, so several entries can be for one header.

* `Acceptable`, `Offence`: what entries give a header, and what is wrong with the others.
* `exists_foldlM_putEntry_iff`, `foldlM_putEntry_eq_error_iff`: all entries have to give one, and
  the first that does not is the fault.
* `Assembled`: the last of the entries for a header counts, and the key does only without any.
* `headers_assembled`: the headers of a request are assembled in this way, or the fault is known.
-/

namespace CorpusAgent.Http

/-! ### Entries -/

/-- A name of a header: characters that may stand in a token, at least one and not too many. -/
structure IsName (name : String) : Prop where
  nonempty : name ≠ ""
  size_le : name.utf8ByteSize ≤ maxNameBytes
  chars : ∀ c ∈ name.toList, isNameChar c = true

/-- An entry that gives a header. -/
structure Acceptable (entry : String × Json) (value : String) : Prop where
  text : entry.2 = .text value
  name : IsName entry.1
  value : isValue value = true

/-- What is wrong with an entry: first its value may be no text, then its name no name, and then
the text no value. -/
inductive Offence : String × Json → HeaderFault → Prop
  | notText {name : String} {v : Json} (h : ∀ value, v ≠ .text value) :
    Offence (name, v) (.notText name)
  | badName {name value : String} (h : ¬IsName name) : Offence (name, .text value) .badName
  | badValue {name value : String} (hname : IsName name) (h : isValue value = false) :
    Offence (name, .text value) .badValue

theorem name?_eq_some_iff {key name : String} :
    name? key = some name ↔ IsName key ∧ key.toLower = name := by
  have hlower : String.ofList (key.toList.map Char.toLower) = key.toLower := by
    rw [← String.toList_inj, String.toList_ofList]
    exact String.toList_map.symm
  have hname : (!key.isEmpty && key.utf8ByteSize ≤ maxNameBytes && key.toList.all isNameChar) =
      true ↔ IsName key := by
    simp only [Bool.and_eq_true, Bool.not_eq_true', String.isEmpty_eq_false_iff, decide_eq_true_eq,
      List.all_eq_true]
    exact ⟨fun ⟨⟨h, hsize⟩, hchars⟩ => ⟨h, hsize, hchars⟩,
      fun ⟨h, hsize, hchars⟩ => ⟨⟨h, hsize⟩, hchars⟩⟩
  rw [name?, hlower, Option.ite_none_right_eq_some, hname, Option.some.injEq]

theorem name?_eq_none_iff {key : String} : name? key = none ↔ ¬IsName key := by
  rw [Option.eq_none_iff_forall_ne_some]
  exact ⟨fun h hkey => h _ (name?_eq_some_iff.mpr ⟨hkey, rfl⟩),
    fun h name hname => h (name?_eq_some_iff.mp hname).1⟩

section

variable {entry : String × Json} {value : String} {fault : HeaderFault}
  {hs : List (String × String)}

theorem putEntry_of_acceptable (h : Acceptable entry value) :
    putEntry hs entry = .ok (put entry.1.toLower value hs) := by
  rw [putEntry, h.text]
  simp only [name?_eq_some_iff.mpr ⟨h.name, rfl⟩, h.value, if_true]

theorem putEntry_of_offence (h : Offence entry fault) : putEntry hs entry = .error fault := by
  cases h with
  | @notText name v h =>
    cases v with
    | text value => exact absurd rfl (h value)
    | _ => rfl
  | badName h => simp only [putEntry, name?_eq_none_iff.mpr h]
  | badValue hname h =>
    simp only [putEntry, name?_eq_some_iff.mpr ⟨hname, rfl⟩, h, Bool.false_eq_true, if_false]

theorem acceptable_or_offence (entry : String × Json) :
    (∃ value, Acceptable entry value) ∨ ∃ fault, Offence entry fault := by
  obtain ⟨name, v⟩ := entry
  cases v with
  | text value =>
    by_cases hname : IsName name
    · cases hvalue : isValue value with
      | true => exact .inl ⟨value, rfl, hname, hvalue⟩
      | false => exact .inr ⟨_, .badValue hname hvalue⟩
    · exact .inr ⟨_, .badName hname⟩
  | _ => exact .inr ⟨_, .notText nofun⟩

theorem Offence.not_acceptable (h : Offence entry fault) : ¬Acceptable entry value := by
  intro ha
  have hok : putEntry [] entry = .ok (put entry.1.toLower value []) := putEntry_of_acceptable ha
  rw [putEntry_of_offence h] at hok
  cases hok

theorem Offence.unique {other : HeaderFault} (h : Offence entry fault) (h' : Offence entry other) :
    fault = other := by
  have herror : putEntry [] entry = .error other := putEntry_of_offence h'
  rw [putEntry_of_offence h] at herror
  exact Except.error.inj herror

theorem exists_foldlM_putEntry_iff {entries : List (String × Json)} :
    (∃ hs', entries.foldlM putEntry hs = .ok hs') ↔
      ∀ e ∈ entries, ∃ value, Acceptable e value := by
  induction entries generalizing hs with
  | nil => exact iff_of_true ⟨hs, rfl⟩ fun e he => absurd he List.not_mem_nil
  | cons e rest ih =>
    rw [List.foldlM_cons, List.forall_mem_cons]
    rcases acceptable_or_offence e with ⟨value, he⟩ | ⟨fault, he⟩
    · rw [putEntry_of_acceptable he, and_iff_right ⟨value, he⟩]
      exact ih
    · rw [putEntry_of_offence he]
      exact iff_of_false nofun fun h => h.1.elim fun value ha => he.not_acceptable ha

theorem foldlM_putEntry_eq_error_iff {entries : List (String × Json)} :
    entries.foldlM putEntry hs = .error fault ↔ ∃ before entry after,
      entries = before ++ entry :: after ∧ (∀ e ∈ before, ∃ value, Acceptable e value) ∧
        Offence entry fault := by
  induction entries generalizing hs with
  | nil =>
    refine iff_of_false nofun ?_
    rintro ⟨before, entry, after, hnil, -⟩
    exact absurd hnil.symm (List.append_ne_nil_of_right_ne_nil before (List.cons_ne_nil _ _))
  | cons e rest ih =>
    rw [List.foldlM_cons]
    rcases acceptable_or_offence e with ⟨value, he⟩ | ⟨other, he⟩
    · rw [putEntry_of_acceptable he]
      show rest.foldlM putEntry _ = .error fault ↔ _
      rw [ih]
      constructor
      · rintro ⟨before, entry, after, rfl, hbefore, h⟩
        exact ⟨e :: before, entry, after, rfl, List.forall_mem_cons.mpr ⟨⟨value, he⟩, hbefore⟩, h⟩
      · rintro ⟨before, entry, after, hsplit, hbefore, h⟩
        cases before with
        | nil =>
          obtain ⟨rfl, -⟩ := List.cons.inj hsplit
          exact absurd he h.not_acceptable
        | cons b before =>
          obtain ⟨rfl, rfl⟩ := List.cons.inj hsplit
          exact ⟨before, entry, after, rfl, (List.forall_mem_cons.mp hbefore).2, h⟩
    · rw [putEntry_of_offence he]
      show Except.error other = Except.error fault ↔ _
      constructor
      · intro hfault
        obtain rfl := Except.error.inj hfault
        exact ⟨[], e, rest, rfl, fun _ h => absurd h List.not_mem_nil, he⟩
      · rintro ⟨before, entry, after, hsplit, hbefore, h⟩
        cases before with
        | nil =>
          obtain ⟨rfl, -⟩ := List.cons.inj hsplit
          rw [he.unique h]
        | cons b before =>
          obtain ⟨rfl, -⟩ := List.cons.inj hsplit
          obtain ⟨value, hb⟩ := (List.forall_mem_cons.mp hbefore).1
          exact absurd hb he.not_acceptable

end

/-! ### Headers at their places -/

section

variable {hs : List (String × String)} {name n v : String}

theorem mem_put_names (value : String) :
    n ∈ (put name value hs).map Prod.fst ↔ n = name ∨ n ∈ hs.map Prod.fst := by
  induction hs with
  | nil => simp [put]
  | cons h rest ih =>
    rw [put]
    split
    · rw [List.map_cons, List.mem_cons]
    · split
      · rename_i heq
        rw [List.map_cons, List.map_cons, List.mem_cons, List.mem_cons, heq, or_self_left]
      · rw [List.map_cons, List.map_cons, List.mem_cons, List.mem_cons, ih, or_left_comm]

theorem put_ascending (value : String) (h : hs.Pairwise fun a b => a.1 < b.1) :
    (put name value hs).Pairwise fun a b => a.1 < b.1 := by
  induction hs with
  | nil => exact List.pairwise_singleton _ _
  | cons a rest ih =>
    obtain ⟨ha, hrest⟩ := List.pairwise_cons.mp h
    rw [put]
    split
    · rename_i hlt
      refine List.pairwise_cons.mpr ⟨List.forall_mem_cons.mpr ⟨hlt, fun b hb => ?_⟩, h⟩
      exact String.lt_trans hlt (ha b hb)
    · split
      · rename_i heq
        exact List.pairwise_cons.mpr ⟨fun b hb => heq ▸ ha b hb, hrest⟩
      · rename_i hnlt hne
        have hlt : a.1 < name := Std.lt_of_le_of_ne (String.not_lt.mp hnlt) fun h => hne h.symm
        refine List.pairwise_cons.mpr ⟨fun b hb => ?_, ih hrest⟩
        rcases (mem_put_names value).mp (List.mem_map_of_mem hb) with heq | hmem
        · exact heq ▸ hlt
        · obtain ⟨b', hb', heq⟩ := List.mem_map.mp hmem
          exact heq ▸ ha b' hb'

/-- A header takes the place of one of the same name, and the others stay. -/
theorem mem_put_iff {value : String} (h : hs.Pairwise fun a b => a.1 < b.1) :
    (n, v) ∈ put name value hs ↔ n = name ∧ v = value ∨ n ≠ name ∧ (n, v) ∈ hs := by
  induction hs with
  | nil => simp [put]
  | cons a rest ih =>
    obtain ⟨ha, hrest⟩ := List.pairwise_cons.mp h
    rw [put]
    split
    · rename_i hlt
      have hne : (n, v) ∈ a :: rest → n ≠ name := by
        rintro hmem rfl
        rcases List.mem_cons.mp hmem with rfl | hmem
        · exact String.lt_irrefl _ hlt
        · exact String.lt_irrefl _ (String.lt_trans hlt (ha _ hmem))
      rw [List.mem_cons, Prod.mk.injEq, and_iff_right_of_imp hne]
    · split
      · rename_i heq
        have hne : (n, v) ∈ rest → n ≠ name := by
          rintro hmem rfl
          exact String.lt_irrefl _ (heq ▸ ha _ hmem)
        have hnot : n ≠ name → (n, v) ≠ a := by
          rintro hn rfl
          exact hn heq.symm
        rw [List.mem_cons, Prod.mk.injEq, List.mem_cons]
        exact or_congr_right ⟨fun hmem => ⟨hne hmem, .inr hmem⟩,
          fun ⟨hn, hmem⟩ => hmem.resolve_left (hnot hn)⟩
      · rename_i hnlt hne
        have hn : (n, v) = a → n ≠ name := by
          rintro rfl rfl
          exact hne rfl
        rw [List.mem_cons, List.mem_cons, ih hrest]
        exact ⟨fun hmem => hmem.elim (fun h => .inr ⟨hn h, .inl h⟩)
            (.imp_right fun h => ⟨h.1, .inr h.2⟩),
          fun hmem => hmem.elim (fun h => .inr (.inl h))
            fun ⟨hne', h⟩ => h.imp_right fun h => .inr ⟨hne', h⟩⟩

end

/-! ### The assembly -/

/-- The headers that come of the bearer token and some entries: those of the token and of the
entries, in ascending order of names, each once.  Among the entries for a header the one whose name
comes last counts, and the token counts only without any for its header. -/
structure Assembled (token : String) (entries : List (String × Json))
    (hs : List (String × String)) : Prop where
  ascending : hs.Pairwise fun a b => a.1 < b.1
  names : ∀ name, name ∈ hs.map Prod.fst ↔
    name = "authorization" ∨ ∃ entry ∈ entries, entry.1.toLower = name
  values : ∀ name value, (name, value) ∈ hs ↔
    (∃ key, key.toLower = name ∧ (key, .text value) ∈ entries ∧
      ∀ entry ∈ entries, entry.1.toLower = name → entry.1 ≤ key) ∨
    (name = "authorization" ∧ value = token ∧ ∀ entry ∈ entries, entry.1.toLower ≠ name)

section

variable {token : String} {entries : List (String × Json)} {hs : List (String × String)}

theorem assembled_token (token : String) : Assembled token [] [("authorization", token)] where
  ascending := List.pairwise_singleton _ _
  names name := by simp
  values name value := by simp

/-- One more entry counts before those for the same header. -/
theorem Assembled.put (h : Assembled token entries hs) {entry : String × Json} {value : String}
    (hlast : ∀ e ∈ entries, e.1 < entry.1) (hentry : Acceptable entry value) :
    Assembled token (entries ++ [entry]) (put entry.1.toLower value hs) where
  ascending := put_ascending value h.ascending
  names name := by
    rw [mem_put_names, h.names, or_comm, or_assoc, eq_comm (a := name) (b := entry.1.toLower)]
    simp only [List.mem_append, List.mem_singleton, or_and_right, exists_or, exists_eq_left]
  values name v := by
    rw [mem_put_iff h.ascending, h.values]
    simp only [List.mem_append, List.mem_singleton, or_imp, forall_and, forall_eq]
    by_cases hname : entry.1.toLower = name
    · have hmem : (entry.1, Json.text value) = entry := by rw [← hentry.text]
      constructor
      · rintro (⟨-, rfl⟩ | ⟨hne, -⟩)
        · refine .inl ⟨entry.1, hname, .inr hmem, fun e he _ => ?_, fun _ => String.le_refl _⟩
          exact Std.le_of_lt (hlast e he)
        · exact absurd hname.symm hne
      · rintro (⟨key, -, hkey, -, hle⟩ | ⟨-, -, -, hne⟩)
        · rcases hkey with hkey | hkey
          -- an entry before the last one is not the greatest
          · exact absurd (hlast _ hkey) (String.not_lt.mpr (hle hname))
          · obtain rfl : v = value := by
              have htext := hentry.text
              rw [← hkey] at htext
              exact Json.text.inj htext
            exact .inl ⟨hname.symm, rfl⟩
        · exact absurd hname hne
    · have hkey : ∀ key, key.toLower = name → (key, Json.text v) ≠ entry := by
        rintro key hkey rfl
        exact hname hkey
      constructor
      · rintro (⟨rfl, -⟩ | ⟨-, ⟨key, hlower, hmem, hle⟩ | ⟨hauth, hv, hnone⟩⟩)
        · exact absurd rfl hname
        · exact .inl ⟨key, hlower, .inl hmem, hle, fun h => absurd h hname⟩
        · exact .inr ⟨hauth, hv, hnone, hname⟩
      · rintro (⟨key, hlower, hmem, hle, -⟩ | ⟨hauth, hv, hnone, -⟩)
        · exact .inr ⟨fun h => hname h.symm,
            .inl ⟨key, hlower, hmem.resolve_right (hkey key hlower), hle⟩⟩
        · exact .inr ⟨fun h => hname h.symm, .inr ⟨hauth, hv, hnone⟩⟩

/-- With the entries one after the other in ascending order, all of them count. -/
theorem Assembled.foldlM {more : List (String × Json)} {hs' : List (String × String)}
    (h : Assembled token entries hs)
    (hkeys : (entries ++ more).Pairwise fun a b => a.1 < b.1)
    (hrun : more.foldlM putEntry hs = .ok hs') : Assembled token (entries ++ more) hs' := by
  induction more generalizing entries hs with
  | nil =>
    obtain rfl := Except.ok.inj hrun
    rwa [List.append_nil]
  | cons entry rest ih =>
    rw [List.foldlM_cons] at hrun
    rcases acceptable_or_offence entry with ⟨value, hentry⟩ | ⟨fault, hfault⟩
    · rw [putEntry_of_acceptable hentry] at hrun
      have hlast : ∀ e ∈ entries, e.1 < entry.1 := fun e he =>
        (List.pairwise_append.mp hkeys).2.2 e he entry List.mem_cons_self
      rw [List.append_cons] at hkeys ⊢
      exact ih (h.put hlast hentry) hkeys hrun
    · rw [putEntry_of_offence hfault] at hrun
      cases hrun

end

/-- The headers of a request, for a key and default headers in ascending order of their names: when
there are any, which they are, and what the fault is otherwise.  Without a bearer token nothing else
counts; after it the entries are taken in order. -/
theorem headers_assembled (apiKey : String) (defaults : List (String × Json))
    (hkeys : defaults.Pairwise fun a b => a.1 < b.1) :
    ((∃ hs, headers apiKey defaults = .ok hs) ↔
      isValue ("Bearer " ++ apiKey) = true ∧ ∀ entry ∈ defaults, ∃ value, Acceptable entry value) ∧
    (∀ hs, headers apiKey defaults = .ok hs → Assembled ("Bearer " ++ apiKey) defaults hs) ∧
    ∀ fault, headers apiKey defaults = .error fault ↔
      isValue ("Bearer " ++ apiKey) = false ∧ fault = .badValue ∨
      isValue ("Bearer " ++ apiKey) = true ∧ ∃ before entry after,
        defaults = before ++ entry :: after ∧ (∀ e ∈ before, ∃ value, Acceptable e value) ∧
          Offence entry fault := by
  cases htoken : isValue ("Bearer " ++ apiKey) with
  | false =>
    have hrun : headers apiKey defaults = .error .badValue := by
      rw [headers, htoken]
      rfl
    simp only [hrun, Bool.false_eq_true, false_and, or_false, true_and, iff_false,
      Except.error.injEq]
    exact ⟨nofun, nofun, fun fault => eq_comm⟩
  | true =>
    have hrun : headers apiKey defaults =
        defaults.foldlM putEntry [("authorization", "Bearer " ++ apiKey)] := by
      rw [headers, htoken]
      rfl
    simp only [hrun, Bool.true_eq_false, false_and, false_or, true_and]
    refine ⟨exists_foldlM_putEntry_iff, fun hs hs' => ?_,
      fun fault => foldlM_putEntry_eq_error_iff⟩
    have hall : Assembled ("Bearer " ++ apiKey) ([] ++ defaults) hs :=
      (assembled_token _).foldlM hkeys hs'
    exact hall

/-- Two spellings of a name and one of that of the token: the last spelling counts, and the token
does not. -/
theorem headers_assembled_spellings :
    let defaults : List (String × Json) :=
      [("Authorization", .text "Basic 1"), ("X-Trace", .text "upper"), ("x-trace", .text "lower")]
    headers "key" defaults = .ok [("authorization", "Basic 1"), ("x-trace", "lower")] ∧
      Assembled "Bearer key" defaults [("authorization", "Basic 1"), ("x-trace", "lower")] ∧
      headers "key" (("A b", .null) :: defaults) = .error (.notText "A b") := by
  intro defaults
  have hrun : headers "key" defaults =
      .ok [("authorization", "Basic 1"), ("x-trace", "lower")] := rfl
  exact ⟨hrun, (headers_assembled "key" defaults (by decide)).2.1 _ hrun, rfl⟩

end CorpusAgent.Http
