import CorpusAgent.Http.Endpoint
import CorpusAgent.Proofs.Except
import CorpusAgent.Proofs.Json.Members
import CorpusAgent.Proofs.Lists

/-!
# The arrangement of vectors

In which order the vectors of an answer are, said without sorting.  An item ranks by the index that
it carries, or else by its place; items that rank equally keep their order.

* `item_eq_ok_iff`: an item is read as its rank and its vector, if it has one.
* `Arranged`: places of items, each once and in their order, with the vectors of the items there.
* `Arranged.unique`: the items determine the vectors and their order.
* `decode_eq_ok_iff`: the vectors that are read from an answer are those of its items, arranged.
* `decode_arranged`: if all items carry an index of their own, it does not matter in which order
  they are.
-/

namespace CorpusAgent.Embedding

/-! ### Items -/

/-- An item carries an index: an integer of 64 bits without a sign. -/
def Carries (v : Json) (i : Nat) : Prop :=
  v.member? "index" = some (.number (.integer i)) ∧ i < UInt64.size

/-- An item ranks by the index that it carries, or else by its place. -/
inductive Ranks (v : Json) (place : Nat) : Nat → Prop
  | carried {i : Nat} (h : Carries v i) : Ranks v place i
  | unmarked (h : ∀ i, ¬Carries v i) : Ranks v place place

/-- An item has a vector: a list of nothing but numbers. -/
def HasVector (v : Json) (vector : List Single) : Prop :=
  ∃ numbers : List Number, v.member? "embedding" = some (.list (numbers.map .number)) ∧
    vector = numbers.map fun n => n.toDouble.toFormat .single

variable {v : Json} {place i j : Nat} {vector : List Single}

theorem Carries.unique (hi : Carries v i) (hj : Carries v j) : i = j := by
  have h := hi.1.symm.trans hj.1
  simp only [Option.some.injEq, Json.number.injEq, Number.integer.injEq] at h
  exact Int.ofNat.inj h

theorem nat?_eq_some_iff {bound n : Nat} {v : Json} :
    v.nat? bound = some n ↔ v = .number (.integer n) ∧ n ≤ bound := by
  cases v with
  | number n =>
    cases n with
    | integer i =>
      rw [Json.nat?]
      split_ifs with h
      · simp; omega
      · simp; omega
    | decimal x => exact iff_of_false nofun fun h => by cases h.1
  | _ => exact iff_of_false nofun fun h => by cases h.1

theorem index_eq_some_iff :
    (v.member? "index").bind (Json.nat? (twoTo 64 - 1)) = some i ↔ Carries v i := by
  have hbound : i ≤ twoTo 64 - 1 ↔ i < UInt64.size := by
    have hsize : twoTo 64 = UInt64.size := rfl
    have hpos : 0 < UInt64.size := by decide
    omega
  rw [Option.bind_eq_some_iff, Carries]
  simp only [nat?_eq_some_iff, hbound]
  constructor
  · rintro ⟨w, hw, rfl, hlt⟩
    exact ⟨hw, hlt⟩
  · rintro ⟨hw, hlt⟩
    exact ⟨_, hw, rfl, hlt⟩

theorem ranks_iff :
    Ranks v place i ↔
      ((v.member? "index").bind (Json.nat? (twoTo 64 - 1))).getD place = i := by
  cases hindex : (v.member? "index").bind (Json.nat? (twoTo 64 - 1)) with
  | none =>
    have hnone : ∀ i, ¬Carries v i := by
      intro i hi
      rw [index_eq_some_iff.mpr hi] at hindex
      cases hindex
    constructor
    · intro h
      cases h with
      | carried h => exact absurd h (hnone i)
      | unmarked => rfl
    · rintro rfl
      exact .unmarked hnone
  | some k =>
    have hk := index_eq_some_iff.mp hindex
    constructor
    · intro h
      cases h with
      | carried h => exact hk.unique h
      | unmarked h => exact absurd hk (h k)
    · rintro rfl
      exact .carried hk

theorem Ranks.unique (hi : Ranks v place i) (hj : Ranks v place j) : i = j :=
  (ranks_iff.mp hi).symm.trans (ranks_iff.mp hj)

theorem component_eq_ok_iff {x : Single} :
    component v = .ok x ↔ ∃ n : Number, .number n = v ∧ n.toDouble.toFormat .single = x := by
  cases v with
  | number n =>
    constructor
    · intro h
      exact ⟨n, rfl, Except.ok.inj h⟩
    · rintro ⟨m, hm, rfl⟩
      rw [← Json.number.inj hm]
      rfl
  | _ => exact iff_of_false nofun fun ⟨n, h, _⟩ => by cases h

theorem components_eq_ok_iff {components : List Json} :
    components.mapM component = .ok vector ↔
      ∃ numbers : List Number, components = numbers.map .number ∧
        vector = numbers.map fun n => n.toDouble.toFormat .single := by
  rw [mapM_eq_ok_iff]
  simp only [component_eq_ok_iff]
  constructor
  · intro h
    induction h with
    | nil => exact ⟨[], rfl, rfl⟩
    | cons hfirst _ ih =>
      obtain ⟨n, rfl, rfl⟩ := hfirst
      obtain ⟨numbers, rfl, rfl⟩ := ih
      exact ⟨n :: numbers, rfl, rfl⟩
  · rintro ⟨numbers, rfl, rfl⟩
    rw [List.forall₂_map_left_iff, List.forall₂_map_right_iff, List.forall₂_same]
    exact fun n _ => ⟨n, rfl, rfl⟩

theorem item_eq_ok_iff :
    item place v = .ok (i, vector) ↔ Ranks v place i ∧ HasVector v vector := by
  rw [ranks_iff, HasVector, item]
  cases hlist : (v.member? "embedding").bind Json.list? with
  | none =>
    refine iff_of_false nofun ?_
    rintro ⟨_, numbers, hnumbers, _⟩
    rw [Json.bind_list?_eq_some_iff.mpr hnumbers] at hlist
    cases hlist
  | some components =>
    rw [Json.bind_list?_eq_some_iff.mp hlist]
    change (_ <$> components.mapM component) = _ ↔ _
    rw [map_eq_ok_iff]
    simp only [components_eq_ok_iff, Prod.mk.injEq, Option.some.injEq, Json.list.injEq]
    constructor
    · rintro ⟨_, hvector, hindex, rfl⟩
      exact ⟨hindex, hvector⟩
    · rintro ⟨hindex, hvector⟩
      exact ⟨_, hvector, hindex, rfl⟩

theorem items_eq_mapM (place : Nat) (data : List Json) :
    items place data = (data.zipIdx place).mapM fun e => item e.2 e.1 := by
  induction data generalizing place with
  | nil => rfl
  | cons v rest ih => rw [items, List.zipIdx_cons, List.mapM_cons, ih]

/-! ### Arrangements -/

/-- The item in one place comes before that in another one. -/
def Before (data : List Json) (a b : Nat) : Prop :=
  ∃ v w i j, data[a]? = some v ∧ data[b]? = some w ∧ Ranks v a i ∧ Ranks w b j ∧
    (i < j ∨ i = j ∧ a < b)

/-- All places of items in their order, and the vectors of the items there. -/
structure Arranged (data : List Json) (places : List Nat) (vectors : List (List Single)) :
    Prop where
  each : places.Perm (List.range data.length)
  vectors : List.Forall₂ (fun place vector => ∃ v, data[place]? = some v ∧ HasVector v vector)
    places vectors
  ordered : places.Pairwise (Before data)

variable {data : List Json} {places : List Nat} {vectors : List (List Single)}

theorem Before.exists_ranks {a b : Nat} {w : Json} (h : Before data a b)
    (hv : data[a]? = some v) (hw : data[b]? = some w) :
    ∃ i j, Ranks v a i ∧ Ranks w b j ∧ (i < j ∨ i = j ∧ a < b) := by
  obtain ⟨v', w', i, j, hv', hw', hi, hj, hbefore⟩ := h
  obtain rfl : v' = v := Option.some.inj (hv'.symm.trans hv)
  obtain rfl : w' = w := Option.some.inj (hw'.symm.trans hw)
  exact ⟨i, j, hi, hj, hbefore⟩

theorem Before.asymm {a b : Nat} (h : Before data a b) : ¬Before data b a := by
  intro hback
  obtain ⟨v, w, i, j, hv, hw, hi, hj, hab⟩ := h
  obtain ⟨k, l, hk, hl, hba⟩ := hback.exists_ranks hw hv
  have hil := hi.unique hl
  have hjk := hj.unique hk
  omega

theorem HasVector.unique {other : List Single} (h : HasVector v vector)
    (g : HasVector v other) : vector = other := by
  obtain ⟨numbers, hnumbers, rfl⟩ := h
  have hread := components_eq_ok_iff.mpr ⟨numbers, rfl, rfl⟩
  obtain ⟨others, hothers, rfl⟩ := g
  have hsame := Json.list.inj (Option.some.inj (hnumbers.symm.trans hothers))
  rw [hsame, components_eq_ok_iff.mpr ⟨others, rfl, rfl⟩] at hread
  exact (Except.ok.inj hread).symm

theorem rightUnique_hasVector : Relator.RightUnique HasVector := fun _ _ _ h g => h.unique g

/-- The items determine the vectors and their order. -/
theorem Arranged.unique {others : List Nat} {own : List (List Single)}
    (h : Arranged data places vectors) (g : Arranged data others own) : vectors = own := by
  obtain rfl : places = others := List.Perm.eq_of_pairwise
    (fun _ _ _ _ hab hba => absurd hba hab.asymm) h.ordered g.ordered (h.each.trans g.each.symm)
  refine List.right_unique_forall₂' ?_ h.vectors g.vectors
  rintro place vector other ⟨v, hv, hvector⟩ ⟨w, hw, hother⟩
  obtain rfl : v = w := Option.some.inj (hv.symm.trans hw)
  exact hvector.unique hother

theorem Arranged.exists_vector (h : Arranged data places vectors) (hv : v ∈ data) :
    ∃ vector, HasVector v vector := by
  obtain ⟨place, hplace⟩ := List.mem_iff_getElem?.mp hv
  have hlt := (List.getElem?_eq_some_iff.mp hplace).1
  obtain ⟨vector, w, hw, hvector⟩ := exists_forall₂_iff.mp ⟨vectors, h.vectors⟩ place
    (h.each.mem_iff.mpr (List.mem_range.mpr hlt))
  obtain rfl : v = w := Option.some.inj (hplace.symm.trans hw)
  exact ⟨vector, hvector⟩

theorem exists_arranged {entries : List (Nat × List Single)} (h : items 0 data = .ok entries) :
    ∃ places, Arranged data places (inOrder entries) := by
  rw [items_eq_mapM, mapM_eq_ok_iff] at h
  let le : Nat × List Single → Nat × List Single → Bool := fun a b => decide (a.1 ≤ b.1)
  have htrans : ∀ a b c, le a b = true → le b c = true → le a c = true := by
    intro a b c hab hbc
    exact decide_eq_true ((of_decide_eq_true hab).trans (of_decide_eq_true hbc))
  have htotal : ∀ a b, (le a b || le b a) = true := by
    intro a b
    rw [Bool.or_eq_true, decide_eq_true_iff, decide_eq_true_iff]
    exact Nat.le_total _ _
  obtain ⟨placed, hmap, hperm, hordered⟩ := exists_stable htrans htotal entries
  have hitem : ∀ e ∈ placed, ∃ v, data[e.2]? = some v ∧ Ranks v e.2 e.1.1 ∧
      HasVector v e.1.2 := by
    intro e he
    have hentry : entries[e.2]? = some e.1 :=
      List.mem_zipIdx_iff_getElem?.mp (hperm.mem_iff.mp he)
    obtain ⟨x, hx, hread⟩ := exists_of_getElem? h.flip hentry
    rw [List.getElem?_zipIdx, Nat.zero_add, Option.map_eq_some_iff] at hx
    obtain ⟨v, hv, rfl⟩ := hx
    exact ⟨v, hv, item_eq_ok_iff.mp hread⟩
  refine ⟨placed.map Prod.snd, ?_, ?_, ?_⟩
  · have hlength : entries.length = data.length := by
      rw [← h.length_eq, List.length_zipIdx]
    have hplaces := hperm.map Prod.snd
    rwa [List.zipIdx_map_snd, hlength, ← List.range_eq_range'] at hplaces
  · have hvectors : inOrder entries = placed.map fun e => e.1.2 := by
      rw [inOrder]
      exact (congrArg (List.map Prod.snd) hmap).symm.trans List.map_map
    rw [hvectors, List.forall₂_map_left_iff, List.forall₂_map_right_iff, List.forall₂_same]
    intro e he
    obtain ⟨v, hv, _, hvector⟩ := hitem e he
    exact ⟨v, hv, hvector⟩
  · rw [List.pairwise_map]
    refine hordered.imp_of_mem ?_
    intro a b ha hb hab
    obtain ⟨v, hv, hi, _⟩ := hitem a ha
    obtain ⟨w, hw, hj, _⟩ := hitem b hb
    refine ⟨v, w, _, _, hv, hw, hi, hj, ?_⟩
    have hle : a.1.1 ≤ b.1.1 := of_decide_eq_true hab.1
    rcases Nat.lt_or_eq_of_le hle with hlt | heq
    · exact .inl hlt
    · exact .inr ⟨heq, hab.2 (decide_eq_true heq.ge)⟩

theorem exists_items_iff :
    (∃ entries, items 0 data = .ok entries) ↔ ∀ v ∈ data, ∃ vector, HasVector v vector := by
  simp only [items_eq_mapM, mapM_eq_ok_iff, exists_forall₂_iff]
  constructor
  · intro h v hv
    obtain ⟨place, hplace⟩ := List.mem_iff_getElem?.mp hv
    obtain ⟨⟨i, vector⟩, hread⟩ := h (v, place) (List.mk_mem_zipIdx_iff_getElem?.mpr hplace)
    exact ⟨vector, (item_eq_ok_iff.mp hread).2⟩
  · rintro h ⟨v, place⟩ he
    have hplace := List.mk_mem_zipIdx_iff_getElem?.mp he
    obtain ⟨vector, hvector⟩ := h v (List.mem_of_getElem? hplace)
    exact ⟨(_, vector), item_eq_ok_iff.mpr ⟨ranks_iff.mpr rfl, hvector⟩⟩

/-! ### Answers -/

/-- The items of an answer. -/
def HasData (answer : Json) (data : List Json) : Prop :=
  answer.member? "data" = some (.list data)

variable {answer : Json}

theorem decode_data_eq_ok_iff (hdata : HasData answer data) :
    decode answer = .ok vectors ↔ ∃ places, Arranged data places vectors := by
  have hread : decode answer = inOrder <$> items 0 data := by
    rw [decode, Json.bind_list?_eq_some_iff.mpr hdata]
    rfl
  rw [hread, map_eq_ok_iff]
  constructor
  · rintro ⟨entries, hentries, rfl⟩
    exact exists_arranged hentries
  · rintro ⟨places, h⟩
    obtain ⟨entries, hentries⟩ := exists_items_iff.mpr fun v hv => h.exists_vector hv
    obtain ⟨others, hothers⟩ := exists_arranged hentries
    exact ⟨entries, hentries, hothers.unique h⟩

theorem exists_data_of_decode (h : decode answer = .ok vectors) : ∃ data, HasData answer data := by
  cases hlist : (answer.member? "data").bind Json.list? with
  | none =>
    rw [decode, hlist] at h
    cases h
  | some data => exact ⟨data, Json.bind_list?_eq_some_iff.mp hlist⟩

/-- The vectors that are read from an answer are those of its items, arranged. -/
theorem decode_eq_ok_iff :
    decode answer = .ok vectors ↔
      ∃ data places, HasData answer data ∧ Arranged data places vectors := by
  constructor
  · intro h
    obtain ⟨data, hdata⟩ := exists_data_of_decode h
    obtain ⟨places, harranged⟩ := (decode_data_eq_ok_iff hdata).mp h
    exact ⟨data, places, hdata, harranged⟩
  · rintro ⟨data, places, hdata, harranged⟩
    exact (decode_data_eq_ok_iff hdata).mpr ⟨places, harranged⟩

/-- An answer can be read just if all its items have a vector. -/
theorem exists_decode_iff : (∃ vectors, decode answer = .ok vectors) ↔
    ∃ data, HasData answer data ∧ ∀ v ∈ data, ∃ vector, HasVector v vector := by
  constructor
  · rintro ⟨vectors, h⟩
    obtain ⟨data, places, hdata, harranged⟩ := decode_eq_ok_iff.mp h
    exact ⟨data, hdata, fun v hv => harranged.exists_vector hv⟩
  · rintro ⟨data, hdata, h⟩
    obtain ⟨entries, hentries⟩ := exists_items_iff.mpr h
    exact ⟨_, (decode_data_eq_ok_iff hdata).mpr (exists_arranged hentries)⟩

/-! ### Items with indices of their own -/

/-- Each item carries an index, and no two carry the same. -/
structure Indexed (data : List Json) : Prop where
  carried : ∀ v ∈ data, ∃ i, Carries v i
  distinct : data.Pairwise fun v w => ∀ i, Carries v i → ¬Carries w i

/-- One item carries a smaller index than another one. -/
def Below (v w : Json) : Prop := ∃ i j, Carries v i ∧ Carries w j ∧ i < j

theorem Below.asymm {v w : Json} (h : Below v w) : ¬Below w v := by
  rintro ⟨k, l, hk, hl, hkl⟩
  obtain ⟨i, j, hi, hj, hij⟩ := h
  have hil := hi.unique hl
  have hjk := hj.unique hk
  omega

theorem Indexed.perm {data' : List Json} (h : Indexed data) (hperm : data.Perm data') :
    Indexed data' where
  carried v hv := h.carried v (hperm.mem_iff.mpr hv)
  distinct := hperm.pairwise h.distinct fun hvw i hi hj => hvw i hj hi

theorem Before.le_of_carries {a b : Nat} {w : Json} (h : Before data a b)
    (hv : data[a]? = some v) (hw : data[b]? = some w) (hi : Carries v i) (hj : Carries w j) :
    i ≤ j := by
  obtain ⟨k, l, hk, hl, hkl⟩ := h.exists_ranks hv hw
  have hki := hk.unique (.carried hi)
  have hlj := hl.unique (.carried hj)
  omega

/-- Items with indices of their own have their vectors in the order of the indices. -/
theorem Arranged.exists_sorted (h : Arranged data places vectors) (hindexed : Indexed data) :
    ∃ sorted : List Json, sorted.Perm data ∧ List.Forall₂ HasVector sorted vectors ∧
      sorted.Pairwise Below := by
  -- what stands in the places, which are those of the data in another order
  have hall : List.Forall₂ (fun place v => data[place]? = some v) (List.range data.length)
      data := by
    rw [List.forall₂_iff_get]
    refine ⟨List.length_range, fun place _ hplace => ?_⟩
    simp [List.getElem?_eq_getElem hplace]
  obtain ⟨sorted, hsorted, hperm⟩ := List.perm_comp_forall₂ h.each hall
  refine ⟨sorted, hperm, ?_, ?_⟩
  · refine (forall₂_of_common hsorted h.vectors).imp ?_
    rintro v vector ⟨place, hv, w, hw, hvector⟩
    obtain rfl : v = w := Option.some.inj (hv.symm.trans hw)
    exact hvector
  · -- equal ranks are left to the places, but the indices differ
    have hle : sorted.Pairwise fun v w => ∀ i j, Carries v i → Carries w j → i ≤ j :=
      pairwise_of_forall₂ hsorted h.ordered fun _ _ _ _ hv hw hbefore _ _ hi hj =>
        hbefore.le_of_carries hv hw hi hj
    have hindexed := hindexed.perm hperm.symm
    refine (hle.and hindexed.distinct).imp_of_mem ?_
    rintro v w hv hw ⟨hvw, hne⟩
    obtain ⟨i, hi⟩ := hindexed.carried v hv
    obtain ⟨j, hj⟩ := hindexed.carried w hw
    refine ⟨i, j, hi, hj, Nat.lt_of_le_of_ne (hvw i j hi hj) ?_⟩
    rintro rfl
    exact hne i hi hj

/-- The order in which items with indices of their own arrive does not matter. -/
theorem decode_of_perm {again : Json} {data' : List Json} (hdata : HasData answer data)
    (hagain : HasData again data') (hperm : data.Perm data') (hindexed : Indexed data)
    (h : decode answer = .ok vectors) : decode again = .ok vectors := by
  obtain ⟨places, harranged⟩ := (decode_data_eq_ok_iff hdata).mp h
  have hvectors : ∀ v ∈ data', ∃ vector, HasVector v vector := fun v hv =>
    harranged.exists_vector (hperm.mem_iff.mpr hv)
  obtain ⟨others, hothers⟩ := exists_decode_iff.mpr ⟨data', hagain, hvectors⟩
  obtain ⟨_, harranged'⟩ := (decode_data_eq_ok_iff hagain).mp hothers
  obtain ⟨sorted, hsorted, hown, hbelow⟩ := harranged.exists_sorted hindexed
  obtain ⟨sorted', hsorted', hown', hbelow'⟩ := harranged'.exists_sorted (hindexed.perm hperm)
  -- both are the same items by ascending index
  obtain rfl : sorted = sorted' := List.Perm.eq_of_pairwise
    (fun _ _ _ _ hvw hwv => absurd hwv hvw.asymm) hbelow hbelow'
    (hsorted.trans (hperm.trans hsorted'.symm))
  have hsame : vectors = others :=
    List.right_unique_forall₂' rightUnique_hasVector hown hown'
  rw [hothers, hsame]

/-- If the indices are the numbers below the number of items, the vector of an item is in the place
of its index. -/
theorem Arranged.getElem?_of_carries (h : Arranged data places vectors) (hindexed : Indexed data)
    (hlt : ∀ v ∈ data, ∀ i, Carries v i → i < data.length) (hv : v ∈ data) (hi : Carries v i) :
    ∃ vector, vectors[i]? = some vector ∧ HasVector v vector := by
  obtain ⟨sorted, hperm, hvectors, hbelow⟩ := h.exists_sorted hindexed
  obtain ⟨is, his⟩ := exists_forall₂_iff.mpr (hindexed.perm hperm.symm).carried
  have hlength : is.length = data.length := by rw [← his.length_eq, hperm.length_eq]
  have hascending : is.Pairwise (· < ·) := by
    refine pairwise_of_forall₂ his hbelow ?_
    rintro v w i j hi hj ⟨k, l, hk, hl, hkl⟩
    rwa [hi.unique hk, hj.unique hl]
  -- so the indices of the sorted items are the places of these
  have hrange : is = List.range is.length := by
    refine eq_range_of_ascending hascending fun i hi => ?_
    obtain ⟨place, hplace⟩ := List.mem_iff_getElem?.mp hi
    obtain ⟨w, hw, hcarries⟩ := exists_of_getElem? his.flip hplace
    rw [hlength]
    exact hlt w (hperm.mem_iff.mp (List.mem_of_getElem? hw)) i hcarries
  obtain ⟨place, hplace⟩ := List.mem_iff_getElem?.mp (hperm.mem_iff.mpr hv)
  obtain ⟨j, hj, hcarries⟩ := exists_of_getElem? his hplace
  have hplaces := (List.getElem?_eq_some_iff.mp hj).1
  rw [hrange, List.getElem?_range hplaces] at hj
  obtain rfl : place = i := (Option.some.inj hj).trans (hcarries.unique hi)
  exact exists_of_getElem? hvectors hplace

/-! ### Requests -/

theorem decodeFor_eq_ok_iff {texts : List String} :
    decodeFor texts answer = .ok vectors ↔
      decode answer = .ok vectors ∧ vectors.length = texts.length := by
  rw [decodeFor, bind_eq_ok_iff]
  constructor
  · rintro ⟨own, hown, h⟩
    split at h
    · rename_i hlength
      obtain rfl := pure_eq_ok_iff.mp h
      exact ⟨hown, hlength⟩
    · cases h
  · rintro ⟨hdecode, hlength⟩
    refine ⟨vectors, hdecode, ?_⟩
    rw [if_pos hlength]
    rfl

open Http in
theorem embed_eq_ok_iff {network : Network} {s : EmbeddingSettings} {model : Option String}
    {texts : List String} : embed network s model texts = .ok vectors ↔
      ∃ answer, ask network s.toEndpointSettings (request s model texts) = .ok answer ∧
        decode answer = .ok vectors ∧ vectors.length = texts.length := by
  rw [embed, bind_eq_ok_iff]
  simp only [mapError_eq_ok_iff, decodeFor_eq_ok_iff]

/-- **Vectors come in the order of their items' ranks, however these arrive.**  What is read from an
answer are the vectors of all its items, arranged by index or else by place, and nothing is read
unless each item has a vector.  Items with indices of their own may arrive in any order, and if
these are the numbers below the number of items, each vector is in the place of its index.  As many
vectors are handed on as texts were sent. -/
theorem decode_arranged (answer : Json) :
    (∀ vectors, decode answer = .ok vectors ↔
      ∃ data places, HasData answer data ∧ Arranged data places vectors) ∧
    ((∃ vectors, decode answer = .ok vectors) ↔
      ∃ data, HasData answer data ∧ ∀ v ∈ data, ∃ vector, HasVector v vector) ∧
    (∀ again data data', HasData answer data → HasData again data' → data.Perm data' →
      Indexed data → (decode answer).toOption = (decode again).toOption) ∧
    (∀ data vectors, HasData answer data → decode answer = .ok vectors → Indexed data →
      (∀ v ∈ data, ∀ i, Carries v i → i < data.length) →
        vectors.length = data.length ∧ ∀ v ∈ data, ∀ i, Carries v i →
          ∃ vector, vectors[i]? = some vector ∧ HasVector v vector) ∧
    ∀ network s model texts vectors, Http.embed network s model texts = .ok vectors ↔
      ∃ answer, Http.ask network s.toEndpointSettings (request s model texts) = .ok answer ∧
        decode answer = .ok vectors ∧ vectors.length = texts.length := by
  refine ⟨fun vectors => decode_eq_ok_iff, exists_decode_iff, ?_, ?_, ?_⟩
  · intro again data data' hdata hagain hperm hindexed
    have hback : ∀ {vectors}, decode again = .ok vectors → decode answer = .ok vectors :=
      decode_of_perm hagain hdata hperm.symm (hindexed.perm hperm)
    have hforth : ∀ {vectors}, decode answer = .ok vectors → decode again = .ok vectors :=
      decode_of_perm hdata hagain hperm hindexed
    refine Option.ext fun vectors => ?_
    rw [toOption_eq_some_iff, toOption_eq_some_iff]
    exact ⟨hforth, hback⟩
  · intro data vectors hdata h hindexed hlt
    obtain ⟨places, harranged⟩ := (decode_data_eq_ok_iff hdata).mp h
    refine ⟨?_, fun v hv i hi => harranged.getElem?_of_carries hindexed hlt hv hi⟩
    rw [← harranged.vectors.length_eq, harranged.each.length_eq, List.length_range]
  · intro network s model texts vectors
    exact embed_eq_ok_iff

end CorpusAgent.Embedding
