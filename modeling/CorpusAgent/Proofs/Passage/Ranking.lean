import CorpusAgent.Proofs.Lists
import CorpusAgent.Proofs.Passage.Assembly

/-!
# The ranking of passages

Which passages a run answers with, said without sorting and without a set of chunks seen.  An entry
is a passage with its place among those found.

* `Represents`: of the copies of a chunk, the earliest of those with the best score stands for it.
* `Ranking`: the entries that stand for their chunks, the better ones first, and equal ones in the
  order in which they were found.  There is one ranking only.
* `exists_ranking`: what is left of the ranked passages when each chunk counts once is the ranking.
* `assemble_ranking`: so the passages that are picked are the first ones of the ranking.  Picking
  again changes nothing, and neither do more copies that are no better.
-/

namespace CorpusAgent.Passage

/-- An entry stands for its chunk: it is found at its place, no copy has a better score, and none
with the same score was found earlier. -/
structure Represents (found : List Passage) (e : Passage × Nat) : Prop where
  place : found[e.2]? = some e.1
  highest : ∀ q ∈ found, q.id = e.1.id → q.score.value ≤ e.1.score.value
  earliest : ∀ q i, found[i]? = some q → q.id = e.1.id → q.score.value = e.1.score.value → e.2 ≤ i

/-- One entry comes before another one: its score is better, or it is the same and the entry was
found earlier. -/
def Precedes (a b : Passage × Nat) : Prop :=
  b.1.score.value < a.1.score.value ∨ b.1.score.value = a.1.score.value ∧ a.2 < b.2

/-- The entries that stand for their chunks, in their order. -/
structure Ranking (found : List Passage) (entries : List (Passage × Nat)) : Prop where
  mem_iff : ∀ e, e ∈ entries ↔ Represents found e
  ordered : entries.Pairwise Precedes

variable {found extra : List Passage} {entries : List (Passage × Nat)} {a b : Passage × Nat}

/-! ### The order of entries -/

theorem Precedes.asymm (h : Precedes a b) : ¬Precedes b a := by
  rintro (hlt | ⟨heq, hplace⟩)
  · rcases h with hab | ⟨hab, -⟩
    · exact lt_asymm hab hlt
    · exact hlt.ne' hab
  · rcases h with hab | ⟨-, hab⟩
    · exact hab.ne' heq
    · exact Nat.lt_asymm hplace hab

theorem precedes_irrefl (a : Passage × Nat) : ¬Precedes a a := fun h => h.asymm h

theorem exists_placed (h : Scored found) : ∃ placed : List (Passage × Nat),
    placed.map Prod.fst = ranked found ∧ placed.Pairwise Precedes ∧
      ∀ e, e ∈ placed ↔ found[e.2]? = some e.1 := by
  let le : Passage → Passage → Bool := fun p q => decide (q.score.value ≤ p.score.value)
  have htrans : ∀ p q r, le p q = true → le q r = true → le p r = true := by
    intro p q r hpq hqr
    exact decide_eq_true ((of_decide_eq_true hqr).trans (of_decide_eq_true hpq))
  have htotal : ∀ p q, (le p q || le q p) = true := by
    intro p q
    rw [Bool.or_eq_true, decide_eq_true_iff, decide_eq_true_iff]
    exact le_total _ _
  obtain ⟨placed, hmap, hperm, hordered⟩ := exists_stable htrans htotal found
  refine ⟨placed, ?_, hordered.imp ?_, fun e => ?_⟩
  · rw [ranked_eq h]
    exact hmap
  · rintro a b ⟨hab, hstable⟩
    have hab : b.1.score.value ≤ a.1.score.value := of_decide_eq_true hab
    by_cases hba : a.1.score.value ≤ b.1.score.value
    · exact .inr ⟨le_antisymm hab hba, hstable (decide_eq_true hba)⟩
    · exact .inl (not_le.mp hba)
  · rw [hperm.mem_iff, List.mem_zipIdx_iff_getElem?]

theorem represents_iff {placed : List (Passage × Nat)}
    (hplaced : ∀ e, e ∈ placed ↔ found[e.2]? = some e.1) (e : Passage × Nat) :
    Represents found e ↔
      e ∈ placed ∧ ∀ b ∈ placed, b.1.id = e.1.id → b = e ∨ Precedes e b := by
  constructor
  · intro h
    refine ⟨(hplaced e).mpr h.place, fun b hb hid => ?_⟩
    have hfound := (hplaced b).mp hb
    rcases lt_or_eq_of_le (h.highest b.1 (List.mem_of_getElem? hfound) hid) with hlt | heq
    · exact .inr (.inl hlt)
    · rcases Nat.lt_or_eq_of_le (h.earliest b.1 b.2 hfound hid heq) with hlt | hsame
      · exact .inr (.inr ⟨heq, hlt⟩)
      · rw [← hsame, h.place] at hfound
        exact .inl (Prod.ext (Option.some.inj hfound).symm hsame.symm)
  · rintro ⟨he, hfirst⟩
    refine ⟨(hplaced e).mp he, fun q hq hid => ?_, fun q i hq hid heq => ?_⟩
    · obtain ⟨i, hi⟩ := List.mem_iff_getElem?.mp hq
      rcases hfirst (q, i) ((hplaced _).mpr hi) hid with rfl | hlt | ⟨heq, -⟩
      · exact le_refl _
      · exact le_of_lt hlt
      · exact le_of_eq heq
    · rcases hfirst (q, i) ((hplaced _).mpr hq) hid with rfl | hlt | ⟨-, hlt⟩
      · exact Nat.le_refl _
      · exact absurd heq hlt.ne
      · exact Nat.le_of_lt hlt

/-! ### Each chunk once -/

/-- Of entries in their order those are left that come before all other copies of a chunk that was
not seen. -/
theorem exists_distinct {placed : List (Passage × Nat)} (h : placed.Pairwise Precedes)
    (seen : List Uuid) : ∃ left : List (Passage × Nat), left.Sublist placed ∧
      left.map Prod.fst = distinct seen (placed.map Prod.fst) ∧
      ∀ e, e ∈ left ↔ e ∈ placed ∧ e.1.id ∉ seen ∧
        ∀ b ∈ placed, b.1.id = e.1.id → b = e ∨ Precedes e b := by
  induction placed generalizing seen with
  | nil => exact ⟨[], .slnil, rfl, fun e => by simp⟩
  | cons a placed ih =>
    obtain ⟨hfirst, hrest⟩ := List.pairwise_cons.mp h
    rw [List.map_cons]
    by_cases hseen : a.1.id ∈ seen
    · obtain ⟨left, hsub, hmap, hmem⟩ := ih hrest seen
      refine ⟨left, hsub.cons a, by rw [distinct_cons_of_mem hseen, hmap], fun e => ?_⟩
      rw [hmem]
      constructor
      · rintro ⟨he, hnew, hall⟩
        refine ⟨List.mem_cons_of_mem a he, hnew, fun b hb hid => ?_⟩
        rcases List.mem_cons.mp hb with rfl | hb
        · exact absurd (hid ▸ hseen) hnew
        · exact hall b hb hid
      · rintro ⟨he, hnew, hall⟩
        rcases List.mem_cons.mp he with rfl | he
        · exact absurd hseen hnew
        · exact ⟨he, hnew, fun b hb => hall b (List.mem_cons_of_mem a hb)⟩
    · obtain ⟨left, hsub, hmap, hmem⟩ := ih hrest (a.1.id :: seen)
      refine ⟨a :: left, hsub.cons_cons a, ?_, fun e => ?_⟩
      · rw [distinct_cons_of_not_mem hseen, List.map_cons, hmap]
      rw [List.mem_cons, hmem, List.mem_cons, List.mem_cons, not_or]
      constructor
      · rintro (rfl | ⟨he, ⟨hother, hnew⟩, hall⟩)
        · refine ⟨.inl rfl, hseen, fun b hb _ => ?_⟩
          exact (List.mem_cons.mp hb).imp_right (hfirst b)
        · refine ⟨.inr he, hnew, fun b hb hid => ?_⟩
          rcases List.mem_cons.mp hb with rfl | hb
          · exact absurd hid.symm hother
          · exact hall b hb hid
      · rintro ⟨rfl | he, hnew, hall⟩
        · exact .inl rfl
        · refine .inr ⟨he, ⟨fun hid => ?_, hnew⟩, fun b hb => hall b (List.mem_cons_of_mem a hb)⟩
          -- the first entry would have to come after this one
          rcases hall a List.mem_cons_self hid.symm with rfl | hbefore
          · exact precedes_irrefl _ (hfirst a he)
          · exact (hfirst e he).asymm hbefore

theorem exists_ranking (h : Scored found) :
    ∃ entries, Ranking found entries ∧ entries.map Prod.fst = distinct [] (ranked found) := by
  obtain ⟨placed, hmap, hordered, hplaced⟩ := exists_placed h
  obtain ⟨left, hsub, hleft, hmem⟩ := exists_distinct hordered []
  refine ⟨left, ⟨fun e => ?_, hordered.sublist hsub⟩, by rw [hleft, hmap]⟩
  rw [hmem, represents_iff hplaced]
  simp only [List.not_mem_nil, not_false_eq_true, true_and]

/-! ### One ranking -/

theorem nodup_of_ordered (h : entries.Pairwise Precedes) : entries.Nodup := by
  refine h.imp fun {a b} hab => ?_
  rintro rfl
  exact precedes_irrefl a hab

theorem Ranking.unique {other : List (Passage × Nat)} (h : Ranking found entries)
    (g : Ranking found other) : entries = other := by
  refine List.Perm.eq_of_pairwise (fun a b _ _ hab hba => absurd hba hab.asymm) h.ordered
    g.ordered ?_
  rw [List.perm_ext_iff_of_nodup (nodup_of_ordered h.ordered) (nodup_of_ordered g.ordered)]
  intro e
  rw [h.mem_iff, g.mem_iff]

theorem Ranking.assemble_eq (h : Ranking found entries) (hscored : Scored found) (most : Nat) :
    assemble found most = (entries.take most).map Prod.fst := by
  obtain ⟨own, hown, hmap⟩ := exists_ranking hscored
  rw [assemble, ← hmap, hown.unique h, List.map_take]

theorem ranking_zipIdx (hsorted : Sorted found) (hnodup : (found.map Passage.id).Nodup) :
    Ranking found found.zipIdx := by
  have hsame : ∀ (p q : Passage) (i j : Nat), found[i]? = some p → found[j]? = some q →
      q.id = p.id → i = j := by
    intro p q i j hi hj hid
    have hlt : i < (found.map Passage.id).length := by
      rw [List.length_map]
      exact (List.getElem?_eq_some_iff.mp hi).1
    have hids : (found.map Passage.id)[i]? = (found.map Passage.id)[j]? := by
      rw [List.getElem?_map, List.getElem?_map, hi, hj]
      exact congrArg some hid.symm
    exact (List.getElem?_inj hlt hnodup).mp hids
  constructor
  · rintro ⟨p, i⟩
    rw [List.mk_mem_zipIdx_iff_getElem?]
    refine ⟨fun hp => ⟨hp, fun q hq hid => ?_, fun q j hq hid _ => ?_⟩, fun h => h.place⟩
    · obtain ⟨j, hj⟩ := List.mem_iff_getElem?.mp hq
      obtain rfl := hsame p q i j hp hj hid
      rw [hp] at hj
      exact le_of_eq (congrArg (fun p => p.score.value) (Option.some.inj hj).symm)
    · exact Nat.le_of_eq (hsame p q i j hp hq hid)
  · rw [List.pairwise_iff_getElem]
    intro i j hi hj hlt
    rw [List.length_zipIdx] at hi hj
    simp only [List.getElem_zipIdx, Nat.zero_add]
    rcases lt_or_eq_of_le (List.pairwise_iff_getElem.mp hsorted i j hi hj hlt) with hbelow | heq
    · exact .inl hbelow
    · exact .inr ⟨heq, hlt⟩

/-- Copies at the end that are no better than an earlier one do not count. -/
theorem represents_append_iff (hextra : ∀ x ∈ extra, ∃ p ∈ found, p.id = x.id ∧
    x.score.value ≤ p.score.value) (e : Passage × Nat) :
    Represents (found ++ extra) e ↔ Represents found e := by
  constructor
  · intro h
    have hplace : found[e.2]? = some e.1 := by
      rcases Nat.lt_or_ge e.2 found.length with hlt | hge
      · rw [← h.place, List.getElem?_append_left hlt]
      · -- a copy that was added is no better than one that was found earlier
        have hmem : e.1 ∈ extra := by
          have hget := h.place
          rw [List.getElem?_append_right hge] at hget
          exact List.mem_of_getElem? hget
        obtain ⟨p, hp, hid, hle⟩ := hextra e.1 hmem
        have heq := le_antisymm (h.highest p (List.mem_append_left _ hp) hid) hle
        obtain ⟨i, hi⟩ := List.mem_iff_getElem?.mp hp
        have hlt := (List.getElem?_eq_some_iff.mp hi).1
        have hearlier := h.earliest p i (by rw [List.getElem?_append_left hlt, hi]) hid heq
        exact absurd (Nat.lt_of_le_of_lt hearlier hlt) (Nat.not_lt.mpr hge)
    refine ⟨hplace, fun q hq => h.highest q (List.mem_append_left _ hq), fun q i hq => ?_⟩
    refine h.earliest q i ?_
    rw [List.getElem?_append_left (List.getElem?_eq_some_iff.mp hq).1, hq]
  · intro h
    have hlt := (List.getElem?_eq_some_iff.mp h.place).1
    refine ⟨?_, fun q hq hid => ?_, fun q i hq hid heq => ?_⟩
    · rw [List.getElem?_append_left hlt, h.place]
    · rcases List.mem_append.mp hq with hq | hq
      · exact h.highest q hq hid
      · obtain ⟨p, hp, hsame, hle⟩ := hextra q hq
        exact hle.trans (h.highest p hp (hsame.trans hid))
    · rcases Nat.lt_or_ge i found.length with hi | hi
      · rw [List.getElem?_append_left hi] at hq
        exact h.earliest q i hq hid heq
      · exact Nat.le_trans (Nat.le_of_lt hlt) hi

/-! ### What is picked -/

/-- The passages that are picked are the first ones of the ranking. -/
theorem assemble_ranking (h : Scored found) :
    ∃ entries, Ranking found entries ∧ (∀ other, Ranking found other → other = entries) ∧
      (∀ p ∈ found, ∃! e, e ∈ entries ∧ e.1.id = p.id) ∧
      (∀ most, assemble found most = (entries.take most).map Prod.fst) ∧
      (∀ most, ((assemble found most).map Passage.id).Nodup) ∧
      (∀ most more, most ≤ more → assemble found most <+: assemble found more) ∧
      (∀ most, assemble (assemble found most) most = assemble found most) ∧
      ∀ most extra, Scored extra →
        (∀ x ∈ extra, ∃ p ∈ found, p.id = x.id ∧ x.score.value ≤ p.score.value) →
          assemble (found ++ extra) most = assemble found most := by
  obtain ⟨entries, hranking, hmap⟩ := exists_ranking h
  have hnodup : (entries.map fun e => e.1.id).Nodup := by
    have hids := nodup_ids_distinct [] (ranked found)
    rwa [← hmap, List.map_map] at hids
  refine ⟨entries, hranking, fun other hother => hother.unique hranking, fun p hp => ?_,
    hranking.assemble_eq h, fun most => (assemble_best h most).distinct, fun most more hle => ?_,
    fun most => ?_, fun most extra hextra hcopies => ?_⟩
  · have hid : p.id ∈ entries.map fun e => e.1.id := by
      rw [← Function.comp_def, ← List.map_map, hmap, (perm_ids_distinct found).mem_iff,
        List.mem_dedup]
      exact List.mem_map_of_mem hp
    obtain ⟨e, he, hid⟩ := List.mem_map.mp hid
    exact ⟨e, ⟨he, hid⟩, fun b hb => List.inj_on_of_nodup_map hnodup hb.1 he (hb.2.trans hid.symm)⟩
  · rw [assemble, assemble]
    exact List.take_prefix_take_left hle
  · have hbest := assemble_best h most
    have hscored : Scored (assemble found most) := fun p hp => h p (hbest.subset p hp)
    have hlength : (assemble found most).length ≤ most := by
      rw [hbest.length]
      exact Nat.min_le_left _ _
    rw [(ranking_zipIdx hbest.sorted hbest.distinct).assemble_eq hscored, List.map_take,
      List.zipIdx_map_fst, List.take_of_length_le hlength]
  · have hboth : Ranking (found ++ extra) entries := by
      refine ⟨fun e => ?_, hranking.ordered⟩
      rw [represents_append_iff hcopies, hranking.mem_iff]
    have hscored : Scored (found ++ extra) := List.forall_mem_append.mpr ⟨h, hextra⟩
    rw [hboth.assemble_eq hscored, hranking.assemble_eq h]

/-- A passage of a document, with its score in eighths. -/
def excerpt (chunk : Nat) (content : String) (eighths : Nat) : Passage :=
  ⟨⟨chunk⟩, none, content, ⟨0⟩, .finite false eighths (-3)⟩

/-- Three copies of a chunk and a passage of another one. -/
def excerpts : List Passage :=
  [excerpt 1 "first" 3, excerpt 2 "other" 7, excerpt 1 "second" 7, excerpt 1 "third" 7]

/-- The second copy is chosen, behind an equally good passage that was found earlier, and one more
copy that is as good changes nothing. -/
theorem assemble_ranking_excerpts : Scored excerpts ∧
    (∃ entries, Ranking excerpts entries ∧
      (entries.take 2).map Prod.fst = [excerpt 2 "other" 7, excerpt 1 "second" 7]) ∧
    assemble (excerpts ++ [excerpt 1 "fourth" 7]) 2 = assemble excerpts 2 := by
  have hscored : Scored excerpts := by
    unfold Scored
    decide
  have hextra : Scored [excerpt 1 "fourth" 7] := by
    unfold Scored
    decide
  obtain ⟨entries, hranking, -, -, hpicked, -, -, -, hcopies⟩ := assemble_ranking hscored
  refine ⟨hscored, ⟨entries, hranking, ?_⟩, hcopies 2 _ hextra fun x hx => ?_⟩
  · have hworse : (Binary.finite false 3 (-3) : Single).isBelow (.finite false 7 (-3)) = true := by
      decide
    have hequal : (Binary.finite false 7 (-3) : Single).isBelow (.finite false 7 (-3)) = false := by
      decide
    have hranked : ranked excerpts =
        [excerpt 2 "other" 7, excerpt 1 "second" 7, excerpt 1 "third" 7, excerpt 1 "first" 3] := by
      simp [ranked, excerpts, excerpt, List.mergeSort, List.MergeSort.Internal.splitInTwo,
        mayPrecede, hworse, hequal]
    rw [← hpicked 2, assemble, hranked]
    decide
  · obtain rfl := List.mem_singleton.mp hx
    exact ⟨excerpt 1 "second" 7, by decide, rfl, le_refl _⟩

end CorpusAgent.Passage
