import CorpusAgent.Passage
import CorpusAgent.Proofs.Number.Order
import Mathlib.Data.List.Dedup
import Mathlib.Data.List.Nodup

/-!
# The passages a run answers with

* `Passage.Scored`: each passage has a score that is a number.
* `Passage.ranked_sorted`: scored passages are ranked by the values of their scores.
* `Passage.mem_ids_distinct`, `Passage.value_le_of_mem_distinct`: what is left when each chunk
  counts once has every chunk, with its best score.
* `Passage.Best`: passages are the best ones among others.
* `Passage.assemble_best`: so are those that are picked, if all passages are scored.
-/

namespace CorpusAgent.Passage

/-- Each passage has a score. -/
def Scored (ps : List Passage) : Prop := ∀ p ∈ ps, p.score ≠ .nan

/-- No score is below a later one. -/
def Sorted (ps : List Passage) : Prop := ps.Pairwise fun p q => q.score.value ≤ p.score.value

/-- The best passages among those found: each chunk once and at its best score, the better ones
first, and no more than a given number. -/
structure Best (found : List Passage) (most : Nat) (chosen : List Passage) : Prop where
  subset : ∀ p ∈ chosen, p ∈ found
  distinct : (chosen.map Passage.id).Nodup
  sorted : Sorted chosen
  /-- No copy of a chosen passage has a better score. -/
  best : ∀ p ∈ chosen, ∀ q ∈ found, q.id = p.id → q.score.value ≤ p.score.value
  length : chosen.length = min most (found.map Passage.id).dedup.length
  /-- What is left out is no better than what is chosen. -/
  leftOut : ∀ q ∈ found, q.id ∉ chosen.map Passage.id →
    ∀ p ∈ chosen, q.score.value ≤ p.score.value

variable {p q : Passage} {ps : List Passage} {seen : List Uuid}

/-! ### By score -/

theorem mayPrecede_iff (hp : p.score ≠ .nan) (hq : q.score ≠ .nan) :
    p.mayPrecede q = true ↔ q.score.value ≤ p.score.value := by
  rw [mayPrecede, Bool.not_eq_true', ← Bool.not_eq_true, Binary.isBelow_iff hp hq, not_lt]

/-- Scored passages are sorted by the values of their scores, which is a total order. -/
theorem ranked_eq (h : Scored ps) :
    ranked ps = ps.mergeSort fun p q => decide (q.score.value ≤ p.score.value) := by
  have hsame : ∀ p ∈ ps, ∀ q ∈ ps,
      p.mayPrecede q = decide (q.score.value ≤ p.score.value) := by
    intro p hp q hq
    rw [Bool.eq_iff_iff, mayPrecede_iff (h p hp) (h q hq), decide_eq_true_iff]
  have hmap := List.map_mergeSort (f := fun p : Passage => p)
    (s := fun p q : Passage => decide (q.score.value ≤ p.score.value)) hsame
  rwa [List.map_id', List.map_id'] at hmap

theorem ranked_sorted (h : Scored ps) : Sorted (ranked ps) := by
  rw [ranked_eq h]
  refine (List.pairwise_mergeSort ?_ ?_ ps).imp ?_
  · intro a b c hab hbc
    rw [decide_eq_true_iff] at hab hbc ⊢
    exact hbc.trans hab
  · intro a b
    rw [Bool.or_eq_true, decide_eq_true_iff, decide_eq_true_iff]
    exact le_total _ _
  · intro a b hab
    exact of_decide_eq_true hab

theorem mem_ranked : p ∈ ranked ps ↔ p ∈ ps := List.mem_mergeSort

/-! ### Each chunk once -/

theorem distinct_cons_of_mem (h : p.id ∈ seen) : distinct seen (p :: ps) = distinct seen ps := by
  rw [distinct, if_pos (List.contains_iff_mem.mpr h)]

theorem distinct_cons_of_not_mem (h : p.id ∉ seen) :
    distinct seen (p :: ps) = p :: distinct (p.id :: seen) ps := by
  rw [distinct, if_neg (mt List.contains_iff_mem.mp h)]

theorem distinct_sublist (seen : List Uuid) (ps : List Passage) :
    (distinct seen ps).Sublist ps := by
  induction ps generalizing seen with
  | nil => exact .slnil
  | cons p ps ih =>
    by_cases hseen : p.id ∈ seen
    · rw [distinct_cons_of_mem hseen]
      exact (ih seen).cons p
    · rw [distinct_cons_of_not_mem hseen]
      exact (ih (p.id :: seen)).cons_cons p

theorem mem_ids_distinct {i : Uuid} :
    i ∈ (distinct seen ps).map Passage.id ↔ i ∉ seen ∧ i ∈ ps.map Passage.id := by
  induction ps generalizing seen with
  | nil => simp [distinct]
  | cons p ps ih =>
    by_cases hseen : p.id ∈ seen
    · rw [distinct_cons_of_mem hseen, ih, List.map_cons, List.mem_cons]
      constructor
      · rintro ⟨hnew, hmem⟩
        exact ⟨hnew, .inr hmem⟩
      · rintro ⟨hnew, rfl | hmem⟩
        · exact absurd hseen hnew
        · exact ⟨hnew, hmem⟩
    · rw [distinct_cons_of_not_mem hseen, List.map_cons, List.mem_cons, ih, List.map_cons,
        List.mem_cons, List.mem_cons]
      by_cases hfirst : i = p.id
      · subst hfirst
        exact ⟨fun _ => ⟨hseen, .inl rfl⟩, fun _ => .inl rfl⟩
      · simp [hfirst]

theorem nodup_ids_distinct (seen : List Uuid) (ps : List Passage) :
    ((distinct seen ps).map Passage.id).Nodup := by
  induction ps generalizing seen with
  | nil => exact .nil
  | cons p ps ih =>
    by_cases hseen : p.id ∈ seen
    · rw [distinct_cons_of_mem hseen]
      exact ih seen
    · rw [distinct_cons_of_not_mem hseen, List.map_cons, List.nodup_cons]
      refine ⟨fun hmem => ?_, ih (p.id :: seen)⟩
      exact (mem_ids_distinct.mp hmem).1 List.mem_cons_self

/-- Of sorted passages the first copy of a chunk is left, so no other has a better score. -/
theorem value_le_of_mem_distinct (hsorted : Sorted ps) (hp : p ∈ distinct seen ps) (hq : q ∈ ps)
    (hid : q.id = p.id) : q.score.value ≤ p.score.value := by
  induction ps generalizing seen with
  | nil => cases hq
  | cons a ps ih =>
    obtain ⟨hfirst, hrest⟩ := List.pairwise_cons.mp hsorted
    have hnew := (mem_ids_distinct.mp (List.mem_map_of_mem hp)).1
    by_cases hseen : a.id ∈ seen
    · rw [distinct_cons_of_mem hseen] at hp
      rcases List.mem_cons.mp hq with rfl | hq
      · rw [hid] at hseen
        exact absurd hseen hnew
      · exact ih hrest hp hq
    · rw [distinct_cons_of_not_mem hseen] at hp
      rcases List.mem_cons.mp hp with rfl | hp
      · rcases List.mem_cons.mp hq with rfl | hq
        · exact le_refl _
        · exact hfirst q hq
      · have hother := (mem_ids_distinct.mp (List.mem_map_of_mem hp)).1
        rcases List.mem_cons.mp hq with rfl | hq
        · rw [hid] at hother
          exact absurd List.mem_cons_self hother
        · exact ih hrest hp hq

/-! ### No more than a given number -/

theorem perm_ids_distinct (ps : List Passage) :
    ((distinct [] (ranked ps)).map Passage.id).Perm (ps.map Passage.id).dedup := by
  rw [List.perm_ext_iff_of_nodup (nodup_ids_distinct _ _) (List.nodup_dedup _)]
  intro i
  rw [mem_ids_distinct, List.mem_dedup, List.mem_map, List.mem_map]
  simp only [mem_ranked, List.not_mem_nil, not_false_eq_true, true_and]

/-- The passages that are picked are the best ones. -/
theorem assemble_best (h : Scored ps) (most : Nat) : Best ps most (assemble ps most) := by
  have hsorted := ranked_sorted h
  have hsublist := distinct_sublist [] (ranked ps)
  have hbest : ∀ p ∈ distinct [] (ranked ps), ∀ q ∈ ps, q.id = p.id →
      q.score.value ≤ p.score.value := by
    intro p hp q hq hid
    exact value_le_of_mem_distinct hsorted hp (mem_ranked.mpr hq) hid
  have hchosen : ∀ p ∈ assemble ps most, p ∈ distinct [] (ranked ps) := by
    intro p hp
    exact List.mem_of_mem_take hp
  exact {
    subset := fun p hp => mem_ranked.mp (hsublist.subset (hchosen p hp))
    distinct := by
      rw [assemble, List.map_take]
      exact (nodup_ids_distinct _ _).sublist (List.take_sublist _ _)
    sorted := List.Pairwise.sublist ((List.take_sublist _ _).trans hsublist) hsorted
    best := fun p hp => hbest p (hchosen p hp)
    length := by
      rw [assemble, List.length_take, ← (perm_ids_distinct ps).length_eq, List.length_map]
    leftOut := by
      intro q hq hout p hp
      -- the chunk is among those that were cut off, behind all that are chosen
      have hid : q.id ∈ (distinct [] (ranked ps)).map Passage.id := by
        rw [(perm_ids_distinct ps).mem_iff, List.mem_dedup]
        exact List.mem_map_of_mem hq
      obtain ⟨other, hother, hsame⟩ := List.mem_map.mp hid
      have hcut : other ∈ (distinct [] (ranked ps)).drop most := by
        rw [← List.take_append_drop most (distinct [] (ranked ps))] at hother
        rcases List.mem_append.mp hother with htake | hdrop
        · exact absurd (hsame ▸ List.mem_map_of_mem htake) hout
        · exact hdrop
      have hbehind : other.score.value ≤ p.score.value := by
        have hall : Sorted (distinct [] (ranked ps)) := List.Pairwise.sublist hsublist hsorted
        rw [Sorted, ← List.take_append_drop most (distinct [] (ranked ps)),
          List.pairwise_append] at hall
        exact hall.2.2 p hp other hcut
      exact (hbest other hother q hq hsame.symm).trans hbehind }

end CorpusAgent.Passage
