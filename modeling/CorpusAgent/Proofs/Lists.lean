import Mathlib.Data.List.Perm.Subperm
import Mathlib.Data.List.Sort

/-!
# Lists

* `exists_forall₂_iff`, `exists_of_getElem?`, `forall₂_of_common`, `pairwise_of_forall₂`: lists that
  are related element by element.
* `exists_stable`: what is sorted has places, and elements that rank equally keep theirs.
* `eq_range_of_ascending`: ascending numbers that are below their count are all of these.
* `eq_or_mem_of_append_eq_concat`: what stands in a list is the last element or comes before it.
-/

namespace CorpusAgent

variable {α β : Type}

/-- Each element is related to something just if the whole list is. -/
theorem exists_forall₂_iff {R : α → β → Prop} {as : List α} :
    (∃ bs, List.Forall₂ R as bs) ↔ ∀ a ∈ as, ∃ b, R a b := by
  induction as with
  | nil => exact iff_of_true ⟨[], .nil⟩ fun a ha => absurd ha List.not_mem_nil
  | cons a as ih =>
    rw [List.forall_mem_cons, ← ih]
    constructor
    · rintro ⟨bs, h⟩
      obtain ⟨b, rest, hb, hrest, rfl⟩ := List.forall₂_cons_left_iff.mp h
      exact ⟨⟨b, hb⟩, rest, hrest⟩
    · rintro ⟨⟨b, hb⟩, rest, hrest⟩
      exact ⟨b :: rest, .cons hb hrest⟩

theorem exists_of_getElem? {R : α → β → Prop} {as : List α} {bs : List β}
    (h : List.Forall₂ R as bs) {i : Nat} {a : α} (ha : as[i]? = some a) :
    ∃ b, bs[i]? = some b ∧ R a b := by
  induction h generalizing i with
  | nil => cases ha
  | @cons a' b as bs hab _ ih =>
    cases i with
    | zero =>
      obtain rfl : a' = a := Option.some.inj ha
      exact ⟨b, rfl, hab⟩
    | succ i => exact ih ha

theorem forall₂_of_common {γ : Type} {R : α → β → Prop} {S : α → γ → Prop} {as : List α}
    {bs : List β} {cs : List γ} (h : List.Forall₂ R as bs) (g : List.Forall₂ S as cs) :
    List.Forall₂ (fun b c => ∃ a, R a b ∧ S a c) bs cs := by
  induction h generalizing cs with
  | nil =>
    cases g
    exact .nil
  | @cons a b as bs hab _ ih =>
    obtain ⟨c, cs, hac, hg, rfl⟩ := List.forall₂_cons_left_iff.mp g
    exact .cons ⟨a, hab, hac⟩ (ih hg)

theorem pairwise_of_forall₂ {R : α → β → Prop} {P : α → α → Prop} {Q : β → β → Prop}
    {as : List α} {bs : List β} (h : List.Forall₂ R as bs) (hP : as.Pairwise P)
    (hQ : ∀ a a' b b', R a b → R a' b' → P a a' → Q b b') : bs.Pairwise Q := by
  induction h with
  | nil => exact .nil
  | @cons a b as bs hab h ih =>
    obtain ⟨hfirst, hrest⟩ := List.pairwise_cons.mp hP
    refine .cons (fun b' hb' => ?_) (ih hrest)
    obtain ⟨i, hi⟩ := List.mem_iff_getElem?.mp hb'
    obtain ⟨a', ha', hab'⟩ := exists_of_getElem? h.flip hi
    exact hQ a a' b b' hab hab' (hfirst a' (List.mem_of_getElem? ha'))

/-- What is sorted has places in the list; elements that rank equally keep their order. -/
theorem exists_stable {le : α → α → Bool} (htrans : ∀ a b c, le a b → le b c → le a c)
    (htotal : ∀ a b, (le a b || le b a) = true) (as : List α) :
    ∃ placed : List (α × Nat), placed.map Prod.fst = as.mergeSort le ∧ placed.Perm as.zipIdx ∧
      placed.Pairwise fun a b => le a.1 b.1 ∧ (le b.1 a.1 → a.2 < b.2) := by
  have hperm := List.mergeSort_perm as.zipIdx (List.zipIdxLE le)
  have hsorted := List.pairwise_mergeSort (List.zipIdxLE_trans htrans)
    (List.zipIdxLE_total htotal) as.zipIdx
  -- the places are those of the list, each once
  have hplaces : (as.zipIdx.mergeSort (List.zipIdxLE le)).Pairwise fun a b => a.2 ≠ b.2 := by
    have hnodup : (as.zipIdx.map Prod.snd).Nodup := by
      rw [List.zipIdx_map_snd]
      exact List.nodup_range'
    rw [← List.pairwise_map]
    exact hnodup.perm (hperm.map _).symm
  refine ⟨_, List.mergeSort_zipIdx, hperm, (hsorted.and hplaces).imp ?_⟩
  rintro a b ⟨hle, hne⟩
  rw [List.zipIdxLE] at hle
  split at hle
  case isTrue hab =>
    refine ⟨hab, fun hba => ?_⟩
    rw [if_pos hba] at hle
    exact Nat.lt_of_le_of_ne (of_decide_eq_true hle) hne
  case isFalse => cases hle

theorem eq_range_of_ascending {is : List Nat} (h : is.Pairwise (· < ·))
    (hlt : ∀ i ∈ is, i < is.length) : is = List.range is.length := by
  have hsub : is ⊆ List.range is.length := fun i hi => List.mem_range.mpr (hlt i hi)
  have hnodup : is.Nodup := h.imp Nat.ne_of_lt
  have hperm : is.Perm (List.range is.length) :=
    (List.subperm_of_subset hnodup hsub).perm_of_length_le (List.length_range).le
  refine List.Perm.eq_of_pairwise (fun i j _ _ hij hji => ?_) h List.pairwise_lt_range hperm
  omega

/-- What stands in a place of a list is its last element, with nothing after it, or comes before. -/
theorem eq_or_mem_of_append_eq_concat {front rest others : List α} {a b : α}
    (h : front ++ a :: rest = others ++ [b]) : rest = [] ∧ a = b ∨ a ∈ others := by
  rcases rest.eq_nil_or_concat' with rfl | ⟨middle, c, rfl⟩
  · exact .inl ⟨rfl, (List.cons.inj (List.append_inj' h rfl).2).1⟩
  · rw [← List.cons_append, ← List.append_assoc] at h
    obtain ⟨rfl, -⟩ := List.append_inj' h rfl
    exact .inr (List.mem_append_right front List.mem_cons_self)

end CorpusAgent
