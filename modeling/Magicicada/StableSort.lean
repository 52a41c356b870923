import Mathlib.Data.List.Lex
import Mathlib.Tactic

/-!
Sorting a list by a key so that elements with the same key keep their order.
-/

namespace Magicicada.StableSort

variable {α κ : Type} [LinearOrder κ] (key : α → κ)

/-- `sorted(l, key=key)`. -/
def sorted (l : List α) : List α := l.mergeSort fun a b => decide (key a ≤ key b)

/-- The second list is the first one sorted by the key, and elements with one key come in the
order they had. -/
structure SortedBy (l l' : List α) : Prop where
  perm : l'.Perm l
  sorted : l'.Pairwise fun a b => key a ≤ key b
  stable : ∀ k, l'.filter (fun a => key a = k) = l.filter fun a => key a = k

variable {l l' l'' : List α}

lemma le_trans_key (a b c : α) (hab : decide (key a ≤ key b) = true)
    (hbc : decide (key b ≤ key c) = true) : decide (key a ≤ key c) = true := by
  rw [decide_eq_true_iff] at *
  exact hab.trans hbc

lemma le_total_key (a b : α) : (decide (key a ≤ key b) || decide (key b ≤ key a)) = true := by
  rw [Bool.or_eq_true, decide_eq_true_iff, decide_eq_true_iff]
  exact le_total _ _

variable {key}

/-- A sublist of elements with one key is found after sorting. -/
lemma filter_sublist_sorted (key : α → κ) (l : List α) (k : κ) :
    (l.filter fun a => key a = k).Sublist (sorted key l) := by
  refine List.sublist_mergeSort (le_trans_key key) (le_total_key key) ?_ List.filter_sublist
  rw [List.pairwise_iff_forall_sublist]
  intro a b hab
  have hmem : ∀ c ∈ [a, b], key c = k := by
    intro c hc
    have := hab.subset hc
    rw [List.mem_filter, decide_eq_true_iff] at this
    exact this.2
  rw [decide_eq_true_iff, hmem a (by simp), hmem b (by simp)]

theorem sortedBy_sorted (key : α → κ) (l : List α) : SortedBy key l (sorted key l) where
  perm := List.mergeSort_perm ..
  sorted := by
    have h := List.pairwise_mergeSort (le_trans_key key) (le_total_key key) l
    simpa only [StableSort.sorted, decide_eq_true_iff] using h
  stable k := by
    have hsub := (filter_sublist_sorted key l k).filter fun a => key a = k
    have hperm : ((sorted key l).filter fun a => key a = k).Perm (l.filter fun a => key a = k) :=
      (List.mergeSort_perm l _).filter _
    rw [List.filter_filter] at hsub
    simp only [Bool.and_self] at hsub
    exact (hsub.eq_of_length hperm.length_eq.symm).symm

/-- What is in a list is in the part with its key. -/
lemma mem_of_filters (h : ∀ k, l.filter (fun a => key a = k) = l'.filter fun a => key a = k)
    {a : α} (ha : a ∈ l) : a ∈ l' := by
  have hmem : a ∈ l.filter fun b => key b = key a := by simpa using ha
  rw [h] at hmem
  exact List.mem_of_mem_filter hmem

/-- A sorted list is known from its parts with one key. -/
lemma eq_of_filters (hl : l.Pairwise fun a b => key a ≤ key b)
    (hl' : l'.Pairwise fun a b => key a ≤ key b)
    (h : ∀ k, l.filter (fun a => key a = k) = l'.filter fun a => key a = k) : l = l' := by
  induction l generalizing l' with
  | nil =>
    cases l' with
    | nil => rfl
    | cons b u => exact absurd (mem_of_filters (fun k => (h k).symm) List.mem_cons_self) (by simp)
  | cons a t ih =>
    cases l' with
    | nil => exact absurd (mem_of_filters h List.mem_cons_self) (by simp)
    | cons b u =>
      rw [List.pairwise_cons] at hl hl'
      have hba : key b ≤ key a := by
        rcases List.mem_cons.mp (mem_of_filters h List.mem_cons_self) with rfl | hmem
        · exact le_rfl
        · exact hl'.1 a hmem
      have hab : key a ≤ key b := by
        have hmem := mem_of_filters (fun k => (h k).symm) (List.mem_cons_self (a := b) (l := u))
        rcases List.mem_cons.mp hmem with rfl | hmem
        · exact le_rfl
        · exact hl.1 b hmem
      -- the first elements have one key, so they begin its part
      have hfirst := h (key a)
      rw [List.filter_cons_of_pos (by simp),
        List.filter_cons_of_pos (by simpa using le_antisymm hba hab)] at hfirst
      obtain ⟨rfl, -⟩ := List.cons.inj hfirst
      refine congrArg (a :: ·) (ih hl.2 hl'.2 fun k => ?_)
      have hk := h k
      by_cases hak : key a = k
      · rw [List.filter_cons_of_pos (by simpa using hak),
          List.filter_cons_of_pos (by simpa using hak)] at hk
        exact (List.cons.inj hk).2
      · rwa [List.filter_cons_of_neg (by simpa using hak),
          List.filter_cons_of_neg (by simpa using hak)] at hk

/-- **Sorting is determined.** -/
theorem SortedBy.unique (h' : SortedBy key l l') (h'' : SortedBy key l l'') : l' = l'' :=
  eq_of_filters h'.sorted h''.sorted fun k => (h'.stable k).trans (h''.stable k).symm

/-- **Sorting forgets the order of elements whose keys are distinct.** -/
theorem sorted_congr (h : l.Perm l') (hkeys : (l.map key).Nodup) :
    sorted key l = sorted key l' := by
  have hl := sortedBy_sorted key l
  have hl' := sortedBy_sorted key l'
  refine List.Perm.eq_of_pairwise (fun a b ha hb hab hba => ?_) hl.sorted hl'.sorted
    (hl.perm.trans (h.trans hl'.perm.symm))
  have hb' : b ∈ l := h.mem_iff.mpr (hl'.perm.mem_iff.mp hb)
  exact List.inj_on_of_nodup_map hkeys (hl.perm.mem_iff.mp ha) hb' (le_antisymm hab hba)

/-- Sorting again changes nothing. -/
lemma SortedBy.again (h : SortedBy key l l') : SortedBy key l' l' :=
  ⟨List.Perm.refl _, h.sorted, fun _ => rfl⟩

end Magicicada.StableSort
