import Mathlib.Tactic

/-!
A queue that is served once in each round.

Jobs come in rounds, and how many came is a function of the rounds so far. A round serves the job
that waits longest, if one waits. So the number of jobs served is the least, over the moments at
which the queue may have been empty, of those that came before and the rounds since.
-/

namespace Magicicada

variable {α : Type} {came : List α → ℕ} {rounds : List α} {d : α} {n : ℕ}

/-- After these rounds that many jobs were served. -/
def Served (came : List α → ℕ) (rounds : List α) (n : ℕ) : Prop :=
  IsLeast {k | ∃ pre post, rounds = pre ++ post ∧ k = came pre + post.length} n

lemma served_nil (h : came [] = 0) : Served came [] 0 :=
  ⟨⟨[], [], rfl, by simp [h]⟩, fun _ _ => Nat.zero_le _⟩

/-- **A round** serves one more job, if one waits. -/
lemma Served.snoc (h : Served came rounds n) (d : α) :
    Served came (rounds ++ [d]) (min (n + 1) (came (rounds ++ [d]))) := by
  obtain ⟨⟨pre, post, rfl, rfl⟩, hleast⟩ := h
  constructor
  · rcases min_choice (came pre + post.length + 1) (came (pre ++ post ++ [d])) with hmin | hmin
    · refine ⟨pre, post ++ [d], List.append_assoc .., hmin.trans ?_⟩
      rw [List.length_append, List.length_singleton, Nat.add_assoc]
    · exact ⟨pre ++ post ++ [d], [], (List.append_nil _).symm, hmin⟩
  · rintro k ⟨a, b, hab, rfl⟩
    rcases List.eq_nil_or_concat b with rfl | ⟨b, e, rfl⟩
    · rw [List.append_nil] at hab
      simp [hab]
    · rw [List.concat_eq_append, ← List.append_assoc] at hab
      obtain ⟨hab, -⟩ := List.append_inj' hab rfl
      have hle := hleast ⟨a, b, hab, rfl⟩
      rw [List.concat_eq_append, List.length_append, List.length_singleton]
      omega

/-- No job waits when the last round begins, or comes in it, if each job has rounds enough. -/
lemma Served.le_iff (h : Served came rounds n) (m : ℕ) : m ≤ n ↔
    ∀ pre e post, rounds ++ [d] = pre ++ e :: post → m ≤ came pre + post.length := by
  obtain ⟨hmem, hleast⟩ := h
  constructor
  · intro hm pre e post hsplit
    rcases List.eq_nil_or_concat post with rfl | ⟨post, e', rfl⟩
    · obtain ⟨rfl, -⟩ := List.append_inj' hsplit rfl
      exact hm.trans (hleast ⟨rounds, [], by simp, rfl⟩)
    · rw [List.concat_eq_append, ← List.cons_append, ← List.append_assoc] at hsplit
      obtain ⟨hsplit, -⟩ := List.append_inj' hsplit rfl
      simpa using hm.trans (hleast ⟨pre, e :: post, hsplit, rfl⟩)
  · rintro hm
    obtain ⟨pre, post, rfl, rfl⟩ := hmem
    cases post with
    | nil => exact hm pre d [] (by simp)
    | cons e post => simpa using hm pre e (post ++ [d]) (by simp)

end Magicicada
