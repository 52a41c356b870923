import Magicicada.Bytes

/-!
Cutting a stream of bytes into lines, one byte at a time.

A line ends with CR LF. Each line is handed to a reader with a state of its own, which goes on,
gives up or is done; what follows the line it was done with is kept.
-/

namespace Magicicada.LineScan

open Bytes

/-- What a reader says about a line. -/
inductive Answer (σ : Type)
  | next (s : σ)
  | fail
  | done

/-- The state of the scan: reading a line of which something was read, or at an end. -/
inductive State (σ : Type)
  | reading (s : σ) (line : Bytes)
  | failed
  | done (rest : Bytes)
  deriving DecidableEq

variable {σ : Type}

/-- The state after a line. -/
def Answer.state : Answer σ → State σ
  | .next s => .reading s []
  | .fail => .failed
  | .done => .done []

variable (read : σ → Bytes → Answer σ)

def step : State σ → UInt8 → State σ
  | .reading s l, b =>
    if b = lf ∧ l.getLast? = some cr then (read s l.dropLast).state else .reading s (l ++ [b])
  | .failed, _ => .failed
  | .done rest, b => .done (rest ++ [b])

def run (s : State σ) (bs : Bytes) : State σ := bs.foldl (step read) s

variable {read} {s s' : σ} {l x y : Bytes}

@[simp] lemma run_nil (t : State σ) : run read t [] = t := rfl

@[simp] lemma run_cons (t : State σ) (b : UInt8) (bs : Bytes) :
    run read t (b :: bs) = run read (step read t b) bs := rfl

lemma run_append (t : State σ) (bs bs' : Bytes) :
    run read t (bs ++ bs') = run read (run read t bs) bs' := List.foldl_append ..

@[simp] lemma run_failed (bs : Bytes) : run read .failed bs = .failed := by
  induction bs with
  | nil => rfl
  | cons b bs ih => exact ih

@[simp] lemma run_done (rest bs : Bytes) : run read (.done rest) bs = .done (rest ++ bs) := by
  induction bs generalizing rest with
  | nil => simp
  | cons b bs ih =>
    rw [run_cons, step, ih]
    simp

/-- Inside a line. -/
lemma run_partial (h : ¬[cr, lf] <:+: l ++ x) :
    run read (.reading s l) x = .reading s (l ++ x) := by
  induction x generalizing l with
  | nil => simp
  | cons b x ih =>
    have hb : ¬(b = lf ∧ l.getLast? = some cr) := by
      rintro ⟨rfl, hcr⟩
      obtain ⟨l', rfl⟩ := List.getLast?_eq_some_iff.mp hcr
      exact h ⟨l', x, by simp⟩
    have happ : l ++ b :: x = (l ++ [b]) ++ x := by simp
    rw [run_cons, step, if_neg hb, ih (happ ▸ h), happ]

lemma run_line_start (h : ¬[cr, lf] <:+: x) : run read (.reading s []) x = .reading s x :=
  run_partial (l := []) h

/-- A whole line. -/
lemma run_line (h : ¬[cr, lf] <:+: l) (x : Bytes) :
    run read (.reading s []) (l ++ cr :: lf :: x) = run read (read s l).state x := by
  have hsplit : l ++ cr :: lf :: x = (l ++ [cr]) ++ lf :: x := by simp
  calc run read (.reading s []) (l ++ cr :: lf :: x)
      = run read (.reading s (l ++ [cr])) (lf :: x) := by
        rw [hsplit, run_append, run_line_start (not_infix_snoc_cr h)]
    _ = run read (read s l).state x := by simp [step]

/-- A line goes on, or it ends and the reader is asked. -/
lemma run_cases (s : σ) (l y : Bytes) : run read (.reading s l) y = .reading s (l ++ y) ∨
    ∃ x z, y = x ++ lf :: z ∧ (l ++ x).getLast? = some cr ∧
      run read (.reading s l) y = run read (read s (l ++ x).dropLast).state z := by
  induction y generalizing l with
  | nil => simp
  | cons b y ih =>
    rw [run_cons, step]
    split
    · next hb => exact Or.inr ⟨[], y, by simp [hb.1], by simpa using hb.2, by simp⟩
    · rcases ih (l ++ [b]) with he | ⟨x, z, rfl, hcr, he⟩
      · exact Or.inl (by simpa using he)
      · exact Or.inr ⟨b :: x, z, rfl, by simpa using hcr, by simpa using he⟩

/-- What was read of a line is the end of the stream, without CR LF in it. -/
lemma reading_suffix (h : run read (.reading s []) x = .reading s' l) :
    ¬[cr, lf] <:+: l ∧ ∃ p, x = p ++ l ∧ run read (.reading s []) p = .reading s' [] := by
  induction x using List.reverseRecOn generalizing s' l with
  | nil =>
    cases h
    exact ⟨by simp, [], rfl, rfl⟩
  | append_singleton x b ih =>
    rw [run_append] at h
    cases ht : run read (.reading s []) x with
    | failed => rw [ht, run_failed] at h; cases h
    | done rest => rw [ht, run_done] at h; cases h
    | reading t k =>
      obtain ⟨hk, p, rfl, hp⟩ := ih ht
      rw [ht, run_cons, run_nil, step] at h
      split at h
      · -- the line before ended here
        cases ha : read t k.dropLast with
        | fail => rw [ha] at h; cases h
        | done => rw [ha] at h; cases h
        | next t' =>
          rw [ha] at h
          cases h
          refine ⟨by simp, p ++ k ++ [b], by simp, ?_⟩
          rw [run_append, ht, run_cons, run_nil, step, if_pos ‹_›, ha]
          rfl
      · next hb =>
        cases h
        refine ⟨?_, p, by simp, hp⟩
        rintro ⟨u, v, huv⟩
        rcases List.eq_nil_or_concat v with rfl | ⟨v, c, rfl⟩
        · rw [List.append_nil, show u ++ [cr, lf] = (u ++ [cr]) ++ [lf] by simp] at huv
          obtain ⟨rfl, hlf⟩ := List.append_inj' huv rfl
          cases hlf
          exact hb ⟨rfl, by simp⟩
        · rw [List.concat_eq_append, ← List.append_assoc] at huv
          obtain ⟨rfl, -⟩ := List.append_inj' huv rfl
          exact hk ⟨u, v, rfl⟩

/-- What follows is shorter than what is read. -/
lemma run_done_shorter {rest : Bytes}
    (h : run read (.reading s l) x = .done rest) : rest.length < x.length := by
  induction x generalizing s l with
  | nil => cases h
  | cons b x ih =>
    rw [run_cons, step] at h
    rw [List.length_cons]
    split at h
    · cases ha : read s l.dropLast with
      | next s' =>
        rw [ha] at h
        exact (ih h).trans (Nat.lt_succ_self _)
      | fail =>
        rw [ha, Answer.state, run_failed] at h
        cases h
      | done =>
        rw [ha, Answer.state, run_done, List.nil_append] at h
        cases h
        exact Nat.lt_succ_self _
    · exact (ih h).trans (Nat.lt_succ_self _)

end Magicicada.LineScan
