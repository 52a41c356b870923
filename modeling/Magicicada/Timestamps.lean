import Magicicada.Runs

/-!
The time of the server: `BaseTimestampChecker`.

A call of `get_faithful_time` reads the local time, asks the server when a check is due, and
writes `next_check` and `skew` when the answer comes, with the local time it read before it
asked. Each call made while a check is in flight makes a check of its own, so an answer may come
after the answer to a check that was started later. Nothing is undone in the runs in which no
answer comes that an earlier answer has overtaken.
-/

namespace Magicicada.Timestamps

open Runs

/-- `CHECKING_INTERVAL`. -/
def checkingInterval : ℚ := 60 * 60

/-- `ERROR_INTERVAL`. -/
def errorInterval : ℚ := 30

structure Checker where
  nextCheck : ℚ
  skew : ℚ

/-- `__init__`, at a local time. -/
def Checker.init (now : ℚ) : Checker := { nextCheck := now, skew := 0 }

/-- What `get_server_time` ends with. -/
inductive Answer
  | time (serverTime : ℚ)
  | failure

/-- What `get_faithful_time` does once the server has answered the check of a local time. -/
def Checker.checked (k : Checker) (localTime : ℚ) : Answer → Checker
  | .time serverTime =>
    { nextCheck := localTime + checkingInterval, skew := serverTime - localTime }
  | .failure => { k with nextCheck := localTime + errorInterval }

/-- `int(x)`, which rounds towards zero. -/
def int (x : ℚ) : ℤ := x.num.tdiv x.den

/-- `int(local_time + self.skew)`. -/
def Checker.faithfulTime (k : Checker) (localTime : ℚ) : ℤ := int (localTime + k.skew)

/-! ### Calls and answers -/

/-- A call that asked the server, and the answer if it has come. -/
structure Check where
  localTime : ℚ
  answer : Option Answer := none

structure State where
  checker : Checker
  clock : ℚ
  /-- In the order in which they were started. -/
  checks : List Check := []
  /-- What the calls returned. -/
  returned : List ℤ := []

def State.init (now : ℚ) : State := { checker := .init now, clock := now }

inductive Event
  /-- A call of `get_faithful_time` at a local time. -/
  | call (localTime : ℚ)
  /-- The answer to the i-th check. -/
  | answer (i : ℕ) (a : Answer)

def step (s : State) : Event → State
  | .call t =>
    if s.checker.nextCheck ≤ t then
      { s with clock := t, checks := s.checks ++ [{ localTime := t }] }
    else { s with clock := t, returned := s.returned ++ [s.checker.faithfulTime t] }
  | .answer i a =>
    match s.checks[i]? with
    | none => s
    | some c =>
      let k := s.checker.checked c.localTime a
      { s with
        checker := k
        checks := s.checks.set i { c with answer := some a }
        returned := s.returned ++ [k.faithfulTime c.localTime] }

/-- The clock does not go back, and a check in flight is answered. -/
def Admits (s : State) : Event → Prop
  | .call t => s.clock ≤ t
  | .answer i _ => ∃ c, s.checks[i]? = some c ∧ c.answer = none

/-! ### What is measured, and what is undone -/

/-- The skew a successful check measured. -/
def Check.skew (c : Check) : Option ℚ :=
  match c.answer with
  | some (.time serverTime) => some (serverTime - c.localTime)
  | _ => none

/-- The skew measured by the successful check that was started last. -/
def lastSkew (checks : List Check) : ℚ := (checks.filterMap Check.skew).getLast?.getD 0

/-- The answer `a` to the check `c`, which is the i-th, comes too late after the answer `b` to
the check `d`, which is the j-th. -/
def Undoes (i : ℕ) (c : Check) (a : Answer) (j : ℕ) (d : Check) (b : Answer) : Prop :=
  match a, b with
  | .time _, .time _ => i < j
  | .time _, .failure => c.localTime + (checkingInterval - errorInterval) < d.localTime
  | .failure, .time _ => c.localTime < d.localTime + (checkingInterval - errorInterval)
  | .failure, .failure => c.localTime < d.localTime

/-- An answer undoes none that was given before. -/
def InTime (s : State) : Event → Prop
  | .call _ => True
  | .answer i a => ∀ c, s.checks[i]? = some c →
      ∀ j d b, s.checks[j]? = some d → d.answer = some b → ¬ Undoes i c a j d b

/-- How long the answer to a check holds. -/
def Answer.interval : Answer → ℚ
  | .time _ => checkingInterval
  | .failure => errorInterval

lemma Answer.interval_nonneg (a : Answer) : 0 ≤ a.interval := by
  cases a <;> simp [Answer.interval, checkingInterval, errorInterval]

/-- Unless both answers tell a time, one undoes the other by bringing the next check forward. -/
lemma undoes_iff_lt {i j : ℕ} {c d : Check} {a b : Answer} (h : a = .failure ∨ b = .failure) :
    Undoes i c a j d b ↔ c.localTime + a.interval < d.localTime + b.interval := by
  cases a <;> cases b <;> simp only [Undoes, Answer.interval] at h ⊢
  · simp at h
  all_goals constructor <;> intro hlt <;> linarith

lemma Checker.checked_nextCheck (k : Checker) (t : ℚ) (a : Answer) :
    (k.checked t a).nextCheck = t + a.interval := by cases a <;> rfl

/-! ### A step -/

lemma step_answer {s : State} {i : ℕ} {c : Check} (hc : s.checks[i]? = some c) (a : Answer) :
    step s (.answer i a) = { s with
      checker := s.checker.checked c.localTime a
      checks := s.checks.set i { c with answer := some a }
      returned := s.returned ++ [(s.checker.checked c.localTime a).faithfulTime c.localTime] } := by
  simp [step, hc]

/-- What holds while nothing is undone. -/
structure Settled (s : State) : Prop where
  sorted : (s.checks.map Check.localTime).Pairwise (· ≤ ·)
  clock : ∀ c ∈ s.checks, c.localTime ≤ s.clock
  nextCheck : (∀ c ∈ s.checks, s.checker.nextCheck ≤ c.localTime) ∨
    ∃ (j : ℕ) (d : Check) (b : Answer), s.checks[j]? = some d ∧ d.answer = some b ∧
      s.checker.nextCheck = d.localTime + b.interval
  held : ∀ d ∈ s.checks, ∀ b, d.answer = some b →
    d.localTime + b.interval ≤ s.checker.nextCheck
  skew : s.checker.skew = lastSkew s.checks

lemma settled_init (now : ℚ) : Settled (State.init now) where
  sorted := by simp [State.init]
  clock := by simp [State.init]
  nextCheck := Or.inl (by simp [State.init])
  held := by simp [State.init]
  skew := rfl

/-- Checks are started at local times in order. -/
lemma Settled.localTime_le {s : State} (h : Settled s) {i j : ℕ} {c d : Check}
    (hc : s.checks[i]? = some c) (hd : s.checks[j]? = some d) (hij : i ≤ j) :
    c.localTime ≤ d.localTime := by
  obtain ⟨hi, rfl⟩ := List.getElem?_eq_some_iff.mp hc
  obtain ⟨hj, rfl⟩ := List.getElem?_eq_some_iff.mp hd
  rcases hij.eq_or_lt with rfl | hlt
  · exact le_refl _
  · exact List.pairwise_iff_getElem.mp (List.pairwise_map.mp h.sorted) i j hi hj hlt

/-- **An answer that undoes none before it does not bring the next check forward.** -/
lemma Settled.nextCheck_le {s : State} (h : Settled s) {i : ℕ} {c : Check} {a : Answer}
    (hc : s.checks[i]? = some c) (hin : InTime s (.answer i a)) :
    s.checker.nextCheck ≤ c.localTime + a.interval := by
  rcases h.nextCheck with hle | ⟨j, d, b, hd, hb, heq⟩
  · have hpos := a.interval_nonneg
    have := hle c (List.mem_of_getElem? hc)
    linarith
  · have hnot := hin c hc j d b hd hb
    rw [heq]
    cases a with
    | failure => exact not_lt.mp fun hlt => hnot ((undoes_iff_lt (.inl rfl)).mpr hlt)
    | time t =>
      cases b with
      | failure => exact not_lt.mp fun hlt => hnot ((undoes_iff_lt (.inr rfl)).mpr hlt)
      | time t' =>
        have := h.localTime_le hd hc (not_lt.mp hnot)
        simpa [Answer.interval] using this

/-! ### The skew -/

lemma exists_split {α : Type} {l : List α} {i : ℕ} {a : α} (h : l[i]? = some a) :
    ∃ pre post, l = pre ++ a :: post ∧ pre.length = i := by
  obtain ⟨hi, rfl⟩ := List.getElem?_eq_some_iff.mp h
  refine ⟨l.take i, l.drop (i + 1), ?_, by simp [hi.le]⟩
  rw [List.getElem_cons_drop, List.take_append_drop]

/-- A failure measures nothing. -/
lemma lastSkew_failure {l : List Check} {i : ℕ} {c : Check} (hc : l[i]? = some c)
    (ha : c.answer = none) :
    lastSkew (l.set i { c with answer := some .failure }) = lastSkew l := by
  obtain ⟨pre, post, rfl, rfl⟩ := exists_split hc
  simp [lastSkew, Check.skew, ha]

/-- A time measures the skew, when no check started later has measured it. -/
lemma lastSkew_time {l : List Check} {i : ℕ} {c : Check} (hc : l[i]? = some c) (t : ℚ)
    (hlater : ∀ (j : ℕ) (d : Check), l[j]? = some d → i < j → d.skew = none) :
    lastSkew (l.set i { c with answer := some (.time t) }) = t - c.localTime := by
  obtain ⟨pre, post, rfl, rfl⟩ := exists_split hc
  have hpost : post.filterMap Check.skew = [] := by
    rw [List.filterMap_eq_nil_iff]
    intro d hd
    obtain ⟨k, hk⟩ := List.getElem?_of_mem hd
    refine hlater (pre.length + 1 + k) d ?_ (by omega)
    rw [List.getElem?_append_right (by omega)]
    simpa [Nat.add_sub_cancel_left, Nat.add_assoc, Nat.add_comm 1 k] using hk
  simp [lastSkew, Check.skew, hpost]

/-- Where a time undoes nothing, no check started later has measured the skew. -/
lemma InTime.unmeasured {s : State} {i : ℕ} {c : Check} {t : ℚ}
    (hin : InTime s (.answer i (.time t))) (hc : s.checks[i]? = some c) {j : ℕ} {d : Check}
    (hd : s.checks[j]? = some d) (hij : i < j) : d.skew = none := by
  unfold Check.skew
  split
  · next t' hb => exact absurd hij (hin c hc j d (.time t') hd hb)
  · rfl

/-! ### Runs -/

/-- The step is one that can happen, and nothing is undone by it. -/
def Goes (s : State) (e : Event) : Prop := Admits s e ∧ InTime s e

lemma Settled.call {s : State} (h : Settled s) {t : ℚ} (ht : s.clock ≤ t) :
    Settled (step s (.call t)) := by
  have hclock : ∀ c ∈ s.checks, c.localTime ≤ t := fun c hc => (h.clock c hc).trans ht
  unfold step
  simp only
  split
  · next hdue =>
    refine ⟨?_, ?_, ?_, ?_, ?_⟩
    · rw [List.map_append, List.pairwise_append]
      exact ⟨h.sorted, by simp, by simpa using hclock⟩
    · simpa [or_imp, forall_and] using hclock
    · rcases h.nextCheck with hle | ⟨j, d, b, hd, hb, heq⟩
      · exact Or.inl (by simpa [or_imp, forall_and] using ⟨hle, hdue⟩)
      · have hj := (List.getElem?_eq_some_iff.mp hd).1
        exact Or.inr ⟨j, d, b, by rwa [List.getElem?_append_left hj], hb, heq⟩
    · simpa [or_imp, forall_and] using h.held
    · rw [h.skew]
      simp [lastSkew, Check.skew]
  · exact ⟨h.sorted, hclock, h.nextCheck, h.held, h.skew⟩

lemma Settled.answer {s : State} (h : Settled s) {i : ℕ} {a : Answer}
    (hgo : Goes s (.answer i a)) : Settled (step s (.answer i a)) := by
  obtain ⟨⟨c, hc, hnone⟩, hin⟩ := hgo
  have hlen := (List.getElem?_eq_some_iff.mp hc).1
  have hmap : (s.checks.set i { c with answer := some a }).map Check.localTime =
      s.checks.map Check.localTime := by
    obtain ⟨pre, post, hpre, rfl⟩ := exists_split hc
    simp [hpre]
  rw [step_answer hc]
  refine ⟨?_, ?_, ?_, ?_, ?_⟩
  · rw [hmap]
    exact h.sorted
  · intro d hd
    rcases List.mem_or_eq_of_mem_set hd with hd | rfl
    · exact h.clock d hd
    · exact h.clock c (List.mem_of_getElem? hc)
  · exact Or.inr ⟨i, { c with answer := some a }, a, by simp [hlen], rfl,
      Checker.checked_nextCheck _ _ _⟩
  · intro d hd b hb
    rw [Checker.checked_nextCheck]
    rcases List.mem_or_eq_of_mem_set hd with hd | rfl
    · exact (h.held d hd b hb).trans (h.nextCheck_le hc hin)
    · cases hb
      exact le_refl _
  · cases a with
    | failure => exact h.skew.trans (lastSkew_failure hc hnone).symm
    | time t => exact (lastSkew_time hc t fun j d => hin.unmeasured hc).symm

lemma Settled.step {s : State} (h : Settled s) {e : Event} (hgo : Goes s e) :
    Settled (step s e) := by
  cases e with
  | call t => exact h.call hgo.1
  | answer i a => exact h.answer hgo

/-- The next check is not brought forward. -/
lemma Settled.nextCheck_mono {s : State} (h : Settled s) {e : Event} (hgo : Goes s e) :
    s.checker.nextCheck ≤ (Timestamps.step s e).checker.nextCheck := by
  cases e with
  | call t =>
    unfold Timestamps.step
    simp only
    split <;> exact le_refl _
  | answer i a =>
    obtain ⟨⟨c, hc, -⟩, hin⟩ := hgo
    rw [step_answer hc, Checker.checked_nextCheck]
    exact h.nextCheck_le hc hin

/-- **What undoes an answer** brings the next check forward, or replaces the skew that a check
started later has measured. -/
theorem Settled.inTime_iff {s : State} (h : Settled s) {i : ℕ} {c : Check}
    (hc : s.checks[i]? = some c) (a : Answer) : InTime s (.answer i a) ↔
      s.checker.nextCheck ≤ (Timestamps.step s (.answer i a)).checker.nextCheck ∧
      ∀ t, a = .time t → ∀ j d, s.checks[j]? = some d → i < j → d.skew = none := by
  rw [step_answer hc, Checker.checked_nextCheck]
  constructor
  · intro hin
    refine ⟨h.nextCheck_le hc hin, ?_⟩
    rintro t rfl j d
    exact hin.unmeasured hc
  · rintro ⟨hle, hlater⟩ c' hc' j d b hd hb hundo
    obtain rfl := Option.some.inj (hc.symm.trans hc')
    have hheld := (h.held d (List.mem_of_getElem? hd) b hb).trans hle
    cases a with
    | failure => exact absurd ((undoes_iff_lt (.inl rfl)).mp hundo) (not_lt.mpr hheld)
    | time t =>
      cases b with
      | failure => exact absurd ((undoes_iff_lt (.inr rfl)).mp hundo) (not_lt.mpr hheld)
      | time t' =>
        have hskew := hlater t rfl j d hd hundo
        simp [Check.skew, hb] at hskew

lemma nextCheck_run {es : List Event} : ∀ {s : State}, Settled s →
    Legal step Goes s es → s.checker.nextCheck ≤ (run step s es).checker.nextCheck := by
  induction es with
  | nil => exact fun _ _ => le_refl _
  | cons e es ih =>
    intro s h hes
    exact (h.nextCheck_mono hes.1).trans (ih (h.step hes.1) hes.2)

/-- **Checks that overlap do not undo each other**, in the runs in which no answer comes that
an earlier answer has overtaken: the next check is never brought forward, and the skew is the one
measured by the successful check that was started last. -/
theorem never_undone {now : ℚ} {es : List Event} (hes : Legal step Goes (.init now) es) :
    (∀ pre post, es = pre ++ post →
      (run step (.init now) pre).checker.nextCheck ≤ (run step (.init now) es).checker.nextCheck) ∧
    ((∀ c ∈ (run step (.init now) es).checks, c.answer ≠ none) →
      (run step (.init now) es).checker.skew = lastSkew (run step (.init now) es).checks) := by
  refine ⟨?_, fun _ => ?_⟩
  · rintro pre post rfl
    rw [legal_append] at hes
    rw [run_append]
    exact nextCheck_run (hes.1.invariant (fun _ _ h hgo => h.step hgo) (settled_init now)) hes.2
  · exact (hes.invariant (fun _ _ h hgo => h.step hgo) (settled_init now)).skew

/-- Two checks that overlap, answered in order. -/
def overlapping : List Event := [.call 0, .call 10, .answer 0 (.time 100), .answer 1 (.time 120)]

lemma overlapping_goes : Legal step Goes (.init 0) overlapping := by
  simp only [overlapping, Legal, Goes, Admits, InTime, step, State.init, Checker.init]
  refine ⟨by simp, by simp, ⟨by simp, ?_⟩, ⟨by simp, ?_⟩, trivial⟩
  · rintro c - j d b hd hb
    rcases j with - | - | j <;> simp at hd <;> subst hd <;> cases hb
  · rintro c - j d b hd hb
    rcases j with - | - | j <;> simp at hd <;> subst hd <;> cases hb
    simp [Undoes]

/-- The skew is that of the second check. -/
theorem never_undone_overlapping : (run step (.init 0) overlapping).checker.skew =
    lastSkew (run step (.init 0) overlapping).checks := by
  refine (never_undone overlapping_goes).2 ?_
  simp [overlapping, step, State.init, Checker.init]

/-- Two checks that overlap, the second of which is answered first. -/
def overtaken : List Event := [.call 0, .call 10, .answer 1 (.time 110), .answer 0 (.time 50)]

/-- The late answer brings the next check forward, and its skew replaces the newer one. -/
theorem overtaken_undone :
    (¬ ∀ (now : ℚ) (es : List Event), Legal step Admits (.init now) es →
      ∀ pre post, es = pre ++ post → (run step (.init now) pre).checker.nextCheck ≤
        (run step (.init now) es).checker.nextCheck) ∧
    ¬ ∀ (now : ℚ) (es : List Event), Legal step Admits (.init now) es →
      (∀ c ∈ (run step (.init now) es).checks, c.answer ≠ none) →
      (run step (.init now) es).checker.skew = lastSkew (run step (.init now) es).checks := by
  have hlegal : Legal step Admits (.init 0) overtaken := by
    simp [overtaken, Legal, Admits, step, State.init, Checker.init]
  constructor
  · intro h
    have hle := h 0 overtaken hlegal (overtaken.take 3) (overtaken.drop 3) rfl
    simp [overtaken, step, State.init, Checker.init, Checker.checked, checkingInterval] at hle
    norm_num at hle
  · intro h
    have hskew := h 0 overtaken hlegal (by simp [overtaken, step, State.init, Checker.init])
    simp [overtaken, step, State.init, Checker.init, Checker.checked, lastSkew, Check.skew] at hskew
    norm_num at hskew

end Magicicada.Timestamps
