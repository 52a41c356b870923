import Mathlib.Tactic

/-!
Runs of a system that takes a step at each event, some of which a state does not admit.
-/

namespace Magicicada.Runs

variable {σ ε : Type}

/-- The state after a list of events. -/
def run (step : σ → ε → σ) (s : σ) (es : List ε) : σ := es.foldl step s

/-- Each event of the list is admitted by the state it happens in. -/
def Legal (step : σ → ε → σ) (admits : σ → ε → Prop) : σ → List ε → Prop
  | _, [] => True
  | s, e :: es => admits s e ∧ Legal step admits (step s e) es

variable {step : σ → ε → σ} {admits admits' : σ → ε → Prop}

@[simp] lemma run_nil (s : σ) : run step s [] = s := rfl

@[simp] lemma run_cons (s : σ) (e : ε) (es : List ε) :
    run step s (e :: es) = run step (step s e) es := rfl

@[simp] lemma run_append (s : σ) (es es' : List ε) :
    run step s (es ++ es') = run step (run step s es) es' := List.foldl_append ..

lemma legal_append {s : σ} {es es' : List ε} : Legal step admits s (es ++ es') ↔
    Legal step admits s es ∧ Legal step admits (run step s es) es' := by
  induction es generalizing s with
  | nil => simp [Legal]
  | cons e es ih => simp [Legal, ih, and_assoc]

lemma Legal.mono {s : σ} {es : List ε} (h : Legal step admits s es)
    (hle : ∀ s e, admits s e → admits' s e) : Legal step admits' s es := by
  induction es generalizing s with
  | nil => trivial
  | cons e es ih => exact ⟨hle s e h.1, ih h.2⟩

lemma Legal.and {s : σ} {es : List ε} (h : Legal step admits s es)
    (h' : Legal step admits' s es) : Legal step (fun s e => admits s e ∧ admits' s e) s es := by
  induction es generalizing s with
  | nil => trivial
  | cons e es ih => exact ⟨⟨h.1, h'.1⟩, ih h.2 h'.2⟩

/-- Either no step of a run is bad, or there is a first one. -/
lemma Legal.or_first {s : σ} {es : List ε} (h : Legal step admits s es) (bad : σ → ε → Prop) :
    Legal step (fun s e => admits s e ∧ ¬bad s e) s es ∨
    ∃ pre e post, es = pre ++ e :: post ∧
      Legal step (fun s e => admits s e ∧ ¬bad s e) s pre ∧
      admits (run step s pre) e ∧ bad (run step s pre) e := by
  induction es generalizing s with
  | nil => exact Or.inl trivial
  | cons e es ih =>
    by_cases hb : bad s e
    · exact Or.inr ⟨[], e, es, rfl, trivial, h.1, hb⟩
    · rcases ih h.2 with hgood | ⟨pre, e', post, rfl, hpre, ha, hb'⟩
      · exact Or.inl ⟨⟨h.1, hb⟩, hgood⟩
      · exact Or.inr ⟨e :: pre, e', post, rfl, ⟨⟨h.1, hb⟩, hpre⟩, ha, hb'⟩

/-- **What every admitted step keeps, every run keeps.** -/
theorem Legal.invariant {I : σ → Prop} {s : σ} {es : List ε} (h : Legal step admits s es)
    (hstep : ∀ s e, I s → admits s e → I (step s e)) (hs : I s) : I (run step s es) := by
  induction es generalizing s with
  | nil => exact hs
  | cons e es ih => exact ih h.2 (hstep s e hs h.1)

/-- **What every admitted step keeps of the state and the events so far**, every run keeps. -/
theorem Legal.history {P : List ε → σ → Prop} {s : σ} {es : List ε}
    (h : Legal step admits s es)
    (hstep : ∀ es s e, P es s → admits s e → P (es ++ [e]) (step s e)) (hs : P [] s) :
    P es (run step s es) := by
  suffices hall : ∀ past, P past s → P (past ++ es) (run step s es) from hall [] hs
  clear hs
  induction es generalizing s with
  | nil => exact fun past hpast => by simpa using hpast
  | cons e es ih =>
    intro past hpast
    have := ih h.2 (past ++ [e]) (hstep past s e hpast h.1)
    rwa [List.append_assoc] at this

/-- What holds at the end of a run, and is taken back by every step, holds after each step. -/
lemma Legal.back {I J : σ → Prop} {s : σ} {es : List ε} (h : Legal step admits s es)
    (hI : ∀ s e, I s → admits s e → I (step s e))
    (hJ : ∀ s e, I s → admits s e → J (step s e) → J s) (hs : I s) (hend : J (run step s es)) :
    Legal step (fun s e => admits s e ∧ J (step s e)) s es ∧ J s := by
  induction es generalizing s with
  | nil => exact ⟨trivial, hend⟩
  | cons e es ih =>
    obtain ⟨hrest, hnext⟩ := ih h.2 (hI s e hs h.1) hend
    exact ⟨⟨⟨h.1, hnext⟩, hrest⟩, hJ s e hs h.1 hnext⟩

/-- **A part of the state** that each step changes by what it brings that part is, after a run,
what all that the steps bring makes of it. -/
theorem Legal.view {τ ι : Type} {I : σ → Prop} {view : σ → τ} {brings : ε → Option ι}
    {next : τ → ι → τ} {s : σ} {es : List ε} (h : Legal step admits s es)
    (hI : ∀ s e, I s → admits s e → I (step s e))
    (hview : ∀ s e, I s → admits s e →
      view (step s e) = (brings e).elim (view s) (next (view s))) (hs : I s) :
    view (run step s es) = (es.filterMap brings).foldl next (view s) := by
  induction es generalizing s with
  | nil => rfl
  | cons e es ih =>
    rw [run_cons, ih h.2 (hI s e hs h.1), hview s e hs h.1]
    cases hb : brings e with
    | none => rw [List.filterMap_cons_none hb, Option.elim_none]
    | some x => rw [List.filterMap_cons_some hb, List.foldl_cons, Option.elim_some]

end Magicicada.Runs
