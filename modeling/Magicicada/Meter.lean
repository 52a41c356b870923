import Mathlib.Tactic

/-!
A meter of what passes a gate.

At the limit the gate is closed, for as long as what passed is over the limit at the rate of the
limit. The meter is cleared again and again, a unit of time after it was cleared last, or later.
-/

namespace Magicicada

variable {𝕜 : Type} [Field 𝕜] [LinearOrder 𝕜] [IsStrictOrderedRing 𝕜]

/-- How much passed since the meter was cleared, when that was, and when a closed gate opens. -/
structure Meter (𝕜 : Type) where
  level : ℕ
  since : 𝕜
  opens : Option 𝕜

namespace Meter

/-- What can happen at a time `t`, and how much passes. -/
inductive Step (limit t : 𝕜) : Meter 𝕜 → ℕ → Meter 𝕜 → Prop
  | wait (m : Meter 𝕜) : Step limit t m 0 m
  | pass (m : Meter 𝕜) (n : ℕ) (hopen : m.opens = none) (hlt : ((m.level + n : ℕ) : 𝕜) < limit) :
    Step limit t m n { m with level := m.level + n }
  | close (m : Meter 𝕜) (n : ℕ) (hopen : m.opens = none) (hle : limit ≤ ((m.level + n : ℕ) : 𝕜)) :
    Step limit t m n { m with
      level := m.level + n
      opens := some (t + (((m.level + n : ℕ) : 𝕜) / limit - 1)) }
  | clear (m : Meter 𝕜) (hdue : m.since + 1 ≤ t) :
    Step limit t m 0 { m with level := 0, since := t }
  | reopen (m : Meter 𝕜) (u : 𝕜) (hclosed : m.opens = some u) (hdue : u ≤ t) :
    Step limit t m 0 { m with opens := none }

/-- What passed before the meter was cleared last is paid for by the time and by the number of
times it was cleared; and the gate is not opened before the level is paid for by the time since. -/
structure Bounded (limit chunk t₀ : 𝕜) (total : ℕ) (now : 𝕜) (m : Meter 𝕜) : Prop where
  since_le : m.since ≤ now
  paid : ∃ k : ℕ, (k : 𝕜) ≤ m.since - t₀ ∧
    (total : 𝕜) ≤ k * (limit + chunk) + limit * (m.since - t₀) + m.level
  level_le : (m.level : 𝕜) ≤ limit * (1 + (now - m.since)) + chunk
  opens : ∀ t, now ≤ t → (∀ u, m.opens = some u → u ≤ t) →
    (m.level : 𝕜) ≤ limit * (1 + (t - m.since))

variable {limit chunk t₀ now t : 𝕜} {total n : ℕ} {m m' : Meter 𝕜}

lemma bounded_start (hlimit : 0 < limit) (hchunk : 0 ≤ chunk) (t₀ : 𝕜) :
    Bounded limit chunk t₀ 0 t₀ ⟨0, t₀, none⟩ where
  since_le := le_rfl
  paid := ⟨0, by simp, by simp⟩
  level_le := by simpa using add_nonneg hlimit.le hchunk
  opens t ht _ := by
    have : 0 ≤ t - t₀ := sub_nonneg.mpr ht
    simpa using mul_nonneg hlimit.le (by linarith)

/-- As long as the level is paid for by the time, more may pass. -/
lemma Bounded.pass (h : Bounded limit chunk t₀ total now m) (ht : now ≤ t)
    (hopen : m.opens = none) (hn : (n : 𝕜) ≤ chunk) :
    ((m.level + n : ℕ) : 𝕜) ≤ limit * (1 + (t - m.since)) + chunk := by
  have hlevel := h.opens t ht fun u hu => absurd (hopen.symm.trans hu) (Option.some_ne_none u).symm
  push_cast
  linarith

lemma Bounded.paid_add (h : Bounded limit chunk t₀ total now m) (n : ℕ) :
    ∃ k : ℕ, (k : 𝕜) ≤ m.since - t₀ ∧
      ((total + n : ℕ) : 𝕜) ≤ k * (limit + chunk) + limit * (m.since - t₀) + (m.level + n : ℕ) := by
  obtain ⟨k, hk, htotal⟩ := h.paid
  refine ⟨k, hk, ?_⟩
  push_cast
  linarith

/-- **A step** keeps the bound. -/
theorem Bounded.step (h : Bounded limit chunk t₀ total now m) (hlimit : 0 < limit)
    (hchunk : 0 ≤ chunk) (ht : now ≤ t) (hn : (n : 𝕜) ≤ chunk) (hstep : Step limit t m n m') :
    Bounded limit chunk t₀ (total + n) t m' := by
  have hsince : m.since ≤ t := h.since_le.trans ht
  cases hstep with
  | wait =>
    refine ⟨hsince, h.paid, h.level_le.trans ?_, fun s hs => h.opens s (ht.trans hs)⟩
    gcongr
  | pass _ hopen hlt =>
    refine ⟨hsince, h.paid_add n, h.pass ht hopen hn, fun s hs _ => hlt.le.trans ?_⟩
    exact le_mul_of_one_le_right hlimit.le (by linarith)
  | close _ hopen hle =>
    refine ⟨hsince, h.paid_add n, h.pass ht hopen hn, fun s hs hdue => ?_⟩
    have hs' := hdue _ rfl
    calc ((m.level + n : ℕ) : 𝕜) = limit * (((m.level + n : ℕ) : 𝕜) / limit) := by
          rw [mul_div_cancel₀ _ hlimit.ne']
      _ ≤ limit * (1 + (s - m.since)) := by
          gcongr
          linarith
  | clear hdue =>
    obtain ⟨k, hk, htotal⟩ := h.paid
    refine ⟨le_rfl, ⟨k + 1, ?_, ?_⟩, ?_, fun s hs _ => ?_⟩
    · push_cast
      linarith
    · have hlevel := h.level_le
      have hlate : limit * (1 + (now - m.since)) ≤ limit * (1 + (t - m.since)) := by gcongr
      push_cast
      linarith
    · simpa using add_nonneg hlimit.le hchunk
    · have : 0 ≤ s - t := sub_nonneg.mpr hs
      simpa using mul_nonneg hlimit.le (by linarith)
  | reopen u hclosed hdue =>
    refine ⟨hsince, h.paid, h.level_le.trans ?_, fun s hs _ => h.opens s (ht.trans hs) ?_⟩
    · show limit * (1 + (now - m.since)) + chunk ≤ limit * (1 + (t - m.since)) + chunk
      gcongr
    · intro v hv
      obtain rfl := Option.some.inj (hclosed.symm.trans hv)
      exact hdue.trans hs

/-- **What passes in a time.** -/
theorem Bounded.total_le (h : Bounded limit chunk t₀ total now m) (hlimit : 0 < limit)
    (hchunk : 0 ≤ chunk) :
    (total : 𝕜) ≤ (limit + chunk) * (now - t₀ + 1) + limit * (now - t₀) := by
  obtain ⟨k, hk, htotal⟩ := h.paid
  have hlevel := h.level_le
  have hcleared : (k : 𝕜) * (limit + chunk) ≤ (now - t₀) * (limit + chunk) := by
    gcongr
    exact hk.trans (sub_le_sub_right h.since_le t₀)
  linarith

end Meter

end Magicicada
