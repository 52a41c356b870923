import Mathlib.Order.Defs.Unbundled
import Mathlib.Tactic

/-!
Programs over a state that survives an exception.

A program either returns or raises, and leaves a state either way. `Within R x` says that
however `x` ends, the state it leaves is related by `R` to the one it started from; for a
preorder `R` this passes through sequencing, branching, loops and exception handlers, so it
is proved of a program by following its text.
-/

namespace Magicicada.Prog

variable {ε σ α β : Type}

/-- The state left by a program, whether it returned or raised. -/
def after (x : EStateM ε σ α) (s : σ) : σ :=
  match x.run s with
  | .ok _ t => t
  | .error _ t => t

/-- The exception a program raised, if it did. -/
def raised (x : EStateM ε σ α) (s : σ) : Option ε :=
  match x.run s with
  | .ok _ _ => none
  | .error e _ => some e

lemma after_of_ok {x : EStateM ε σ α} {s t : σ} {a : α} (h : x.run s = .ok a t) :
    after x s = t := by simp [after, h]

lemma after_of_error {x : EStateM ε σ α} {s t : σ} {e : ε} (h : x.run s = .error e t) :
    after x s = t := by simp [after, h]

lemma after_congr {x y : EStateM ε σ α} {s t : σ} (h : x.run s = y.run t) :
    after x s = after y t := by simp [after, h]

lemma raised_congr {x y : EStateM ε σ α} {s t : σ} (h : x.run s = y.run t) :
    raised x s = raised y t := by simp [raised, h]

lemma raised_of_ok {x : EStateM ε σ α} {s t : σ} {a : α} (h : x.run s = .ok a t) :
    raised x s = none := by simp [raised, h]

lemma raised_of_error {x : EStateM ε σ α} {s t : σ} {e : ε} (h : x.run s = .error e t) :
    raised x s = some e := by simp [raised, h]

/-- A program that raised nothing returned. -/
lemma run_of_not_raised {x : EStateM ε σ PUnit} {s : σ} (h : raised x s = none) :
    x.run s = .ok ⟨⟩ (after x s) := by
  unfold raised after at *
  cases hx : x.run s with
  | ok a t => rfl
  | error e t => simp [hx] at h

@[simp] lemma run_tryCatch (x : EStateM ε σ α) (f : ε → EStateM ε σ α) (s : σ) :
    EStateM.run (tryCatch x f) s =
      match x.run s with
      | .ok a t => .ok a t
      | .error e t => (f e).run t := by
  show EStateM.tryCatch x f s = _
  unfold EStateM.tryCatch EStateM.run
  cases x s <;> rfl

lemma run_of_raised {x : EStateM ε σ α} {s : σ} {e : ε} (h : raised x s = some e) :
    x.run s = .error e (after x s) := by
  unfold raised after at *
  cases hx : x.run s with
  | ok a t =>
    rw [hx] at h
    cases h
  | error e' t =>
    rw [hx] at h
    cases h
    rfl

lemma run_bind_ok {x : EStateM ε σ α} {f : α → EStateM ε σ β} {s t : σ} {a : α}
    (h : x.run s = .ok a t) : (x >>= f).run s = (f a).run t := by
  rw [EStateM.run_bind, h]

lemma run_bind_error {x : EStateM ε σ α} {f : α → EStateM ε σ β} {s t : σ} {e : ε}
    (h : x.run s = .error e t) : (x >>= f).run s = .error e t := by
  rw [EStateM.run_bind, h]

/-- A program that begins by reading the state reads the one it is run in. -/
lemma run_get_bind (f : σ → EStateM ε σ β) (s : σ) : (get >>= f).run s = (f s).run s := rfl

lemma after_get_bind (f : σ → EStateM ε σ β) (s : σ) : after (get >>= f) s = after (f s) s := rfl

lemma raised_get_bind (f : σ → EStateM ε σ β) (s : σ) :
    raised (get >>= f) s = raised (f s) s := rfl

lemma run_modify_bind (g : σ → σ) (x : EStateM ε σ α) (s : σ) :
    (modify g >>= fun _ => x).run s = x.run (g s) := rfl

lemma after_modify_bind (g : σ → σ) (x : EStateM ε σ α) (s : σ) :
    after (modify g >>= fun _ => x) s = after x (g s) := rfl

/-- A program run on a part of a larger state. -/
def focus {τ : Type} (get : τ → σ) (set : σ → τ → τ) (x : EStateM ε σ α) : EStateM ε τ α :=
  fun t =>
    match x.run (get t) with
    | .ok a s => .ok a (set s t)
    | .error e s => .error e (set s t)

@[simp] lemma run_focus {τ : Type} (get : τ → σ) (set : σ → τ → τ) (x : EStateM ε σ α) (t : τ) :
    EStateM.run (focus get set x) t =
      match x.run (get t) with
      | .ok a s => .ok a (set s t)
      | .error e s => .error e (set s t) := rfl

/-! ### Moving the state along a relation -/

/-- However the program ends, it moves the state along `R`. -/
def Within (R : σ → σ → Prop) (x : EStateM ε σ α) : Prop :=
  ∀ s, R s (after x s)

lemma within_modify {R : σ → σ → Prop} {g : σ → σ} (h : ∀ s, R s (g s)) :
    Within R (modify g : EStateM ε σ PUnit) := fun s => h s

lemma within_ite {R : σ → σ → Prop} {c : Prop} [Decidable c] {x y : EStateM ε σ α}
    (hx : c → Within R x) (hy : ¬c → Within R y) : Within R (if c then x else y) := by
  split
  · exact hx ‹_›
  · exact hy ‹_›

section Preorder

variable {R : σ → σ → Prop} [IsPreorder σ R] {x : EStateM ε σ α} {f : α → EStateM ε σ β}

lemma within_pure (a : α) : Within R (pure a : EStateM ε σ α) := fun s => refl_of R s

lemma within_throw (e : ε) : Within R (throw e : EStateM ε σ α) := fun s => refl_of R s

lemma within_get : Within R (get : EStateM ε σ σ) := fun s => refl_of R s

lemma after_bind (x : EStateM ε σ α) (f : α → EStateM ε σ β) (s : σ) :
    after (x >>= f) s =
      match x.run s with
      | .ok a t => after (f a) t
      | .error _ t => t := by
  unfold after
  rw [EStateM.run_bind]
  cases x.run s <;> rfl

/-- Sequencing in one state. -/
lemma after_bind_trans {s : σ} (hx : R s (after x s))
    (hf : ∀ a t, x.run s = .ok a t → R t (after (f a) t)) : R s (after (x >>= f) s) := by
  rw [after_bind]
  unfold after at hx
  cases hr : x.run s with
  | ok a t =>
    rw [hr] at hx
    exact trans_of R hx (hf a t hr)
  | error e t =>
    rw [hr] at hx
    exact hx

/-- Sequencing when the second program is only known after the first one's results. -/
lemma within_bind_of (hx : Within R x) (hf : ∀ a s t, x.run s = .ok a t → R t (after (f a) t)) :
    Within R (x >>= f) := fun s => after_bind_trans (hx s) fun a t h => hf a s t h

lemma within_bind (hx : Within R x) (hf : ∀ a, Within R (f a)) : Within R (x >>= f) :=
  within_bind_of hx fun a _ t _ => hf a t

/-- Handling what is raised in one state. -/
lemma after_tryCatch_trans {h : ε → EStateM ε σ α} {s : σ} (hx : R s (after x s))
    (hh : ∀ e t, x.run s = .error e t → R t (after (h e) t)) :
    R s (after (tryCatch x h) s) := by
  unfold after at *
  rw [run_tryCatch]
  cases hr : x.run s with
  | ok a t =>
    rw [hr] at hx
    exact hx
  | error e t =>
    rw [hr] at hx
    exact trans_of R hx (hh e t hr)

lemma within_tryCatch {h : ε → EStateM ε σ α} (hx : Within R x) (hh : ∀ e, Within R (h e)) :
    Within R (tryCatch x h) := fun s => after_tryCatch_trans (hx s) fun e t _ => hh e t

/-- A loop moves the state along `R` when its body does at every element. -/
lemma within_forM {γ : Type} {body : γ → EStateM ε σ PUnit} :
    ∀ l : List γ, (∀ a ∈ l, Within R (body a)) → Within R (l.forM body)
  | [], _ => within_pure _
  | a :: l, h =>
    within_bind (h a (by simp)) fun _ => within_forM l fun b hb => h b (by simp [hb])

end Preorder

lemma Within.ok {R : σ → σ → Prop} {x : EStateM ε σ α} (h : Within R x) {s t : σ} {a : α}
    (hr : x.run s = .ok a t) : R s t := by
  have := h s
  rwa [after_of_ok hr] at this

lemma Within.error {R : σ → σ → Prop} {x : EStateM ε σ α} (h : Within R x) {s t : σ} {e : ε}
    (hr : x.run s = .error e t) : R s t := by
  have := h s
  rwa [after_of_error hr] at this

/-- What holds of the state a sequence leaves, by the two ways its first part may end. -/
lemma after_bind_of {x : EStateM ε σ α} {f : α → EStateM ε σ β} {s : σ} {P : σ → Prop}
    (hok : ∀ a t, x.run s = .ok a t → P (after (f a) t))
    (herr : ∀ e t, x.run s = .error e t → P t) : P (after (x >>= f) s) := by
  rw [after_bind]
  cases hr : x.run s with
  | ok a t => exact hok a t hr
  | error e t => exact herr e t hr

/-! ### What is not raised -/

lemma raised_bind_ne {x : EStateM ε σ α} {f : α → EStateM ε σ β} {s : σ} {e : ε}
    (hx : raised x s ≠ some e) (hf : ∀ a t, x.run s = .ok a t → raised (f a) t ≠ some e) :
    raised (x >>= f) s ≠ some e := by
  cases hrun : x.run s with
  | error e' t =>
    rw [raised_of_error hrun] at hx
    rwa [raised_of_error (run_bind_error hrun)]
  | ok a t =>
    have := hf a t hrun
    unfold raised at this ⊢
    rwa [run_bind_ok hrun]

lemma raised_ne_some {x : EStateM ε σ α} {s t : σ} {a : α} (h : x.run s = .ok a t) (e : ε) :
    raised x s ≠ some e := by
  rw [raised_of_ok h]
  exact (Option.some_ne_none e).symm

lemma raised_ne_none {x : EStateM ε σ α} {s t : σ} {e : ε} (h : x.run s = .error e t) :
    raised x s ≠ none := by
  rw [raised_of_error h]
  exact Option.some_ne_none e

lemma raised_tryCatch_ne {x : EStateM ε σ α} {f : ε → EStateM ε σ α} {s : σ} {e : ε}
    (hx : raised x s ≠ some e) (hf : ∀ e' t, e' ≠ e → raised (f e') t ≠ some e) :
    raised (tryCatch x f) s ≠ some e := by
  cases hrun : x.run s with
  | ok a t => exact raised_ne_some (by rw [run_tryCatch, hrun]) e
  | error e' t =>
    rw [raised_of_error hrun] at hx
    have := hf e' t fun he => hx (congrArg some he)
    unfold raised at this ⊢
    rwa [run_tryCatch, hrun]

lemma raised_bind_modify (x : EStateM ε σ PUnit) (g : σ → σ) (s : σ) :
    raised (x >>= fun _ => modify g) s = raised x s := by
  unfold raised
  rw [EStateM.run_bind]
  cases x.run s <;> rfl

/-- A handler that leaves the state alone. -/
lemma after_tryCatch {x : EStateM ε σ α} {f : ε → EStateM ε σ α} {s : σ}
    (hf : ∀ e t, after (f e) t = t) : after (tryCatch x f) s = after x s := by
  unfold after at *
  rw [run_tryCatch]
  cases hx : x.run s with
  | ok a t => rfl
  | error e t => exact hf e t

/-- A part of the state that the handler leaves alone. -/
lemma view_tryCatch {γ : Type} {x : EStateM ε σ α} {f : ε → EStateM ε σ α} (view : σ → γ) {s : σ}
    (hf : ∀ e t, view (after (f e) t) = view t) :
    view (after (tryCatch x f) s) = view (after x s) := by
  unfold after at *
  rw [run_tryCatch]
  cases hx : x.run s with
  | ok a t => rfl
  | error e t => exact hf e t

/-! ### Frames and invariants -/

/-- What `f` reads of the state is left as it was. -/
def Frame {γ : Type} (f : σ → γ) (s t : σ) : Prop := f t = f s

instance {γ : Type} (f : σ → γ) : IsPreorder σ (Frame f) where
  refl _ := rfl
  trans _ _ _ h1 h2 := h2.trans h1

/-- If `I` held before, it holds after. -/
def Keeps (I : σ → Prop) (s t : σ) : Prop := I s → I t

instance (I : σ → Prop) : IsPreorder σ (Keeps I) where
  refl _ := id
  trans _ _ _ h1 h2 := h2 ∘ h1

lemma Within.mono {R S : σ → σ → Prop} {x : EStateM ε σ α} (h : Within R x)
    (hRS : ∀ s t, R s t → S s t) : Within S x := fun s => hRS _ _ (h s)

end Magicicada.Prog
