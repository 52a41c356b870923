import Magicicada.Lifecycle

/-!
`connectionLost` where cancelling a request, or the callbacks of its deferred, end other requests.

What runs when a request is cancelled or when its deferred fires is a list of calls of `done` and
`error`. Twisted keeps what a callback raises, and goes on.
-/

namespace Magicicada.Client

open Pb Errors Requests Prog

/-! ### The model -/

/-- A call of `done` or `error` of a request. -/
abbrev Ending := ℕ × Outcome

/-- What runs besides the program's own code. -/
structure Hooks where
  /-- What the `_cancel` of a request calls, after what it sends. -/
  onCancel : ℕ → List Ending := fun _ => []
  /-- What the callback of its deferred calls, given what it was fired with. -/
  onFired : ℕ → Outcome → List Ending := fun _ _ => []

namespace Hooks

variable (h : Hooks)

/-- `done` and `error`. The callback ends with the first call that raises. The fuel bounds how
deep callbacks are nested. -/
def settle : ℕ → ℕ → Outcome → M PUnit
  | 0, _, _ => throw .outOfFuel
  | fuel + 1, r, o => do
    Request.settle r o
    tryCatch ((h.onFired r o).forM fun e => settle fuel e.1 e.2) fun e =>
      if e = .outOfFuel then throw e else pure ⟨⟩

/-- `_cancel`. -/
def customCancel (fuel r : ℕ) : M PUnit := do
  Client.customCancel r
  (h.onCancel r).forM fun e => h.settle fuel e.1 e.2

def cancel (fuel r : ℕ) : M PUnit := do
  let w ← get
  if (w.objs r).finished then pure ⟨⟩
  else do
    modifyObj r fun q => { q with cancelled := true }
    if (w.objs r).started && !(w.objs r).cancelled then h.customCancel fuel r else pure ⟨⟩

/-- `if request.started: request.cancel()`. -/
def cancelIfStarted (fuel r : ℕ) : M PUnit := do
  let w ← get
  if (w.objs r).started then h.cancel fuel r else pure ⟨⟩

/-- One round of the loop of `connectionLost`. -/
def loseRequest (fuel : ℕ) (reason : Exn) (r : ℕ) : M PUnit := do
  modify (Request.stopProducing r)
  h.cancelIfStarted fuel r
  tryCatch (h.settle fuel r (.errback reason)) fun e =>
    -- cancel may already have error-ed the request
    if e = .alreadyCalledError then pure ⟨⟩ else throw e

/-- `connectionLost`. -/
def connectionLost (fuel : ℕ) (reason : Exn) : M PUnit := do
  modify unregisterSelf
  let w ← get
  w.requests.values.forM (h.loseRequest fuel reason)

end Hooks

/-! ### What every call does -/

/-- Requests leave the registry and deferreds fire, none of them twice. -/
structure Wanes (s t : World) : Prop where
  ids : ∀ r, (t.objs r).id = (s.objs r).id
  requests : ∀ i r, t.requests.get? i = some r → s.requests.get? i = some r
  fired : ∀ r, (s.objs r).deferred ≠ none → (t.objs r).deferred ≠ none
  once : t.faults.count .firedTwice = s.faults.count .firedTwice
  values : t.requests.values.Sublist s.requests.values
  left : ∀ i r, s.requests.get? i = some r →
    t.requests.get? i = some r ∨ (t.objs r).deferred ≠ none

/-- What is registered stays as it should, and the registry wanes. -/
def Waning (s t : World) : Prop := Entries s → Entries t ∧ Wanes s t

instance : IsPreorder World Waning where
  refl _ hs := ⟨hs, fun _ => rfl, fun _ _ => id, fun _ => id, rfl, .refl _,
    fun _ _ => Or.inl⟩
  trans s t u h1 h2 hs := by
    obtain ⟨ht, w1⟩ := h1 hs
    obtain ⟨hu, w2⟩ := h2 ht
    refine ⟨hu, fun r => (w2.ids r).trans (w1.ids r),
      fun i r hr => w1.requests i r (w2.requests i r hr), fun r hr => w2.fired r (w1.fired r hr),
      w2.once.trans w1.once, w2.values.trans w1.values, fun i r hr => ?_⟩
    rcases w1.left i r hr with hr | hr
    · exact w2.left i r hr
    · exact Or.inr (w2.fired r hr)

lemma waning_of_ledger {s t : World} (h : t.ledger = s.ledger) : Waning s t := by
  have hobj : ∀ r, (t.objs r).id = (s.objs r).id ∧ (t.objs r).started = (s.objs r).started ∧
      (t.objs r).finished = (s.objs r).finished ∧ (t.objs r).deferred = (s.objs r).deferred := by
    intro r
    have hobj := congrArg (fun w => w.objs r) h
    have hid := congrArg Request.id hobj
    have hst := congrArg Request.started hobj
    have hfin := congrArg Request.finished hobj
    have hdef := congrArg Request.deferred hobj
    exact ⟨hid, hst, hfin, hdef⟩
  have hreq := requests_of_ledger h
  have hreg : t.transport.registered = s.transport.registered :=
    congrArg (fun w => w.transport.registered) h
  have hfaults : t.faults = s.faults := congrArg (fun w => w.faults) h
  intro hs
  refine ⟨⟨fun i r hr => ?_, fun r r' i hr hr' => ?_, ?_⟩, fun r => (hobj r).1,
    fun i r hr => hreq ▸ hr, fun r hr => ?_, by rw [hfaults], by rw [hreq],
    fun i r hr => Or.inl (hreq ▸ hr)⟩
  · rw [(hobj r).1, (hobj r).2.1, (hobj r).2.2.1, (hobj r).2.2.2]
    exact hs.entry i r (hreq ▸ hr)
  · rw [(hobj _).1] at hr hr'
    exact hs.injective r r' i hr hr'
  · rw [hreg, hreq]
    exact hs.transport
  · rwa [(hobj r).2.2.2]

lemma waning_of_frame {α : Type} {x : M α} (h : Within (Frame World.ledger) x) :
    Within Waning x := h.mono fun _ _ => waning_of_ledger

/-! ### `done` and `error` -/

/-- A request is not in the registry. -/
def Unregistered (w : World) (r : ℕ) : Prop := ∀ i, w.requests.get? i ≠ some r

lemma Wanes.unregistered {s t : World} (h : Wanes s t) {r : ℕ} (hr : Unregistered s r) :
    Unregistered t r := fun i hi => hr i (h.requests i r hi)

lemma Entries.eq_of_get? {w : World} (hw : Entries w) {i j : ℤ} {r : ℕ}
    (hi : w.requests.get? i = some r) (hj : w.requests.get? j = some r) : i = j :=
  Option.some.inj ((hw.entry i r hi).1.symm.trans (hw.entry j r hj).1)

/-- The state `cleanup` leaves when it raises. -/
def World.cleanedTwice (w : World) (r : ℕ) : World :=
  { w.setObj r fun q => { q with finished := true, started := false } with
    faults := w.faults ++ [.cleanedTwice] }

lemma cleanedTwice_objs_of_ne {w : World} {r r' : ℕ} (h : r' ≠ r) :
    (w.cleanedTwice r).objs r' = w.objs r' := Function.update_of_ne h ..

lemma cleanedTwice_obj (w : World) (r r' : ℕ) :
    ((w.cleanedTwice r).objs r').id = (w.objs r').id ∧
    ((w.cleanedTwice r).objs r').deferred = (w.objs r').deferred := by
  by_cases h : r' = r
  · subst h; simp [World.cleanedTwice, World.setObj]
  · rw [cleanedTwice_objs_of_ne h]; simp

/-- `done` and `error` of a request that is not registered raise before they fire. -/
lemma Entries.settle_raises {w : World} (hw : Entries w) {r : ℕ} (hr : Unregistered w r)
    (o : Outcome) : (Request.settle r o).run w = .error .keyError (w.cleanedTwice r) := by
  cases hid : (w.objs r).id with
  | none =>
    simp [Request.settle, Request.cleanup, deleteRequest, modifyObj, fault, World.setObj, hid,
      World.cleanedTwice]
  | some i =>
    have hget : w.requests.get? i = none := by
      cases hi : w.requests.get? i with
      | none => rfl
      | some r' =>
        obtain rfl := hw.injective r' r i (hw.entry i r' hi).1 hid
        exact absurd hi (hr i)
    simp [Request.settle, Request.cleanup, deleteRequest, modifyObj, fault, World.setObj, hid,
      hget, World.cleanedTwice]

lemma waning_cleanedTwice {w : World} {r : ℕ} (hr : Unregistered w r) :
    Waning w (w.cleanedTwice r) := by
  intro hw
  refine ⟨⟨fun i r' hr' => ?_, fun r' r'' i h' h'' => ?_, hw.transport⟩,
    fun r' => (cleanedTwice_obj w r r').1, fun _ _ => id, fun r' h => ?_, ?_, .refl _,
    fun _ _ => Or.inl⟩
  · have hne : r' ≠ r := by
      rintro rfl
      exact hr i hr'
    rw [cleanedTwice_objs_of_ne hne]
    exact hw.entry i r' hr'
  · rw [(cleanedTwice_obj w r _).1] at h' h''
    exact hw.injective r' r'' i h' h''
  · rwa [(cleanedTwice_obj w r r').2]
  · show (w.faults ++ [Fault.cleanedTwice]).count .firedTwice = _
    simp

lemma waning_finish {w : World} {r : ℕ} {i : ℤ} (hr : w.requests.get? i = some r) (o : Outcome) :
    Waning w (w.finish r i o) := by
  intro hw
  have hget : ∀ j r', (w.finish r i o).requests.get? j = some r' → w.requests.get? j = some r' ∧
      r' ≠ r := by
    intro j r' hfinish
    obtain ⟨hji, hj⟩ := registered_of_finish hfinish
    refine ⟨hj, ?_⟩
    rintro rfl
    exact hji (hw.eq_of_get? hj hr)
  refine ⟨⟨fun j r' hj => ?_, fun r' r'' j h' h'' => ?_, rfl⟩,
    fun r' => (finish_obj w r i o r').1, fun j r' hj => (hget j r' hj).1, fun r' h => ?_, rfl,
    List.filter_sublist.map Prod.snd, fun j r' hj => ?_⟩
  · rw [finish_objs_of_ne (hget j r' hj).2]
    exact hw.entry j r' (hget j r' hj).1
  · rw [(finish_obj w r i o _).1] at h' h''
    exact hw.injective r' r'' j h' h''
  · by_cases hne : r' = r
    · subst hne; simp
    · rwa [finish_objs_of_ne hne]
  · by_cases hne : r' = r
    · subst hne; simp
    · refine Or.inl ?_
      rw [finish_requests, Dict.get?_erase, if_neg]
      · exact hj
      · rintro rfl
        exact hne (Option.some.inj (hj.symm.trans hr))

lemma unregistered_finish {w : World} (hw : Entries w) {r : ℕ} {i : ℤ}
    (hr : w.requests.get? i = some r) (o : Outcome) : Unregistered (w.finish r i o) r := by
  intro j hfinish
  obtain ⟨hji, hj⟩ := registered_of_finish hfinish
  exact hji (hw.eq_of_get? hj hr)

/-- A request is registered, or not. -/
lemma registered_or (w : World) (r : ℕ) : (∃ i, w.requests.get? i = some r) ∨ Unregistered w r := by
  by_cases h : ∃ i, w.requests.get? i = some r
  · exact Or.inl h
  · exact Or.inr fun i hi => h ⟨i, hi⟩

lemma waning_settle (r : ℕ) (o : Outcome) : Within Waning (Request.settle r o) := by
  intro w hw
  rcases registered_or w r with ⟨i, hi⟩ | hr
  · rw [after_of_ok (hw.settle_run hi o)]
    exact waning_finish hi o hw
  · rw [after_of_error (hw.settle_raises hr o)]
    exact waning_cleanedTwice hr hw

namespace Hooks

variable {h : Hooks} {fuel r : ℕ} {w : World}

lemma waning_settle (h : Hooks) (fuel : ℕ) :
    ∀ r o, Within Waning (h.settle fuel r o) := by
  induction fuel with
  | zero => exact fun _ _ => within_throw _
  | succ fuel ih =>
    intro r o
    refine within_bind (Client.waning_settle r o) fun _ => within_tryCatch
      (within_forM _ fun e _ => ih e.1 e.2) fun e => ?_
    exact within_ite (fun _ => within_throw e) fun _ => within_pure _

lemma waning_cancelIfStarted (h : Hooks) (fuel r : ℕ) :
    Within Waning (h.cancelIfStarted fuel r) := by
  refine within_bind within_get fun _ => within_ite (fun _ => ?_) fun _ => within_pure _
  refine within_bind within_get fun _ => within_ite (fun _ => within_pure _) fun _ => ?_
  refine within_bind (within_modify fun w => waning_of_ledger (ledger_setCancelled w r)) fun _ => ?_
  refine within_ite (fun _ => ?_) fun _ => within_pure _
  exact within_bind (waning_of_frame (frame_ledger (frame_customCancel r))) fun _ =>
    within_forM _ fun e _ => waning_settle h fuel e.1 e.2

lemma waning_stopProducing (r : ℕ) : Within Waning (modify (Request.stopProducing r) : M PUnit) :=
  within_modify fun w => waning_of_ledger (ledger_of_core (slows_stopRequest r w).core)

lemma waning_loseRequest (h : Hooks) (fuel : ℕ) (reason : Exn) (r : ℕ) :
    Within Waning (h.loseRequest fuel reason r) := by
  refine within_bind (waning_stopProducing r) fun _ =>
    within_bind (waning_cancelIfStarted h fuel r) fun _ => ?_
  exact within_tryCatch (waning_settle h fuel r _) fun e =>
    within_ite (fun _ => within_pure _) fun _ => within_throw e

/-! ### What is gone -/

lemma settle_raises (fuel : ℕ) (hw : Entries w) (hr : Unregistered w r) (o : Outcome) :
    (h.settle (fuel + 1) r o).run w = .error .keyError (w.cleanedTwice r) :=
  run_bind_error (hw.settle_raises hr o)

/-- After `done` or `error` a request is not registered. -/
lemma unregistered_settle (fuel : ℕ) (hw : Entries w) (r : ℕ) (o : Outcome) :
    Unregistered (after (h.settle (fuel + 1) r o) w) r := by
  rcases registered_or w r with ⟨i, hi⟩ | hr
  · have hgone := unregistered_finish hw hi o
    have hrun := hw.settle_run hi o
    have hrest : Within Waning (tryCatch ((h.onFired r o).forM fun e => h.settle fuel e.1 e.2)
        fun e => if e = .outOfFuel then throw e else pure ⟨⟩) :=
      within_tryCatch (within_forM _ fun e _ => waning_settle h fuel e.1 e.2) fun e =>
        within_ite (fun _ => within_throw e) fun _ => within_pure _
    have hwane := (hrest _ (waning_finish hi o hw).1).2
    unfold Hooks.settle
    rw [after_bind, hrun]
    exact hwane.unregistered hgone
  · rw [after_of_error (settle_raises fuel hw hr o)]
    exact (waning_cleanedTwice hr hw).2.unregistered hr

/-- A list of calls that returns begins with a request that is registered. -/
lemma registered_of_forM {e : Ending} {l : List Ending} (hw : Entries w)
    (hret : raised ((e :: l).forM fun e => h.settle (fuel + 1) e.1 e.2) w = none) :
    ∃ i, w.requests.get? i = some e.1 := by
  rcases registered_or w e.1 with hi | hr
  · exact hi
  · have hrun := run_bind_error (f := fun _ => l.forM fun e => h.settle (fuel + 1) e.1 e.2)
      (settle_raises (h := h) fuel hw hr e.2)
    exact absurd hret (raised_ne_none hrun)

/-- What a list of calls begins with is not registered after it. -/
lemma unregistered_forM (fuel : ℕ) {e : Ending} {l : List Ending} (hw : Entries w) :
    Unregistered (after ((e :: l).forM fun e => h.settle (fuel + 1) e.1 e.2) w) e.1 := by
  have hgone := unregistered_settle (h := h) fuel hw e.1 e.2
  have hent := (waning_settle h (fuel + 1) e.1 e.2 w hw).1
  refine after_bind_of (x := h.settle (fuel + 1) e.1 e.2) (P := fun t => Unregistered t e.1)
    (fun _ t ht => ?_) fun _ t ht => ?_
  · rw [after_of_ok ht] at hgone hent
    have hrest : Within Waning (l.forM fun e => h.settle (fuel + 1) e.1 e.2) :=
      within_forM _ fun e _ => waning_settle h (fuel + 1) e.1 e.2
    exact (hrest t hent).2.unregistered hgone
  · rwa [after_of_error ht] at hgone

end Hooks

end Magicicada.Client
