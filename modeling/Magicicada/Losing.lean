import Magicicada.Callbacks

/-!
Which requests `connectionLost` reaches when callbacks end requests.

The loop runs over a copy of the registry. A request that is gone when its turn comes cannot be
deleted again, and what `cleanup` then raises is not what the loop catches.
-/

namespace Magicicada.Client

open Pb Errors Requests Prog

namespace Hooks

variable {h : Hooks} {fuel r : ℕ} {w : World} {reason : Exn} {l : List ℕ}

/-! ### What the condition reads -/

/-- What the turn of a request depends on. -/
def facts (q : Request) : Option ℤ × Kind × Bool := (q.id, q.kind, q.cancelled)

/-- What leaves the facts of a request alone. -/
abbrev Spares (r : ℕ) : World → World → Prop := Frame fun w => facts (w.objs r)

lemma facts_of_core {s t : World} (h : t.core = s.core) (r : ℕ) :
    facts (t.objs r) = facts (s.objs r) := by
  have hfacts := congrArg facts (objs_of_core h r)
  exact hfacts

lemma spares_of_core {α : Type} {x : M α} (hx : Within (Frame World.core) x) (r : ℕ) :
    Within (Spares r) x := hx.mono fun _ _ hst => facts_of_core hst r

lemma spares_modifyObj {a : ℕ} {f : Request → Request} (hf : a ≠ r ∨ ∀ q, facts (f q) = facts q) :
    Within (Spares r) (modifyObj a f) := by
  refine within_modify fun w => ?_
  show facts ((w.setObj a f).objs r) = facts (w.objs r)
  by_cases har : r = a
  · subst har
    rw [setObj_objs_self]
    exact (hf.resolve_left fun hne => hne rfl) _
  · rw [setObj_objs_of_ne har]

lemma spares_fault (f : Fault) : Within (Spares r) (fault f) := within_modify fun _ => rfl

lemma spares_request_settle (a : ℕ) (o : Outcome) : Within (Spares r) (Request.settle a o) := by
  have hset : ∀ (f : Request → Request) (w : World), (∀ q, facts (f q) = facts q) →
      Spares r w (w.setObj a f) := fun f w hf => spares_modifyObj (Or.inr hf) w
  have hcleanup : Within (Spares r) (Request.cleanup a) :=
    along_cleanup (fun w => hset _ w fun _ => rfl) (fun _ _ => rfl) (fun _ _ => rfl) spares_fault
  exact along_settle hcleanup spares_fault fun w => hset _ w fun _ => rfl

lemma spares_settle (h : Hooks) (fuel : ℕ) : ∀ a o, Within (Spares r) (h.settle fuel a o) := by
  induction fuel with
  | zero => exact fun _ _ => within_throw _
  | succ fuel ih =>
    intro a o
    refine within_bind (spares_request_settle a o) fun _ => within_tryCatch
      (within_forM _ fun e _ => ih e.1 e.2) fun e => ?_
    exact within_ite (fun _ => within_throw e) fun _ => within_pure _

/-- The turn of a request changes the facts of no other. -/
lemma spares_loseRequest (h : Hooks) (fuel : ℕ) (reason : Exn) {a : ℕ} (ha : a ≠ r) :
    Within (Spares r) (h.loseRequest fuel reason a) := by
  have hstop : Within (Frame World.core) (modify (Request.stopProducing a) : M PUnit) :=
    within_modify fun w => (slows_stopRequest a w).core
  refine within_bind (spares_of_core hstop r) fun _ => within_bind ?_ fun _ => ?_
  · refine within_bind within_get fun _ => within_ite (fun _ => ?_) fun _ => within_pure _
    refine within_bind within_get fun _ => within_ite (fun _ => within_pure _) fun _ => ?_
    refine within_bind (spares_modifyObj (Or.inl ha)) fun _ => ?_
    refine within_ite (fun _ => ?_) fun _ => within_pure _
    exact within_bind (spares_of_core (frame_customCancel a) r) fun _ =>
      within_forM _ fun e _ => spares_settle h fuel e.1 e.2
  · exact within_tryCatch (spares_settle h fuel a _) fun e =>
      within_ite (fun _ => within_pure _) fun _ => within_throw e

/-! ### The condition -/

/-- Whether what a `_cancel` sends can be sent. -/
def Sendable (q : Request) : Prop :=
  match q.kind with
  | .getContent _ | .putContent _ => ∃ i, q.id = some i ∧ int32 i = true
  | _ => True

/-- Nothing but the program's own code runs when the request is cancelled. -/
def Quits (h : Hooks) (r : ℕ) (q : Request) : Prop :=
  q.cancelled = true ∨ h.onCancel r = [] ∧ Sendable q

/-- No request is ended before its turn: every request quits, and a callback that ends requests
begins with one that is not still to come. -/
def Undisturbed (h : Hooks) (reason : Exn) (objs : ℕ → Request) : List ℕ → Prop
  | [] => True
  | r :: l => (Quits h r (objs r) ∧
      ∀ e ∈ (h.onFired r (.errback reason)).head?, e.1 ∉ l) ∧ Undisturbed h reason objs l

lemma quits_of_facts {q q' : Request} (hq : facts q' = facts q) : Quits h r q' ↔ Quits h r q := by
  obtain ⟨hid, hkind, hcancelled⟩ :
      q'.id = q.id ∧ q'.kind = q.kind ∧ q'.cancelled = q.cancelled := by
    simpa [facts] using hq
  unfold Quits Sendable
  rw [hid, hkind, hcancelled]

lemma undisturbed_congr {objs objs' : ℕ → Request} : ∀ {l : List ℕ},
    (∀ r ∈ l, facts (objs' r) = facts (objs r)) →
      (Undisturbed h reason objs' l ↔ Undisturbed h reason objs l)
  | [], _ => Iff.rfl
  | r :: _, hl => and_congr
      (and_congr_left' (quits_of_facts (hl r List.mem_cons_self)))
      (undisturbed_congr fun r' hr' => hl r' (List.mem_cons_of_mem r hr'))

/-! ### The turn of a request -/

lemma sendMessage_returns_iff {m : Message} : raised (Request.sendMessage r m) w = none ↔
    ∃ i, (w.objs r).id = some i ∧ int32 i = true := by
  unfold Request.sendMessage
  rw [raised_get_bind]
  cases (w.objs r).id with
  | none => simp [raised]
  | some i => cases hi : int32 i <;> simp [raised, hi]

lemma customCancel_returns_iff :
    raised (Client.customCancel r) w = none ↔ Sendable (w.objs r) := by
  have hstop : (withProducer r BytesMessageProducer.stopProducing w).objs = w.objs := by
    unfold withProducer
    split <;> rfl
  unfold Client.customCancel Sendable
  rw [raised_get_bind]
  cases (w.objs r).kind with
  | getContent c => exact sendMessage_returns_iff
  | putContent c =>
    refine (sendMessage_returns_iff (w := withProducer r _ w)).trans ?_
    rw [hstop]
  | _ => simp [raised]

/-- Cancelling a request that is started and not finished. -/
lemma cancelIfStarted_run (hst : (w.objs r).started = true) (hfin : (w.objs r).finished = false) :
    (h.cancelIfStarted fuel r).run w =
      if (w.objs r).cancelled then .ok ⟨⟩ w else
        (h.customCancel fuel r).run (w.setObj r fun q => { q with cancelled := true }) := by
  cases hc : (w.objs r).cancelled with
  | true =>
    have hself : (w.setObj r fun q => { q with cancelled := true }) = w :=
      setObj_eq_self (by rw [← hc])
    simp [cancelIfStarted, cancel, modifyObj, hst, hfin, hc, hself]
  | false => simp [cancelIfStarted, cancel, modifyObj, hst, hfin, hc]

/-- When cancelling returns, nothing else ran, or another request is gone. -/
lemma cancelIfStarted_returns {i : ℤ} {t : World} (hw : Entries w)
    (hr : w.requests.get? i = some r) (hrun : (h.cancelIfStarted (fuel + 1) r).run w = .ok ⟨⟩ t) :
    Quits h r (w.objs r) ∨ ∃ a, (∃ j, w.requests.get? j = some a) ∧ Unregistered t a := by
  obtain ⟨-, hst, hfin, -⟩ := hw.entry i r hr
  rw [cancelIfStarted_run hst hfin] at hrun
  split at hrun
  · next hc => exact Or.inl (Or.inl hc)
  · have hmark : Waning w (w.setObj r fun q => { q with cancelled := true }) :=
      waning_of_ledger (ledger_setCancelled w r)
    generalize hu : (w.setObj r fun q => { q with cancelled := true }) = u at hrun hmark
    cases hcustom : (Client.customCancel r).run u with
    | error e v => exact nomatch (run_bind_error hcustom).symm.trans hrun
    | ok _ v =>
      have hframe := frame_ledger (frame_customCancel r) |>.ok hcustom
      obtain ⟨hv, -⟩ := waning_of_ledger hframe (hmark hw).1
      have hsend : Sendable (w.objs r) := by
        have hsent := customCancel_returns_iff.mp (raised_of_ok hcustom)
        simpa [← hu, Sendable] using hsent
      have hforM : ((h.onCancel r).forM fun e => h.settle (fuel + 1) e.1 e.2).run v = .ok ⟨⟩ t :=
        (run_bind_ok hcustom).symm.trans hrun
      cases hon : h.onCancel r with
      | nil => exact Or.inl (Or.inr ⟨hon, hsend⟩)
      | cons e l =>
        rw [hon] at hforM
        obtain ⟨j, hj⟩ := registered_of_forM hv (raised_of_ok hforM)
        have hgone := unregistered_forM (h := h) (e := e) (l := l) fuel hv
        rw [after_of_ok hforM] at hgone
        have hreq : v.requests = w.requests := (requests_of_ledger hframe).trans (by rw [← hu]; rfl)
        exact Or.inr ⟨e.1, ⟨j, hreq ▸ hj⟩, hgone⟩

/-- What `done` and `error` of a registered request leave is what the callbacks leave. -/
lemma after_settle {i : ℤ} (hw : Entries w) (hr : w.requests.get? i = some r) (o : Outcome) :
    after (h.settle (fuel + 1) r o) w =
      after ((h.onFired r o).forM fun e => h.settle fuel e.1 e.2) (w.finish r i o) := by
  rw [settle, after_bind, hw.settle_run hr o]
  refine after_tryCatch fun e t => ?_
  split <;> rfl

/-- What the callbacks begin with is not registered after them. -/
lemma unregistered_fired {i : ℤ} (hw : Entries w) (hr : w.requests.get? i = some r) {o : Outcome}
    {e : Ending} (he : e ∈ (h.onFired r o).head?) :
    Unregistered (after (h.settle (fuel + 2) r o) w) e.1 := by
  obtain ⟨l, hl⟩ := List.head?_eq_some_iff.mp he
  rw [after_settle hw hr, hl]
  exact unregistered_forM _ (waning_finish hr o hw).1

/-- `error` of a request that is gone raises, and the loop does not catch it. -/
lemma registered_of_catch {t : World} (hw : Entries w)
    (hcatch : (tryCatch (h.settle (fuel + 1) r (.errback reason)) fun e =>
      if e = .alreadyCalledError then pure ⟨⟩ else throw e : M PUnit).run w = .ok ⟨⟩ t) :
    ∃ i, w.requests.get? i = some r := by
  rcases registered_or w r with hi | hgone
  · exact hi
  · rw [run_tryCatch, settle_raises _ hw hgone] at hcatch
    exact nomatch hcatch

/-- **When the turn of a registered request returns**, the request is gone, and so is what its
callbacks begin with; and it quit, or another request is gone. -/
lemma loseRequest_returns {i : ℤ} {t : World} (hw : Entries w) (hr : w.requests.get? i = some r)
    (hrun : (h.loseRequest (fuel + 2) reason r).run w = .ok ⟨⟩ t) :
    Unregistered t r ∧
    (Quits h r (w.objs r) ∨ ∃ a, a ≠ r ∧ (∃ j, w.requests.get? j = some a) ∧ Unregistered t a) ∧
    ∀ e ∈ (h.onFired r (.errback reason)).head?, Unregistered t e.1 := by
  have hcore := (slows_stopRequest r w).core
  have hreq : (Request.stopProducing r w).requests = w.requests :=
    requests_of_ledger (ledger_of_core hcore)
  obtain ⟨hstop, -⟩ := waning_of_ledger (ledger_of_core hcore) hw
  rw [← hreq] at hr
  cases hcancel : (h.cancelIfStarted (fuel + 2) r).run (Request.stopProducing r w) with
  | error e u => exact nomatch (run_bind_error hcancel).symm.trans hrun
  | ok _ u =>
    obtain ⟨hu, -⟩ := (waning_cancelIfStarted h (fuel + 2) r).ok hcancel hstop
    have hcatch : (tryCatch (h.settle (fuel + 2) r (.errback reason)) fun e =>
        if e = .alreadyCalledError then pure ⟨⟩ else throw e : M PUnit).run u = .ok ⟨⟩ t :=
      (run_bind_ok hcancel).symm.trans hrun
    obtain ⟨j, hj⟩ := registered_of_catch hu hcatch
    have hafter : after (h.settle (fuel + 2) r (.errback reason)) u = t := by
      rw [← after_of_ok hcatch, after_tryCatch fun e v => ?_]
      split <;> rfl
    have hwane := (waning_settle h (fuel + 2) r (.errback reason) u hu).2
    rw [hafter] at hwane
    refine ⟨hafter ▸ unregistered_settle _ hu r _, ?_, fun e he => ?_⟩
    · rcases cancelIfStarted_returns hstop hr hcancel with hquits | ⟨a, ha, hgone⟩
      · exact Or.inl ((quits_of_facts (facts_of_core hcore r)).mp hquits)
      · refine Or.inr ⟨a, ?_, hreq ▸ ha, hwane.unregistered hgone⟩
        rintro rfl
        exact hgone j hj
    · exact hafter ▸ unregistered_fired hu hj he

/-- Cancelling a request that quits returns, and changes nothing that is registered. -/
lemma cancelIfStarted_of_quits {i : ℤ} (hw : Entries w) (hr : w.requests.get? i = some r)
    (hq : Quits h r (w.objs r)) : ∃ t, (h.cancelIfStarted fuel r).run w = .ok ⟨⟩ t ∧
      t.ledger = w.ledger := by
  obtain ⟨-, hst, hfin, -⟩ := hw.entry i r hr
  rw [cancelIfStarted_run hst hfin]
  split
  · exact ⟨w, rfl, rfl⟩
  · next hc =>
    obtain ⟨hon, hsend⟩ := hq.resolve_left hc
    have hmark := ledger_setCancelled w r
    generalize hu : (w.setObj r fun q => { q with cancelled := true }) = u at hmark ⊢
    have hreturns : raised (Client.customCancel r) u = none := by
      rw [customCancel_returns_iff, ← hu, setObj_objs_self]
      exact hsend
    have hcustom := run_of_not_raised hreturns
    refine ⟨after (Client.customCancel r) u, ?_, ?_⟩
    · unfold customCancel
      rw [run_bind_ok hcustom, hon]
      rfl
    · exact (frame_ledger (frame_customCancel r) u).trans hmark

/-- The callback of a request that ends nothing registered is as good as none. -/
lemma settle_of_quiet {i : ℤ} {o : Outcome} (hw : Entries w) (hr : w.requests.get? i = some r)
    (he : ∀ e ∈ (h.onFired r o).head?, Unregistered (w.finish r i o) e.1) :
    ∃ t, (h.settle (fuel + 2) r o).run w = .ok ⟨⟩ t ∧ t.requests = w.requests.erase i := by
  rw [settle, run_bind_ok (hw.settle_run hr o), run_tryCatch]
  cases hon : h.onFired r o with
  | nil => exact ⟨_, rfl, rfl⟩
  | cons e l =>
    rw [hon] at he
    have hraises := settle_raises (h := h) fuel (waning_finish hr o hw).1 (he e rfl) e.2
    have hforM : ((e :: l).forM fun e => h.settle (fuel + 1) e.1 e.2).run (w.finish r i o) =
        .error .keyError ((w.finish r i o).cleanedTwice e.1) := run_bind_error hraises
    refine ⟨(w.finish r i o).cleanedTwice e.1, ?_, rfl⟩
    rw [hforM]
    rfl

/-- **The turn of a request that ends no other** returns, and takes the request out. -/
lemma loseRequest_run (hw : Entries w) (hl : w.requests.values = r :: l)
    (hq : Quits h r (w.objs r)) (he : ∀ e ∈ (h.onFired r (.errback reason)).head?, e.1 ∉ l) :
    ∃ t, (h.loseRequest (fuel + 2) reason r).run w = .ok ⟨⟩ t ∧ t.requests.values = l := by
  obtain ⟨i, hi, hrest⟩ := Dict.values_cons hl
  have hcore := (slows_stopRequest r w).core
  have hreq : (Request.stopProducing r w).requests = w.requests :=
    requests_of_ledger (ledger_of_core hcore)
  obtain ⟨hstop, -⟩ := waning_of_ledger (ledger_of_core hcore) hw
  obtain ⟨u, hcancel, hledger⟩ := cancelIfStarted_of_quits (h := h) hstop
    (hreq ▸ hi) ((quits_of_facts (facts_of_core hcore r)).mpr hq)
  obtain ⟨hu, -⟩ := waning_of_ledger hledger hstop
  have hureq : u.requests = w.requests := (requests_of_ledger hledger).trans hreq
  have hquiet : ∀ e ∈ (h.onFired r (.errback reason)).head?,
      Unregistered (u.finish r i (.errback reason)) e.1 := by
    intro e hmem j hj
    rw [finish_requests, hureq] at hj
    exact he e hmem (hrest ▸ Dict.mem_values_iff.mpr ⟨j, hj⟩)
  obtain ⟨t, hset, ht⟩ := settle_of_quiet hu (hureq ▸ hi) hquiet
  refine ⟨t, ?_, by rw [ht, hureq, hrest]⟩
  show (h.cancelIfStarted (fuel + 2) r >>= fun _ =>
    tryCatch (h.settle (fuel + 2) r (.errback reason)) fun e =>
      if e = .alreadyCalledError then pure ⟨⟩ else throw e : M PUnit).run
    (Request.stopProducing r w) = .ok ⟨⟩ t
  rw [run_bind_ok hcancel, run_tryCatch, hset]

/-! ### The loop -/

lemma loop_cons_run {fuel : ℕ} {t : World} (hrun : (h.loseRequest fuel reason r).run w = .ok ⟨⟩ t) :
    ((r :: l).forM (h.loseRequest fuel reason)).run w =
      (l.forM (h.loseRequest fuel reason)).run t := run_bind_ok hrun

/-- The first turn of a loop that returns, and the rest. -/
lemma loop_cons_returns {fuel : ℕ}
    (hret : raised ((r :: l).forM (h.loseRequest fuel reason)) w = none) :
    ∃ t, (h.loseRequest fuel reason r).run w = .ok ⟨⟩ t ∧
      raised (l.forM (h.loseRequest fuel reason)) t = none := by
  cases hrun : (h.loseRequest fuel reason r).run w with
  | error e t =>
    have hloop : ((r :: l).forM (h.loseRequest fuel reason)).run w = .error e t :=
      run_bind_error hrun
    exact absurd hret (raised_ne_none hloop)
  | ok _ t =>
    refine ⟨t, rfl, ?_⟩
    unfold raised at hret ⊢
    rwa [loop_cons_run hrun] at hret

/-- A loop that returns finds every request where it was. -/
lemma registered_of_loop : ∀ {l : List ℕ} {w : World}, Entries w →
    raised (l.forM (h.loseRequest (fuel + 1) reason)) w = none →
      ∀ r ∈ l, ∃ i, w.requests.get? i = some r
  | [], _, _, _ => nofun
  | a :: l, w, hw, hret => by
    obtain ⟨t, hrun, hrest⟩ := loop_cons_returns hret
    obtain ⟨ht, hwane⟩ := (waning_loseRequest h (fuel + 1) reason a).ok hrun hw
    intro r hr
    rcases List.mem_cons.mp hr with rfl | hr
    · have hstop := waning_stopProducing r w hw
      cases hcancel : (h.cancelIfStarted (fuel + 1) r).run (Request.stopProducing r w) with
      | error e u => exact nomatch (run_bind_error hcancel).symm.trans hrun
      | ok _ u =>
        obtain ⟨hu, hwane⟩ := (waning_cancelIfStarted h (fuel + 1) r).ok hcancel hstop.1
        obtain ⟨i, hi⟩ := registered_of_catch hu ((run_bind_ok hcancel).symm.trans hrun)
        exact ⟨i, hstop.2.requests i r (hwane.requests i r hi)⟩
    · obtain ⟨i, hi⟩ := registered_of_loop ht hrest r hr
      exact ⟨i, hwane.requests i r hi⟩

lemma Entries.nodup_values (hw : Entries w) : w.requests.values.Nodup :=
  Dict.nodup_values fun _ _ _ hj hk => hw.eq_of_get? hj hk

/-- The turn of a request in a loop that returns takes that request out and no other. -/
lemma values_of_loop {t : World} (hw : Entries w) (hl : w.requests.values = r :: l)
    (hrun : (h.loseRequest (fuel + 2) reason r).run w = .ok ⟨⟩ t)
    (hrest : raised (l.forM (h.loseRequest (fuel + 2) reason)) t = none) :
    t.requests.values = l := by
  obtain ⟨i, hi, -⟩ := Dict.values_cons hl
  obtain ⟨ht, hwane⟩ := (waning_loseRequest h (fuel + 2) reason r).ok hrun hw
  have hgone := (loseRequest_returns hw hi hrun).1
  have hnodup : l.Nodup := (hl ▸ Entries.nodup_values hw : (r :: l).Nodup).of_cons
  have hsub : t.requests.values.Sublist l := by
    have hsub := hl ▸ hwane.values
    refine (List.sublist_cons_iff.mp hsub).resolve_right ?_
    rintro ⟨l', hl', -⟩
    obtain ⟨j, hj⟩ := Dict.mem_values_iff.mp (hl' ▸ List.mem_cons_self : r ∈ t.requests.values)
    exact hgone j hj
  have hall : l ⊆ t.requests.values := fun a ha =>
    Dict.mem_values_iff.mpr (registered_of_loop ht hrest a ha)
  exact hsub.eq_of_length_le (hnodup.subperm hall).length_le

/-- **The loop returns** just when nothing that the callbacks do disturbs it. -/
lemma loop_returns_iff : ∀ {l : List ℕ} {w : World}, Entries w → w.requests.values = l →
    (raised (l.forM (h.loseRequest (fuel + 2) reason)) w = none ↔
      Undisturbed h reason w.objs l)
  | [], _, _, _ => ⟨fun _ => trivial, fun _ => rfl⟩
  | r :: l, w, hw, hl => by
    obtain ⟨i, hi, -⟩ := Dict.values_cons hl
    have hnodup : (r :: l).Nodup := hl ▸ Entries.nodup_values hw
    have hne : ∀ a ∈ l, a ≠ r := fun a ha har => (List.nodup_cons.mp hnodup).1 (har ▸ ha)
    have hcongr : ∀ t, (h.loseRequest (fuel + 2) reason r).run w = .ok ⟨⟩ t →
        (Undisturbed h reason t.objs l ↔ Undisturbed h reason w.objs l) := fun t hrun =>
      undisturbed_congr fun a ha => (spares_loseRequest h (fuel + 2) reason (hne a ha).symm).ok hrun
    constructor
    · intro hret
      obtain ⟨t, hrun, hrest⟩ := loop_cons_returns hret
      have ht := ((waning_loseRequest h (fuel + 2) reason r).ok hrun hw).1
      have hvalues := values_of_loop hw hl hrun hrest
      have hstays : ∀ a ∈ l, ¬Unregistered t a := fun a ha hgone =>
        let ⟨j, hj⟩ := registered_of_loop ht hrest a ha
        hgone j hj
      obtain ⟨-, hquits, hfired⟩ := loseRequest_returns hw hi hrun
      refine ⟨⟨hquits.resolve_right ?_, fun e he hmem => hstays e.1 hmem (hfired e he)⟩,
        (hcongr t hrun).mp ((loop_returns_iff ht hvalues).mp hrest)⟩
      rintro ⟨a, har, ⟨j, hj⟩, hgone⟩
      have hmem : a ∈ r :: l := hl ▸ Dict.mem_values_iff.mpr ⟨j, hj⟩
      exact hstays a ((List.mem_cons.mp hmem).resolve_left har) hgone
    · rintro ⟨⟨hq, he⟩, hrest⟩
      obtain ⟨t, hrun, hvalues⟩ := loseRequest_run hw hl hq he
      have ht := ((waning_loseRequest h (fuel + 2) reason r).ok hrun hw).1
      have hrest := (loop_returns_iff ht hvalues).mpr ((hcongr t hrun).mpr hrest)
      unfold raised at hrest ⊢
      rwa [loop_cons_run hrun]

/-- A loop that returns leaves nothing registered. -/
lemma values_after_loop : ∀ {l : List ℕ} {w : World}, Entries w → w.requests.values = l →
    raised (l.forM (h.loseRequest (fuel + 2) reason)) w = none →
      (after (l.forM (h.loseRequest (fuel + 2) reason)) w).requests.values = []
  | [], _, _, hl, _ => hl
  | r :: l, w, hw, hl, hret => by
    obtain ⟨t, hrun, hrest⟩ := loop_cons_returns hret
    have ht := ((waning_loseRequest h (fuel + 2) reason r).ok hrun hw).1
    have hempty := values_after_loop ht (values_of_loop hw hl hrun hrest) hrest
    unfold after at hempty ⊢
    rwa [loop_cons_run hrun]

/-! ### How deep callbacks are nested -/

/-- Deleting a key makes the dictionary smaller. -/
lemma length_erase_lt {d : Dict ℤ ℕ} {i : ℤ} {r : ℕ} (h : d.get? i = some r) :
    (d.erase i).values.length < d.values.length := by
  unfold Dict.values Dict.erase
  rw [List.length_map, List.length_map]
  exact List.length_filter_lt_length_iff_exists.mpr
    ⟨(i, r), Dict.get?_eq_some_iff.mp h, by simp⟩

lemma forM_fueled {f : Ending → M PUnit} (hwane : ∀ e, Within Waning (f e)) {n : ℕ}
    (hf : ∀ e w, Entries w → w.requests.values.length < n → raised (f e) w ≠ some .outOfFuel) :
    ∀ (l : List Ending) {w : World}, Entries w → w.requests.values.length < n →
      raised (l.forM f) w ≠ some .outOfFuel
  | [], _, _, _ => nofun
  | e :: l, w, hw, hn => raised_bind_ne (hf e w hw hn) fun _ t ht => by
    obtain ⟨ht, hsub⟩ := (hwane e).ok ht hw
    exact forM_fueled hwane hf l ht (hsub.values.length_le.trans_lt hn)

/-- A callback only runs when a request was taken out, so that many requests are deep enough. -/
lemma settle_fueled (h : Hooks) (fuel : ℕ) : ∀ (e : Ending) (w : World), Entries w →
    w.requests.values.length < fuel → raised (h.settle fuel e.1 e.2) w ≠ some .outOfFuel := by
  induction fuel with
  | zero => exact fun _ _ _ hn => absurd hn (Nat.not_lt_zero _)
  | succ fuel ih =>
    rintro ⟨r, o⟩ w hw hn
    rcases registered_or w r with ⟨i, hi⟩ | hr
    · refine raised_bind_ne ?_ fun _ t ht => ?_
      · exact raised_ne_some (hw.settle_run hi o) _
      obtain rfl : w.finish r i o = t := by
        rw [hw.settle_run hi o] at ht
        cases ht
        rfl
      have hsmaller := length_erase_lt hi
      refine raised_tryCatch_ne (forM_fueled (fun e => waning_settle h fuel e.1 e.2) ih _
        (waning_finish hi o hw).1 (by rw [finish_requests]; omega)) fun e t he => ?_
      rw [if_neg he]
      exact nofun
    · rw [raised_of_error (settle_raises _ hw hr o)]
      exact nofun

lemma customCancel_fueled (r : ℕ) (w : World) :
    raised (Client.customCancel r) w ≠ some .outOfFuel := by
  have hsend : ∀ (m : Message) (w : World),
      raised (Request.sendMessage r m) w ≠ some .outOfFuel := by
    intro m w
    unfold Request.sendMessage
    rw [raised_get_bind]
    cases (w.objs r).id with
    | none => simp [raised]
    | some i => cases hi : int32 i <;> simp [raised, hi]
  unfold Client.customCancel
  rw [raised_get_bind]
  cases (w.objs r).kind with
  | getContent c => exact hsend _ _
  | putContent c => exact hsend _ _
  | _ => simp [raised]

lemma loseRequest_fueled (hw : Entries w) (hn : w.requests.values.length < fuel) :
    raised (h.loseRequest fuel reason r) w ≠ some .outOfFuel := by
  have hforM : ∀ (l : List Ending) {u : World}, Entries u → u.requests.values.length < fuel →
      raised (l.forM fun e => h.settle fuel e.1 e.2) u ≠ some Exn.outOfFuel := fun l =>
    forM_fueled (fun e => waning_settle h fuel e.1 e.2) (settle_fueled h fuel) l
  obtain ⟨hstop, hwane⟩ := waning_stopProducing r w hw
  have hn' := hwane.values.length_le.trans_lt hn
  refine raised_bind_ne nofun fun _ t ht => ?_
  obtain rfl : Request.stopProducing r w = t := by cases ht; rfl
  refine raised_bind_ne ?_ fun _ u hu => ?_
  · refine raised_bind_ne nofun fun _ t ht => ?_
    cases ht
    split
    · refine raised_bind_ne nofun fun _ t ht => ?_
      cases ht
      split
      · exact nofun
      · refine raised_bind_ne nofun fun _ t ht => ?_
        obtain ⟨hmark, hwane⟩ := (within_modify fun w =>
          waning_of_ledger (ledger_setCancelled w r)).ok ht hstop
        split
        · refine raised_bind_ne (customCancel_fueled r t) fun _ v hv => ?_
          obtain ⟨hv, hwane'⟩ := (waning_of_frame (frame_ledger (frame_customCancel r))).ok hv hmark
          exact hforM _ hv ((hwane'.values.trans hwane.values).length_le.trans_lt hn')
        · exact nofun
    · exact nofun
  · obtain ⟨hu, hwane⟩ := (waning_cancelIfStarted h fuel r).ok hu hstop
    refine raised_tryCatch_ne (settle_fueled h fuel (r, _) u hu
      (hwane.values.length_le.trans_lt hn')) fun e t he => ?_
    split
    · exact nofun
    · exact fun hr => he (Option.some.inj hr)

lemma loop_fueled (reason : Exn) : ∀ (l : List ℕ) {w : World}, Entries w →
    w.requests.values.length < fuel →
      raised (l.forM (h.loseRequest fuel reason)) w ≠ some .outOfFuel
  | [], _, _, _ => nofun
  | r :: l, w, hw, hn => raised_bind_ne (loseRequest_fueled hw hn) fun _ t ht => by
    obtain ⟨ht, hsub⟩ := (waning_loseRequest h fuel reason r).ok ht hw
    exact loop_fueled reason l ht (hsub.values.length_le.trans_lt hn)

/-! ### The whole of it -/

lemma connectionLost_run (h : Hooks) (fuel : ℕ) (reason : Exn) (w : World) :
    (h.connectionLost fuel reason).run w =
      (w.requests.values.forM (h.loseRequest fuel reason)).run (unregisterSelf w) := by
  have hreq : (unregisterSelf w).requests = w.requests :=
    requests_of_ledger (ledger_of_core (core_unregisterSelf w))
  simp [connectionLost, hreq]

/-- Without callbacks it is `connectionLost`. -/
lemma connectionLost_none (fuel : ℕ) (reason : Exn) :
    ({} : Hooks).connectionLost (fuel + 1) reason = Client.connectionLost reason := by
  have hsettle : ∀ r o, ({} : Hooks).settle (fuel + 1) r o = Request.settle r o := by
    intro r o
    show (Request.settle r o >>= fun _ => pure ⟨⟩) = Request.settle r o
    simp
  have hcustom : ∀ r, ({} : Hooks).customCancel (fuel + 1) r = Client.customCancel r := by
    intro r
    show (Client.customCancel r >>= fun _ => pure ⟨⟩) = Client.customCancel r
    simp
  have hlose : ({} : Hooks).loseRequest (fuel + 1) reason = Client.loseRequest reason := by
    funext r
    simp only [Hooks.loseRequest, Hooks.cancelIfStarted, Hooks.cancel, hsettle, hcustom]
    rfl
  unfold Hooks.connectionLost Client.connectionLost
  rw [hlose]

/-- `connectionLost` returns, the registry is empty, and the deferred of every request that was
outstanding has fired, and none a second time. -/
structure Reaches (h : Hooks) (fuel : ℕ) (reason : Exn) (w : World) : Prop where
  returns : raised (h.connectionLost fuel reason) w = none
  empty : (after (h.connectionLost fuel reason) w).requests.isEmpty = true
  fired : ∀ i r, w.requests.get? i = some r →
    ((after (h.connectionLost fuel reason) w).objs r).deferred ≠ none
  once : (after (h.connectionLost fuel reason) w).faults.count .firedTwice =
    w.faults.count .firedTwice

lemma reaches_of_returns (hw : Entries w)
    (hret : raised (h.connectionLost (fuel + 2) reason) w = none) :
    h.Reaches (fuel + 2) reason w := by
  have hreq : (unregisterSelf w).requests = w.requests :=
    requests_of_ledger (ledger_of_core (core_unregisterSelf w))
  obtain ⟨hu, hwane⟩ := waning_of_ledger (ledger_of_core (core_unregisterSelf w)) hw
  have hafter : after (h.connectionLost (fuel + 2) reason) w =
      after (w.requests.values.forM (h.loseRequest (fuel + 2) reason)) (unregisterSelf w) := by
    unfold after
    rw [connectionLost_run]
  have hloop : Within Waning (w.requests.values.forM (h.loseRequest (fuel + 2) reason)) :=
    within_forM _ fun r _ => waning_loseRequest h (fuel + 2) reason r
  have hwane' := (hloop _ hu).2
  have hempty : (after (h.connectionLost (fuel + 2) reason) w).requests.values = [] := by
    rw [hafter]
    refine values_after_loop hu (by rw [hreq]) ?_
    unfold raised at hret ⊢
    rwa [connectionLost_run] at hret
  refine ⟨hret, Dict.isEmpty_iff_values.mpr hempty, fun i r hr => ?_, ?_⟩
  · rw [hafter] at hempty ⊢
    refine (hwane'.left i r (hreq ▸ hr)).resolve_left fun hi => ?_
    exact List.not_mem_nil (hempty ▸ Dict.mem_values_iff.mpr ⟨i, hi⟩)
  · rw [hafter]
    exact hwane'.once.trans hwane.once

lemma returns_iff (hw : Entries w) : raised (h.connectionLost (fuel + 2) reason) w = none ↔
    h.Undisturbed reason w.objs w.requests.values := by
  have hcore := core_unregisterSelf w
  have hreq : (unregisterSelf w).requests = w.requests := requests_of_ledger (ledger_of_core hcore)
  obtain ⟨hu, -⟩ := waning_of_ledger (ledger_of_core hcore) hw
  have hobjs : ∀ r ∈ w.requests.values, facts ((unregisterSelf w).objs r) = facts (w.objs r) :=
    fun r _ => facts_of_core hcore r
  rw [← undisturbed_congr hobjs, ← loop_returns_iff hu (by rw [hreq])]
  unfold raised
  rw [connectionLost_run]

lemma connectionLost_fueled (hw : Entries w) (hn : w.requests.values.length < fuel) :
    raised (h.connectionLost fuel reason) w ≠ some .outOfFuel := by
  have hreq : (unregisterSelf w).requests = w.requests :=
    requests_of_ledger (ledger_of_core (core_unregisterSelf w))
  obtain ⟨hu, -⟩ := waning_of_ledger (ledger_of_core (core_unregisterSelf w)) hw
  have hloop := loop_fueled (h := h) reason w.requests.values hu (by rwa [hreq])
  unfold raised at hloop ⊢
  rwa [connectionLost_run]

/-- **`connectionLost` reaches every request** just when no request is ended before its turn.
A callback of a request whose turn it was may end requests that were reached; one that ends a
request still to come makes the loop raise what `cleanup` raises. -/
theorem reaches_iff (h : Hooks) (reason : Exn) (hw : Entries w)
    (hfuel : w.requests.values.length + 2 ≤ fuel) :
    raised (h.connectionLost fuel reason) w ≠ some .outOfFuel ∧
    (h.Reaches fuel reason w ↔ h.Undisturbed reason w.objs w.requests.values) := by
  obtain ⟨fuel, rfl⟩ : ∃ k, fuel = k + 2 := ⟨fuel - 2, by omega⟩
  refine ⟨connectionLost_fueled hw (by omega), ?_⟩
  rw [← returns_iff hw]
  exact ⟨Reaches.returns, reaches_of_returns hw⟩

end Hooks

/-! ### Two pings -/

/-- Two pings are outstanding. -/
def twoPings : World :=
  Runs.run World.step (World.init (fun _ => .ping) fun _ => ⟨fun _ => .ok [], []⟩)
    [.start 0, .start 1]

lemma entries_twoPings : Entries twoPings :=
  Registry.entries ((initial_init _ _).registry.run ⟨⟨rfl, rfl⟩, ⟨rfl, rfl⟩, trivial⟩)

/-- The errback of one request ends another. -/
def endsOther (r r' : ℕ) : Hooks where
  onFired a _ := if a = r then [(r', .callback)] else []

lemma twoPings_values : twoPings.requests.values = [0, 1] := by decide

/-- The errback of the first ends the second, and `del` raises when it is its turn. -/
theorem not_reaches : ¬∀ (h : Hooks) (reason : Exn) (w : World), Entries w →
    h.Reaches (w.requests.values.length + 2) reason w := by
  intro h
  have hreaches := h (endsOther 0 1) (.connectionLost 0) twoPings entries_twoPings
  have hcond := (Hooks.returns_iff entries_twoPings).mp hreaches.returns
  rw [twoPings_values] at hcond
  exact hcond.1.2 (1, .callback) rfl (List.mem_singleton_self 1)

lemma sendable_twoPings {r : ℕ} (hr : r < 2) : Hooks.Sendable (twoPings.objs r) := by
  have hkind : (twoPings.objs r).kind = .ping := by
    interval_cases r <;> rfl
  simp [Hooks.Sendable, hkind]

/-- The errback of the second calls `done` of the first, which is gone. -/
theorem reaches_twoPings : (endsOther 1 0).Reaches 4 (.connectionLost 0) twoPings := by
  have hfuel : twoPings.requests.values.length + 2 ≤ 4 := by simp [twoPings_values]
  refine (Hooks.reaches_iff _ _ entries_twoPings hfuel).2.mpr ?_
  rw [twoPings_values]
  have hfirst : ((endsOther 1 0).onFired 0 (.errback (.connectionLost 0))).head? = none := by decide
  refine ⟨⟨Or.inr ⟨rfl, sendable_twoPings (by decide)⟩, ?_⟩,
    ⟨Or.inr ⟨rfl, sendable_twoPings (by decide)⟩, fun _ _ => List.not_mem_nil⟩, trivial⟩
  simp [hfirst]

end Magicicada.Client
