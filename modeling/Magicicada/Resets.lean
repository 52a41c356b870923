import Magicicada.Clock

/-!
The reset loops of a factory. An ID field that is not None is taken to mean that the loop runs,
but cancelling the call does not clear the field.
-/

namespace Magicicada.Client

open Pb Errors Requests Prog

variable {w s t : World} {d d' : Dir} {k : ℕ} {func : Func} {loose loose' : Dir → Prop}

/-! ### What leaves the loops alone -/

/-- The delayed calls of the reset loops are in a second. -/
def InASecond (w : World) : Prop := ∀ c ∈ w.calls, ∀ d, c.func = .reset d → c.delay = 1

/-- The reset loops, and whether throttling is on, are as they were. -/
structure SameLoops (s t : World) : Prop where
  enabled : t.enabled = s.enabled
  client : s.client ≠ none → t.client = s.client
  resetId : ∀ d, (t.flow d).resetId = (s.flow d).resetId
  active : ∀ d k, Active t.calls k (.reset d) ↔ Active s.calls k (.reset d)
  delay : InASecond s → InASecond t

instance : IsPreorder World SameLoops where
  refl _ := ⟨rfl, fun _ => rfl, fun _ => rfl, fun _ _ => Iff.rfl, id⟩
  trans _ _ _ h1 h2 := ⟨h2.enabled.trans h1.enabled,
    fun h => (h2.client (by rw [h1.client h]; exact h)).trans (h1.client h),
    fun d => (h2.resetId d).trans (h1.resetId d), fun d k => (h2.active d k).trans (h1.active d k),
    fun h => h2.delay (h1.delay h)⟩

lemma SameLoops.of_clocks (h : t.clocks = s.clocks) : SameLoops s t := by
  have hfac : t.factory = s.factory := congrArg Prod.fst h
  have hcalls : t.calls = s.calls := congrArg Prod.snd h
  refine ⟨enabled_congr hfac, fun _ => client_congr hfac, fun d => by rw [flow_congr hfac],
    fun d k => by rw [hcalls], fun hs c hc => hs c (hcalls ▸ hc)⟩

/-- Fields other than a reset ID change, and calls other than resets come. -/
lemma SameLoops.of_setFlow {f : Flow → Flow} (hfac : t.factory = (s.setFlow d f).factory)
    (hf : (f (s.flow d)).resetId = (s.flow d).resetId)
    (hcalls : t.calls = s.calls ∨ ∃ c : DelayedCall, c.active = true ∧ (∀ d, c.func ≠ .reset d) ∧
      t.calls = s.calls ++ [c]) : SameLoops s t where
  enabled := (enabled_congr hfac).trans enabled_setFlow
  client _ := (client_congr hfac).trans client_setFlow
  resetId d' := by
    rw [flow_congr hfac]
    by_cases hd : d' = d
    · subst hd
      cases hw : s.factory with
      | none => simp [World.flow, World.setFlow, hw]
      | some g => rw [flow_setFlow_self (by rw [hw]; rfl), hf]
    · rw [flow_setFlow_of_ne hd]
  active d k := by
    rcases hcalls with he | ⟨c, hc, hfunc, he⟩ <;> rw [he]
    rw [active_append hc]
    exact or_iff_left fun h => hfunc d h.2
  delay hs c' hc' d := by
    rcases hcalls with he | ⟨c, hc, hfunc, he⟩ <;> rw [he] at hc'
    · exact hs c' hc' d
    · rcases List.mem_append.mp hc' with hc' | hc'
      · exact hs c' hc' d
      · rw [List.mem_singleton.mp hc']
        exact fun h => absurd h (hfunc d)

lemma sameLoops_checkBandwidth (d : Dir) (w : World) : SameLoops w (checkBandwidth d w) := by
  rcases checkBandwidth_cases d w with he | ⟨l, -, -, -, -, hfac, hcalls⟩
  · rw [he]
    exact refl_of SameLoops w
  · exact .of_setFlow hfac rfl (Or.inr ⟨_, rfl, fun _ => Func.noConfusion, hcalls⟩)

lemma sameLoops_register (w : World) (d : Dir) (n : ℕ) : SameLoops w (register d n w) := by
  unfold register
  split
  · exact refl_of SameLoops w
  · split
    · exact trans_of SameLoops (.of_setFlow (d := d) rfl rfl (Or.inl rfl))
        (sameLoops_checkBandwidth d _)
    · exact refl_of SameLoops w

lemma allows_sameLoops : Allows SameLoops where
  same _ _ := .of_clocks
  go s p := .of_setFlow (d := .reads) (f := id) (by cases hs : s.factory <;>
      simp [callLater, World.setFlow, Factory.setFlow, hs]) rfl
    (Or.inr ⟨_, rfl, fun _ => Func.noConfusion, rfl⟩)
  register := sameLoops_register

/-- A call is cancelled or run: what is asked for later is as it was. -/
lemma InASecond.modify (h : InASecond s) {f : DelayedCall → DelayedCall} {j : ℕ}
    (hf : ∀ c, (f c).func = c.func ∧ (f c).delay = c.delay)
    (hcalls : t.calls = s.calls.modify j f) : InASecond t := by
  intro c hc d hd
  rw [hcalls] at hc
  obtain ⟨k, hk⟩ := List.mem_iff_getElem?.mp hc
  rw [List.getElem?_modify] at hk
  obtain ⟨c', hc', rfl⟩ := Option.map_eq_some_iff.mp hk
  have hdelay := h c' (List.mem_of_getElem? hc') d
  split at hd
  · split
    · rw [(hf c').2]
      exact hdelay ((hf c').1 ▸ hd)
    · contradiction
  · split
    · contradiction
    · exact hdelay hd

/-- A call that is not of a reset loop is run. -/
lemma sameLoops_called {c : DelayedCall} (hk : w.calls[k]? = some c)
    (hc : ∀ d, c.func ≠ .reset d) : SameLoops w (w.called k) where
  enabled := rfl
  client _ := rfl
  resetId _ := rfl
  active d j := by
    refine active_called.trans (and_iff_left_of_imp ?_)
    rintro ⟨c', hc', hfunc, -⟩ rfl
    rw [hk] at hc'
    cases hc'
    exact hc d hfunc
  delay hs := hs.modify (f := fun c => { c with called := true }) (fun _ => ⟨rfl, rfl⟩) rfl

lemma sameLoops_unthrottle (d : Dir) : Within SameLoops (Factory.unthrottle d) := by
  refine along_unthrottle (fun _ => .of_setFlow (d := d) rfl rfl (Or.inl rfl))
    (fun _ => .of_setFlow (d := d) rfl rfl (Or.inl rfl)) ?_
  cases d with
  | reads => exact within_still allows_sameLoops fun _ => rfl
  | writes => exact within_resume allows_sameLoops

/-! ### The loops run -/

/-- As long as throttling is on, the reset loop of each direction runs. -/
structure Looping (w : World) : Prop where
  active : w.enabled = true → ∀ d, ∃ k, Active w.calls k (.reset d)
  delay : InASecond w

lemma Looping.of_same (h : Looping s) (hst : SameLoops s t) : Looping t where
  active he d :=
    let ⟨k, hk⟩ := h.active (hst.enabled ▸ he) d
    ⟨k, (hst.active d k).mpr hk⟩
  delay := hst.delay h.delay

lemma active_resetThisSecond : Active (resetThisSecond d w).calls k (.reset d') ↔
    Active w.calls k (.reset d') ∨ k = w.calls.length ∧ d' = d := by
  refine (active_append rfl).trans (or_congr_right (and_congr_right fun _ => ?_))
  exact ⟨fun h => (Func.reset.inj h).symm, fun h => congrArg Func.reset h.symm⟩

lemma enabled_resetThisSecond : (resetThisSecond d w).enabled = w.enabled :=
  (enabled_congr (factory_resetThisSecond d w)).trans enabled_setFlow

lemma flow_resetThisSecond_of_ne (h : d' ≠ d) : (resetThisSecond d w).flow d' = w.flow d' :=
  (flow_congr (factory_resetThisSecond d w)).trans (flow_setFlow_of_ne h)

lemma resetId_resetThisSecond (hw : w.factory.isSome = true)
    (hd : (w.flow d').resetId ≠ none ∨ d' = d) :
    ((resetThisSecond d w).flow d').resetId ≠ none := by
  rw [flow_congr (factory_resetThisSecond d w)]
  by_cases hdd : d' = d
  · subst hdd
    rw [flow_setFlow_self hw]
    exact Option.some_ne_none _
  · rw [flow_setFlow_of_ne hdd]
    exact hd.resolve_right hdd

lemma inASecond_resetThisSecond (h : InASecond w) : InASecond (resetThisSecond d w) := by
  intro c hc d' hd'
  rcases List.mem_append.mp hc with hc | hc
  · exact h c hc d' hd'
  · rw [List.mem_singleton.mp hc]

/-! ### Turning throttling on -/

/-- Each reset ID is None or names a call that is active. -/
def Restartable (w : World) : Prop := ∀ d, (w.flow d).resetId = none ∨
  ∃ k, (w.flow d).resetId = some k ∧ Active w.calls k (.reset d)

lemma startReset_cases (h : Clock loose w) (d : Dir) :
    (w.flow d).resetId = none ∧ startReset d w = resetThisSecond d w ∨
    (w.flow d).resetId ≠ none ∧ startReset d w = w := by
  have hvalid : validLimit (w.flow d).limit = true := by
    cases hl : (w.flow d).limit with
    | none => rfl
    | some l => simpa [validLimit] using (h.timed d).limit l hl
  unfold startReset
  by_cases hid : (w.flow d).resetId = none
  · exact Or.inl ⟨hid, if_pos ⟨hid, hvalid⟩⟩
  · exact Or.inr ⟨hid, if_neg fun hcond => hid hcond.1⟩

/-- After `enable_throttling` both loops run. -/
lemma enableThrottling_active (h : Clock loose w) (hw : Restartable w) (d : Dir) :
    ∃ k, Active (enableThrottling w).calls k (.reset d) := by
  have hkeep : ∀ (d' : Dir) {u : World} {d : Dir}, Clock loose u →
      (∃ k, Active u.calls k (.reset d)) → ∃ k, Active (startReset d' u).calls k (.reset d) := by
    rintro d' u d hu ⟨k, hk⟩
    rcases startReset_cases hu d' with ⟨-, he⟩ | ⟨-, he⟩ <;> rw [he]
    · exact ⟨k, active_resetThisSecond.mpr (Or.inl hk)⟩
    · exact ⟨k, hk⟩
  have hstart : ∀ (d : Dir) {u : World}, Clock loose u → ((u.flow d).resetId = none ∨
      ∃ k, (u.flow d).resetId = some k ∧ Active u.calls k (.reset d)) →
        ∃ k, Active (startReset d u).calls k (.reset d) := by
    intro d u hu hd
    rcases startReset_cases hu d with ⟨-, he⟩ | ⟨hid, he⟩ <;> rw [he]
    · exact ⟨_, active_resetThisSecond.mpr (Or.inr ⟨rfl, rfl⟩)⟩
    · obtain ⟨k, -, hk⟩ := hd.resolve_left hid
      exact ⟨k, hk⟩
  show ∃ k, Active (startReset .writes (startReset .reads w)).calls k (.reset d)
  have hreads := h.startReset .reads
  cases d with
  | reads => exact hkeep .writes hreads (hstart .reads h (hw .reads))
  | writes =>
    refine hstart .writes hreads ?_
    rcases startReset_cases h .reads with ⟨-, he⟩ | ⟨-, he⟩ <;> rw [he]
    · rw [flow_resetThisSecond_of_ne (by decide)]
      refine (hw .writes).imp_right fun ⟨k, hk, hactive⟩ => ⟨k, hk, ?_⟩
      exact active_resetThisSecond.mpr (Or.inl hactive)
    · exact hw .writes

lemma inASecond_startReset (h : InASecond w) (d : Dir) : InASecond (startReset d w) := by
  unfold startReset
  split
  · exact inASecond_resetThisSecond h
  · exact h

lemma Looping.enableThrottling (h : InASecond w) (hclock : Clock loose w) (hw : Restartable w) :
    Looping (enableThrottling w) where
  active _ d := enableThrottling_active hclock hw d
  delay := inASecond_startReset (inASecond_startReset h .reads) .writes

/-- While throttling is on and the loops run, turning it on changes nothing for them. -/
lemma Looping.restartable (h : Looping w) (hclock : Clock loose w) (he : w.enabled = true) :
    Restartable w := fun d =>
  let ⟨k, hk⟩ := h.active he d
  Or.inr ⟨k, (hclock.timed d).reset k hk, hk⟩

/-! ### Turning throttling off -/

/-- The state in which `disable_throttling` has the client unthrottle its writes. -/
def World.released (w : World) : World :=
  (after (unthrottleIfThrottling .reads) w.cancelAll).setFlow .writes Flow.unthrottled

/-- Resuming from inside `disable_throttling` does not raise. -/
def ClientReturns (w : World) : Prop := (w.flow .writes).throttling = true →
  w.client = some .self → raised Handler.resumeProducing w.released = none

lemma inASecond_cancelAll (h : InASecond w) : InASecond w.cancelAll := by
  have hcancel : ∀ (i : Option ℕ) {u : World}, InASecond u → InASecond (cancelDelayedCall i u) := by
    intro i u hu
    cases i with
    | none => exact hu
    | some j => exact hu.modify (fun c => by constructor <;> split <;> rfl) rfl
  exact hcancel _ (hcancel _ (hcancel _ (hcancel _ h)))

lemma sameLoops_unthrottleIfThrottling (d : Dir) : Within SameLoops (unthrottleIfThrottling d) :=
  within_bind within_get fun _ => within_ite (fun _ => sameLoops_unthrottle d) fun _ =>
    within_pure _

/-- `unthrottleReads` and `unthrottleWrites` of the factory go on to its client. -/
lemma unthrottle_run (d : Dir) (w : World) : (Factory.unthrottle d).run w =
    if w.client = some .self then (StorageClient.unthrottle d).run (w.setFlow d Flow.unthrottled)
    else .ok ⟨⟩ (after (Factory.unthrottle d) w) := by
  have hclient : (w.setFlow d fun q => { q with unthrottleId := none }).factory.bind
      Factory.client = w.client := client_setFlow
  unfold Factory.unthrottle modifyFlow
  rw [run_modify_bind, run_get_bind, after_modify_bind, after_get_bind, hclient]
  cases w.client with
  | none => rfl
  | some peer =>
    cases peer with
    | self =>
      rw [if_pos rfl]
      show ((modify _ >>= fun _ => StorageClient.unthrottle d : M PUnit)).run _ = _
      rw [run_modify_bind, setFlow_setFlow]
      rfl
    | other => rfl

/-- `disable_throttling` returns just when the client does. -/
lemma disableThrottling_returns_iff : raised disableThrottling w = none ↔ ClientReturns w := by
  obtain ⟨u, hu, -, hflow, hclient, hrun⟩ := disableThrottling_after w
  have hraised : raised disableThrottling w = raised (unthrottleIfThrottling .writes) u :=
    calc raised disableThrottling w
        = raised (unthrottleIfThrottling .writes >>= fun _ =>
            modify (setThrottlingEnabled false) : M PUnit) u := raised_congr hrun
      _ = raised (unthrottleIfThrottling .writes) u := raised_bind_modify _ _ u
  rw [hraised]
  unfold unthrottleIfThrottling
  rw [raised_get_bind, hflow]
  by_cases ht : (w.flow .writes).throttling = true
  swap
  · rw [if_neg ht]
    exact iff_of_true rfl fun h => absurd h ht
  have hwrites := unthrottle_run .writes u
  rw [if_pos ht]
  rw [hclient] at hwrites
  by_cases hself : w.client = some .self
  · rw [if_pos hself] at hwrites
    have hreleased : w.released = u.setFlow .writes Flow.unthrottled := by
      unfold World.released
      rw [after_of_ok hu]
    rw [raised_congr hwrites, ← hreleased]
    exact ⟨fun h _ _ => h, fun h => h ht hself⟩
  · rw [if_neg hself] at hwrites
    exact iff_of_true (raised_of_ok hwrites) fun _ h => absurd h hself

lemma enabled_cancelAll (w : World) : w.cancelAll.enabled = w.enabled :=
  enabled_congr (factory_cancelAll w)

/-- `disable_throttling` cancels the loops, and turns throttling off unless it raises. -/
lemma disableThrottling_cases (w : World) : ∃ v, SameLoops w.cancelAll v ∧
    (disableThrottling.run w = .ok ⟨⟩ (setThrottlingEnabled false v) ∨
      ∃ e, disableThrottling.run w = .error e v) := by
  obtain ⟨u, hu, -, -, -, hrun⟩ := disableThrottling_after w
  have hreads := (sameLoops_unthrottleIfThrottling .reads).ok hu
  rw [hrun]
  cases hv : (unthrottleIfThrottling .writes).run u with
  | ok _ v =>
    exact ⟨v, trans_of SameLoops hreads ((sameLoops_unthrottleIfThrottling .writes).ok hv),
      Or.inl (run_bind_ok hv)⟩
  | error e v =>
    exact ⟨v, trans_of SameLoops hreads ((sameLoops_unthrottleIfThrottling .writes).error hv),
      Or.inr ⟨e, run_bind_error hv⟩⟩

/-! ### Runs -/

/-- A turn of a reset loop. -/
lemma runCall_reset (h : Active w.calls k (.reset d)) :
    (runCall k).run w = .ok ⟨⟩ (resetThisSecond d (w.called k)) := by
  obtain ⟨c, hk, hfunc, hc⟩ := h
  unfold runCall
  rw [run_get_bind]
  simp only [hk, hc, if_true, hfunc]
  rfl

/-- The reactor runs a delayed call: a turn of a reset loop, or one that leaves the loops alone. -/
lemma runCall_cases (w : World) (k : ℕ) : SameLoops w (after (runCall k) w) ∨
    ∃ d, Active w.calls k (.reset d) ∧ after (runCall k) w = resetThisSecond d (w.called k) := by
  rcases after_runCall k w with he | ⟨c, hk, hc, he⟩
  · exact Or.inl (he.symm ▸ refl_of SameLoops w)
  · rw [he]
    cases hfunc : c.func with
    | reset d => exact Or.inr ⟨d, ⟨c, hk, hfunc, hc⟩, rfl⟩
    | go p =>
      have hu := sameLoops_called hk fun d hd => nomatch hfunc.symm.trans hd
      exact Or.inl (trans_of SameLoops hu (within_go allows_sameLoops p _))
    | unthrottle d =>
      have hu := sameLoops_called hk fun d hd => nomatch hfunc.symm.trans hd
      exact Or.inl (trans_of SameLoops hu (sameLoops_unthrottle d _))

lemma Looping.turn (h : Looping w) (hk : Active w.calls k (.reset d)) :
    Looping (resetThisSecond d (w.called k)) := by
  have hu : InASecond (w.called k) :=
    h.delay.modify (f := fun c => { c with called := true }) (fun _ => ⟨rfl, rfl⟩) rfl
  refine ⟨fun he d' => ?_, inASecond_resetThisSecond hu⟩
  by_cases hd : d' = d
  · exact ⟨_, active_resetThisSecond.mpr (Or.inr ⟨rfl, hd⟩)⟩
  · rw [enabled_resetThisSecond] at he
    obtain ⟨j, hj⟩ := h.active he d'
    refine ⟨j, active_resetThisSecond.mpr (Or.inl (active_called.mpr ⟨hj, ?_⟩))⟩
    rintro rfl
    obtain ⟨c, hc, hfunc, -⟩ := hj
    obtain ⟨c', hc', hfunc', -⟩ := hk
    rw [hc] at hc'
    cases hc'
    exact hd (Func.reset.inj (hfunc.symm.trans hfunc'))

lemma sameLoops_connectionMade (w : World) : SameLoops w (connectionMade w) := by
  have hflow : ∀ d, (connectionMade w).flow d = w.flow d := by
    intro d
    unfold connectionMade
    split
    · cases hw : w.factory <;> cases d <;> simp [World.flow, Factory.flow, hw]
    · rfl
  have henabled : (connectionMade w).enabled = w.enabled := by
    unfold connectionMade
    split
    · cases hw : w.factory <;> simp [World.enabled, hw]
    · rfl
  have hcalls : (connectionMade w).calls = w.calls := by
    unfold connectionMade
    split <;> rfl
  refine ⟨henabled, fun hc => ?_, fun d => by rw [hflow], fun d k => by rw [hcalls], fun h c hc =>
    h c (hcalls ▸ hc)⟩
  unfold connectionMade
  rw [if_neg hc]

lemma sameLoops_setLimit (d : Dir) (limit : Option ℚ) : Within SameLoops (setLimit d limit) :=
  within_ite (fun _ => within_modify fun _ => .of_setFlow (d := d) rfl rfl (Or.inl rfl)) fun _ =>
    within_throw _

/-- What turns throttling on or off does not leave it on without the loops. -/
def KeepsLoops (w : World) : FactoryEvent → Prop
  | .enable => Restartable w
  | .disable => w.enabled = true → ClientReturns w
  | _ => True

/-- What a step of a factory does to the reset loops. -/
inductive LoopMove (w : World) (e : FactoryEvent) : World → Prop
  /-- It leaves them alone. -/
  | same {t : World} (h : SameLoops w t) : LoopMove w e t
  /-- A turn of a loop. -/
  | turn {d : Dir} {k : ℕ} (hk : Active w.calls k (.reset d)) :
      LoopMove w e (resetThisSecond d (w.called k))
  /-- Throttling is turned on, or it is on and a protocol is built. -/
  | enable (h : e = .enable ∨ w.enabled = true) : LoopMove w e (enableThrottling w)
  /-- Throttling is turned off. -/
  | disable {v : World} (hv : SameLoops w.cancelAll v) :
      LoopMove w e (setThrottlingEnabled false v)
  /-- Turning it off is cut short by what the client raises. -/
  | cutShort {v : World} (he : e = .disable) (hraised : raised disableThrottling w ≠ none)
      (hv : SameLoops w.cancelAll v) : LoopMove w e v

/-- **Every step of a factory** is one of these moves. -/
lemma loopMove_step (w : World) {e : FactoryEvent} (he : Connected e) :
    LoopMove w e (w.factoryStep e) := by
  cases e with
  | client e =>
    by_cases hcall : ∃ k, e = .call k
    · obtain ⟨k, rfl⟩ := hcall
      show LoopMove w _ (after (runCall k) w)
      rcases runCall_cases w k with hsame | ⟨d, hk, hrun⟩
      · exact .same hsame
      · rw [hrun]
        exact .turn hk
    · refine .same (within_perform allows_sameLoops ?_ (fun k hk => hcall ⟨k, hk⟩) w)
      rintro reason rfl
      exact he
  | register d n => exact .same (sameLoops_register w d n)
  | setLimit d limit => exact .same (sameLoops_setLimit d limit w)
  | enable => exact .enable (Or.inl rfl)
  | disable =>
    show LoopMove w _ (after disableThrottling w)
    obtain ⟨v, hv, hok | ⟨e, herr⟩⟩ := disableThrottling_cases w
    · rw [after_of_ok hok]
      exact .disable hv
    · rw [after_of_error herr]
      exact .cutShort rfl (raised_ne_none herr) hv
  | build =>
    show LoopMove w _ (buildProtocol w)
    unfold buildProtocol
    split
    · next hon => exact .enable (Or.inr hon)
    · exact .same (refl_of SameLoops w)
  | made => exact .same (sameLoops_connectionMade w)

lemma Looping.step (h : Looping w) (hclock : Clock Tight w) {e : FactoryEvent} (he : Connected e)
    (hloops : KeepsLoops w e) : Looping (w.factoryStep e) := by
  have hmove := loopMove_step w he
  generalize w.factoryStep e = t at hmove ⊢
  cases hmove with
  | same hsame => exact h.of_same hsame
  | turn hk => exact h.turn hk
  | enable hon =>
    refine .enableThrottling h.delay hclock ?_
    rcases hon with rfl | hon
    · exact hloops
    · exact h.restartable hclock hon
  | @disable v hv =>
    refine ⟨fun henabled => ?_, hv.delay (inASecond_cancelAll h.delay)⟩
    rw [enabled_setThrottlingEnabled_false] at henabled
    cases henabled
  | cutShort hdisable hraised hv =>
    subst hdisable
    refine ⟨fun henabled => ?_, hv.delay (inASecond_cancelAll h.delay)⟩
    have hon : w.enabled = true := by rwa [← enabled_cancelAll, ← hv.enabled]
    exact absurd (disableThrottling_returns_iff.mpr (hloops hon)) hraised

/-- A loop that runs once throttling is turned on was started by it, or ran before. -/
lemma restartable_of_looping (hclock : Clock loose w) (h : Looping (enableThrottling w)) :
    Restartable w := by
  have hback : ∀ (d' : Dir) {u : World} {d : Dir} {k : ℕ}, (u.flow d).resetId ≠ none →
      Active (startReset d' u).calls k (.reset d) → Active u.calls k (.reset d) := by
    intro d' u d k hid hk
    unfold startReset at hk
    split at hk
    · next hcond =>
      refine (active_resetThisSecond.mp hk).resolve_right ?_
      rintro ⟨-, rfl⟩
      exact hid hcond.1
    · exact hk
  have hstarted := (hclock.startReset .reads).startReset .writes
  have hon : (enableThrottling w).enabled = true := enabled_setThrottlingEnabled hstarted.made true
  intro d
  refine or_iff_not_imp_left.mpr fun hid => ?_
  obtain ⟨k, hk⟩ := h.active hon d
  have hid' : ((startReset .reads w).flow d).resetId ≠ none := by
    rcases startReset_cases hclock .reads with ⟨-, he⟩ | ⟨-, he⟩ <;> rw [he]
    · exact resetId_resetThisSecond hclock.made (Or.inl hid)
    · exact hid
  have hactive := hback .reads hid (hback .writes hid' hk)
  exact ⟨k, (hclock.timed d).reset k hactive, hactive⟩

/-- **The loops run on** after a step just when it is one that keeps them. -/
lemma Looping.step_iff (h : Looping w) (hclock : Clock Tight w) {e : FactoryEvent}
    (he : Connected e) : Looping (w.factoryStep e) ↔ KeepsLoops w e := by
  refine ⟨fun hnext => ?_, h.step hclock he⟩
  cases e with
  | enable => exact restartable_of_looping hclock hnext
  | disable =>
    intro hon
    replace hnext : Looping (after disableThrottling w) := hnext
    obtain ⟨v, hv, hok | ⟨e, herr⟩⟩ := disableThrottling_cases w
    · exact disableThrottling_returns_iff.mp (raised_of_ok hok)
    · rw [after_of_error herr] at hnext
      have hstays : v.enabled = true := by rwa [hv.enabled, enabled_cancelAll]
      obtain ⟨k, hk⟩ := hnext.active hstays .reads
      exact absurd ((hv.active .reads k).mp hk) (hclock.cancelAll.2 .reads k).1
  | _ => trivial

/-- The factory `__init__` makes has its loops run if throttling is on. -/
lemma looping_init (hcalls : w.calls = []) (throttlingEnabled : Bool)
    (readLimit writeLimit : Option ℚ) :
    Looping (after (Factory.init throttlingEnabled readLimit writeLimit) w) := by
  let new : World := { w with factory := some {} }
  have hnew : Looping new := ⟨nofun, by simp [InASecond, new, hcalls]⟩
  have hclock := clock_new hcalls
  unfold Factory.init
  rw [after_modify_bind]
  refine after_bind_of (fun _ u hu => ?_) fun _ u hu => ?_
  · have hreads := (sameLoops_setLimit .reads readLimit).ok hu
    have hclocku := after_of_ok hu ▸ hclock.setLimit .reads readLimit
    refine after_bind_of (fun _ v hv => ?_) fun _ v hv => ?_
    · have hwrites := trans_of SameLoops hreads ((sameLoops_setLimit .writes writeLimit).ok hv)
      have hclockv := after_of_ok hv ▸ hclocku.setLimit .writes writeLimit
      have hdelay : InASecond (setThrottlingEnabled throttlingEnabled v) := hwrites.delay hnew.delay
      rw [after_modify_bind]
      split
      · refine .enableThrottling hdelay (hclockv.setThrottlingEnabled _) fun d => Or.inl ?_
        rw [flow_setThrottlingEnabled, hwrites.resetId]
        cases d <;> rfl
      · next hoff =>
        have hnot : (setThrottlingEnabled throttlingEnabled v).enabled ≠ true := by
          rwa [enabled_setThrottlingEnabled hclockv.made]
        have hidle : Looping (setThrottlingEnabled throttlingEnabled v) :=
          ⟨fun he => absurd he hnot, hdelay⟩
        exact hidle.step (e := .disable) (hclockv.setThrottlingEnabled _) trivial
          fun he => absurd he hnot
    · have hwrites := (sameLoops_setLimit .writes writeLimit).error hv
      exact hnew.of_same (trans_of SameLoops hreads hwrites)
  · exact hnew.of_same ((sameLoops_setLimit .reads readLimit).error hu)

/-- While throttling is on, each direction has exactly one active reset call; it is in a second at
most and sets the counter to 0. -/
def Resetting (w : World) : Prop := w.enabled = true → ∀ d,
  w.calls.countP (fun c => c.active && c.func == .reset d) = 1 ∧
  ∀ k, Active w.calls k (.reset d) → (∀ c, w.calls[k]? = some c → c.delay ≤ 1) ∧
    raised (runCall k) w = none ∧ ((w.factoryStep (.client (.call k))).flow d).thisSecond = 0

lemma one_le_countP {calls : List DelayedCall} (h : Active calls k func) :
    1 ≤ calls.countP fun c => c.active && c.func == func := by
  obtain ⟨c, hc, hfunc, hactive⟩ := h
  refine List.countP_pos_iff.mpr ⟨c, List.mem_of_getElem? hc, ?_⟩
  simp [hfunc, hactive]

lemma Looping.resetting (h : Looping w) (hclock : Clock Tight w) : Resetting w := by
  intro he d
  obtain ⟨k, hk⟩ := h.active he d
  refine ⟨le_antisymm ?_ (one_le_countP hk), fun j hj => ⟨fun c hc => ?_, ?_⟩⟩
  · exact countP_active_le fun _ _ hi hj => hclock.eq_of_reset hj hi
  · obtain ⟨c', hc', hfunc, -⟩ := hj
    rw [hc] at hc'
    cases hc'
    rw [h.delay c (List.mem_of_getElem? hc) d hfunc]
  · have hrun := runCall_reset hj
    refine ⟨raised_of_ok hrun, ?_⟩
    show ((after (Client.runCall j) w).flow d).thisSecond = 0
    rw [after_of_ok hrun, flow_congr (factory_resetThisSecond d _),
      flow_setFlow_self (w := w.called j) hclock.made]

/-- **While throttling is on the counters are being reset**, in any run in which throttling is
only turned on while each reset ID is None or names an active call, and turning it off is not
cut short by what the client raises. -/
theorem resetting_run {w₀ : World} (hcalls : w₀.calls = []) (throttlingEnabled : Bool)
    (readLimit writeLimit : Option ℚ) {es : List FactoryEvent}
    (hes : Runs.Legal World.factoryStep (fun w e => Connected e ∧ KeepsLoops w e)
      (after (Factory.init throttlingEnabled readLimit writeLimit) w₀) es) :
    Resetting (Runs.run World.factoryStep
      (after (Factory.init throttlingEnabled readLimit writeLimit) w₀) es) := by
  have hrun := hes.invariant (I := fun w => Looping w ∧ Clock Tight w)
    (fun w e hw he => ⟨hw.1.step hw.2 he.1 he.2, hw.2.step he.1⟩)
    ⟨looping_init hcalls _ _ _, clock_init hcalls _ _ _⟩
  exact hrun.1.resetting hrun.2

/-- A client with nothing to send. -/
def idle : World := World.init (fun _ => .ping) fun _ => ⟨fun _ => .ok [], []⟩

/-- Turned off and on again, the loops stay cancelled. -/
theorem not_resetting : ¬∀ (w₀ : World) (throttlingEnabled : Bool) (readLimit writeLimit : Option ℚ)
    (es : List FactoryEvent), w₀.calls = [] → (∀ e ∈ es, Connected e) →
      Resetting (Runs.run World.factoryStep
        (after (Factory.init throttlingEnabled readLimit writeLimit) w₀) es) := by
  intro h
  have hone := (h idle true none none [.disable, .enable] rfl (by simp [Connected]) rfl .reads).1
  exact absurd hone (by decide)

/-- Turned on, with bytes read and a reset. -/
theorem resetting_run_enable : Resetting (Runs.run World.factoryStep
    (after (Factory.init false (some 5) none) idle)
    [.build, .made, .enable, .register .reads 7, .client (.call 0)]) := by
  refine resetting_run rfl false (some 5) none ⟨⟨trivial, trivial⟩, ⟨trivial, trivial⟩,
    ⟨trivial, fun d => Or.inl ?_⟩, ⟨trivial, trivial⟩, ⟨trivial, trivial⟩, trivial⟩
  cases d <;> rfl

end Magicicada.Client
