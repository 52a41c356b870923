import Magicicada.Teardown
import Magicicada.Timers

/-!
The delayed calls of a factory over whole runs: each of its ID fields names the call it stands
for, and a direction that is throttled has a call that ends the throttle.
-/

namespace Magicicada.Client

open Pb Errors Requests Prog

variable {w s t : World} {d d' : Dir} {k : ℕ} {func : Func}

/-! ### Active calls -/

/-- The `k`-th delayed call is active and calls `func`. -/
def Active (calls : List DelayedCall) (k : ℕ) (func : Func) : Prop :=
  ∃ c, calls[k]? = some c ∧ c.func = func ∧ c.active = true

lemma active_append {calls : List DelayedCall} {c : DelayedCall} (hc : c.active = true) :
    Active (calls ++ [c]) k func ↔ Active calls k func ∨ k = calls.length ∧ c.func = func := by
  unfold Active
  rcases lt_trichotomy k calls.length with hlt | rfl | hgt
  · rw [List.getElem?_append_left hlt]
    constructor
    · exact Or.inl
    · rintro (h | ⟨rfl, -⟩)
      · exact h
      · exact absurd hlt (lt_irrefl _)
  · simp [hc]
  · rw [List.getElem?_eq_none (by simp; omega), List.getElem?_eq_none (by omega)]
    simp
    omega

/-- A call that is run or cancelled is not active any more. -/
lemma active_modify {calls : List DelayedCall} {j : ℕ} {f : DelayedCall → DelayedCall}
    (hf : ∀ c, (f c).active = false) :
    Active (calls.modify j f) k func ↔ Active calls k func ∧ k ≠ j := by
  unfold Active
  by_cases hkj : k = j
  · subst hkj
    refine iff_of_false ?_ fun h => h.2 rfl
    rintro ⟨c, hc, -, hactive⟩
    obtain ⟨c', -, rfl⟩ : ∃ c', calls[k]? = some c' ∧ f c' = c := by
      simpa [List.getElem?_modify] using hc
    rw [hf] at hactive
    cases hactive
  · simp [hkj, Ne.symm hkj]

lemma cancel_active (c : DelayedCall) :
    (if c.active then { c with cancelled := true } else c).active = false := by
  unfold DelayedCall.active
  cases hcalled : c.called <;> cases hcancelled : c.cancelled <;> simp [hcalled, hcancelled]

lemma active_cancel {i : Option ℕ} : Active (cancelDelayedCall i w).calls k func ↔
    Active w.calls k func ∧ i ≠ some k := by
  cases i with
  | none => simp [cancelDelayedCall]
  | some j =>
    refine (active_modify cancel_active).trans ?_
    simp [eq_comm]

/-! ### The invariant -/

/-- A direction's fields name its calls. Unless it is `loose`, a throttle has a call that ends
it. -/
structure Timed (loose : Prop) (calls : List DelayedCall) (client : Option Peer) (d : Dir)
    (f : Flow) : Prop where
  reset : ∀ k, Active calls k (.reset d) → f.resetId = some k
  unthrottle : ∀ k, Active calls k (.unthrottle d) → f.unthrottleId = some k
  throttling : ¬loose → f.throttling = true →
    ∃ k, f.unthrottleId = some k ∧ Active calls k (.unthrottle d)
  limit : ∀ l, f.limit = some l → 0 < l
  client : client = none → f.throttling = false

/-- Both directions of a factory are timed. -/
structure Clock (loose : Dir → Prop) (w : World) : Prop where
  made : w.factory.isSome = true
  timed : ∀ d, Timed (loose d) w.calls w.client d (w.flow d)
  delays : ∀ c ∈ w.calls, 0 ≤ c.delay

/-- No direction is loose. -/
def Tight : Dir → Prop := fun _ => False

variable {loose loose' : Dir → Prop}

/-- What is true of a direction reads of the calls only which of its own are active. -/
lemma Timed.congr {P P' : Prop} {calls calls' : List DelayedCall} {c : Option Peer} {f : Flow}
    (h : Timed P calls c d f) (hP : P → P')
    (hreset : ∀ k, Active calls' k (.reset d) ↔ Active calls k (.reset d))
    (hunthrottle : ∀ k, Active calls' k (.unthrottle d) ↔ Active calls k (.unthrottle d)) :
    Timed P' calls' c d f where
  reset k hk := h.reset k ((hreset k).mp hk)
  unthrottle k hk := h.unthrottle k ((hunthrottle k).mp hk)
  throttling hP' ht :=
    let ⟨k, hk, hactive⟩ := h.throttling (fun hp => hP' (hP hp)) ht
    ⟨k, hk, (hunthrottle k).mpr hactive⟩
  limit := h.limit
  client := h.client

lemma flow_congr (h : t.factory = s.factory) : t.flow d = s.flow d := by
  unfold World.flow
  rw [h]

lemma client_congr (h : t.factory = s.factory) : t.client = s.client := by
  unfold World.client
  rw [h]

lemma enabled_congr (h : t.factory = s.factory) : t.enabled = s.enabled := by
  unfold World.enabled
  rw [h]

/-- The calls change for a direction that is put right by changing its fields. -/
lemma Clock.update (h : Clock loose s) {f : Flow → Flow}
    (hfac : t.factory = (s.setFlow d f).factory) (hloose : ∀ d', d' ≠ d → loose d' → loose' d')
    (hactive : ∀ d', d' ≠ d → ∀ k, (Active t.calls k (.reset d') ↔ Active s.calls k (.reset d')) ∧
      (Active t.calls k (.unthrottle d') ↔ Active s.calls k (.unthrottle d')))
    (htimed : Timed (loose' d) t.calls s.client d (f (s.flow d)))
    (hdelays : ∀ c ∈ t.calls, 0 ≤ c.delay) : Clock loose' t where
  made := by rw [hfac, isSome_setFlow, h.made]
  timed d' := by
    rw [client_congr hfac, flow_congr hfac, client_setFlow]
    by_cases hd : d' = d
    · subst hd
      rw [flow_setFlow_self h.made]
      exact htimed
    · rw [flow_setFlow_of_ne hd]
      exact (h.timed d').congr (hloose d' hd) (fun k => (hactive d' hd k).1)
        fun k => (hactive d' hd k).2
  delays := hdelays

lemma Clock.of_clocks (h : Clock loose s) (hst : t.clocks = s.clocks) : Clock loose t := by
  have hfac : t.factory = s.factory := congrArg Prod.fst hst
  have hcalls : t.calls = s.calls := congrArg Prod.snd hst
  refine ⟨hfac ▸ h.made, fun d => ?_, hcalls ▸ h.delays⟩
  rw [hcalls, client_congr hfac, flow_congr hfac]
  exact h.timed d

/-- Calls come and go that are not a direction's own. -/
lemma Clock.of_calls (h : Clock loose s) (hfac : t.factory = s.factory)
    (hactive : ∀ d k, (Active t.calls k (.reset d) ↔ Active s.calls k (.reset d)) ∧
      (Active t.calls k (.unthrottle d) ↔ Active s.calls k (.unthrottle d)))
    (hdelays : ∀ c ∈ t.calls, 0 ≤ c.delay) : Clock loose t := by
  refine ⟨hfac ▸ h.made, fun d => ?_, hdelays⟩
  rw [client_congr hfac, flow_congr hfac]
  exact (h.timed d).congr id (fun k => (hactive d k).1) fun k => (hactive d k).2

lemma Clock.go (h : Clock loose w) (p : ℕ) : Clock loose (callLater 0 (.go p) w) := by
  refine h.of_calls rfl (fun d k => ⟨?_, ?_⟩) fun c hc => ?_
  · exact (active_append rfl).trans (by simp)
  · exact (active_append rfl).trans (by simp)
  · rcases List.mem_append.mp hc with hc | hc
    · exact h.delays c hc
    · rw [List.mem_singleton.mp hc]

/-- A call of a direction that has none of its kind, kept in its field. -/
lemma Clock.unthrottleLater (h : Clock loose w) {delay : ℚ} (hdelay : 0 ≤ delay)
    (hid : (w.flow d).unthrottleId = none) {f : Flow → Flow}
    (hf : ∀ g, (f g).unthrottleId = some w.calls.length ∧ (f g).resetId = g.resetId ∧
      (f g).limit = g.limit) (hclient : w.client = none → (f (w.flow d)).throttling = false)
    (hfac : t.factory = (w.setFlow d f).factory)
    (hcalls : t.calls = w.calls ++ [{ func := .unthrottle d, delay := delay }]) :
    Clock loose t := by
  obtain ⟨hunthrottle, hreset, hlimit⟩ := hf (w.flow d)
  refine h.update hfac (fun d' _ => id) (fun d' hd k => ?_) ?_ ?_ <;> rw [hcalls]
  · exact ⟨(active_append rfl).trans (by simp), (active_append rfl).trans (by simp [Ne.symm hd])⟩
  · refine ⟨fun k hk => ?_, fun k hk => ?_, fun _ _ => ⟨_, hunthrottle, ?_⟩, fun l hl => ?_,
      hclient⟩
    · rw [active_append rfl] at hk
      rw [hreset]
      exact (h.timed d).reset k (hk.resolve_right fun hk => Func.noConfusion hk.2)
    · rw [active_append rfl] at hk
      rcases hk with hk | ⟨rfl, -⟩
      · exact nomatch hid.symm.trans ((h.timed d).unthrottle k hk)
      · exact hunthrottle
    · exact (active_append rfl).mpr (Or.inr ⟨rfl, rfl⟩)
    · exact (h.timed d).limit l (hlimit ▸ hl)
  · intro c hc
    rcases List.mem_append.mp hc with hc | hc
    · exact h.delays c hc
    · rw [List.mem_singleton.mp hc]
      exact hdelay

/-! ### What the client does -/

lemma setFlow_setFlow (w : World) (d : Dir) (f g : Flow → Flow) :
    (w.setFlow d f).setFlow d g = w.setFlow d fun q => g (f q) := by
  cases hw : w.factory <;> cases d <;> simp [World.setFlow, Factory.setFlow, hw]

/-- Changing a direction depends on what is there. -/
lemma setFlow_congr {f g : Flow → Flow} (h : f (w.flow d) = g (w.flow d)) :
    w.setFlow d f = w.setFlow d g := by
  cases hw : w.factory <;> cases d <;>
    simp_all [World.setFlow, Factory.setFlow, World.flow, Factory.flow]

lemma setFlow_factory (h : t.factory = s.factory) (d : Dir) (f : Flow → Flow) :
    (t.setFlow d f).factory = (s.setFlow d f).factory := by
  unfold World.setFlow
  rw [h]

/-- Throttling a direction sets its flag, if there is a client. -/
lemma throttle_clocks (d : Dir) (w : World) : (Factory.throttle d w).calls = w.calls ∧
    (Factory.throttle d w).factory =
      (w.setFlow d fun f => { f with throttling := f.throttling || w.client.isSome }).factory := by
  have hclient : ∀ d w, (StorageClient.throttle d w).clocks = w.clocks := by
    intro d w
    cases d
    · rfl
    · exact clocks_pause w
  unfold Factory.throttle World.client
  cases hw : w.factory.bind Factory.client with
  | none =>
    refine ⟨rfl, ?_⟩
    cases hf : w.factory <;> cases d <;> simp [World.setFlow, Factory.setFlow, hf]
  | some peer =>
    cases peer with
    | self =>
      have hst := hclient d (w.setFlow d fun f => { f with throttling := true })
      exact ⟨congrArg Prod.snd hst, (congrArg Prod.fst hst).trans (by simp [World.clocks])⟩
    | other => exact ⟨rfl, by simp⟩

/-- The factory throttles a direction, or leaves everything as it is. -/
lemma checkBandwidth_cases (d : Dir) (w : World) : checkBandwidth d w = w ∨
    ∃ l, (w.flow d).limit = some l ∧ 0 < l ∧ l ≤ (w.flow d).thisSecond ∧
      (w.flow d).unthrottleId = none ∧
      (checkBandwidth d w).factory = (w.setFlow d fun f => { f with
        throttling := f.throttling || w.client.isSome
        unthrottleId := some w.calls.length }).factory ∧
      (checkBandwidth d w).calls = w.calls ++
        [{ func := .unthrottle d, delay := throttleTime (w.flow d).thisSecond l }] := by
  cases hw : w.factory with
  | none => exact Or.inl (by simp [checkBandwidth, hw])
  | some f =>
    have hflow : w.flow d = f.flow d := by simp [World.flow, hw]
    cases hcheck : f.shouldCheck d with
    | false => exact Or.inl (by simp [checkBandwidth, hw, hcheck])
    | true =>
      right
      rw [hflow]
      obtain ⟨hcalls, hfac⟩ := throttle_clocks d w
      cases hlimit : (f.flow d).limit with
      | none => simp [Factory.shouldCheck, hlimit] at hcheck
      | some l =>
        obtain ⟨⟨-, hl, hle⟩, hid⟩ : (f.throttlingEnabled = true ∧ 0 < l ∧
            l ≤ (f.flow d).thisSecond) ∧ (f.flow d).unthrottleId = none := by
          simpa [Factory.shouldCheck, hlimit, validLimit] using hcheck
        refine ⟨l, rfl, hl, hle, hid, ?_, ?_⟩
        · simp only [checkBandwidth, hw, hcheck, hid, maybeCallLater, if_true]
          refine (setFlow_factory (s := w.setFlow d _) hfac d _).trans ?_
          rw [setFlow_setFlow, hcalls]
        · simp [checkBandwidth, hw, hcheck, hid, maybeCallLater, World.setFlow, callLater, hcalls,
            hlimit]

lemma throttleTime_nonneg {n : ℕ} {l : ℚ} (hl : 0 < l) (hn : l ≤ n) : 0 ≤ throttleTime n l := by
  unfold throttleTime
  rw [sub_nonneg, one_le_div hl]
  exact hn

lemma Clock.checkBandwidth (h : Clock loose w) (d : Dir) :
    Clock loose (checkBandwidth d w) := by
  rcases checkBandwidth_cases d w with he | ⟨l, -, hl, hle, hid, hfac, hcalls⟩
  · rwa [he]
  · refine h.unthrottleLater (throttleTime_nonneg hl hle) hid
      (f := fun f => { f with
        throttling := f.throttling || w.client.isSome
        unthrottleId := some w.calls.length })
      (fun g => ⟨rfl, rfl, rfl⟩) (fun hclient => ?_) hfac hcalls
    simp [(h.timed d).client hclient, hclient]

lemma Clock.setFlow (h : Clock loose w) {f : Flow → Flow}
    (hf : ∀ g, (f g).unthrottleId = g.unthrottleId ∧ (f g).resetId = g.resetId ∧
      (f g).throttling = g.throttling) (hlimit : ∀ l, (f (w.flow d)).limit = some l → 0 < l) :
    Clock loose (w.setFlow d f) := by
  obtain ⟨hunthrottle, hreset, hthrottling⟩ := hf (w.flow d)
  refine h.update rfl (fun d' _ => id) (fun d' _ k => ⟨Iff.rfl, Iff.rfl⟩) ?_ h.delays
  refine ⟨fun k hk => ?_, fun k hk => ?_, fun hl ht => ?_, hlimit, fun hc => ?_⟩
  · exact hreset.trans ((h.timed d).reset k hk)
  · exact hunthrottle.trans ((h.timed d).unthrottle k hk)
  · rw [hunthrottle]
    exact (h.timed d).throttling hl (hthrottling ▸ ht)
  · exact hthrottling.trans ((h.timed d).client hc)

lemma Clock.register (h : Clock loose w) (d : Dir) (n : ℕ) : Clock loose (register d n w) := by
  unfold Client.register
  split
  · exact h
  · split
    · have hcount : Clock loose (w.setFlow d fun f => { f with
          thisSecond := f.thisSecond + n }) :=
        h.setFlow (fun _ => ⟨rfl, rfl, rfl⟩) (h.timed d).limit
      exact hcount.checkBandwidth d
    · exact h

lemma allows_clock : Allows (Keeps (Clock loose)) where
  same _ _ hst h := h.of_clocks hst
  go _ p h := h.go p
  register _ d n h := h.register d n

/-! ### The timers -/

/-- A call is run or cancelled. The direction whose throttle it was to end is loose. -/
lemma Clock.kill (h : Clock loose s) (hfac : t.factory = s.factory) {j : ℕ}
    (hactive : ∀ k func, Active t.calls k func ↔ Active s.calls k func ∧ k ≠ j)
    (hdelays : ∀ c ∈ t.calls, 0 ≤ c.delay)
    (hloose : ∀ d, Active s.calls j (.unthrottle d) → loose' d) (hle : ∀ d, loose d → loose' d) :
    Clock loose' t := by
  refine ⟨hfac ▸ h.made, fun d => ?_, hdelays⟩
  rw [client_congr hfac, flow_congr hfac]
  have hd := h.timed d
  refine ⟨fun k hk => ?_, fun k hk => ?_, fun hl ht => ?_, hd.limit, hd.client⟩
  · exact hd.reset k ((hactive k _).mp hk).1
  · exact hd.unthrottle k ((hactive k _).mp hk).1
  · obtain ⟨k, hk, hkactive⟩ := hd.throttling (fun hl' => hl (hle d hl')) ht
    refine ⟨k, hk, (hactive k _).mpr ⟨hkactive, ?_⟩⟩
    rintro rfl
    exact hl (hloose d hkactive)

lemma delay_modify {calls : List DelayedCall} {f : DelayedCall → DelayedCall} {j : ℕ}
    (hf : ∀ c, (f c).delay = c.delay) (h : ∀ c ∈ calls, 0 ≤ c.delay) :
    ∀ c ∈ calls.modify j f, 0 ≤ c.delay := by
  intro c hc
  obtain ⟨k, hk⟩ := List.mem_iff_getElem?.mp hc
  rw [List.getElem?_modify] at hk
  obtain ⟨c', hc', rfl⟩ := Option.map_eq_some_iff.mp hk
  have hc' := h c' (List.mem_of_getElem? hc')
  split
  · rw [hf]
    exact hc'
  · exact hc'

/-- Whatever is cancelled, no call goes unnamed. -/
lemma Clock.cancelDelayedCall (h : Clock loose w) (i : Option ℕ) :
    Clock (fun _ => True) (cancelDelayedCall i w) := by
  cases i with
  | none => exact ⟨h.made, fun d => (h.timed d).congr (fun _ => trivial) (fun _ => Iff.rfl)
      fun _ => Iff.rfl, h.delays⟩
  | some j =>
    refine h.kill rfl (fun k func => active_modify cancel_active) ?_ (fun _ _ => trivial)
      fun _ _ => trivial
    exact delay_modify (fun c => by split <;> rfl) h.delays

lemma factory_resetThisSecond (d : Dir) (w : World) : (resetThisSecond d w).factory =
    (w.setFlow d fun q => { q with thisSecond := 0, resetId := some w.calls.length }).factory := by
  unfold resetThisSecond
  exact (setFlow_factory (s := w.setFlow d _) rfl d _).trans (by rw [setFlow_setFlow])

/-- The reset loop of a direction goes on, or is started. -/
lemma Clock.resetThisSecond (h : Clock loose w) (hnone : ∀ k, ¬Active w.calls k (.reset d)) :
    Clock loose (resetThisSecond d w) := by
  have hcalls : (Client.resetThisSecond d w).calls =
      w.calls ++ [{ func := .reset d, delay := 1 }] := rfl
  refine h.update (factory_resetThisSecond d w) (fun d' _ => id) (fun d' hd k => ?_) ?_ ?_ <;>
    rw [hcalls]
  · exact ⟨(active_append rfl).trans (by simp [Ne.symm hd]), (active_append rfl).trans (by simp)⟩
  · refine ⟨fun k hk => ?_, fun k hk => ?_, fun hl ht => ?_, (h.timed d).limit, (h.timed d).client⟩
    · rw [active_append rfl] at hk
      rcases hk with hk | ⟨rfl, -⟩
      · exact absurd hk (hnone k)
      · rfl
    · rw [active_append rfl] at hk
      exact (h.timed d).unthrottle k (hk.resolve_right fun hk => Func.noConfusion hk.2)
    · obtain ⟨k, hk, hactive⟩ := (h.timed d).throttling hl ht
      exact ⟨k, hk, (active_append rfl).mpr (Or.inl hactive)⟩
  · intro c hc
    rcases List.mem_append.mp hc with hc | hc
    · exact h.delays c hc
    · rw [List.mem_singleton.mp hc]
      exact zero_le_one

/-- The fields of a direction whose throttle is over. -/
def Flow.unthrottled (q : Flow) : Flow := { q with throttling := false, unthrottleId := none }

lemma Clock.unthrottled (h : Clock loose w) (hnone : ∀ k, ¬Active w.calls k (.unthrottle d))
    (hloose : ∀ d', d' ≠ d → loose d' → loose' d')
    (hfac : t.factory = (w.setFlow d Flow.unthrottled).factory) (hcalls : t.calls = w.calls) :
    Clock loose' t := by
  refine h.update hfac hloose (fun d' _ k => ?_) ?_ (hcalls ▸ h.delays) <;> rw [hcalls]
  · exact ⟨Iff.rfl, Iff.rfl⟩
  · exact ⟨(h.timed d).reset, fun k hk => absurd hk (hnone k), fun _ => nofun, (h.timed d).limit,
      fun _ => rfl⟩

/-- **Ending a throttle** leaves nothing loose, though the client goes on sending from inside. -/
lemma Clock.unthrottle (h : Clock loose w) (hnone : ∀ k, ¬Active w.calls k (.unthrottle d))
    (hloose : ∀ d', d' ≠ d → loose d' → loose' d') (hd : d = .writes → loose' = Tight) :
    Clock loose' (after (Factory.unthrottle d) w) := by
  have hset : ∀ f : Flow → Flow, (∀ q : Flow, f { q with unthrottleId := none } = q.unthrottled) →
      ((w.setFlow d fun q => { q with unthrottleId := none }).setFlow d f).factory =
        (w.setFlow d Flow.unthrottled).factory := by
    intro f hf
    rw [setFlow_setFlow]
    exact congrArg (fun g => (w.setFlow d g).factory) (funext hf)
  unfold Factory.unthrottle modifyFlow
  rw [after_modify_bind, after_get_bind]
  have hclient : (w.setFlow d fun q => { q with unthrottleId := none }).factory.bind
      Factory.client = w.client := client_setFlow
  rw [hclient]
  cases hc : w.client with
  | none =>
    -- no client was there to be throttled
    refine h.unthrottled hnone hloose (congrArg World.factory (setFlow_congr ?_)) rfl
    have hflag := (h.timed d).client hc
    unfold Flow.unthrottled
    rw [← hflag]
  | some peer =>
    cases peer with
    | other => exact h.unthrottled hnone hloose (hset _ fun _ => rfl) rfl
    | self =>
      have hv := h.unthrottled (d := d) hnone hloose
        (hset (fun q => { q with throttling := false }) fun _ => rfl) rfl
      cases d with
      | reads => exact hv.of_clocks rfl
      | writes => exact within_resume allows_clock _ hv

/-- Of a direction's calls of a kind at most one is active. -/
lemma Clock.eq_of_unthrottle (h : Clock loose w) {j : ℕ} (hj : Active w.calls j (.unthrottle d))
    (hk : Active w.calls k (.unthrottle d)) : k = j :=
  Option.some.inj (((h.timed d).unthrottle k hk).symm.trans ((h.timed d).unthrottle j hj))

lemma Clock.eq_of_reset (h : Clock loose w) {j : ℕ} (hj : Active w.calls j (.reset d))
    (hk : Active w.calls k (.reset d)) : k = j :=
  Option.some.inj (((h.timed d).reset k hk).symm.trans ((h.timed d).reset j hj))

lemma active_called {j : ℕ} :
    Active (w.called k).calls j func ↔ Active w.calls j func ∧ j ≠ k :=
  active_modify fun c => by simp [DelayedCall.active]

/-- The reactor runs a delayed call. -/
lemma Clock.runCall (h : Clock Tight w) (k : ℕ) : Clock Tight (after (runCall k) w) := by
  rcases after_runCall k w with he | ⟨c, hk, hc, he⟩ <;> rw [he]
  · exact h
  have hrun : Active w.calls k c.func := ⟨c, hk, rfl, hc⟩
  have hu : Clock (fun d => c.func = .unthrottle d) (w.called k) := by
    refine h.kill rfl (fun j func => active_called) (delay_modify (fun _ => rfl) h.delays) ?_
      fun _ hf => hf.elim
    rintro d ⟨c', hc', hfunc, -⟩
    rw [← Option.some.inj (hk.symm.trans hc')] at hfunc
    exact hfunc
  have htight : (∀ d, c.func ≠ .unthrottle d) → Clock Tight (w.called k) := fun hne =>
    ⟨hu.made, fun d => (hu.timed d).congr (fun he => hne d he) (fun _ => Iff.rfl) fun _ => Iff.rfl,
      hu.delays⟩
  cases hfunc : c.func with
  | go p => exact within_go allows_clock p _ (htight fun d hd => nomatch hfunc.symm.trans hd)
  | reset d =>
    refine (htight fun d hd => nomatch hfunc.symm.trans hd).resetThisSecond fun j hj => ?_
    obtain ⟨hj, hne⟩ := active_called.mp hj
    exact hne (h.eq_of_reset (hfunc ▸ hrun) hj)
  | unthrottle d =>
    refine hu.unthrottle (fun j hj => ?_) (fun d' hd hl => ?_) fun _ => rfl
    · obtain ⟨hj, hne⟩ := active_called.mp hj
      exact hne (h.eq_of_unthrottle (hfunc ▸ hrun) hj)
    · rw [hfunc] at hl
      cases hl
      exact hd rfl

/-! ### Throttling on and off -/

lemma Clock.startReset (h : Clock loose w) (d : Dir) : Clock loose (startReset d w) := by
  unfold Client.startReset
  split
  · next hid =>
    exact h.resetThisSecond fun k hk => nomatch hid.1.symm.trans ((h.timed d).reset k hk)
  · exact h

lemma Clock.setThrottlingEnabled (h : Clock loose w) (b : Bool) :
    Clock loose (setThrottlingEnabled b w) := by
  refine ⟨?_, fun d => ?_, h.delays⟩
  · simpa [Client.setThrottlingEnabled] using h.made
  · rw [flow_setThrottlingEnabled, client_setThrottlingEnabled]
    exact h.timed d

lemma Clock.enableThrottling (h : Clock loose w) : Clock loose (enableThrottling w) :=
  ((h.startReset .reads).startReset .writes).setThrottlingEnabled true

/-- The calls `disable_throttling` cancels. -/
def World.cancelAll (w : World) : World :=
  cancelDelayedCall (w.flow .writes).resetId (cancelDelayedCall (w.flow .reads).resetId
    (cancelDelayedCall (w.flow .writes).unthrottleId
      (cancelDelayedCall (w.flow .reads).unthrottleId w)))

lemma factory_cancelDelayedCall (i : Option ℕ) (w : World) :
    (cancelDelayedCall i w).factory = w.factory := by
  cases i <;> rfl

lemma factory_cancelAll (w : World) : w.cancelAll.factory = w.factory := by
  simp only [World.cancelAll, factory_cancelDelayedCall]

lemma disableThrottling_run (w : World) : disableThrottling.run w =
    (do
      unthrottleIfThrottling .reads
      unthrottleIfThrottling .writes
      modify (setThrottlingEnabled false) : M PUnit).run w.cancelAll := by
  unfold disableThrottling World.cancelAll
  simp only [run_modify_bind, flow_congr (factory_cancelDelayedCall _ _)]

lemma active_cancelAll : Active w.cancelAll.calls k func ↔ Active w.calls k func ∧
    ∀ d, (w.flow d).unthrottleId ≠ some k ∧ (w.flow d).resetId ≠ some k := by
  unfold World.cancelAll
  simp only [active_cancel]
  constructor
  · rintro ⟨⟨⟨⟨h, h1⟩, h2⟩, h3⟩, h4⟩
    exact ⟨h, fun d => by cases d; exacts [⟨h1, h3⟩, ⟨h2, h4⟩]⟩
  · rintro ⟨h, hd⟩
    exact ⟨⟨⟨⟨h, (hd .reads).1⟩, (hd .writes).1⟩, (hd .reads).2⟩, (hd .writes).2⟩

/-- No call of the factory is left active. -/
lemma Clock.cancelAll (h : Clock loose w) : Clock (fun _ => True) w.cancelAll ∧
    ∀ d k, ¬Active w.cancelAll.calls k (.reset d) ∧
      ¬Active w.cancelAll.calls k (.unthrottle d) := by
  refine ⟨(((h.cancelDelayedCall _).cancelDelayedCall _).cancelDelayedCall _).cancelDelayedCall _,
    fun d k => ⟨fun hk => ?_, fun hk => ?_⟩⟩
  · obtain ⟨hk, hids⟩ := active_cancelAll.mp hk
    exact (hids d).2 ((h.timed d).reset k hk)
  · obtain ⟨hk, hids⟩ := active_cancelAll.mp hk
    exact (hids d).1 ((h.timed d).unthrottle k hk)

lemma Clock.unthrottleIfThrottling (h : Clock loose w)
    (hnone : ∀ k, ¬Active w.calls k (.unthrottle d))
    (hloose : ∀ d', d' ≠ d → loose d' → loose' d') (hd : d = .writes → loose' = Tight) :
    Clock loose' (after (unthrottleIfThrottling d) w) := by
  unfold Client.unthrottleIfThrottling
  rw [after_get_bind]
  cases ht : (w.flow d).throttling with
  | true => exact h.unthrottle hnone hloose hd
  | false =>
    refine ⟨h.made, fun d' => ?_, h.delays⟩
    by_cases hdd : d' = d
    · subst hdd
      exact ⟨(h.timed d').reset, (h.timed d').unthrottle,
        fun _ htrue => (nomatch ht.symm.trans htrue), (h.timed d').limit, (h.timed d').client⟩
    · exact (h.timed d').congr (hloose d' hdd) (fun _ => Iff.rfl) fun _ => Iff.rfl

/-- Ending the throttle of the reads neither raises nor schedules anything, nor does it change
anything for the writes. -/
lemma unthrottleReads_run (w : World) : ∃ u, (unthrottleIfThrottling .reads).run w = .ok ⟨⟩ u ∧
    u.calls = w.calls ∧ u.flow .writes = w.flow .writes ∧ u.client = w.client := by
  have hne : Dir.writes ≠ Dir.reads := by decide
  have hset : ∀ {u : World} (f g : Flow → Flow),
      u.factory = ((w.setFlow .reads f).setFlow .reads g).factory →
        u.flow .writes = w.flow .writes ∧ u.client = w.client := by
    intro u f g hu
    rw [flow_congr hu, client_congr hu, flow_setFlow_of_ne hne, flow_setFlow_of_ne hne,
      client_setFlow, client_setFlow]
    exact ⟨rfl, rfl⟩
  unfold Client.unthrottleIfThrottling
  rw [run_get_bind]
  split
  · unfold Factory.unthrottle modifyFlow
    rw [run_modify_bind, run_get_bind]
    split
    · exact ⟨_, rfl, rfl, flow_setFlow_of_ne hne, client_setFlow⟩
    · exact ⟨_, rfl, rfl, hset _ _ rfl⟩
    · exact ⟨_, rfl, rfl, hset _ _ rfl⟩
  · exact ⟨w, rfl, rfl, rfl, rfl⟩

/-- What is left of `disable_throttling` once the reads are done. -/
lemma disableThrottling_after (w : World) : ∃ u,
    (unthrottleIfThrottling .reads).run w.cancelAll = .ok ⟨⟩ u ∧ u.calls = w.cancelAll.calls ∧
    u.flow .writes = w.flow .writes ∧ u.client = w.client ∧
    disableThrottling.run w = (unthrottleIfThrottling .writes >>= fun _ =>
      modify (setThrottlingEnabled false) : M PUnit).run u := by
  obtain ⟨u, hu, hcalls, hflow, hclient⟩ := unthrottleReads_run w.cancelAll
  exact ⟨u, hu, hcalls, hflow.trans (flow_congr (factory_cancelAll w)),
    hclient.trans (client_congr (factory_cancelAll w)),
    (disableThrottling_run w).trans (run_bind_ok hu)⟩

/-- **`disable_throttling`** ends both throttles; the client may throttle its writes anew from
inside. -/
lemma Clock.disableThrottling (h : Clock loose w) : Clock Tight (after disableThrottling w) := by
  obtain ⟨hcancel, hnone⟩ := h.cancelAll
  obtain ⟨u, hu, hcalls, -, -, hrun⟩ := disableThrottling_after w
  have hreads : Clock (fun d => d = .writes) u := by
    rw [← after_of_ok hu]
    exact hcancel.unthrottleIfThrottling (fun k => (hnone .reads k).2)
      (fun d hd _ => by cases d; exacts [absurd rfl hd, rfl]) nofun
  have hwrites : Clock Tight (after (Client.unthrottleIfThrottling .writes) u) :=
    hreads.unthrottleIfThrottling (fun k => hcalls ▸ (hnone .writes k).2)
      (fun d hd hl => absurd hl hd) fun _ => rfl
  unfold after
  rw [hrun]
  show Clock Tight (after _ u)
  refine after_bind_of (fun _ v hv => ?_) fun e v hv => ?_
  · rw [after_of_ok hv] at hwrites
    exact hwrites.setThrottlingEnabled false
  · rwa [after_of_error hv] at hwrites

/-! ### Runs -/

lemma Clock.setLimit (h : Clock loose w) (d : Dir) (limit : Option ℚ) :
    Clock loose (after (setLimit d limit) w) := by
  unfold Client.setLimit
  split
  · next hvalid =>
    refine h.setFlow (fun _ => ⟨rfl, rfl, rfl⟩) fun l hl => ?_
    obtain rfl : limit = some l := hl
    simpa [validLimit] using hvalid
  · exact h

lemma Clock.connectionMade (h : Clock loose w) : Clock loose (connectionMade w) := by
  unfold Client.connectionMade
  split
  · next hc =>
    refine ⟨by simpa using h.made, fun d => ?_, h.delays⟩
    have hflow : World.flow { w with factory := w.factory.map fun f =>
        { f with client := some .self } } d = w.flow d := by
      cases hw : w.factory <;> cases d <;> simp [World.flow, Factory.flow, hw]
    rw [hflow]
    have hd := h.timed d
    exact ⟨hd.reset, hd.unthrottle, hd.throttling, hd.limit, fun _ => hd.client hc⟩
  · exact h

/-- A factory before anything is scheduled. -/
lemma clock_new (hcalls : w.calls = []) : Clock Tight { w with factory := some {} } := by
  refine ⟨rfl, fun d => ?_, by simp [hcalls]⟩
  have hnone : ∀ k func, ¬Active w.calls k func := by simp [Active, hcalls]
  cases d <;> exact ⟨fun k hk => absurd hk (hnone k _), fun k hk => absurd hk (hnone k _),
    fun _ => nofun, nofun, fun _ => rfl⟩

/-- The factory `__init__` makes is timed. -/
lemma clock_init (hcalls : w.calls = []) (throttlingEnabled : Bool)
    (readLimit writeLimit : Option ℚ) :
    Clock Tight (after (Factory.init throttlingEnabled readLimit writeLimit) w) := by
  have hnew := clock_new hcalls
  unfold Factory.init
  rw [after_modify_bind]
  refine after_bind_of (fun _ u hu => ?_) fun _ u hu => ?_
  · have hreads := hnew.setLimit .reads readLimit
    rw [after_of_ok hu] at hreads
    refine after_bind_of (fun _ v hv => ?_) fun _ v hv => ?_
    · have hwrites := hreads.setLimit .writes writeLimit
      rw [after_of_ok hv] at hwrites
      rw [after_modify_bind]
      split
      · exact (hwrites.setThrottlingEnabled _).enableThrottling
      · exact (hwrites.setThrottlingEnabled _).disableThrottling
    · exact after_of_error hv ▸ hreads.setLimit .writes writeLimit
  · exact after_of_error hu ▸ hnew.setLimit .reads readLimit

/-- The client is not lost. -/
def Connected : FactoryEvent → Prop
  | .client (.lost _) => False
  | _ => True

/-- What is said of every event is said of the events of a run. -/
lemma legal_connected {es : List FactoryEvent} (hes : ∀ e ∈ es, Connected e) :
    ∀ {w : World}, Runs.Legal World.factoryStep (fun _ e => Connected e) w es := by
  induction es with
  | nil => exact trivial
  | cons e es ih =>
    exact ⟨hes e List.mem_cons_self, ih fun e' he' => hes e' (List.mem_cons_of_mem e he')⟩

/-- **What happens to a factory keeps it timed.** -/
lemma Clock.step (h : Clock Tight w) {e : FactoryEvent} (he : Connected e) :
    Clock Tight (w.factoryStep e) := by
  cases e with
  | client e =>
    by_cases hcall : ∃ k, e = .call k
    · obtain ⟨k, rfl⟩ := hcall
      exact h.runCall k
    · refine within_perform allows_clock ?_ (fun k hk => hcall ⟨k, hk⟩) w h
      rintro reason rfl
      exact he
  | register d n => exact h.register d n
  | setLimit d limit => exact h.setLimit d limit
  | enable => exact h.enableThrottling
  | disable => exact h.disableThrottling
  | build =>
    show Clock Tight (buildProtocol w)
    unfold buildProtocol
    split
    · exact h.enableThrottling
    · exact h
  | made => exact h.connectionMade

/-- The delayed calls of a factory are accounted for. -/
structure Accounted (w : World) : Prop where
  /-- Each direction has at most one active call of each kind. -/
  single : ∀ d, w.calls.countP (fun c => c.active && c.func == .unthrottle d) ≤ 1 ∧
    w.calls.countP (fun c => c.active && c.func == .reset d) ≤ 1
  /-- An active call is the one its ID field names. -/
  named : ∀ d k, (Active w.calls k (.unthrottle d) → (w.flow d).unthrottleId = some k) ∧
    (Active w.calls k (.reset d) → (w.flow d).resetId = some k)
  /-- A throttle has a call that ends it. -/
  throttling : ∀ d, (w.flow d).throttling = true →
    ∃ k, (w.flow d).unthrottleId = some k ∧ Active w.calls k (.unthrottle d)
  /-- No call is in the past, and no limit it was computed with is zero. -/
  delays : ∀ c ∈ w.calls, 0 ≤ c.delay
  limits : ∀ d l, (w.flow d).limit = some l → 0 < l
  /-- `unregisterProtocol` cancels all that the factory scheduled. -/
  cancels : ∀ f, w.factory = some f → ∀ d k,
    ¬Active (unregisterProtocol f w).calls k (.unthrottle d) ∧
    ¬Active (unregisterProtocol f w).calls k (.reset d)

/-- Calls of a kind of which one at most is active. -/
lemma countP_active_le {calls : List DelayedCall}
    (h : ∀ j k, Active calls j func → Active calls k func → j = k) :
    calls.countP (fun c => c.active && c.func == func) ≤ 1 := by
  induction calls with
  | nil => simp
  | cons c calls ih =>
    have hcons : ∀ k, Active (c :: calls) (k + 1) func ↔ Active calls k func := fun k => Iff.rfl
    have htail := ih fun j k hj hk =>
      Nat.succ.inj (h (j + 1) (k + 1) ((hcons j).mpr hj) ((hcons k).mpr hk))
    rw [List.countP_cons]
    split
    · next hc =>
      simp only [Bool.and_eq_true, beq_iff_eq] at hc
      have hzero : Active (c :: calls) 0 func := ⟨c, rfl, hc.2, hc.1⟩
      have hnone : calls.countP (fun c => c.active && c.func == func) = 0 := by
        rw [List.countP_eq_zero]
        intro c' hc' hact
        simp only [Bool.and_eq_true, beq_iff_eq] at hact
        obtain ⟨k, hk⟩ := List.mem_iff_getElem?.mp hc'
        have := h 0 (k + 1) hzero ((hcons k).mpr ⟨c', hk, hact.2, hact.1⟩)
        omega
      omega
    · simpa using htail

/-- `unregisterProtocol` leaves no call of the factory active. -/
lemma Clock.cancels (h : Clock loose w) (f : Factory) (hf : w.factory = some f) (d : Dir) (k : ℕ) :
    ¬Active (unregisterProtocol f w).calls k (.unthrottle d) ∧
    ¬Active (unregisterProtocol f w).calls k (.reset d) := by
  have hflow : ∀ d, w.flow d = f.flow d := fun d => by simp [World.flow, hf]
  unfold unregisterProtocol
  simp only [List.foldl_cons, List.foldl_nil, active_cancel]
  refine ⟨fun hk => ?_, fun hk => ?_⟩
  · have hid := (h.timed d).unthrottle k hk.1.1.1.1
    rw [hflow] at hid
    cases d
    · exact hk.1.1.1.2 hid
    · exact hk.1.2 hid
  · have hid := (h.timed d).reset k hk.1.1.1.1
    rw [hflow] at hid
    cases d
    · exact hk.1.1.2 hid
    · exact hk.2 hid

lemma Clock.accounted (h : Clock Tight w) : Accounted w where
  single _ := ⟨countP_active_le fun _ _ hj hk => h.eq_of_unthrottle hk hj,
    countP_active_le fun _ _ hj hk => h.eq_of_reset hk hj⟩
  named d k := ⟨(h.timed d).unthrottle k, (h.timed d).reset k⟩
  throttling d := (h.timed d).throttling id
  delays := h.delays
  limits d := (h.timed d).limit
  cancels := h.cancels

/-- **No throttle is forgotten and no timer leaks**, in any run of a factory whose client is not
lost. -/
theorem accounted_run {w₀ : World} (hcalls : w₀.calls = []) (throttlingEnabled : Bool)
    (readLimit writeLimit : Option ℚ) {es : List FactoryEvent} (hes : ∀ e ∈ es, Connected e) :
    Accounted (Runs.run World.factoryStep
      (after (Factory.init throttlingEnabled readLimit writeLimit) w₀) es) := by
  have hclock := (legal_connected hes).invariant (I := Clock Tight) (fun w e hw he => hw.step he)
    (clock_init hcalls throttlingEnabled readLimit writeLimit)
  exact hclock.accounted

/-- A factory whose client uploads a file, each piece of which reaches the limit. -/
def meteredUpload : List FactoryEvent :=
  [.build, .made, .client (.start 0), .client (.message beginContent none), .client (.call 2),
    .disable]

/-- The upload is resumed from inside `unthrottleWrites`, and throttled again. -/
theorem accounted_run_meteredUpload :
    Accounted (Runs.run World.factoryStep
      (after (Factory.init true none (some 1)) (uploading [1, 2, 3, 4, 5])) meteredUpload) :=
  accounted_run rfl true none (some 1) (by simp [meteredUpload, Connected])

end Magicicada.Client
