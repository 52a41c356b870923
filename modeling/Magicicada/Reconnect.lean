import Magicicada.Resets

/-!
A factory that builds a second protocol. Losing the first connection cancels the factory's
delayed calls and leaves everything else as it was: the factory still has the first protocol for
its client, and its reset IDs still name calls.
-/

namespace Magicicada.Client

open Pb Errors Requests Prog

variable {w s t : World} {d d' : Dir} {k : ℕ} {func : Func} {loose loose' : Dir → Prop}

/-! ### The model -/

/-- A delayed call, as a protocol sees it that did not ask for it: the steps of another protocol's
uploads are none of its own. -/
def DelayedCall.foreign (c : DelayedCall) : DelayedCall :=
  match c.func with
  | .go _ => { c with called := true }
  | _ => c

/-- A new protocol of the factory. To it the client the factory has is another one. -/
def World.reconnect (w new : World) : World :=
  { new with
    factory := w.factory.map fun f => { f with client := f.client.map fun _ => .other }
    calls := w.calls.map DelayedCall.foreign }

/-- The connection is lost, the factory builds a new protocol, and it is connected. -/
def World.reconnected (w : World) (reason : Exn) (new : World) : World :=
  connectionMade ((buildProtocol (w.factoryStep (.client (.lost reason)))).reconnect new)

/-- A direction of the client is paused. -/
def Paused (w : World) : Dir → Prop
  | .reads => w.transport.readsPaused = true
  | .writes => w.producing = false

/-- The factory throttles the protocol. -/
structure Throttles (w : World) : Prop where
  /-- Every byte is counted. -/
  accounted : ∀ d n, registerOwn d n w = register d n w
  /-- The reset loops run. -/
  resets : ∀ d, ∃ k, Active w.calls k (.reset d)
  /-- What reaches a limit pauses the protocol. -/
  pauses : ∀ d n l, (w.flow d).limit = some l → (w.flow d).throttling = false →
    l ≤ ((w.flow d).thisSecond + n : ℕ) → Paused (registerOwn d n w) d

/-! ### The first connection -/

/-- The factory `__init__` makes when throttling is on. -/
lemma init_enabled (hcalls : w.calls = []) {readLimit writeLimit : Option ℚ}
    (hread : validLimit readLimit = true) (hwrite : validLimit writeLimit = true) :
    (Factory.init true readLimit writeLimit).run w = .ok ⟨⟩ { w with
      factory := some {
        throttlingEnabled := true
        reads := { limit := readLimit, resetId := some 0 }
        writes := { limit := writeLimit, resetId := some 1 } }
      calls := [{ func := .reset .reads, delay := 1 },
        { func := .reset .writes, delay := 1 }] } := by
  simp [Factory.init, setLimit, hread, hwrite, modifyFlow, World.setFlow, Factory.setFlow,
    setThrottlingEnabled, enableThrottling, startReset, World.flow, Factory.flow, resetThisSecond,
    callLater, hcalls]

/-- **The first connection is throttled.** -/
lemma throttles_first (hcalls : w.calls = []) {readLimit writeLimit : Option ℚ}
    (hread : validLimit readLimit = true) (hwrite : validLimit writeLimit = true) :
    Throttles (connectionMade (buildProtocol
      (after (Factory.init true readLimit writeLimit) w))) := by
  rw [after_of_ok (init_enabled hcalls hread hwrite)]
  have hmade : connectionMade (buildProtocol { w with
      factory := some {
        throttlingEnabled := true
        reads := { limit := readLimit, resetId := some 0 }
        writes := { limit := writeLimit, resetId := some 1 } }
      calls := [{ func := .reset .reads, delay := 1 }, { func := .reset .writes, delay := 1 }] }) =
    { w with
      factory := some {
        throttlingEnabled := true
        reads := { limit := readLimit, resetId := some 0 }
        writes := { limit := writeLimit, resetId := some 1 }
        client := some .self }
      calls := [{ func := .reset .reads, delay := 1 },
        { func := .reset .writes, delay := 1 }] } := by
    simp [connectionMade, buildProtocol, World.enabled, enableThrottling, startReset, World.flow,
      Factory.flow, setThrottlingEnabled, World.client]
  rw [hmade]
  refine ⟨fun d n => rfl, fun d => ?_, fun d n l hl _ hle => ?_⟩
  · cases d
    · exact ⟨0, _, rfl, rfl, rfl⟩
    · exact ⟨1, _, rfl, rfl, rfl⟩
  · cases d
    · obtain rfl : readLimit = some l := hl
      have hpos : 0 < l := by simpa [validLimit] using hread
      have hn : l ≤ n := by simpa [World.flow, Factory.flow] using hle
      simp [registerOwn, register, checkBandwidth, Factory.shouldCheck, Factory.flow, World.setFlow,
        Factory.setFlow, validLimit, hpos, hn, Factory.throttle, StorageClient.throttle,
        maybeCallLater, callLater, Paused]
    · obtain rfl : writeLimit = some l := hl
      have hpos : 0 < l := by simpa [validLimit] using hwrite
      have hn : l ≤ n := by simpa [World.flow, Factory.flow] using hle
      simp [registerOwn, register, checkBandwidth, Factory.shouldCheck, Factory.flow, World.setFlow,
        Factory.setFlow, validLimit, hpos, hn, Factory.throttle, StorageClient.throttle,
        maybeCallLater, callLater, Paused, Handler.pauseProducing]

/-! ### What the first connection leaves -/

/-- Each reset ID is set, if throttling is on. -/
def Named (w : World) : Prop := w.enabled = true → ∀ d, (w.flow d).resetId ≠ none

lemma SameLoops.named (h : SameLoops s t) (hs : Named s) : Named t := fun he d =>
  (h.resetId d).symm ▸ hs (h.enabled ▸ he) d

/-- After `enable_throttling` each reset ID is set. -/
lemma named_enableThrottling (h : Clock loose w) (d : Dir) :
    ((enableThrottling w).flow d).resetId ≠ none := by
  have hstart : ∀ (d : Dir) {u : World} {d' : Dir}, Clock loose u →
      (u.flow d').resetId ≠ none ∨ d' = d → ((startReset d u).flow d').resetId ≠ none := by
    intro d u d' hu hd
    rcases startReset_cases hu d with ⟨-, he⟩ | ⟨hid, he⟩ <;> rw [he]
    · exact resetId_resetThisSecond hu.made hd
    · exact hd.elim id fun hdd => hdd ▸ hid
  show ((setThrottlingEnabled true _).flow d).resetId ≠ none
  rw [flow_setThrottlingEnabled]
  refine hstart .writes (h.startReset .reads) ?_
  cases d
  · exact Or.inl (hstart .reads h (Or.inr rfl))
  · exact Or.inr rfl

lemma Named.cancelAll (h : Named w) : Named w.cancelAll := by
  intro henabled d
  rw [enabled_cancelAll] at henabled
  rw [flow_congr (factory_cancelAll w)]
  exact h henabled d

lemma Named.step (h : Named w) (hclock : Clock Tight w) {e : FactoryEvent} (he : Connected e) :
    Named (w.factoryStep e) := by
  have hmove := loopMove_step w he
  generalize w.factoryStep e = t at hmove ⊢
  cases hmove with
  | same hsame => exact hsame.named h
  | @turn d k hk =>
    intro henabled d'
    rw [enabled_resetThisSecond] at henabled
    exact resetId_resetThisSecond (w := w.called k) hclock.made (Or.inl (h henabled d'))
  | enable _ => exact fun _ => named_enableThrottling hclock
  | disable hv =>
    intro henabled
    rw [enabled_setThrottlingEnabled_false] at henabled
    cases henabled
  | cutShort _ _ hv => exact hv.named h.cancelAll

lemma named_init (hcalls : w.calls = []) (throttlingEnabled : Bool)
    (readLimit writeLimit : Option ℚ) :
    Named (after (Factory.init throttlingEnabled readLimit writeLimit) w) := by
  intro henabled d
  obtain ⟨k, hk⟩ := (looping_init hcalls throttlingEnabled readLimit writeLimit).active henabled d
  have hid := ((clock_init hcalls throttlingEnabled readLimit writeLimit).timed d).reset k hk
  rw [hid]
  exact nofun

/-! ### The second connection -/

/-- The factory has another protocol for its client, and no reset loop runs though each reset ID
is set. -/
structure Stuck (w : World) : Prop where
  made : w.factory.isSome = true
  client : w.client = some .other
  resetId : ∀ d, (w.flow d).resetId ≠ none
  inactive : ∀ d k, ¬Active w.calls k (.reset d)

lemma isSome_of_client (h : w.client ≠ none) : w.factory.isSome = true := by
  cases hw : w.factory with
  | none => exact absurd (by simp [World.client, hw]) h
  | some f => rfl

lemma Stuck.of_same (hs : Stuck s) (h : SameLoops s t) : Stuck t := by
  have hclient : t.client = some .other :=
    (h.client (by rw [hs.client]; exact nofun)).trans hs.client
  exact ⟨isSome_of_client (by rw [hclient]; exact nofun), hclient,
    fun d => (h.resetId d).symm ▸ hs.resetId d,
    fun d k hk => hs.inactive d k ((h.active d k).mp hk)⟩

lemma Stuck.setThrottlingEnabled (h : Stuck w) (b : Bool) : Stuck (setThrottlingEnabled b w) := by
  refine ⟨by simpa [Client.setThrottlingEnabled] using h.made, ?_, fun d => ?_, h.inactive⟩
  · rw [client_setThrottlingEnabled, h.client]
  · rw [flow_setThrottlingEnabled]
    exact h.resetId d

/-- With each reset ID set, `enable_throttling` starts no loop. -/
lemma enableThrottling_of_named (h : ∀ d, (w.flow d).resetId ≠ none) :
    enableThrottling w = setThrottlingEnabled true w := by
  have hstart : ∀ d, startReset d w = w := fun d => if_neg fun hd => h d hd.1
  unfold enableThrottling
  rw [hstart, hstart]

lemma Stuck.cancelAll (h : Stuck w) : Stuck w.cancelAll := by
  refine ⟨factory_cancelAll w ▸ h.made, (client_congr (factory_cancelAll w)).trans h.client,
    fun d => ?_, fun d k hk => h.inactive d k (active_cancelAll.mp hk).1⟩
  rw [flow_congr (factory_cancelAll w)]
  exact h.resetId d

/-- **Whatever happens to the new protocol**, nothing starts a loop or makes it the client. -/
lemma Stuck.step (h : Stuck w) {e : FactoryEvent} (he : Connected e) :
    Stuck (w.factoryStep e) := by
  have hmove := loopMove_step w he
  generalize w.factoryStep e = t at hmove ⊢
  cases hmove with
  | same hsame => exact h.of_same hsame
  | turn hk => exact absurd hk (h.inactive _ _)
  | enable _ =>
    rw [enableThrottling_of_named h.resetId]
    exact h.setThrottlingEnabled true
  | disable hv => exact (h.cancelAll.of_same hv).setThrottlingEnabled false
  | cutShort _ _ hv => exact h.cancelAll.of_same hv

/-- Losing the connection cancels the loops and changes no field of the factory. -/
lemma lost_loops (hclock : Clock loose w) (hself : w.client = some .self) (reason : Exn) :
    (w.factoryStep (.client (.lost reason))).client = some .self ∧
    (w.factoryStep (.client (.lost reason))).enabled = w.enabled ∧
    ∀ d, ((w.factoryStep (.client (.lost reason))).flow d).resetId = (w.flow d).resetId ∧
      ∀ k, ¬Active (w.factoryStep (.client (.lost reason))).calls k (.reset d) := by
  obtain ⟨f, hf⟩ := Option.isSome_iff_exists.mp hclock.made
  have hunregister : unregisterSelf w = unregisterProtocol f w := by
    unfold unregisterSelf
    simp only [hf]
    rw [if_pos]
    simpa [World.client, hf] using hself
  have hfac : (unregisterSelf w).factory = w.factory := by
    rw [hunregister]
    simp only [unregisterProtocol, List.foldl_cons, List.foldl_nil, factory_cancelDelayedCall]
  have hloop : SameLoops (unregisterSelf w) (w.factoryStep (.client (.lost reason))) := by
    show SameLoops _ (after (connectionLost reason) w)
    unfold after
    rw [connectionLost_run]
    exact within_forM _ (fun r _ => within_loseRequest allows_sameLoops reason r) _
  have hclient : (unregisterSelf w).client = some .self := (client_congr hfac).trans hself
  refine ⟨(hloop.client (by simp [hclient])).trans hclient,
    hloop.enabled.trans (enabled_congr hfac), fun d => ⟨?_, fun k hk => ?_⟩⟩
  · rw [hloop.resetId, flow_congr hfac]
  · have hnone := (hclock.cancels f hf d k).2
    rw [hloop.active, hunregister] at hk
    exact hnone hk

lemma active_foreign {calls : List DelayedCall} :
    Active (calls.map DelayedCall.foreign) k (.reset d) ↔ Active calls k (.reset d) := by
  have hforeign : ∀ c : DelayedCall, (c.foreign.func = .reset d ∧ c.foreign.active = true) ↔
      c.func = .reset d ∧ c.active = true := by
    rintro ⟨func, delay, called, cancelled⟩
    cases func <;> simp [DelayedCall.foreign]
  unfold Active
  rw [List.getElem?_map]
  cases calls[k]? with
  | none => simp
  | some c => simpa using hforeign c

/-- **The new protocol is not throttled.** -/
lemma stuck_reconnected (hclock : Clock loose w) (hnamed : Named w) (hon : w.enabled = true)
    (hself : w.client = some .self) (reason : Exn) (new : World) :
    Stuck (w.reconnected reason new) := by
  obtain ⟨hclient, henabled, hloops⟩ := lost_loops hclock hself reason
  unfold World.reconnected
  generalize w.factoryStep (.client (.lost reason)) = u at hclient henabled hloops
  have hids : ∀ d, (u.flow d).resetId ≠ none := fun d => (hloops d).1.symm ▸ hnamed hon d
  have hbuild : buildProtocol u = setThrottlingEnabled true u := by
    unfold buildProtocol
    rw [if_pos (henabled.trans hon), enableThrottling_of_named hids]
  obtain ⟨f, hf⟩ := Option.isSome_iff_exists.mp (isSome_of_client (w := u) (by simp [hclient]))
  have hpeer : f.client = some .self := by simpa [World.client, hf] using hclient
  have hfac : ((setThrottlingEnabled true u).reconnect new).factory =
      some { f with throttlingEnabled := true, client := some .other } := by
    simp [World.reconnect, setThrottlingEnabled, hf, hpeer]
  have hother : ((setThrottlingEnabled true u).reconnect new).client = some .other := by
    simp [World.client, hfac]
  rw [hbuild, connectionMade, if_neg (by simp [hother])]
  refine ⟨by rw [hfac]; rfl, hother, fun d => ?_, fun d k hk => ?_⟩
  · have hflow : ((setThrottlingEnabled true u).reconnect new).flow d = u.flow d := by
      cases d <;> simp [World.flow, hfac, hf, Factory.flow]
    rw [hflow]
    exact hids d
  · exact (hloops d).2 k (active_foreign.mp hk)

/-- A protocol that is not the factory's client counts nothing. -/
lemma Stuck.registerOwn (h : Stuck w) (d : Dir) (n : ℕ) : registerOwn d n w = w := by
  unfold Client.registerOwn
  rw [show w.factory.bind Factory.client = some .other from h.client]

lemma Stuck.not_throttles (h : Stuck w) : ¬Throttles w := fun ht =>
  let ⟨k, hk⟩ := ht.resets .reads
  h.inactive .reads k hk

/-- **Throttling does not survive a reconnection**: whatever the traffic was before, and whatever
happens to the new protocol, none of its bytes is counted, no reset loop runs, and so it is not
throttled. -/
theorem not_throttles_again {w₀ : World} (hcalls : w₀.calls = []) (throttlingEnabled : Bool)
    (readLimit writeLimit : Option ℚ) {es es' : List FactoryEvent} (hes : ∀ e ∈ es, Connected e)
    (hon : (Runs.run World.factoryStep
      (after (Factory.init throttlingEnabled readLimit writeLimit) w₀) es).enabled = true)
    (hself : (Runs.run World.factoryStep
      (after (Factory.init throttlingEnabled readLimit writeLimit) w₀) es).client = some .self)
    (reason : Exn) (new : World) (hes' : ∀ e ∈ es', Connected e) :
    ∀ v, v = Runs.run World.factoryStep ((Runs.run World.factoryStep
      (after (Factory.init throttlingEnabled readLimit writeLimit) w₀) es).reconnected reason new)
        es' →
      (∀ d n, registerOwn d n v = v) ∧ (∀ d k, ¬Active v.calls k (.reset d)) ∧ ¬Throttles v := by
  rintro v rfl
  have hw := (legal_connected hes).invariant (I := fun w => Clock Tight w ∧ Named w)
    (fun w e hw he => ⟨hw.1.step he, hw.2.step hw.1 he⟩)
    ⟨clock_init hcalls throttlingEnabled readLimit writeLimit, named_init hcalls _ _ _⟩
  have hstuck := (legal_connected hes').invariant (I := Stuck) (fun w e hw he => hw.step he)
    (stuck_reconnected hw.1 hw.2 hon hself reason new)
  exact ⟨hstuck.registerOwn, hstuck.inactive, hstuck.not_throttles⟩

/-- A factory with a limit of one byte, connected. -/
def limitedRead : World :=
  Runs.run World.factoryStep (after (Factory.init true (some 1) none) idle) [.build, .made]

/-- Its second connection is not throttled. -/
theorem not_throttles_reconnected : ¬∀ (w₀ new : World) (readLimit writeLimit : Option ℚ)
    (es : List FactoryEvent) (reason : Exn), w₀.calls = [] → (∀ e ∈ es, Connected e) →
      let w := Runs.run World.factoryStep (after (Factory.init true readLimit writeLimit) w₀) es
      w.enabled = true → w.client = some .self → Throttles (w.reconnected reason new) := by
  intro h
  have ht : Throttles (limitedRead.reconnected (.connectionLost 0) idle) :=
    h idle idle (some 1) none [.build, .made] (.connectionLost 0) rfl (by simp [Connected]) rfl rfl
  have hclock : Clock Tight (after (Factory.init true (some 1) none) idle) := clock_init rfl _ _ _
  have hbuilt := hclock.step (e := .build) trivial
  have hnamed := (named_init (w := idle) rfl true (some 1) none).step hclock (e := .build) trivial
  have hstuck := stuck_reconnected (hbuilt.step (e := .made) trivial)
    (hnamed.step hbuilt (e := .made) trivial) rfl rfl (.connectionLost 0) idle
  exact hstuck.not_throttles ht

/-- Bytes are read by the first connection and by the second. -/
theorem not_throttles_again_read :
    ¬Throttles (Runs.run World.factoryStep
      ((Runs.run World.factoryStep (after (Factory.init true none none) idle)
        [.build, .made, .client (.read 7)]).reconnected (.connectionLost 0) idle)
      [.client (.read 7)]) :=
  (not_throttles_again rfl true none none (by simp [Connected]) rfl rfl (.connectionLost 0) idle
    (by simp [Connected]) _ rfl).2.2

end Magicicada.Client
