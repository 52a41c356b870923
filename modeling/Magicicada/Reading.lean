import Magicicada.Clock
import Magicicada.Meter

/-!
How much a client reads while its reads are throttled.

The reads pass a metered gate: the factory closes it, and the calls it schedules clear the meter
and open the gate again.
-/

namespace Magicicada.Client

open Pb Errors Requests Prog

variable {s t w : World} {k n : ℕ} {c : DelayedCall} {e : Event}

/-! ### What is kept about reads -/

/-- The call is still to be run, and resets or unthrottles the reads. -/
def DelayedCall.ofReads (c : DelayedCall) : Bool :=
  c.active && (c.func == .reset .reads || c.func == .unthrottle .reads)

/-- What a client and its factory keep about reads. -/
structure ReadSide where
  flow : Flow
  client : Option Peer
  enabled : Bool
  paused : Bool
  calls : ℕ → Option DelayedCall

def World.readSide (w : World) : ReadSide where
  flow := w.flow .reads
  client := w.client
  enabled := w.enabled
  paused := w.transport.readsPaused
  calls k := (w.calls[k]?).filter DelayedCall.ofReads

lemma readSide_setFlow_writes (w : World) (f : Flow → Flow) :
    (w.setFlow .writes f).readSide = w.readSide := by
  have hflow : (w.setFlow .writes f).flow .reads = w.flow .reads :=
    flow_setFlow_of_ne Dir.noConfusion
  simp only [World.readSide, hflow, client_setFlow, enabled_setFlow]
  rfl

/-- A call that is not about reads is scheduled. -/
lemma readSide_calls_append (calls : List DelayedCall) (hc : c.ofReads = false) (k : ℕ) :
    ((calls ++ [c])[k]?).filter DelayedCall.ofReads =
      (calls[k]?).filter DelayedCall.ofReads := by
  rcases lt_trichotomy k calls.length with hlt | rfl | hgt
  · rw [List.getElem?_append_left hlt]
  · simp [hc]
  · rw [List.getElem?_eq_none (by simp; omega), List.getElem?_eq_none (by omega)]

lemma readSide_schedule (hc : c.ofReads = false) (w : World) :
    { w with calls := w.calls ++ [c] }.readSide = w.readSide := by
  have hcalls := readSide_calls_append w.calls hc
  simp only [World.readSide, hcalls]
  rfl

/-- A call that is run is not to be run any more. -/
lemma readSide_called (w : World) (k : ℕ) : (w.called k).readSide =
    { w.readSide with calls := Function.update w.readSide.calls k none } := by
  have hcalls : ∀ j, ((w.called k).calls[j]?).filter DelayedCall.ofReads =
      Function.update w.readSide.calls k none j := by
    intro j
    have hget : (w.called k).calls[j]? =
        (w.calls.modify k fun c => { c with called := true })[j]? := rfl
    rw [hget, List.getElem?_modify]
    by_cases hjk : j = k
    · subst hjk
      cases w.calls[j]? <;> simp [DelayedCall.ofReads, DelayedCall.active]
    · rw [Function.update_of_ne hjk]
      simp only [if_neg (Ne.symm hjk), id_map']
      rfl
  simp only [World.readSide, hcalls]
  rfl

lemma readSide_setFlow (h : w.factory.isSome) (f : Flow → Flow) :
    (w.setFlow .reads f).readSide = { w.readSide with flow := f w.readSide.flow } := by
  simp only [World.readSide, flow_setFlow_self h, client_setFlow, enabled_setFlow]
  rfl

/-- A call that is about reads is scheduled. -/
lemma readSide_schedule_reads (hc : c.ofReads = true) (w : World) :
    { w with calls := w.calls ++ [c] }.readSide = { w.readSide with
      calls := Function.update w.readSide.calls w.calls.length (some c) } := by
  have hcalls : ∀ k, ((w.calls ++ [c])[k]?).filter DelayedCall.ofReads =
      Function.update w.readSide.calls w.calls.length (some c) k := by
    intro k
    rcases lt_trichotomy k w.calls.length with hlt | rfl | hgt
    · rw [List.getElem?_append_left hlt, Function.update_of_ne hlt.ne]
      rfl
    · simp [hc]
    · have hnone : w.readSide.calls k = none := by
        show (w.calls[k]?).filter _ = none
        rw [List.getElem?_eq_none (by omega)]
        rfl
      rw [List.getElem?_eq_none (by simp; omega), Function.update_of_ne hgt.ne', hnone]
      rfl
  simp only [World.readSide, hcalls]
  rfl

/-- A call about reads is one of the calls. -/
lemma lt_of_readSide (h : w.readSide.calls k ≠ none) : k < w.calls.length := by
  by_contra hle
  refine h ?_
  show (w.calls[k]?).filter _ = none
  rw [List.getElem?_eq_none (by omega)]
  rfl

lemma readSide_calls (hk : w.calls[k]? = some c) (hc : c.ofReads = true) :
    w.readSide.calls k = some c := by
  show (w.calls[k]?).filter _ = some c
  rw [hk, Option.filter_some_pos hc]

/-! ### What leaves the reads alone -/

lemma readSide_foldl {α : Type} {f : World → α → World}
    (h : ∀ w a, (f w a).readSide = w.readSide) (l : List α) :
    ∀ w, (l.foldl f w).readSide = w.readSide := by
  induction l with
  | nil => exact fun _ => rfl
  | cons a l ih => exact fun w => (ih _).trans (h w a)

lemma readSide_pauseRequest (r : ℕ) (w : World) :
    (Request.pauseProducing r w).readSide = w.readSide := by
  unfold Request.pauseProducing withProducer
  split <;> rfl

lemma readSide_pause (w : World) : (Handler.pauseProducing w).readSide = w.readSide :=
  readSide_foldl (fun w r => readSide_pauseRequest r w) _ w

lemma readSide_stop (w : World) : (Handler.stopProducing w).readSide = w.readSide :=
  readSide_foldl (fun w r => readSide_pauseRequest r w) _ w

lemma readSide_checkWrites (w : World) : (checkBandwidth .writes w).readSide = w.readSide := by
  unfold checkBandwidth
  split
  · rfl
  · next f _ =>
    have hthrottle : (Factory.throttle .writes w).readSide = w.readSide := by
      unfold Factory.throttle
      split
      · rfl
      · exact readSide_setFlow_writes _ _
      · exact (readSide_pause _).trans (readSide_setFlow_writes _ _)
    have hlater : ∀ i period (w : World),
        (maybeCallLater i period (.unthrottle .writes) w).2.readSide = w.readSide := by
      intro i period w
      unfold maybeCallLater
      split
      · exact readSide_schedule rfl w
      · split
        · split
          · exact readSide_schedule rfl w
          · rfl
        · rfl
    split
    · exact (readSide_setFlow_writes _ _).trans ((hlater _ _ _).trans hthrottle)
    · rfl

lemma readSide_registerWritten (n : ℕ) (w : World) :
    (register .writes n w).readSide = w.readSide := by
  unfold register
  split
  · rfl
  · split
    · exact (readSide_checkWrites _).trans (readSide_setFlow_writes _ _)
    · rfl

lemma readSide_sendMessage (m : Message) (w : World) : (sendMessage m w).readSide = w.readSide := by
  have htransport : ∀ w, (transportWrite w).readSide = w.readSide := by
    intro w
    unfold transportWrite
    simp only
    split
    · exact readSide_pause _
    · rfl
  have hwrite : ∀ n w, (write n w).readSide = w.readSide := by
    intro n w
    refine (htransport _).trans ?_
    unfold registerOwn
    split
    · exact readSide_registerWritten n w
    · rfl
  exact (hwrite _ _).trans (hwrite _ w)

/-! ### What the client does -/

lemma reads_request (r : ℕ) (m : Message) :
    Within (Frame World.readSide) (Request.sendMessage r m) :=
  along_sendMessage fun _ w => readSide_sendMessage _ w

lemma reads_go (p : ℕ) : Within (Frame World.readSide) (BytesMessageProducer.go p) := by
  have hop : ∀ fh op, Within (Frame World.readSide) (fileOp fh op) := fun fh op => by
    refine within_bind within_get fun w => within_bind (within_modify fun _ => rfl) fun _ => ?_
    split
    · exact within_pure _
    · exact within_throw _
  exact along_go hop fun _ _ => along_sendData reads_request (fun _ _ => rfl) (fun _ => rfl)
    fun w => readSide_schedule rfl w

lemma reads_resumeProducing (p : ℕ) :
    Within (Frame World.readSide) (BytesMessageProducer.resumeProducing p) :=
  within_bind (within_modify fun _ => rfl) fun _ => reads_go p

lemma reads_resumeRequest (r : ℕ) : Within (Frame World.readSide) (Request.resumeProducing r) :=
  along_resumeRequest reads_resumeProducing fun _ => rfl

lemma reads_resume : Within (Frame World.readSide) Handler.resumeProducing :=
  along_resume reads_resumeRequest fun _ => rfl

lemma reads_settle (r : ℕ) (o : Outcome) : Within (Frame World.readSide) (Request.settle r o) := by
  have hfault : ∀ f, Within (Frame World.readSide) (fault f) := fun _ => within_modify fun _ => rfl
  exact along_settle (along_cleanup (fun _ => rfl) (fun _ _ => rfl) (fun _ _ => rfl) hfault) hfault
    fun _ => rfl

lemma reads_cancel (r : ℕ) : Within (Frame World.readSide) (Request.cancel r) := by
  refine along_cancel (fun _ => rfl) (along_customCancel (fun w => ?_) (reads_request r _))
  unfold withProducer
  split <;> rfl

lemma reads_start (r : ℕ) : Within (Frame World.readSide) (start r) :=
  along_start (fun _ _ => rfl) (fun _ _ => rfl) (fun _ _ => rfl) (fun _ _ => rfl)
    (fun _ => within_modify fun _ => rfl) (reads_resumeRequest r)
    (along_startExchange (reads_request r) (fun _ => rfl) (reads_settle r _))

lemma reads_message (m : Message) (raises : Option Exn) :
    Within (Frame World.readSide) (processMessage m raises) := by
  have hsend : ∀ m, Within (Frame World.readSide) (modify (sendMessage m) : M PUnit) := fun m =>
    within_modify fun w => readSide_sendMessage m w
  have hnotify : Within (Frame World.readSide) (notify m raises) := along_notify fun _ _ => rfl
  refine along_processMessage ?_ (fun _ _ _ => rfl) reads_settle ?_ hnotify ?_
  · exact fun _ => along_reject (fun _ _ => rfl) fun m w _ => readSide_sendMessage m w
  · exact fun r _ => along_produce (fun _ _ _ => rfl) (fun _ _ => rfl) reads_resumeProducing
  · exact along_handle (hsend _) (within_modify fun _ => rfl) hnotify

/-! ### In time -/

/-- A client and its factory, the time, and when each delayed call was scheduled. -/
structure Reactor where
  world : World
  now : ℚ
  scheduled : ℕ → ℚ

/-- Something happens at a time. -/
def Reactor.step (a : Reactor) (e : ℚ × FactoryEvent) : Reactor where
  world := a.world.factoryStep e.2
  now := e.1
  scheduled k := if k < a.world.calls.length then a.scheduled k else e.1

/-- Time goes on, no delayed call is run before it is due, and nothing is read of a transport that
is paused. The read limit is left as it is, throttling is left on, and the client is not lost. -/
def Reactor.Admits (a : Reactor) (e : ℚ × FactoryEvent) : Prop :=
  a.now ≤ e.1 ∧ match e.2 with
  | .client (.call k) => ∀ c, a.world.calls[k]? = some c → a.scheduled k + c.delay ≤ e.1
  | .client (.read _) => a.world.client = some .self ∧ a.world.transport.readsPaused = false
  | .client (.lost _) => False
  | .register .reads _ => False
  | .setLimit .reads _ => False
  | .disable => False
  | _ => True

def bytesOf : FactoryEvent → ℕ
  | .client (.read n) => n
  | _ => 0

/-- How many bytes are read in a run. -/
def bytesRead (es : List (ℚ × FactoryEvent)) : ℕ := (es.map fun e => bytesOf e.2).sum

/-- The meter the factory keeps: `readThisSecond`, when the reset call was scheduled, and when the
unthrottle call is due. -/
structure Gate (limit : ℚ) (scheduled : ℕ → ℚ) (q : ReadSide) (m : Meter ℚ) : Prop where
  enabled : q.enabled = true
  limit : q.flow.limit = some limit
  level : q.flow.thisSecond = m.level
  reset : ∃ k, q.flow.resetId = some k ∧ scheduled k = m.since ∧
    q.calls k = some { func := .reset .reads, delay := 1 }
  opened : q.flow.unthrottleId = none → m.opens = none ∧ q.paused = false
  closed : ∀ k, q.flow.unthrottleId = some k → q.client = some .self ∧ q.paused = true ∧
    ∃ delay, q.calls k = some { func := .unthrottle .reads, delay := delay } ∧
      m.opens = some (scheduled k + delay)

variable {limit : ℚ} {scheduled scheduled' : ℕ → ℚ} {q : ReadSide} {m : Meter ℚ}

/-- Only when the calls about reads were scheduled matters. -/
lemma Gate.congr (h : Gate limit scheduled q m)
    (hs : ∀ k, q.calls k ≠ none → scheduled' k = scheduled k) : Gate limit scheduled' q m where
  enabled := h.enabled
  limit := h.limit
  level := h.level
  reset := by
    obtain ⟨k, hid, hsince, hk⟩ := h.reset
    exact ⟨k, hid, (hs k (by simp [hk])).trans hsince, hk⟩
  opened := h.opened
  closed k hid := by
    obtain ⟨hclient, hpaused, delay, hk, hopens⟩ := h.closed k hid
    exact ⟨hclient, hpaused, delay, hk, by rw [hs k (by simp [hk])]; exact hopens⟩

lemma Reactor.scheduled_step {a : Reactor} (e : ℚ × FactoryEvent)
    (h : a.world.readSide.calls k ≠ none) : (a.step e).scheduled k = a.scheduled k :=
  if_pos (lt_of_readSide h)

lemma Reactor.scheduled_new {a : Reactor} (e : ℚ × FactoryEvent) :
    (a.step e).scheduled a.world.calls.length = e.1 := if_neg (lt_irrefl _)

/-! ### A read -/

/-- What is left when the gate is closed. -/
def World.closeReads (w : World) (delay : ℚ) : World :=
  let w := w.setFlow .reads fun f => { f with
    throttling := true
    unthrottleId := some w.calls.length }
  { w with
    transport := { w.transport with readsPaused := true }
    calls := w.calls ++ [{ func := .unthrottle .reads, delay := delay }] }

/-- The gate is closed at the limit. -/
lemma checkReads (hmade : w.factory.isSome) (hclient : w.client = some .self)
    (henabled : w.enabled = true) (hlimit : (w.flow .reads).limit = some limit) (hl : 0 < limit)
    (hid : (w.flow .reads).unthrottleId = none) : checkBandwidth .reads w =
      if limit ≤ (w.flow .reads).thisSecond then
        w.closeReads (throttleTime (w.flow .reads).thisSecond limit)
      else w := by
  obtain ⟨f, hf⟩ := Option.isSome_iff_exists.mp hmade
  have hflow : f.flow .reads = w.flow .reads := by simp [World.flow, hf]
  have hcheck : f.shouldCheck .reads = decide (limit ≤ (w.flow .reads).thisSecond) := by
    have hon : f.throttlingEnabled = true := by simpa [World.enabled, hf] using henabled
    simp [Factory.shouldCheck, hflow, hlimit, hon, hid, validLimit, hl]
  have hthrottle : Factory.throttle .reads w = StorageClient.throttle .reads
      (w.setFlow .reads fun f => { f with throttling := true }) := by
    have hself : w.factory.bind Factory.client = some .self := hclient
    simp only [Factory.throttle, hself]
  unfold checkBandwidth
  rw [hf]
  dsimp only
  rw [hcheck, hflow, hlimit, hid, hthrottle]
  split
  · next hle =>
    rw [if_pos (of_decide_eq_true hle)]
    simp only [maybeCallLater, StorageClient.throttle, callLater, World.closeReads, World.setFlow,
      hf, Option.map_some, Option.getD_some]
    rfl
  · next hle => rw [if_neg (by simpa using hle)]

lemma readSide_closeReads (hmade : w.factory.isSome) (delay : ℚ) :
    (w.closeReads delay).readSide = { w.readSide with
      flow := { w.flow .reads with throttling := true, unthrottleId := some w.calls.length }
      paused := true
      calls := Function.update w.readSide.calls w.calls.length (some {
        func := .unthrottle .reads
        delay := delay }) } := by
  have hset := readSide_setFlow hmade fun f => { f with
    throttling := true
    unthrottleId := some w.calls.length }
  let u := w.setFlow .reads fun f => { f with
    throttling := true
    unthrottleId := some w.calls.length }
  let v : World := { u with transport := { u.transport with readsPaused := true } }
  have hc : ({ func := .unthrottle .reads, delay := delay } : DelayedCall).ofReads = true := rfl
  have hv : v.readSide = { u.readSide with paused := true } := rfl
  refine (readSide_schedule_reads hc v).trans ?_
  rw [hv, hset]
  rfl

/-- **A read** counts, and closes the gate at the limit. -/
lemma readSide_read (hmade : w.factory.isSome) (hclient : w.client = some .self)
    (henabled : w.enabled = true) (hlimit : (w.flow .reads).limit = some limit) (hl : 0 < limit)
    (hid : (w.flow .reads).unthrottleId = none) (n : ℕ) : (registerOwn .reads n w).readSide =
      if limit ≤ (((w.flow .reads).thisSecond + n : ℕ) : ℚ) then { w.readSide with
        flow := { w.flow .reads with
          throttling := true
          thisSecond := (w.flow .reads).thisSecond + n
          unthrottleId := some w.calls.length }
        paused := true
        calls := Function.update w.readSide.calls w.calls.length (some {
          func := .unthrottle .reads
          delay := throttleTime ((w.flow .reads).thisSecond + n) limit }) }
      else { w.readSide with
        flow := { w.flow .reads with thisSecond := (w.flow .reads).thisSecond + n } } := by
  obtain ⟨f, hf⟩ := Option.isSome_iff_exists.mp hmade
  have hon : f.throttlingEnabled = true := by simpa [World.enabled, hf] using henabled
  have hself : w.factory.bind Factory.client = some .self := hclient
  let u := w.setFlow .reads fun f => { f with thisSecond := f.thisSecond + n }
  have hreg : registerOwn .reads n w = checkBandwidth .reads u := by
    have hcount : registerOwn .reads n w = register .reads n w := by
      simp only [registerOwn, hself]
    rw [hcount]
    simp only [register, hf, hon, if_true]
    rfl
  have hflow : u.flow .reads = { w.flow .reads with
    thisSecond := (w.flow .reads).thisSecond + n } := flow_setFlow_self hmade
  have humade : u.factory.isSome := by simpa [u] using hmade
  have hside : u.readSide = _ := readSide_setFlow hmade fun f =>
    { f with thisSecond := f.thisSecond + n }
  rw [hreg, checkReads humade (by simpa [u] using hclient) (by simpa [u] using henabled)
    (by rw [hflow]; exact hlimit) hl (by rw [hflow]; exact hid)]
  simp only [hflow]
  split
  · rw [readSide_closeReads humade, hflow, hside]
    rfl
  · exact hside

/-! ### The delayed calls -/

lemma readSide_called_of_none (hk : w.readSide.calls k = none) :
    (w.called k).readSide = w.readSide := by
  rw [readSide_called, ← hk, Function.update_eq_self]

/-- The meter is cleared, and is to be cleared again. -/
lemma readSide_resetReads (hmade : w.factory.isSome) : (resetThisSecond .reads w).readSide =
    { w.readSide with
      flow := { w.flow .reads with thisSecond := 0, resetId := some w.calls.length }
      calls := Function.update w.readSide.calls w.calls.length (some {
        func := .reset .reads
        delay := 1 }) } := by
  have hc : ({ func := .reset .reads, delay := 1 } : DelayedCall).ofReads = true := rfl
  let u := w.setFlow .reads fun f => { f with thisSecond := 0 }
  have hset : u.readSide = _ := readSide_setFlow hmade _
  have hlater : (callLater 1 (.reset .reads) u).readSide = _ := readSide_schedule_reads hc u
  have humade : (callLater 1 (.reset .reads) u).factory.isSome := by
    simpa [callLater, u] using hmade
  refine (readSide_setFlow humade _).trans ?_
  rw [hlater, hset]
  rfl

lemma readSide_resetWrites (w : World) : (resetThisSecond .writes w).readSide = w.readSide := by
  refine (readSide_setFlow_writes _ _).trans ?_
  have hc : ({ func := .reset .writes, delay := 1 } : DelayedCall).ofReads = false := rfl
  exact (readSide_schedule hc _).trans (readSide_setFlow_writes _ _)

/-- The gate is opened again. -/
lemma readSide_unthrottleReads (hmade : w.factory.isSome) (hclient : w.client = some .self) :
    (after (Factory.unthrottle .reads) w).readSide = { w.readSide with
      flow := { w.flow .reads with throttling := false, unthrottleId := none }
      paused := false } := by
  let u := w.setFlow .reads fun f => { f with unthrottleId := none }
  let v := u.setFlow .reads fun f => { f with throttling := false }
  have hself : u.factory.bind Factory.client = some .self := (client_of_setFlow w _ _).trans hclient
  have hafter : after (Factory.unthrottle .reads) w =
      { v with transport := { v.transport with readsPaused := false } } := by
    unfold Factory.unthrottle modifyFlow
    rw [after_modify_bind, after_get_bind, hself]
    rfl
  have humade : u.factory.isSome := by simpa [u] using hmade
  have hset : u.readSide = _ := readSide_setFlow hmade _
  have hset' : v.readSide = _ := readSide_setFlow humade _
  have hv : { v with transport := { v.transport with readsPaused := false } }.readSide =
      { v.readSide with paused := false } := rfl
  rw [hafter, hv, hset', hset]
  rfl

lemma reads_unthrottleWrites : Within (Frame World.readSide) (Factory.unthrottle .writes) :=
  along_unthrottle (fun w => readSide_setFlow_writes w _) (fun w => readSide_setFlow_writes w _)
    reads_resume

/-- The reactor runs a call that is not about reads. -/
lemma readSide_runOther (hk : w.calls[k]? = some c) (hreset : c.func ≠ .reset .reads)
    (hunthrottle : c.func ≠ .unthrottle .reads) :
    (after c.func.run (w.called k)).readSide = w.readSide := by
  have hnone : w.readSide.calls k = none := by
    show (w.calls[k]?).filter _ = none
    rw [hk]
    simp [DelayedCall.ofReads, hreset, hunthrottle]
  refine Eq.trans ?_ (readSide_called_of_none hnone)
  cases hfunc : c.func with
  | go p => exact reads_go p _
  | reset d =>
    cases d with
    | reads => exact absurd hfunc hreset
    | writes => exact readSide_resetWrites _
  | unthrottle d =>
    cases d with
    | reads => exact absurd hfunc hunthrottle
    | writes => exact reads_unthrottleWrites _

/-! ### The rest of the factory -/

lemma readSide_setThrottlingEnabled (hmade : w.factory.isSome) (henabled : w.enabled = true) :
    (setThrottlingEnabled true w).readSide = w.readSide := by
  have hon := (enabled_setThrottlingEnabled hmade true).trans henabled.symm
  simp only [World.readSide, flow_setThrottlingEnabled, client_setThrottlingEnabled, hon]
  rfl

lemma readSide_enableWrites (hmade : w.factory.isSome) (henabled : w.enabled = true) :
    (setThrottlingEnabled true (startReset .writes w)).readSide = w.readSide := by
  have hwrites : (startReset .writes w).readSide = w.readSide := by
    unfold startReset
    split
    · exact readSide_resetWrites w
    · rfl
  have hmade' : (startReset .writes w).factory.isSome := by
    unfold startReset
    split
    · simpa [resetThisSecond, callLater] using hmade
    · exact hmade
  have henabled' : (startReset .writes w).enabled = true :=
    (congrArg ReadSide.enabled hwrites).trans henabled
  exact (readSide_setThrottlingEnabled hmade' henabled').trans hwrites

/-- Throttling is on, and the reset loop of the reads runs. -/
lemma readSide_enable (hmade : w.factory.isSome) (henabled : w.enabled = true)
    (hid : (w.flow .reads).resetId ≠ none) : (enableThrottling w).readSide = w.readSide := by
  have hreads : startReset .reads w = w := if_neg fun h => hid h.1
  unfold enableThrottling
  rw [hreads]
  exact readSide_enableWrites hmade henabled

lemma readSide_setWriteLimit (limit : Option ℚ) :
    Within (Frame World.readSide) (setLimit .writes limit) :=
  within_ite (fun _ => within_modify fun w => readSide_setFlow_writes w _) fun _ => within_throw _

/-! ### The meter -/

variable {a : Reactor} {t : ℚ}

/-- The meter goes on after an event. -/
def Reactor.Meters (a : Reactor) (limit : ℚ) (e : ℚ × FactoryEvent) (m : Meter ℚ) : Prop :=
  ∃ m', Meter.Step limit e.1 m (bytesOf e.2) m' ∧
    Gate limit (a.step e).scheduled (a.step e).world.readSide m'

/-- The reads are left alone. -/
lemma Gate.still (h : Gate limit a.scheduled a.world.readSide m) {e : ℚ × FactoryEvent}
    (hbytes : bytesOf e.2 = 0) (hsame : (a.world.factoryStep e.2).readSide = a.world.readSide) :
    a.Meters limit e m := by
  refine ⟨m, hbytes ▸ .wait m, ?_⟩
  have hgate := h.congr fun k hk => a.scheduled_step e hk
  rw [← hsame] at hgate
  exact hgate

lemma Gate.read (h : Gate limit a.scheduled a.world.readSide m) (hl : 0 < limit)
    (hmade : a.world.factory.isSome) (hclient : a.world.client = some .self)
    (hpaused : a.world.transport.readsPaused = false) (t : ℚ) (n : ℕ) :
    a.Meters limit (t, .client (.read n)) m := by
  have hid : (a.world.flow .reads).unthrottleId = none := by
    by_contra hne
    obtain ⟨k, hk⟩ := Option.ne_none_iff_exists'.mp hne
    exact absurd (hpaused.symm.trans (h.closed k hk).2.1) Bool.false_ne_true
  have hopen : m.opens = none := (h.opened hid).1
  have hside : (a.world.factoryStep (.client (.read n))).readSide = _ :=
    readSide_read hmade hclient h.enabled h.limit hl hid n
  have hlevel : (a.world.flow .reads).thisSecond = m.level := h.level
  obtain ⟨k, hresetId, hsince, hk⟩ := h.reset
  have hlt : k < a.world.calls.length := lt_of_readSide (by simp [hk])
  have hscheduled : (a.step (t, .client (.read n))).scheduled k = m.since :=
    (if_pos hlt).trans hsince
  by_cases hle : limit ≤ (((a.world.flow .reads).thisSecond + n : ℕ) : ℚ)
  · rw [if_pos hle] at hside
    refine ⟨_, .close m n hopen (hlevel ▸ hle), ?_⟩
    show Gate limit _ (a.world.factoryStep (.client (.read n))).readSide _
    rw [hside]
    refine ⟨h.enabled, h.limit, congrArg (· + n) hlevel, ⟨k, hresetId, hscheduled, ?_⟩,
      fun h => absurd h (Option.some_ne_none _), ?_⟩
    · exact (Function.update_of_ne hlt.ne _ _).trans hk
    · rintro j ⟨⟩
      refine ⟨hclient, rfl, _, Function.update_self .., ?_⟩
      rw [a.scheduled_new]
      show some _ = some (t + throttleTime ((a.world.flow .reads).thisSecond + n) limit)
      rw [hlevel]
      rfl
  · rw [if_neg hle] at hside
    refine ⟨_, .pass m n hopen (hlevel ▸ not_le.mp hle), ?_⟩
    show Gate limit _ (a.world.factoryStep (.client (.read n))).readSide _
    rw [hside]
    refine ⟨h.enabled, h.limit, congrArg (· + n) hlevel, ⟨k, hresetId, hscheduled, hk⟩, ?_, ?_⟩
    · exact fun _ => ⟨hopen, hpaused⟩
    · exact fun j hj => absurd (hid.symm.trans hj) (Option.some_ne_none j).symm

/-- The call that clears the meter is run. -/
lemma Gate.clear (h : Gate limit a.scheduled a.world.readSide m) (hclock : Clock Tight a.world)
    (hk : a.world.calls[k]? = some c) (hactive : c.active = true) (hfunc : c.func = .reset .reads)
    (hdue : a.scheduled k + c.delay ≤ t) (hstep : a.world.step (.call k) =
      after c.func.run (a.world.called k)) : a.Meters limit (t, .client (.call k)) m := by
  obtain ⟨j, hresetId, hsince, hj⟩ := h.reset
  have hid : (a.world.flow .reads).resetId = some k :=
    (hclock.timed .reads).reset k ⟨c, hk, hfunc, hactive⟩
  obtain rfl : j = k := Option.some.inj (hresetId.symm.trans hid)
  have hc : a.world.readSide.calls j = some c :=
    readSide_calls hk (by simp [DelayedCall.ofReads, hactive, hfunc])
  obtain rfl : c = { func := .reset .reads, delay := 1 } := Option.some.inj (hc.symm.trans hj)
  have hmade : (a.world.called j).factory.isSome := hclock.made
  have hside : (a.world.factoryStep (.client (.call j))).readSide = _ :=
    (congrArg World.readSide hstep).trans (readSide_resetReads hmade)
  rw [readSide_called] at hside
  have hlen : (a.world.called j).calls.length = a.world.calls.length := List.length_modify ..
  refine ⟨_, .clear m (hsince ▸ hdue), ?_⟩
  show Gate limit _ (a.world.factoryStep (.client (.call j))).readSide _
  rw [hside, hlen]
  refine ⟨h.enabled, h.limit, rfl, ⟨_, rfl, a.scheduled_new _, Function.update_self ..⟩,
    h.opened, ?_⟩
  intro i hi
  obtain ⟨hclient, hpaused, delay, hcall, hopens⟩ := h.closed i hi
  have hlt : i < a.world.calls.length := lt_of_readSide (by simp [hcall])
  have hij : i ≠ j := by
    rintro rfl
    exact Func.noConfusion (congrArg DelayedCall.func (Option.some.inj (hcall.symm.trans hj)))
  refine ⟨hclient, hpaused, delay, ?_, ?_⟩
  · exact (Function.update_of_ne hlt.ne _ _).trans ((Function.update_of_ne hij _ _).trans hcall)
  · rw [show (a.step (t, .client (.call j))).scheduled i = a.scheduled i from if_pos hlt]
    exact hopens

/-- The call that opens the gate again is run. -/
lemma Gate.reopen (h : Gate limit a.scheduled a.world.readSide m) (hclock : Clock Tight a.world)
    (hk : a.world.calls[k]? = some c) (hactive : c.active = true)
    (hfunc : c.func = .unthrottle .reads) (hdue : a.scheduled k + c.delay ≤ t)
    (hstep : a.world.step (.call k) = after c.func.run (a.world.called k)) :
    a.Meters limit (t, .client (.call k)) m := by
  have hid : (a.world.flow .reads).unthrottleId = some k :=
    (hclock.timed .reads).unthrottle k ⟨c, hk, hfunc, hactive⟩
  obtain ⟨hclient, -, delay, hcall, hopens⟩ := h.closed k hid
  have hc : a.world.readSide.calls k = some c :=
    readSide_calls hk (by simp [DelayedCall.ofReads, hactive, hfunc])
  obtain rfl : c = { func := .unthrottle .reads, delay := delay } :=
    Option.some.inj (hc.symm.trans hcall)
  have hmade : (a.world.called k).factory.isSome := hclock.made
  have hside : (a.world.factoryStep (.client (.call k))).readSide = _ :=
    (congrArg World.readSide hstep).trans (readSide_unthrottleReads hmade hclient)
  rw [readSide_called] at hside
  obtain ⟨j, hresetId, hsince, hj⟩ := h.reset
  have hlt : j < a.world.calls.length := lt_of_readSide (by simp [hj])
  have hjk : j ≠ k := by
    rintro rfl
    exact Func.noConfusion (congrArg DelayedCall.func (Option.some.inj (hj.symm.trans hcall)))
  refine ⟨_, .reopen m _ hopens hdue, ?_⟩
  show Gate limit _ (a.world.factoryStep (.client (.call k))).readSide _
  rw [hside]
  refine ⟨h.enabled, h.limit, h.level, ⟨j, hresetId, (if_pos hlt).trans hsince, ?_⟩,
    fun _ => ⟨rfl, rfl⟩, fun i hi => absurd hi (Option.some_ne_none i).symm⟩
  exact (Function.update_of_ne hjk _ _).trans hj

/-- The reactor runs a delayed call, if it is due. -/
lemma Gate.call (h : Gate limit a.scheduled a.world.readSide m) (hclock : Clock Tight a.world)
    (hdue : ∀ c, a.world.calls[k]? = some c → a.scheduled k + c.delay ≤ t) :
    a.Meters limit (t, .client (.call k)) m := by
  have hstep : a.world.step (.call k) = after (runCall k) a.world := rfl
  rcases after_runCall k a.world with hsame | ⟨c, hk, hactive, hrun⟩
  · exact h.still rfl (congrArg World.readSide (hstep.trans hsame))
  · by_cases hreset : c.func = .reset .reads
    · exact h.clear hclock hk hactive hreset (hdue c hk) (hstep.trans hrun)
    · by_cases hunthrottle : c.func = .unthrottle .reads
      · exact h.reopen hclock hk hactive hunthrottle (hdue c hk) (hstep.trans hrun)
      · refine h.still rfl ((congrArg World.readSide (hstep.trans hrun)).trans ?_)
        exact readSide_runOther hk hreset hunthrottle

/-- A protocol whose connection is made is the client, if there was none. -/
lemma Gate.made (h : Gate limit a.scheduled a.world.readSide m) (t : ℚ) :
    a.Meters limit (t, .made) m := by
  have hstep : a.world.factoryStep .made = connectionMade a.world := rfl
  by_cases hclient : a.world.client = none
  · refine ⟨m, .wait m, ?_⟩
    have hgate := h.congr fun k hk => a.scheduled_step (t, .made) hk
    have hid : a.world.readSide.flow.unthrottleId = none := by
      by_contra hne
      obtain ⟨k, hk⟩ := Option.ne_none_iff_exists'.mp hne
      exact absurd (hclient.symm.trans (h.closed k hk).1) (Option.some_ne_none _).symm
    have hside : (connectionMade a.world).readSide =
        { a.world.readSide with client := (connectionMade a.world).client } := by
      unfold connectionMade
      rw [if_pos hclient]
      cases hf : a.world.factory <;> simp [World.readSide, World.flow, World.enabled, hf,
        Factory.flow]
    show Gate limit _ (connectionMade a.world).readSide m
    rw [hside]
    exact ⟨hgate.enabled, hgate.limit, hgate.level, hgate.reset, hgate.opened,
      fun k hk => absurd (hid.symm.trans hk) (Option.some_ne_none k).symm⟩
  · exact h.still rfl (congrArg World.readSide (hstep.trans (if_neg hclient)))

/-- **Every event** is a step of the meter. -/
lemma Gate.step (h : Gate limit a.scheduled a.world.readSide m) (hl : 0 < limit)
    (hclock : Clock Tight a.world) {e : ℚ × FactoryEvent} (he : a.Admits e) :
    a.Meters limit e m := by
  obtain ⟨t, e⟩ := e
  obtain ⟨k, hresetId, -⟩ := h.reset
  have hid : (a.world.flow .reads).resetId ≠ none := by
    rw [show (a.world.flow .reads).resetId = some k from hresetId]
    exact Option.some_ne_none k
  cases e with
  | client e =>
    cases e with
    | read n => exact h.read hl hclock.made he.2.1 he.2.2 t n
    | call k => exact h.call hclock he.2
    | lost reason => exact he.2.elim
    | start r => exact h.still rfl (reads_start r a.world)
    | message m raises => exact h.still rfl (reads_message m raises a.world)
    | cancel r => exact h.still rfl (reads_cancel r a.world)
    | pause => exact h.still rfl (readSide_pause a.world)
    | resume => exact h.still rfl (reads_resume a.world)
    | stop => exact h.still rfl (readSide_stop a.world)
    | done r => exact h.still rfl (reads_settle r _ a.world)
    | error r e => exact h.still rfl (reads_settle r _ a.world)
  | register d n =>
    cases d with
    | reads => exact he.2.elim
    | writes => exact h.still rfl (readSide_registerWritten n a.world)
  | setLimit d l =>
    cases d with
    | reads => exact he.2.elim
    | writes => exact h.still rfl (readSide_setWriteLimit l a.world)
  | enable => exact h.still rfl (readSide_enable hclock.made h.enabled hid)
  | disable => exact he.2.elim
  | build =>
    refine h.still rfl ?_
    have hon : a.world.enabled = true := h.enabled
    show (buildProtocol a.world).readSide = _
    rw [buildProtocol, if_pos hon]
    exact readSide_enable hclock.made h.enabled hid
  | made => exact h.made t

/-! ### Runs -/

/-- A factory is made at a time, with throttling on. -/
def Reactor.init (limit : ℚ) (writeLimit : Option ℚ) (t₀ : ℚ) (w : World) : Reactor where
  world := after (Factory.init true (some limit) writeLimit) w
  now := t₀
  scheduled _ := t₀

lemma gate_init (hl : 0 < limit) {writeLimit : Option ℚ} (hwrite : validLimit writeLimit = true)
    (hpaused : w.transport.readsPaused = false) (t₀ : ℚ) :
    Gate limit (fun _ => t₀) (after (Factory.init true (some limit) writeLimit) w).readSide
      ⟨0, t₀, none⟩ := by
  let u : World := { w with factory := some {
    throttlingEnabled := true
    reads := { limit := some limit }
    writes := { limit := writeLimit } } }
  have hvalid : validLimit (some limit) = true := decide_eq_true hl
  have hinit : after (Factory.init true (some limit) writeLimit) w = enableThrottling u :=
    after_init hvalid hwrite w
  have hreads : startReset .reads u = resetThisSecond .reads u := if_pos ⟨rfl, hvalid⟩
  have hreset : (resetThisSecond .reads u).readSide = _ := readSide_resetReads rfl
  have hwrites := readSide_enableWrites (w := resetThisSecond .reads u) rfl
    (congrArg ReadSide.enabled hreset)
  rw [hinit, enableThrottling, hreads, hwrites, hreset]
  exact ⟨rfl, rfl, rfl, ⟨_, rfl, rfl, Function.update_self ..⟩, fun _ => ⟨rfl, hpaused⟩,
    fun k hk => absurd hk (Option.some_ne_none k).symm⟩

lemma bytesRead_concat (es : List (ℚ × FactoryEvent)) (e : ℚ × FactoryEvent) :
    bytesRead (es ++ [e]) = bytesRead es + bytesOf e.2 := by simp [bytesRead]

/-- **How much is read in a time**, a chunk at a time, while reads are throttled. -/
theorem bytesRead_le (hl : 0 < limit) {writeLimit : Option ℚ}
    (hwrite : validLimit writeLimit = true) {w₀ : World} (hcalls : w₀.calls = [])
    (hpaused : w₀.transport.readsPaused = false) {t₀ : ℚ} {chunk : ℕ}
    {es : List (ℚ × FactoryEvent)}
    (hes : Runs.Legal Reactor.step (fun a e => a.Admits e ∧ bytesOf e.2 ≤ chunk)
      (.init limit writeLimit t₀ w₀) es) :
    let time := (Runs.run Reactor.step (.init limit writeLimit t₀ w₀) es).now - t₀
    (bytesRead es : ℚ) ≤ (limit + chunk) * (time + 1) + limit * time := by
  have hchunk : (0 : ℚ) ≤ chunk := Nat.cast_nonneg chunk
  have hstart : Meter.Bounded limit (chunk : ℚ) t₀ (bytesRead []) t₀ ⟨0, t₀, none⟩ :=
    Meter.bounded_start hl hchunk t₀
  have hrun := hes.history (P := fun es a => Clock Tight a.world ∧ ∃ m,
      Gate limit a.scheduled a.world.readSide m ∧
      Meter.Bounded limit (chunk : ℚ) t₀ (bytesRead es) a.now m) ?_
    ⟨clock_init hcalls _ _ _, _, gate_init hl hwrite hpaused t₀, hstart⟩
  · obtain ⟨-, m, -, hbounded⟩ := hrun
    exact hbounded.total_le hl hchunk
  · rintro es a e ⟨hclock, m, hgate, hbounded⟩ ⟨he, hn⟩
    obtain ⟨m', hstep, hgate'⟩ := hgate.step hl hclock he
    refine ⟨hclock.step ?_, m', hgate', ?_⟩
    · obtain ⟨t, e⟩ := e
      cases e with
      | client e =>
        cases e with
        | lost reason => exact he.2.elim
        | _ => trivial
      | _ => trivial
    · rw [bytesRead_concat]
      exact hbounded.step hl hchunk he.1 (Nat.cast_le.mpr hn) hstep

/-- A chunk is over the limit of two bytes in a second, and a second one when reads are
unthrottled. -/
def twoChunks : List (ℚ × FactoryEvent) :=
  [(0, .build), (0, .made), (0, .client (.read 3)), (1 / 2, .client (.call 2)),
    (1 / 2, .client (.read 3))]

lemma legal_twoChunks : Runs.Legal Reactor.step (fun a e => a.Admits e ∧ bytesOf e.2 ≤ 3)
    (.init 2 none 0 (uploading [])) twoChunks := by
  have hcall : (Runs.run Reactor.step (.init 2 none 0 (uploading []))
      (twoChunks.take 3)).world.calls[2]? =
        some { func := .unthrottle .reads, delay := 1 / 2 } := by decide +kernel
  have hdue : (Runs.run Reactor.step (.init 2 none 0 (uploading []))
      (twoChunks.take 3)).scheduled 2 + 1 / 2 ≤ 1 / 2 := by decide +kernel
  refine ⟨⟨⟨by decide +kernel, trivial⟩, by decide⟩, ⟨⟨by decide +kernel, trivial⟩, by decide⟩,
    ⟨⟨by decide +kernel, by decide +kernel, by decide +kernel⟩, by decide⟩,
    ⟨⟨by decide +kernel, fun c hc => ?_⟩, by decide⟩,
    ⟨⟨by decide +kernel, by decide +kernel, by decide +kernel⟩, by decide⟩, trivial⟩
  obtain rfl := Option.some.inj (hcall.symm.trans hc)
  exact hdue

theorem bytesRead_le_twoChunks : (bytesRead twoChunks : ℚ) ≤ 17 / 2 := by
  have hnow : (Runs.run Reactor.step (.init 2 none 0 (uploading [])) twoChunks).now = 1 / 2 := rfl
  have h := bytesRead_le (by norm_num) rfl rfl rfl legal_twoChunks
  dsimp only at h
  rw [hnow] at h
  norm_num at h
  exact h

end Magicicada.Client
