import Magicicada.Client

/-!
A `ThrottlingStorageClientFactory` over its whole life: how it is made, its limits, turning
throttling on and off, and the protocols it builds.

Its client is the one modelled. What the client does is an event too, as the reactor running
one of the factory's delayed calls is.
-/

namespace Magicicada.Client

open Pb Errors Prog

/-- What the factory keeps for a direction. -/
def World.flow (w : World) (d : Dir) : Flow := (w.factory.map fun f => f.flow d).getD {}

/-- `factory.client`. -/
def World.client (w : World) : Option Peer := w.factory.bind Factory.client

/-- `factory.throttling_enabled`. -/
def World.enabled (w : World) : Bool := (w.factory.map Factory.throttlingEnabled).getD false

/-! ### The limits -/

def limitError : Dir → String
  | .reads => "Read limit must be greater than 0."
  | .writes => "Write limit must be greater than 0."

/-- `_set_read_limit` and `_set_write_limit`. -/
def setLimit (d : Dir) (limit : Option ℚ) : M PUnit :=
  if validLimit limit then modifyFlow d fun f => { f with limit := limit }
  else throw (.valueError (limitError d))

/-! ### Throttling on and off -/

def setThrottlingEnabled (b : Bool) (w : World) : World :=
  { w with factory := w.factory.map fun f => { f with throttlingEnabled := b } }

/-- Starts the reset loop of a direction, if its ID says that there is none. -/
def startReset (d : Dir) (w : World) : World :=
  if (w.flow d).resetId = none ∧ validLimit (w.flow d).limit = true then resetThisSecond d w else w

def enableThrottling (w : World) : World :=
  setThrottlingEnabled true (startReset .writes (startReset .reads w))

/-- `if self._throttling_reads: self.unthrottleReads()`, and likewise for writes. -/
def unthrottleIfThrottling (d : Dir) : M PUnit := do
  let w ← get
  if (w.flow d).throttling then Factory.unthrottle d else pure ⟨⟩

def disableThrottling : M PUnit := do
  -- unthrottle if there is an active unthrottle*ID
  modify fun w => cancelDelayedCall (w.flow .reads).unthrottleId w
  modify fun w => cancelDelayedCall (w.flow .writes).unthrottleId w
  -- Stop the reset loops
  modify fun w => cancelDelayedCall (w.flow .reads).resetId w
  modify fun w => cancelDelayedCall (w.flow .writes).resetId w
  -- unthrottle read/writes
  unthrottleIfThrottling .reads
  unthrottleIfThrottling .writes
  modify (setThrottlingEnabled false)

/-! ### The factory and its protocols -/

/-- `__init__`. -/
def Factory.init (throttlingEnabled : Bool) (readLimit writeLimit : Option ℚ) : M PUnit := do
  modify fun w => { w with factory := some {} }
  setLimit .reads readLimit
  setLimit .writes writeLimit
  modify (setThrottlingEnabled throttlingEnabled)
  if throttlingEnabled then modify enableThrottling else disableThrottling

/-- `buildProtocol`. -/
def buildProtocol (w : World) : World := if w.enabled then enableThrottling w else w

/-- `connectionMade` of a `ThrottlingStorageClient`. -/
def connectionMade (w : World) : World :=
  if w.client = none then
    { w with factory := w.factory.map fun f => { f with client := some .self } }
  else w

/-- What happens to a factory. -/
inductive FactoryEvent
  /-- Something happens to its client, or the reactor runs a delayed call. -/
  | client (e : Event)
  /-- `registerRead` and `registerWritten`. -/
  | register (d : Dir) (length : ℕ)
  /-- `readLimit = limit` and `writeLimit = limit`. -/
  | setLimit (d : Dir) (limit : Option ℚ)
  | enable
  | disable
  /-- `buildProtocol`. -/
  | build
  /-- `connectionMade` of the protocol. -/
  | made

def Factory.perform : FactoryEvent → M PUnit
  | .client e => Client.perform e
  | .register d length => modify (register d length)
  | .setLimit d limit => Client.setLimit d limit
  | .enable => modify enableThrottling
  | .disable => disableThrottling
  | .build => modify buildProtocol
  | .made => modify connectionMade

/-- The state after an event. What it raises goes to the reactor. -/
def World.factoryStep (w : World) (e : FactoryEvent) : World := after (Factory.perform e) w

/-- `__init__`, with throttling on and limits that are valid. -/
lemma after_init {readLimit writeLimit : Option ℚ} (hread : validLimit readLimit = true)
    (hwrite : validLimit writeLimit = true) (w : World) :
    after (Factory.init true readLimit writeLimit) w = enableThrottling { w with factory := some {
      throttlingEnabled := true
      reads := { limit := readLimit }
      writes := { limit := writeLimit } } } := by
  unfold Factory.init setLimit modifyFlow
  rw [after_modify_bind, if_pos hread, after_modify_bind, if_pos hwrite, after_modify_bind,
    after_modify_bind]
  rfl

/-! ### What the operations change -/

variable {w : World} {d d' : Dir} {f : Flow → Flow}

lemma flow_setFlow_self (h : w.factory.isSome) : (w.setFlow d f).flow d = f (w.flow d) := by
  obtain ⟨g, hg⟩ := Option.isSome_iff_exists.mp h
  cases d <;> simp [World.flow, World.setFlow, Factory.setFlow, Factory.flow, hg]

lemma flow_setFlow_of_ne (h : d' ≠ d) : (w.setFlow d f).flow d' = w.flow d' := by
  cases hw : w.factory with
  | none => simp [World.flow, World.setFlow, hw]
  | some g => cases d <;> cases d' <;> simp_all [World.flow, World.setFlow, Factory.setFlow,
      Factory.flow]

@[simp] lemma client_setFlow : (w.setFlow d f).client = w.client := client_of_setFlow w d f

@[simp] lemma enabled_setFlow : (w.setFlow d f).enabled = w.enabled := by
  cases hw : w.factory <;> cases d <;> simp [World.enabled, World.setFlow, Factory.setFlow, hw]

@[simp] lemma isSome_setFlow : (w.setFlow d f).factory.isSome = w.factory.isSome := by
  simp [World.setFlow]

@[simp] lemma flow_setThrottlingEnabled (b : Bool) :
    (setThrottlingEnabled b w).flow d = w.flow d := by
  cases hw : w.factory <;> cases d <;> simp [World.flow, setThrottlingEnabled, Factory.flow, hw]

@[simp] lemma client_setThrottlingEnabled (b : Bool) :
    (setThrottlingEnabled b w).client = w.client := by
  cases hw : w.factory <;> simp [World.client, setThrottlingEnabled, hw]

lemma enabled_setThrottlingEnabled (h : w.factory.isSome) (b : Bool) :
    (setThrottlingEnabled b w).enabled = b := by
  obtain ⟨g, hg⟩ := Option.isSome_iff_exists.mp h
  simp [World.enabled, setThrottlingEnabled, hg]

lemma enabled_setThrottlingEnabled_false (w : World) :
    (setThrottlingEnabled false w).enabled = false := by
  cases hw : w.factory <;> simp [World.enabled, setThrottlingEnabled, hw]

end Magicicada.Client
