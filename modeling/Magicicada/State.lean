import Magicicada.Dict
import Magicicada.Framing
import Magicicada.Requests
import Magicicada.Validators
import Mathlib.Data.Rat.Defs

/-!
The state of a `StorageClient` with its request objects, its transport, its factory and the
reactor.

Objects are numbered. All request objects are there from the beginning, and one that was not
started yet has no id; producers come into being while the client runs.
-/

namespace Magicicada.Client

open Pb Errors Requests

/-! ### Objects -/

/-- What a deferred was fired with. A request calls back with itself. -/
inductive Outcome
  | callback
  | errback (e : Exn)
  deriving DecidableEq

/-- A `request.Request`. One with a `source_message` is a `RequestResponse`. -/
structure Request where
  kind : Kind
  source : Option Message := none
  /-- What the protobuf library raises when `_start` fills in the arguments, if one of them
  is not of the type of its field. -/
  argError : Option Exn := none
  id : Option ℤ := none
  deferred : Option Outcome := none
  producer : Option ℕ := none
  started : Bool := false
  finished : Bool := false
  cancelled : Bool := false
  producing : Bool := false

/-- A `BytesMessageProducer`. -/
structure Producer where
  request : ℕ
  producing : Bool := false
  fh : ℕ
  offset : ℕ
  finished : Bool := false

/-- A call of a method of a file. -/
inductive FileOp
  | seek (offset : ℕ)
  | read (size : ℕ)
  deriving DecidableEq

/-- A file-like object: what it answers to a call, or raises, given all the calls so far. -/
structure File where
  behave : List FileOp → Except Exn Bytes
  ops : List FileOp := []

/-! ### The reactor and the factory -/

/-- The two directions a factory throttles. -/
inductive Dir
  | reads | writes
  deriving DecidableEq

/-- What the reactor is asked to call later. -/
inductive Func
  | go (p : ℕ)
  /-- `_resetReadThisSecond` and `_resetWrittenThisSecond`. -/
  | reset (d : Dir)
  /-- `unthrottleReads` and `unthrottleWrites`. -/
  | unthrottle (d : Dir)
  deriving DecidableEq

structure DelayedCall where
  func : Func
  delay : ℚ
  called : Bool := false
  cancelled : Bool := false
  deriving DecidableEq

def DelayedCall.active (c : DelayedCall) : Bool := !c.called && !c.cancelled

/-- What a factory keeps for a direction: `_readLimit`, `_throttling_reads`, `readThisSecond`,
`unthrottleReadsID` and `resetReadThisSecondID`, and likewise for writes. -/
structure Flow where
  limit : Option ℚ := none
  throttling : Bool := false
  thisSecond : ℕ := 0
  unthrottleId : Option ℕ := none
  resetId : Option ℕ := none

/-- The client a factory has registered: the one modelled, or another. -/
inductive Peer
  | self | other
  deriving DecidableEq

/-- A `ThrottlingStorageClientFactory`. -/
structure Factory where
  throttlingEnabled : Bool := false
  reads : Flow := {}
  writes : Flow := {}
  client : Option Peer := none

def Factory.flow (f : Factory) : Dir → Flow
  | .reads => f.reads
  | .writes => f.writes

def Factory.setFlow (f : Factory) (d : Dir) (g : Flow → Flow) : Factory :=
  match d with
  | .reads => { f with reads := g f.reads }
  | .writes => { f with writes := g f.writes }

/-! ### The client -/

/-- What a callback of the client was called with. -/
inductive Notice
  | nodeState (share node hash : String)
  | shareChange (info : Records.NotifyShareHolder)
  | shareDelete (shareId : ℕ)
  | shareAnswer (shareId : ℕ) (answer : Answer)
  | freeSpace (shareId : String) (freeBytes : ℕ)
  | accountInfo (info : AccountInfo)
  | volumeCreated (volume : Records.Volume)
  | volumeDeleted (volumeId : ℕ)
  | volumeNewGeneration (volume : Option ℕ) (generation : ℕ)
  deriving DecidableEq

/-- Which callbacks of the client are set. -/
structure Callbacks where
  nodeState : Bool := false
  shareChange : Bool := false
  shareDelete : Bool := false
  shareAnswer : Bool := false
  freeSpace : Bool := false
  accountInfo : Bool := false
  volumeCreated : Bool := false
  volumeDeleted : Bool := false
  volumeNewGeneration : Bool := false

structure Transport where
  /-- Whether the handler is registered as its producer. -/
  registered : Bool := false
  /-- How many times it was written to. -/
  writes : ℕ := 0
  /-- Whether it was told to stop reading. -/
  readsPaused : Bool := false

/-- Something that must not happen. -/
inductive Fault
  /-- `registerProducer` on a transport that has a producer. -/
  | registeredTwice
  /-- `unregisterProducer` on a transport that has none. -/
  | notRegistered
  /-- A deferred fired a second time. -/
  | firedTwice
  /-- `cleanup` of a request that is not in the registry. -/
  | cleanedTwice
  deriving DecidableEq

/-- What does not change. -/
structure Env where
  /-- `REQUEST_ID_START`. -/
  requestIdStart : ℤ := 1
  /-- Whether the buffer of the transport is full after its n-th write. -/
  fills : ℕ → Bool := fun _ => false
  /-- `str.isprintable`. -/
  printable : Char → Bool := fun _ => true
  /-- Whether the class has a `log`, which `RequestHandler` itself does not define. -/
  hasLog : Bool := false

structure World where
  env : Env := {}
  objs : ℕ → Request
  files : ℕ → File
  producers : ℕ → Producer := fun _ => { request := 0, fh := 0, offset := 0 }
  nextProducer : ℕ := 0
  requests : Dict ℤ ℕ := .empty
  requestCounter : ℤ
  producing : Bool := true
  transport : Transport := {}
  calls : List DelayedCall := []
  /-- None for a plain `StorageClient`. -/
  factory : Option Factory := none
  /-- The messages written to the transport. -/
  sent : List Message := []
  callbacks : Callbacks := {}
  notices : List Notice := []
  rootId : Option String := none
  /-- The deferreds that wait for the root, and what they were fired with. -/
  rootIdDefers : List ℕ := []
  rootIdFired : List (ℕ × String) := []
  logged : List String := []
  faults : List Fault := []

abbrev M := EStateM Exn World

/-! ### Changing a part of the state -/

def World.setObj (w : World) (r : ℕ) (f : Request → Request) : World :=
  { w with objs := Function.update w.objs r (f (w.objs r)) }

def World.setProducer (w : World) (p : ℕ) (f : Producer → Producer) : World :=
  { w with producers := Function.update w.producers p (f (w.producers p)) }

def World.setFlow (w : World) (d : Dir) (f : Flow → Flow) : World :=
  { w with factory := w.factory.map fun g => g.setFlow d f }

def modifyObj (r : ℕ) (f : Request → Request) : M PUnit := modify fun w => w.setObj r f

def modifyProducer (p : ℕ) (f : Producer → Producer) : M PUnit := modify fun w => w.setProducer p f

def modifyFlow (d : Dir) (f : Flow → Flow) : M PUnit := modify fun w => w.setFlow d f

/-- Records that something happened that must not. -/
def fault (f : Fault) : M PUnit := modify fun w => { w with faults := w.faults ++ [f] }

/-- Setting a flow does not change who the client of the factory is. -/
lemma client_of_setFlow (w : World) (d : Dir) (f : Flow → Flow) :
    (w.setFlow d f).factory.bind Factory.client = w.factory.bind Factory.client := by
  show (w.factory.map _).bind _ = _
  cases w.factory with
  | none => rfl
  | some g => cases d <;> rfl

@[simp] lemma setObj_objs_self (w : World) (r : ℕ) (f : Request → Request) :
    (w.setObj r f).objs r = f (w.objs r) := Function.update_self ..

lemma setObj_objs_of_ne {w : World} {r r' : ℕ} (h : r' ≠ r) (f : Request → Request) :
    (w.setObj r f).objs r' = w.objs r' := Function.update_of_ne h ..

lemma setObj_eq_self {w : World} {r : ℕ} {f : Request → Request} (h : f (w.objs r) = w.objs r) :
    w.setObj r f = w := by
  unfold World.setObj
  rw [h, Function.update_eq_self]

@[simp] lemma setProducer_producers_self (w : World) (p : ℕ) (f : Producer → Producer) :
    (w.setProducer p f).producers p = f (w.producers p) := Function.update_self ..

lemma setProducer_producers_of_ne {w : World} {p p' : ℕ} (h : p' ≠ p)
    (f : Producer → Producer) : (w.setProducer p f).producers p' = w.producers p' :=
  Function.update_of_ne h ..

end Magicicada.Client
