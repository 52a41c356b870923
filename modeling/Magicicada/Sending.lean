import Magicicada.Fields
import Magicicada.State

/-!
Writing to the transport: `sendMessage`, and what is called from inside a write.

A write may fill the buffer of the transport, which then pauses its producer, the handler; and
the factory counts the bytes and pauses the handler when they reach the limit. Pausing only
sets flags, of the handler, of the registered requests and of their producers. None of this
raises, so these are functions of the state.
-/

namespace Magicicada.Client

open Pb Errors Bytes Framing Fields Requests

/-! ### Pausing -/

/-- `BytesMessageProducer.pauseProducing`. -/
def BytesMessageProducer.pauseProducing (p : ℕ) (w : World) : World :=
  w.setProducer p fun q => { q with producing := false }

/-- `BytesMessageProducer.stopProducing`. -/
def BytesMessageProducer.stopProducing (p : ℕ) (w : World) : World :=
  w.setProducer p fun q => { q with producing := false }

/-- `if self.producer: ...`. -/
def withProducer (r : ℕ) (f : ℕ → World → World) (w : World) : World :=
  match (w.objs r).producer with
  | some p => f p w
  | none => w

def Request.pauseProducing (r : ℕ) (w : World) : World :=
  (withProducer r BytesMessageProducer.pauseProducing w).setObj r
    fun q => { q with producing := false }

def Request.stopProducing (r : ℕ) (w : World) : World :=
  (withProducer r BytesMessageProducer.stopProducing w).setObj r
    fun q => { q with producing := false }

/-- `RequestHandler.pauseProducing`. -/
def Handler.pauseProducing (w : World) : World :=
  { w.requests.values.foldl (fun w r => Request.pauseProducing r w) w with producing := false }

/-- `RequestHandler.stopProducing`. -/
def Handler.stopProducing (w : World) : World :=
  { w.requests.values.foldl (fun w r => Request.stopProducing r w) w with producing := false }

/-! ### The reactor -/

/-- `reactor.callLater`; the delayed call is the last one. -/
def callLater (delay : ℚ) (func : Func) (w : World) : World :=
  { w with calls := w.calls ++ [{ func := func, delay := delay }] }

/-! ### The factory -/

/-- `maybeCallLater`, given the value of the attribute `call_id`, and the delayed call. -/
def maybeCallLater (callId : Option ℕ) (period : ℚ) (func : Func) (w : World) : ℕ × World :=
  match callId with
  | none => (w.calls.length, callLater period func w)
  | some k =>
    match w.calls[k]? with
    | some c =>
      if !c.active && c.cancelled then (w.calls.length, callLater period func w) else (k, w)
    | none => (k, w)

/-- `valid_limit`. -/
def validLimit (limit : Option ℚ) : Bool :=
  match limit with
  | none => true
  | some l => 0 < l

/-- `_get_throttle_time`. -/
def throttleTime (dataBytes : ℕ) (limit : ℚ) : ℚ := dataBytes / limit - 1

/-- `ThrottlingStorageClient.throttleReads` and `throttleWrites`. -/
def StorageClient.throttle (d : Dir) (w : World) : World :=
  match d with
  | .reads => { w with transport := { w.transport with readsPaused := true } }
  | .writes => Handler.pauseProducing w

/-- `throttleReads` and `throttleWrites` of the factory. -/
def Factory.throttle (d : Dir) (w : World) : World :=
  match w.factory.bind Factory.client with
  | none => w
  | some .other => w.setFlow d fun f => { f with throttling := true }
  | some .self => StorageClient.throttle d (w.setFlow d fun f => { f with throttling := true })

/-- `should_check` of `checkReadBandwidth` and `checkWriteBandwidth`. -/
def Factory.shouldCheck (f : Factory) (d : Dir) : Bool :=
  match (f.flow d).limit with
  | none => false
  | some limit =>
    f.throttlingEnabled && (validLimit limit && limit ≤ (f.flow d).thisSecond) &&
      (f.flow d).unthrottleId == none

/-- `checkReadBandwidth` and `checkWriteBandwidth`. -/
def checkBandwidth (d : Dir) (w : World) : World :=
  match w.factory with
  | none => w
  | some f =>
    if f.shouldCheck d then
      let w := Factory.throttle d w
      let throttle := throttleTime (f.flow d).thisSecond ((f.flow d).limit.getD 0)
      let (k, w) := maybeCallLater (f.flow d).unthrottleId throttle (.unthrottle d) w
      w.setFlow d fun f => { f with unthrottleId := some k }
    else w

/-- `registerRead` and `registerWritten`. -/
def register (d : Dir) (length : ℕ) (w : World) : World :=
  match w.factory with
  | none => w
  | some f =>
    if f.throttlingEnabled then
      checkBandwidth d (w.setFlow d fun f => { f with thisSecond := f.thisSecond + length })
    else w

/-- `if self.factory.client is self: ...` of `ThrottlingStorageClient`. -/
def registerOwn (d : Dir) (length : ℕ) (w : World) : World :=
  match w.factory.bind Factory.client with
  | some .self => register d length w
  | _ => w

/-! ### Writing -/

/-- `transport.write`. -/
def transportWrite (w : World) : World :=
  let n := w.transport.writes
  let w := { w with transport := { w.transport with writes := n + 1 } }
  if w.transport.registered && w.env.fills n then Handler.pauseProducing w else w

/-- `write` of a `StorageClient` or a `ThrottlingStorageClient`. -/
def write (length : ℕ) (w : World) : World := transportWrite (registerOwn .writes length w)

/-- `RequestHandler.sendMessage`. -/
def sendMessage (m : Message) (w : World) : World :=
  let w := write (byteSize m) (write sizeFmtSize w)
  { w with sent := w.sent ++ [m] }

/-- `Request.sendMessage`. The field `id` takes an `int32`. -/
def Request.sendMessage (r : ℕ) (m : Message) : M PUnit := do
  let w ← get
  match (w.objs r).id with
  | none => throw (.typeError "None has type NoneType, but expected one of: int")
  | some i =>
    if int32 i then modify (Client.sendMessage { m with id := i })
    else throw (.valueError "Value out of range")

end Magicicada.Client
