import Magicicada.Prog
import Magicicada.Sending

/-!
The client: requests from `start` to `done` or `error`, uploads, `processMessage`,
`connectionLost`, and the events that drive it all.

A program that raises leaves the state as it was when it raised. The deferreds' callbacks are
not modelled; they are taken not to call back into the client.
-/

namespace Magicicada.Client

open Pb Errors Fields Framing Requests Records Prog

/-! ### Uploads -/

/-- A call of a method of the file `fh`. -/
def fileOp (fh : ℕ) (op : FileOp) : M Bytes := do
  let w ← get
  let f := w.files fh
  modify fun w => { w with
    files := Function.update w.files fh { f with ops := f.ops ++ [op] } }
  match f.behave (f.ops ++ [op]) with
  | .ok data => pure data
  | .error e => throw e

/-- `if self.offset: self.fh.seek(self.offset)`. -/
def seekOffset (q : Producer) : M PUnit :=
  if q.offset ≠ 0 then do
    let _ ← fileOp q.fh (.seek q.offset)
    pure ⟨⟩
  else pure ⟨⟩

/-- The `BYTES` and `EOF` messages of a producer. -/
def bytesMessage (data : Bytes) : Message :=
  { type := .bytes, bytes := some { bytes := some data } }

def eofMessage : Message := { type := .eof }

/-- `BytesMessageProducer.go`, from the data read on. -/
def sendData (p : ℕ) (q : Producer) (data : Bytes) : M PUnit :=
  if data ≠ [] then do
    modifyProducer p fun q =>
      if q.offset ≠ 0 then { q with offset := q.offset + data.length } else q
    Request.sendMessage q.request (bytesMessage data)
    modify (callLater 0 (.go p))
  else do
    Request.sendMessage q.request eofMessage
    modifyProducer p fun q => { q with producing := false, finished := true }

/-- `BytesMessageProducer.go`. -/
def BytesMessageProducer.go (p : ℕ) : M PUnit := do
  let w ← get
  let q := w.producers p
  if !q.producing || (w.objs q.request).cancelled || q.finished then pure ⟨⟩
  else do
    seekOffset q
    let data ← fileOp q.fh (.read (w.objs q.request).kind.maxPayloadSize)
    sendData p q data

/-- `BytesMessageProducer.resumeProducing`. -/
def BytesMessageProducer.resumeProducing (p : ℕ) : M PUnit := do
  modifyProducer p fun q => { q with producing := true }
  BytesMessageProducer.go p

/-- `if self.producer: self.producer.resumeProducing()`. -/
def resumeProducer (r : ℕ) : M PUnit := do
  let w ← get
  match (w.objs r).producer with
  | some p => BytesMessageProducer.resumeProducing p
  | none => pure ⟨⟩

def Request.resumeProducing (r : ℕ) : M PUnit := do
  resumeProducer r
  modifyObj r fun q => { q with producing := true }

/-- `RequestHandler.resumeProducing`. -/
def Handler.resumeProducing : M PUnit := do
  let w ← get
  w.requests.values.forM Request.resumeProducing
  modify fun w => { w with producing := true }

/-- `Request.registerProducer`, of a push producer. -/
def Request.registerProducer (r p : ℕ) : M PUnit := do
  modifyObj r fun q => { q with producer := some p }
  let w ← get
  if (w.objs r).producing then BytesMessageProducer.resumeProducing p else pure ⟨⟩

/-- The `BytesMessageProducer` a `PutContent` makes, registered. -/
def produce (r offset : ℕ) : M PUnit := do
  let w ← get
  let p := w.nextProducer
  modify fun w => { w with
    producers := Function.update w.producers p
      { request := r, fh := (w.objs r).kind.fd, offset := offset }
    nextProducer := p + 1 }
  Request.registerProducer r p

/-! ### The end of a request -/

/-- `transport.unregisterProducer`. -/
def unregisterProducer : M PUnit := do
  let w ← get
  if w.transport.registered then
    modify fun w => { w with transport := { w.transport with registered := false } }
  else fault .notRegistered

/-- `RequestHandler.removeProducer`. -/
def removeProducer : M PUnit := do
  let w ← get
  if w.requests.isEmpty then unregisterProducer else pure ⟨⟩

/-- `del self.protocol.requests[self.id]`. -/
def deleteRequest (r : ℕ) : M PUnit := do
  let w ← get
  match (w.objs r).id with
  | none => do
    fault .cleanedTwice
    throw .keyError
  | some i =>
    match w.requests.get? i with
    | none => do
      fault .cleanedTwice
      throw .keyError
    | some _ => modify fun w => { w with requests := w.requests.erase i }

def Request.cleanup (r : ℕ) : M PUnit := do
  modifyObj r fun q => { q with finished := true, started := false }
  deleteRequest r
  removeProducer

/-- `deferred.callback` and `deferred.errback`. -/
def fire (r : ℕ) (o : Outcome) : M PUnit := do
  let w ← get
  match (w.objs r).deferred with
  | some _ => do
    fault .firedTwice
    throw .alreadyCalledError
  | none => modifyObj r fun q => { q with deferred := some o }

/-- `done` and `error`. -/
def Request.settle (r : ℕ) (o : Outcome) : M PUnit := do
  Request.cleanup r
  fire r o

def Request.done (r : ℕ) : M PUnit := Request.settle r .callback

def Request.error (r : ℕ) (failure : Exn) : M PUnit := Request.settle r (.errback failure)

/-- The `_cancel` of `GetContent` and of `PutContent`. -/
def customCancel (r : ℕ) : M PUnit := do
  let w ← get
  match (w.objs r).kind with
  | .getContent _ => Request.sendMessage r { type := .cancelRequest }
  | .putContent _ => do
    modify (withProducer r BytesMessageProducer.stopProducing)
    Request.sendMessage r { type := .cancelRequest }
  | _ => pure ⟨⟩

def Request.cancel (r : ℕ) : M PUnit := do
  let w ← get
  -- if the request already finished, it can't be cancelled!
  if (w.objs r).finished then pure ⟨⟩
  else do
    modifyObj r fun q => { q with cancelled := true }
    if (w.objs r).started && !(w.objs r).cancelled then customCancel r else pure ⟨⟩

/-! ### The start of a request -/

/-- `transport.registerProducer`, which raises when there is a producer. -/
def registerProducer : M PUnit := do
  let w ← get
  if w.transport.registered then do
    fault .registeredTwice
    throw (.runtimeError "Cannot register producer, because another was never unregistered.")
  else modify fun w => { w with transport := { w.transport with registered := true } }

/-- `if not self.requests: ...` of `addProducer`. -/
def addFirstProducer : M PUnit := do
  let w ← get
  if w.requests.isEmpty then registerProducer else pure ⟨⟩

/-- `RequestHandler.addProducer`. -/
def addProducer (r : ℕ) : M PUnit := do
  addFirstProducer
  let w ← get
  if w.producing then Request.resumeProducing r else pure ⟨⟩

/-- `RequestHandler.get_new_request_id`. -/
def getNewRequestId : M ℤ := do
  let w ← get
  modify fun w => { w with requestCounter := w.requestCounter + 2 }
  pure w.requestCounter

/-- Gives the request its id: a new one under which it is registered, or `selfid`. -/
def assignId (r : ℕ) (selfid : Option ℤ) : M PUnit :=
  match selfid with
  | none => do
    let i ← getNewRequestId
    modifyObj r fun q => { q with id := some i }
    modify fun w => { w with requests := w.requests.set i r }
  | some i => modifyObj r fun q => { q with id := some i }

/-- The end of a `_start`: `Noop` is done once its message is sent. -/
def afterStart (r : ℕ) (k : Kind) : M PUnit :=
  match k with
  | .noop => Request.done r
  | _ => pure ⟨⟩

/-- `_start`. -/
def startExchange (r : ℕ) : M PUnit := do
  let w ← get
  let q := w.objs r
  match q.argError, q.kind.startMessages with
  | some e, _ => throw e
  | none, .error e => throw e
  | none, .ok messages => do
    messages.forM (Request.sendMessage r)
    modifyObj r fun q => { q with kind := q.kind.started }
    afterStart r q.kind

/-- `Request.start`. -/
def Request.start (r : ℕ) (selfid : Option ℤ) : M PUnit := do
  addProducer r
  assignId r selfid
  modifyObj r fun q => { q with started := true }
  startExchange r

/-- `start` of a request object: `RequestResponse.start` passes the id of the source message. -/
def start (r : ℕ) : M PUnit := do
  let w ← get
  Request.start r ((w.objs r).source.map fun m => m.id)

/-! ### Incoming messages -/

/-- What the callback for an unsolicited message is called with, if the message has a
`handle_` method that calls one and the callback is set. -/
def notice (c : Callbacks) (m : Message) : Except Exn (Option Notice) :=
  match m.type with
  | .nodeState =>
    let s := rd m.nodeState
    pure (if c.nodeState then some (.nodeState (rd s.share) (rd s.node) (rd s.hash)) else none)
  | .notifyShare =>
    if c.shareChange then do
      let info ← NotifyShareHolder.loadFromMsg (rd m.notifyShare)
      pure (some (.shareChange info))
    else pure none
  | .shareDeleted =>
    if c.shareDelete then do
      let shareId ← uuid (rd (rd m.shareDeleted).shareId)
      pure (some (.shareDelete shareId))
    else pure none
  | .shareAccepted =>
    if c.shareAnswer then do
      let shareId ← uuid (rd (rd m.shareAccepted).shareId)
      pure (some (.shareAnswer shareId (rd (rd m.shareAccepted).answer)))
    else pure none
  | .volumeCreated =>
    if c.volumeCreated then do
      let vol ← volumeFromMsg (rd m.volumeCreated)
      pure (some (.volumeCreated vol))
    else pure none
  | .volumeDeleted =>
    if c.volumeDeleted then do
      let volId ← uuid (rd (rd m.volumeDeleted).volume)
      pure (some (.volumeDeleted volId))
    else pure none
  | .volumeNewGeneration =>
    let msg := rd m.volumeNewGeneration
    if c.volumeNewGeneration then
      if rd msg.volume ≠ "" then do
        let volume ← uuid (rd msg.volume)
        pure (some (.volumeNewGeneration (some volume) (rd msg.generation)))
      else pure (some (.volumeNewGeneration none (rd msg.generation)))
    else pure none
  | .freeSpaceInfo =>
    let info := rd m.freeSpaceInfo
    pure (if c.freeSpace then some (.freeSpace (rd info.shareId) (rd info.freeBytes)) else none)
  | .accountInfo =>
    pure (if c.accountInfo then some (.accountInfo (rd m.accountInfo)) else none)
  | _ => pure none

/-- Calls the callback for an unsolicited message. -/
def notify (m : Message) (raises : Option Exn) : M PUnit := do
  let w ← get
  match notice w.callbacks m with
  | .error e => throw e
  | .ok none => pure ⟨⟩
  | .ok (some n) => do
    modify fun w => { w with notices := w.notices ++ [n] }
    match raises with
    | some e => throw e
    | none => pure ⟨⟩

/-- `handle_ROOT`. -/
def handleRoot (m : Message) : M PUnit :=
  modify fun w =>
    let rootId := rd (rd m.root).node
    { w with
      rootId := some rootId
      rootIdFired := w.rootIdFired ++ w.rootIdDefers.map fun d => (d, rootId)
      rootIdDefers := [] }

/-- `handle_PING`. -/
def handlePing (m : Message) : M PUnit := modify (sendMessage { id := m.id, type := .pong })

/-- `getattr(self, "handle_" + name, None)`, called with the message. -/
def handle (m : Message) (raises : Option Exn) : M PUnit :=
  match m.type with
  | .ping => handlePing m
  | .noop => pure ⟨⟩
  | .root => handleRoot m
  -- It can happen that the request was cancelled and is gone.
  | .beginContent => pure ⟨⟩
  | .nodeState | .notifyShare | .shareDeleted | .shareAccepted | .volumeCreated
  | .volumeDeleted | .volumeNewGeneration | .freeSpaceInfo | .accountInfo => notify m raises
  | _ => throw (.peerCantHandle m)

/-- What a request does about its `Reply`. -/
def carryOut (r : ℕ) (m : Message) (raises : Option Exn) : Reply → M PUnit
  | .stay => pure ⟨⟩
  | .done => Request.done r
  | .error e => Request.error r e
  | .raise e => throw e
  | .produce offset => produce r offset
  | .notify => notify m raises

/-- `processMessage` of a request. `raises` is what a callback of the user raises on this
message. -/
def Request.processMessage (r : ℕ) (m : Message) (raises : Option Exn) : M PUnit := do
  let w ← get
  let c : Context := { cancelled := (w.objs r).cancelled, raises := raises }
  modifyObj r fun q => { q with kind := (q.kind.processMessage c m).1 }
  carryOut r m raises ((w.objs r).kind.processMessage c m).2

/-- `self.requests[message.id].error(e)`. -/
def errorOf (i : ℤ) (e : Exn) : M PUnit := do
  let w ← get
  match w.requests.get? i with
  | some r => Request.error r e
  | none => throw .keyError

/-- The part of `processMessage` past validation. -/
def dispatch (m : Message) (raises : Option Exn) : M PUnit := do
  let w ← get
  match w.requests.get? m.id with
  | some r => tryCatch (Request.processMessage r m raises) (errorOf m.id)
  | none => handle m raises

/-- `MAX_PAYLOAD_SIZE`. -/
def maxPayloadSize : ℕ := maxMessageSize - 300

/-- The answer to a message that is not valid. -/
def rejectMessage (m : Message) (invalid : List Validators.Invalid) : M PUnit := do
  let w ← get
  let texts := invalid.map (Validators.Invalid.text w.env.printable)
  if w.env.hasLog then do
    modify fun w => { w with
      logged := w.logged ++ ["Validation error: " ++ String.intercalate ", " texts] }
    let comment := "Validation error:\n" ++ String.intercalate "\n" texts
    let comment :=
      if maxPayloadSize - 100 < comment.length then
        String.ofList (comment.toList.take (maxPayloadSize - 112)) ++ " [truncated]"
      else comment
    modify (sendMessage {
      id := m.id
      type := .error
      error := some { type := some .protocolError, comment := some comment } })
  else throw (.attributeError "log")

/-- `validators.validate_message(message)`. -/
def validateMessage (m : Message) : List Validators.Invalid :=
  Validators.validateMessage (Message.listFields m)

/-- `RequestHandler.processMessage`. -/
def processMessage (m : Message) (raises : Option Exn) : M PUnit :=
  if validateMessage m ≠ [] then rejectMessage m (validateMessage m) else dispatch m raises

/-! ### The connection and the timers -/

/-- `_cancel_delayed_call`. -/
def cancelDelayedCall (delayed : Option ℕ) (w : World) : World :=
  match delayed with
  | none => w
  | some k =>
    { w with
      calls := w.calls.modify k fun c => if c.active then { c with cancelled := true } else c }

/-- `unregisterProtocol` of the factory. -/
def unregisterProtocol (f : Factory) (w : World) : World :=
  [f.reads.unthrottleId, f.reads.resetId, f.writes.unthrottleId, f.writes.resetId].foldl
    (fun w d => cancelDelayedCall d w) w

/-- The part of `connectionLost` that `ThrottlingStorageClient` adds. -/
def unregisterSelf (w : World) : World :=
  match w.factory with
  | none => w
  | some f => if f.client = some .self then unregisterProtocol f w else w

/-- `if request.started: request.cancel()`. -/
def cancelIfStarted (r : ℕ) : M PUnit := do
  let w ← get
  if (w.objs r).started then Request.cancel r else pure ⟨⟩

/-- One round of the loop of `connectionLost`. -/
def loseRequest (reason : Exn) (r : ℕ) : M PUnit := do
  modify (Request.stopProducing r)
  cancelIfStarted r
  tryCatch (Request.error r reason) fun e =>
    -- cancel may already have error-ed the request
    if e = .alreadyCalledError then pure ⟨⟩ else throw e

/-- `connectionLost`. -/
def connectionLost (reason : Exn) : M PUnit := do
  modify unregisterSelf
  let w ← get
  w.requests.values.forM (loseRequest reason)

/-- `_resetReadThisSecond` and `_resetWrittenThisSecond`. -/
def resetThisSecond (d : Dir) (w : World) : World :=
  let k := w.calls.length
  (callLater 1 (.reset d) (w.setFlow d fun f => { f with thisSecond := 0 })).setFlow d
    fun f => { f with resetId := some k }

/-- `unthrottleReads` and `unthrottleWrites` of a `ThrottlingStorageClient`. -/
def StorageClient.unthrottle : Dir → M PUnit
  | .reads => modify fun w => { w with transport := { w.transport with readsPaused := false } }
  | .writes => Handler.resumeProducing

/-- `unthrottleReads` and `unthrottleWrites` of the factory. -/
def Factory.unthrottle (d : Dir) : M PUnit := do
  modifyFlow d fun f => { f with unthrottleId := none }
  let w ← get
  match w.factory.bind Factory.client with
  | none => pure ⟨⟩
  | some .other => modifyFlow d fun f => { f with throttling := false }
  | some .self => do
    modifyFlow d fun f => { f with throttling := false }
    StorageClient.unthrottle d

def Func.run : Func → M PUnit
  | .go p => BytesMessageProducer.go p
  | .reset d => modify (resetThisSecond d)
  | .unthrottle d => Factory.unthrottle d

/-- The reactor runs the `k`-th delayed call, if it is active. -/
def runCall (k : ℕ) : M PUnit := do
  let w ← get
  match w.calls[k]? with
  | none => pure ⟨⟩
  | some c =>
    if c.active then do
      modify fun w => { w with calls := w.calls.modify k fun c => { c with called := true } }
      c.func.run
    else pure ⟨⟩

/-! ### Events -/

/-- What happens to the client from outside. -/
inductive Event
  /-- `start()` of a request object. -/
  | start (r : ℕ)
  /-- `dataReceived` is given that many bytes. -/
  | read (length : ℕ)
  /-- A message was read. A callback of the user raises, or does not. -/
  | message (m : Message) (raises : Option Exn)
  /-- `cancel()` of a request object. -/
  | cancel (r : ℕ)
  /-- The reactor runs a delayed call. -/
  | call (k : ℕ)
  /-- The transport pauses, resumes or stops its producer. -/
  | pause
  | resume
  | stop
  /-- `done()` or `error(e)` of a request object. -/
  | done (r : ℕ)
  | error (r : ℕ) (e : Exn)
  /-- `connectionLost(reason)`. -/
  | lost (reason : Exn)

def perform : Event → M PUnit
  | .start r => start r
  | .read length => modify (registerOwn .reads length)
  | .message m raises => processMessage m raises
  | .cancel r => Request.cancel r
  | .call k => runCall k
  | .pause => modify Handler.pauseProducing
  | .resume => Handler.resumeProducing
  | .stop => modify Handler.stopProducing
  | .done r => Request.done r
  | .error r e => Request.error r e
  | .lost reason => connectionLost reason

/-- The state after an event. What it raises goes to the reactor. -/
def World.step (w : World) (e : Event) : World := after (perform e) w

end Magicicada.Client
