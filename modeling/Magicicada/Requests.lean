import Magicicada.Records

/-!
The request classes of `client.py`, and `Ping` and `Noop`: their attributes, the message their
`_start` sends and what their `processMessage` does.

What `processMessage` does to the request as such (`done`, `error`, registering a producer) is
its `Reply`; the client carries it out. A callback of the user may be there or not; what it was
called with is recorded, and whether it raises is part of the context.
-/

namespace Magicicada.Requests

open Pb Errors Records

/-- How `processMessage` ends. -/
inductive Reply
  /-- It returns and the request goes on. -/
  | stay
  | done
  | error (e : Exn)
  | raise (e : Exn)
  /-- It registers a `BytesMessageProducer` for the offset. -/
  | produce (offset : ℕ)
  /-- It notifies the client of the node state in the message. -/
  | notify
  deriving DecidableEq

/-- What `processMessage` reads besides the request's own attributes. -/
structure Context where
  /-- `self.cancelled`. -/
  cancelled : Bool
  /-- What a callback of the user raises when it is called. -/
  raises : Option Exn

/-- A callback is called, and then `processMessage` goes on to end with `reply`. -/
def Context.call (c : Context) (reply : Reply) : Reply :=
  match c.raises with
  | some e => .raise e
  | none => reply

/-- `Request._default_process_message`. -/
def defaultProcessMessage (m : Message) : Reply :=
  if m.type = .error then
    match errorToException (rd (rd m.error).type) m with
    | .ok cls => .error (.storageRequestError cls m)
    | .error e => .raise e
  else .error (.storageRequestError .storageRequestError m)

/-- The answer a request waits for ends it with the attributes of `after`; any other message
goes to `_default_process_message`. -/
def expect {α : Type} (answer : MessageType) (m : Message) (after before : α) : α × Reply :=
  if m.type = answer then (after, .done) else (before, defaultProcessMessage m)

/-! ### Downloads, uploads, deltas and queries -/

structure GetContent where
  share : String
  nodeId : String
  hash : String
  offset : ℤ := 0
  callback : Bool := false
  nodeAttrCallback : Bool := false
  parts : List Bytes := []
  data : Option Bytes := none
  /-- What `callback` and `node_attr_callback` were called with. -/
  received : List Bytes := []
  nodeAttrs : List NodeAttr := []

def GetContent.message (q : GetContent) : Message :=
  { type := .getContent
    getContent := some {
      node := some q.nodeId
      hash := some q.hash
      share := some q.share
      offset := some q.offset } }

def GetContent.processMessage (c : Context) (q : GetContent) (m : Message) :
    GetContent × Reply :=
  match m.type with
  | .nodeAttr =>
    if q.nodeAttrCallback then
      ({ q with nodeAttrs := q.nodeAttrs ++ [rd m.nodeAttr] }, c.call .stay)
    else (q, .stay)
  | .bytes =>
    -- don't care about more bytes if already cancelled
    if c.cancelled then (q, .stay)
    else if q.callback then
      ({ q with received := q.received ++ [rd (rd m.bytes).bytes] }, c.call .stay)
    else ({ q with parts := q.parts ++ [rd (rd m.bytes).bytes] }, .stay)
  | .eof =>
    -- eof means that the cancel request arrived late
    if c.cancelled then (q, .done)
    else if q.callback then (q, .done)
    else ({ q with data := some q.parts.flatten }, .done)
  | .ok => (q, .done)
  | .cancelled => (q, .error (.requestCancelledError "CANCELLED"))
  | _ => (q, defaultProcessMessage m)

structure PutContent where
  share : String
  nodeId : String
  previousHash : String
  hash : String
  crc32 : ℕ
  size : ℕ
  deflatedSize : ℕ
  /-- The file-like object read from. -/
  fd : ℕ
  uploadId : Option String := none
  uploadIdCb : Bool := false
  magicHash : Option String := none
  maxPayloadSize : ℕ
  newGeneration : Option ℕ := none
  /-- What `upload_id_cb` was called with. -/
  uploadIds : List (String × ℕ) := []

def PutContent.message (q : PutContent) : Message :=
  { type := .putContent
    putContent := some {
      share := some q.share
      node := some q.nodeId
      previousHash := some q.previousHash
      hash := some q.hash
      crc32 := some q.crc32
      size := some q.size
      deflatedSize := some q.deflatedSize
      uploadId := q.uploadId.filter (· ≠ "")
      magicHash := q.magicHash } }

def PutContent.processMessage (c : Context) (q : PutContent) (m : Message) :
    PutContent × Reply :=
  match m.type with
  | .beginContent =>
    let begin := rd m.beginContent
    if rd begin.uploadId ≠ "" ∧ q.uploadIdCb = true then
      ({ q with uploadIds := q.uploadIds ++ [(rd begin.uploadId, rd begin.offset)] },
        c.call (.produce (rd begin.offset)))
    else (q, .produce (rd begin.offset))
  | .ok => ({ q with newGeneration := some (rd m.newGeneration) }, .done)
  | .cancelled => (q, .error (.requestCancelledError "CANCELLED"))
  | _ => (q, defaultProcessMessage m)

structure GetDelta where
  shareId : String
  fromGeneration : Option ℕ := none
  callback : Bool := false
  fromScratch : Bool := false
  response : List FileInfoDelta := []
  endGeneration : Option ℕ := none
  full : Option Bool := none
  freeBytes : Option ℕ := none
  /-- What `callback` was called with. -/
  received : List FileInfoDelta := []

/-- `delta_message`. -/
def GetDelta.message (q : GetDelta) : Message :=
  { type := .getDelta
    getDelta := some {
      share := some q.shareId
      fromGeneration := if q.fromScratch then none else q.fromGeneration
      fromScratch := some q.fromScratch } }

def GetDelta.processMessage (c : Context) (q : GetDelta) (m : Message) : GetDelta × Reply :=
  match m.type with
  | .deltaInfo =>
    match deltaFromMessage m with
    | .error e => (q, .raise e)
    | .ok info =>
      if q.callback then ({ q with received := q.received ++ [info] }, c.call .stay)
      else ({ q with response := q.response ++ [info] }, .stay)
  | .deltaEnd =>
    let deltaEnd := rd m.deltaEnd
    ({ q with
      endGeneration := some (rd deltaEnd.generation)
      full := some (rd deltaEnd.full)
      freeBytes := some (rd deltaEnd.freeBytes) }, .done)
  | _ => (q, defaultProcessMessage m)

structure Query where
  queryMessage : Message
  response : List NodeState := []

def Query.processMessage (q : Query) (m : Message) : Query × Reply :=
  match m.type with
  | .nodeState => ({ q with response := q.response ++ [rd m.nodeState] }, .notify)
  | .queryEnd => (q, .done)
  | _ => (q, defaultProcessMessage m)

/-! ### Listings -/

/-- The attribute `shares` is only there once `_start` has sent its message. -/
structure ListShares where
  shares : Option (List ShareResponse) := none

def ListShares.processMessage (q : ListShares) (m : Message) : ListShares × Reply :=
  match m.type with
  | .sharesInfo =>
    match ShareResponse.loadFromMsg (rd m.shares), q.shares with
    | .error e, _ => (q, .raise e)
    | .ok _, none => (q, .raise (.attributeError "shares"))
    | .ok share, some shares => ({ q with shares := some (shares ++ [share]) }, .stay)
  | .sharesEnd => (q, .done)
  | _ => (q, defaultProcessMessage m)

structure ListVolumes where
  volumes : List Volume := []

def ListVolumes.processMessage (q : ListVolumes) (m : Message) : ListVolumes × Reply :=
  match m.type with
  | .volumesInfo =>
    match volumeFromMsg (rd m.listVolumes) with
    | .error e => (q, .raise e)
    | .ok vol => ({ q with volumes := q.volumes ++ [vol] }, .stay)
  | .volumesEnd => (q, .done)
  | _ => (q, defaultProcessMessage m)

structure ListPublicFiles where
  publicFiles : List Records.PublicFileInfo := []

def ListPublicFiles.processMessage (q : ListPublicFiles) (m : Message) :
    ListPublicFiles × Reply :=
  match m.type with
  | .publicFileInfo =>
    let info := Records.PublicFileInfo.fromMessage m
    ({ q with publicFiles := q.publicFiles ++ [info] }, .stay)
  | .publicFileInfoEnd => (q, .done)
  | _ => (q, defaultProcessMessage m)

/-! ### Requests with one answer -/

structure CreateShare where
  node : String
  shareTo : String
  name : String
  accessLevel : String
  shareId : Option String := none

/-- `_valid_access_levels`. -/
def validAccessLevels : String → Option AccessLevel
  | "View" => some .view
  | "Modify" => some .modify
  | _ => none

def CreateShare.message (q : CreateShare) : Except Exn Message :=
  match validAccessLevels q.accessLevel with
  | none => .error (.valueErrorOf "Invalid access level! (%r)" q.accessLevel)
  | some level => .ok {
      type := .createShare
      createShare := some {
        node := some q.node
        shareTo := some q.shareTo
        name := some q.name
        accessLevel := some level } }

/-- `OK` is for `PROTOCOL_VERSION=1` backward compatibility. -/
def CreateShare.processMessage (q : CreateShare) (m : Message) : CreateShare × Reply :=
  match m.type with
  | .shareCreated => ({ q with shareId := some (rd (rd m.shareCreated).shareId) }, .done)
  | .ok => (q, .done)
  | _ => (q, defaultProcessMessage m)

structure AcceptShare where
  shareId : String
  answer : String

/-- `_valid_answer`. -/
def validAnswer : String → Option Answer
  | "Yes" => some .yes
  | "No" => some .no
  | _ => none

def AcceptShare.message (q : AcceptShare) : Except Exn Message :=
  match validAnswer q.answer with
  | none => .error (.valueErrorOf "Invalid answer! (%r)" q.answer)
  | some answer => .ok {
      type := .shareAccepted
      shareAccepted := some { shareId := some q.shareId, answer := some answer } }

def AcceptShare.processMessage (q : AcceptShare) (m : Message) : AcceptShare × Reply :=
  expect .ok m q q

structure DeleteShare where
  shareId : String

def DeleteShare.message (q : DeleteShare) : Message :=
  { type := .deleteShare, deleteShare := some { shareId := some q.shareId } }

def DeleteShare.processMessage (q : DeleteShare) (m : Message) : DeleteShare × Reply :=
  expect .ok m q q

structure CreateUDF where
  path : String
  name : String
  volumeId : Option String := none
  nodeId : Option String := none

def CreateUDF.message (q : CreateUDF) : Message :=
  { type := .createUdf, createUdf := some { path := some q.path, name := some q.name } }

def CreateUDF.processMessage (q : CreateUDF) (m : Message) : CreateUDF × Reply :=
  let volume := rd m.volumeCreated
  if m.type = .volumeCreated ∧ rd volume.type = .udf then
    ({ q with
      volumeId := some (rd (rd volume.udf).volume)
      nodeId := some (rd (rd volume.udf).node) }, .done)
  else (q, defaultProcessMessage m)

structure DeleteVolume where
  volumeId : String

def DeleteVolume.message (q : DeleteVolume) : Message :=
  { type := .deleteVolume, deleteVolume := some { volume := some q.volumeId } }

def DeleteVolume.processMessage (q : DeleteVolume) (m : Message) : DeleteVolume × Reply :=
  expect .ok m q q

structure Unlink where
  share : String
  node : String
  newGeneration : Option ℕ := none

def Unlink.message (q : Unlink) : Message :=
  { type := .unlink, unlink := some { share := some q.share, node := some q.node } }

def Unlink.processMessage (q : Unlink) (m : Message) : Unlink × Reply :=
  expect .ok m { q with newGeneration := some (rd m.newGeneration) } q

structure ChangePublicAccess where
  shareId : String
  nodeId : String
  isPublic : Bool
  publicUrl : Option String := none

def ChangePublicAccess.message (q : ChangePublicAccess) : Message :=
  { type := .changePublicAccess
    changePublicAccess := some {
      share := some q.shareId
      node := some q.nodeId
      isPublic := some q.isPublic } }

def ChangePublicAccess.processMessage (q : ChangePublicAccess) (m : Message) :
    ChangePublicAccess × Reply :=
  expect .ok m { q with publicUrl := some (rd m.publicUrl) } q

structure Move where
  share : String
  nodeId : String
  newParentId : String
  newName : String
  newGeneration : Option ℕ := none

def Move.message (q : Move) : Message :=
  { type := .move
    move := some {
      share := some q.share
      node := some q.nodeId
      newParentNode := some q.newParentId
      newName := some q.newName } }

def Move.processMessage (q : Move) (m : Message) : Move × Reply :=
  expect .ok m { q with newGeneration := some (rd m.newGeneration) } q

/-- `MakeObject`, and the attributes it sets on completion. -/
structure MakeObject where
  share : String
  parentId : String
  name : String
  newId : Option String := none
  newParentId : Option String := none
  newName : Option String := none
  newGeneration : Option ℕ := none

def MakeObject.message (createMessage : MessageType) (q : MakeObject) : Message :=
  { type := createMessage
    make := some {
      share := some q.share
      parentNode := some q.parentId
      name := some q.name } }

def MakeObject.processMessage (createResponse : MessageType) (q : MakeObject) (m : Message) :
    MakeObject × Reply :=
  let new := rd m.new
  expect createResponse m
    { q with
      newId := some (rd new.node)
      newParentId := some (rd new.parentNode)
      newName := some (rd new.name)
      newGeneration := some (rd m.newGeneration) } q

structure ProtocolVersion where
  otherProtocolVersion : Option ℤ := none

/-- `RequestHandler.PROTOCOL_VERSION`. -/
def protocolVersion : ℤ := 3

def ProtocolVersion.message : Message :=
  { type := .protocolVersion, protocol := some { version := some protocolVersion } }

def ProtocolVersion.processMessage (q : ProtocolVersion) (m : Message) :
    ProtocolVersion × Reply :=
  expect .protocolVersion m { q with otherProtocolVersion := some (rd (rd m.protocol).version) } q

/-- The dictionaries of parameters and metadata are their items. -/
structure Authenticate where
  authParameters : List (String × String)
  metadata : List (String × String) := []
  sessionId : Option String := none

def Authenticate.message (q : Authenticate) : Message :=
  { type := .authRequest
    authParameters := q.authParameters.map fun p => { name := some p.1, value := some p.2 }
    metadata := q.metadata.map fun p => { key := some p.1, value := some p.2 } }

def Authenticate.processMessage (q : Authenticate) (m : Message) : Authenticate × Reply :=
  expect .authAuthenticated m { q with sessionId := some (rd m.sessionId) } q

structure QuerySetCaps where
  caps : List String
  setMode : Bool := false
  accepted : Option Bool := none
  redirectHostname : Option String := none
  redirectPort : Option String := none
  redirectSrvrecord : Option String := none

def QuerySetCaps.message (q : QuerySetCaps) : Message :=
  let caps := q.caps.map fun cap => ({ capability := some cap } : Caps)
  if q.setMode then { type := .setCaps, setCaps := caps }
  else { type := .queryCaps, queryCaps := caps }

def QuerySetCaps.processMessage (q : QuerySetCaps) (m : Message) : QuerySetCaps × Reply :=
  let answer := rd m.acceptCaps
  expect .acceptCaps m
    { q with
      accepted := some (rd answer.accepted)
      redirectHostname := some (rd answer.redirectHostname)
      redirectPort := some (rd answer.redirectPort)
      redirectSrvrecord := some (rd answer.redirectSrvrecord) } q

structure FreeSpaceInquiry where
  shareId : String
  freeBytes : Option ℕ := none

def FreeSpaceInquiry.message (q : FreeSpaceInquiry) : Message :=
  { type := .freeSpaceInquiry, freeSpaceInquiry := some { shareId := some q.shareId } }

def FreeSpaceInquiry.processMessage (q : FreeSpaceInquiry) (m : Message) :
    FreeSpaceInquiry × Reply :=
  expect .freeSpaceInfo m { q with freeBytes := some (rd (rd m.freeSpaceInfo).freeBytes) } q

structure AccountInquiry where
  purchasedBytes : Option ℕ := none

def AccountInquiry.processMessage (q : AccountInquiry) (m : Message) : AccountInquiry × Reply :=
  expect .accountInfo m { q with purchasedBytes := some (rd (rd m.accountInfo).purchasedBytes) } q

/-- `Ping.processMessage`. -/
def pingProcessMessage (m : Message) : Reply :=
  match m.type with
  | .pong => .done
  | .error =>
    let error := rd m.error
    if rd error.type = .protocolError then .error (.storageProtocolProtocolError (rd error.comment))
    else .error (.storageProtocolError (rd error.comment))
  | _ => .error (.unknownPingError m)

/-! ### All the classes -/

/-- A request object's class and the attributes the class adds. -/
inductive Kind
  | ping
  | noop
  | getContent (q : GetContent)
  | listShares (q : ListShares)
  | createShare (q : CreateShare)
  | acceptShare (q : AcceptShare)
  | deleteShare (q : DeleteShare)
  | createUDF (q : CreateUDF)
  | listVolumes (q : ListVolumes)
  | deleteVolume (q : DeleteVolume)
  | unlink (q : Unlink)
  | changePublicAccess (q : ChangePublicAccess)
  | listPublicFiles (q : ListPublicFiles)
  | move (q : Move)
  | query (q : Query)
  | putContent (q : PutContent)
  | makeDir (q : MakeObject)
  | makeFile (q : MakeObject)
  | protocolVersion (q : ProtocolVersion)
  | authenticate (q : Authenticate)
  | querySetCaps (q : QuerySetCaps)
  | freeSpaceInquiry (q : FreeSpaceInquiry)
  | accountInquiry (q : AccountInquiry)
  | getDelta (q : GetDelta)
  /-- A class from outside `client.py` whose `_start` sends the given messages and whose
  `processMessage` is that of `Request`. -/
  | other (messages : List Message)

/-- What `_start` sends, or what it raises before it sends anything. -/
def Kind.startMessages : Kind → Except Exn (List Message)
  | .ping => .ok [{ type := .ping }]
  | .noop => .ok [{ type := .noop }]
  | .getContent q => .ok [q.message]
  | .listShares _ => .ok [{ type := .listShares }]
  | .createShare q => q.message.map ([·])
  | .acceptShare q => q.message.map ([·])
  | .deleteShare q => .ok [q.message]
  | .createUDF q => .ok [q.message]
  | .listVolumes _ => .ok [{ type := .listVolumes }]
  | .deleteVolume q => .ok [q.message]
  | .unlink q => .ok [q.message]
  | .changePublicAccess q => .ok [q.message]
  | .listPublicFiles _ => .ok [{ type := .listPublicFiles }]
  | .move q => .ok [q.message]
  | .query q => .ok [q.queryMessage]
  | .putContent q => .ok [q.message]
  | .makeDir q => .ok [q.message .makeDir]
  | .makeFile q => .ok [q.message .makeFile]
  | .protocolVersion _ => .ok [ProtocolVersion.message]
  | .authenticate q => .ok [q.message]
  | .querySetCaps q => .ok [q.message]
  | .freeSpaceInquiry q => .ok [q.message]
  | .accountInquiry _ => .ok [{ type := .accountInquiry }]
  | .getDelta q => .ok [q.message]
  | .other messages => .ok messages

/-- The attributes once `_start` has sent its message. -/
def Kind.started : Kind → Kind
  | .listShares _ => .listShares { shares := some [] }
  | .listVolumes q => .listVolumes { q with volumes := [] }
  | .freeSpaceInquiry q => .freeSpaceInquiry { q with freeBytes := none }
  | .accountInquiry q => .accountInquiry { q with purchasedBytes := none }
  | k => k

/-- `processMessage` of a request. -/
def Kind.processMessage (c : Context) (m : Message) : Kind → Kind × Reply
  | .ping => (.ping, pingProcessMessage m)
  | .noop => (.noop, .stay)
  | .getContent q => (q.processMessage c m).map .getContent id
  | .listShares q => (q.processMessage m).map .listShares id
  | .createShare q => (q.processMessage m).map .createShare id
  | .acceptShare q => (q.processMessage m).map .acceptShare id
  | .deleteShare q => (q.processMessage m).map .deleteShare id
  | .createUDF q => (q.processMessage m).map .createUDF id
  | .listVolumes q => (q.processMessage m).map .listVolumes id
  | .deleteVolume q => (q.processMessage m).map .deleteVolume id
  | .unlink q => (q.processMessage m).map .unlink id
  | .changePublicAccess q => (q.processMessage m).map .changePublicAccess id
  | .listPublicFiles q => (q.processMessage m).map .listPublicFiles id
  | .move q => (q.processMessage m).map .move id
  | .query q => (q.processMessage m).map .query id
  | .putContent q => (q.processMessage c m).map .putContent id
  | .makeDir q => (q.processMessage .newDir m).map .makeDir id
  | .makeFile q => (q.processMessage .newFile m).map .makeFile id
  | .protocolVersion q => (q.processMessage m).map .protocolVersion id
  | .authenticate q => (q.processMessage m).map .authenticate id
  | .querySetCaps q => (q.processMessage m).map .querySetCaps id
  | .freeSpaceInquiry q => (q.processMessage m).map .freeSpaceInquiry id
  | .accountInquiry q => (q.processMessage m).map .accountInquiry id
  | .getDelta q => (q.processMessage c m).map .getDelta id
  | .other messages => (.other messages, .stay)

/-- `request.max_payload_size`, which only a `PutContent` has. -/
def Kind.maxPayloadSize : Kind → ℕ
  | .putContent q => q.maxPayloadSize
  | _ => 0

/-- The file a `PutContent` reads from. -/
def Kind.fd : Kind → ℕ
  | .putContent q => q.fd
  | _ => 0

def Kind.isPutContent : Kind → Bool
  | .putContent _ => true
  | _ => false

end Magicicada.Requests
