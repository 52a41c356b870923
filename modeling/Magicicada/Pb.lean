import Magicicada.Bytes

/-!
The messages of `protocol.proto`, as the Python classes generated from it show them: every
field is set or unset, and an unset field reads as the default of its type.

The sub-messages `UploadInProgress` and `CancelRequest` are not kept; the code neither sets nor
reads a field of theirs.
-/

namespace Magicicada.Pb

open Magicicada.Bytes

/-- Reading a field: an unset one gives the default. -/
def rd {α : Type} [Inhabited α] (o : Option α) : α := o.getD default

/-- `Message.MessageType`. -/
inductive MessageType
  | noop | error | ok | ping | pong | protocolVersion
  | authRequest | authRequestToken | authRequestTokenReady | authAuthenticated
  | root | makeDir | makeFile | newDir | newFile
  | query | nodeState | queryEnd
  | getContent | putContent | beginContent | bytes | eof
  | move | unlink
  | createShare | listShares | sharesInfo | sharesEnd
  | notifyShare | shareAccepted | shareDeleted | shareCreated | deleteShare
  | createUdf | listVolumes | volumesInfo | volumesEnd
  | volumeDeleted | volumeCreated | deleteVolume | volumeNewGeneration
  | cancelRequest | nodeAttr | cancelled
  | queryCaps | setCaps | acceptCaps
  | freeSpaceInfo | freeSpaceInquiry | accountInfo | accountInquiry
  | getDelta | deltaInfo | deltaEnd
  | changePublicAccess | publicFileInfo | publicFileInfoEnd | listPublicFiles
  deriving DecidableEq, Inhabited

/-- `Error.ErrorType`. -/
inductive ErrorType
  | unsupportedVersion | authenticationFailed | internalError | authenticationRequired
  | noPermission | alreadyExists | doesNotExist | notADirectory | notEmpty | notAvailable
  | uploadInProgress | uploadCorrupt | uploadCanceled | conflict | tryAgain | protocolError
  | quotaExceeded | invalidFilename | cannotProduceDelta
  deriving DecidableEq, Inhabited

/-- `CreateShare.AccessLevel`, `Shares.AccessLevel` and `NotifyShare.AccessLevel`. -/
inductive AccessLevel
  | view | modify
  deriving DecidableEq, Inhabited

/-- `Shares.Direction`. -/
inductive Direction
  | toMe | fromMe
  deriving DecidableEq, Inhabited

/-- `ShareAccepted.Answer`. -/
inductive Answer
  | yes | no
  deriving DecidableEq, Inhabited

/-- `Volumes.VolumeType`. -/
inductive VolumeType
  | root | share | udf
  deriving DecidableEq, Inhabited

/-- `DeltaInfo.DeltaInfoType`. -/
inductive DeltaInfoType
  | fileInfo
  deriving DecidableEq, Inhabited

/-- `FileInfo.FileType`. -/
inductive FileType
  | directory | file | symlink
  deriving DecidableEq, Inhabited

structure Error where
  type : Option ErrorType := none
  comment : Option String := none
  deriving DecidableEq, Inhabited

structure Protocol where
  version : Option ℤ := none
  deriving DecidableEq, Inhabited

structure AuthParameter where
  name : Option String := none
  value : Option String := none
  deriving DecidableEq, Inhabited

structure KeyValue where
  key : Option String := none
  value : Option String := none
  deriving DecidableEq, Inhabited

structure Make where
  share : Option String := none
  parentNode : Option String := none
  name : Option String := none
  deriving DecidableEq, Inhabited

structure New where
  node : Option String := none
  parentNode : Option String := none
  name : Option String := none
  deriving DecidableEq, Inhabited

structure Root where
  node : Option String := none
  generation : Option ℕ := none
  freeBytes : Option ℕ := none
  deriving DecidableEq, Inhabited

/-- `Query` and `NodeState`, which have the same fields. -/
structure NodeState where
  share : Option String := none
  node : Option String := none
  hash : Option String := none
  deriving DecidableEq, Inhabited

structure GetContent where
  share : Option String := none
  node : Option String := none
  hash : Option String := none
  offset : Option ℤ := none
  deriving DecidableEq, Inhabited

structure NodeAttr where
  deflatedSize : Option ℕ := none
  size : Option ℕ := none
  hash : Option String := none
  crc32 : Option ℕ := none
  deriving DecidableEq, Inhabited

structure BytesMessage where
  bytes : Option Bytes := none
  deriving DecidableEq, Inhabited

structure PutContent where
  share : Option String := none
  node : Option String := none
  previousHash : Option String := none
  hash : Option String := none
  crc32 : Option ℕ := none
  size : Option ℕ := none
  deflatedSize : Option ℕ := none
  uploadId : Option String := none
  magicHash : Option String := none
  deriving DecidableEq, Inhabited

structure BeginContent where
  offset : Option ℕ := none
  uploadId : Option String := none
  deriving DecidableEq, Inhabited

structure Move where
  share : Option String := none
  node : Option String := none
  newParentNode : Option String := none
  newName : Option String := none
  deriving DecidableEq, Inhabited

structure Unlink where
  share : Option String := none
  node : Option String := none
  deriving DecidableEq, Inhabited

structure CreateShare where
  node : Option String := none
  shareTo : Option String := none
  name : Option String := none
  accessLevel : Option AccessLevel := none
  deriving DecidableEq, Inhabited

structure Shares where
  shareId : Option String := none
  direction : Option Direction := none
  subtree : Option String := none
  shareName : Option String := none
  otherUsername : Option String := none
  otherVisibleName : Option String := none
  accepted : Option Bool := none
  accessLevel : Option AccessLevel := none
  generation : Option ℕ := none
  freeBytes : Option ℕ := none
  subtreeVolumeId : Option String := none
  deriving DecidableEq, Inhabited

structure NotifyShare where
  shareId : Option String := none
  subtree : Option String := none
  shareName : Option String := none
  fromUsername : Option String := none
  fromVisibleName : Option String := none
  accessLevel : Option AccessLevel := none
  deriving DecidableEq, Inhabited

structure ShareAccepted where
  shareId : Option String := none
  answer : Option Answer := none
  deriving DecidableEq, Inhabited

/-- `ShareDeleted`, `ShareCreated`, `DeleteShare` and `FreeSpaceInquiry`. -/
structure ShareId where
  shareId : Option String := none
  deriving DecidableEq, Inhabited

structure CreateUDF where
  path : Option String := none
  name : Option String := none
  deriving DecidableEq, Inhabited

structure UDFs where
  volume : Option String := none
  node : Option String := none
  suggestedPath : Option String := none
  generation : Option ℕ := none
  freeBytes : Option ℕ := none
  deriving DecidableEq, Inhabited

/-- `VolumeDeleted` and `DeleteVolume`. -/
structure VolumeId where
  volume : Option String := none
  deriving DecidableEq, Inhabited

structure Volumes where
  type : Option VolumeType := none
  root : Option Root := none
  udf : Option UDFs := none
  share : Option Shares := none
  deriving DecidableEq, Inhabited

structure VolumeNewGeneration where
  volume : Option String := none
  generation : Option ℕ := none
  deriving DecidableEq, Inhabited

/-- `QueryCaps` and `SetCaps`. -/
structure Caps where
  capability : Option String := none
  deriving DecidableEq, Inhabited

structure AcceptCaps where
  accepted : Option Bool := none
  redirectHostname : Option String := none
  redirectPort : Option String := none
  redirectSrvrecord : Option String := none
  deriving DecidableEq, Inhabited

structure FreeSpaceInfo where
  shareId : Option String := none
  freeBytes : Option ℕ := none
  deriving DecidableEq, Inhabited

structure AccountInfo where
  purchasedBytes : Option ℕ := none
  deriving DecidableEq, Inhabited

structure GetDelta where
  share : Option String := none
  fromGeneration : Option ℕ := none
  fromScratch : Option Bool := none
  deriving DecidableEq, Inhabited

structure FileInfo where
  type : Option FileType := none
  parent : Option String := none
  share : Option String := none
  node : Option String := none
  name : Option String := none
  isPublic : Option Bool := none
  contentHash : Option String := none
  crc32 : Option ℕ := none
  size : Option ℕ := none
  lastModified : Option ℕ := none
  deriving DecidableEq, Inhabited

structure DeltaInfo where
  generation : Option ℕ := none
  isLive : Option Bool := none
  type : Option DeltaInfoType := none
  fileInfo : Option FileInfo := none
  deriving DecidableEq, Inhabited

structure DeltaEnd where
  generation : Option ℕ := none
  full : Option Bool := none
  freeBytes : Option ℕ := none
  deriving DecidableEq, Inhabited

structure ChangePublicAccess where
  share : Option String := none
  node : Option String := none
  isPublic : Option Bool := none
  deriving DecidableEq, Inhabited

structure PublicFileInfo where
  share : Option String := none
  node : Option String := none
  isPublic : Option Bool := none
  publicUrl : Option String := none
  deriving DecidableEq, Inhabited

/-- `Message`. The required `id` and `type` are set on a message that is about to be written. One
that was parsed may lack them, and then they read as `0` and as `NOOP`; that they were not set is
not kept. -/
structure Message where
  id : ℤ := 0
  type : MessageType
  error : Option Error := none
  protocol : Option Protocol := none
  authParameters : List AuthParameter := []
  root : Option Root := none
  query : List NodeState := []
  nodeState : Option NodeState := none
  make : Option Make := none
  new : Option New := none
  move : Option Move := none
  getContent : Option GetContent := none
  putContent : Option PutContent := none
  bytes : Option BytesMessage := none
  unlink : Option Unlink := none
  nodeAttr : Option NodeAttr := none
  createShare : Option CreateShare := none
  shares : Option Shares := none
  notifyShare : Option NotifyShare := none
  shareAccepted : Option ShareAccepted := none
  shareDeleted : Option ShareId := none
  shareCreated : Option ShareId := none
  deleteShare : Option ShareId := none
  queryCaps : List Caps := []
  setCaps : List Caps := []
  acceptCaps : Option AcceptCaps := none
  freeSpaceInfo : Option FreeSpaceInfo := none
  freeSpaceInquiry : Option ShareId := none
  accountInfo : Option AccountInfo := none
  beginContent : Option BeginContent := none
  createUdf : Option CreateUDF := none
  listVolumes : Option Volumes := none
  volumeDeleted : Option VolumeId := none
  volumeCreated : Option Volumes := none
  deleteVolume : Option VolumeId := none
  getDelta : Option GetDelta := none
  deltaInfo : Option DeltaInfo := none
  deltaEnd : Option DeltaEnd := none
  volumeNewGeneration : Option VolumeNewGeneration := none
  sessionId : Option String := none
  newGeneration : Option ℕ := none
  metadata : List KeyValue := []
  changePublicAccess : Option ChangePublicAccess := none
  publicUrl : Option String := none
  publicFileInfo : Option PublicFileInfo := none
  deriving DecidableEq, Inhabited

/-- The ids a `required int32` field takes. -/
def int32 (i : ℤ) : Bool := -2 ^ 31 ≤ i && i < 2 ^ 31

end Magicicada.Pb
