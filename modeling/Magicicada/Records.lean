import Magicicada.Errors

/-!
What the streamed items of a response are decoded into: `delta.py`, `sharersp.py`, `volumes.py`
and `public_file_info.py`.
-/

namespace Magicicada.Records

open Pb Errors

/-! ### Shares -/

/-- `"from_me"` and `"to_me"`. -/
inductive NiceDirection
  | fromMe | toMe
  deriving DecidableEq

/-- `"View"` and `"Modify"`. -/
inductive NiceAccess
  | view | modify
  deriving DecidableEq

/-- `_direction_prot2nice`. -/
def directionProt2nice : Direction → NiceDirection
  | .fromMe => .fromMe
  | .toMe => .toMe

/-- `_access_prot2nice`. -/
def accessProt2nice : AccessLevel → NiceAccess
  | .view => .view
  | .modify => .modify

/-- `_direction_nice2prot`. -/
def directionNice2prot : NiceDirection → Direction
  | .fromMe => .fromMe
  | .toMe => .toMe

/-- `_access_nice2prot`. -/
def accessNice2prot : NiceAccess → AccessLevel
  | .view => .view
  | .modify => .modify

/-- A share of a listing. The attribute `subtree_volume_id` need not be there. -/
structure ShareResponse where
  id : ℕ
  direction : NiceDirection
  subtree : ℕ
  name : String
  otherUsername : String
  otherVisibleName : String
  accepted : Bool
  accessLevel : NiceAccess
  subtreeVolumeId : Option (Option ℕ)
  deriving DecidableEq

/-- `ShareResponse.from_params`. -/
def ShareResponse.fromParams (shareId : ℕ) (direction : NiceDirection) (subtree : ℕ)
    (shareName otherUsername otherVisibleName : String) (accepted : Bool)
    (accessLevel : NiceAccess) (subtreeVolumeId : Option ℕ := none) : Except Exn ShareResponse :=
  if direction = .toMe ∧ subtreeVolumeId ≠ none then
    throw (.valueError "Shares with direction 'to_me' must not have a volume_id")
  else
    pure {
      direction, subtree, otherUsername, otherVisibleName, accepted, accessLevel
      id := shareId
      name := shareName
      subtreeVolumeId := if direction = .fromMe then some subtreeVolumeId else none }

/-- `subtree_volume_id` of a share loaded from a message. -/
def loadSubtreeVolumeId (direction : NiceDirection) (msg : Shares) :
    Except Exn (Option (Option ℕ)) :=
  match direction with
  | .toMe => pure none
  | .fromMe =>
    if rd msg.subtreeVolumeId ≠ "" then do
      let volumeId ← uuid (rd msg.subtreeVolumeId)
      pure (some (some volumeId))
    else pure (some none)

/-- `ShareResponse.load_from_msg`. -/
def ShareResponse.loadFromMsg (msg : Shares) : Except Exn ShareResponse := do
  let id ← uuid (rd msg.shareId)
  let direction := directionProt2nice (rd msg.direction)
  let subtree ← uuid (rd msg.subtree)
  let subtreeVolumeId ← loadSubtreeVolumeId direction msg
  pure {
    id, direction, subtree, subtreeVolumeId
    name := rd msg.shareName
    otherUsername := rd msg.otherUsername
    otherVisibleName := rd msg.otherVisibleName
    accepted := rd msg.accepted
    accessLevel := accessProt2nice (rd msg.accessLevel) }

/-- `ShareResponse.dump_to_msg`. -/
def ShareResponse.dumpToMsg (self : ShareResponse) (msg : Shares) : Except Exn Shares :=
  let msg := { msg with
    shareId := some (Uuid.toStr self.id)
    direction := some (directionNice2prot self.direction)
    subtree := some (Uuid.toStr self.subtree)
    shareName := some self.name
    otherUsername := some self.otherUsername
    otherVisibleName := some self.otherVisibleName
    accepted := some self.accepted
    accessLevel := some (accessNice2prot self.accessLevel) }
  match self.direction, self.subtreeVolumeId with
  | .toMe, _ => pure msg
  | .fromMe, none => throw (.attributeError "subtree_volume_id")
  | .fromMe, some none => pure msg
  | .fromMe, some (some volumeId) =>
    pure { msg with subtreeVolumeId := some (Uuid.toStr volumeId) }

/-- What an attribute that holds an id may be: a `uuid.UUID` or a string. -/
inductive Id
  | uuid (n : ℕ)
  | str (s : String)
  deriving DecidableEq

/-- `str(..)` of an id. -/
def Id.toStr : Id → String
  | .uuid n => Uuid.toStr n
  | .str s => s

/-- A share notification. The attribute `subtree` is what its maker gave. -/
structure NotifyShareHolder where
  shareId : ℕ
  subtree : Id
  shareName : String
  fromUsername : String
  fromVisibleName : String
  accessLevel : NiceAccess
  deriving DecidableEq

/-- `NotifyShareHolder.from_params`. -/
def NotifyShareHolder.fromParams (shareId : ℕ) (subtree : Id)
    (shareName fromUsername fromVisibleName : String) (accessLevel : NiceAccess) :
    NotifyShareHolder :=
  { shareId, subtree, shareName, fromUsername, fromVisibleName, accessLevel }

/-- `NotifyShareHolder.dump_to_msg`. -/
def NotifyShareHolder.dumpToMsg (self : NotifyShareHolder) (msg : NotifyShare) : NotifyShare :=
  { msg with
    shareId := some (Uuid.toStr self.shareId)
    subtree := some self.subtree.toStr
    shareName := some self.shareName
    fromUsername := some self.fromUsername
    fromVisibleName := some self.fromVisibleName
    accessLevel := some (accessNice2prot self.accessLevel) }

/-- `NotifyShareHolder.load_from_msg`. The id in `subtree` stays a string. -/
def NotifyShareHolder.loadFromMsg (msg : NotifyShare) : Except Exn NotifyShareHolder := do
  let shareId ← uuid (rd msg.shareId)
  pure {
    shareId
    subtree := .str (rd msg.subtree)
    shareName := rd msg.shareName
    fromUsername := rd msg.fromUsername
    fromVisibleName := rd msg.fromVisibleName
    accessLevel := accessProt2nice (rd msg.accessLevel) }

/-! ### Volumes -/

/-- A `RootVolume`, a `ShareVolume` or a `UDFVolume`. -/
inductive Volume
  | root (nodeId generation freeBytes : ℕ)
  | share (volumeId nodeId generation freeBytes : ℕ) (direction : NiceDirection)
      (shareName otherUsername otherVisibleName : String) (accepted : Bool)
      (accessLevel : NiceAccess)
  | udf (volumeId nodeId generation freeBytes : ℕ) (suggestedPath : String)
  deriving DecidableEq

/-- `RootVolume.from_msg`. -/
def rootVolumeFromMsg (msg : Root) : Except Exn Volume := do
  let nodeId ← uuid (rd msg.node)
  pure (.root nodeId (rd msg.generation) (rd msg.freeBytes))

/-- `ShareVolume.from_msg`. -/
def shareVolumeFromMsg (msg : Shares) : Except Exn Volume := do
  let volumeId ← uuid (rd msg.shareId)
  let nodeId ← uuid (rd msg.subtree)
  pure (.share volumeId nodeId (rd msg.generation) (rd msg.freeBytes)
    (directionProt2nice (rd msg.direction)) (rd msg.shareName) (rd msg.otherUsername)
    (rd msg.otherVisibleName) (rd msg.accepted) (accessProt2nice (rd msg.accessLevel)))

/-- `UDFVolume.from_msg`. -/
def udfVolumeFromMsg (msg : UDFs) : Except Exn Volume := do
  let volumeId ← uuid (rd msg.volume)
  let nodeId ← uuid (rd msg.node)
  pure (.udf volumeId nodeId (rd msg.generation) (rd msg.freeBytes) (rd msg.suggestedPath))

/-- The volume in a `Volumes` message, by its type. -/
def volumeFromMsg (msg : Volumes) : Except Exn Volume :=
  match rd msg.type with
  | .root => rootVolumeFromMsg (rd msg.root)
  | .share => shareVolumeFromMsg (rd msg.share)
  | .udf => udfVolumeFromMsg (rd msg.udf)

/-! ### Deltas -/

/-- `delta.FILE` and `delta.DIRECTORY`. -/
inductive DeltaFileType
  | file | directory
  deriving DecidableEq

/-- `file_type_registry[type]`. -/
def fileTypeRegistry : FileType → Except Exn DeltaFileType
  | .file => pure .file
  | .directory => pure .directory
  | .symlink => throw .keyError

structure FileInfoDelta where
  generation : ℕ
  isLive : Bool
  fileType : DeltaFileType
  parentId : Option String
  shareId : String
  nodeId : String
  name : String
  isPublic : Bool
  contentHash : String
  crc32 : ℕ
  size : ℕ
  lastModified : ℕ
  deriving DecidableEq

/-- `FileInfoDelta.from_message`. -/
def FileInfoDelta.fromMessage (deltaInfo : DeltaInfo) : Except Exn FileInfoDelta := do
  let info := rd deltaInfo.fileInfo
  let fileType ← fileTypeRegistry (rd info.type)
  pure {
    fileType
    generation := rd deltaInfo.generation
    isLive := rd deltaInfo.isLive
    parentId := if rd info.parent ≠ "" then some (rd info.parent) else none
    shareId := rd info.share
    nodeId := rd info.node
    name := rd info.name
    isPublic := rd info.isPublic
    contentHash := rd info.contentHash
    crc32 := rd info.crc32
    size := rd info.size
    lastModified := rd info.lastModified }

/-- `delta.from_message`. The only type of delta is `FILE_INFO`. -/
def deltaFromMessage (m : Message) : Except Exn FileInfoDelta :=
  match rd (rd m.deltaInfo).type with
  | .fileInfo => FileInfoDelta.fromMessage (rd m.deltaInfo)

/-! ### Public files -/

structure PublicFileInfo where
  shareId : String
  nodeId : String
  isPublic : Bool
  publicUrl : String
  deriving DecidableEq

/-- `PublicFileInfo.from_message`. -/
def PublicFileInfo.fromMessage (m : Message) : PublicFileInfo :=
  let info := rd m.publicFileInfo
  { shareId := rd info.share
    nodeId := rd info.node
    isPublic := rd info.isPublic
    publicUrl := rd info.publicUrl }

end Magicicada.Records
