import Magicicada.Pb
import Magicicada.Wire

/-!
`ListFields` of the messages, with the names and numbers of `protocol.proto`, and what is
built on it: `SerializeToString` and `ByteSize`.
-/

namespace Magicicada.Fields

open Pb Wire

def MessageType.number : MessageType → ℕ
  | .noop => 0 | .error => 1 | .ok => 2 | .ping => 3 | .pong => 4 | .protocolVersion => 5
  | .authRequest => 6 | .authRequestToken => 7 | .authRequestTokenReady => 8
  | .authAuthenticated => 9 | .root => 10 | .makeDir => 11 | .makeFile => 12 | .newDir => 13
  | .newFile => 14 | .query => 15 | .nodeState => 16 | .queryEnd => 17 | .getContent => 18
  | .putContent => 19 | .beginContent => 20 | .bytes => 21 | .eof => 22 | .move => 23
  | .unlink => 24 | .createShare => 25 | .listShares => 26 | .sharesInfo => 27
  | .sharesEnd => 28 | .notifyShare => 29 | .shareAccepted => 30 | .shareDeleted => 31
  | .shareCreated => 34 | .deleteShare => 36 | .createUdf => 44 | .listVolumes => 45
  | .volumesInfo => 46 | .volumesEnd => 47 | .volumeDeleted => 48 | .volumeCreated => 49
  | .deleteVolume => 50 | .volumeNewGeneration => 54 | .cancelRequest => 32 | .nodeAttr => 33
  | .cancelled => 35 | .queryCaps => 37 | .setCaps => 38 | .acceptCaps => 39
  | .freeSpaceInfo => 40 | .freeSpaceInquiry => 41 | .accountInfo => 42
  | .accountInquiry => 43 | .getDelta => 51 | .deltaInfo => 52 | .deltaEnd => 53
  | .changePublicAccess => 55 | .publicFileInfo => 56 | .publicFileInfoEnd => 57
  | .listPublicFiles => 58

def ErrorType.number : ErrorType → ℕ
  | .unsupportedVersion => 0 | .authenticationFailed => 1 | .internalError => 2
  | .authenticationRequired => 3 | .noPermission => 4 | .alreadyExists => 5
  | .doesNotExist => 6 | .notADirectory => 7 | .notEmpty => 8 | .notAvailable => 9
  | .uploadInProgress => 10 | .uploadCorrupt => 11 | .uploadCanceled => 12 | .conflict => 13
  | .tryAgain => 14 | .protocolError => 15 | .quotaExceeded => 16 | .invalidFilename => 17
  | .cannotProduceDelta => 18

def AccessLevel.number : AccessLevel → ℕ
  | .view => 0 | .modify => 1

def Direction.number : Direction → ℕ
  | .toMe => 0 | .fromMe => 1

def Answer.number : Answer → ℕ
  | .yes => 0 | .no => 1

def VolumeType.number : VolumeType → ℕ
  | .root => 1 | .share => 2 | .udf => 3

def DeltaInfoType.number : DeltaInfoType → ℕ
  | .fileInfo => 1

def FileType.number : FileType → ℕ
  | .directory => 0 | .file => 1 | .symlink => 2

/-! ### Fields -/

def strField (name : String) (number : ℕ) (o : Option String) : List Tree :=
  o.toList.map fun s => .scalar name number (.str s)

def bytesField (name : String) (number : ℕ) (o : Option Bytes) : List Tree :=
  o.toList.map fun b => .scalar name number (.bytes b)

def uintField (name : String) (number : ℕ) (o : Option ℕ) : List Tree :=
  o.toList.map fun n => .scalar name number (.varint n)

def intField (name : String) (number : ℕ) (o : Option ℤ) : List Tree :=
  uintField name number (o.map ofInt)

def boolField (name : String) (number : ℕ) (o : Option Bool) : List Tree :=
  uintField name number (o.map Bool.toNat)

def subField {α : Type} (name : String) (number : ℕ) (f : α → List Tree) (o : Option α) :
    List Tree :=
  o.toList.map fun a => .message name number (f a)

def repField {α : Type} (name : String) (number : ℕ) (f : α → List Tree) (l : List α) :
    List Tree :=
  if l = [] then [] else [.repeated name number (l.map fun a => .message name number (f a))]

/-! ### The messages -/

def Error.listFields (m : Error) : List Tree :=
  uintField "type" 1 (m.type.map ErrorType.number) ++ strField "comment" 2 m.comment

def Protocol.listFields (m : Protocol) : List Tree := intField "version" 1 m.version

def AuthParameter.listFields (m : AuthParameter) : List Tree :=
  strField "name" 1 m.name ++ strField "value" 2 m.value

def KeyValue.listFields (m : KeyValue) : List Tree :=
  strField "key" 1 m.key ++ strField "value" 2 m.value

def Make.listFields (m : Make) : List Tree :=
  strField "share" 1 m.share ++ strField "parent_node" 2 m.parentNode ++
  strField "name" 3 m.name

def New.listFields (m : New) : List Tree :=
  strField "node" 1 m.node ++ strField "parent_node" 2 m.parentNode ++ strField "name" 3 m.name

def Root.listFields (m : Root) : List Tree :=
  strField "node" 1 m.node ++ uintField "generation" 2 m.generation ++
  uintField "free_bytes" 3 m.freeBytes

def NodeState.listFields (m : NodeState) : List Tree :=
  strField "share" 1 m.share ++ strField "node" 2 m.node ++ strField "hash" 3 m.hash

def GetContent.listFields (m : GetContent) : List Tree :=
  strField "share" 1 m.share ++ strField "node" 2 m.node ++ strField "hash" 3 m.hash ++
  intField "offset" 4 m.offset

def NodeAttr.listFields (m : NodeAttr) : List Tree :=
  uintField "deflated_size" 1 m.deflatedSize ++ uintField "size" 2 m.size ++
  strField "hash" 3 m.hash ++ uintField "crc32" 4 m.crc32

def BytesMessage.listFields (m : BytesMessage) : List Tree := bytesField "bytes" 1 m.bytes

def PutContent.listFields (m : PutContent) : List Tree :=
  strField "share" 1 m.share ++ strField "node" 2 m.node ++
  strField "previous_hash" 3 m.previousHash ++ strField "hash" 4 m.hash ++
  uintField "crc32" 5 m.crc32 ++ uintField "size" 6 m.size ++
  uintField "deflated_size" 7 m.deflatedSize ++ strField "upload_id" 8 m.uploadId ++
  strField "magic_hash" 9 m.magicHash

def BeginContent.listFields (m : BeginContent) : List Tree :=
  uintField "offset" 2 m.offset ++ strField "upload_id" 3 m.uploadId

def Move.listFields (m : Move) : List Tree :=
  strField "share" 1 m.share ++ strField "node" 2 m.node ++
  strField "new_parent_node" 3 m.newParentNode ++ strField "new_name" 4 m.newName

def Unlink.listFields (m : Unlink) : List Tree :=
  strField "share" 1 m.share ++ strField "node" 2 m.node

def CreateShare.listFields (m : CreateShare) : List Tree :=
  strField "node" 1 m.node ++ strField "share_to" 2 m.shareTo ++ strField "name" 3 m.name ++
  uintField "access_level" 4 (m.accessLevel.map AccessLevel.number)

def Shares.listFields (m : Shares) : List Tree :=
  strField "share_id" 1 m.shareId ++ uintField "direction" 2 (m.direction.map Direction.number) ++
  strField "subtree" 3 m.subtree ++ strField "share_name" 4 m.shareName ++
  strField "other_username" 5 m.otherUsername ++
  strField "other_visible_name" 6 m.otherVisibleName ++ boolField "accepted" 7 m.accepted ++
  uintField "access_level" 8 (m.accessLevel.map AccessLevel.number) ++
  uintField "generation" 9 m.generation ++ uintField "free_bytes" 10 m.freeBytes ++
  strField "subtree_volume_id" 11 m.subtreeVolumeId

def NotifyShare.listFields (m : NotifyShare) : List Tree :=
  strField "share_id" 1 m.shareId ++ strField "subtree" 2 m.subtree ++
  strField "share_name" 3 m.shareName ++ strField "from_username" 4 m.fromUsername ++
  strField "from_visible_name" 5 m.fromVisibleName ++
  uintField "access_level" 6 (m.accessLevel.map AccessLevel.number)

def ShareAccepted.listFields (m : ShareAccepted) : List Tree :=
  strField "share_id" 1 m.shareId ++ uintField "answer" 2 (m.answer.map Answer.number)

def ShareId.listFields (m : ShareId) : List Tree := strField "share_id" 1 m.shareId

def CreateUDF.listFields (m : CreateUDF) : List Tree :=
  strField "path" 1 m.path ++ strField "name" 2 m.name

def UDFs.listFields (m : UDFs) : List Tree :=
  strField "volume" 1 m.volume ++ strField "node" 2 m.node ++
  strField "suggested_path" 3 m.suggestedPath ++ uintField "generation" 4 m.generation ++
  uintField "free_bytes" 5 m.freeBytes

def VolumeId.listFields (m : VolumeId) : List Tree := strField "volume" 1 m.volume

def Volumes.listFields (m : Volumes) : List Tree :=
  uintField "type" 1 (m.type.map VolumeType.number) ++ subField "root" 3 Root.listFields m.root ++
  subField "udf" 4 UDFs.listFields m.udf ++ subField "share" 5 Shares.listFields m.share

def VolumeNewGeneration.listFields (m : VolumeNewGeneration) : List Tree :=
  strField "volume" 1 m.volume ++ uintField "generation" 2 m.generation

def Caps.listFields (m : Caps) : List Tree := strField "capability" 1 m.capability

def AcceptCaps.listFields (m : AcceptCaps) : List Tree :=
  boolField "accepted" 1 m.accepted ++ strField "redirect_hostname" 2 m.redirectHostname ++
  strField "redirect_port" 3 m.redirectPort ++
  strField "redirect_srvrecord" 4 m.redirectSrvrecord

def FreeSpaceInfo.listFields (m : FreeSpaceInfo) : List Tree :=
  strField "share_id" 1 m.shareId ++ uintField "free_bytes" 2 m.freeBytes

def AccountInfo.listFields (m : AccountInfo) : List Tree :=
  uintField "purchased_bytes" 1 m.purchasedBytes

def GetDelta.listFields (m : GetDelta) : List Tree :=
  strField "share" 1 m.share ++ uintField "from_generation" 2 m.fromGeneration ++
  boolField "from_scratch" 3 m.fromScratch

def FileInfo.listFields (m : FileInfo) : List Tree :=
  uintField "type" 1 (m.type.map FileType.number) ++ strField "parent" 2 m.parent ++
  strField "share" 3 m.share ++ strField "node" 4 m.node ++ strField "name" 5 m.name ++
  boolField "is_public" 6 m.isPublic ++ strField "content_hash" 7 m.contentHash ++
  uintField "crc32" 8 m.crc32 ++ uintField "size" 9 m.size ++
  uintField "last_modified" 10 m.lastModified

def DeltaInfo.listFields (m : DeltaInfo) : List Tree :=
  uintField "generation" 1 m.generation ++ boolField "is_live" 2 m.isLive ++
  uintField "type" 3 (m.type.map DeltaInfoType.number) ++
  subField "file_info" 4 FileInfo.listFields m.fileInfo

def DeltaEnd.listFields (m : DeltaEnd) : List Tree :=
  uintField "generation" 1 m.generation ++ boolField "full" 2 m.full ++
  uintField "free_bytes" 3 m.freeBytes

def ChangePublicAccess.listFields (m : ChangePublicAccess) : List Tree :=
  strField "share" 1 m.share ++ strField "node" 2 m.node ++ boolField "is_public" 3 m.isPublic

def PublicFileInfo.listFields (m : PublicFileInfo) : List Tree :=
  strField "share" 1 m.share ++ strField "node" 2 m.node ++ boolField "is_public" 3 m.isPublic ++
  strField "public_url" 4 m.publicUrl

/-- `message.ListFields()`. -/
def Message.listFields (m : Message) : List Tree :=
  List.flatten [
    intField "id" 1 (some m.id), uintField "type" 2 (some (MessageType.number m.type)),
    subField "error" 3 Error.listFields m.error,
    subField "protocol" 4 Protocol.listFields m.protocol,
    repField "auth_parameters" 5 AuthParameter.listFields m.authParameters,
    subField "root" 6 Root.listFields m.root, repField "query" 7 NodeState.listFields m.query,
    subField "node_state" 8 NodeState.listFields m.nodeState,
    subField "make" 9 Make.listFields m.make, subField "new" 10 New.listFields m.new,
    subField "move" 11 Move.listFields m.move,
    subField "get_content" 12 GetContent.listFields m.getContent,
    subField "put_content" 13 PutContent.listFields m.putContent,
    subField "bytes" 15 BytesMessage.listFields m.bytes,
    subField "unlink" 16 Unlink.listFields m.unlink,
    subField "node_attr" 18 NodeAttr.listFields m.nodeAttr,
    subField "create_share" 19 CreateShare.listFields m.createShare,
    subField "shares" 20 Shares.listFields m.shares,
    subField "notify_share" 21 NotifyShare.listFields m.notifyShare,
    subField "share_accepted" 22 ShareAccepted.listFields m.shareAccepted,
    subField "share_deleted" 23 ShareId.listFields m.shareDeleted,
    subField "share_created" 24 ShareId.listFields m.shareCreated,
    subField "delete_share" 25 ShareId.listFields m.deleteShare,
    repField "query_caps" 26 Caps.listFields m.queryCaps,
    repField "set_caps" 27 Caps.listFields m.setCaps,
    subField "accept_caps" 28 AcceptCaps.listFields m.acceptCaps,
    subField "free_space_info" 29 FreeSpaceInfo.listFields m.freeSpaceInfo,
    subField "free_space_inquiry" 30 ShareId.listFields m.freeSpaceInquiry,
    subField "account_info" 31 AccountInfo.listFields m.accountInfo,
    subField "begin_content" 32 BeginContent.listFields m.beginContent,
    subField "create_udf" 33 CreateUDF.listFields m.createUdf,
    subField "list_volumes" 34 Volumes.listFields m.listVolumes,
    subField "volume_deleted" 35 VolumeId.listFields m.volumeDeleted,
    subField "volume_created" 36 Volumes.listFields m.volumeCreated,
    subField "delete_volume" 37 VolumeId.listFields m.deleteVolume,
    subField "get_delta" 38 GetDelta.listFields m.getDelta,
    subField "delta_info" 39 DeltaInfo.listFields m.deltaInfo,
    subField "delta_end" 40 DeltaEnd.listFields m.deltaEnd,
    subField "volume_new_generation" 41 VolumeNewGeneration.listFields m.volumeNewGeneration,
    strField "session_id" 42 m.sessionId, uintField "new_generation" 43 m.newGeneration,
    repField "metadata" 44 KeyValue.listFields m.metadata,
    subField "change_public_access" 45 ChangePublicAccess.listFields m.changePublicAccess,
    strField "public_url" 46 m.publicUrl,
    subField "public_file_info" 47 PublicFileInfo.listFields m.publicFileInfo]

/-- `message.SerializeToString()`. -/
def serialize (m : Message) : Bytes := encodeAll (Message.listFields m)

/-- `message.ByteSize()`. -/
def byteSize (m : Message) : ℕ := (serialize m).length

end Magicicada.Fields
