import Magicicada.Serializing
import Magicicada.WireParse

/-!
`ParseFromString` of the messages of `protocol.proto`, and that it reads back what
`SerializeToString` writes.

Required fields need not be there. A string that is not UTF-8 is not parsed, as in the Python
implementation of protocol buffers, with which the tests are run.
-/

namespace Magicicada.Fields

open Pb Wire

/-! ### Enumerations -/

/-- The value with a number, if the enumeration has one. -/
def byNumber {α : Type} (all : List α) (num : α → ℕ) (n : ℕ) : Option α :=
  all.find? fun a => num a = n

def MessageType.ofNumber : ℕ → Option MessageType :=
  byNumber ((List.range 59).map MessageType.ofNat) MessageType.number

def ErrorType.ofNumber : ℕ → Option ErrorType :=
  byNumber ((List.range 19).map ErrorType.ofNat) ErrorType.number

def AccessLevel.ofNumber : ℕ → Option AccessLevel :=
  byNumber [.view, .modify] AccessLevel.number

def Direction.ofNumber : ℕ → Option Direction := byNumber [.toMe, .fromMe] Direction.number

def Answer.ofNumber : ℕ → Option Answer := byNumber [.yes, .no] Answer.number

def VolumeType.ofNumber : ℕ → Option VolumeType :=
  byNumber [.root, .share, .udf] VolumeType.number

def DeltaInfoType.ofNumber : ℕ → Option DeltaInfoType :=
  byNumber [.fileInfo] DeltaInfoType.number

def FileType.ofNumber : ℕ → Option FileType :=
  byNumber [.directory, .file, .symlink] FileType.number

/-- Each value is found by its number, which is that of no negative `int32`. -/
class Numbered {α : Type} (num : α → ℕ) (ofNumber : outParam (ℕ → Option α)) : Prop where
  found : ∀ a, ofNumber (num a) = some a
  lt : ∀ a, num a < 2 ^ 31

instance : Numbered MessageType.number MessageType.ofNumber where
  found a := by cases a <;> rfl
  lt a := by cases a <;> decide

instance : Numbered ErrorType.number ErrorType.ofNumber where
  found a := by cases a <;> rfl
  lt a := by cases a <;> decide

instance : Numbered AccessLevel.number AccessLevel.ofNumber where
  found a := by cases a <;> rfl
  lt a := by cases a <;> decide

instance : Numbered Direction.number Direction.ofNumber where
  found a := by cases a <;> rfl
  lt a := by cases a <;> decide

instance : Numbered Answer.number Answer.ofNumber where
  found a := by cases a <;> rfl
  lt a := by cases a <;> decide

instance : Numbered VolumeType.number VolumeType.ofNumber where
  found a := by cases a <;> rfl
  lt a := by cases a <;> decide

instance : Numbered DeltaInfoType.number DeltaInfoType.ofNumber where
  found | .fileInfo => rfl
  lt | .fileInfo => by decide

instance : Numbered FileType.number FileType.ofNumber where
  found a := by cases a <;> rfl
  lt a := by cases a <;> decide

/-! ### The messages in a message -/

def Error.read (rs : List Record) : Option Error := do
  let type ← readLast 1 (readEnum ErrorType.ofNumber) rs
  let comment ← readLast 2 readStr rs
  pure { type, comment }

def Protocol.read (rs : List Record) : Option Protocol := do
  let version ← readLast 1 (readInt 32) rs
  pure { version }

def AuthParameter.read (rs : List Record) : Option AuthParameter := do
  let name ← readLast 1 readStr rs
  let value ← readLast 2 readStr rs
  pure { name, value }

def KeyValue.read (rs : List Record) : Option KeyValue := do
  let key ← readLast 1 readStr rs
  let value ← readLast 2 readStr rs
  pure { key, value }

def Make.read (rs : List Record) : Option Make := do
  let share ← readLast 1 readStr rs
  let parentNode ← readLast 2 readStr rs
  let name ← readLast 3 readStr rs
  pure { share, parentNode, name }

def New.read (rs : List Record) : Option New := do
  let node ← readLast 1 readStr rs
  let parentNode ← readLast 2 readStr rs
  let name ← readLast 3 readStr rs
  pure { node, parentNode, name }

def Root.read (rs : List Record) : Option Root := do
  let node ← readLast 1 readStr rs
  let generation ← readLast 2 (readUint 64) rs
  let freeBytes ← readLast 3 (readUint 64) rs
  pure { node, generation, freeBytes }

def NodeState.read (rs : List Record) : Option NodeState := do
  let share ← readLast 1 readStr rs
  let node ← readLast 2 readStr rs
  let hash ← readLast 3 readStr rs
  pure { share, node, hash }

def GetContent.read (rs : List Record) : Option GetContent := do
  let share ← readLast 1 readStr rs
  let node ← readLast 2 readStr rs
  let hash ← readLast 3 readStr rs
  let offset ← readLast 4 (readInt 64) rs
  pure { share, node, hash, offset }

def NodeAttr.read (rs : List Record) : Option NodeAttr := do
  let deflatedSize ← readLast 1 (readUint 64) rs
  let size ← readLast 2 (readUint 64) rs
  let hash ← readLast 3 readStr rs
  let crc32 ← readLast 4 (readUint 32) rs
  pure { deflatedSize, size, hash, crc32 }

def BytesMessage.read (rs : List Record) : Option BytesMessage := do
  let bytes ← readLast 1 readBlob rs
  pure { bytes }

def PutContent.read (rs : List Record) : Option PutContent := do
  let share ← readLast 1 readStr rs
  let node ← readLast 2 readStr rs
  let previousHash ← readLast 3 readStr rs
  let hash ← readLast 4 readStr rs
  let crc32 ← readLast 5 (readUint 32) rs
  let size ← readLast 6 (readUint 64) rs
  let deflatedSize ← readLast 7 (readUint 64) rs
  let uploadId ← readLast 8 readStr rs
  let magicHash ← readLast 9 readStr rs
  pure { share, node, previousHash, hash, crc32, size, deflatedSize, uploadId, magicHash }

def BeginContent.read (rs : List Record) : Option BeginContent := do
  let offset ← readLast 2 (readUint 64) rs
  let uploadId ← readLast 3 readStr rs
  pure { offset, uploadId }

/-- Nothing of an `UploadInProgress` is kept. -/
def UploadInProgress.read (rs : List Record) : Option Unit := do
  let _ ← readLast 1 readStr rs
  let _ ← readLast 2 (readInt 32) rs
  pure ()

/-- A `CancelRequest` has no fields. -/
def CancelRequest.read (_ : List Record) : Option Unit := some ()

def Move.read (rs : List Record) : Option Move := do
  let share ← readLast 1 readStr rs
  let node ← readLast 2 readStr rs
  let newParentNode ← readLast 3 readStr rs
  let newName ← readLast 4 readStr rs
  pure { share, node, newParentNode, newName }

def Unlink.read (rs : List Record) : Option Unlink := do
  let share ← readLast 1 readStr rs
  let node ← readLast 2 readStr rs
  pure { share, node }

def CreateShare.read (rs : List Record) : Option CreateShare := do
  let node ← readLast 1 readStr rs
  let shareTo ← readLast 2 readStr rs
  let name ← readLast 3 readStr rs
  let accessLevel ← readLast 4 (readEnum AccessLevel.ofNumber) rs
  pure { node, shareTo, name, accessLevel }

def Shares.read (rs : List Record) : Option Shares := do
  let shareId ← readLast 1 readStr rs
  let direction ← readLast 2 (readEnum Direction.ofNumber) rs
  let subtree ← readLast 3 readStr rs
  let shareName ← readLast 4 readStr rs
  let otherUsername ← readLast 5 readStr rs
  let otherVisibleName ← readLast 6 readStr rs
  let accepted ← readLast 7 readBool rs
  let accessLevel ← readLast 8 (readEnum AccessLevel.ofNumber) rs
  let generation ← readLast 9 (readUint 64) rs
  let freeBytes ← readLast 10 (readUint 64) rs
  let subtreeVolumeId ← readLast 11 readStr rs
  pure { shareId, direction, subtree, shareName, otherUsername, otherVisibleName, accepted,
         accessLevel, generation, freeBytes, subtreeVolumeId }

def NotifyShare.read (rs : List Record) : Option NotifyShare := do
  let shareId ← readLast 1 readStr rs
  let subtree ← readLast 2 readStr rs
  let shareName ← readLast 3 readStr rs
  let fromUsername ← readLast 4 readStr rs
  let fromVisibleName ← readLast 5 readStr rs
  let accessLevel ← readLast 6 (readEnum AccessLevel.ofNumber) rs
  pure { shareId, subtree, shareName, fromUsername, fromVisibleName, accessLevel }

def ShareAccepted.read (rs : List Record) : Option ShareAccepted := do
  let shareId ← readLast 1 readStr rs
  let answer ← readLast 2 (readEnum Answer.ofNumber) rs
  pure { shareId, answer }

def ShareId.read (rs : List Record) : Option ShareId := do
  let shareId ← readLast 1 readStr rs
  pure { shareId }

def CreateUDF.read (rs : List Record) : Option CreateUDF := do
  let path ← readLast 1 readStr rs
  let name ← readLast 2 readStr rs
  pure { path, name }

def UDFs.read (rs : List Record) : Option UDFs := do
  let volume ← readLast 1 readStr rs
  let node ← readLast 2 readStr rs
  let suggestedPath ← readLast 3 readStr rs
  let generation ← readLast 4 (readUint 64) rs
  let freeBytes ← readLast 5 (readUint 64) rs
  pure { volume, node, suggestedPath, generation, freeBytes }

def VolumeId.read (rs : List Record) : Option VolumeId := do
  let volume ← readLast 1 readStr rs
  pure { volume }

def Volumes.read (rs : List Record) : Option Volumes := do
  let type ← readLast 1 (readEnum VolumeType.ofNumber) rs
  let root ← readSub 3 Root.read rs
  let udf ← readSub 4 UDFs.read rs
  let share ← readSub 5 Shares.read rs
  pure { type, root, udf, share }

def VolumeNewGeneration.read (rs : List Record) : Option VolumeNewGeneration := do
  let volume ← readLast 1 readStr rs
  let generation ← readLast 2 (readUint 64) rs
  pure { volume, generation }

def Caps.read (rs : List Record) : Option Caps := do
  let capability ← readLast 1 readStr rs
  pure { capability }

def AcceptCaps.read (rs : List Record) : Option AcceptCaps := do
  let accepted ← readLast 1 readBool rs
  let redirectHostname ← readLast 2 readStr rs
  let redirectPort ← readLast 3 readStr rs
  let redirectSrvrecord ← readLast 4 readStr rs
  pure { accepted, redirectHostname, redirectPort, redirectSrvrecord }

def FreeSpaceInfo.read (rs : List Record) : Option FreeSpaceInfo := do
  let shareId ← readLast 1 readStr rs
  let freeBytes ← readLast 2 (readUint 64) rs
  pure { shareId, freeBytes }

def AccountInfo.read (rs : List Record) : Option AccountInfo := do
  let purchasedBytes ← readLast 1 (readUint 64) rs
  pure { purchasedBytes }

def GetDelta.read (rs : List Record) : Option GetDelta := do
  let share ← readLast 1 readStr rs
  let fromGeneration ← readLast 2 (readUint 64) rs
  let fromScratch ← readLast 3 readBool rs
  pure { share, fromGeneration, fromScratch }

def FileInfo.read (rs : List Record) : Option FileInfo := do
  let type ← readLast 1 (readEnum FileType.ofNumber) rs
  let parent ← readLast 2 readStr rs
  let share ← readLast 3 readStr rs
  let node ← readLast 4 readStr rs
  let name ← readLast 5 readStr rs
  let isPublic ← readLast 6 readBool rs
  let contentHash ← readLast 7 readStr rs
  let crc32 ← readLast 8 (readUint 32) rs
  let size ← readLast 9 (readUint 64) rs
  let lastModified ← readLast 10 (readUint 64) rs
  pure { type, parent, share, node, name, isPublic, contentHash, crc32, size, lastModified }

def DeltaInfo.read (rs : List Record) : Option DeltaInfo := do
  let generation ← readLast 1 (readUint 64) rs
  let isLive ← readLast 2 readBool rs
  let type ← readLast 3 (readEnum DeltaInfoType.ofNumber) rs
  let fileInfo ← readSub 4 FileInfo.read rs
  pure { generation, isLive, type, fileInfo }

def DeltaEnd.read (rs : List Record) : Option DeltaEnd := do
  let generation ← readLast 1 (readUint 64) rs
  let full ← readLast 2 readBool rs
  let freeBytes ← readLast 3 (readUint 64) rs
  pure { generation, full, freeBytes }

def ChangePublicAccess.read (rs : List Record) : Option ChangePublicAccess := do
  let share ← readLast 1 readStr rs
  let node ← readLast 2 readStr rs
  let isPublic ← readLast 3 readBool rs
  pure { share, node, isPublic }

def PublicFileInfo.read (rs : List Record) : Option PublicFileInfo := do
  let share ← readLast 1 readStr rs
  let node ← readLast 2 readStr rs
  let isPublic ← readLast 3 readBool rs
  let publicUrl ← readLast 4 readStr rs
  pure { share, node, isPublic, publicUrl }

/-! ### The message -/

def Message.read (rs : List Record) : Option Message := do
  let id ← readDefault 0 1 (readInt 32) rs
  let type ← readDefault .noop 2 (readEnum MessageType.ofNumber) rs
  let error ← readSub 3 Error.read rs
  let protocol ← readSub 4 Protocol.read rs
  let authParameters ← readRep 5 AuthParameter.read rs
  let root ← readSub 6 Root.read rs
  let query ← readRep 7 NodeState.read rs
  let nodeState ← readSub 8 NodeState.read rs
  let make ← readSub 9 Make.read rs
  let new ← readSub 10 New.read rs
  let move ← readSub 11 Move.read rs
  let getContent ← readSub 12 GetContent.read rs
  let putContent ← readSub 13 PutContent.read rs
  let _ ← readSub 14 UploadInProgress.read rs
  let bytes ← readSub 15 BytesMessage.read rs
  let unlink ← readSub 16 Unlink.read rs
  let _ ← readSub 17 CancelRequest.read rs
  let nodeAttr ← readSub 18 NodeAttr.read rs
  let createShare ← readSub 19 CreateShare.read rs
  let shares ← readSub 20 Shares.read rs
  let notifyShare ← readSub 21 NotifyShare.read rs
  let shareAccepted ← readSub 22 ShareAccepted.read rs
  let shareDeleted ← readSub 23 ShareId.read rs
  let shareCreated ← readSub 24 ShareId.read rs
  let deleteShare ← readSub 25 ShareId.read rs
  let queryCaps ← readRep 26 Caps.read rs
  let setCaps ← readRep 27 Caps.read rs
  let acceptCaps ← readSub 28 AcceptCaps.read rs
  let freeSpaceInfo ← readSub 29 FreeSpaceInfo.read rs
  let freeSpaceInquiry ← readSub 30 ShareId.read rs
  let accountInfo ← readSub 31 AccountInfo.read rs
  let beginContent ← readSub 32 BeginContent.read rs
  let createUdf ← readSub 33 CreateUDF.read rs
  let listVolumes ← readSub 34 Volumes.read rs
  let volumeDeleted ← readSub 35 VolumeId.read rs
  let volumeCreated ← readSub 36 Volumes.read rs
  let deleteVolume ← readSub 37 VolumeId.read rs
  let getDelta ← readSub 38 GetDelta.read rs
  let deltaInfo ← readSub 39 DeltaInfo.read rs
  let deltaEnd ← readSub 40 DeltaEnd.read rs
  let volumeNewGeneration ← readSub 41 VolumeNewGeneration.read rs
  let sessionId ← readLast 42 readStr rs
  let newGeneration ← readLast 43 (readUint 64) rs
  let metadata ← readRep 44 KeyValue.read rs
  let changePublicAccess ← readSub 45 ChangePublicAccess.read rs
  let publicUrl ← readLast 46 readStr rs
  let publicFileInfo ← readSub 47 PublicFileInfo.read rs
  pure {
    id, type, error, protocol, authParameters, root, query, nodeState, make, new, move,
    getContent, putContent, bytes, unlink, nodeAttr, createShare, shares, notifyShare,
    shareAccepted, shareDeleted, shareCreated, deleteShare, queryCaps, setCaps, acceptCaps,
    freeSpaceInfo, freeSpaceInquiry, accountInfo, beginContent, createUdf, listVolumes,
    volumeDeleted, volumeCreated, deleteVolume, getDelta, deltaInfo, deltaEnd,
    volumeNewGeneration, sessionId, newGeneration, metadata, changePublicAccess, publicUrl,
    publicFileInfo }

/-- `message.ParseFromString(buf)` on a new message; `none` is for what it raises. It does not ask
for required fields. -/
def parseFromString (buf : Bytes) : Option Message := (records buf).bind Message.read

/-! ### Required fields -/

def Error.isInitialized (m : Error) : Bool := m.type.isSome

def Protocol.isInitialized (m : Protocol) : Bool := m.version.isSome

def AuthParameter.isInitialized (m : AuthParameter) : Bool := m.name.isSome && m.value.isSome

def KeyValue.isInitialized (m : KeyValue) : Bool := m.key.isSome && m.value.isSome

/-- `message.IsInitialized()`, of one with an `id` and a `type`. -/
def Message.isInitialized (m : Message) : Bool :=
  m.error.all Error.isInitialized && m.protocol.all Protocol.isInitialized &&
    m.authParameters.all AuthParameter.isInitialized && m.metadata.all KeyValue.isInitialized

/-- `message.SerializeToString()`; `none` is for the `EncodeError`. -/
def serializeToString (m : Message) : Option Bytes :=
  if Message.isInitialized m then some (serialize m) else none

/-! ### What a field is read as -/

variable {μ α : Type} {P : μ → Prop}

lemma reads_scalar {v : α → Scalar} {Q : α → Prop} {value : Payload → Option (Option α)}
    (hsmall : ∀ a, Q a → (v a).payload.Small)
    (hvalue : ∀ a, Q a → value (v a).payload = some (some a)) {name : String} {number : ℕ}
    (o : μ → Option α) (hQ : ∀ m, P m → ∀ a ∈ o m, Q a) :
    Reads P [number] (fun m => (o m).toList.map fun a => .scalar name number (v a)) o
      (readLast number value) := by
  have hsized : ∀ a, (v a).payload.Sized := fun a => by cases v a <;> trivial
  exact .last (reads_each (fun a => Tree.records_scalar name number (v a)) hsized hsmall hvalue _
    fun m hm a ha => hQ m hm a (Option.mem_toList.mp ha))

lemma reads_str {name : String} {number : ℕ} (o : μ → Option String) :
    Reads P [number] (fun m => strField name number (o m)) o (readLast number readStr) :=
  reads_scalar (v := .str) (Q := fun _ => True) (fun _ _ => trivial)
    (fun s _ => congrArg (Option.map some) (utf8Decode_utf8 s)) o fun _ _ _ _ => trivial

lemma reads_blob {name : String} {number : ℕ} (o : μ → Option Bytes) :
    Reads P [number] (fun m => bytesField name number (o m)) o (readLast number readBlob) :=
  reads_scalar (v := .bytes) (Q := fun _ => True) (fun _ _ => trivial) (fun _ _ => rfl) o
    fun _ _ _ _ => trivial

lemma reads_num (num : α → ℕ) {Q : α → Prop} {value : Payload → Option (Option α)}
    (hsmall : ∀ a, Q a → num a < 2 ^ 64)
    (hvalue : ∀ a, Q a → value (.varint (num a)) = some (some a)) {name : String} {number : ℕ}
    (o : μ → Option α) (hQ : ∀ m, P m → ∀ a ∈ o m, Q a) :
    Reads P [number] (fun m => uintField name number ((o m).map num)) o
      (readLast number value) := by
  have hfield : (fun m => uintField name number ((o m).map num)) =
      fun m => (o m).toList.map fun a => .scalar name number (.varint (num a)) := by
    funext m
    cases o m <;> rfl
  rw [hfield]
  exact reads_scalar (v := fun a => .varint (num a)) hsmall hvalue o hQ

lemma reads_uint {bits number : ℕ} {name : String} (o : μ → Option ℕ)
    (hQ : ∀ m, P m → ∀ n ∈ o m, n < 2 ^ bits) (hbits : bits ≤ 64 := by decide) :
    Reads P [number] (fun m => uintField name number (o m)) o
      (readLast number (readUint bits)) := by
  have hvalue : ∀ n, n < 2 ^ bits → readUint bits (.varint (id n)) = some (some n) := by
    intro n hn
    rw [readUint, id, Nat.mod_eq_of_lt hn]
  have h : Reads P [number] (fun m => uintField name number ((o m).map id)) o
      (readLast number (readUint bits)) :=
    reads_num id (fun n hn => hn.trans_le (Nat.pow_le_pow_right (by decide) hbits)) hvalue o hQ
  simpa using h

lemma reads_bool {name : String} {number : ℕ} (o : μ → Option Bool) :
    Reads P [number] (fun m => boolField name number (o m)) o (readLast number readBool) :=
  reads_num Bool.toNat (Q := fun _ => True) (fun b _ => by cases b <;> decide)
    (fun b _ => by cases b <;> rfl) o
    fun _ _ _ _ => trivial

lemma reads_enum (num : α → ℕ) {ofNumber : ℕ → Option α} [hnum : Numbered num ofNumber]
    {name : String} {number : ℕ} (o : μ → Option α) :
    Reads P [number] (fun m => uintField name number ((o m).map num)) o
      (readLast number (readEnum ofNumber)) := by
  refine reads_num num (Q := fun _ => True) (fun a _ => (hnum.lt a).trans (by decide))
    (fun a _ => ?_) o fun _ _ _ _ => trivial
  have hlt : num a < 2 ^ 32 := (hnum.lt a).trans (by decide)
  rw [readEnum, Nat.mod_eq_of_lt hlt, hnum.found]

/-- A signed number of that many bits. -/
def IntOf (bits : ℕ) (i : ℤ) : Prop := -2 ^ (bits - 1) ≤ i ∧ i < 2 ^ (bits - 1)

lemma ofInt_lt (i : ℤ) : ofInt i < 2 ^ 64 := by
  unfold ofInt
  omega

lemma readInt_ofInt {bits : ℕ} (hbits : bits = 32 ∨ bits = 64) {i : ℤ} (hi : IntOf bits i) :
    readInt bits (.varint (ofInt i)) = some (some i) := by
  have hback : Int.bmod (ofInt i) (2 ^ bits) = i := by
    obtain ⟨hlow, hhigh⟩ := hi
    rcases hbits with rfl | rfl <;>
    · simp only [Nat.add_one_sub_one] at hlow hhigh
      unfold ofInt
      rw [Int.bmod_def]
      split <;> omega
  rw [readInt, hback]

lemma reads_int {bits number : ℕ} (hbits : bits = 32 ∨ bits = 64) {name : String}
    (o : μ → Option ℤ) (hQ : ∀ m, P m → ∀ i ∈ o m, IntOf bits i) :
    Reads P [number] (fun m => intField name number (o m)) o (readLast number (readInt bits)) :=
  reads_num ofInt (fun i _ => ofInt_lt i) (fun _ hi => readInt_ofInt hbits hi) o hQ

variable {f : α → List Tree} {read : List Record → Option α} {Q : α → Prop}

lemma reads_sub [Readable Q f read] {name : String} {number : ℕ} (o : μ → Option α)
    (hQ : ∀ m, P m → ∀ a ∈ o m, Q a) :
    Reads P [number] (fun m => subField name number f (o m)) o (readSub number read) :=
  reads_message name number o hQ

lemma reads_rep [hr : Readable Q f read] {name : String} {number : ℕ} (l : μ → List α)
    (hQ : ∀ m, P m → ∀ a ∈ l m, Q a) :
    Reads P [number] (fun m => repField name number f (l m)) l (readRep number read) := by
  have h : Reads P [number] (fun m => (l m).map fun a => .message name number (f a)) l
      (readRep number read) :=
    reads_each (fun a => Tree.records_message name number (f a)) (fun _ => trivial)
      (fun _ _ => trivial) (fun a ha => readElem_delimited ha) l hQ
  have hrecords := fun m => recordsAll_repField name number f (l m)
  exact ⟨fun m => hrecords m ▸ h.number m, fun m => hrecords m ▸ h.sized m,
    fun m hm => hrecords m ▸ h.small m hm, h.own, fun m hm => (hrecords m).symm ▸ h.read m hm⟩

/-! ### Numbers in range

The assignments to fields raise on numbers that are not in the range of the type. -/

def Protocol.InRange (m : Protocol) : Prop := ∀ i ∈ m.version, IntOf 32 i

def GetContent.InRange (m : GetContent) : Prop := ∀ i ∈ m.offset, IntOf 64 i

structure Root.InRange (m : Root) : Prop where
  generation : ∀ n ∈ m.generation, n < 2 ^ 64
  freeBytes : ∀ n ∈ m.freeBytes, n < 2 ^ 64

structure NodeAttr.InRange (m : NodeAttr) : Prop where
  deflatedSize : ∀ n ∈ m.deflatedSize, n < 2 ^ 64
  size : ∀ n ∈ m.size, n < 2 ^ 64
  crc32 : ∀ n ∈ m.crc32, n < 2 ^ 32

structure PutContent.InRange (m : PutContent) : Prop where
  crc32 : ∀ n ∈ m.crc32, n < 2 ^ 32
  size : ∀ n ∈ m.size, n < 2 ^ 64
  deflatedSize : ∀ n ∈ m.deflatedSize, n < 2 ^ 64

def BeginContent.InRange (m : BeginContent) : Prop := ∀ n ∈ m.offset, n < 2 ^ 64

structure Shares.InRange (m : Shares) : Prop where
  generation : ∀ n ∈ m.generation, n < 2 ^ 64
  freeBytes : ∀ n ∈ m.freeBytes, n < 2 ^ 64

structure UDFs.InRange (m : UDFs) : Prop where
  generation : ∀ n ∈ m.generation, n < 2 ^ 64
  freeBytes : ∀ n ∈ m.freeBytes, n < 2 ^ 64

def VolumeNewGeneration.InRange (m : VolumeNewGeneration) : Prop := ∀ n ∈ m.generation, n < 2 ^ 64

def FreeSpaceInfo.InRange (m : FreeSpaceInfo) : Prop := ∀ n ∈ m.freeBytes, n < 2 ^ 64

def AccountInfo.InRange (m : AccountInfo) : Prop := ∀ n ∈ m.purchasedBytes, n < 2 ^ 64

def GetDelta.InRange (m : GetDelta) : Prop := ∀ n ∈ m.fromGeneration, n < 2 ^ 64

structure FileInfo.InRange (m : FileInfo) : Prop where
  crc32 : ∀ n ∈ m.crc32, n < 2 ^ 32
  size : ∀ n ∈ m.size, n < 2 ^ 64
  lastModified : ∀ n ∈ m.lastModified, n < 2 ^ 64

structure DeltaEnd.InRange (m : DeltaEnd) : Prop where
  generation : ∀ n ∈ m.generation, n < 2 ^ 64
  freeBytes : ∀ n ∈ m.freeBytes, n < 2 ^ 64

structure Volumes.InRange (m : Volumes) : Prop where
  root : ∀ v ∈ m.root, Root.InRange v
  udf : ∀ v ∈ m.udf, UDFs.InRange v
  share : ∀ v ∈ m.share, Shares.InRange v

structure DeltaInfo.InRange (m : DeltaInfo) : Prop where
  generation : ∀ n ∈ m.generation, n < 2 ^ 64
  fileInfo : ∀ v ∈ m.fileInfo, FileInfo.InRange v

structure Message.InRange (m : Message) : Prop where
  id : IntOf 32 m.id
  protocol : ∀ v ∈ m.protocol, Protocol.InRange v
  root : ∀ v ∈ m.root, Root.InRange v
  getContent : ∀ v ∈ m.getContent, GetContent.InRange v
  putContent : ∀ v ∈ m.putContent, PutContent.InRange v
  nodeAttr : ∀ v ∈ m.nodeAttr, NodeAttr.InRange v
  shares : ∀ v ∈ m.shares, Shares.InRange v
  freeSpaceInfo : ∀ v ∈ m.freeSpaceInfo, FreeSpaceInfo.InRange v
  accountInfo : ∀ v ∈ m.accountInfo, AccountInfo.InRange v
  beginContent : ∀ v ∈ m.beginContent, BeginContent.InRange v
  listVolumes : ∀ v ∈ m.listVolumes, Volumes.InRange v
  volumeCreated : ∀ v ∈ m.volumeCreated, Volumes.InRange v
  getDelta : ∀ v ∈ m.getDelta, GetDelta.InRange v
  deltaInfo : ∀ v ∈ m.deltaInfo, DeltaInfo.InRange v
  deltaEnd : ∀ v ∈ m.deltaEnd, DeltaEnd.InRange v
  volumeNewGeneration : ∀ v ∈ m.volumeNewGeneration, VolumeNewGeneration.InRange v
  newGeneration : ∀ n ∈ m.newGeneration, n < 2 ^ 64

/-! ### Each message is read back -/

instance : Readable (fun _ => True) Error.listFields Error.read :=
  (reads_enum ErrorType.number Error.type) |>.append (reads_str Error.comment)
    |>.readable (fun m rs h => by
      simp only [both_eq_some] at h
      simp [Error.read, h])

instance : Readable Protocol.InRange Protocol.listFields Protocol.read :=
  (reads_int (.inl rfl) Protocol.version fun _ hm => hm)
    |>.readable (fun m rs h => by simp [Protocol.read, h])

instance : Readable (fun _ => True) AuthParameter.listFields AuthParameter.read :=
  reads_str AuthParameter.name |>.append (reads_str AuthParameter.value)
    |>.readable (fun m rs h => by
      simp only [both_eq_some] at h
      simp [AuthParameter.read, h])

instance : Readable (fun _ => True) KeyValue.listFields KeyValue.read :=
  reads_str KeyValue.key |>.append (reads_str KeyValue.value)
    |>.readable (fun m rs h => by
      simp only [both_eq_some] at h
      simp [KeyValue.read, h])

instance : Readable (fun _ => True) Make.listFields Make.read :=
  reads_str Make.share |>.append (reads_str Make.parentNode) |>.append (reads_str Make.name)
    |>.readable (fun m rs h => by
      simp only [both_eq_some] at h
      simp [Make.read, h])

instance : Readable (fun _ => True) New.listFields New.read :=
  reads_str New.node |>.append (reads_str New.parentNode) |>.append (reads_str New.name)
    |>.readable (fun m rs h => by
      simp only [both_eq_some] at h
      simp [New.read, h])

instance : Readable Root.InRange Root.listFields Root.read :=
  reads_str Root.node |>.append (reads_uint Root.generation fun _ hm => hm.generation)
    |>.append (reads_uint Root.freeBytes fun _ hm => hm.freeBytes)
    |>.readable (fun m rs h => by
      simp only [both_eq_some] at h
      simp [Root.read, h])

instance : Readable (fun _ => True) NodeState.listFields NodeState.read :=
  reads_str NodeState.share |>.append (reads_str NodeState.node)
    |>.append (reads_str NodeState.hash)
    |>.readable (fun m rs h => by
      simp only [both_eq_some] at h
      simp [NodeState.read, h])

instance : Readable GetContent.InRange GetContent.listFields GetContent.read :=
  reads_str GetContent.share |>.append (reads_str GetContent.node)
    |>.append (reads_str GetContent.hash)
    |>.append (reads_int (.inr rfl) GetContent.offset fun _ hm => hm)
    |>.readable (fun m rs h => by
      simp only [both_eq_some] at h
      simp [GetContent.read, h])

instance : Readable NodeAttr.InRange NodeAttr.listFields NodeAttr.read :=
  (reads_uint NodeAttr.deflatedSize fun _ hm => hm.deflatedSize)
    |>.append (reads_uint NodeAttr.size fun _ hm => hm.size) |>.append (reads_str NodeAttr.hash)
    |>.append (reads_uint NodeAttr.crc32 fun _ hm => hm.crc32)
    |>.readable (fun m rs h => by
      simp only [both_eq_some] at h
      simp [NodeAttr.read, h])

instance : Readable (fun _ => True) BytesMessage.listFields BytesMessage.read :=
  reads_blob BytesMessage.bytes
    |>.readable (fun m rs h => by simp [BytesMessage.read, h])

instance : Readable PutContent.InRange PutContent.listFields PutContent.read :=
  reads_str PutContent.share |>.append (reads_str PutContent.node)
    |>.append (reads_str PutContent.previousHash) |>.append (reads_str PutContent.hash)
    |>.append (reads_uint PutContent.crc32 fun _ hm => hm.crc32)
    |>.append (reads_uint PutContent.size fun _ hm => hm.size)
    |>.append (reads_uint PutContent.deflatedSize fun _ hm => hm.deflatedSize)
    |>.append (reads_str PutContent.uploadId) |>.append (reads_str PutContent.magicHash)
    |>.readable (fun m rs h => by
      simp only [both_eq_some] at h
      simp [PutContent.read, h])

instance : Readable BeginContent.InRange BeginContent.listFields BeginContent.read :=
  (reads_uint BeginContent.offset fun _ hm => hm) |>.append (reads_str BeginContent.uploadId)
    |>.readable (fun m rs h => by
      simp only [both_eq_some] at h
      simp [BeginContent.read, h])

instance : Readable (fun _ => True) Move.listFields Move.read :=
  reads_str Move.share |>.append (reads_str Move.node) |>.append (reads_str Move.newParentNode)
    |>.append (reads_str Move.newName)
    |>.readable (fun m rs h => by
      simp only [both_eq_some] at h
      simp [Move.read, h])

instance : Readable (fun _ => True) Unlink.listFields Unlink.read :=
  reads_str Unlink.share |>.append (reads_str Unlink.node)
    |>.readable (fun m rs h => by
      simp only [both_eq_some] at h
      simp [Unlink.read, h])

instance : Readable (fun _ => True) CreateShare.listFields CreateShare.read :=
  reads_str CreateShare.node |>.append (reads_str CreateShare.shareTo)
    |>.append (reads_str CreateShare.name)
    |>.append (reads_enum AccessLevel.number CreateShare.accessLevel)
    |>.readable (fun m rs h => by
      simp only [both_eq_some] at h
      simp [CreateShare.read, h])

instance : Readable Shares.InRange Shares.listFields Shares.read :=
  reads_str Shares.shareId
    |>.append (reads_enum Direction.number Shares.direction)
    |>.append (reads_str Shares.subtree) |>.append (reads_str Shares.shareName)
    |>.append (reads_str Shares.otherUsername) |>.append (reads_str Shares.otherVisibleName)
    |>.append (reads_bool Shares.accepted)
    |>.append (reads_enum AccessLevel.number Shares.accessLevel)
    |>.append (reads_uint Shares.generation fun _ hm => hm.generation)
    |>.append (reads_uint Shares.freeBytes fun _ hm => hm.freeBytes)
    |>.append (reads_str Shares.subtreeVolumeId)
    |>.readable (fun m rs h => by
      simp only [both_eq_some] at h
      simp [Shares.read, h])

instance : Readable (fun _ => True) NotifyShare.listFields NotifyShare.read :=
  reads_str NotifyShare.shareId |>.append (reads_str NotifyShare.subtree)
    |>.append (reads_str NotifyShare.shareName) |>.append (reads_str NotifyShare.fromUsername)
    |>.append (reads_str NotifyShare.fromVisibleName)
    |>.append (reads_enum AccessLevel.number NotifyShare.accessLevel)
    |>.readable (fun m rs h => by
      simp only [both_eq_some] at h
      simp [NotifyShare.read, h])

instance : Readable (fun _ => True) ShareAccepted.listFields ShareAccepted.read :=
  reads_str ShareAccepted.shareId
    |>.append (reads_enum Answer.number ShareAccepted.answer)
    |>.readable (fun m rs h => by
      simp only [both_eq_some] at h
      simp [ShareAccepted.read, h])

instance : Readable (fun _ => True) ShareId.listFields ShareId.read :=
  reads_str ShareId.shareId
    |>.readable (fun m rs h => by simp [ShareId.read, h])

instance : Readable (fun _ => True) CreateUDF.listFields CreateUDF.read :=
  reads_str CreateUDF.path |>.append (reads_str CreateUDF.name)
    |>.readable (fun m rs h => by
      simp only [both_eq_some] at h
      simp [CreateUDF.read, h])

instance : Readable UDFs.InRange UDFs.listFields UDFs.read :=
  reads_str UDFs.volume |>.append (reads_str UDFs.node) |>.append (reads_str UDFs.suggestedPath)
    |>.append (reads_uint UDFs.generation fun _ hm => hm.generation)
    |>.append (reads_uint UDFs.freeBytes fun _ hm => hm.freeBytes)
    |>.readable (fun m rs h => by
      simp only [both_eq_some] at h
      simp [UDFs.read, h])

instance : Readable (fun _ => True) VolumeId.listFields VolumeId.read :=
  reads_str VolumeId.volume
    |>.readable (fun m rs h => by simp [VolumeId.read, h])

instance : Readable Volumes.InRange Volumes.listFields Volumes.read :=
  (reads_enum VolumeType.number Volumes.type)
    |>.append (reads_sub Volumes.root fun _ hm => hm.root)
    |>.append (reads_sub Volumes.udf fun _ hm => hm.udf)
    |>.append (reads_sub Volumes.share fun _ hm => hm.share)
    |>.readable (fun m rs h => by
      simp only [both_eq_some] at h
      simp [Volumes.read, h])

instance : Readable VolumeNewGeneration.InRange VolumeNewGeneration.listFields
    VolumeNewGeneration.read :=
  reads_str VolumeNewGeneration.volume
    |>.append (reads_uint VolumeNewGeneration.generation fun _ hm => hm)
    |>.readable (fun m rs h => by
      simp only [both_eq_some] at h
      simp [VolumeNewGeneration.read, h])

instance : Readable (fun _ => True) Caps.listFields Caps.read :=
  reads_str Caps.capability
    |>.readable (fun m rs h => by simp [Caps.read, h])

instance : Readable (fun _ => True) AcceptCaps.listFields AcceptCaps.read :=
  reads_bool AcceptCaps.accepted |>.append (reads_str AcceptCaps.redirectHostname)
    |>.append (reads_str AcceptCaps.redirectPort)
    |>.append (reads_str AcceptCaps.redirectSrvrecord)
    |>.readable (fun m rs h => by
      simp only [both_eq_some] at h
      simp [AcceptCaps.read, h])

instance : Readable FreeSpaceInfo.InRange FreeSpaceInfo.listFields FreeSpaceInfo.read :=
  reads_str FreeSpaceInfo.shareId |>.append (reads_uint FreeSpaceInfo.freeBytes fun _ hm => hm)
    |>.readable (fun m rs h => by
      simp only [both_eq_some] at h
      simp [FreeSpaceInfo.read, h])

instance : Readable AccountInfo.InRange AccountInfo.listFields AccountInfo.read :=
  (reads_uint AccountInfo.purchasedBytes fun _ hm => hm)
    |>.readable (fun m rs h => by simp [AccountInfo.read, h])

instance : Readable GetDelta.InRange GetDelta.listFields GetDelta.read :=
  reads_str GetDelta.share |>.append (reads_uint GetDelta.fromGeneration fun _ hm => hm)
    |>.append (reads_bool GetDelta.fromScratch)
    |>.readable (fun m rs h => by
      simp only [both_eq_some] at h
      simp [GetDelta.read, h])

instance : Readable FileInfo.InRange FileInfo.listFields FileInfo.read :=
  (reads_enum FileType.number FileInfo.type)
    |>.append (reads_str FileInfo.parent) |>.append (reads_str FileInfo.share)
    |>.append (reads_str FileInfo.node) |>.append (reads_str FileInfo.name)
    |>.append (reads_bool FileInfo.isPublic) |>.append (reads_str FileInfo.contentHash)
    |>.append (reads_uint FileInfo.crc32 fun _ hm => hm.crc32)
    |>.append (reads_uint FileInfo.size fun _ hm => hm.size)
    |>.append (reads_uint FileInfo.lastModified fun _ hm => hm.lastModified)
    |>.readable (fun m rs h => by
      simp only [both_eq_some] at h
      simp [FileInfo.read, h])

instance : Readable DeltaInfo.InRange DeltaInfo.listFields DeltaInfo.read :=
  (reads_uint DeltaInfo.generation fun _ hm => hm.generation)
    |>.append (reads_bool DeltaInfo.isLive)
    |>.append (reads_enum DeltaInfoType.number DeltaInfo.type)
    |>.append (reads_sub DeltaInfo.fileInfo fun _ hm => hm.fileInfo)
    |>.readable (fun m rs h => by
      simp only [both_eq_some] at h
      simp [DeltaInfo.read, h])

instance : Readable DeltaEnd.InRange DeltaEnd.listFields DeltaEnd.read :=
  (reads_uint DeltaEnd.generation fun _ hm => hm.generation) |>.append (reads_bool DeltaEnd.full)
    |>.append (reads_uint DeltaEnd.freeBytes fun _ hm => hm.freeBytes)
    |>.readable (fun m rs h => by
      simp only [both_eq_some] at h
      simp [DeltaEnd.read, h])

instance : Readable (fun _ => True) ChangePublicAccess.listFields ChangePublicAccess.read :=
  reads_str ChangePublicAccess.share |>.append (reads_str ChangePublicAccess.node)
    |>.append (reads_bool ChangePublicAccess.isPublic)
    |>.readable (fun m rs h => by
      simp only [both_eq_some] at h
      simp [ChangePublicAccess.read, h])

instance : Readable (fun _ => True) PublicFileInfo.listFields PublicFileInfo.read :=
  reads_str PublicFileInfo.share |>.append (reads_str PublicFileInfo.node)
    |>.append (reads_bool PublicFileInfo.isPublic) |>.append (reads_str PublicFileInfo.publicUrl)
    |>.readable (fun m rs h => by
      simp only [both_eq_some] at h
      simp [PublicFileInfo.read, h])

instance : Readable Message.InRange Message.listFields Message.read := by
  have hreads : Reads Message.InRange _ Message.listFields _ _ :=
    (Reads.getD (a := Message.id) 0 (reads_int (.inl rfl) _ fun m hm i hi =>
      Option.some.inj hi ▸ hm.id)).append <|
    (Reads.getD (a := Message.type) .noop (reads_enum MessageType.number _)).append <|
    (reads_sub Message.error fun _ _ _ _ => trivial).append <|
    (reads_sub Message.protocol fun _ hm => hm.protocol).append <|
    (reads_rep Message.authParameters fun _ _ _ _ => trivial).append <|
    (reads_sub Message.root fun _ hm => hm.root).append <|
    (reads_rep Message.query fun _ _ _ _ => trivial).append <|
    (reads_sub Message.nodeState fun _ _ _ _ => trivial).append <|
    (reads_sub Message.make fun _ _ _ _ => trivial).append <|
    (reads_sub Message.new fun _ _ _ _ => trivial).append <|
    (reads_sub Message.move fun _ _ _ _ => trivial).append <|
    (reads_sub Message.getContent fun _ hm => hm.getContent).append <|
    (reads_sub Message.putContent fun _ hm => hm.putContent).append <|
    (reads_sub Message.bytes fun _ _ _ _ => trivial).append <|
    (reads_sub Message.unlink fun _ _ _ _ => trivial).append <|
    (reads_sub Message.nodeAttr fun _ hm => hm.nodeAttr).append <|
    (reads_sub Message.createShare fun _ _ _ _ => trivial).append <|
    (reads_sub Message.shares fun _ hm => hm.shares).append <|
    (reads_sub Message.notifyShare fun _ _ _ _ => trivial).append <|
    (reads_sub Message.shareAccepted fun _ _ _ _ => trivial).append <|
    (reads_sub Message.shareDeleted fun _ _ _ _ => trivial).append <|
    (reads_sub Message.shareCreated fun _ _ _ _ => trivial).append <|
    (reads_sub Message.deleteShare fun _ _ _ _ => trivial).append <|
    (reads_rep Message.queryCaps fun _ _ _ _ => trivial).append <|
    (reads_rep Message.setCaps fun _ _ _ _ => trivial).append <|
    (reads_sub Message.acceptCaps fun _ _ _ _ => trivial).append <|
    (reads_sub Message.freeSpaceInfo fun _ hm => hm.freeSpaceInfo).append <|
    (reads_sub Message.freeSpaceInquiry fun _ _ _ _ => trivial).append <|
    (reads_sub Message.accountInfo fun _ hm => hm.accountInfo).append <|
    (reads_sub Message.beginContent fun _ hm => hm.beginContent).append <|
    (reads_sub Message.createUdf fun _ _ _ _ => trivial).append <|
    (reads_sub Message.listVolumes fun _ hm => hm.listVolumes).append <|
    (reads_sub Message.volumeDeleted fun _ _ _ _ => trivial).append <|
    (reads_sub Message.volumeCreated fun _ hm => hm.volumeCreated).append <|
    (reads_sub Message.deleteVolume fun _ _ _ _ => trivial).append <|
    (reads_sub Message.getDelta fun _ hm => hm.getDelta).append <|
    (reads_sub Message.deltaInfo fun _ hm => hm.deltaInfo).append <|
    (reads_sub Message.deltaEnd fun _ hm => hm.deltaEnd).append <|
    (reads_sub Message.volumeNewGeneration fun _ hm => hm.volumeNewGeneration).append <|
    (reads_str Message.sessionId).append <|
    (reads_uint Message.newGeneration fun _ hm => hm.newGeneration).append <|
    (reads_rep Message.metadata fun _ _ _ _ => trivial).append <|
    (reads_sub Message.changePublicAccess fun _ _ _ _ => trivial).append <|
    (reads_str Message.publicUrl).append <|
    (reads_sub Message.publicFileInfo fun _ _ _ _ => trivial).append <|
    reads_nil
  refine (hreads.absent 14 UploadInProgress.read |>.absent 17 CancelRequest.read).readable
    fun m rs h => ?_
  simp only [both_eq_some] at h
  simp [Message.read, h]

/-- **A message is parsed as what it was written from.** -/
lemma parse_serialize {m : Message} (hm : Message.InRange m) :
    parseFromString (serialize m) = some m := by
  have hr : Readable Message.InRange Message.listFields Message.read := inferInstance
  rw [parseFromString, serialize, records_encodeAll (hr.valid m) (hr.small m hm), Option.bind_some,
    hr.read m hm]

/-! ### What is parsed is in range -/

section

variable {number bits : ℕ} {rs : List Record}

lemma lt_of_readUint {o : Option ℕ} (h : readLast number (readUint bits) rs = some o) :
    ∀ n ∈ o, n < 2 ^ bits := by
  intro n hn
  obtain ⟨p, hp⟩ := mem_of_readLast h hn
  cases p with
  | varint k =>
    obtain rfl : k % 2 ^ bits = n := by simpa [readUint] using hp
    exact Nat.mod_lt _ (Nat.two_pow_pos bits)
  | delimited b => cases hp
  | fixed64 b => cases hp
  | fixed32 b => cases hp

lemma intOf_of_readInt (hbits : bits = 32 ∨ bits = 64) {p : Payload} {i : ℤ}
    (h : readInt bits p = some (some i)) : IntOf bits i := by
  cases p with
  | varint n =>
    obtain rfl : Int.bmod n (2 ^ bits) = i := by simpa [readInt] using h
    unfold IntOf
    rcases hbits with rfl | rfl <;>
    · rw [Int.bmod_def]
      split <;> omega
  | delimited b => cases h
  | fixed64 b => cases h
  | fixed32 b => cases h

end

/-- What is read of records is in `P`. -/
class Yields {α : Type} (P : outParam (α → Prop)) (read : List Record → Option α) : Prop where
  inRange : ∀ rs m, read rs = some m → P m

section

variable {number : ℕ} {rs : List Record} {α : Type} {P : α → Prop} {read : List Record → Option α}

lemma Yields.sub [hy : Yields P read] {o : Option α} (h : readSub number read rs = some o) :
    ∀ a ∈ o, P a := fun a ha =>
  let ⟨rs', hread⟩ := mem_of_readSub h ha
  hy.inRange rs' a hread

end

instance : Yields Protocol.InRange Protocol.read where
  inRange rs m h := by
    simp only [Protocol.read, Option.bind_eq_bind, Option.bind_eq_some_iff, Option.pure_def,
      Option.some.injEq] at h
    obtain ⟨version, hversion, rfl⟩ := h
    exact fun i hi =>
      let ⟨_, hp⟩ := mem_of_readLast hversion hi
      intOf_of_readInt (.inl rfl) hp

instance : Yields GetContent.InRange GetContent.read where
  inRange rs m h := by
    simp only [GetContent.read, Option.bind_eq_bind, Option.bind_eq_some_iff, Option.pure_def,
      Option.some.injEq] at h
    obtain ⟨share, -, node, -, hash, -, offset, hoffset, rfl⟩ := h
    exact fun i hi =>
      let ⟨_, hp⟩ := mem_of_readLast hoffset hi
      intOf_of_readInt (.inr rfl) hp

instance : Yields Root.InRange Root.read where
  inRange rs m h := by
    simp only [Root.read, Option.bind_eq_bind, Option.bind_eq_some_iff, Option.pure_def,
      Option.some.injEq] at h
    obtain ⟨node, -, generation, hgeneration, freeBytes, hfreeBytes, rfl⟩ := h
    exact ⟨lt_of_readUint hgeneration, lt_of_readUint hfreeBytes⟩

instance : Yields NodeAttr.InRange NodeAttr.read where
  inRange rs m h := by
    simp only [NodeAttr.read, Option.bind_eq_bind, Option.bind_eq_some_iff, Option.pure_def,
      Option.some.injEq] at h
    obtain ⟨deflatedSize, hdeflatedSize, size, hsize, hash, -, crc32, hcrc32, rfl⟩ := h
    exact ⟨lt_of_readUint hdeflatedSize, lt_of_readUint hsize, lt_of_readUint hcrc32⟩

instance : Yields PutContent.InRange PutContent.read where
  inRange rs m h := by
    simp only [PutContent.read, Option.bind_eq_bind, Option.bind_eq_some_iff, Option.pure_def,
      Option.some.injEq] at h
    obtain ⟨share, -, node, -, previousHash, -, hash, -, crc32, hcrc32, size, hsize,
      deflatedSize, hdeflatedSize, uploadId, -, magicHash, -, rfl⟩ := h
    exact ⟨lt_of_readUint hcrc32, lt_of_readUint hsize, lt_of_readUint hdeflatedSize⟩

instance : Yields BeginContent.InRange BeginContent.read where
  inRange rs m h := by
    simp only [BeginContent.read, Option.bind_eq_bind, Option.bind_eq_some_iff, Option.pure_def,
      Option.some.injEq] at h
    obtain ⟨offset, hoffset, uploadId, -, rfl⟩ := h
    exact lt_of_readUint hoffset

instance : Yields Shares.InRange Shares.read where
  inRange rs m h := by
    simp only [Shares.read, Option.bind_eq_bind, Option.bind_eq_some_iff, Option.pure_def,
      Option.some.injEq] at h
    obtain ⟨shareId, -, direction, -, subtree, -, shareName, -, otherUsername, -,
      otherVisibleName, -, accepted, -, accessLevel, -, generation, hgeneration,
      freeBytes, hfreeBytes, subtreeVolumeId, -, rfl⟩ := h
    exact ⟨lt_of_readUint hgeneration, lt_of_readUint hfreeBytes⟩

instance : Yields UDFs.InRange UDFs.read where
  inRange rs m h := by
    simp only [UDFs.read, Option.bind_eq_bind, Option.bind_eq_some_iff, Option.pure_def,
      Option.some.injEq] at h
    obtain ⟨volume, -, node, -, suggestedPath, -, generation, hgeneration, freeBytes, hfreeBytes,
      rfl⟩ := h
    exact ⟨lt_of_readUint hgeneration, lt_of_readUint hfreeBytes⟩

instance : Yields VolumeNewGeneration.InRange VolumeNewGeneration.read where
  inRange rs m h := by
    simp only [VolumeNewGeneration.read, Option.bind_eq_bind, Option.bind_eq_some_iff,
      Option.pure_def, Option.some.injEq] at h
    obtain ⟨volume, -, generation, hgeneration, rfl⟩ := h
    exact lt_of_readUint hgeneration

instance : Yields FreeSpaceInfo.InRange FreeSpaceInfo.read where
  inRange rs m h := by
    simp only [FreeSpaceInfo.read, Option.bind_eq_bind, Option.bind_eq_some_iff, Option.pure_def,
      Option.some.injEq] at h
    obtain ⟨shareId, -, freeBytes, hfreeBytes, rfl⟩ := h
    exact lt_of_readUint hfreeBytes

instance : Yields AccountInfo.InRange AccountInfo.read where
  inRange rs m h := by
    simp only [AccountInfo.read, Option.bind_eq_bind, Option.bind_eq_some_iff, Option.pure_def,
      Option.some.injEq] at h
    obtain ⟨purchasedBytes, hpurchasedBytes, rfl⟩ := h
    exact lt_of_readUint hpurchasedBytes

instance : Yields GetDelta.InRange GetDelta.read where
  inRange rs m h := by
    simp only [GetDelta.read, Option.bind_eq_bind, Option.bind_eq_some_iff, Option.pure_def,
      Option.some.injEq] at h
    obtain ⟨share, -, fromGeneration, hfromGeneration, fromScratch, -, rfl⟩ := h
    exact lt_of_readUint hfromGeneration

instance : Yields FileInfo.InRange FileInfo.read where
  inRange rs m h := by
    simp only [FileInfo.read, Option.bind_eq_bind, Option.bind_eq_some_iff, Option.pure_def,
      Option.some.injEq] at h
    obtain ⟨type, -, parent, -, share, -, node, -, name, -, isPublic, -, contentHash, -,
      crc32, hcrc32, size, hsize, lastModified, hlastModified, rfl⟩ := h
    exact ⟨lt_of_readUint hcrc32, lt_of_readUint hsize, lt_of_readUint hlastModified⟩

instance : Yields DeltaEnd.InRange DeltaEnd.read where
  inRange rs m h := by
    simp only [DeltaEnd.read, Option.bind_eq_bind, Option.bind_eq_some_iff, Option.pure_def,
      Option.some.injEq] at h
    obtain ⟨generation, hgeneration, full, -, freeBytes, hfreeBytes, rfl⟩ := h
    exact ⟨lt_of_readUint hgeneration, lt_of_readUint hfreeBytes⟩

instance : Yields Volumes.InRange Volumes.read where
  inRange rs m h := by
    simp only [Volumes.read, Option.bind_eq_bind, Option.bind_eq_some_iff, Option.pure_def,
      Option.some.injEq] at h
    obtain ⟨type, -, root, hroot, udf, hudf, share, hshare, rfl⟩ := h
    exact ⟨Yields.sub hroot, Yields.sub hudf, Yields.sub hshare⟩

instance : Yields DeltaInfo.InRange DeltaInfo.read where
  inRange rs m h := by
    simp only [DeltaInfo.read, Option.bind_eq_bind, Option.bind_eq_some_iff, Option.pure_def,
      Option.some.injEq] at h
    obtain ⟨generation, hgeneration, isLive, -, type, -, fileInfo, hfileInfo, rfl⟩ := h
    exact ⟨lt_of_readUint hgeneration, Yields.sub hfileInfo⟩

instance : Yields Message.InRange Message.read where
  inRange rs m h := by
    unfold Message.read at h
    obtain ⟨id, hid, h⟩ := Option.bind_eq_some_iff.mp h
    obtain ⟨type, -, h⟩ := Option.bind_eq_some_iff.mp h
    obtain ⟨error, -, h⟩ := Option.bind_eq_some_iff.mp h
    obtain ⟨protocol, hprotocol, h⟩ := Option.bind_eq_some_iff.mp h
    obtain ⟨authParameters, -, h⟩ := Option.bind_eq_some_iff.mp h
    obtain ⟨root, hroot, h⟩ := Option.bind_eq_some_iff.mp h
    obtain ⟨query, -, h⟩ := Option.bind_eq_some_iff.mp h
    obtain ⟨nodeState, -, h⟩ := Option.bind_eq_some_iff.mp h
    obtain ⟨make, -, h⟩ := Option.bind_eq_some_iff.mp h
    obtain ⟨new, -, h⟩ := Option.bind_eq_some_iff.mp h
    obtain ⟨move, -, h⟩ := Option.bind_eq_some_iff.mp h
    obtain ⟨getContent, hgetContent, h⟩ := Option.bind_eq_some_iff.mp h
    obtain ⟨putContent, hputContent, h⟩ := Option.bind_eq_some_iff.mp h
    obtain ⟨-, -, h⟩ := Option.bind_eq_some_iff.mp h
    obtain ⟨bytes, -, h⟩ := Option.bind_eq_some_iff.mp h
    obtain ⟨unlink, -, h⟩ := Option.bind_eq_some_iff.mp h
    obtain ⟨-, -, h⟩ := Option.bind_eq_some_iff.mp h
    obtain ⟨nodeAttr, hnodeAttr, h⟩ := Option.bind_eq_some_iff.mp h
    obtain ⟨createShare, -, h⟩ := Option.bind_eq_some_iff.mp h
    obtain ⟨shares, hshares, h⟩ := Option.bind_eq_some_iff.mp h
    obtain ⟨notifyShare, -, h⟩ := Option.bind_eq_some_iff.mp h
    obtain ⟨shareAccepted, -, h⟩ := Option.bind_eq_some_iff.mp h
    obtain ⟨shareDeleted, -, h⟩ := Option.bind_eq_some_iff.mp h
    obtain ⟨shareCreated, -, h⟩ := Option.bind_eq_some_iff.mp h
    obtain ⟨deleteShare, -, h⟩ := Option.bind_eq_some_iff.mp h
    obtain ⟨queryCaps, -, h⟩ := Option.bind_eq_some_iff.mp h
    obtain ⟨setCaps, -, h⟩ := Option.bind_eq_some_iff.mp h
    obtain ⟨acceptCaps, -, h⟩ := Option.bind_eq_some_iff.mp h
    obtain ⟨freeSpaceInfo, hfreeSpaceInfo, h⟩ := Option.bind_eq_some_iff.mp h
    obtain ⟨freeSpaceInquiry, -, h⟩ := Option.bind_eq_some_iff.mp h
    obtain ⟨accountInfo, haccountInfo, h⟩ := Option.bind_eq_some_iff.mp h
    obtain ⟨beginContent, hbeginContent, h⟩ := Option.bind_eq_some_iff.mp h
    obtain ⟨createUdf, -, h⟩ := Option.bind_eq_some_iff.mp h
    obtain ⟨listVolumes, hlistVolumes, h⟩ := Option.bind_eq_some_iff.mp h
    obtain ⟨volumeDeleted, -, h⟩ := Option.bind_eq_some_iff.mp h
    obtain ⟨volumeCreated, hvolumeCreated, h⟩ := Option.bind_eq_some_iff.mp h
    obtain ⟨deleteVolume, -, h⟩ := Option.bind_eq_some_iff.mp h
    obtain ⟨getDelta, hgetDelta, h⟩ := Option.bind_eq_some_iff.mp h
    obtain ⟨deltaInfo, hdeltaInfo, h⟩ := Option.bind_eq_some_iff.mp h
    obtain ⟨deltaEnd, hdeltaEnd, h⟩ := Option.bind_eq_some_iff.mp h
    obtain ⟨volumeNewGeneration, hvolumeNewGeneration, h⟩ := Option.bind_eq_some_iff.mp h
    obtain ⟨sessionId, -, h⟩ := Option.bind_eq_some_iff.mp h
    obtain ⟨newGeneration, hnewGeneration, h⟩ := Option.bind_eq_some_iff.mp h
    obtain ⟨metadata, -, h⟩ := Option.bind_eq_some_iff.mp h
    obtain ⟨changePublicAccess, -, h⟩ := Option.bind_eq_some_iff.mp h
    obtain ⟨publicUrl, -, h⟩ := Option.bind_eq_some_iff.mp h
    obtain ⟨publicFileInfo, -, h⟩ := Option.bind_eq_some_iff.mp h
    obtain rfl := Option.some.inj h
    have hid' : IntOf 32 id := by
      rcases mem_of_readDefault hid with rfl | ⟨p, hp⟩
      · exact ⟨by decide, by decide⟩
      · exact intOf_of_readInt (.inl rfl) hp
    exact ⟨hid', Yields.sub hprotocol, Yields.sub hroot, Yields.sub hgetContent,
      Yields.sub hputContent, Yields.sub hnodeAttr, Yields.sub hshares, Yields.sub hfreeSpaceInfo,
      Yields.sub haccountInfo, Yields.sub hbeginContent, Yields.sub hlistVolumes,
      Yields.sub hvolumeCreated, Yields.sub hgetDelta, Yields.sub hdeltaInfo,
      Yields.sub hdeltaEnd, Yields.sub hvolumeNewGeneration, lt_of_readUint hnewGeneration⟩

lemma inRange_of_parse {b : Bytes} {m : Message} (h : parseFromString b = some m) :
    Message.InRange m := by
  obtain ⟨rs, -, hread⟩ := Option.bind_eq_some_iff.mp h
  exact Yields.inRange rs m hread

/-- A message whose numbers are in range and whose required fields are set. -/
structure Message.Proper (m : Message) : Prop where
  inRange : Message.InRange m
  isInitialized : Message.isInitialized m = true

/-- **Parsing and serialising agree**: a message comes back from what it is serialised to if and
only if its numbers are in range and its required fields are set. Bytes are parsed as any message
whose numbers are in range, and as no other. -/
theorem parse_serialize_iff (m : Message) :
    ((∃ b, serializeToString m = some b ∧ parseFromString b = some m) ↔ Message.Proper m) ∧
    ((∃ b, parseFromString b = some m) ↔ Message.InRange m) := by
  refine ⟨⟨?_, fun h => ⟨serialize m, if_pos h.isInitialized, parse_serialize h.inRange⟩⟩,
    ⟨fun ⟨_, h⟩ => inRange_of_parse h, fun h => ⟨serialize m, parse_serialize h⟩⟩⟩
  rintro ⟨b, hb, hparse⟩
  refine ⟨inRange_of_parse hparse, ?_⟩
  by_contra hinit
  rw [serializeToString, if_neg hinit] at hb
  cases hb

/-- Neither the id nor the required field of an error needs to be there. -/
example : parseFromString [16, 1, 26, 0] = some { type := .error, error := some {} } := by
  decide +kernel

/-- A group is passed over, and a varint of eleven bytes is not parsed. -/
example : parseFromString [8, 2, 163, 6, 8, 1, 164, 6] = some { id := 2, type := .noop } ∧
    parseFromString (8 :: List.replicate 10 128 ++ [0]) = none := by
  decide +kernel

end Magicicada.Fields
