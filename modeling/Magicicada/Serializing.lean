import Magicicada.Fields
import Magicicada.WireShows

/-!
`SerializeToString` writes no two messages alike. What is shown of each kind of message is an
instance, and a message with others in it rests on the instances for these.
-/

namespace Magicicada.Fields

open Pb Wire

/-! ### Enumerations -/

/-- Numbers are distinct when each value is the first one found by its number. -/
lemma injective_of_find {β : Type} {num : β → ℕ} (all : List β)
    (h : ∀ b, all.find? (fun a => num a = num b) = some b) : Function.Injective num := by
  intro b b' heq
  have hb := h b
  rw [heq, h b', Option.some_inj] at hb
  exact hb.symm

lemma messageType_number : Function.Injective MessageType.number :=
  injective_of_find ((List.range 59).map MessageType.ofNat) fun t => by cases t <;> rfl

lemma errorType_number : Function.Injective ErrorType.number :=
  injective_of_find ((List.range 19).map ErrorType.ofNat) fun t => by cases t <;> rfl

lemma accessLevel_number : Function.Injective AccessLevel.number :=
  injective_of_find [.view, .modify] fun t => by cases t <;> rfl

lemma direction_number : Function.Injective Direction.number :=
  injective_of_find [.toMe, .fromMe] fun t => by cases t <;> rfl

lemma answer_number : Function.Injective Answer.number :=
  injective_of_find [.yes, .no] fun t => by cases t <;> rfl

lemma volumeType_number : Function.Injective VolumeType.number :=
  injective_of_find [.root, .share, .udf] fun t => by cases t <;> rfl

lemma deltaInfoType_number : Function.Injective DeltaInfoType.number :=
  injective_of_find [.fileInfo] fun t => by cases t; rfl

lemma fileType_number : Function.Injective FileType.number :=
  injective_of_find [.directory, .file, .symlink] fun t => by cases t <;> rfl

lemma bool_number : Function.Injective Bool.toNat :=
  injective_of_find [false, true] fun t => by cases t <;> rfl

/-! ### What a field shows -/

variable {μ α β : Type} {P : μ → Prop}

/-- An `int64`, in which every `int32` is. -/
def Int64 (i : ℤ) : Prop := -2 ^ 63 ≤ i ∧ i < 2 ^ 63

lemma ofInt_inj {i j : ℤ} (hi : Int64 i) (hj : Int64 j) (h : ofInt i = ofInt j) : i = j := by
  obtain ⟨hi, hi'⟩ := hi
  obtain ⟨hj, hj'⟩ := hj
  unfold ofInt at h
  omega

/-- What a field of a scalar shows, for scalars that are written differently. -/
lemma shows_scalar {v : α → Scalar} {Q : α → Prop}
    (hinj : ∀ a a', Q a → Q a' → (v a).payload = (v a').payload → a = a') {name : String}
    {number : ℕ} (o : μ → Option α) (hQ : ∀ m, P m → ∀ a ∈ o m, Q a) :
    Shows P [number] (fun m => (o m).toList.map fun a => .scalar name number (v a)) o := by
  have hsized : ∀ a, (v a).payload.Sized := fun a => by cases v a <;> trivial
  exact .of_toList (shows_each (fun a => Tree.records_scalar name number (v a)) hsized hinj _
    fun m hm a ha => hQ m hm a (Option.mem_toList.mp ha))

lemma shows_str {name : String} {number : ℕ} (o : μ → Option String) :
    Shows P [number] (fun m => strField name number (o m)) o :=
  shows_scalar (v := .str) (Q := fun _ => True)
    (fun _ _ _ _ h => utf8_injective (Payload.delimited.inj h)) o
    fun _ _ _ _ => trivial

lemma shows_bytes {name : String} {number : ℕ} (o : μ → Option Bytes) :
    Shows P [number] (fun m => bytesField name number (o m)) o :=
  shows_scalar (v := .bytes) (Q := fun _ => True) (fun _ _ _ _ h => Payload.delimited.inj h) o
    fun _ _ _ _ => trivial

lemma shows_num (num : α → ℕ) {Q : α → Prop}
    (hnum : ∀ a a', Q a → Q a' → num a = num a' → a = a') {name : String} {number : ℕ}
    (o : μ → Option α) (hQ : ∀ m, P m → ∀ a ∈ o m, Q a) :
    Shows P [number] (fun m => uintField name number ((o m).map num)) o := by
  have hfield : (fun m => uintField name number ((o m).map num)) =
      fun m => (o m).toList.map fun a => .scalar name number (.varint (num a)) := by
    funext m
    cases o m <;> rfl
  rw [hfield]
  exact shows_scalar (v := fun a => .varint (num a))
    (fun a a' ha ha' h => hnum a a' ha ha' (Payload.varint.inj h)) o hQ

lemma shows_enum {num : α → ℕ} (hnum : Function.Injective num) {name : String} {number : ℕ}
    (o : μ → Option α) : Shows P [number] (fun m => uintField name number ((o m).map num)) o :=
  shows_num num (Q := fun _ => True) (fun _ _ _ _ h => hnum h) o
    fun _ _ _ _ => trivial

lemma shows_uint {name : String} {number : ℕ} (o : μ → Option ℕ) :
    Shows P [number] (fun m => uintField name number (o m)) o := by
  simpa using shows_enum (P := P) Function.injective_id o

lemma shows_bool {name : String} {number : ℕ} (o : μ → Option Bool) :
    Shows P [number] (fun m => boolField name number (o m)) o :=
  shows_enum bool_number o

lemma shows_int {name : String} {number : ℕ} (o : μ → Option ℤ)
    (hQ : ∀ m, P m → ∀ i ∈ o m, Int64 i) :
    Shows P [number] (fun m => intField name number (o m)) o :=
  shows_num ofInt (fun _ _ hi hj h => ofInt_inj hi hj h) o hQ

variable {f : α → List Tree} {Q : α → Prop}

/-- A sub-message shows what its bytes show. -/
lemma shows_messages [hf : Faithful Q f] (name : String) (number : ℕ) (l : μ → List α)
    (hQ : ∀ m, P m → ∀ a ∈ l m, Q a) :
    Shows P [number] (fun m => (l m).map fun a => .message name number (f a)) l :=
  shows_each (fun a => Tree.records_message name number (f a)) (fun _ => trivial)
    (fun a a' ha ha' h => hf.inj a a' ha ha' (Payload.delimited.inj h)) l hQ

lemma shows_sub_of [Faithful Q f] {name : String} {number : ℕ} (o : μ → Option α)
    (hQ : ∀ m, P m → ∀ a ∈ o m, Q a) : Shows P [number] (fun m => subField name number f (o m)) o :=
  .of_toList (shows_messages name number (fun m => (o m).toList) fun m hm a ha =>
    hQ m hm a (Option.mem_toList.mp ha))

lemma shows_sub [Faithful (fun _ => True) f] {name : String} {number : ℕ}
    (o : μ → Option α) : Shows P [number] (fun m => subField name number f (o m)) o :=
  shows_sub_of o fun _ _ _ _ => trivial

lemma recordsAll_repField (name : String) (number : ℕ) (f : α → List Tree) (l : List α) :
    recordsAll (repField name number f l) =
      recordsAll (l.map fun a => .message name number (f a)) := by
  unfold repField
  split
  · next hnil => rw [hnil, List.map_nil]
  · rw [recordsAll_cons, recordsAll_nil, List.append_nil, Tree.records_repeated]

lemma shows_rep [Faithful (fun _ => True) f] {name : String} {number : ℕ}
    (l : μ → List α) : Shows P [number] (fun m => repField name number f (l m)) l := by
  have h : Shows P [number] (fun m => (l m).map fun a => .message name number (f a)) l :=
    shows_messages (Q := fun _ => True) name number l fun _ _ _ _ => trivial
  have hrecords := fun m => recordsAll_repField name number f (l m)
  exact ⟨fun m => hrecords m ▸ h.number m, fun m => hrecords m ▸ h.sized m,
    fun m m' hm hm' heq => h.inj m m' hm hm' (by rw [← hrecords, ← hrecords, heq])⟩

/-! ### The messages in a message -/

/-- The signed fields are in range. -/
def Protocol.Typed (m : Protocol) : Prop := ∀ i ∈ m.version, Int64 i

def GetContent.Typed (m : GetContent) : Prop := ∀ i ∈ m.offset, Int64 i

instance : Faithful (fun _ => True) Error.listFields :=
  shows_enum errorType_number Error.type |>.append (shows_str Error.comment) |>.faithful
    (by rintro ⟨⟩ ⟨⟩ h; simpa using h)

instance : Faithful Protocol.Typed Protocol.listFields :=
  (shows_int Protocol.version fun _ hm => hm) |>.faithful (by rintro ⟨⟩ ⟨⟩ h; simpa using h)

instance : Faithful (fun _ => True) AuthParameter.listFields :=
  shows_str AuthParameter.name |>.append (shows_str AuthParameter.value) |>.faithful
    (by rintro ⟨⟩ ⟨⟩ h; simpa using h)

instance : Faithful (fun _ => True) KeyValue.listFields :=
  shows_str KeyValue.key |>.append (shows_str KeyValue.value) |>.faithful
    (by rintro ⟨⟩ ⟨⟩ h; simpa using h)

instance : Faithful (fun _ => True) Make.listFields :=
  shows_str Make.share |>.append (shows_str Make.parentNode) |>.append (shows_str Make.name)
    |>.faithful (by rintro ⟨⟩ ⟨⟩ h; simpa [and_assoc] using h)

instance : Faithful (fun _ => True) New.listFields :=
  shows_str New.node |>.append (shows_str New.parentNode) |>.append (shows_str New.name) |>.faithful
    (by rintro ⟨⟩ ⟨⟩ h; simpa [and_assoc] using h)

instance : Faithful (fun _ => True) Root.listFields :=
  shows_str Root.node |>.append (shows_uint Root.generation) |>.append (shows_uint Root.freeBytes)
    |>.faithful (by rintro ⟨⟩ ⟨⟩ h; simpa [and_assoc] using h)

instance : Faithful (fun _ => True) NodeState.listFields :=
  shows_str NodeState.share |>.append (shows_str NodeState.node)
    |>.append (shows_str NodeState.hash) |>.faithful (by rintro ⟨⟩ ⟨⟩ h; simpa [and_assoc] using h)

instance : Faithful GetContent.Typed GetContent.listFields :=
  shows_str GetContent.share |>.append (shows_str GetContent.node)
    |>.append (shows_str GetContent.hash) |>.append (shows_int GetContent.offset fun _ hm => hm)
    |>.faithful (by rintro ⟨⟩ ⟨⟩ h; simpa [and_assoc] using h)

instance : Faithful (fun _ => True) NodeAttr.listFields :=
  shows_uint NodeAttr.deflatedSize |>.append (shows_uint NodeAttr.size)
    |>.append (shows_str NodeAttr.hash) |>.append (shows_uint NodeAttr.crc32) |>.faithful
    (by rintro ⟨⟩ ⟨⟩ h; simpa [and_assoc] using h)

instance : Faithful (fun _ => True) BytesMessage.listFields :=
  shows_bytes BytesMessage.bytes |>.faithful (by rintro ⟨⟩ ⟨⟩ h; simpa using h)

instance : Faithful (fun _ => True) PutContent.listFields :=
  shows_str PutContent.share |>.append (shows_str PutContent.node)
    |>.append (shows_str PutContent.previousHash) |>.append (shows_str PutContent.hash)
    |>.append (shows_uint PutContent.crc32) |>.append (shows_uint PutContent.size)
    |>.append (shows_uint PutContent.deflatedSize) |>.append (shows_str PutContent.uploadId)
    |>.append (shows_str PutContent.magicHash) |>.faithful
    (by rintro ⟨⟩ ⟨⟩ h; simpa [and_assoc] using h)

instance : Faithful (fun _ => True) BeginContent.listFields :=
  shows_uint BeginContent.offset |>.append (shows_str BeginContent.uploadId) |>.faithful
    (by rintro ⟨⟩ ⟨⟩ h; simpa using h)

instance : Faithful (fun _ => True) Move.listFields :=
  shows_str Move.share |>.append (shows_str Move.node) |>.append (shows_str Move.newParentNode)
    |>.append (shows_str Move.newName) |>.faithful (by rintro ⟨⟩ ⟨⟩ h; simpa [and_assoc] using h)

instance : Faithful (fun _ => True) Unlink.listFields :=
  shows_str Unlink.share |>.append (shows_str Unlink.node) |>.faithful
    (by rintro ⟨⟩ ⟨⟩ h; simpa using h)

instance : Faithful (fun _ => True) CreateShare.listFields :=
  shows_str CreateShare.node |>.append (shows_str CreateShare.shareTo)
    |>.append (shows_str CreateShare.name)
    |>.append (shows_enum accessLevel_number CreateShare.accessLevel) |>.faithful
    (by rintro ⟨⟩ ⟨⟩ h; simpa [and_assoc] using h)

instance : Faithful (fun _ => True) Shares.listFields :=
  shows_str Shares.shareId |>.append (shows_enum direction_number Shares.direction)
    |>.append (shows_str Shares.subtree) |>.append (shows_str Shares.shareName)
    |>.append (shows_str Shares.otherUsername) |>.append (shows_str Shares.otherVisibleName)
    |>.append (shows_bool Shares.accepted)
    |>.append (shows_enum accessLevel_number Shares.accessLevel)
    |>.append (shows_uint Shares.generation) |>.append (shows_uint Shares.freeBytes)
    |>.append (shows_str Shares.subtreeVolumeId) |>.faithful
    (by rintro ⟨⟩ ⟨⟩ h; simpa [and_assoc] using h)

instance : Faithful (fun _ => True) NotifyShare.listFields :=
  shows_str NotifyShare.shareId |>.append (shows_str NotifyShare.subtree)
    |>.append (shows_str NotifyShare.shareName) |>.append (shows_str NotifyShare.fromUsername)
    |>.append (shows_str NotifyShare.fromVisibleName)
    |>.append (shows_enum accessLevel_number NotifyShare.accessLevel) |>.faithful
    (by rintro ⟨⟩ ⟨⟩ h; simpa [and_assoc] using h)

instance : Faithful (fun _ => True) ShareAccepted.listFields :=
  shows_str ShareAccepted.shareId |>.append (shows_enum answer_number ShareAccepted.answer)
    |>.faithful (by rintro ⟨⟩ ⟨⟩ h; simpa using h)

instance : Faithful (fun _ => True) ShareId.listFields :=
  shows_str ShareId.shareId |>.faithful (by rintro ⟨⟩ ⟨⟩ h; simpa using h)

instance : Faithful (fun _ => True) CreateUDF.listFields :=
  shows_str CreateUDF.path |>.append (shows_str CreateUDF.name) |>.faithful
    (by rintro ⟨⟩ ⟨⟩ h; simpa using h)

instance : Faithful (fun _ => True) UDFs.listFields :=
  shows_str UDFs.volume |>.append (shows_str UDFs.node) |>.append (shows_str UDFs.suggestedPath)
    |>.append (shows_uint UDFs.generation) |>.append (shows_uint UDFs.freeBytes) |>.faithful
    (by rintro ⟨⟩ ⟨⟩ h; simpa [and_assoc] using h)

instance : Faithful (fun _ => True) VolumeId.listFields :=
  shows_str VolumeId.volume |>.faithful (by rintro ⟨⟩ ⟨⟩ h; simpa using h)

instance : Faithful (fun _ => True) Volumes.listFields :=
  shows_enum volumeType_number Volumes.type |>.append (shows_sub Volumes.root)
    |>.append (shows_sub Volumes.udf)
    |>.append (shows_sub Volumes.share) |>.faithful
    (by rintro ⟨⟩ ⟨⟩ h; simpa [and_assoc] using h)

instance : Faithful (fun _ => True) VolumeNewGeneration.listFields :=
  shows_str VolumeNewGeneration.volume |>.append (shows_uint VolumeNewGeneration.generation)
    |>.faithful (by rintro ⟨⟩ ⟨⟩ h; simpa using h)

instance : Faithful (fun _ => True) Caps.listFields :=
  shows_str Caps.capability |>.faithful (by rintro ⟨⟩ ⟨⟩ h; simpa using h)

instance : Faithful (fun _ => True) AcceptCaps.listFields :=
  shows_bool AcceptCaps.accepted |>.append (shows_str AcceptCaps.redirectHostname)
    |>.append (shows_str AcceptCaps.redirectPort) |>.append (shows_str AcceptCaps.redirectSrvrecord)
    |>.faithful (by rintro ⟨⟩ ⟨⟩ h; simpa [and_assoc] using h)

instance : Faithful (fun _ => True) FreeSpaceInfo.listFields :=
  shows_str FreeSpaceInfo.shareId |>.append (shows_uint FreeSpaceInfo.freeBytes) |>.faithful
    (by rintro ⟨⟩ ⟨⟩ h; simpa using h)

instance : Faithful (fun _ => True) AccountInfo.listFields :=
  shows_uint AccountInfo.purchasedBytes |>.faithful (by rintro ⟨⟩ ⟨⟩ h; simpa using h)

instance : Faithful (fun _ => True) GetDelta.listFields :=
  shows_str GetDelta.share |>.append (shows_uint GetDelta.fromGeneration)
    |>.append (shows_bool GetDelta.fromScratch) |>.faithful
    (by rintro ⟨⟩ ⟨⟩ h; simpa [and_assoc] using h)

instance : Faithful (fun _ => True) FileInfo.listFields :=
  shows_enum fileType_number FileInfo.type |>.append (shows_str FileInfo.parent)
    |>.append (shows_str FileInfo.share) |>.append (shows_str FileInfo.node)
    |>.append (shows_str FileInfo.name) |>.append (shows_bool FileInfo.isPublic)
    |>.append (shows_str FileInfo.contentHash) |>.append (shows_uint FileInfo.crc32)
    |>.append (shows_uint FileInfo.size) |>.append (shows_uint FileInfo.lastModified) |>.faithful
    (by rintro ⟨⟩ ⟨⟩ h; simpa [and_assoc] using h)

instance : Faithful (fun _ => True) DeltaInfo.listFields :=
  shows_uint DeltaInfo.generation |>.append (shows_bool DeltaInfo.isLive)
    |>.append (shows_enum deltaInfoType_number DeltaInfo.type)
    |>.append (shows_sub DeltaInfo.fileInfo) |>.faithful
    (by rintro ⟨⟩ ⟨⟩ h; simpa [and_assoc] using h)

instance : Faithful (fun _ => True) DeltaEnd.listFields :=
  shows_uint DeltaEnd.generation |>.append (shows_bool DeltaEnd.full)
    |>.append (shows_uint DeltaEnd.freeBytes) |>.faithful
    (by rintro ⟨⟩ ⟨⟩ h; simpa [and_assoc] using h)

instance : Faithful (fun _ => True) ChangePublicAccess.listFields :=
  shows_str ChangePublicAccess.share |>.append (shows_str ChangePublicAccess.node)
    |>.append (shows_bool ChangePublicAccess.isPublic) |>.faithful
    (by rintro ⟨⟩ ⟨⟩ h; simpa [and_assoc] using h)

instance : Faithful (fun _ => True) PublicFileInfo.listFields :=
  shows_str PublicFileInfo.share |>.append (shows_str PublicFileInfo.node)
    |>.append (shows_bool PublicFileInfo.isPublic) |>.append (shows_str PublicFileInfo.publicUrl)
    |>.faithful (by rintro ⟨⟩ ⟨⟩ h; simpa [and_assoc] using h)

/-- The signed fields of a message and of those in it are in range. -/
structure Message.Typed (m : Message) : Prop where
  id : Int64 m.id
  protocol : ∀ p ∈ m.protocol, Protocol.Typed p
  getContent : ∀ g ∈ m.getContent, GetContent.Typed g

instance : Faithful Message.Typed Message.listFields := by
  have hshows : Shows Message.Typed _ Message.listFields _ :=
    (shows_int (fun m => some m.id) fun m hm i hi => by cases hi; exact hm.id).append <|
    (shows_enum messageType_number fun m => some m.type).append <|
    (shows_sub Message.error).append <|
    (shows_sub_of Message.protocol fun _ hm => hm.protocol).append <|
    (shows_rep Message.authParameters).append <|
    (shows_sub Message.root).append <|
    (shows_rep Message.query).append <|
    (shows_sub Message.nodeState).append <|
    (shows_sub Message.make).append <| (shows_sub Message.new).append <|
    (shows_sub Message.move).append <|
    (shows_sub_of Message.getContent fun _ hm => hm.getContent).append <|
    (shows_sub Message.putContent).append <|
    (shows_sub Message.bytes).append <|
    (shows_sub Message.unlink).append <|
    (shows_sub Message.nodeAttr).append <|
    (shows_sub Message.createShare).append <|
    (shows_sub Message.shares).append <|
    (shows_sub Message.notifyShare).append <|
    (shows_sub Message.shareAccepted).append <|
    (shows_sub Message.shareDeleted).append <|
    (shows_sub Message.shareCreated).append <|
    (shows_sub Message.deleteShare).append <|
    (shows_rep Message.queryCaps).append <|
    (shows_rep Message.setCaps).append <|
    (shows_sub Message.acceptCaps).append <|
    (shows_sub Message.freeSpaceInfo).append <|
    (shows_sub Message.freeSpaceInquiry).append <|
    (shows_sub Message.accountInfo).append <|
    (shows_sub Message.beginContent).append <|
    (shows_sub Message.createUdf).append <|
    (shows_sub Message.listVolumes).append <|
    (shows_sub Message.volumeDeleted).append <|
    (shows_sub Message.volumeCreated).append <|
    (shows_sub Message.deleteVolume).append <|
    (shows_sub Message.getDelta).append <|
    (shows_sub Message.deltaInfo).append <|
    (shows_sub Message.deltaEnd).append <|
    (shows_sub Message.volumeNewGeneration).append <|
    (shows_str Message.sessionId).append <| (shows_uint Message.newGeneration).append <|
    (shows_rep Message.metadata).append <|
    (shows_sub Message.changePublicAccess).append <|
    (shows_str Message.publicUrl).append <|
    (shows_sub Message.publicFileInfo).append <| shows_nil
  exact hshows.faithful (by rintro ⟨⟩ ⟨⟩ h; simpa [and_assoc] using h)

/-- **No two messages are written alike.** -/
theorem serialize_inj {m m' : Message} (hm : Message.Typed m) (hm' : Message.Typed m')
    (h : serialize m = serialize m') : m = m' := Faithful.inj m m' hm hm' h

end Magicicada.Fields
