import Magicicada.Lifecycle

/-!
Unsolicited messages. A `handle_` method decodes UUIDs only for a callback that is set, and
raises where one does not parse. The validator lets through a share id that is empty or unset and
says nothing of the id of a volume.
-/

namespace Magicicada.Client

open Pb Errors Wire Fields Validators Requests Records Prog

/-! ### What validation says of a field -/

lemma validateMessage_append (ts us : List Tree) : Validators.validateMessage (ts ++ us) =
    Validators.validateMessage ts ++ Validators.validateMessage us := by
  induction ts with
  | nil => rw [List.nil_append, Validators.validateMessage, List.nil_append]
  | cons t ts ih =>
    rw [List.cons_append, Validators.validateMessage, Validators.validateMessage, ih,
      List.append_assoc]

/-- The fields of a valid message are valid. -/
lemma valid_of_mem_flatten {ls : List (List Tree)} {l : List Tree}
    (h : Validators.validateMessage ls.flatten = []) (hl : l ∈ ls) :
    Validators.validateMessage l = [] := by
  induction ls with
  | nil => cases hl
  | cons l' ls ih =>
    rw [List.flatten_cons, validateMessage_append, List.append_eq_nil_iff] at h
    rcases List.mem_cons.mp hl with rfl | hl
    · exact h.1
    · exact ih h.2 hl

/-- A valid sub-message, as it is read, has valid fields. -/
lemma valid_subField {α : Type} [Inhabited α] {name : String} {number : ℕ} {f : α → List Tree}
    {o : Option α} (hdefault : f default = [])
    (h : Validators.validateMessage (subField name number f o) = []) :
    Validators.validateMessage (f (rd o)) = [] := by
  cases o with
  | none =>
    show Validators.validateMessage (f default) = []
    rw [hdefault, Validators.validateMessage]
  | some a =>
    show Validators.validateMessage (f a) = []
    simpa [subField, Validators.validateMessage, validateField] using h

/-- `uuid.UUID(s)` returns. -/
def Parses (s : String) : Prop := ∃ n, uuid s = .ok n

lemma not_parses_empty : ¬Parses "" := by
  rintro ⟨n, hn⟩
  have hparse : uuid "" = .error (.valueError "badly formed hexadecimal UUID string") := rfl
  rw [hparse] at hn
  cases hn

lemma parses_of_isValidNode {s : String} (h : isValidNode s = true) : Parses s := by
  unfold isValidNode at h
  cases hs : Uuid.parse s with
  | ok n => exact ⟨n, by rw [uuid, hs]⟩
  | error text => simp [hs] at h

lemma parses_of_isValidShare {s : String} (h : isValidShare s = true) (hs : s ≠ "") : Parses s := by
  rw [isValidShare, Bool.or_eq_true, beq_iff_eq] at h
  exact parses_of_isValidNode (h.resolve_left hs)

/-- Of a field for which there is a validator of UUIDs, only an empty or unset one does not
parse. -/
lemma parses_iff {name : String} {number : ℕ} {o : Option String} {p : String → Bool}
    (hname : validator name = some (onStr p)) (hp : ∀ s, p s = true → s ≠ "" → Parses s)
    (h : Validators.validateMessage (strField name number o) = []) : Parses (rd o) ↔ rd o ≠ "" := by
  cases o with
  | none => exact ⟨fun hs => absurd hs not_parses_empty, fun hs => absurd rfl hs⟩
  | some s =>
    refine ⟨fun hs he => not_parses_empty (he ▸ hs), fun hs => hp s ?_ hs⟩
    by_contra hinvalid
    simp [strField, Validators.validateMessage, validateField, hname, onStr, hinvalid] at h

lemma parses_share {name : String} {number : ℕ} {o : Option String}
    (hname : validator name = some (onStr isValidShare))
    (h : Validators.validateMessage (strField name number o) = []) : Parses (rd o) ↔ rd o ≠ "" :=
  parses_iff hname (fun _ => parses_of_isValidShare) h

lemma parses_node {name : String} {number : ℕ} {o : Option String}
    (hname : validator name = some (onStr isValidNode))
    (h : Validators.validateMessage (strField name number o) = []) : Parses (rd o) ↔ rd o ≠ "" :=
  parses_iff hname (fun _ hs _ => parses_of_isValidNode hs) h

/-! ### What the handlers decode -/

/-- The types of messages for which there is a `handle_` method. -/
def handledTypes : List MessageType :=
  [.ping, .noop, .root, .beginContent, .nodeState, .notifyShare, .shareDeleted, .shareAccepted,
    .volumeCreated, .volumeDeleted, .volumeNewGeneration, .freeSpaceInfo, .accountInfo]

/-- What the volume of a `VOLUME_CREATED` is made from is there. -/
def VolumeThere (msg : Volumes) : Prop :=
  match rd msg.type with
  | .root => rd (rd msg.root).node ≠ ""
  | .share => rd (rd msg.share).shareId ≠ "" ∧ rd (rd msg.share).subtree ≠ ""
  | .udf => Parses (rd (rd msg.udf).volume) ∧ rd (rd msg.udf).node ≠ ""

/-- If the callback for the message is set, the ids it is to be given are there, and that of a
volume parses. -/
def Decodable (c : Callbacks) (m : Message) : Prop :=
  match m.type with
  | .notifyShare => c.shareChange → rd (rd m.notifyShare).shareId ≠ ""
  | .shareDeleted => c.shareDelete → rd (rd m.shareDeleted).shareId ≠ ""
  | .shareAccepted => c.shareAnswer → rd (rd m.shareAccepted).shareId ≠ ""
  | .volumeCreated => c.volumeCreated → VolumeThere (rd m.volumeCreated)
  | .volumeDeleted => c.volumeDeleted → Parses (rd (rd m.volumeDeleted).volume)
  | .volumeNewGeneration =>
    c.volumeNewGeneration → rd (rd m.volumeNewGeneration).volume = "" ∨
      Parses (rd (rd m.volumeNewGeneration).volume)
  | _ => True

/-- A computation that may raise returns. -/
def Returns {α : Type} (x : Except Exn α) : Prop := ∃ a, x = .ok a

@[simp] lemma returns_pure {α : Type} (a : α) : Returns (pure a : Except Exn α) := ⟨a, rfl⟩

@[simp] lemma returns_uuid (s : String) : Returns (uuid s) ↔ Parses s := Iff.rfl

lemma returns_bind {α β : Type} (x : Except Exn α) (f : α → Except Exn β) :
    Returns (x >>= f) ↔ ∃ a, x = .ok a ∧ Returns (f a) := by
  cases x with
  | error e =>
    constructor
    · rintro ⟨b, hb⟩
      cases hb
    · rintro ⟨a, ha, -⟩
      cases ha
  | ok a =>
    constructor
    · exact fun h => ⟨a, rfl, h⟩
    · rintro ⟨a', ha, h⟩
      cases ha
      exact h

@[simp] lemma returns_map {α β : Type} (x : Except Exn α) (f : α → β) :
    Returns (f <$> x) ↔ Returns x := by
  cases x with
  | error e =>
    constructor
    · rintro ⟨b, hb⟩
      cases hb
    · rintro ⟨a, ha⟩
      cases ha
  | ok a => exact ⟨fun _ => ⟨a, rfl⟩, fun _ => ⟨f a, rfl⟩⟩

@[simp] lemma returns_ite {α : Type} {c : Prop} [Decidable c] (x : Except Exn α) (a : α) :
    Returns (if c then x else pure a) ↔ (c → Returns x) := by
  split
  · next h => simp [h]
  · next h => simp [h]

@[simp] lemma returns_ite_not {α : Type} {c : Prop} [Decidable c] (x : Except Exn α) (a : α) :
    Returns (if c then pure a else x) ↔ (¬c → Returns x) := by
  split
  · next h => simp [h]
  · next h => simp [h]

/-- Making the volume returns when the ids it is made from are there. -/
lemma returns_volumeFromMsg {msg : Volumes}
    (h : Validators.validateMessage (Volumes.listFields msg) = []) :
    Returns (volumeFromMsg msg) ↔ VolumeThere msg := by
  simp only [Volumes.listFields, validateMessage_append, List.append_eq_nil_iff] at h
  obtain ⟨⟨⟨-, hroot⟩, hudf⟩, hshare⟩ := h
  unfold volumeFromMsg VolumeThere
  cases rd msg.type with
  | root =>
    have hfields := valid_subField rfl hroot
    simp only [Root.listFields, validateMessage_append, List.append_eq_nil_iff] at hfields
    have hnode := parses_node rfl hfields.1.1
    simp [rootVolumeFromMsg, ← hnode]
  | share =>
    have hfields := valid_subField rfl hshare
    simp only [Shares.listFields, validateMessage_append, List.append_eq_nil_iff] at hfields
    have hid := parses_share rfl hfields.1.1.1.1.1.1.1.1.1.1
    have hsubtree := parses_node rfl hfields.1.1.1.1.1.1.1.1.2
    simp only [shareVolumeFromMsg, returns_bind, ← hid, ← hsubtree]
    simp [Parses]
  | udf =>
    have hfields := valid_subField rfl hudf
    simp only [UDFs.listFields, validateMessage_append, List.append_eq_nil_iff] at hfields
    have hnode := parses_node rfl hfields.1.1.1.2
    simp only [udfVolumeFromMsg, returns_bind, ← hnode]
    simp [Parses]

/-- What a valid message says of one of its sub-messages, as it is read. -/
lemma valid_sub {α : Type} [Inhabited α] {name : String} {number : ℕ} {f : α → List Tree}
    {o : Option α} {m : Message} {ls : List (List Tree)} (hm : Client.validateMessage m = [])
    (hls : Message.listFields m = ls.flatten) (hmem : subField name number f o ∈ ls)
    (hdefault : f default = []) : Validators.validateMessage (f (rd o)) = [] :=
  valid_subField hdefault (valid_of_mem_flatten (hls ▸ hm) hmem)

/-- The callback's arguments can be made. -/
lemma returns_notice {c : Callbacks} {m : Message} (hm : Client.validateMessage m = []) :
    Returns (notice c m) ↔ Decodable c m := by
  cases ht : m.type
  case notifyShare =>
    have hfields := valid_sub hm rfl
      (show subField "notify_share" 21 NotifyShare.listFields m.notifyShare ∈ _ by simp) rfl
    simp only [NotifyShare.listFields, validateMessage_append, List.append_eq_nil_iff] at hfields
    have hid := parses_share rfl hfields.1.1.1.1.1
    simp [notice, Decodable, ht, NotifyShareHolder.loadFromMsg, ← hid]
  case shareDeleted =>
    have hfields := valid_sub hm rfl
      (show subField "share_deleted" 23 ShareId.listFields m.shareDeleted ∈ _ by simp) rfl
    have hid := parses_share rfl hfields
    simp [notice, Decodable, ht, ← hid]
  case shareAccepted =>
    have hfields := valid_sub hm rfl
      (show subField "share_accepted" 22 ShareAccepted.listFields m.shareAccepted ∈ _ by simp) rfl
    simp only [ShareAccepted.listFields, validateMessage_append, List.append_eq_nil_iff] at hfields
    have hid := parses_share rfl hfields.1
    simp [notice, Decodable, ht, ← hid]
  case volumeCreated =>
    have hfields := valid_sub hm rfl
      (show subField "volume_created" 36 Volumes.listFields m.volumeCreated ∈ _ by simp) rfl
    simp [notice, Decodable, ht, ← returns_volumeFromMsg hfields]
  case volumeDeleted => simp [notice, Decodable, ht]
  case volumeNewGeneration => simp [notice, Decodable, ht, or_iff_not_imp_left]
  all_goals simp [notice, Decodable, ht]

/-! ### Unsolicited messages -/

/-- Calling the callback raises only where its arguments cannot be made. -/
lemma raised_notify (w : World) (m : Message) :
    raised (notify m none) w = none ↔ Returns (notice w.callbacks m) := by
  unfold notify
  rw [raised_get_bind]
  cases hn : notice w.callbacks m with
  | error e =>
    constructor
    · exact fun h => absurd h (raised_ne_none (t := w) (e := e) rfl)
    · rintro ⟨o, ho⟩
      cases ho
  | ok o =>
    refine ⟨fun _ => ⟨o, rfl⟩, fun _ => ?_⟩
    cases o with
    | none => rfl
    | some n => rfl

/-- The `handle_` methods that call no callback raise nothing. -/
lemma raised_handle {m : Message} (hm : m.type ∈ handledTypes) (w : World) :
    raised (handle m none) w = none ↔ Returns (notice w.callbacks m) := by
  cases ht : m.type
  case nodeState | notifyShare | shareDeleted | shareAccepted | volumeCreated | volumeDeleted |
      volumeNewGeneration | freeSpaceInfo | accountInfo =>
    simp only [handle, ht]
    exact raised_notify w m
  case ping | noop | root | beginContent =>
    simp only [handle, ht, notice, returns_pure, iff_true]
    rfl
  all_goals simp [ht, handledTypes] at hm

/-- **An unsolicited message raises nothing** exactly when the ids for its callback are there. -/
theorem unsolicited_iff {w : World} {m : Message} (hget : w.requests.get? m.id = none)
    (hhandled : m.type ∈ handledTypes) (hm : validateMessage m = []) :
    raised (processMessage m none) w = none ↔ Decodable w.callbacks m := by
  rw [processMessage_valid hm, raised_congr (dispatch_unregistered hget none),
    raised_handle hhandled, returns_notice hm]

/-! ### A deleted share without its id -/

/-- A client that wants to be told of deleted shares. -/
def watchingShares : World :=
  { World.init (fun _ => .ping) (fun _ => ⟨fun _ => .ok [], []⟩) with
    callbacks := { shareDelete := true } }

/-- A `SHARE_DELETED` of the given share. -/
def shareDeleted (shareId : String) : Message :=
  { id := 2, type := .shareDeleted, shareDeleted := some { shareId := some shareId } }

/-- The empty share id is valid, and is no UUID. -/
theorem not_unsolicited : ¬∀ (w : World) (m : Message), w.requests.get? m.id = none →
    m.type ∈ handledTypes → validateMessage m = [] → raised (processMessage m none) w = none := by
  intro h
  have hvalid : validateMessage (shareDeleted "") = [] := by decide
  have hraised := h watchingShares (shareDeleted "") rfl (by decide) hvalid
  rw [processMessage_valid hvalid, raised_congr (dispatch_unregistered rfl none)] at hraised
  exact absurd hraised (by decide)

/-- A share id that is there. -/
theorem unsolicited_iff_there :
    raised (processMessage (shareDeleted "01234567-89ab-cdef-0123-456789abcdef") none)
      watchingShares = none :=
  (unsolicited_iff rfl (by decide) (by decide)).mpr fun _ => by decide

end Magicicada.Client
