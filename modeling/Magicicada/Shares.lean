import Magicicada.Records
import Magicicada.UuidForm

/-!
`sharersp.py`: what becomes of a share that is dumped to a message and loaded from it.

A share of a listing comes back as it was, and so does the message. A share notification comes
back with its subtree as a string.
-/

namespace Magicicada.Records

open Pb Errors

lemma uuid_toStr {n : ℕ} (h : n < 2 ^ 128) : uuid (Uuid.toStr n) = .ok n := by
  rw [uuid, Uuid.parse_toStr h]

@[simp] lemma direction_nice_prot (d : NiceDirection) :
    directionProt2nice (directionNice2prot d) = d := by
  cases d <;> rfl

@[simp] lemma access_nice_prot (a : NiceAccess) : accessProt2nice (accessNice2prot a) = a := by
  cases a <;> rfl

/-- No UUID is written as the empty string. -/
lemma toStr_ne_empty (n : ℕ) : Uuid.toStr n ≠ "" := by
  intro h
  obtain ⟨a, b, c, d, e, hs, -⟩ := Uuid.canonical_toStr n
  rw [h] at hs
  simp at hs

/-! ### Shares of a listing -/

/-- The ids of a share are UUIDs. -/
structure ShareResponse.Ids (o : ShareResponse) : Prop where
  id : o.id < 2 ^ 128
  subtree : o.subtree < 2 ^ 128
  volume : ∀ v, o.subtreeVolumeId = some (some v) → v < 2 ^ 128

/-- The volume of a share is there if and only if the share is from me. -/
def ShareResponse.Directed (o : ShareResponse) : Prop :=
  o.subtreeVolumeId.isSome = true ↔ o.direction = .fromMe

lemma directed_fromParams {shareId subtree : ℕ} {direction : NiceDirection}
    {shareName otherUsername otherVisibleName : String} {accepted : Bool} {accessLevel : NiceAccess}
    {volumeId : Option ℕ} {o : ShareResponse}
    (h : ShareResponse.fromParams shareId direction subtree shareName otherUsername
      otherVisibleName accepted accessLevel volumeId = .ok o) : o.Directed := by
  unfold ShareResponse.fromParams at h
  split at h
  · cases h
  · cases h
    cases direction <;> simp [ShareResponse.Directed]

/-- The message a share is dumped to, with a volume or without. -/
def ShareResponse.message (o : ShareResponse) (volume : Option String) : Shares where
  shareId := some (Uuid.toStr o.id)
  direction := some (directionNice2prot o.direction)
  subtree := some (Uuid.toStr o.subtree)
  shareName := some o.name
  otherUsername := some o.otherUsername
  otherVisibleName := some o.otherVisibleName
  accepted := some o.accepted
  accessLevel := some (accessNice2prot o.accessLevel)
  subtreeVolumeId := volume

/-- The attribute that goes with what a message has for a volume. -/
def volumeAttribute : NiceDirection → Option ℕ → Option (Option ℕ)
  | .toMe, _ => none
  | .fromMe, v => some v

lemma dump_eq {o : ShareResponse} (hdir : o.Directed) : ∃ v, o.subtreeVolumeId =
    volumeAttribute o.direction v ∧ (o.direction = .toMe → v = none) ∧
    o.dumpToMsg {} = .ok (o.message (v.map Uuid.toStr)) := by
  unfold ShareResponse.Directed at hdir
  unfold ShareResponse.dumpToMsg
  cases hd : o.direction with
  | toMe =>
    rw [hd] at hdir
    have hnone : o.subtreeVolumeId = none := by simpa using hdir
    exact ⟨none, hnone, fun _ => rfl, by rw [ShareResponse.message, hd]; rfl⟩
  | fromMe =>
    obtain ⟨v, hv⟩ := Option.isSome_iff_exists.mp (hdir.mpr hd)
    refine ⟨v, hv, fun h => absurd h (by decide), ?_⟩
    rw [ShareResponse.message, hd, hv]
    cases v <;> rfl

lemma load_volume (o : ShareResponse) (d : NiceDirection) {v : Option ℕ}
    (hv : ∀ n, v = some n → n < 2 ^ 128) (hd : d = .toMe → v = none) :
    loadSubtreeVolumeId d (o.message (v.map Uuid.toStr)) = .ok (volumeAttribute d v) := by
  cases d with
  | toMe => rfl
  | fromMe =>
    cases v with
    | none => rfl
    | some n =>
      have hread : rd (o.message ((some n).map Uuid.toStr)).subtreeVolumeId = Uuid.toStr n := rfl
      simp only [loadSubtreeVolumeId, hread, if_pos (toStr_ne_empty n), uuid_toStr (hv n rfl)]
      rfl

lemma load_message {o : ShareResponse} (hids : o.Ids) {v : Option ℕ}
    (hv : ∀ n, v = some n → n < 2 ^ 128) (hd : o.direction = .toMe → v = none) :
    ShareResponse.loadFromMsg (o.message (v.map Uuid.toStr)) =
      .ok { o with subtreeVolumeId := volumeAttribute o.direction v } := by
  have hdirection : directionProt2nice (rd (o.message (v.map Uuid.toStr)).direction) =
      o.direction := direction_nice_prot o.direction
  have haccess : accessProt2nice (rd (o.message (v.map Uuid.toStr)).accessLevel) =
      o.accessLevel := access_nice_prot o.accessLevel
  have hid : uuid (rd (o.message (v.map Uuid.toStr)).shareId) = .ok o.id := uuid_toStr hids.id
  have hsubtree : uuid (rd (o.message (v.map Uuid.toStr)).subtree) = .ok o.subtree :=
    uuid_toStr hids.subtree
  simp only [ShareResponse.loadFromMsg, hid, hsubtree, hdirection, haccess, load_volume o _ hv hd]
  rfl

/-- A share is loaded from the message it is dumped to. -/
lemma load_dump {o : ShareResponse} (hids : o.Ids) (hdir : o.Directed) :
    ∃ msg, o.dumpToMsg {} = .ok msg ∧ ShareResponse.loadFromMsg msg = .ok o := by
  obtain ⟨v, hattr, hnone, hdump⟩ := dump_eq hdir
  refine ⟨_, hdump, ?_⟩
  have hv : ∀ n, v = some n → n < 2 ^ 128 := by
    rintro n rfl
    refine hids.volume n ?_
    cases hd : o.direction with
    | toMe => cases hnone hd
    | fromMe => rw [hattr, hd]; rfl
  rw [load_message hids hv hnone, ← hattr]

/-- A share whose direction does not go with a volume is dumped without one. -/
lemma dump_directed {o : ShareResponse} {msg : Shares} (h : o.dumpToMsg {} = .ok msg) :
    ∃ o' : ShareResponse, o'.Directed ∧ o'.dumpToMsg {} = .ok msg ∧ (o.Ids → o'.Ids) := by
  unfold ShareResponse.dumpToMsg at h
  cases hd : o.direction with
  | toMe =>
    refine ⟨{ o with subtreeVolumeId := none }, by simp [ShareResponse.Directed, hd], ?_,
      fun hids => ⟨hids.id, hids.subtree, fun v hv => by cases hv⟩⟩
    rw [hd] at h
    rw [← h, ShareResponse.dumpToMsg, hd]
  | fromMe =>
    refine ⟨o, ?_, h, fun hids => hids⟩
    cases hv : o.subtreeVolumeId with
    | none => simp [hd, hv] at h
    | some v => simp [ShareResponse.Directed, hd, hv]

/-- **Shares of a listing come back as they were.** A share made without an error is loaded
from the message it is dumped to, with its volume or without one, and a message that a share
was dumped to is the one the loaded share is dumped to. -/
theorem shares_round_trip :
    (∀ (shareId : ℕ) (direction : NiceDirection) (subtree : ℕ)
      (shareName otherUsername otherVisibleName : String) (accepted : Bool)
      (accessLevel : NiceAccess) (volumeId : Option ℕ) (o : ShareResponse),
      shareId < 2 ^ 128 → subtree < 2 ^ 128 → (∀ v, volumeId = some v → v < 2 ^ 128) →
      ShareResponse.fromParams shareId direction subtree shareName otherUsername otherVisibleName
        accepted accessLevel volumeId = .ok o →
      ∃ msg, o.dumpToMsg {} = .ok msg ∧ ShareResponse.loadFromMsg msg = .ok o) ∧
    ∀ (o : ShareResponse) (msg : Shares), o.Ids → o.dumpToMsg {} = .ok msg →
      ∃ o', ShareResponse.loadFromMsg msg = .ok o' ∧ o'.dumpToMsg {} = .ok msg := by
  constructor
  · intro shareId direction subtree _ _ _ _ _ volumeId o hid hsubtree hvolume h
    refine load_dump ?_ (directed_fromParams h)
    unfold ShareResponse.fromParams at h
    split at h
    · cases h
    · cases h
      refine ⟨hid, hsubtree, fun v hv => hvolume v ?_⟩
      cases direction with
      | toMe => cases hv
      | fromMe => exact Option.some_inj.mp hv
  · intro o msg hids h
    obtain ⟨o', hdir, hdump, hids'⟩ := dump_directed h
    obtain ⟨msg', hdump', hload⟩ := load_dump (hids' hids) hdir
    rw [hdump, Except.ok.injEq] at hdump'
    subst hdump'
    exact ⟨o', hload, hdump⟩

/-- A share from me of a volume, and one to me. -/
theorem shares_round_trip_two :
    (∃ msg, ShareResponse.dumpToMsg
        ⟨1, .fromMe, 2, "n", "u", "v", true, .modify, some (some 3)⟩ {} = .ok msg ∧
      ShareResponse.loadFromMsg msg =
        .ok ⟨1, .fromMe, 2, "n", "u", "v", true, .modify, some (some 3)⟩) ∧
    ∃ o', ShareResponse.loadFromMsg
        { shareId := some (Uuid.toStr 1), direction := some .toMe, subtree := some (Uuid.toStr 2)
          shareName := some "n", otherUsername := some "u", otherVisibleName := some "v"
          accepted := some false, accessLevel := some .view } = .ok o' ∧
      o'.dumpToMsg {} = .ok
        { shareId := some (Uuid.toStr 1), direction := some .toMe, subtree := some (Uuid.toStr 2)
          shareName := some "n", otherUsername := some "u", otherVisibleName := some "v"
          accepted := some false, accessLevel := some .view } :=
  ⟨shares_round_trip.1 1 .fromMe 2 "n" "u" "v" true .modify (some 3) _ (by decide) (by decide)
      (fun v hv => by cases hv; decide) rfl,
    shares_round_trip.2 ⟨1, .toMe, 2, "n", "u", "v", false, .view, none⟩ _
      ⟨by decide, by decide, fun v hv => by cases hv⟩ rfl⟩

/-! ### Share notifications -/

/-- What is loaded from the message a notification is dumped to. -/
lemma notify_load_dump {o : NotifyShareHolder} (hid : o.shareId < 2 ^ 128) :
    NotifyShareHolder.loadFromMsg (o.dumpToMsg {}) =
      .ok { o with subtree := .str o.subtree.toStr } := by
  simp [NotifyShareHolder.loadFromMsg, NotifyShareHolder.dumpToMsg, rd, uuid_toStr hid]

/-- **No notification of a share comes back as it was.** Its subtree comes back as a string;
the other attributes are what they were. -/
theorem notify_never_round_trips (shareId subtree : ℕ)
    (shareName fromUsername fromVisibleName : String) (accessLevel : NiceAccess)
    (hid : shareId < 2 ^ 128) :
    NotifyShareHolder.loadFromMsg ((NotifyShareHolder.fromParams shareId (.uuid subtree) shareName
      fromUsername fromVisibleName accessLevel).dumpToMsg {}) =
      .ok (NotifyShareHolder.fromParams shareId (.str (Uuid.toStr subtree)) shareName fromUsername
        fromVisibleName accessLevel) ∧
    NotifyShareHolder.loadFromMsg ((NotifyShareHolder.fromParams shareId (.uuid subtree) shareName
      fromUsername fromVisibleName accessLevel).dumpToMsg {}) ≠
      .ok (NotifyShareHolder.fromParams shareId (.uuid subtree) shareName fromUsername
        fromVisibleName accessLevel) := by
  have hload := notify_load_dump (o := NotifyShareHolder.fromParams shareId (.uuid subtree)
    shareName fromUsername fromVisibleName accessLevel) hid
  refine ⟨hload, fun h => ?_⟩
  rw [hload] at h
  simp [NotifyShareHolder.fromParams] at h

/-- A notification of the share 1 of the subtree 2. -/
theorem notify_never_round_trips_one :
    NotifyShareHolder.loadFromMsg
      ((NotifyShareHolder.fromParams 1 (.uuid 2) "n" "u" "v" .view).dumpToMsg {}) =
      .ok (NotifyShareHolder.fromParams 1 (.str (Uuid.toStr 2)) "n" "u" "v" .view) ∧
    NotifyShareHolder.loadFromMsg
      ((NotifyShareHolder.fromParams 1 (.uuid 2) "n" "u" "v" .view).dumpToMsg {}) ≠
      .ok (NotifyShareHolder.fromParams 1 (.uuid 2) "n" "u" "v" .view) :=
  notify_never_round_trips 1 2 "n" "u" "v" .view (by decide)

/-- A subtree that was a UUID is a string afterwards. -/
theorem notify_subtree_loaded :
    ¬∀ (shareId subtree : ℕ) (shareName fromUsername fromVisibleName : String)
      (accessLevel : NiceAccess), shareId < 2 ^ 128 → subtree < 2 ^ 128 →
      NotifyShareHolder.loadFromMsg ((NotifyShareHolder.fromParams shareId (.uuid subtree) shareName
        fromUsername fromVisibleName accessLevel).dumpToMsg {}) =
        .ok (NotifyShareHolder.fromParams shareId (.uuid subtree) shareName fromUsername
          fromVisibleName accessLevel) := by
  intro h
  have hone := h 1 2 "n" "u" "v" .view (by decide) (by decide)
  rw [notify_load_dump (show 1 < 2 ^ 128 by decide)] at hone
  simp [NotifyShareHolder.fromParams] at hone

end Magicicada.Records
