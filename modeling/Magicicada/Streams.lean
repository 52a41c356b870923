import Magicicada.Requests

/-!
What a request collects from a stream of items and the message that ends it.
-/

namespace Magicicada.Requests

open Pb Errors Records

/-- The requests that collect the items of a stream, without callbacks of the user. -/
def Kind.collects : Kind → Bool
  | .getContent q => !q.callback && !q.nodeAttrCallback
  | .getDelta q => !q.callback
  | .listShares _ | .listVolumes _ | .listPublicFiles _ => true
  | _ => false

/-- `processMessage` ends the request: it is done, has an error, or is given one for what was
raised. -/
def Reply.ends : Reply → Bool
  | .done | .error _ | .raise _ => true
  | _ => false

/-- The attributes after some messages. -/
def Kind.takeAll (c : Context) (k : Kind) (items : List Message) : Kind :=
  items.foldl (fun k m => (k.processMessage c m).1) k

/-- The request takes each of the messages and goes on. -/
def Accepts (c : Context) : Kind → List Message → Prop
  | _, [] => True
  | k, m :: items => (k.processMessage c m).2 = .stay ∧ Accepts c (k.processMessage c m).1 items

/-- What the messages of a type decode to. -/
def decoded {α : Type} (type : MessageType) (decode : Message → Except Exn α)
    (items : List Message) : List α :=
  items.filterMap fun m => if m.type = type then (decode m).toOption else none

/-! What the item messages decode to. -/

def decodeBytes (m : Message) : Except Exn Bytes := .ok (rd (rd m.bytes).bytes)

def decodeShare (m : Message) : Except Exn ShareResponse := ShareResponse.loadFromMsg (rd m.shares)

def decodeVolume (m : Message) : Except Exn Volume := volumeFromMsg (rd m.listVolumes)

def decodeInfo (m : Message) : Except Exn Records.PublicFileInfo :=
  .ok (PublicFileInfo.fromMessage m)

/-- The attributes a request is to have after a stream of items and the message that ended it. -/
def Kind.collected (c : Context) (items : List Message) (last : Message) : Kind → Kind
  | .getContent q =>
    let payloads := decoded .bytes decodeBytes items
    if c.cancelled then .getContent q
    else .getContent { q with
      parts := q.parts ++ payloads
      data := if last.type = .eof then some (q.parts ++ payloads).flatten else q.data }
  | .getDelta q =>
    let response := q.response ++ decoded .deltaInfo deltaFromMessage items
    let deltaEnd := rd last.deltaEnd
    if last.type = .deltaEnd then .getDelta { q with
      response := response
      endGeneration := some (rd deltaEnd.generation)
      full := some (rd deltaEnd.full)
      freeBytes := some (rd deltaEnd.freeBytes) }
    else .getDelta { q with response := response }
  | .listShares q =>
    let shares := decoded .sharesInfo decodeShare items
    .listShares { shares := q.shares.map (· ++ shares) }
  | .listVolumes q =>
    let volumes := decoded .volumesInfo decodeVolume items
    .listVolumes { volumes := q.volumes ++ volumes }
  | .listPublicFiles q =>
    let infos := decoded .publicFileInfo decodeInfo items
    .listPublicFiles { publicFiles := q.publicFiles ++ infos }
  | k => k

section Decoded

variable {α : Type} {type : MessageType} {decode : Message → Except Exn α}

@[simp] lemma decoded_nil : decoded type decode [] = [] := rfl

lemma decoded_cons_of_ne {m : Message} (h : m.type ≠ type) (items : List Message) :
    decoded type decode (m :: items) = decoded type decode items := by
  simp [decoded, h]

lemma decoded_cons_ok {m : Message} {a : α} (h : m.type = type) (ha : decode m = .ok a)
    (items : List Message) : decoded type decode (m :: items) = a :: decoded type decode items := by
  simp [decoded, h, ha, Except.toOption]

end Decoded

lemma defaultProcessMessage_ends (m : Message) : (defaultProcessMessage m).ends = true := by
  unfold defaultProcessMessage
  repeat' split
  all_goals rfl

/-! ### One message

What `processMessage` can do, class by class: take an item, end with the last message, or end
without taking anything. -/

lemma GetContent.processMessage_cases {q : GetContent} (hq : q.callback = false)
    (hq' : q.nodeAttrCallback = false) (c : Context) (m : Message) :
    ((m.type = .bytes → c.cancelled = true) ∧ q.processMessage c m = (q, .stay)) ∨
    (m.type = .bytes ∧ c.cancelled = false ∧ q.processMessage c m =
      ({ q with parts := q.parts ++ [rd (rd m.bytes).bytes] }, .stay)) ∨
    (m.type = .eof ∧ c.cancelled = false ∧ q.processMessage c m =
      ({ q with data := some q.parts.flatten }, .done)) ∨
    ((m.type = .eof → c.cancelled = true) ∧ ∃ reply, reply.ends = true ∧
      q.processMessage c m = (q, reply)) := by
  unfold GetContent.processMessage
  split <;> rename_i ht
  · simp [ht, hq']
  · cases c.cancelled <;> simp [ht, hq, Reply.ends]
  · cases c.cancelled <;> simp [ht, hq, Reply.ends]
  · simp [ht, Reply.ends]
  · simp [ht, Reply.ends]
  · next heof _ =>
    exact Or.inr (Or.inr (Or.inr ⟨fun h => (heof h).elim, _, defaultProcessMessage_ends m, rfl⟩))

lemma GetDelta.processMessage_cases {q : GetDelta} (hq : q.callback = false) (c : Context)
    (m : Message) :
    (∃ info, m.type = .deltaInfo ∧ deltaFromMessage m = .ok info ∧ q.processMessage c m =
      ({ q with response := q.response ++ [info] }, .stay)) ∨
    (m.type = .deltaEnd ∧ q.processMessage c m =
      ({ q with
        endGeneration := some (rd (rd m.deltaEnd).generation)
        full := some (rd (rd m.deltaEnd).full)
        freeBytes := some (rd (rd m.deltaEnd).freeBytes) }, .done)) ∨
    (m.type ≠ .deltaEnd ∧ ∃ reply, reply.ends = true ∧ q.processMessage c m = (q, reply)) := by
  unfold GetDelta.processMessage
  split
  · next ht =>
    split
    · simp [ht, Reply.ends]
    · next info hinfo => exact Or.inl ⟨info, ht, hinfo, by simp [hq]⟩
  · next ht => simp [ht]
  · next hne => exact Or.inr (Or.inr ⟨hne, _, defaultProcessMessage_ends m, rfl⟩)

lemma ListShares.processMessage_cases (q : ListShares) (m : Message) :
    (∃ share shares, m.type = .sharesInfo ∧ ShareResponse.loadFromMsg (rd m.shares) = .ok share ∧
      q.shares = some shares ∧
      q.processMessage m = ({ shares := some (shares ++ [share]) }, .stay)) ∨
    ∃ reply, reply.ends = true ∧ q.processMessage m = (q, reply) := by
  unfold ListShares.processMessage
  split
  · next ht =>
    split
    · simp [Reply.ends]
    · simp [Reply.ends]
    · next share shares hshare hshares => exact Or.inl ⟨share, shares, ht, hshare, hshares, rfl⟩
  · simp [Reply.ends]
  · simp [defaultProcessMessage_ends]

lemma ListVolumes.processMessage_cases (q : ListVolumes) (m : Message) :
    (∃ vol, m.type = .volumesInfo ∧ volumeFromMsg (rd m.listVolumes) = .ok vol ∧
      q.processMessage m = ({ volumes := q.volumes ++ [vol] }, .stay)) ∨
    ∃ reply, reply.ends = true ∧ q.processMessage m = (q, reply) := by
  unfold ListVolumes.processMessage
  split
  · next ht =>
    split
    · simp [Reply.ends]
    · next vol hvol => exact Or.inl ⟨vol, ht, hvol, rfl⟩
  · simp [Reply.ends]
  · simp [defaultProcessMessage_ends]

lemma ListPublicFiles.processMessage_cases (q : ListPublicFiles) (m : Message) :
    (m.type = .publicFileInfo ∧ q.processMessage m =
      ({ publicFiles := q.publicFiles ++ [PublicFileInfo.fromMessage m] }, .stay)) ∨
    ∃ reply, reply.ends = true ∧ q.processMessage m = (q, reply) := by
  unfold ListPublicFiles.processMessage
  split
  · next ht => exact Or.inl ⟨ht, rfl⟩
  · simp [Reply.ends]
  · simp [defaultProcessMessage_ends]

/-- What one message does to a request that collects: it is an item, which the request collects
before the rest of the stream, or the last message. -/
lemma Kind.collects_cases {k : Kind} (hk : k.collects) (c : Context) (m : Message) :
    ((k.processMessage c m).2 = .stay ∧ (k.processMessage c m).1.collects ∧
      ∀ items last, (k.processMessage c m).1.collected c items last =
        k.collected c (m :: items) last) ∨
    ((k.processMessage c m).2.ends = true ∧ (k.processMessage c m).1 = k.collected c [] m) := by
  cases k with
  | getContent q =>
    have hq : q.callback = false ∧ q.nodeAttrCallback = false := by
      simpa [Kind.collects] using hk
    simp only [Kind.processMessage, Prod.map_fst, Prod.map_snd, id]
    rcases GetContent.processMessage_cases hq.1 hq.2 c m with
      ⟨ht, h⟩ | ⟨ht, hc, h⟩ | ⟨ht, hc, h⟩ | ⟨ht, reply, hr, h⟩ <;> rw [h]
    · refine Or.inl ⟨rfl, hk, fun items last => ?_⟩
      cases hc : c.cancelled with
      | true => simp [Kind.collected, hc]
      | false =>
        have ht' : m.type ≠ .bytes := fun h => by simp [ht h] at hc
        simp [Kind.collected, hc, decoded_cons_of_ne ht']
    · refine Or.inl ⟨rfl, hk, fun items last => ?_⟩
      have := decoded_cons_ok (a := rd (rd m.bytes).bytes) ht
        (show decodeBytes m = _ from rfl) items
      simp [Kind.collected, hc, this]
    · exact Or.inr ⟨rfl, by simp [Kind.collected, ht, hc]⟩
    · refine Or.inr ⟨hr, ?_⟩
      cases hc : c.cancelled with
      | true => simp [Kind.collected, hc]
      | false =>
        have ht' : m.type ≠ .eof := fun h => by simp [ht h] at hc
        simp [Kind.collected, hc, ht']
  | getDelta q =>
    have hq : q.callback = false := by simpa [Kind.collects] using hk
    simp only [Kind.processMessage, Prod.map_fst, Prod.map_snd, id]
    rcases GetDelta.processMessage_cases hq c m with
      ⟨info, ht, hinfo, h⟩ | ⟨ht, h⟩ | ⟨ht, reply, hr, h⟩ <;> rw [h]
    · refine Or.inl ⟨rfl, hk, fun items last => ?_⟩
      simp [Kind.collected, decoded_cons_ok ht hinfo]
    · exact Or.inr ⟨rfl, by simp [Kind.collected, ht]⟩
    · exact Or.inr ⟨hr, by simp [Kind.collected, ht]⟩
  | listShares q =>
    simp only [Kind.processMessage, Prod.map_fst, Prod.map_snd, id]
    rcases q.processMessage_cases m with ⟨share, shares, ht, hshare, hq, h⟩ | ⟨reply, hr, h⟩ <;>
      rw [h]
    · refine Or.inl ⟨rfl, rfl, fun items last => ?_⟩
      simp [Kind.collected, hq, decoded_cons_ok ht (show decodeShare m = _ from hshare)]
    · exact Or.inr ⟨hr, by simp [Kind.collected]⟩
  | listVolumes q =>
    simp only [Kind.processMessage, Prod.map_fst, Prod.map_snd, id]
    rcases q.processMessage_cases m with ⟨vol, ht, hvol, h⟩ | ⟨reply, hr, h⟩ <;> rw [h]
    · refine Or.inl ⟨rfl, rfl, fun items last => ?_⟩
      simp [Kind.collected, decoded_cons_ok ht (show decodeVolume m = _ from hvol)]
    · exact Or.inr ⟨hr, by simp [Kind.collected]⟩
  | listPublicFiles q =>
    simp only [Kind.processMessage, Prod.map_fst, Prod.map_snd, id]
    rcases q.processMessage_cases m with ⟨ht, h⟩ | ⟨reply, hr, h⟩ <;> rw [h]
    · refine Or.inl ⟨rfl, rfl, fun items last => ?_⟩
      simp [Kind.collected, decoded_cons_ok ht (show decodeInfo m = .ok _ from rfl)]
    · exact Or.inr ⟨hr, by simp [Kind.collected]⟩
  | _ => cases hk

/-! ### A stream -/

/-- Items the request accepts and a last message that ends it. -/
structure WellFormed (c : Context) (k : Kind) (items : List Message) (last : Message) : Prop where
  accepts : Accepts c k items
  ends : ((k.takeAll c items).processMessage c last).2.ends = true

/-- **After a well-formed stream** a request has collected exactly its items, in order. -/
theorem Kind.takeAll_collected {c : Context} {items : List Message} {last : Message} :
    ∀ {k : Kind}, k.collects → WellFormed c k items last →
      ((k.takeAll c items).processMessage c last).1 = k.collected c items last := by
  induction items with
  | nil =>
    intro k hk h
    rcases Kind.collects_cases hk c last with ⟨hstay, -⟩ | ⟨-, hlast⟩
    · have := h.ends
      simp only [Kind.takeAll, List.foldl_nil, hstay] at this
      cases this
    · exact hlast
  | cons m items ih =>
    intro k hk h
    obtain ⟨hstay, haccepts⟩ := h.accepts
    rcases Kind.collects_cases hk c m with ⟨-, hk', hcons⟩ | ⟨hends, -⟩
    · rw [← hcons]
      exact ih hk' ⟨haccepts, h.ends⟩
    · rw [hstay] at hends
      cases hends

end Magicicada.Requests
