import Magicicada.Replies
import Magicicada.Upload

/-!
The frames of an upload. What is read of the file in one go leaves room in a message for the id
of the request and for what else a `BYTES` message has in it.
-/

namespace Magicicada.Client

open Pb Errors Wire Fields Bytes Framing Prog MultiQuery

/-- A `BYTES` message with the id of its request. -/
def bytesMessageOf (i : ℤ) (data : Bytes) : Message := { bytesMessage data with id := i }

lemma byteSize_bytesMessageOf (i : ℤ) {data : Bytes} {n : ℕ} (hn : data.length = n) :
    byteSize (bytesMessageOf i data) =
      5 + idSize i + (base128 (1 + (base128 n).length + n)).length + (base128 n).length + n := by
  have hlist : Message.listFields (bytesMessageOf i data) =
      [.scalar "id" 1 (.varint (ofInt i)), .scalar "type" 2 (.varint 21),
        .message "bytes" 15 [.scalar "bytes" 1 (.bytes data)]] := by
    simp [Message.listFields, bytesMessageOf, bytesMessage, intField, uintField, subField, strField,
      repField, MessageType.number, BytesMessage.listFields, bytesField]
  have hid : (Tree.scalar "id" 1 (.varint (ofInt i))).encode.length = 1 + idSize i := by
    simp (disch := decide) [Tree.encode, Scalar.encode, key, base128_of_lt, idSize]
    omega
  have htype : (Tree.scalar "type" 2 (.varint 21)).encode.length = 2 := by
    simp (disch := decide) [Tree.encode, Scalar.encode, key, base128_of_lt]
  have hfields : (encodeAll [.scalar "bytes" 1 (.bytes data)]).length =
      1 + (base128 n).length + n := by
    simp (disch := decide) [Tree.encode, Scalar.encode, key, delimited, base128_of_lt, hn]
    omega
  have hbytes : (Tree.message "bytes" 15 [.scalar "bytes" 1 (.bytes data)]).encode.length =
      1 + (base128 (1 + (base128 n).length + n)).length + (1 + (base128 n).length + n) := by
    rw [Tree.encode, delimited, List.length_append, List.length_append, hfields]
    simp (disch := decide) [key, base128_of_lt]
    omega
  rw [byteSize, serialize, hlist, encodeAll_cons, encodeAll_cons, encodeAll_cons, encodeAll_nil,
    List.append_nil, List.length_append, List.length_append, hid, htype, hbytes]
  omega

/-- What is read in one go fits a message. -/
lemma bytesMessageOf_fits (i : ℤ) {data : Bytes} (h : data.length ≤ maxPayloadSize) :
    byteSize (bytesMessageOf i data) ≤ maxMessageSize := by
  have hmax : maxMessageSize = 65536 ∧ maxPayloadSize = 65236 := ⟨rfl, rfl⟩
  have hid := idSize_le i
  have hdata : (base128 data.length).length ≤ 3 := length_base128_le (k := 2) (by omega)
  have hbytes : (base128 (1 + (base128 data.length).length + data.length)).length ≤ 3 :=
    length_base128_le (k := 2) (by omega)
  rw [byteSize_bytesMessageOf i rfl]
  omega

/-- **A full chunk of an upload always fits a frame.** The message made of what was read in one
go is sent, it is no longer than a message may be, and a peer that has read its size goes on
to read it. -/
theorem upload_chunk_fits {w : World} {p : ℕ} {q : Producer} {i : ℤ} {data : Bytes}
    (hid : (w.objs q.request).id = some i) (hi : int32 i = true)
    (hlen : data.length ≤ maxPayloadSize) :
    (data ≠ [] → ∃ t, (sendData p q data).run w = .ok ⟨⟩ t ∧
      t.sent = w.sent ++ [bytesMessageOf i data]) ∧
    byteSize (bytesMessageOf i data) ≤ maxMessageSize ∧
    ∀ {σ : Type} (deliver : Bytes → EStateM Exn σ PUnit) (h : Handler σ), h.waitingFor = .size →
      h.pendingParts.flatten = packSize (byteSize (bytesMessageOf i data)) →
      (finishPart deliver).run h = .ok ⟨⟩ { h with
        pendingParts := []
        pendingLength := byteSize (bytesMessageOf i data)
        waitingFor := .message } := by
  have hfits := bytesMessageOf_fits i hlen
  refine ⟨fun hne => ⟨_, sendData_bytes hid hi hne, ?_⟩, hfits, fun deliver h hw hparts => ?_⟩
  · exact (slows_sendMessage (bytesMessageOf i data) (w.advanced p data.length)).sent
  · have hsize : bigEndian h.pendingParts.flatten = byteSize (bytesMessageOf i data) := by
      rw [hparts]
      exact bigEndian_packSize (hfits.trans_lt (by decide))
    rw [← hsize]
    refine finishPart_size hw (by rw [hparts]; rfl) ?_
    rw [hsize]
    exact not_lt.mpr hfits

/-- An upload whose request has a negative id, as ids have that were counted past `2 ^ 31`. -/
def negative : World where
  objs _ := {
    kind := .putContent {
      share := "s", nodeId := "n", previousHash := "p", hash := "h", crc32 := 0, size := 2
      deflatedSize := 2, fd := 0, maxPayloadSize := maxPayloadSize }
    id := some (-1)
    started := true }
  files _ := File.opened [7, 8]
  requestCounter := 1

/-- Two bytes are sent with the id `-1`. -/
theorem upload_chunk_fits_negative :
    (∃ t, (sendData 0 { request := 0, fh := 0, offset := 0 } [7, 8]).run negative = .ok ⟨⟩ t ∧
      t.sent = [bytesMessageOf (-1) [7, 8]]) ∧
    byteSize (bytesMessageOf (-1) [7, 8]) ≤ maxMessageSize := by
  have hlen : ([7, 8] : Bytes).length ≤ maxPayloadSize := by decide
  have h := upload_chunk_fits (w := negative) (p := 0) (q := { request := 0, fh := 0, offset := 0 })
    (i := -1) rfl (by decide) hlen
  exact ⟨h.1 (by decide), h.2.1⟩

end Magicicada.Client
