import Mathlib.Data.Nat.Size
import Magicicada.Wire

/-!
Reading the proto2 wire format: the fields of a message as they stand on the wire, and that
what `Tree.encode` writes is read back.

A number has 64 bits: it is written with ten bytes at most, and bits above these are dropped. A
group, which no field declares to be one, is passed over with all that is in it.
-/

namespace Magicicada.Wire

/-! ### Varints -/

/-- The number that at most so many bytes of seven bits write, and what follows it. -/
def readDigits : ℕ → List UInt8 → Option (ℕ × List UInt8)
  | 0, _ => none
  | _, [] => none
  | k + 1, b :: bs =>
    if b.toNat < 128 then some (b.toNat, bs)
    else (readDigits k bs).map fun (n, rest) => (128 * n + (b.toNat - 128), rest)

/-- The number of so many bits that a varint at the beginning writes, and what follows it. -/
def readVarint (bits : ℕ) (bs : List UInt8) : Option (ℕ × List UInt8) :=
  (readDigits ((bits + 6) / 7) bs).map fun (n, rest) => (n % 2 ^ bits, rest)

lemma readDigits_base128 (n : ℕ) (rest : List UInt8) :
    ∀ k, n < 128 ^ (k + 1) → readDigits (k + 1) (base128 n ++ rest) = some (n, rest) := by
  induction n using base128.induct with
  | case1 n h =>
    intro k _
    rw [base128_of_lt h, List.singleton_append, readDigits]
    have hn : (UInt8.ofNat n).toNat = n := by
      rw [UInt8.toNat_ofNat']
      omega
    rw [hn, if_pos h]
  | case2 n h ih =>
    rintro (_ | k) hk
    · omega
    rw [base128, if_neg h, List.cons_append, readDigits]
    have hn : (UInt8.ofNat (n % 128 + 128)).toNat = n % 128 + 128 := by
      rw [UInt8.toNat_ofNat']
      omega
    have hback : 128 * (n / 128) + (n % 128 + 128 - 128) = n := by omega
    have hlt : n / 128 < 128 ^ (k + 1) := by
      rw [Nat.div_lt_iff_lt_mul (by decide), ← pow_succ]
      exact hk
    rw [hn, if_neg (by omega), ih k hlt]
    exact congrArg (fun m => some (m, rest)) hback

lemma readVarint_base128 {bits n : ℕ} (hbits : 0 < bits) (hn : n < 2 ^ bits)
    (rest : List UInt8) : readVarint bits (base128 n ++ rest) = some (n, rest) := by
  obtain ⟨k, hk⟩ : ∃ k, (bits + 6) / 7 = k + 1 := ⟨(bits + 6) / 7 - 1, by omega⟩
  have hle : 2 ^ bits ≤ 128 ^ (k + 1) := by
    calc 2 ^ bits ≤ 2 ^ (7 * (k + 1)) := Nat.pow_le_pow_right (by decide) (by omega)
      _ = 128 ^ (k + 1) := by rw [pow_mul]; norm_num
  rw [readVarint, hk, readDigits_base128 n rest k (hn.trans_le hle), Option.map_some]
  dsimp only
  rw [Nat.mod_eq_of_lt hn]

lemma readDigits_shorter {bs rest : List UInt8} {n : ℕ} :
    ∀ {k : ℕ}, readDigits k bs = some (n, rest) → rest.length < bs.length := by
  induction bs generalizing n rest with
  | nil => rintro (_ | k) h <;> cases h
  | cons b bs ih =>
    rintro (_ | k) h
    · cases h
    rw [List.length_cons]
    by_cases hb : b.toNat < 128
    · rw [readDigits, if_pos hb, Option.some_inj, Prod.mk.injEq] at h
      rw [← h.2]
      exact Nat.lt_succ_self _
    · rw [readDigits, if_neg hb, Option.map_eq_some_iff] at h
      obtain ⟨⟨m, rest'⟩, hm, heq⟩ := h
      rw [← (Prod.mk.inj heq).2]
      exact (ih hm).trans (Nat.lt_succ_self _)

lemma readVarint_shorter {bits n : ℕ} {bs rest : List UInt8}
    (h : readVarint bits bs = some (n, rest)) : rest.length < bs.length := by
  obtain ⟨⟨m, rest'⟩, hm, heq⟩ := Option.map_eq_some_iff.mp h
  rw [← (Prod.mk.inj heq).2]
  exact readDigits_shorter hm

/-! ### Records -/

/-- The value of a field on the wire. -/
inductive Payload
  | varint (n : ℕ)
  | fixed64 (b : List UInt8)
  | delimited (b : List UInt8)
  | fixed32 (b : List UInt8)
  deriving DecidableEq

/-- The wire type, and the bytes after the key. -/
def Payload.encode : Payload → ℕ × List UInt8
  | .varint n => (0, base128 n)
  | .fixed64 b => (1, b)
  | .delimited b => (2, Wire.delimited b)
  | .fixed32 b => (5, b)

/-- The fixed sizes are right. -/
def Payload.Sized : Payload → Prop
  | .fixed64 b => b.length = 8
  | .fixed32 b => b.length = 4
  | _ => True

/-- A field on the wire. -/
structure Record where
  number : ℕ
  payload : Payload
  deriving DecidableEq

/-- No field has the number 0. -/
def Record.Valid (r : Record) : Prop := 0 < r.number ∧ r.payload.Sized

/-- The numbers with which a payload is written have so many bits. -/
def Payload.Fits (bits : ℕ) : Payload → Prop
  | .varint n => n < 2 ^ bits
  | .delimited b => b.length < 2 ^ bits
  | _ => True

/-- And that in the key has. -/
def Record.Fits (bits : ℕ) (r : Record) : Prop :=
  8 * r.number + 8 ≤ 2 ^ bits ∧ r.payload.Fits bits

def Record.encode (r : Record) : List UInt8 :=
  key r.number r.payload.encode.1 ++ r.payload.encode.2

/-- That many bytes, and what follows them. -/
def readBytes (n : ℕ) (bs : List UInt8) : Option (List UInt8 × List UInt8) :=
  if n ≤ bs.length then some (bs.take n, bs.drop n) else none

/-- The value of a field of a wire type. -/
def readPayload (bits wireType : ℕ) (bs : List UInt8) : Option (Payload × List UInt8) :=
  match wireType with
  | 0 => (readVarint bits bs).map fun (n, rest) => (.varint n, rest)
  | 1 => (readBytes 8 bs).map fun (b, rest) => (.fixed64 b, rest)
  | 2 => (readVarint bits bs).bind fun (n, bs) =>
    (readBytes n bs).map fun (b, rest) => (.delimited b, rest)
  | 5 => (readBytes 4 bs).map fun (b, rest) => (.fixed32 b, rest)
  | _ => none

lemma readBytes_append {n : ℕ} {b : List UInt8} (h : b.length = n) (rest : List UInt8) :
    readBytes n (b ++ rest) = some (b, rest) := by
  subst h
  rw [readBytes, if_pos (by rw [List.length_append]; exact Nat.le_add_right _ _),
    List.take_left, List.drop_left]

lemma readPayload_encode {bits : ℕ} (hbits : 0 < bits) {p : Payload} (hp : p.Sized)
    (hf : p.Fits bits) (rest : List UInt8) :
    readPayload bits p.encode.1 (p.encode.2 ++ rest) = some (p, rest) := by
  cases p with
  | varint n =>
    show (readVarint bits (base128 n ++ rest)).map _ = _
    rw [readVarint_base128 hbits hf]
    rfl
  | fixed64 b =>
    show (readBytes 8 (b ++ rest)).map _ = _
    rw [readBytes_append hp]
    rfl
  | delimited b =>
    show (readVarint bits (base128 b.length ++ b ++ rest)).bind _ = _
    rw [List.append_assoc, readVarint_base128 hbits hf, Option.bind_some]
    dsimp only
    rw [readBytes_append rfl]
    rfl
  | fixed32 b =>
    show (readBytes 4 (b ++ rest)).map _ = _
    rw [readBytes_append hp]
    rfl

lemma readBytes_map {n : ℕ} {bs rest : List UInt8} {p : Payload} {f : List UInt8 → Payload}
    (h : ((readBytes n bs).map fun (b, rest) => (f b, rest)) = some (p, rest)) :
    rest.length ≤ bs.length := by
  rw [Option.map_eq_some_iff] at h
  obtain ⟨⟨b, rest'⟩, hb, heq⟩ := h
  rw [← (Prod.mk.inj heq).2]
  unfold readBytes at hb
  split at hb
  · rw [← (Prod.mk.inj (Option.some_inj.mp hb)).2, List.length_drop]
    exact Nat.sub_le _ _
  · cases hb

lemma readPayload_shorter {bits w : ℕ} {bs rest : List UInt8} {p : Payload}
    (h : readPayload bits w bs = some (p, rest)) : rest.length ≤ bs.length := by
  unfold readPayload at h
  split at h
  · rw [Option.map_eq_some_iff] at h
    obtain ⟨⟨n, rest'⟩, hn, heq⟩ := h
    rw [← (Prod.mk.inj heq).2]
    exact (readVarint_shorter hn).le
  · exact readBytes_map h
  · rw [Option.bind_eq_some_iff] at h
    obtain ⟨⟨n, bs'⟩, hn, h⟩ := h
    exact (readBytes_map h).trans (readVarint_shorter hn).le
  · exact readBytes_map h
  · cases h

/-- What follows the end of the groups with these numbers, the innermost first. -/
def skipGroups (bits : ℕ) (groups : List ℕ) (bs : List UInt8) : Option (List UInt8) :=
  match groups with
  | [] => some bs
  | number :: outer =>
    match _h : readVarint bits bs with
    | none => none
    | some (k, bs) =>
      if k / 8 = 0 then none
      else if k % 8 = 3 then skipGroups bits (k / 8 :: number :: outer) bs
      else if k % 8 = 4 then
        if k / 8 = number then skipGroups bits outer bs else none
      else
        match _hp : readPayload bits (k % 8) bs with
        | none => none
        | some (_, rest) => skipGroups bits (number :: outer) rest
termination_by bs.length
decreasing_by
  · exact readVarint_shorter _h
  · exact readVarint_shorter _h
  · exact (readPayload_shorter _hp).trans_lt (readVarint_shorter _h)

lemma skipGroups_shorter {bits : ℕ} (groups : List ℕ) (bs : List UInt8) :
    ∀ {rest}, skipGroups bits groups bs = some rest → rest.length ≤ bs.length := by
  fun_induction skipGroups bits groups bs with
  | case1 bs => rintro rest ⟨⟩; exact le_rfl
  | case2 => rintro rest ⟨⟩
  | case3 => rintro rest ⟨⟩
  | case4 bs number outer k bs' hk _ _ ih => exact fun h => (ih h).trans (readVarint_shorter hk).le
  | case5 bs outer k bs' hk _ _ _ ih => exact fun h => (ih h).trans (readVarint_shorter hk).le
  | case6 => rintro rest ⟨⟩
  | case7 => rintro rest ⟨⟩
  | case8 bs number outer k bs' hk _ _ _ p bs'' hp ih =>
    exact fun h => (ih h).trans ((readPayload_shorter hp).trans (readVarint_shorter hk).le)

/-- A field, and what follows it. A group is none. -/
def readRecord (bits : ℕ) (bs : List UInt8) : Option (Option Record × List UInt8) :=
  (readVarint bits bs).bind fun (k, bs) =>
    if k / 8 = 0 then none
    else if k % 8 = 3 then (skipGroups bits [k / 8] bs).map fun rest => (none, rest)
    else (readPayload bits (k % 8) bs).map fun (p, rest) => (some ⟨k / 8, p⟩, rest)

lemma readRecord_shorter {bits : ℕ} {bs rest : List UInt8} {r : Option Record}
    (h : readRecord bits bs = some (r, rest)) : rest.length < bs.length := by
  rw [readRecord, Option.bind_eq_some_iff] at h
  obtain ⟨⟨k, bs'⟩, hk, h⟩ := h
  refine lt_of_le_of_lt ?_ (readVarint_shorter hk)
  dsimp only at h
  split at h
  · cases h
  split at h
  · rw [Option.map_eq_some_iff] at h
    obtain ⟨rest', hskip, heq⟩ := h
    rw [← (Prod.mk.inj heq).2]
    exact skipGroups_shorter _ _ hskip
  · rw [Option.map_eq_some_iff] at h
    obtain ⟨⟨p, rest'⟩, hp, heq⟩ := h
    rw [← (Prod.mk.inj heq).2]
    exact readPayload_shorter hp

lemma Payload.wireType_lt (p : Payload) : p.encode.1 < 8 := by
  cases p <;> simp [Payload.encode]

lemma Payload.wireType_ne (p : Payload) : p.encode.1 ≠ 3 := by
  cases p <;> simp [Payload.encode]

lemma readRecord_encode {bits : ℕ} {r : Record} (hr : r.Valid) (hf : r.Fits bits)
    (rest : List UInt8) : readRecord bits (r.encode ++ rest) = some (some r, rest) := by
  have hw := r.payload.wireType_lt
  have hmod : (8 * r.number + r.payload.encode.1) % 8 = r.payload.encode.1 := by omega
  have hdiv : (8 * r.number + r.payload.encode.1) / 8 = r.number := by omega
  have hkey : 8 * r.number + r.payload.encode.1 < 2 ^ bits := by
    have := hf.1
    omega
  have hbits : 0 < bits := by
    rcases Nat.eq_zero_or_pos bits with rfl | h
    · have := hf.1
      omega
    · exact h
  rw [readRecord, Record.encode, key, List.append_assoc, readVarint_base128 hbits hkey,
    Option.bind_some]
  dsimp only
  rw [hdiv, hmod, if_neg hr.1.ne', if_neg r.payload.wireType_ne,
    readPayload_encode hbits hr.2 hf.2]
  rfl

/-! ### Messages -/

/-- The fields of a message whose numbers have so many bits. -/
def readRecords (bits : ℕ) (bs : List UInt8) : Option (List Record) :=
  if bs = [] then some []
  else
    match _h : readRecord bits bs with
    | none => none
    | some (r, rest) => (readRecords bits rest).map (r.toList ++ ·)
termination_by bs.length
decreasing_by exact readRecord_shorter _h

/-- Numbers on the wire have 64 bits. (So has the length of all bytes there can be. A longer list
has as many as its length.) -/
def wordSize (bs : List UInt8) : ℕ := max 64 bs.length.size

/-- The fields of a message. -/
def records (bs : List UInt8) : Option (List Record) := readRecords (wordSize bs) bs

lemma readRecords_nil (bits : ℕ) : readRecords bits [] = some [] := by
  rw [readRecords, if_pos rfl]

lemma readRecords_encode_append {bits : ℕ} {r : Record} (hr : r.Valid) (hf : r.Fits bits)
    (rest : List UInt8) :
    readRecords bits (r.encode ++ rest) = (readRecords bits rest).map (r :: ·) := by
  have hne : r.encode ++ rest ≠ [] := by
    intro h
    have hshort := readRecord_shorter (readRecord_encode hr hf rest)
    rw [h] at hshort
    exact Nat.not_lt_zero _ hshort
  rw [readRecords, if_neg hne]
  split
  · rename_i h
    rw [readRecord_encode hr hf] at h
    cases h
  · rename_i r' rest' h
    rw [readRecord_encode hr hf] at h
    obtain ⟨rfl, rfl⟩ := Prod.mk.inj (Option.some_inj.mp h)
    rfl

/-- Reading what records write. -/
theorem readRecords_encode {bits : ℕ} {rs : List Record} (h : ∀ r ∈ rs, r.Valid)
    (hf : ∀ r ∈ rs, r.Fits bits) : readRecords bits (rs.flatMap Record.encode) = some rs := by
  induction rs with
  | nil => exact readRecords_nil bits
  | cons r rs ih =>
    rw [List.forall_mem_cons] at h hf
    rw [List.flatMap_cons, readRecords_encode_append h.1 hf.1, ih h.2 hf.2]
    rfl

lemma Record.Fits.mono {bits bits' : ℕ} {r : Record} (h : r.Fits bits) (hle : bits ≤ bits') :
    r.Fits bits' := by
  have hpow : 2 ^ bits ≤ 2 ^ bits' := Nat.pow_le_pow_right (by decide) hle
  refine ⟨h.1.trans hpow, ?_⟩
  obtain ⟨number, p⟩ := r
  cases p with
  | varint n => exact lt_of_lt_of_le h.2 hpow
  | delimited b => exact lt_of_lt_of_le h.2 hpow
  | fixed64 b => trivial
  | fixed32 b => trivial

/-- With bits enough the numbers of all records fit. -/
lemma exists_fits (rs : List Record) : ∃ bits, ∀ r ∈ rs, r.Fits bits := by
  induction rs with
  | nil => exact ⟨0, by simp⟩
  | cons r rs ih =>
    obtain ⟨bits, hbits⟩ := ih
    let size : ℕ := match r.payload with
      | .varint n => n
      | .delimited b => b.length
      | _ => 0
    have hr : r.Fits (8 * r.number + 8 + size) := by
      have hlt : 8 * r.number + 8 + size < 2 ^ (8 * r.number + 8 + size) := Nat.lt_two_pow_self
      refine ⟨by omega, ?_⟩
      obtain ⟨number, p⟩ := r
      cases p with
      | varint n => exact lt_of_le_of_lt (Nat.le_add_left n _) hlt
      | delimited b => exact lt_of_le_of_lt (Nat.le_add_left b.length _) hlt
      | fixed64 b => trivial
      | fixed32 b => trivial
    exact ⟨max (8 * r.number + 8 + size) bits, List.forall_mem_cons.mpr
      ⟨hr.mono (le_max_left ..), fun r' hr' => (hbits r' hr').mono (le_max_right ..)⟩⟩

/-- Records are told apart by what they write. -/
theorem encode_inj {rs rs' : List Record} (h : ∀ r ∈ rs, r.Valid) (h' : ∀ r ∈ rs', r.Valid)
    (heq : rs.flatMap Record.encode = rs'.flatMap Record.encode) : rs = rs' := by
  obtain ⟨bits, hbits⟩ := exists_fits (rs ++ rs')
  have hread := readRecords_encode h fun r hr => hbits r (List.mem_append_left _ hr)
  rw [heq, readRecords_encode h' fun r hr => hbits r (List.mem_append_right _ hr),
    Option.some_inj] at hread
  exact hread.symm

/-- A number of 64 bits. -/
def Payload.Small : Payload → Prop
  | .varint n => n < 2 ^ 64
  | _ => True

/-- And a field number, which has 29 of them. -/
def Record.Small (r : Record) : Prop := r.number < 2 ^ 29 ∧ r.payload.Small

lemma length_le_encode {r : Record} {b : List UInt8} (h : r.payload = .delimited b) :
    b.length ≤ r.encode.length := by
  rw [Record.encode, h, Payload.encode, delimited, List.length_append, List.length_append]
  omega

lemma length_encode_le {r : Record} {rs : List Record} (h : r ∈ rs) :
    r.encode.length ≤ (rs.flatMap Record.encode).length := by
  obtain ⟨pre, post, rfl⟩ := List.append_of_mem h
  rw [List.flatMap_append, List.flatMap_cons, List.length_append, List.length_append]
  omega

/-- **Reading what records write**, numbers of 64 bits and bytes of any length. -/
theorem records_encode {rs : List Record} (h : ∀ r ∈ rs, r.Valid) (hs : ∀ r ∈ rs, r.Small) :
    records (rs.flatMap Record.encode) = some rs := by
  refine readRecords_encode h fun r hr => ?_
  have hword : 2 ^ 64 ≤ 2 ^ wordSize (rs.flatMap Record.encode) :=
    Nat.pow_le_pow_right (by decide) (le_max_left ..)
  obtain ⟨hnumber, hpayload⟩ := hs r hr
  refine ⟨(show 8 * r.number + 8 ≤ 2 ^ 64 by omega).trans hword, ?_⟩
  cases hp : r.payload with
  | varint n =>
    rw [hp] at hpayload
    exact lt_of_lt_of_le hpayload hword
  | delimited b =>
    calc b.length ≤ (rs.flatMap Record.encode).length :=
          (length_le_encode hp).trans (length_encode_le hr)
      _ < 2 ^ (rs.flatMap Record.encode).length.size := Nat.lt_size_self _
      _ ≤ 2 ^ wordSize (rs.flatMap Record.encode) :=
          Nat.pow_le_pow_right (by decide) (le_max_right ..)
  | fixed64 b => trivial
  | fixed32 b => trivial

/-! ### What messages write -/

def Scalar.payload : Scalar → Payload
  | .varint n => .varint n
  | .str s => .delimited (utf8 s)
  | .bytes b => .delimited b

mutual

/-- The fields one set field is on the wire: a repeated one is as many as it has elements. -/
def Tree.records : Tree → List Record
  | .scalar _ number v => [⟨number, v.payload⟩]
  | .message _ number fields => [⟨number, .delimited (encodeAll fields)⟩]
  | .repeated _ _ elems => recordsAll elems

def recordsAll : List Tree → List Record
  | [] => []
  | t :: ts => t.records ++ recordsAll ts

end

@[simp] lemma recordsAll_nil : recordsAll [] = [] := by rw [recordsAll]

@[simp] lemma recordsAll_cons (t : Tree) (ts : List Tree) :
    recordsAll (t :: ts) = t.records ++ recordsAll ts := by
  rw [recordsAll]

@[simp] lemma Tree.records_scalar (name : String) (number : ℕ) (v : Scalar) :
    (Tree.scalar name number v).records = [⟨number, v.payload⟩] := by
  rw [Tree.records]

@[simp] lemma Tree.records_message (name : String) (number : ℕ) (fields : List Tree) :
    (Tree.message name number fields).records = [⟨number, .delimited (encodeAll fields)⟩] := by
  rw [Tree.records]

@[simp] lemma Tree.records_repeated (name : String) (number : ℕ) (elems : List Tree) :
    (Tree.repeated name number elems).records = recordsAll elems := by
  rw [Tree.records]

lemma encode_payload (number : ℕ) (v : Scalar) :
    Record.encode ⟨number, v.payload⟩ = v.encode number := by
  cases v <;> rfl

mutual

lemma encode_records : ∀ t : Tree, t.records.flatMap Record.encode = t.encode
  | .scalar name number v => by
    rw [Tree.records_scalar, List.flatMap_singleton, encode_payload, Tree.encode]
  | .message name number fields => by
    rw [Tree.records_message, List.flatMap_singleton, Tree.encode]
    rfl
  | .repeated name number elems => by
    rw [Tree.records_repeated, Tree.encode]
    exact encode_recordsAll elems

lemma encode_recordsAll :
    ∀ ts : List Tree, (recordsAll ts).flatMap Record.encode = encodeAll ts
  | [] => by rw [recordsAll_nil, encodeAll_nil, List.flatMap_nil]
  | t :: ts => by
    rw [recordsAll_cons, List.flatMap_append, encode_records t, encode_recordsAll ts,
      encodeAll_cons]

end

/-- **A message is read back.** -/
theorem records_encodeAll {ts : List Tree} (h : ∀ r ∈ recordsAll ts, r.Valid)
    (hs : ∀ r ∈ recordsAll ts, r.Small) : records (encodeAll ts) = some (recordsAll ts) := by
  rw [← encode_recordsAll, records_encode h hs]

/-- And told apart from others. -/
theorem encodeAll_inj {ts ts' : List Tree} (h : ∀ r ∈ recordsAll ts, r.Valid)
    (h' : ∀ r ∈ recordsAll ts', r.Valid) (heq : encodeAll ts = encodeAll ts') :
    recordsAll ts = recordsAll ts' := by
  rw [← encode_recordsAll, ← encode_recordsAll] at heq
  exact encode_inj h h' heq

/-! ### Strings -/

/-- `b.decode("utf-8")`; `none` is the `UnicodeDecodeError`. -/
def utf8Decode (b : List UInt8) : Option String := String.fromUTF8? ⟨⟨b⟩⟩

lemma utf8Decode_utf8 (s : String) : utf8Decode (utf8 s) = some s := by
  have h : (⟨⟨utf8 s⟩⟩ : ByteArray) = s.toByteArray := rfl
  rw [utf8Decode, h, String.fromUTF8?, dif_pos s.isValidUTF8]
  rfl

end Magicicada.Wire
