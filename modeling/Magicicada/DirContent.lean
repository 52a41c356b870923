import Magicicada.Errors
import Magicicada.Prog
import Magicicada.StableSort
import Magicicada.WireRead

/-!
`dircontent.py` and the messages of `dircontent.proto`.

An entry of a directory is written as a message of its own, and the messages are read back as
one, whose entries are theirs.
-/

namespace Magicicada.DirContent

open Errors Pb Prog StableSort Wire

/-! ### The messages -/

/-- `NodeType`. -/
inductive NodeType
  | directory | file | symlink
  deriving DecidableEq, Inhabited

def NodeType.number : NodeType → ℕ
  | .directory => 0
  | .file => 1
  | .symlink => 2

/-- `none` is for a number that is not declared. -/
def NodeType.ofNumber : ℤ → Option NodeType
  | 0 => some .directory
  | 1 => some .file
  | 2 => some .symlink
  | _ => none

structure DirectoryEntry where
  name : Option String := none
  node : Option String := none
  nodeType : Option NodeType := none
  deriving DecidableEq, Inhabited

structure DirectoryContent where
  entries : List DirectoryEntry := []
  deriving DecidableEq, Inhabited

/-- The set fields, in the order of their numbers. -/
def DirectoryEntry.listFields (e : DirectoryEntry) : List Tree :=
  (e.name.map fun s => .scalar "name" 1 (.str s)).toList ++
  (e.node.map fun s => .scalar "node" 2 (.str s)).toList ++
  (e.nodeType.map fun t => .scalar "node_type" 3 (.varint t.number)).toList

def DirectoryContent.listFields (c : DirectoryContent) : List Tree :=
  match c.entries with
  | [] => []
  | entries =>
    [.repeated "entries" 1 (entries.map fun e => .message "entries" 1 e.listFields)]

/-- `content.SerializeToString()`. -/
def DirectoryContent.serializeToString (c : DirectoryContent) : Bytes := encodeAll c.listFields

/-- Merging a field on the wire. A field that is not declared, or whose wire type or
enumeration value is not, is passed over; a string that is not UTF-8 is not parsed. -/
def DirectoryEntry.merge (e : DirectoryEntry) (r : Record) : Option DirectoryEntry :=
  match r.number, r.payload with
  | 1, .delimited b => (utf8Decode b).map fun s => { e with name := some s }
  | 2, .delimited b => (utf8Decode b).map fun s => { e with node := some s }
  | 3, .varint n =>
    match NodeType.ofNumber (n % 2 ^ 32 : ℕ) with
    | some t => some { e with nodeType := some t }
    | none => some e
  | _, _ => some e

def DirectoryContent.merge (c : DirectoryContent) (r : Record) : Option DirectoryContent :=
  match r.number, r.payload with
  | 1, .delimited b =>
    ((records b).bind fun rs => rs.foldlM DirectoryEntry.merge {}).map fun e =>
      { c with entries := c.entries ++ [e] }
  | _, _ => some c

/-- `content.ParseFromString(raw_content)` on a new message; `none` is for what the parser
rejects. -/
def DirectoryContent.parseFromString (raw : Bytes) : Option DirectoryContent :=
  (records raw).bind fun rs => rs.foldlM DirectoryContent.merge {}

/-! ### Errors

Their texts are not the program's. -/

/-- What the parser of the messages raises. -/
def decodeError : Exn := .foreign 0

/-- The `TypeError` of `None` in place of a value, in a field or in a comparison. -/
def noneError : Exn := .foreign 1

/-- The `ValueError` of a number that the enumeration does not declare. -/
def enumError : Exn := .foreign 2

/-- `UnicodeDecodeError`. -/
def unicodeError : Exn := .foreign 3

/-! ### The entries -/

/-- `DirEntry`. -/
structure DirEntry where
  name : Option String
  utf8Name : Option Bytes
  nodeType : Option ℤ
  uuid : Option String
  deriving DecidableEq

/-- `DirEntry.__init__`. -/
def DirEntry.init (name : Option String) (utf8Name : Option Bytes) (nodeType : Option ℤ)
    (uuid : Option String) : Except Exn DirEntry := do
  let name' ← match name, utf8Name with
    | some name, _ => pure (some name)
    | none, some utf8Name =>
      match utf8Decode utf8Name with
      | some name => pure (some name)
      | none => throw unicodeError
    | none, none => pure none
  let utf8Name' := match utf8Name, name with
    | some utf8Name, _ => some utf8Name
    | none, some name => some (utf8 name)
    | none, none => none
  pure ⟨name', utf8Name', nodeType, uuid⟩

/-- `parse_dir_content`: the entries the generator yields. -/
def parseDirContent (rawContent : Bytes) : Except Exn (List DirEntry) :=
  match DirectoryContent.parseFromString rawContent with
  | none => throw decodeError
  | some content =>
    content.entries.mapM fun entry =>
      DirEntry.init (some (rd entry.name)) none (some (rd entry.nodeType).number)
        (some (rd entry.node))

/-- A string of bytes as it is compared: by its numbers, the first one first. -/
def DirEntry.sortKey (e : DirEntry) : List ℕ := (e.utf8Name.getD []).map UInt8.toNat

/-- `sorted(entries, key=operator.attrgetter('utf8_name'))`: two names are compared as soon as
there are two. -/
def sortedEntries (entries : List DirEntry) : Except Exn (List DirEntry) :=
  if 2 ≤ entries.length ∧ ∃ e ∈ entries, e.utf8Name = none then throw noneError
  else pure (sorted DirEntry.sortKey entries)

def notNone {α : Type} : Option α → Except Exn α
  | some a => pure a
  | none => throw noneError

/-- The three assignments to `pb_entry`. -/
def DirectoryEntry.assign (pbEntry : DirectoryEntry) (entry : DirEntry) :
    Except Exn DirectoryEntry := do
  let name ← notNone entry.name
  let number ← notNone entry.nodeType
  let nodeType ← match NodeType.ofNumber number with
    | some t => pure t
    | none => throw enumError
  let uuid ← notNone entry.uuid
  pure { pbEntry with name := some name, nodeType := some nodeType, node := some uuid }

/-- The loop of `yield_presorted_dir_content`, with what is done with each chunk. The one
message is used for all entries. -/
def yieldChunks {σ : Type} (write : Bytes → EStateM Exn σ PUnit) (pbEntry : DirectoryEntry) :
    List DirEntry → EStateM Exn σ PUnit
  | [] => pure ⟨⟩
  | entry :: entries =>
    match pbEntry.assign entry with
    | .error e => throw e
    | .ok pbEntry => do
      write (DirectoryContent.serializeToString ⟨[pbEntry]⟩)
      yieldChunks write pbEntry entries

def yieldPresortedDirContent {σ : Type} (write : Bytes → EStateM Exn σ PUnit)
    (sortedEntries : List DirEntry) : EStateM Exn σ PUnit :=
  yieldChunks write {} sortedEntries

/-- `write_dir_content`, on a stream that keeps what is written to it. -/
def writeDirContent (entries : List DirEntry) : EStateM Exn Bytes PUnit :=
  match sortedEntries entries with
  | .error e => throw e
  | .ok sorted => yieldPresortedDirContent (fun chunk => modify (· ++ chunk)) sorted

/-! ### Writing -/

/-- A name with its encoding, a declared type and a uuid. -/
def DirEntry.Proper (e : DirEntry) : Prop :=
  ∃ (name : String) (t : NodeType) (uuid : String),
    e = ⟨some name, some (utf8 name), some t.number, some uuid⟩

/-- What is written for an entry. -/
def DirEntry.toMessage (e : DirEntry) : DirectoryEntry where
  name := e.name
  node := e.uuid
  nodeType := e.nodeType.bind NodeType.ofNumber

def chunk (e : DirEntry) : Bytes := DirectoryContent.serializeToString ⟨[e.toMessage]⟩

lemma ofNumber_number (t : NodeType) : NodeType.ofNumber t.number = some t := by
  cases t <;> rfl

/-- The message keeps nothing of the entry before. -/
lemma assign_proper (pbEntry : DirectoryEntry) {e : DirEntry} (he : e.Proper) :
    pbEntry.assign e = .ok e.toMessage := by
  obtain ⟨name, t, uuid, rfl⟩ := he
  cases t <;> rfl

lemma run_yieldChunks {entries : List DirEntry} (h : ∀ e ∈ entries, e.Proper)
    (pbEntry : DirectoryEntry) (stream : Bytes) :
    (yieldChunks (fun chunk => modify (· ++ chunk)) pbEntry entries).run stream =
      .ok ⟨⟩ (stream ++ entries.flatMap chunk) := by
  induction entries generalizing pbEntry stream with
  | nil =>
    rw [List.flatMap_nil, List.append_nil]
    rfl
  | cons e entries ih =>
    have he := h e List.mem_cons_self
    rw [yieldChunks, assign_proper pbEntry he]
    dsimp only
    rw [run_modify_bind, ih (fun e' he' => h e' (List.mem_cons_of_mem e he')),
      List.flatMap_cons, List.append_assoc]
    rfl

lemma sortedEntries_proper {entries : List DirEntry} (h : ∀ e ∈ entries, e.Proper) :
    sortedEntries entries = .ok (sorted DirEntry.sortKey entries) := by
  refine if_neg ?_
  rintro ⟨-, e, he, hnone⟩
  obtain ⟨name, t, uuid, rfl⟩ := h e he
  cases hnone

lemma run_writeDirContent {entries : List DirEntry} (h : ∀ e ∈ entries, e.Proper)
    (stream : Bytes) :
    (writeDirContent entries).run stream =
      .ok ⟨⟩ (stream ++ (sorted DirEntry.sortKey entries).flatMap chunk) := by
  have hsorted : ∀ e ∈ sorted DirEntry.sortKey entries, e.Proper := fun e he =>
    h e ((sortedBy_sorted DirEntry.sortKey entries).perm.mem_iff.mp he)
  rw [writeDirContent, sortedEntries_proper h]
  exact run_yieldChunks hsorted {} stream

/-! ### Parsing -/

/-- An entry on the wire. -/
def DirEntry.record (e : DirEntry) : Record := ⟨1, .delimited (encodeAll e.toMessage.listFields)⟩

lemma record_valid (e : DirEntry) : e.record.Valid := ⟨Nat.one_pos, trivial⟩

lemma record_small (e : DirEntry) : e.record.Small := ⟨Nat.one_lt_two_pow (by decide), trivial⟩

lemma encode_record (e : DirEntry) : e.record.encode = chunk e := by
  have hfields : DirectoryContent.listFields ⟨[e.toMessage]⟩ =
      [.repeated "entries" 1 [.message "entries" 1 e.toMessage.listFields]] := rfl
  rw [chunk, DirectoryContent.serializeToString, hfields, ← encode_recordsAll, recordsAll_cons,
    recordsAll_nil, Tree.records_repeated, recordsAll_cons, recordsAll_nil, Tree.records_message,
    List.append_nil, List.append_nil, List.flatMap_singleton, DirEntry.record]

lemma flatMap_chunk (entries : List DirEntry) :
    entries.flatMap chunk = (entries.map DirEntry.record).flatMap Record.encode := by
  rw [List.flatMap_map]
  exact List.flatMap_congr fun e _ => (encode_record e).symm

lemma records_chunks (entries : List DirEntry) :
    records (entries.flatMap chunk) = some (entries.map DirEntry.record) := by
  rw [flatMap_chunk]
  have hrecord : ∀ r ∈ entries.map DirEntry.record, r.Valid ∧ r.Small := by
    intro r hr
    obtain ⟨e, -, rfl⟩ := List.mem_map.mp hr
    exact ⟨record_valid e, record_small e⟩
  exact records_encode (fun r hr => (hrecord r hr).1) fun r hr => (hrecord r hr).2

lemma merge_name (m : DirectoryEntry) (s : String) :
    m.merge ⟨1, .delimited (utf8 s)⟩ = some { m with name := some s } :=
  congrArg (Option.map _) (utf8Decode_utf8 s)

lemma merge_node (m : DirectoryEntry) (s : String) :
    m.merge ⟨2, .delimited (utf8 s)⟩ = some { m with node := some s } :=
  congrArg (Option.map _) (utf8Decode_utf8 s)

lemma merge_nodeType (m : DirectoryEntry) (t : NodeType) :
    m.merge ⟨3, .varint t.number⟩ = some { m with nodeType := some t } := by
  cases t <;> rfl

lemma records_toMessage {e : DirEntry} (he : e.Proper) :
    (records (encodeAll e.toMessage.listFields)).bind
      (fun rs => rs.foldlM DirectoryEntry.merge {}) = some e.toMessage := by
  obtain ⟨name, t, uuid, rfl⟩ := he
  have hfields : recordsAll (DirEntry.toMessage
      ⟨some name, some (utf8 name), some t.number, some uuid⟩).listFields =
      [⟨1, .delimited (utf8 name)⟩, ⟨2, .delimited (utf8 uuid)⟩, ⟨3, .varint t.number⟩] := by
    simp [DirEntry.toMessage, DirectoryEntry.listFields, ofNumber_number, Scalar.payload]
  rw [records_encodeAll, hfields]
  · rw [Option.bind_some, List.foldlM_cons, merge_name, Option.bind_eq_bind, Option.bind_some,
      List.foldlM_cons, merge_node, Option.bind_eq_bind, Option.bind_some, List.foldlM_cons,
      merge_nodeType]
    cases t <;> rfl
  · rw [hfields]
    simp [Record.Valid, Payload.Sized]
  · rw [hfields]
    cases t <;> simp [Record.Small, Payload.Small, NodeType.number]

lemma merge_record (c : DirectoryContent) {e : DirEntry} (he : e.Proper) :
    c.merge e.record = some { c with entries := c.entries ++ [e.toMessage] } := by
  show ((records (encodeAll e.toMessage.listFields)).bind _).map _ = _
  rw [records_toMessage he]
  rfl

lemma foldlM_merge {entries : List DirEntry} (h : ∀ e ∈ entries, e.Proper)
    (c : DirectoryContent) :
    (entries.map DirEntry.record).foldlM DirectoryContent.merge c =
      some { c with entries := c.entries ++ entries.map DirEntry.toMessage } := by
  induction entries generalizing c with
  | nil => simp
  | cons e entries ih =>
    rw [List.map_cons, List.foldlM_cons, merge_record c (h e List.mem_cons_self),
      Option.bind_eq_bind, Option.bind_some, ih fun e' he' => h e' (List.mem_cons_of_mem e he'),
      List.map_cons, List.append_assoc, List.singleton_append]

lemma init_toMessage {e : DirEntry} (he : e.Proper) :
    DirEntry.init (some (rd e.toMessage.name)) none (some (rd e.toMessage.nodeType).number)
      (some (rd e.toMessage.node)) = .ok e := by
  obtain ⟨name, t, uuid, rfl⟩ := he
  cases t <;> rfl

lemma parseDirContent_chunks {entries : List DirEntry} (h : ∀ e ∈ entries, e.Proper) :
    parseDirContent (entries.flatMap chunk) = .ok entries := by
  have hparse : DirectoryContent.parseFromString (entries.flatMap chunk) =
      some ⟨entries.map DirEntry.toMessage⟩ := by
    rw [DirectoryContent.parseFromString, records_chunks, Option.bind_some, foldlM_merge h]
    rfl
  rw [parseDirContent, hparse]
  dsimp only
  clear hparse
  induction entries with
  | nil => rfl
  | cons e entries ih =>
    rw [List.map_cons, List.mapM_cons, init_toMessage (h e List.mem_cons_self),
      ih fun e' he' => h e' (List.mem_cons_of_mem e he')]
    rfl

/-! ### Round trip -/

/-- **What is written is read back sorted.** The entries come back in the order of the bytes of
their names, entries with one name in the order they had, and writing them again gives the
same bytes. -/
theorem parse_written {entries : List DirEntry} (h : ∀ e ∈ entries, e.Proper) :
    ∃ bytes parsed,
      (∀ stream, (writeDirContent entries).run stream = .ok ⟨⟩ (stream ++ bytes)) ∧
      parseDirContent bytes = .ok parsed ∧
      SortedBy DirEntry.sortKey entries parsed ∧
      ∀ stream, (writeDirContent parsed).run stream = .ok ⟨⟩ (stream ++ bytes) := by
  have hs := sortedBy_sorted DirEntry.sortKey entries
  have hproper : ∀ e ∈ sorted DirEntry.sortKey entries, e.Proper := fun e he =>
    h e (hs.perm.mem_iff.mp he)
  have hagain : sorted DirEntry.sortKey (sorted DirEntry.sortKey entries) =
      sorted DirEntry.sortKey entries := (sortedBy_sorted _ _).unique hs.again
  refine ⟨_, _, run_writeDirContent h, parseDirContent_chunks hproper, hs, fun stream => ?_⟩
  rw [run_writeDirContent hproper, hagain]

/-- Two names that come the other way round, and one that is there twice. -/
theorem parse_written_three :
    ∃ bytes parsed,
      (∀ stream, (writeDirContent
        [⟨some "negatory", some (utf8 "negatory"), some 1, some "abcd"⟩,
         ⟨some "beef", some (utf8 "beef"), some 0, some "efgh"⟩,
         ⟨some "beef", some (utf8 "beef"), some 2, some ""⟩]).run stream =
          .ok ⟨⟩ (stream ++ bytes)) ∧
      parseDirContent bytes = .ok parsed ∧
      SortedBy DirEntry.sortKey
        [⟨some "negatory", some (utf8 "negatory"), some 1, some "abcd"⟩,
         ⟨some "beef", some (utf8 "beef"), some 0, some "efgh"⟩,
         ⟨some "beef", some (utf8 "beef"), some 2, some ""⟩] parsed ∧
      ∀ stream, (writeDirContent parsed).run stream = .ok ⟨⟩ (stream ++ bytes) := by
  refine parse_written fun e he => ?_
  rw [List.mem_cons, List.mem_cons, List.mem_singleton] at he
  rcases he with rfl | rfl | rfl
  · exact ⟨"negatory", .file, "abcd", rfl⟩
  · exact ⟨"beef", .directory, "efgh", rfl⟩
  · exact ⟨"beef", .symlink, "", rfl⟩

/-! ### Canonical content -/

/-- Names that differ are compared as different. -/
lemma sortKey_nodup {entries : List DirEntry} (h : ∀ e ∈ entries, e.Proper)
    (hnames : (entries.map DirEntry.utf8Name).Nodup) : (entries.map DirEntry.sortKey).Nodup := by
  refine List.Nodup.map_on (fun e he e' he' hkey => ?_) hnames.of_map
  refine List.inj_on_of_nodup_map hnames he he' ?_
  obtain ⟨name, t, uuid, rfl⟩ := h e he
  obtain ⟨name', t', uuid', rfl⟩ := h e' he'
  have hinj : Function.Injective (List.map UInt8.toNat) := List.map_injective_iff.mpr
    fun _ _ => UInt8.toNat_inj.mp
  exact congrArg some (hinj hkey)

/-- The bytes of a directory are those of no other one. -/
lemma perm_of_chunks {entries entries' : List DirEntry} (h : ∀ e ∈ entries, e.Proper)
    (h' : ∀ e ∈ entries', e.Proper) (hbytes : (sorted DirEntry.sortKey entries).flatMap chunk =
      (sorted DirEntry.sortKey entries').flatMap chunk) : entries.Perm entries' := by
  have hperm := (sortedBy_sorted DirEntry.sortKey entries).perm
  have hperm' := (sortedBy_sorted DirEntry.sortKey entries').perm
  have hparse := parseDirContent_chunks fun e he => h e (hperm.mem_iff.mp he)
  rw [hbytes, parseDirContent_chunks fun e he => h' e (hperm'.mem_iff.mp he),
    Except.ok.injEq] at hparse
  rw [hparse] at hperm'
  exact hperm.symm.trans hperm'

/-- **The content of a directory is canonical.** Two lists of entries are written alike if and
only if one is a permutation of the other, where the names in one of them are distinct. -/
theorem written_canonical {entries entries' : List DirEntry} (h : ∀ e ∈ entries, e.Proper)
    (h' : ∀ e ∈ entries', e.Proper) (hnames : (entries.map DirEntry.utf8Name).Nodup) :
    ∃ bytes bytes',
      (∀ stream, (writeDirContent entries).run stream = .ok ⟨⟩ (stream ++ bytes)) ∧
      (∀ stream, (writeDirContent entries').run stream = .ok ⟨⟩ (stream ++ bytes')) ∧
      (bytes = bytes' ↔ entries.Perm entries') := by
  refine ⟨_, _, run_writeDirContent h, run_writeDirContent h', perm_of_chunks h h', fun hperm => ?_⟩
  rw [sorted_congr hperm (sortKey_nodup h hnames)]

/-- Two entries, both ways round. -/
theorem written_canonical_two :
    ∃ bytes bytes',
      (∀ stream, (writeDirContent
        [⟨some "negatory", some (utf8 "negatory"), some 1, some "abcd"⟩,
         ⟨some "beef", some (utf8 "beef"), some 0, some "efgh"⟩]).run stream =
          .ok ⟨⟩ (stream ++ bytes)) ∧
      (∀ stream, (writeDirContent
        [⟨some "beef", some (utf8 "beef"), some 0, some "efgh"⟩,
         ⟨some "negatory", some (utf8 "negatory"), some 1, some "abcd"⟩]).run stream =
          .ok ⟨⟩ (stream ++ bytes')) ∧
      (bytes = bytes' ↔
        ([⟨some "negatory", some (utf8 "negatory"), some 1, some "abcd"⟩,
          ⟨some "beef", some (utf8 "beef"), some 0, some "efgh"⟩] : List DirEntry).Perm
        [⟨some "beef", some (utf8 "beef"), some 0, some "efgh"⟩,
         ⟨some "negatory", some (utf8 "negatory"), some 1, some "abcd"⟩]) := by
  have hproper : ∀ e ∈ ([⟨some "negatory", some (utf8 "negatory"), some 1, some "abcd"⟩,
      ⟨some "beef", some (utf8 "beef"), some 0, some "efgh"⟩] : List DirEntry), e.Proper := by
    intro e he
    rw [List.mem_cons, List.mem_singleton] at he
    rcases he with rfl | rfl
    · exact ⟨"negatory", .file, "abcd", rfl⟩
    · exact ⟨"beef", .directory, "efgh", rfl⟩
  exact written_canonical hproper (fun e he => hproper e (by simpa [or_comm] using he))
    (by decide)

end Magicicada.DirContent
