import Magicicada.QueryFrames

/-!
The answer to a message that is not valid: an `ERROR` whose comment shows the bad fields. The
comment is cut to a number of characters, and the peer reads a number of bytes.
-/

namespace Magicicada.Client

open Pb Errors Wire Fields Bytes Framing Validators Requests Prog MultiQuery

/-! ### Sizes in UTF-8 -/

/-- The bytes the characters take past one each. -/
def extraBytes (s : List Char) : ℕ := (s.map fun c => c.utf8Size - 1).sum

@[simp] lemma extraBytes_append (s t : List Char) :
    extraBytes (s ++ t) = extraBytes s + extraBytes t := by simp [extraBytes]

lemma extraBytes_replicate (n : ℕ) (c : Char) :
    extraBytes (List.replicate n c) = n * (c.utf8Size - 1) := by
  simp [extraBytes, List.sum_replicate]

lemma length_utf8_append (s t : String) : (utf8 (s ++ t)).length =
    (utf8 s).length + (utf8 t).length := by
  have hlen : ∀ s : String, (utf8 s).length = s.utf8ByteSize := fun _ => rfl
  rw [hlen, String.utf8ByteSize_append, hlen, hlen]

lemma length_utf8_ofList (s : List Char) :
    (utf8 (String.ofList s)).length = s.length + extraBytes s := by
  induction s with
  | nil => rfl
  | cons c s ih =>
    have hc : (utf8 (String.singleton c)).length = c.utf8Size := String.utf8ByteSize_singleton
    have hpos := c.utf8Size_pos
    rw [← List.singleton_append, String.ofList_append, ← String.singleton_eq_ofList,
      length_utf8_append, hc, ih]
    simp only [extraBytes, List.singleton_append, List.map_cons, List.sum_cons, List.length_cons]
    omega

lemma length_base128_le {n k : ℕ} (h : n < 128 ^ (k + 1)) : (base128 n).length ≤ k + 1 := by
  induction k generalizing n with
  | zero => rw [base128_of_lt (by simpa using h)]; simp
  | succ k ih =>
    rw [base128]
    split
    · simp
    · have := ih (n := n / 128) (by rw [Nat.div_lt_iff_lt_mul (by omega)]; rwa [pow_succ] at h)
      simp only [List.length_cons]
      omega

lemma idSize_le (i : ℤ) : idSize i ≤ 10 := by
  refine length_base128_le (k := 9) ?_
  have : ofInt i < 2 ^ 64 := by
    unfold ofInt
    omega
  exact this.trans (by decide)

/-! ### The size of an answer -/

/-- An `ERROR` of type `PROTOCOL_ERROR`. -/
def protocolErrorMessage (i : ℤ) (comment : String) : Message :=
  { id := i
    type := .error
    error := some { type := some .protocolError, comment := some comment } }

lemma byteSize_protocolErrorMessage (i : ℤ) {comment : String} {n : ℕ}
    (hn : (utf8 comment).length = n) : byteSize (protocolErrorMessage i comment) =
      7 + idSize i + (base128 (3 + (base128 n).length + n)).length + (base128 n).length + n := by
  have hlist : Message.listFields (protocolErrorMessage i comment) =
      [.scalar "id" 1 (.varint (ofInt i)), .scalar "type" 2 (.varint 1),
        .message "error" 3
          [.scalar "type" 1 (.varint 15), .scalar "comment" 2 (.str comment)]] := by
    simp [Message.listFields, protocolErrorMessage, intField, uintField, subField, strField,
      repField, MessageType.number, Error.listFields, ErrorType.number]
  have hid : (Tree.scalar "id" 1 (.varint (ofInt i))).encode.length = 1 + idSize i := by
    simp (disch := decide) [Tree.encode, Scalar.encode, key, base128_of_lt, idSize]
    omega
  have htype : (Tree.scalar "type" 2 (.varint 1)).encode.length = 2 := by
    simp (disch := decide) [Tree.encode, Scalar.encode, key, base128_of_lt]
  have hfields : (encodeAll [.scalar "type" 1 (.varint 15),
      .scalar "comment" 2 (.str comment)]).length = 3 + (base128 n).length + n := by
    simp (disch := decide) [Tree.encode, Scalar.encode, key, delimited, base128_of_lt, hn]
    omega
  have herror : (Tree.message "error" 3 [.scalar "type" 1 (.varint 15),
      .scalar "comment" 2 (.str comment)]).encode.length =
        1 + (base128 (3 + (base128 n).length + n)).length + (3 + (base128 n).length + n) := by
    rw [Tree.encode, delimited, List.length_append, List.length_append, hfields]
    simp (disch := decide) [key, base128_of_lt]
    omega
  rw [byteSize, serialize, hlist, encodeAll_cons, encodeAll_cons, encodeAll_cons, encodeAll_nil,
    List.append_nil, List.length_append, List.length_append, hid, htype, herror]
  omega

/-- An answer fits a message when its comment leaves room for the rest of it. -/
lemma protocolErrorMessage_fits (i : ℤ) {comment : String} {n : ℕ}
    (hn : (utf8 comment).length = n) : byteSize (protocolErrorMessage i comment) ≤ maxMessageSize ↔
      n + idSize i + 13 ≤ maxMessageSize := by
  rw [byteSize_protocolErrorMessage i hn]
  have hid := idSize_le i
  have hmax : maxMessageSize = 65536 := rfl
  rw [hmax]
  rcases lt_or_ge n (2 ^ 14) with hsmall | hlarge
  · -- a short comment fits anyway
    have h1 : (base128 n).length ≤ 3 := length_base128_le (k := 2) (by omega)
    have h2 : (base128 (3 + (base128 n).length + n)).length ≤ 3 :=
      length_base128_le (k := 2) (by omega)
    omega
  · rcases lt_or_ge n (2 ^ 20) with hlt | hge
    · have h1 : (base128 n).length = 3 := length_base128 hlarge (by omega)
      have h2 : (base128 (3 + (base128 n).length + n)).length = 3 :=
        length_base128 (by omega) (by omega)
      omega
    · omega

/-! ### The answer -/

/-- What `processMessage` says of a message that is not valid, before it cuts that. -/
def report (printable : Char → Bool) (m : Message) : String :=
  "Validation error:\n" ++
    String.intercalate "\n" ((Client.validateMessage m).map (Invalid.text printable))

/-- The characters of a report that are kept. -/
def shown (s : List Char) : List Char :=
  if maxPayloadSize - 100 < s.length then s.take (maxPayloadSize - 112) else s

/-- The comment of the answer. -/
def comment (printable : Char → Bool) (m : Message) : String :=
  let text := report printable m
  if maxPayloadSize - 100 < text.length then
    String.ofList (text.toList.take (maxPayloadSize - 112)) ++ " [truncated]"
  else text

/-- The characters of the report, at most as many as are sent, and their extra bytes leave room
for the id and what else is in the answer. -/
def Legible (printable : Char → Bool) (m : Message) : Prop :=
  min (report printable m).toList.length (maxPayloadSize - 100) +
    extraBytes (shown (report printable m).toList) + idSize m.id + 13 ≤ maxMessageSize

instance (printable : Char → Bool) (m : Message) : Decidable (Legible printable m) :=
  inferInstanceAs (Decidable (_ ≤ _))

/-- The comment takes a byte for each character that is sent and the extra ones. -/
lemma length_utf8_comment (printable : Char → Bool) (m : Message) :
    (utf8 (comment printable m)).length =
      min (report printable m).toList.length (maxPayloadSize - 100) +
        extraBytes (shown (report printable m).toList) := by
  have hmax : maxPayloadSize = 65236 := rfl
  unfold comment shown
  generalize report printable m = text
  have hlen : text.toList.length = text.length := String.length_toList
  have htrunc : (utf8 " [truncated]").length = 12 := rfl
  simp only
  split
  · next hlong =>
    rw [if_pos (by omega), length_utf8_append, length_utf8_ofList, htrunc, List.length_take]
    omega
  · next hshort =>
    have htext : utf8 text = utf8 (String.ofList text.toList) := by rw [String.ofList_toList]
    rw [if_neg (by omega), htext, length_utf8_ofList]
    omega

/-- The answer to a message that is not valid. -/
def answerTo (printable : Char → Bool) (m : Message) : Message :=
  protocolErrorMessage m.id (comment printable m)

/-- A world that has logged what is wrong with a message. -/
def World.complain (w : World) (m : Message) : World := { w with
  logged := w.logged ++ ["Validation error: " ++
    String.intercalate ", " ((Client.validateMessage m).map (Invalid.text w.env.printable))] }

/-- `rejectMessage` logs, and sends its answer. -/
lemma rejectMessage_run {w : World} (hlog : w.env.hasLog = true) (m : Message) :
    (rejectMessage m (Client.validateMessage m)).run w =
      .ok ⟨⟩ (sendMessage (answerTo w.env.printable m) (w.complain m)) := by
  unfold rejectMessage
  rw [run_get_bind, if_pos hlog]
  rfl

/-- An invalid message is answered by an `ERROR` that the peer accepts, and nothing else happens
than that it is complained about. -/
structure Answered (w : World) (m : Message) (raises : Option Exn) : Prop where
  returns : raised (processMessage m raises) w = none
  sent : ∃ answer, (w.step (.message m raises)).sent = w.sent ++ [answer] ∧ answer.id = m.id ∧
    answer.type = .error ∧ (rd answer.error).type = some .protocolError ∧ Accepted answer
  core : (w.step (.message m raises)).core = (w.complain m).core

/-- The peer accepts the answer when it is legible. -/
lemma accepted_answerTo (printable : Char → Bool) (m : Message) :
    Accepted (answerTo printable m) ↔ Legible printable m := by
  rw [accepted_iff]
  exact protocolErrorMessage_fits m.id (length_utf8_comment printable m)

/-- **An invalid message is answered** exactly when what the answer shows of it is legible. -/
theorem answered_iff {w : World} (hlog : w.env.hasLog = true) {m : Message}
    (hm : Client.validateMessage m ≠ []) (raises : Option Exn) :
    Answered w m raises ↔ Legible w.env.printable m := by
  have hrun : (processMessage m raises).run w = _ :=
    (congrArg (EStateM.run · w) (if_pos hm)).trans (rejectMessage_run hlog m)
  have hstep : w.step (.message m raises) = _ := after_of_ok hrun
  have hslows := slows_sendMessage (answerTo w.env.printable m) (w.complain m)
  have hsent : (w.step (.message m raises)).sent = w.sent ++ [answerTo w.env.printable m] := by
    rw [hstep, hslows.sent]
    rfl
  rw [← accepted_answerTo]
  constructor
  · intro h
    obtain ⟨answer, hanswer, -, -, -, haccepted⟩ := h.sent
    obtain ⟨-, heq⟩ := List.append_inj' (hsent.symm.trans hanswer) rfl
    exact List.singleton_inj.mp heq ▸ haccepted
  · exact fun h => ⟨raised_of_ok hrun, ⟨_, hsent, rfl, rfl, rfl, h⟩, hstep ▸ hslows.core⟩

/-! ### A share id that grows -/

lemma length_toStr (n : ℕ) : (Uuid.toStr n).length = 36 := by
  have hpad : ∀ k n, (Uuid.hexPad k n).length = k := by
    intro k
    induction k with
    | zero => exact fun _ => rfl
    | succ k ih => intro n; simp [Uuid.hexPad, ih]
  have hstr : ∀ h : List Char, h.length = 32 → (h.take 8 ++ '-' :: (h.drop 8).take 4 ++
      '-' :: (h.drop 12).take 4 ++ '-' :: (h.drop 16).take 4 ++ '-' :: h.drop 20).length = 36 := by
    intro h hh
    simp only [List.length_append, List.length_cons, List.length_take, List.length_drop, hh]
    decide
  exact String.length_ofList.trans (hstr _ (hpad 32 n))

/-- A valid node id has 36 characters. -/
lemma length_of_isValidNode {s : String} (h : isValidNode s = true) : s.length = 36 := by
  unfold isValidNode at h
  cases hs : Uuid.parse s with
  | error text => simp [hs] at h
  | ok n =>
    simp only [hs, beq_iff_eq] at h
    rw [← h, length_toStr]

/-- An `UNLINK` for a share. -/
def unlinkOf (share : String) : Message :=
  { id := 1, type := .unlink, unlink := some { share := some share } }

lemma listFields_unlinkOf (share : String) : Message.listFields (unlinkOf share) =
    [.scalar "id" 1 (.varint 1), .scalar "type" 2 (.varint 24),
      .message "unlink" 16 [.scalar "share" 1 (.str share)]] := by
  simp [Message.listFields, unlinkOf, intField, uintField, subField, strField, repField,
    MessageType.number, Unlink.listFields, ofInt]

lemma validateMessage_unlinkOf {share : String} (h : isValidShare share = false) :
    Client.validateMessage (unlinkOf share) = [⟨"share", .str share⟩] := by
  rw [Client.validateMessage, listFields_unlinkOf]
  simp [Validators.validateMessage, validateField, validator, onStr, h]

lemma byteSize_unlinkOf {share : String} {n : ℕ} (hn : (utf8 share).length = n)
    (h : n < 2 ^ 20) : byteSize (unlinkOf share) ≤ n + 14 := by
  have hlen : (base128 n).length ≤ 3 := length_base128_le (k := 2) (by omega)
  have hbody : (base128 (1 + (base128 n).length + n)).length ≤ 3 :=
    length_base128_le (k := 2) (by omega)
  have hkey : (key 16 2).length ≤ 2 := length_base128_le (k := 1) (by decide)
  have hshare : (encodeAll [.scalar "share" 1 (.str share)]).length =
      1 + (base128 n).length + n := by
    simp (disch := decide) [Tree.encode, Scalar.encode, key, delimited, base128_of_lt, hn]
    omega
  have hunlink : (Tree.message "unlink" 16 [.scalar "share" 1 (.str share)]).encode.length ≤
      n + 9 := by
    rw [Tree.encode, delimited, List.length_append, List.length_append, hshare]
    omega
  rw [byteSize, serialize, listFields_unlinkOf, encodeAll_cons, encodeAll_cons, encodeAll_cons,
    encodeAll_nil, List.append_nil, List.length_append, List.length_append]
  simp (disch := decide) only [Tree.encode, Scalar.encode, key, base128_of_lt] at hunlink ⊢
  simp only [List.length_append, List.length_singleton] at hunlink ⊢
  omega

/-- What the report says before it shows the share. -/
def beforeShare : List Char := ("Validation error:\n" ++ ("Invalid " ++ "share" ++ ": ")).toList

lemma toList_append_ofList (a b : String) (l : List Char) :
    (a ++ (b ++ String.ofList l)).toList = (a ++ b).toList ++ l := by
  rw [String.toList_append, String.toList_append, String.toList_append, String.toList_ofList,
    List.append_assoc]

/-- One bad share, whatever the report begins with and joins the entries with. -/
lemma toList_shareText (printable : Char → Bool) (share a b : String) {l : List Invalid}
    (hl : l = [⟨"share", .str share⟩]) :
    (a ++ String.intercalate b (l.map (Invalid.text printable))).toList =
      (a ++ ("Invalid " ++ "share" ++ ": ")).toList ++ Validators.repr printable (.str share) := by
  rw [hl, List.map_singleton, String.intercalate_singleton]
  exact toList_append_ofList a _ _

lemma report_unlinkOf {share : String} (h : isValidShare share = false)
    (printable : Char → Bool) : (report printable (unlinkOf share)).toList =
      beforeShare ++ Validators.repr printable (.str share) :=
  toList_shareText printable share "Validation error:\n" "\n" (validateMessage_unlinkOf h)

/-- Characters of three bytes, and line ends, which `repr` shows as two characters each. -/
def growing : List Char := List.replicate 21000 '一' ++ List.replicate 2400 '\n'

lemma length_growing : growing.length = 23400 := by
  rw [growing, List.length_append, List.length_replicate, List.length_replicate]

lemma extraBytes_growing : extraBytes growing = 42000 := by
  rw [growing, extraBytes_append, extraBytes_replicate, extraBytes_replicate]
  rfl

lemma isValidShare_growing : isValidShare (String.ofList growing) = false := by
  have hlen : (String.ofList growing).length = 23400 := by
    rw [String.length_ofList, length_growing]
  rw [isValidShare, Bool.or_eq_false_iff]
  constructor
  · rw [beq_eq_false_iff_ne]
    intro hempty
    rw [hempty] at hlen
    exact absurd hlen (by decide)
  · by_contra hvalid
    have := length_of_isValidNode (Bool.not_eq_false _ ▸ hvalid)
    omega

lemma repr_growing : Validators.repr (fun _ => true) (.str (String.ofList growing)) =
    '\'' :: (List.replicate 21000 '一' ++ (List.replicate 2400 ['\\', 'n']).flatten) ++ ['\''] := by
  have hquote : quoteOf growing = '\'' := by
    have hmem : '\'' ∉ growing := by
      rw [growing, List.mem_append, List.mem_replicate, List.mem_replicate]
      decide
    exact if_neg fun h => hmem h.1
  have hwide : reprChar (fun _ => true) '\'' '一' = ['一'] := by decide
  have hline : reprChar (fun _ => true) '\'' '\n' = ['\\', 'n'] := by decide
  rw [Validators.repr, String.toList_ofList, hquote, growing, List.flatMap_append,
    List.flatMap_replicate, List.flatMap_replicate, hwide, hline, List.flatten_replicate_singleton]

/-- A client with a log. -/
def logging : World :=
  { World.init (fun _ => .ping) (fun _ => ⟨fun _ => .ok [], []⟩) with env := { hasLog := true } }

lemma extraBytes_shown_le (s : List Char) : extraBytes (shown s) ≤ extraBytes s := by
  unfold shown
  split
  · conv_rhs => rw [← List.take_append_drop (maxPayloadSize - 112) s, extraBytes_append]
    exact Nat.le_add_right ..
  · exact le_rfl

/-- A report that is small enough in any case. -/
lemma legible_of_small {printable : Char → Bool} {m : Message} {s : List Char}
    (hs : (report printable m).toList = s)
    (hsmall : s.length + extraBytes s + 23 ≤ maxMessageSize) : Legible printable m := by
  have hid := idSize_le m.id
  have hextra := extraBytes_shown_le s
  unfold Legible
  rw [hs]
  omega

/-- A report that is not cut, and too large. -/
lemma not_legible_of_large {printable : Char → Bool} {m : Message} {s : List Char}
    (hs : (report printable m).toList = s) (hshort : s.length ≤ maxPayloadSize - 100)
    (hlarge : maxMessageSize < s.length + extraBytes s) : ¬Legible printable m := by
  have hshown : shown s = s := if_neg (not_lt.mpr hshort)
  unfold Legible
  rw [hs, hshown]
  omega

lemma not_legible_growing : ¬Legible (fun _ => true) (unlinkOf (String.ofList growing)) := by
  have hbefore : beforeShare.length = 33 := by decide
  have hlines : (List.replicate 2400 ['\\', 'n']).flatten.length = 4800 := by
    rw [List.length_flatten, List.map_replicate, List.sum_replicate]
    rfl
  have hreport := report_unlinkOf isValidShare_growing (fun _ => true)
  rw [repr_growing] at hreport
  generalize (List.replicate 2400 ['\\', 'n']).flatten = lines at hlines hreport
  have hlen : (beforeShare ++ ('\'' :: (List.replicate 21000 '一' ++ lines) ++ ['\''])).length =
      25835 := by
    rw [List.length_append, List.length_append, List.length_cons, List.length_append,
      List.length_replicate, List.length_singleton, hbefore, hlines]
  have hextra : 42000 ≤
      extraBytes (beforeShare ++ ('\'' :: (List.replicate 21000 '一' ++ lines) ++ ['\''])) := by
    have hwide : extraBytes (List.replicate 21000 '一') = 42000 := extraBytes_replicate 21000 '一'
    rw [← List.singleton_append, extraBytes_append, extraBytes_append, extraBytes_append,
      extraBytes_append, hwide]
    omega
  have hmax : maxMessageSize = 65536 ∧ maxPayloadSize = 65236 := ⟨rfl, rfl⟩
  exact not_legible_of_large hreport (by omega) (by omega)

/-- The answer that shows the share id is larger than a message. -/
theorem not_answered : ¬∀ (w : World) (m : Message), w.env.hasLog = true →
    byteSize m ≤ maxMessageSize → Client.validateMessage m ≠ [] → Answered w m none := by
  intro h
  have hsize : byteSize (unlinkOf (String.ofList growing)) ≤ maxMessageSize := by
    refine (byteSize_unlinkOf (length_utf8_ofList growing) ?_).trans ?_ <;>
      rw [length_growing, extraBytes_growing] <;> decide
  have hinvalid : Client.validateMessage (unlinkOf (String.ofList growing)) ≠ [] := by
    rw [validateMessage_unlinkOf isValidShare_growing]
    exact List.cons_ne_nil _ _
  have hanswered := h logging _ rfl hsize hinvalid
  rw [answered_iff rfl hinvalid none] at hanswered
  exact not_legible_growing hanswered

/-- A share id of one character. -/
theorem answered_iff_short : Answered logging (unlinkOf "x") none := by
  have hshare : isValidShare "x" = false := by decide
  have hinvalid : Client.validateMessage (unlinkOf "x") ≠ [] := by
    rw [validateMessage_unlinkOf hshare]
    exact List.cons_ne_nil _ _
  refine (answered_iff rfl hinvalid none).mpr ?_
  exact legible_of_small (report_unlinkOf hshare _) (by decide)

end Magicicada.Client
