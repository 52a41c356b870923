import Magicicada.Errors
import Magicicada.FrameScan
import Magicicada.Prog

/-!
The framing of `RequestHandler`: `dataReceived` and `buildMessage`.

The rest of the handler is the state `app`, and `deliver` stands for parsing a payload and
processing the message in it. What `ParseFromString` was given is recorded in `payloads`.
-/

namespace Magicicada.Framing

open Errors Bytes Prog

/-- `MAX_MESSAGE_SIZE`. -/
def maxMessageSize : ℕ := 2 ^ 16

/-- `RequestHandler.SIZE` and `RequestHandler.MESSAGE`. -/
inductive Waiting
  | size | message
  deriving DecidableEq

structure Handler (σ : Type) where
  waitingFor : Waiting := .size
  pendingLength : ℕ := sizeFmtSize
  pendingParts : List Bytes := []
  /-- The payloads handed to `ParseFromString`. -/
  payloads : List Bytes := []
  /-- The calls of `transport.loseConnection`. -/
  lost : ℕ := 0
  app : σ

/-- The handler `__init__` makes. -/
def fresh {σ : Type} (a : σ) : Handler σ := { app := a }

variable {σ : Type} (deliver : Bytes → EStateM Exn σ PUnit)

def loseConnection : EStateM Exn (Handler σ) PUnit :=
  modify fun h => { h with lost := h.lost + 1 }

/-- `message.ParseFromString(buf)` and `self.processMessage(message)`. -/
def parseAndProcess (buf : Bytes) : EStateM Exn (Handler σ) PUnit := do
  modify fun h => { h with payloads := h.payloads ++ [buf] }
  focus Handler.app (fun a h => { h with app := a }) (deliver buf)

/-- A completed header, or a completed message: the end of `buildMessage`, once
`pending_length` is zero. -/
def finishPart : EStateM Exn (Handler σ) PUnit := do
  let h ← get
  let buf := h.pendingParts.flatten
  modify fun h => { h with pendingParts := [] }
  match h.waitingFor with
  | .size =>
    match unpackSize buf with
    | none => throw .structError
    | some sz =>
      if maxMessageSize < sz then do
        loseConnection
        throw (.storageProtocolErrorSizeTooBig "message too big")
      else modify fun h => { h with pendingLength := sz, waitingFor := .message }
  | .message => do
    modify fun h => { h with waitingFor := .size, pendingLength := sizeFmtSize }
    parseAndProcess deliver buf

/-- The `else` of the `while` in `buildMessage`. -/
def moreData (data : Bytes) : EStateM Exn (Handler σ) PUnit := do
  modify fun h => { h with
    pendingParts := h.pendingParts ++ [data]
    pendingLength := h.pendingLength - data.length }
  let h ← get
  if h.pendingLength = 0 then finishPart deliver
  else pure ()

/-- `RequestHandler.buildMessage`. The fuel bounds its recursive calls and the rounds of its
`while`; the second call below is the next round. -/
def buildMessage : ℕ → Bytes → EStateM Exn (Handler σ) PUnit
  | 0, _ => throw .outOfFuel
  | fuel + 1, data => do
    let h ← get
    if h.pendingLength < data.length then do
      buildMessage fuel (data.take h.pendingLength)
      buildMessage fuel (data.drop h.pendingLength)
    else moreData deliver data

/-- Enough fuel for `n` bytes: a round that takes no byte is followed by one that does. -/
def enough (n : ℕ) : ℕ := 2 * n + 2

/-- `RequestHandler.dataReceived`. -/
def dataReceived (data : Bytes) : EStateM Exn (Handler σ) PUnit :=
  tryCatch (buildMessage deliver (enough data.length) data) fun e =>
    if e.isStorageProtocolError then loseConnection else throw e

/-- Chunks handed to `dataReceived` one after another, whatever it raises. -/
def feed (h : Handler σ) (chunks : List Bytes) : Handler σ :=
  chunks.foldl (fun h c => after (dataReceived deliver c) h) h

/-! ### The handler as a scan -/

instance : NeZero sizeFmtSize := ⟨by decide⟩

/-- The reference reader: four bytes of size, then as many bytes of payload. -/
def reader (s : Bytes) : List Bytes := FrameScan.reader sizeFmtSize bigEndian maxMessageSize s

/-- The scan the reference reader is. -/
def scan : FrameScan.Scan UInt8 → Bytes → FrameScan.Scan UInt8 :=
  FrameScan.run sizeFmtSize bigEndian maxMessageSize

lemma scan_append (s : FrameScan.Scan UInt8) (u v : Bytes) :
    scan s (u ++ v) = scan (scan s u) v := FrameScan.run_append _ _ _ _ _ _

/-- What the fields of a handler say of the stream it has read. -/
inductive Represents (h : Handler σ) : FrameScan.Phase UInt8 → Prop
  | header (buf : Bytes) (w : h.waitingFor = .size) (p : h.pendingParts.flatten = buf)
      (l : buf.length + h.pendingLength = sizeFmtSize) (pos : 0 < h.pendingLength) :
      Represents h (.header buf)
  | body (n : ℕ) (buf : Bytes) (w : h.waitingFor = .message) (p : h.pendingParts.flatten = buf)
      (l : buf.length + h.pendingLength = n) (pos : 0 < h.pendingLength ∨ n = 0) :
      Represents h (.body n buf)
  | dead (w : h.waitingFor = .size) (p : h.pendingParts = []) (l : h.pendingLength = 0) :
      Represents h .dead

/-- The handler has read what the scan has read, and delivered what it delivered. -/
def Reads (h : Handler σ) (s : FrameScan.Scan UInt8) : Prop :=
  Represents h s.phase ∧ h.payloads = s.out

lemma reads_fresh (a : σ) : Reads (fresh a) FrameScan.init :=
  ⟨.header [] rfl rfl rfl (Nat.succ_pos 3), rfl⟩

/-- The call ended in `h`, past an oversized header if it raised. -/
def Ends (r : EStateM.Result Exn (Handler σ) PUnit) (h : Handler σ) : Prop :=
  r = .ok ⟨⟩ h ∨ ∃ e, e ≠ .outOfFuel ∧ r = .error e h ∧ Represents h .dead

/-! ### Completing a part -/

variable {deliver}

/-- A header of an acceptable size. -/
lemma finishPart_size {h : Handler σ} (hw : h.waitingFor = .size)
    (hl : h.pendingParts.flatten.length = sizeFmtSize)
    (hs : ¬ maxMessageSize < bigEndian h.pendingParts.flatten) :
    (finishPart deliver).run h = .ok ⟨⟩ { h with
      pendingParts := []
      pendingLength := bigEndian h.pendingParts.flatten
      waitingFor := .message } := by
  have hu := unpackSize_of_length hl
  simp [finishPart, hw, hu, hs]

/-- A header that announces too much. -/
lemma finishPart_big {h : Handler σ} (hw : h.waitingFor = .size)
    (hl : h.pendingParts.flatten.length = sizeFmtSize)
    (hs : maxMessageSize < bigEndian h.pendingParts.flatten) :
    (finishPart deliver).run h = .error (.storageProtocolErrorSizeTooBig "message too big")
      { h with pendingParts := [], lost := h.lost + 1 } := by
  have hu := unpackSize_of_length hl
  simp [finishPart, hw, hu, hs, loseConnection]

/-- Past an oversized header `struct.unpack` is given the empty string. -/
lemma finishPart_dead {h : Handler σ} (hw : h.waitingFor = .size)
    (hl : h.pendingParts.flatten = []) :
    (finishPart deliver).run h = .error .structError { h with pendingParts := [] } := by
  simp [finishPart, hw, hl]

/-- A payload is processed by a handler that waits for a size already. -/
lemma finishPart_process {h : Handler σ} (hw : h.waitingFor = .message) :
    (finishPart deliver).run h = (parseAndProcess deliver h.pendingParts.flatten).run
      { h with pendingParts := [], pendingLength := sizeFmtSize, waitingFor := .size } := by
  simp [finishPart, hw]

/-- A payload. -/
lemma finishPart_message (hok : ∀ b a, raised (deliver b) a = none) {h : Handler σ}
    (hw : h.waitingFor = .message) :
    (finishPart deliver).run h = .ok ⟨⟩ { h with
      pendingParts := []
      pendingLength := sizeFmtSize
      waitingFor := .size
      payloads := h.payloads ++ [h.pendingParts.flatten]
      app := after (deliver h.pendingParts.flatten) h.app } := by
  have := run_of_not_raised (hok h.pendingParts.flatten h.app)
  rw [finishPart_process hw]
  simp [parseAndProcess, this]

lemma moreData_eq (h : Handler σ) (data : Bytes) :
    (moreData deliver data).run h =
      if h.pendingLength ≤ data.length then
        (finishPart deliver).run { h with
          pendingParts := h.pendingParts ++ [data], pendingLength := 0 }
      else .ok ⟨⟩ { h with
        pendingParts := h.pendingParts ++ [data]
        pendingLength := h.pendingLength - data.length } := by
  by_cases hd : h.pendingLength ≤ data.length
  · simp [moreData, hd]
  · have : h.pendingLength - data.length ≠ 0 := by omega
    simp [moreData, hd, this]

/-- Data of at most the awaited length moves the handler as the scan moves. -/
lemma moreData_reads (hok : ∀ b a, raised (deliver b) a = none) {h : Handler σ}
    {s : FrameScan.Scan UInt8} (hr : Reads h s) {data : Bytes}
    (hd : data.length ≤ h.pendingLength) (hpos : 0 < h.pendingLength) :
    ∃ h', Ends ((moreData deliver data).run h) h' ∧ Reads h' (scan s data) := by
  obtain ⟨phase, out⟩ := s
  obtain ⟨hrep, hout⟩ := hr
  simp only at hrep hout
  rw [moreData_eq]
  by_cases hfull : h.pendingLength ≤ data.length
  · -- the part is complete
    have hlen : data.length = h.pendingLength := by omega
    have hne : data ≠ [] := by rintro rfl; simp at hlen; omega
    rw [if_pos hfull]
    cases hrep with
    | header buf w p l pos =>
      have hflat : (h.pendingParts ++ [data]).flatten = buf ++ data := by simp [p]
      have hl : (h.pendingParts ++ [data]).flatten.length = sizeFmtSize := by
        rw [hflat, List.length_append]; omega
      have hscan : scan ⟨.header buf, out⟩ data =
          ⟨FrameScan.header sizeFmtSize bigEndian maxMessageSize (buf ++ data), out⟩ :=
        FrameScan.run_header_full out hne (by omega)
      rw [hflat] at hl
      rw [hscan, FrameScan.header, if_pos hl]
      by_cases hs : maxMessageSize < bigEndian (buf ++ data)
      · rw [if_pos hs]
        refine ⟨_, Or.inr ⟨_, ?_, finishPart_big w (by rw [hflat, hl]) (by rw [hflat]; exact hs),
          .dead w rfl rfl⟩, .dead w rfl rfl, hout⟩
        simp
      · rw [if_neg hs]
        refine ⟨_, Or.inl (finishPart_size w (by rw [hflat, hl]) (by rw [hflat]; exact hs)),
          .body _ [] rfl rfl (by simp [hflat]) ?_, hout⟩
        simp only [hflat]
        omega
    | body n buf w p l pos =>
      have hflat : (h.pendingParts ++ [data]).flatten = buf ++ data := by simp [p]
      have hscan : scan ⟨.body n buf, out⟩ data = ⟨.header [], out ++ [buf ++ data]⟩ :=
        FrameScan.run_body_full out hne (by omega)
      rw [hscan]
      refine ⟨_, Or.inl (finishPart_message hok w), .header [] rfl rfl rfl (Nat.succ_pos 3), ?_⟩
      simp [hflat, hout]
    | dead w p l => omega
  · -- the part is still incomplete
    rw [if_neg hfull]
    refine ⟨_, Or.inl rfl, ?_⟩
    cases hrep with
    | header buf w p l pos =>
      have hscan : scan ⟨.header buf, out⟩ data = ⟨.header (buf ++ data), out⟩ :=
        FrameScan.run_header_short out (by omega)
      rw [hscan]
      refine ⟨.header _ w (by simp [p]) ?_ ?_, hout⟩
      · simp only [List.length_append]; omega
      · simp only; omega
    | body n buf w p l pos =>
      have hscan : scan ⟨.body n buf, out⟩ data = ⟨.body n (buf ++ data), out⟩ :=
        FrameScan.run_body_short out (by omega)
      rw [hscan]
      refine ⟨.body _ _ w (by simp [p]) ?_ (Or.inl ?_), hout⟩
      · simp only [List.length_append]; omega
      · simp only; omega
    | dead w p l => omega

/-- When nothing is awaited, an empty payload is due or the handler is past an oversized
header; either way the empty string leaves a handler that reads on as the scan does. -/
lemma moreData_nil (hok : ∀ b a, raised (deliver b) a = none) {h : Handler σ}
    {s : FrameScan.Scan UInt8} (hr : Reads h s) (hzero : h.pendingLength = 0) :
    ∃ h' s', Ends ((moreData deliver []).run h) h' ∧ Reads h' s' ∧
      (raised (moreData deliver []) h = none → h'.pendingLength = sizeFmtSize) ∧
      ∀ w, w ≠ [] → scan s w = scan s' w := by
  obtain ⟨phase, out⟩ := s
  obtain ⟨hrep, hout⟩ := hr
  simp only at hrep hout
  have hm : (moreData deliver []).run h =
      (finishPart deliver).run { h with
        pendingParts := h.pendingParts ++ [[]], pendingLength := 0 } := by
    rw [moreData_eq, if_pos (by omega)]
  rw [hm]
  cases hrep with
  | header buf w p l pos => omega
  | body n buf w p l pos =>
    obtain ⟨rfl, rfl⟩ : n = 0 ∧ buf = [] := by
      have hn : n = 0 := by omega
      refine ⟨hn, ?_⟩
      rw [← List.length_eq_zero_iff]; omega
    refine ⟨_, ⟨.header [], out ++ [[]]⟩, Or.inl (finishPart_message hok w),
      ⟨.header [] rfl rfl rfl (Nat.succ_pos 3), ?_⟩, fun _ => rfl, fun w hw => ?_⟩
    · simp only [List.flatten_append, p, hout]; rfl
    · exact FrameScan.run_body_zero out hw
  | dead w p l =>
    have hf : (h.pendingParts ++ [[]]).flatten = [] := by simp [p]
    have he : (finishPart deliver).run { h with
        pendingParts := h.pendingParts ++ [[]], pendingLength := 0 } =
          .error .structError { h with pendingParts := [], pendingLength := 0 } :=
      finishPart_dead w hf
    refine ⟨_, ⟨.dead, out⟩, Or.inr ⟨_, by simp, he, .dead w rfl rfl⟩, ⟨.dead w rfl rfl, hout⟩,
      ?_, fun _ _ => rfl⟩
    intro hn
    rw [raised, hm, he] at hn
    cases hn

/-! ### `buildMessage` -/

lemma represents_dead {h : Handler σ} {s : FrameScan.Scan UInt8} (hr : Reads h s)
    (hd : Represents h .dead) : s.phase = .dead := by
  obtain ⟨hrep, -⟩ := hr
  cases hd with
  | dead w p l =>
    generalize s.phase = ph at *
    cases hrep with
    | header buf w' p' l' pos => omega
    | body n buf w' p' l' pos => rw [w] at w'; cases w'
    | dead => rfl

lemma scan_dead {s : FrameScan.Scan UInt8} (h : s.phase = .dead) (w : Bytes) : scan s w = s := by
  obtain ⟨phase, out⟩ := s
  subst h
  exact FrameScan.run_dead out w

/-- A call on the part that is awaited takes the `else` at once. -/
lemma buildMessage_take {h : Handler σ} (fuel : ℕ) (data : Bytes)
    (hd : h.pendingLength ≤ data.length) :
    (buildMessage deliver (fuel + 1) (data.take h.pendingLength)).run h =
      (moreData deliver (data.take h.pendingLength)).run h := by
  simp [buildMessage, hd]

/-- A round of the `while`, and the next. -/
lemma buildMessage_round {h : Handler σ} (fuel : ℕ) {data : Bytes}
    (hlt : h.pendingLength < data.length) :
    (buildMessage deliver (fuel + 1) data).run h =
      (buildMessage deliver fuel (data.take h.pendingLength) >>= fun _ =>
        buildMessage deliver fuel (data.drop h.pendingLength)).run h := by
  rw [buildMessage, EStateM.run_bind, EStateM.run_get]
  simp only [if_pos hlt]

/-- **`buildMessage` moves the handler as the scan moves**, and does not run out of fuel. -/
lemma buildMessage_reads (hok : ∀ b a, raised (deliver b) a = none) :
    ∀ (fuel : ℕ) {h : Handler σ} {s : FrameScan.Scan UInt8} {data : Bytes}, Reads h s →
      data ≠ [] ∨ 0 < h.pendingLength →
      2 * data.length + (if h.pendingLength = 0 then 2 else 1) ≤ fuel →
      ∃ h', Ends ((buildMessage deliver fuel data).run h) h' ∧ Reads h' (scan s data)
  | 0, h, s, data, _, _, hfuel => by split at hfuel <;> omega
  | fuel + 1, h, s, data, hr, hne, hfuel => by
    by_cases hlt : h.pendingLength < data.length
    · obtain ⟨fuel, rfl⟩ : ∃ m, fuel = m + 1 := ⟨fuel - 1, by split at hfuel <;> omega⟩
      have htake : (buildMessage deliver (fuel + 1) (data.take h.pendingLength)).run h =
          (moreData deliver (data.take h.pendingLength)).run h := buildMessage_take fuel data hlt.le
      rw [buildMessage_round _ hlt]
      rcases Nat.eq_zero_or_pos h.pendingLength with hz | hpos
      · -- the round takes no byte
        have hdata : data ≠ [] := by rintro rfl; simp at hlt
        rw [hz, List.take_zero] at htake
        rw [hz, List.take_zero, List.drop_zero]
        rw [if_pos hz] at hfuel
        obtain ⟨h₁, s₁, he, hr₁, hpend, hscan⟩ := moreData_nil hok hr hz
        rw [hscan data hdata]
        rcases he with he | ⟨e, hef, he, hd⟩
        · have hp := hpend (raised_of_ok he)
          rw [run_bind_ok (htake.trans he)]
          refine buildMessage_reads hok (fuel + 1) hr₁ (Or.inl hdata) ?_
          rw [hp, if_neg (NeZero.ne sizeFmtSize)]
          omega
        · rw [run_bind_error (htake.trans he), scan_dead (represents_dead hr₁ hd)]
          exact ⟨h₁, Or.inr ⟨e, hef, rfl, hd⟩, hr₁⟩
      · -- the round completes a part and leaves some data
        rw [if_neg (by omega)] at hfuel
        have hlen : (data.take h.pendingLength).length = h.pendingLength := by simp; omega
        obtain ⟨h₁, he, hr₁⟩ := moreData_reads hok hr hlen.le hpos
        have hscan : scan s data =
            scan (scan s (data.take h.pendingLength)) (data.drop h.pendingLength) := by
          rw [← scan_append, List.take_append_drop]
        rw [hscan]
        rcases he with he | ⟨e, hef, he, hd⟩
        · rw [run_bind_ok (htake.trans he)]
          refine buildMessage_reads hok (fuel + 1) hr₁ (Or.inl ?_) ?_
          · intro h0
            have := congrArg List.length h0
            simp only [List.length_drop, List.length_nil] at this
            omega
          · simp only [List.length_drop]
            split <;> omega
        · rw [run_bind_error (htake.trans he), scan_dead (represents_dead hr₁ hd)]
          exact ⟨h₁, Or.inr ⟨e, hef, rfl, hd⟩, hr₁⟩
    · have hmore : (buildMessage deliver (fuel + 1) data).run h =
          (moreData deliver data).run h := by
        simp [buildMessage, hlt]
      have hpos : 0 < h.pendingLength := by
        rcases hne with hne | hpos
        · have := List.length_pos_iff.mpr hne
          omega
        · exact hpos
      rw [hmore]
      exact moreData_reads hok hr (by omega) hpos

/-- `dataReceived` moves the handler as the scan moves. -/
lemma dataReceived_reads (hok : ∀ b a, raised (deliver b) a = none) {h : Handler σ}
    {s : FrameScan.Scan UInt8} (hr : Reads h s) {data : Bytes}
    (hne : data ≠ [] ∨ 0 < h.pendingLength) :
    Reads (after (dataReceived deliver data) h) (scan s data) := by
  obtain ⟨h', he, hr'⟩ := buildMessage_reads hok (enough data.length) hr hne
    (by unfold enough; split <;> omega)
  rcases he with he | ⟨e, -, he, -⟩
  · have : (dataReceived deliver data).run h = .ok ⟨⟩ h' := by simp [dataReceived, he]
    rw [after_of_ok this]
    exact hr'
  · -- `loseConnection` once more for a protocol error; anything else goes on to the reactor
    have hkeep : ∃ l, after (dataReceived deliver data) h = { h' with lost := l } := by
      cases hp : e.isStorageProtocolError with
      | true =>
        have : (dataReceived deliver data).run h = .ok ⟨⟩ { h' with lost := h'.lost + 1 } := by
          unfold dataReceived
          rw [run_tryCatch, he]
          simp [hp, loseConnection]
        exact ⟨_, after_of_ok this⟩
      | false =>
        have : (dataReceived deliver data).run h = .error e h' := by
          unfold dataReceived
          rw [run_tryCatch, he]
          simp [hp]
        exact ⟨h'.lost, after_of_error this⟩
    obtain ⟨l, hl⟩ := hkeep
    rw [hl]
    obtain ⟨hrep, hout⟩ := hr'
    refine ⟨?_, hout⟩
    generalize (scan s data).phase = ph at *
    cases hrep with
    | header buf w p l pos => exact .header buf w p l pos
    | body n buf w p l pos => exact .body n buf w p l pos
    | dead w p l => exact .dead w p l

/-- **A handler fed a stream in chunks has read what the scan of the stream has read.** -/
theorem feed_reads (hok : ∀ b a, raised (deliver b) a = none) {chunks : List Bytes} :
    ∀ {h : Handler σ} {s : FrameScan.Scan UInt8}, Reads h s → (∀ c ∈ chunks, c ≠ []) →
      Reads (feed deliver h chunks) (scan s chunks.flatten) := by
  induction chunks with
  | nil => exact fun hr _ => hr
  | cons c chunks ih =>
    intro h s hr hne
    rw [List.flatten_cons, scan_append]
    exact ih (dataReceived_reads hok hr (Or.inl (hne c (by simp))))
      fun d hd => hne d (by simp [hd])

/-! ### What was delivered -/

/-- The payloads handed over since `h` were delivered in order to the rest of the handler. -/
def Delivered (deliver : Bytes → EStateM Exn σ PUnit) (h h' : Handler σ) : Prop :=
  ∃ l, h'.payloads = h.payloads ++ l ∧ h'.app = l.foldl (fun a b => after (deliver b) a) h.app

instance : IsPreorder (Handler σ) (Delivered deliver) where
  refl h := ⟨[], by simp⟩
  trans := by
    rintro h₁ h₂ h₃ ⟨l, hl, ha⟩ ⟨m, hm, hb⟩
    exact ⟨l ++ m, by rw [hm, hl, List.append_assoc], by rw [hb, ha, List.foldl_append]⟩

/-- A step that leaves the payloads and the rest of the handler alone. -/
lemma delivered_of_eq {h h' : Handler σ} (hp : h'.payloads = h.payloads) (ha : h'.app = h.app) :
    Delivered deliver h h' := ⟨[], by simp [hp], by simp [ha]⟩

lemma parseAndProcess_delivered (buf : Bytes) :
    Within (Delivered deliver) (parseAndProcess deliver buf) := by
  intro h
  refine ⟨[buf], ?_⟩
  unfold after
  cases hr : (deliver buf).run h.app <;> simp [parseAndProcess, hr]

lemma finishPart_delivered : Within (Delivered deliver) (finishPart deliver) := by
  refine within_bind within_get fun h => within_bind (within_modify fun _ =>
    delivered_of_eq rfl rfl) fun _ => ?_
  split
  · split
    · exact within_throw _
    · refine within_ite (fun _ => within_bind ?_ fun _ => within_throw _) fun _ => ?_
      · exact within_modify fun _ => delivered_of_eq rfl rfl
      · exact within_modify fun _ => delivered_of_eq rfl rfl
  · exact within_bind (within_modify fun _ => delivered_of_eq rfl rfl) fun _ =>
      parseAndProcess_delivered _

lemma buildMessage_delivered :
    ∀ (fuel : ℕ) (data : Bytes), Within (Delivered deliver) (buildMessage deliver fuel data)
  | 0, _ => within_throw _
  | fuel + 1, data => by
    refine within_bind within_get fun h => within_ite (fun _ => ?_) fun _ => ?_
    · exact within_bind (buildMessage_delivered fuel _) fun _ => buildMessage_delivered fuel _
    · refine within_bind (within_modify fun _ => delivered_of_eq rfl rfl) fun _ =>
        within_bind within_get fun _ => within_ite (fun _ => ?_) fun _ => ?_
      · exact finishPart_delivered
      · exact within_pure _

lemma dataReceived_delivered (data : Bytes) :
    Within (Delivered deliver) (dataReceived deliver data) := by
  refine within_tryCatch (buildMessage_delivered _ _) fun e => within_ite (fun _ => ?_) fun _ => ?_
  · exact within_modify fun _ => delivered_of_eq rfl rfl
  · exact within_throw _

lemma feed_delivered (chunks : List Bytes) :
    ∀ h : Handler σ, Delivered deliver h (feed deliver h chunks) := by
  induction chunks with
  | nil => exact fun h => refl_of _ h
  | cons c chunks ih => exact fun h => trans_of _ (dataReceived_delivered c h) (ih _)

/-! ### The chunking does not matter -/

lemma represents_unique {h h' : Handler σ} {p : FrameScan.Phase UInt8} (hr : Represents h p)
    (hr' : Represents h' p) : h'.waitingFor = h.waitingFor ∧
      h'.pendingLength = h.pendingLength ∧ h'.pendingParts.flatten = h.pendingParts.flatten := by
  cases hr with
  | header buf w p l pos =>
    cases hr' with
    | header _ w' p' l' pos' => exact ⟨by rw [w, w'], by omega, by rw [p, p']⟩
  | body n buf w p l pos =>
    cases hr' with
    | body _ _ w' p' l' pos' => exact ⟨by rw [w, w'], by omega, by rw [p, p']⟩
  | dead w p l =>
    cases hr' with
    | dead w' p' l' => exact ⟨by rw [w, w'], by omega, by rw [p, p']⟩

/-- **The framing is that of the reference reader, whatever the chunking.** The payloads a
fresh handler parses and processes are those the reader takes from the whole stream, in
order, and two chunkings of one stream leave the same `waiting_for`, `pending_length` and
pending bytes. -/
theorem feed_fresh (hok : ∀ b a, raised (deliver b) a = none) (a : σ) (chunks : List Bytes)
    (hne : ∀ c ∈ chunks, c ≠ []) :
    (feed deliver (fresh a) chunks).payloads = reader chunks.flatten ∧
    (feed deliver (fresh a) chunks).app =
      (reader chunks.flatten).foldl (fun a b => after (deliver b) a) a ∧
    ∀ chunks' : List Bytes, (∀ c ∈ chunks', c ≠ []) → chunks'.flatten = chunks.flatten →
      (feed deliver (fresh a) chunks').waitingFor = (feed deliver (fresh a) chunks).waitingFor ∧
      (feed deliver (fresh a) chunks').pendingLength =
        (feed deliver (fresh a) chunks).pendingLength ∧
      (feed deliver (fresh a) chunks').pendingParts.flatten =
        (feed deliver (fresh a) chunks).pendingParts.flatten := by
  have hreads := feed_reads hok (reads_fresh a) hne
  have hpay : (feed deliver (fresh a) chunks).payloads = reader chunks.flatten :=
    hreads.2.trans (FrameScan.run_init_out _)
  refine ⟨hpay, ?_, fun chunks' hne' hflat => ?_⟩
  · obtain ⟨l, hl, happ⟩ : Delivered deliver _ _ := feed_delivered chunks (fresh a)
    rw [happ, ← hpay, hl]
    rfl
  · have hreads' := feed_reads hok (reads_fresh a) hne'
    rw [hflat] at hreads'
    exact represents_unique hreads.1 hreads'.1

/-- A stream of two frames, one of them empty, cut inside its headers. -/
theorem feed_fresh_two :
    (feed (fun b => modify (· ++ [b])) (fresh []) [[0, 0, 0], [0, 0, 0], [0, 2, 7], [8]]).payloads =
      reader [0, 0, 0, 0, 0, 0, 0, 2, 7, 8] :=
  (feed_fresh (fun _ _ => rfl) [] [[0, 0, 0], [0, 0, 0], [0, 2, 7], [8]] (by decide)).1

end Magicicada.Framing
