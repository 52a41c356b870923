import Magicicada.Hello
import Magicicada.Registry
import Magicicada.Serializing

/-!
Messages on the wire: what `sendMessage` writes for some messages is read as these messages by
a `RequestHandler`, however it is cut.

An exception that is raised while a message is processed leaves `buildMessage`, and the rest of
the chunk is lost. So the messages are all read where processing them, one after another, raises
nothing.
-/

namespace Magicicada.Frames

open Errors Bytes Prog Pb Fields Framing

variable {σ : Type} {deliver : Bytes → EStateM Exn σ PUnit}

/-! ### Processing that raises nothing -/

/-- The payloads are parsed and processed one after another, and nothing is raised. -/
def Accepts (deliver : Bytes → EStateM Exn σ PUnit) : σ → List Bytes → Prop
  | _, [] => True
  | a, b :: l => raised (deliver b) a = none ∧ Accepts deliver (after (deliver b) a) l

/-- Processing, with what it raises dropped. -/
def lenient (deliver : Bytes → EStateM Exn σ PUnit) (b : Bytes) : EStateM Exn σ PUnit :=
  tryCatch (deliver b) fun _ => pure ⟨⟩

@[simp] lemma raised_lenient (b : Bytes) (a : σ) : raised (lenient deliver b) a = none := by
  unfold raised lenient
  rw [run_tryCatch]
  cases (deliver b).run a <;> rfl

@[simp] lemma after_lenient (b : Bytes) (a : σ) :
    after (lenient deliver b) a = after (deliver b) a := by
  unfold after lenient
  rw [run_tryCatch]
  cases (deliver b).run a <;> rfl

/-- Where nothing is raised there is nothing to drop. -/
lemma lenient_run {b : Bytes} {a : σ} (h : raised (deliver b) a = none) :
    (lenient deliver b).run a = (deliver b).run a := by
  unfold raised at h
  unfold lenient
  rw [run_tryCatch]
  cases hr : (deliver b).run a with
  | ok u t => rfl
  | error e t =>
    rw [hr] at h
    cases h

lemma accepts_append {a : σ} {l l' : List Bytes} : Accepts deliver a (l ++ l') ↔
    Accepts deliver a l ∧ Accepts deliver (l.foldl (fun a b => after (deliver b) a) a) l' := by
  induction l generalizing a with
  | nil => simp [Accepts]
  | cons b l ih => simp [Accepts, ih, and_assoc]

/-- Nothing was raised by what was delivered between two states of a handler. -/
def Accepted (deliver : Bytes → EStateM Exn σ PUnit) (h t : Handler σ) : Prop :=
  ∃ l, t.payloads = h.payloads ++ l ∧ Accepts deliver h.app l

lemma Accepted.split {h m t : Handler σ} (hacc : Accepted deliver h t)
    (hm : Delivered (lenient deliver) h m) (ht : Delivered (lenient deliver) m t) :
    Accepted deliver h m ∧ Accepted deliver m t := by
  obtain ⟨l, hl, hacc⟩ := hacc
  obtain ⟨l₁, hl₁, happ⟩ := hm
  obtain ⟨l₂, hl₂, -⟩ := ht
  simp only [after_lenient] at happ
  have hsplit : l = l₁ ++ l₂ := by
    rw [hl₂, hl₁, List.append_assoc] at hl
    exact (List.append_cancel_left hl).symm
  rw [hsplit, accepts_append, ← happ] at hacc
  exact ⟨⟨l₁, hl₁, hacc.1⟩, ⟨l₂, hl₂, hacc.2⟩⟩

lemma finishPart_congr {h : Handler σ}
    (hacc : Accepted deliver h (after (finishPart (lenient deliver)) h)) :
    (finishPart deliver).run h = (finishPart (lenient deliver)).run h := by
  cases hw : h.waitingFor with
  | size => simp [finishPart, hw]
  | message =>
    have hpay : (after (finishPart (lenient deliver)) h).payloads =
        h.payloads ++ [h.pendingParts.flatten] := by
      unfold after
      cases hr : (lenient deliver h.pendingParts.flatten).run h.app <;>
        simp [finishPart, hw, parseAndProcess, hr]
    obtain ⟨l, hl, hacc⟩ := hacc
    rw [hpay] at hl
    rw [← List.append_cancel_left hl] at hacc
    rw [finishPart_process hw, finishPart_process hw]
    unfold parseAndProcess
    rw [run_modify_bind, run_modify_bind, run_focus, run_focus, lenient_run hacc.1]

lemma moreData_congr {h : Handler σ} {data : Bytes}
    (hacc : Accepted deliver h (after (moreData (lenient deliver) data) h)) :
    (moreData deliver data).run h = (moreData (lenient deliver) data).run h := by
  rw [after, moreData_eq] at hacc
  rw [moreData_eq, moreData_eq]
  split
  · next hlen =>
    rw [if_pos hlen] at hacc
    exact finishPart_congr hacc
  · rfl

/-- **Dropping what is raised makes no difference where nothing is.** -/
lemma buildMessage_congr : ∀ (fuel : ℕ) {h : Handler σ} {data : Bytes},
    Accepted deliver h (after (buildMessage (lenient deliver) fuel data) h) →
      (buildMessage deliver fuel data).run h = (buildMessage (lenient deliver) fuel data).run h
  | 0, _, _, _ => rfl
  | fuel + 1, h, data, hacc => by
    by_cases hlt : h.pendingLength < data.length
    · have hcall := @buildMessage_congr fuel h (data.take h.pendingLength)
      have hfirst : Delivered (lenient deliver) h
          (after (buildMessage (lenient deliver) fuel (data.take h.pendingLength)) h) :=
        buildMessage_delivered fuel _ h
      rw [after_congr (buildMessage_round fuel hlt), after_bind] at hacc
      rw [buildMessage_round fuel hlt, buildMessage_round fuel hlt]
      cases hrun : (buildMessage (lenient deliver) fuel (data.take h.pendingLength)).run h with
      | error e t =>
        rw [hrun] at hacc hcall
        rw [run_bind_error hrun, run_bind_error (hcall (by rwa [after_of_error hrun]))]
      | ok a t =>
        rw [after_of_ok hrun] at hfirst
        rw [hrun] at hacc hcall
        obtain ⟨hacc₁, hacc₂⟩ := hacc.split hfirst (buildMessage_delivered fuel _ t)
        rw [run_bind_ok hrun, run_bind_ok (hcall (by rwa [after_of_ok hrun]))]
        exact buildMessage_congr fuel hacc₂
    · have hmore : ∀ d : Bytes → EStateM Exn σ PUnit,
          (buildMessage d (fuel + 1) data).run h = (moreData d data).run h := fun d => by
        simp [buildMessage, hlt]
      rw [after_congr (hmore (lenient deliver))] at hacc
      rw [hmore, hmore, moreData_congr hacc]

lemma payloads_dataReceived (h : Handler σ) (data : Bytes) :
    (after (dataReceived deliver data) h).payloads =
      (after (buildMessage deliver (enough data.length) data) h).payloads := by
  unfold after dataReceived
  rw [run_tryCatch]
  cases hrun : (buildMessage deliver (enough data.length) data).run h with
  | ok a t => rfl
  | error e t => cases hp : e.isStorageProtocolError <;> simp [hp, loseConnection]

lemma dataReceived_congr {h : Handler σ} {data : Bytes}
    (hacc : Accepted deliver h (after (dataReceived (lenient deliver) data) h)) :
    after (dataReceived deliver data) h = after (dataReceived (lenient deliver) data) h := by
  unfold Accepted at hacc
  rw [payloads_dataReceived] at hacc
  have hbuild := buildMessage_congr (enough data.length) hacc
  unfold dataReceived
  refine after_congr ?_
  rw [run_tryCatch, run_tryCatch, hbuild]

lemma feed_congr (chunks : List Bytes) : ∀ {h : Handler σ},
    Accepted deliver h (feed (lenient deliver) h chunks) →
      feed deliver h chunks = feed (lenient deliver) h chunks := by
  induction chunks with
  | nil => exact fun _ => rfl
  | cons c chunks ih =>
    intro h hacc
    have hcons : ∀ d : Bytes → EStateM Exn σ PUnit,
        feed d h (c :: chunks) = feed d (after (dataReceived d c) h) chunks := fun _ => rfl
    rw [hcons] at hacc
    obtain ⟨hfirst, hrest⟩ := hacc.split (dataReceived_delivered c h) (feed_delivered chunks _)
    rw [hcons, hcons, dataReceived_congr hfirst]
    exact ih hrest

/-! ### Chunks that may be empty -/

/-- Reading ends between two frames, and no frame was empty. -/
def Whole (s : FrameScan.Scan UInt8) : Prop := s.phase = .header [] ∧ ∀ p ∈ s.out, p ≠ []

/-- A handler that goes on to read whole frames only awaits at least a byte. -/
lemma pendingLength_pos {h : Handler σ} {s : FrameScan.Scan UInt8} (hr : Reads h s) {w : Bytes}
    (hw : Whole (scan s w)) : 0 < h.pendingLength := by
  obtain ⟨phase, out⟩ := s
  obtain ⟨hrep, hout⟩ := hr
  simp only at hrep hout
  cases hrep with
  | header buf w p l pos => exact pos
  | body n buf w' p l pos =>
    rcases pos with pos | rfl
    · exact pos
    · rcases eq_or_ne w [] with rfl | hne
      · cases hw.1
      · -- an empty frame is among what was read
        have hscan : scan ⟨.body 0 buf, out⟩ w = scan ⟨.header [], out ++ [[]]⟩ w :=
          FrameScan.run_body_zero out hne
        have hmem : [] ∈ (scan ⟨.body 0 buf, out⟩ w).out := by
          rw [hscan, scan, ← List.append_nil (out ++ [[]]), FrameScan.run_out]
          simp
        exact absurd rfl (hw.2 [] hmem)
  | dead w' p l =>
    have hdead : scan ⟨.dead, out⟩ w = ⟨.dead, out⟩ := scan_dead rfl w
    rw [hdead] at hw
    cases hw.1

/-- A handler that is fed a stream of whole frames has read them, and some chunks may be empty. -/
lemma feed_whole_reads (hok : ∀ b a, raised (deliver b) a = none) {chunks : List Bytes} :
    ∀ {h : Handler σ} {s : FrameScan.Scan UInt8}, Reads h s → Whole (scan s chunks.flatten) →
      Reads (feed deliver h chunks) (scan s chunks.flatten) := by
  induction chunks with
  | nil => exact fun hr _ => hr
  | cons c chunks ih =>
    intro h s hr hw
    have hpos := pendingLength_pos hr hw
    rw [List.flatten_cons, scan_append] at hw ⊢
    exact ih (dataReceived_reads hok hr (Or.inr hpos)) hw

/-! ### Sending and receiving -/

/-- `RequestHandler.sendMessage`, given what was written before. -/
def sendMessage (written : Bytes) (message : Message) : Bytes :=
  let m := serialize message
  let written := written ++ packSize m.length
  written ++ m

/-- What `sendMessage` writes for some messages. -/
def sendMessages (ms : List Message) : Bytes := ms.foldl sendMessage []

/-- The serialisation is neither empty nor over the limit. -/
def Sendable (m : Message) : Prop := serialize m ≠ [] ∧ (serialize m).length ≤ maxMessageSize

lemma sendMessages_eq (ms : List Message) :
    sendMessages ms = (ms.map serialize).flatMap Hello.frame := by
  have hfold : ∀ written : Bytes,
      ms.foldl sendMessage written = written ++ (ms.map serialize).flatMap Hello.frame := by
    induction ms with
    | nil => simp
    | cons m ms ih =>
      intro written
      rw [List.foldl_cons, ih]
      simp [sendMessage, Hello.frame]
  rw [sendMessages, hfold, List.nil_append]

/-- The scan takes off the stream what was sent. -/
lemma scan_sendMessages {ms : List Message} (hms : ∀ m ∈ ms, Sendable m) :
    scan FrameScan.init (sendMessages ms) = ⟨.header [], ms.map serialize⟩ := by
  rw [sendMessages_eq]
  exact Hello.scan_frames (by simpa [Sendable] using hms)

/-- What was received is what was sent, and nothing is pending. -/
structure Received (ms : List Message) (h : Handler σ) : Prop where
  payloads : h.payloads = ms.map serialize
  waitingFor : h.waitingFor = .size
  pendingLength : h.pendingLength = sizeFmtSize
  pendingParts : h.pendingParts.flatten = []

lemma lenient_received {ms : List Message} (hms : ∀ m ∈ ms, Sendable m) (a : σ)
    {chunks : List Bytes} (hchunks : chunks.flatten = sendMessages ms) :
    Received ms (feed (lenient deliver) (fresh a) chunks) := by
  have hscan := scan_sendMessages hms
  rw [← hchunks] at hscan
  have hwhole : Whole (scan FrameScan.init chunks.flatten) := by
    rw [hscan]
    exact ⟨rfl, by simpa using fun m hm => (hms m hm).1⟩
  have hreads : Reads (feed (lenient deliver) (fresh a) chunks)
      (scan FrameScan.init chunks.flatten) :=
    feed_whole_reads (fun _ _ => raised_lenient _ _) (reads_fresh a) hwhole
  rw [hscan] at hreads
  obtain ⟨hrep, hpay⟩ := hreads
  cases hrep with
  | header _ w p l pos => exact ⟨hpay, w, by simpa using l, p⟩

/-- Streams that are alike were sent for messages that are serialised alike. -/
lemma sendMessages_inj {ms ms' : List Message} (hms : ∀ m ∈ ms, Sendable m)
    (hms' : ∀ m ∈ ms', Sendable m) (h : sendMessages ms' = sendMessages ms) :
    ms'.map serialize = ms.map serialize := by
  have hscan := scan_sendMessages hms'
  rw [h, scan_sendMessages hms] at hscan
  exact (FrameScan.Scan.mk.inj hscan).2.symm

/-- **The messages sent are the messages received**, where processing them, one after another,
raises nothing; and no two lists of messages are sent alike. -/
theorem sent_received {ms : List Message} (hms : ∀ m ∈ ms, Sendable m) {a : σ}
    (hok : Accepts deliver a (ms.map serialize)) {chunks : List Bytes}
    (hchunks : chunks.flatten = sendMessages ms) :
    Received ms (feed deliver (fresh a) chunks) ∧
    ∀ ms' : List Message, (∀ m ∈ ms', Sendable m) → sendMessages ms' = sendMessages ms →
      ms'.map serialize = ms.map serialize ∧
      ((∀ m ∈ ms ++ ms', Message.Typed m) → ms' = ms) := by
  have hrec : Received ms (feed (lenient deliver) (fresh a) chunks) :=
    lenient_received hms a hchunks
  refine ⟨?_, fun ms' hms' hsent => ?_⟩
  · have hacc : Accepted deliver (fresh a) (feed (lenient deliver) (fresh a) chunks) :=
      ⟨_, hrec.payloads, hok⟩
    rwa [feed_congr chunks hacc]
  · have hser := sendMessages_inj hms hms' hsent
    refine ⟨hser, fun htyped => ?_⟩
    exact Wire.map_inj_of_forall (fun m m' => serialize_inj)
      (fun m hm => htyped m (List.mem_append_right ms hm))
      (fun m hm => htyped m (List.mem_append_left ms' hm)) hser

/-- A message that has a type only. -/
def bare (t : MessageType) : Message := { id := 1, type := t }

lemma serialize_bare (t : MessageType) :
    serialize (bare t) = [8, 1, 16, UInt8.ofNat (MessageType.number t)] := by
  have hlt : MessageType.number t < 128 := by cases t <;> decide
  simp [serialize, bare, Message.listFields, intField, uintField, subField, repField, strField,
    Wire.Tree.encode, Wire.Scalar.encode, Wire.key, Wire.base128_of_lt, Wire.ofInt, hlt]

lemma sendable_bare (t : MessageType) : Sendable (bare t) := by
  rw [Sendable, serialize_bare]
  exact ⟨by simp, by simp [maxMessageSize]⟩

/-- A new client. -/
def newClient : Client.World :=
  Client.World.init (fun _ => .ping) fun _ => { behave := fun _ => .ok [] }

/-- Two pings, cut inside the sizes, and a chunk without bytes. -/
theorem sent_received_pings : Received [bare .ping, bare .ping]
    (feed (fun _ => Client.processMessage (bare .ping) none) (fresh newClient)
      [[0, 0], [0, 4, 8, 1, 16, 3, 0, 0, 0], [], [4, 8, 1, 16, 3]]) := by
  have hok : Accepts (fun _ => Client.processMessage (bare .ping) none) newClient
      ([bare .ping, bare .ping].map serialize) := ⟨rfl, rfl, trivial⟩
  exact (sent_received (by simp [sendable_bare]) hok
    (by simp [sendMessages_eq, serialize_bare]; rfl)).1

/-- Two `OK`s no request waits for, in one chunk: processing the first one raises, and the second
one is never read. -/
theorem not_received : ¬ ∀ (parse : Bytes → Message) (kinds : ℕ → Requests.Kind)
    (files : ℕ → Client.File) (ms : List Message) (chunks : List Bytes),
    (∀ m ∈ ms, Sendable m ∧ parse (serialize m) = m) → chunks.flatten = sendMessages ms →
    Received ms (feed (fun b => Client.processMessage (parse b) none)
      (fresh (Client.World.init kinds files)) chunks) := by
  intro h
  have hrec := h (fun _ => bare .ok) (fun _ => .ping) (fun _ => { behave := fun _ => .ok [] })
    [bare .ok, bare .ok]
    [[0, 0, 0, 4, 8, 1, 16, 2, 0, 0, 0, 4, 8, 1, 16, 2]]
    (by simp [sendable_bare]) (by simp [sendMessages_eq, serialize_bare]; rfl)
  have hone : [[8, 1, 16, 2]] = [bare .ok, bare .ok].map serialize := hrec.payloads
  simp at hone

end Magicicada.Frames
