import Magicicada.ChunkFrames
import Magicicada.Conversations
import Magicicada.Links

/-!
What a peer has of what a client writes.

The peer is a `RequestHandler` that keeps the messages it parses. It is handed the bytes in any
chunks, between any of the things that happen to the client.
-/

namespace Magicicada.Received

open Pb Errors Requests Prog Fields Framing Frames Connected Links Client

/-! ### The peer -/

/-- What `buildMessage` does of a peer that keeps the messages. -/
def collect (buf : Bytes) : EStateM Exn (List Message) PUnit :=
  match parseFromString buf with
  | none => throw decodeError
  | some m => modify (· ++ [m])

/-- A message that can be written, and in a frame that is read. -/
def Fits (m : Message) : Prop := Message.Proper m ∧ Sendable m

lemma fits_plain {m : Message} (h : Plain m) : Fits m := ⟨h.proper, h.sendable⟩

lemma collect_serialize {m : Message} (hm : Message.Proper m) (l : List Message) :
    (collect (serialize m)).run l = .ok ⟨⟩ (l ++ [m]) := by
  unfold collect
  rw [parse_serialize hm.inRange]
  rfl

/-- Messages are kept in the order in which they come. -/
lemma collect_all {ms : List Message} (hms : ∀ m ∈ ms, Message.Proper m) (l : List Message) :
    Accepts collect l (ms.map serialize) ∧ deliverAll collect (ms.map serialize) l = l ++ ms := by
  induction ms generalizing l with
  | nil => exact ⟨trivial, (List.append_nil l).symm⟩
  | cons m ms ih =>
    rw [List.forall_mem_cons] at hms
    have hrun := collect_serialize hms.1 l
    obtain ⟨hacc, hall⟩ := ih hms.2 (l ++ [m])
    refine ⟨⟨raised_of_ok hrun, by rwa [after_of_ok hrun]⟩, ?_⟩
    show deliverAll collect (ms.map serialize) (after (collect (serialize m)) l) = _
    rw [after_of_ok hrun, hall, List.append_assoc]
    rfl

/-! ### The stream between them -/

/-- A client, and the peer that was handed so many of the bytes the client wrote. -/
structure Line where
  client : World
  peer : Handler (List Message)
  delivered : ℕ

/-- A new peer. -/
def Line.init (w : World) : Line := ⟨w, fresh [], 0⟩

def Line.written (l : Line) : Bytes := sendMessages l.client.sent

def Line.inFlight (l : Line) : Bytes := l.written.drop l.delivered

/-- What happens to the client, or that the peer is handed at most so many of the bytes in
flight. -/
inductive Event (ε : Type)
  | client (e : ε)
  | deliver (k : ℕ)

/-- The peer is handed a chunk. -/
def Line.chunk (l : Line) (data : Bytes) : Line :=
  { l with
    peer := after (dataReceived collect data) l.peer
    delivered := l.delivered + data.length }

variable {ε : Type} {act : World → ε → World} {admits : World → ε → Prop}

def Line.step (act : World → ε → World) (l : Line) : Event ε → Line
  | .client e => { l with client := act l.client e }
  | .deliver k =>
    let data := l.inFlight.take k
    if data = [] then l else l.chunk data

/-- What reading raises, if it does. -/
def Line.raises (l : Line) : Event ε → Option Exn
  | .client _ => none
  | .deliver k =>
    let data := l.inFlight.take k
    if data = [] then none else raised (dataReceived collect data) l.peer

def Admits (admits : World → ε → Prop) (l : Line) : Event ε → Prop
  | .client e => admits l.client e
  | .deliver _ => True

/-- The peer has the messages from the first one on, and stands where the bytes left it. -/
structure Has (l : Line) : Prop where
  delivered : l.delivered ≤ l.written.length
  reads : Reads l.peer (scan FrameScan.init (l.written.take l.delivered))
  kept : ∃ k ≤ l.client.sent.length, l.peer.app = l.client.sent.take k ∧
    l.peer.payloads = (l.client.sent.take k).map serialize
  lost : l.peer.lost = 0

variable {l : Line}

lemma has_init {w : World} : Has (Line.init w) where
  delivered := Nat.zero_le _
  reads := reads_fresh []
  kept := ⟨0, Nat.zero_le _, rfl, rfl⟩
  lost := rfl

/-- What the client adds comes after what the peer was handed. -/
lemma Has.sends (h : Has l) {t : World} (ht : l.client.sent <+: t.sent) :
    Has { l with client := t } := by
  obtain ⟨new, hnew⟩ := ht
  obtain ⟨k, hk, happ, hpay⟩ := h.kept
  have hwritten : Line.written { l with client := t } = l.written ++ sendMessages new := by
    unfold Line.written
    rw [← sendMessages_append, hnew]
  have htake : t.sent.take k = l.client.sent.take k := by
    rw [← hnew, List.take_append_of_le_length hk]
  refine ⟨?_, ?_, ⟨k, ?_, happ.trans htake.symm, ?_⟩, h.lost⟩
  · rw [hwritten, List.length_append]
    exact Nat.le_add_right_of_le h.delivered
  · rw [hwritten, List.take_append_of_le_length h.delivered]
    exact h.reads
  · rw [← hnew, List.length_append]
    exact Nat.le_add_right_of_le hk
  · rw [htake]
    exact hpay

/-- **A chunk** adds the messages it completes, and raises nothing. -/
lemma Has.chunk (h : Has l) (hfits : ∀ m ∈ l.client.sent, Fits m) {data rest : Bytes}
    (hin : l.inFlight = data ++ rest) (hne : data ≠ []) :
    Has (l.chunk data) ∧ raised (dataReceived collect data) l.peer = none := by
  have hsendable : ∀ m ∈ l.client.sent, Sendable m := fun m hm => (hfits m hm).2
  obtain ⟨i, hi, happ, hpay⟩ := h.kept
  obtain ⟨hscan, ms, ms', hms, hnew⟩ := scan_chunk hsendable hin hi (h.reads.2.symm.trans hpay)
  have hproper : ∀ m ∈ ms, Message.Proper m := fun m hm =>
    (hfits m (List.mem_of_mem_drop (hms ▸ List.mem_append_left ms' hm))).1
  obtain ⟨hacc, hall⟩ := collect_all hproper l.peer.app
  obtain ⟨hreads, hpeer⟩ := dataReceived_accepts h.reads hne hnew hacc
  have hlive := (scan_take hsendable (l.delivered + data.length)).1
  rw [hscan] at hlive
  obtain ⟨hraised, hlost⟩ := dataReceived_returns h.reads hne hnew hacc hlive
  have htake : l.client.sent.take (i + ms.length) = l.client.sent.take i ++ ms := by
    rw [List.take_add, hms, List.take_left]
  refine ⟨⟨?_, ?_, ⟨i + ms.length, ?_, ?_, ?_⟩, hlost.trans h.lost⟩, hraised⟩
  · have hlen := congrArg List.length hin
    have hpos := List.length_pos_iff.mpr hne
    rw [Line.inFlight, List.length_drop, List.length_append] at hlen
    show l.delivered + data.length ≤ l.written.length
    omega
  · show Reads _ (scan FrameScan.init ((sendMessages l.client.sent).take _))
    rw [show (l.chunk data).delivered = l.delivered + data.length from rfl, hscan]
    exact hreads
  · have hlen := congrArg List.length hms
    rw [List.length_drop, List.length_append] at hlen
    show i + ms.length ≤ l.client.sent.length
    omega
  · show (after (dataReceived collect data) l.peer).app = l.client.sent.take (i + ms.length)
    rw [hpeer, hall, happ, htake]
  · show (after (dataReceived collect data) l.peer).payloads =
      (l.client.sent.take (i + ms.length)).map serialize
    refine hreads.2.trans (hnew.trans ?_)
    rw [htake, List.map_append, ← hpay]
    exact congrArg (· ++ _) h.reads.2.symm

/-- Once no bytes are in flight the peer has every message. -/
lemma Has.all (h : Has l) (hfits : ∀ m ∈ l.client.sent, Fits m) (hnone : l.inFlight = []) :
    l.peer.app = l.client.sent := by
  obtain ⟨k, hk, happ, hpay⟩ := h.kept
  have hle : l.written.length ≤ l.delivered := List.drop_eq_nil_iff.mp hnone
  have hout := h.reads.2
  rw [List.take_of_length_le hle, Line.written,
    scan_sendMessages fun m hm => (hfits m hm).2, hpay] at hout
  have hlen := congrArg List.length hout
  simp only [List.length_map, List.length_take] at hlen
  rw [happ, List.take_of_length_le (by omega)]

/-- **An event** leaves the peer with what it had and what the event brings. -/
lemma Has.step (h : Has l) (hfits : ∀ m ∈ l.client.sent, Fits m) {e : Event ε}
    (hgrows : ∀ e', e = .client e' → l.client.sent <+: (act l.client e').sent) :
    Has (l.step act e) ∧ l.raises e = none := by
  cases e with
  | client e => exact ⟨h.sends (hgrows e rfl), rfl⟩
  | deliver k =>
    unfold Line.step Line.raises
    by_cases hnil : l.inFlight.take k = []
    · simp only [hnil, if_true]
      exact ⟨h, trivial⟩
    · simp only [hnil, if_false]
      exact h.chunk hfits (List.take_append_drop k l.inFlight).symm hnil

/-! ### Runs -/

/-- What the client does only adds to what it wrote, where `I` holds. -/
structure Grows (act : World → ε → World) (admits : World → ε → Prop) (I : World → Prop) :
    Prop where
  keeps : ∀ w e, I w → admits w e → I (act w e)
  adds : ∀ w e, I w → admits w e → w.sent <+: (act w e).sent

variable {I : World → Prop} {es : List (Event ε)}

lemma Grows.run (hg : Grows act admits I) : ∀ {l : Line}, I l.client →
    Runs.Legal (Line.step act) (Admits admits) l es →
    I (Runs.run (Line.step act) l es).client ∧
      l.client.sent <+: (Runs.run (Line.step act) l es).client.sent := by
  induction es with
  | nil => exact fun hI _ => ⟨hI, List.prefix_refl _⟩
  | cons e es ih =>
    intro l hI hes
    have hstep : I (l.step act e).client ∧ l.client.sent <+: (l.step act e).client.sent := by
      cases e with
      | client e => exact ⟨hg.keeps _ e hI hes.1, hg.adds _ e hI hes.1⟩
      | deliver k =>
        have hsame : (l.step act (.deliver k)).client = l.client := by
          unfold Line.step
          simp only
          split <;> rfl
        rw [hsame]
        exact ⟨hI, List.prefix_refl _⟩
    obtain ⟨hI', hrest⟩ := ih hstep.1 hes.2
    exact ⟨hI', hstep.2.trans hrest⟩

/-- In a run whose messages all fit, the peer has the messages from the first one on. -/
lemma Grows.has (hg : Grows act admits I) : ∀ {l : Line}, I l.client → Has l →
    Runs.Legal (Line.step act) (Admits admits) l es →
    (∀ m ∈ (Runs.run (Line.step act) l es).client.sent, Fits m) →
    Has (Runs.run (Line.step act) l es) ∧
      ∀ pre e post, es = pre ++ e :: post → (Runs.run (Line.step act) l pre).raises e = none := by
  induction es with
  | nil => exact fun _ h _ _ => ⟨h, fun pre e post hes => by simp at hes⟩
  | cons e es ih =>
    intro l hI h hes hfits
    have hhere : ∀ m ∈ l.client.sent, Fits m := fun m hm =>
      hfits m ((hg.run hI hes).2.subset hm)
    have hgrows : ∀ e', e = .client e' → l.client.sent <+: (act l.client e').sent := by
      rintro e' rfl
      exact hg.adds _ e' hI hes.1
    have hone : Runs.Legal (Line.step act) (Admits admits) l [e] := ⟨hes.1, trivial⟩
    obtain ⟨hhas, hraises⟩ : Has (l.step act e) ∧ l.raises e = none := h.step hhere hgrows
    have hI' : I (l.step act e).client := (hg.run hI hone).1
    obtain ⟨hrun, hrest⟩ := ih hI' hhas hes.2 hfits
    refine ⟨hrun, fun pre e' post hsplit => ?_⟩
    cases pre with
    | nil =>
      obtain ⟨rfl, -⟩ := List.cons.inj hsplit
      exact hraises
    | cons e'' pre =>
      obtain ⟨rfl, rfl⟩ := List.cons.inj hsplit
      exact hrest pre e' post rfl

/-- What the peer has of what the client wrote, and that it kept the connection. -/
structure Arrives (act : World → ε → World) (l : Line) (es : List (Event ε)) : Prop where
  isPrefix : (Runs.run (Line.step act) l es).peer.app <+:
    (Runs.run (Line.step act) l es).client.sent
  all : (Runs.run (Line.step act) l es).inFlight = [] →
    (Runs.run (Line.step act) l es).peer.app = (Runs.run (Line.step act) l es).client.sent
  lost : (Runs.run (Line.step act) l es).peer.lost = 0
  raises : ∀ pre e post, es = pre ++ e :: post →
    (Runs.run (Line.step act) l pre).raises e = none

lemma Grows.arrives (hg : Grows act admits I) {w : World} (hI : I w)
    (hes : Runs.Legal (Line.step act) (Admits admits) (Line.init w) es)
    (hfits : ∀ m ∈ (Runs.run (Line.step act) (Line.init w) es).client.sent, Fits m) :
    Arrives act (Line.init w) es := by
  obtain ⟨hhas, hraises⟩ := hg.has hI has_init hes hfits
  refine ⟨?_, hhas.all hfits, hhas.lost, hraises⟩
  obtain ⟨k, -, happ, -⟩ := hhas.kept
  rw [happ]
  exact List.take_prefix k _

/-! ### Any client -/

lemma grows_client : Grows World.step AdmitsAny Known where
  keeps _ _ hw he := hw.step he
  adds w e hw he := by
    obtain ⟨r, hs⟩ := hw.speaks_some he
    obtain ⟨new, hnew, -⟩ := hs.sent
    exact ⟨new, hnew.symm⟩

/-- **A peer has a beginning of what the client wrote**, at any time, and all of it once no bytes
are in flight, whatever happens to the client in between, if all messages it wrote fit a frame. -/
theorem client_arrives {w₀ : World} (h₀ : Initial w₀) {es : List (Event Client.Event)}
    (hes : Runs.Legal (Line.step World.step) (Admits AdmitsAny) (Line.init w₀) es)
    (hfits : ∀ m ∈ (Runs.run (Line.step World.step) (Line.init w₀) es).client.sent, Fits m) :
    Arrives World.step (Line.init w₀) es :=
  grows_client.arrives h₀.known hes hfits

/-- A client with pings nobody has started. -/
def pings : World := World.init (fun _ => .ping) fun _ => ⟨fun _ => .ok [], []⟩

/-- A ping is started, and its frame delivered in two pieces. -/
def oneDelivered : List (Event Client.Event) := [.client (.start 0), .deliver 3, .deliver 20]

lemma initial_pings : Initial pings := initial_init _ _

lemma sent_oneDelivered :
    (Runs.run (Line.step World.step) (Line.init pings) oneDelivered).client.sent =
      [{ id := 1, type := .ping }] := rfl

theorem client_arrives_ping :
    (Runs.run (Line.step World.step) (Line.init pings) oneDelivered).peer.app <+:
      [{ id := 1, type := .ping }] := by
  have hlegal : Runs.Legal (Line.step World.step) (Admits AdmitsAny) (Line.init pings)
      oneDelivered := ⟨⟨rfl, rfl⟩, trivial, trivial, trivial⟩
  have harrives := client_arrives initial_pings hlegal fun m hm => by
    rw [sent_oneDelivered] at hm
    exact fits_plain ⟨1, .ping, List.mem_singleton.mp hm, rfl⟩
  exact sent_oneDelivered ▸ harrives.isPrefix

/-! ### An upload -/

lemma proper_bytesMessageOf {i : ℤ} (hi : int32 i = true) (data : Bytes) :
    Message.Proper (bytesMessageOf i data) := by
  have hid : IntOf 32 i := by simpa [IntOf, int32] using hi
  exact ⟨by constructor <;> simp [bytesMessageOf, bytesMessage, hid], rfl⟩

lemma fits_bytes {i : ℤ} (hi : int32 i = true) {data : Bytes} (h : data.length ≤ maxPayloadSize) :
    Fits (bytesMessageOf i data) := by
  refine ⟨proper_bytesMessageOf hi data, fun hnil => ?_, bytesMessageOf_fits i h⟩
  have hsize : byteSize (bytesMessageOf i data) = _ := byteSize_bytesMessageOf i rfl
  rw [byteSize, hnil, List.length_nil] at hsize
  omega

/-- What was written is still there, and what was added fits as well. -/
structure Sends (w t : World) : Prop where
  isPrefix : w.sent <+: t.sent
  fits : (∀ m ∈ w.sent, Fits m) → ∀ m ∈ t.sent, Fits m

instance : IsPreorder World Sends where
  refl _ := ⟨List.prefix_refl _, id⟩
  trans _ _ _ h h' := ⟨h.isPrefix.trans h'.isPrefix, h'.fits ∘ h.fits⟩

variable {w t : World} {u : Upload} {before : List Message} {pieces : List Bytes} {last : Bool}

lemma sends_of_sent (h : t.sent = w.sent) : Sends w t :=
  ⟨h ▸ List.prefix_refl _, fun hw => h ▸ hw⟩

lemma sends_sendMessage {m : Message} (hm : Fits m) (w : World) : Sends w (sendMessage m w) := by
  have hsent := (slows_sendMessage m w).sent
  refine ⟨⟨[m], hsent.symm⟩, fun hw => ?_⟩
  rw [hsent]
  exact List.forall_mem_append.mpr ⟨hw, by simpa using hm⟩

/-- A step of the producer sends a piece that fits, `EOF`, or nothing. -/
lemma sends_go (hsize : u.size ≤ maxPayloadSize) (h : u.Sent before w pieces last) :
    Sends w (after (BytesMessageProducer.go u.producer) w) := by
  by_cases hlive : Live w u.producer
  · have hlast : last = false := h.finished.symm.trans hlive.finished
    subst hlast
    by_cases hnext : Upload.Sent.next u pieces = []
    · rw [after_of_ok (h.run_eof hlive hnext)]
      set v := w.fetched u.fh (fetchOps (w.producers u.producer) u.size)
      have hfetched : Sends w v := sends_of_sent rfl
      have heof : Sends v (sendMessage u.eof v) :=
        sends_sendMessage (fits_plain ⟨u.id, .eof, rfl, h.int32⟩) v
      have hended : Sends (sendMessage u.eof v) ((sendMessage u.eof v).ended u.producer) :=
        sends_of_sent rfl
      exact trans_of Sends hfetched (trans_of Sends heof hended)
    · rw [after_of_ok (h.run_bytes hlive hnext)]
      set data := Upload.Sent.next u pieces with hdata
      set v := (w.fetched u.fh (fetchOps (w.producers u.producer) u.size)).advanced u.producer
        data.length
      have hlen : data.length ≤ maxPayloadSize := by
        refine le_trans ?_ hsize
        rw [hdata]
        exact List.length_take_le ..
      have hadvanced : Sends w v := sends_of_sent rfl
      have hbytes : Sends v (sendMessage (u.bytes data) v) :=
        sends_sendMessage (fits_bytes h.int32 hlen) v
      have hlater : Sends (sendMessage (u.bytes data) v)
          (callLater 0 (.go u.producer) (sendMessage (u.bytes data) v)) := sends_of_sent rfl
      exact trans_of Sends hadvanced (trans_of Sends hbytes hlater)
  · rw [after_of_ok (go_idle hlive)]
    exact refl_of Sends w

lemma sends_cancel (r : ℕ) : Within Sends (Request.cancel r) := by
  have hsend : Within Sends (Request.sendMessage r { type := .cancelRequest }) := by
    intro w
    by_cases hsend : ∃ j, (w.objs r).id = some j ∧ int32 j = true
    · obtain ⟨j, hid, hj⟩ := hsend
      rw [after_of_ok (sendMessage_run hid hj _)]
      exact sends_sendMessage (fits_plain ⟨j, .cancelRequest, rfl, hj⟩) w
    · obtain ⟨e, hrun⟩ := sendMessage_raises (w := w) (r := r)
        (fun j hid => Bool.eq_false_of_not_eq_true fun hj => hsend ⟨j, hid, hj⟩)
        { type := .cancelRequest }
      rw [after_of_error hrun]
      exact refl_of Sends w
  refine along_cancel (fun w => sends_of_sent rfl) (along_customCancel (fun w => ?_) hsend)
  unfold withProducer
  split
  · exact sends_of_sent rfl
  · exact refl_of Sends w

/-- An upload under way, of which all messages fit. -/
structure Uploads (u : Upload) (before : List Message) (w : World) : Prop where
  sent : ∃ pieces last, u.Sent before w pieces last
  fits : ∀ m ∈ w.sent, Fits m

lemma sends_step (hsize : u.size ≤ maxPayloadSize) (h : u.Sent before w pieces last)
    {o : Upload.Op} (ho : u.Admits w o) : Sends w (u.step w o) := by
  cases o with
  | resumeProducing =>
    have hflag : Sends w (w.setProducer u.producer fun q => { q with producing := true }) :=
      sends_of_sent rfl
    exact trans_of Sends hflag (sends_go hsize (h.setProducing u.producer true))
  | pauseProducing => exact sends_of_sent rfl
  | stopProducing => exact sends_of_sent rfl
  | cancel => exact sends_cancel u.request w
  | run k =>
    show Sends w (after (runCall k) w)
    rcases after_runCall k w with e | ⟨c, hc, -, e⟩ <;> rw [e]
    · exact refl_of Sends w
    · rw [ho c hc]
      have hcalled : u.Sent before (w.called k) pieces last := h.congr rfl rfl rfl rfl rfl
      have hcall : Sends w (w.called k) := sends_of_sent rfl
      exact trans_of Sends hcall (sends_go hsize hcalled)

lemma grows_upload (hsize : u.size ≤ maxPayloadSize) :
    Grows u.step u.Admits (Uploads u before) where
  keeps _ _ hw ho := by
    obtain ⟨pieces, last, h⟩ := hw.sent
    exact ⟨h.step ho, (sends_step hsize h ho).fits hw.fits⟩
  adds _ _ hw ho := by
    obtain ⟨pieces, last, h⟩ := hw.sent
    exact (sends_step hsize h ho).isPrefix

/-- What `processMessage` of a peer reads of a `BYTES` message. -/
def payload (m : Message) : Bytes := rd (rd m.bytes).bytes

lemma flatMap_payload (pieces : List Bytes) :
    (pieces.map u.bytes).flatMap payload = pieces.flatten := by
  rw [List.flatMap_map]
  exact List.flatMap_id ..

/-- What the peer has of the upload, of which some was sent before. -/
def arrived (u : Upload) (before : List Message) (l : Line) : List Message :=
  (u.messages l.peer.app).drop before.length

lemma arrived_isPrefix {l : Line} (h : u.Sent before l.client pieces last)
    (happ : l.peer.app <+: l.client.sent) :
    arrived u before l <+: pieces.map u.bytes ++ if last then [u.eof] else [] := by
  have hmessages : u.messages l.peer.app <+: u.messages l.client.sent := happ.filter _
  rw [h.messages, List.append_assoc] at hmessages
  have hdrop := hmessages.drop before.length
  rwa [List.drop_left] at hdrop

lemma eof_not_mem (u : Upload) (pieces : List Bytes) : u.eof ∉ pieces.map u.bytes := by
  rw [List.mem_map]
  rintro ⟨data, -, heq⟩
  have htype : MessageType.bytes = .eof := congrArg Message.type heq
  cases htype

/-- **What the peer has of an upload is a beginning of the file** from where the upload began, and
all of it once it has the `EOF`; under any scheduling of the producer, and any delivery of the
bytes, by a handler that raises nothing and keeps the connection. -/
theorem upload_arrives {w₀ : World} (h₀ : u.Begins w₀) (hsize : u.size ≤ maxPayloadSize)
    (hfits : ∀ m ∈ w₀.sent, Fits m) {es : List (Event Upload.Op)}
    (hes : Runs.Legal (Line.step u.step) (Admits u.Admits) (Line.init w₀) es) :
    let got := arrived u (u.messages w₀.sent) (Runs.run (Line.step u.step) (Line.init w₀) es)
    Arrives u.step (Line.init w₀) es ∧ got.flatMap payload <+: u.content.drop u.origin ∧
      (u.eof ∈ got → got.flatMap payload = u.content.drop u.origin) := by
  intro got
  have hgrows : Grows u.step u.Admits (Uploads u (u.messages w₀.sent)) := grows_upload hsize
  have hI : Uploads u (u.messages w₀.sent) w₀ := ⟨⟨_, _, h₀.sent⟩, hfits⟩
  obtain ⟨⟨⟨pieces, last, hsent⟩, hrunfits⟩, -⟩ := hgrows.run (l := Line.init w₀) hI hes
  have harrives := hgrows.arrives hI hes hrunfits
  have hgot : got <+: pieces.map u.bytes ++ if last then [u.eof] else [] :=
    arrived_isPrefix hsent harrives.isPrefix
  have hall : (pieces.map u.bytes ++ if last then [u.eof] else []).flatMap payload =
      pieces.flatten := by
    rw [List.flatMap_append, flatMap_payload]
    cases last <;> exact List.append_nil _
  refine ⟨harrives, ?_, fun heof => ?_⟩
  · have hprefix := hgot.flatMap payload
    rw [hall] at hprefix
    exact hprefix.trans hsent.isPrefix
  · cases last with
    | false =>
      rw [if_neg Bool.false_ne_true, List.append_nil] at hgot
      exact absurd (hgot.subset heof) (eof_not_mem u pieces)
    | true =>
      rw [if_pos rfl] at hgot hall
      rcases List.prefix_concat_iff.mp hgot with hgot | hgot
      · rw [hgot, hall]
        exact hsent.complete rfl
      · exact absurd (hgot.subset heof) (eof_not_mem u pieces)

/-! ### Five bytes -/

/-- The upload is resumed, and the peer is handed the bytes in pieces. -/
def fiveDelivered : List (Event Upload.Op) :=
  [.client .resumeProducing, .deliver 7, .client (.run 0), .deliver 30, .client .cancel, .deliver 2]

lemma legal_fiveDelivered : Runs.Legal (Line.step Upload.five.step) (Admits Upload.five.Admits)
    (Line.init Upload.fiveBegun) fiveDelivered := by
  refine ⟨trivial, trivial, ?_, trivial, trivial, trivial, trivial⟩
  rintro c ⟨⟩
  rfl

theorem upload_arrives_five :
    let got := arrived Upload.five []
      (Runs.run (Line.step Upload.five.step) (Line.init Upload.fiveBegun) fiveDelivered)
    got.flatMap payload <+: [1, 2, 3, 4, 5] :=
  (upload_arrives Upload.begins_five (by decide) (by simp [Upload.fiveBegun])
    legal_fiveDelivered).2.1

end Magicicada.Received
