import Magicicada.ChunkFrames
import Magicicada.Connected
import Magicicada.Peers

/-!
Two `RequestHandler` peers that ping each other over byte streams.

What a side writes reaches its peer in order, in chunks of any size and at any time. The two
then do what peers that hand each other whole messages do.
-/

namespace Magicicada.Links

open Pb Errors Bytes Wire Fields Framing Frames Prog Client MultiQuery Peers Connected

/-! ### The network -/

/-- Two handlers, and how many of the bytes its peer has written each has read. -/
structure Link where
  handler : Side → Handler World
  delivered : Side → ℕ

def Link.world (b : Link) (s : Side) : World := (b.handler s).app

/-- What was written for a side to read. -/
def Link.written (b : Link) (s : Side) : Bytes := sendMessages (b.world s.peer).sent

/-- The bytes in flight to a side. -/
def Link.inFlight (b : Link) (s : Side) : Bytes := (b.written s).drop (b.delivered s)

inductive Event
  /-- `ping()` or `noop()`, which start a new request object. -/
  | start (s : Side) (r : ℕ)
  /-- The side is handed at most so many of the bytes in flight to it. -/
  | deliver (s : Side) (k : ℕ)

def Link.setHandler (b : Link) (s : Side) (h : Handler World) : Link :=
  { b with handler := Function.update b.handler s h }

/-- The side has read so many more bytes. -/
def Link.read (b : Link) (s : Side) (k : ℕ) : Link :=
  { b with delivered := Function.update b.delivered s (b.delivered s + k) }

/-- A side is handed a chunk. -/
def Link.chunk (b : Link) (s : Side) (data : Bytes) : Link :=
  let h := after (dataReceived (receive parseFromString noRaises) data) (b.handler s)
  (b.setHandler s h).read s data.length

def Link.step (b : Link) : Event → Link
  | .start s r => b.setHandler s { b.handler s with app := (b.world s).step (.start r) }
  | .deliver s k =>
    let data := (b.inFlight s).take k
    if data = [] then b else b.chunk s data

/-- What the event raises, if it does. -/
def Link.raises (b : Link) : Event → Option Exn
  | .start s r => raised (Client.start r) (b.world s)
  | .deliver s k =>
    let data := (b.inFlight s).take k
    if data = [] then none
    else raised (dataReceived (receive parseFromString noRaises) data) (b.handler s)

/-- What is started is a new `Ping` or `Noop`. -/
def Admits (b : Link) : Event → Prop
  | .start s r => Fresh ((b.world s).objs r) ∧ ((b.world s).objs r).source = none ∧
      ((b.world s).objs r).argError = none ∧
      (((b.world s).objs r).kind = .ping ∨ ((b.world s).objs r).kind = .noop)
  | .deliver _ _ => True

/-- How many requests a side starts. -/
def starts (s : Side) (es : List Event) : ℕ := es.countP fun e =>
  match e with
  | .start s' _ => s' = s
  | .deliver _ _ => false

/-- Two handlers as they are made, on a new connection. -/
structure Initial (b : Link) : Prop where
  world : ∀ s, Client.Initial (b.world s)
  requestIdStart : ∀ s, (b.world s).env.requestIdStart = s.requestIdStart
  handler : ∀ s, b.handler s = fresh (b.world s)
  delivered : ∀ s, b.delivered s = 0

/-- The same peers, when they hand each other messages. -/
def Link.net (b : Link) : Net := ⟨b.world, fun _ => 0⟩

/-! ### Messages with nothing but an id -/

/-- A message with an id and a type only. -/
def Plain (m : Message) : Prop :=
  ∃ (i : ℤ) (t : MessageType), m = { id := i, type := t } ∧ int32 i = true

lemma Plain.proper {m : Message} (h : Plain m) : Message.Proper m := by
  obtain ⟨i, t, rfl, hi⟩ := h
  have hid : IntOf 32 i := by simpa [IntOf, int32] using hi
  exact ⟨by constructor <;> simp [hid], rfl⟩

lemma Plain.sendable {m : Message} (h : Plain m) : Sendable m := by
  obtain ⟨i, t, rfl, hi⟩ := h
  have hlt : MessageType.number t < 128 := by cases t <;> decide
  have hid := idSize_le i
  have hlen : (serialize { id := i, type := t }).length = 3 + idSize i := by
    simp (disch := first | decide | assumption) [serialize, Message.listFields, intField,
      uintField, subField, repField, strField, Tree.encode, Scalar.encode, key, base128_of_lt,
      idSize]
    omega
  refine ⟨fun hnil => ?_, ?_⟩
  · rw [hnil, List.length_nil] at hlen
    omega
  · rw [hlen]
    have hmax : maxMessageSize = 65536 := rfl
    omega

/-! ### What a part of the stream is read as -/

lemma sendMessages_append (l l' : List Message) :
    sendMessages (l ++ l') = sendMessages l ++ sendMessages l' := by
  simp only [sendMessages_eq, List.map_append, List.flatMap_append]

/-- **What was read of a stream of frames** is some of the messages, from the first one on. -/
lemma scan_take {ms : List Message} (hms : ∀ m ∈ ms, Sendable m) (d : ℕ) :
    (scan FrameScan.init ((sendMessages ms).take d)).phase ≠ .dead ∧
    ∃ k, k ≤ ms.length ∧
      (scan FrameScan.init ((sendMessages ms).take d)).out = (ms.take k).map serialize := by
  have hall := scan_sendMessages hms
  rw [← List.take_append_drop d (sendMessages ms)] at hall
  refine ⟨alive_of_append (by rw [hall]; simp), ?_⟩
  obtain ⟨new, hnew⟩ := scan_adds (scan FrameScan.init ((sendMessages ms).take d))
    ((sendMessages ms).drop d)
  rw [← scan_append, hall] at hnew
  obtain ⟨l, l', hl, hout, -⟩ := List.map_eq_append_iff.mp hnew
  exact ⟨l.length, by rw [hl]; simp, by rw [← hout, hl, List.take_left]⟩

/-- What a chunk adds to what was read. -/
lemma scan_chunk {ms : List Message} (hms : ∀ m ∈ ms, Sendable m) {d i : ℕ} {data rest : Bytes}
    (hdata : (sendMessages ms).drop d = data ++ rest) (hle : i ≤ ms.length)
    (hi : (scan FrameScan.init ((sendMessages ms).take d)).out = (ms.take i).map serialize) :
    (scan FrameScan.init ((sendMessages ms).take (d + data.length))) =
      scan (scan FrameScan.init ((sendMessages ms).take d)) data ∧
    ∃ l l', ms.drop i = l ++ l' ∧
      (scan (scan FrameScan.init ((sendMessages ms).take d)) data).out =
        (scan FrameScan.init ((sendMessages ms).take d)).out ++ l.map serialize := by
  have htake : (sendMessages ms).take (d + data.length) = (sendMessages ms).take d ++ data := by
    rw [List.take_add, hdata, List.take_left]
  have hscan : scan FrameScan.init ((sendMessages ms).take (d + data.length)) =
      scan (scan FrameScan.init ((sendMessages ms).take d)) data := by rw [htake, scan_append]
  refine ⟨hscan, ?_⟩
  obtain ⟨-, k, hk, hout⟩ := scan_take hms (d + data.length)
  obtain ⟨new, hnew⟩ := scan_adds (scan FrameScan.init ((sendMessages ms).take d)) data
  rw [hscan, hnew, hi] at hout
  -- the messages up to `k` are those up to `i` and some more
  obtain ⟨l₀, l, hl, hl₀, rfl⟩ := List.map_eq_append_iff.mp hout.symm
  have hlen : l₀.length = i := by
    have := congrArg List.length hl₀
    rw [List.length_map, List.length_map, List.length_take] at this
    omega
  have hsplit : ms = l₀ ++ (l ++ ms.drop k) := by
    rw [← List.append_assoc, ← hl, List.take_append_drop]
  refine ⟨l, ms.drop k, ?_, hnew⟩
  calc ms.drop i = (l₀ ++ (l ++ ms.drop k)).drop l₀.length := by rw [hlen, ← hsplit]
    _ = l ++ ms.drop k := List.drop_left

/-! ### Handing on several messages -/

/-- All that the sides have written are plain messages. -/
def AllPlain (n : Net) : Prop := ∀ s, ∀ m ∈ (n.world s).sent, Plain m

variable {n : Net} {s : Side}

lemma AllPlain.inbox (h : AllPlain n) : ∀ m ∈ n.inbox s, Plain m := fun m hm =>
  h s.peer m (List.mem_of_mem_drop hm)

/-- From `w` to `t` plain messages were written. -/
def Writes (w t : World) : Prop := ∃ new, t.sent = w.sent ++ new ∧ ∀ m ∈ new, Plain m

lemma Writes.of_sent {w t : World} (h : t.sent = w.sent) : Writes w t := ⟨[], by simp [h], by simp⟩

lemma Writes.trans {w t u : World} (h : Writes w t) (h' : Writes t u) : Writes w u := by
  obtain ⟨new, hnew, hplain⟩ := h
  obtain ⟨new', hnew', hplain'⟩ := h'
  exact ⟨new ++ new', by rw [hnew', hnew, List.append_assoc],
    List.forall_mem_append.mpr ⟨hplain, hplain'⟩⟩

lemma Writes.allPlain {n' : Net} (h : ∀ s, Writes (n.world s) (n'.world s)) (hn : AllPlain n) :
    AllPlain n' := fun s m hm => by
  obtain ⟨new, hnew, hplain⟩ := h s
  rw [hnew] at hm
  exact (List.mem_append.mp hm).elim (hn s m) (hplain m)

lemma writes_start {r : ℕ} (hn : Good n) (he : Peers.Admits n (.start s r))
    (hi : int32 (n.world s).requestCounter = true) :
    Writes (n.world s) ((n.world s).step (.start r)) := by
  obtain ⟨hfresh, hsrc, harg, hkind⟩ := he
  have hplain : ∀ t, ∀ m ∈ [({ id := (n.world s).requestCounter, type := t } : Message)], Plain m :=
    fun t m hm => ⟨_, t, List.mem_singleton.mp hm, hi⟩
  rcases hkind with hkind | hkind
  · exact ⟨_, (congrArg World.sent (after_of_ok (start_ping (hn.pinging s) hfresh.id hsrc harg hkind
      hi))).trans (begin_sent _ r _), hplain .ping⟩
  · exact ⟨_, (congrArg World.sent (after_of_ok (start_noop (hn.pinging s) hfresh.id hsrc harg hkind
      hi))).trans (begin_sent _ r _), hplain .noop⟩

lemma writes_message {m : Message} {rest : List Message} (hn : Good n) (hm : Plain m)
    (hin : n.inbox s = m :: rest) :
    Writes (n.world s) (after (processMessage m none) (n.world s)) := by
  have hw := hn.pinging s
  cases hn.flies s m (by simp [hin]) with
  | pong i hi =>
    obtain ⟨r, hr⟩ := hn.sound.answers s _ (hin ▸ List.mem_cons_self ..) rfl
    rw [after_of_ok (processMessage_pong hw hr)]
    exact .of_sent rfl
  | ping i hi =>
    obtain ⟨j, t, hj, hint⟩ := hm
    obtain rfl : i = j := congrArg Message.id hj
    rw [after_of_ok (processMessage_ping (hw.get?_peer hi))]
    refine ⟨_, (slows_sendMessage _ _).sent, fun m hm => ⟨i, .pong, List.mem_singleton.mp hm, hint⟩⟩
  | noop i hi =>
    rw [after_of_ok (processMessage_noop (hw.get?_peer hi))]
    exact .of_sent rfl

/-- From `n` to `n'` a side reads some messages. -/
structure Delivers (n n' : Net) (s : Side) (l : List Message) : Prop where
  good : Good n'
  accepts : Accepts (receive parseFromString noRaises) (n.world s) (l.map serialize)
  world : n'.world = Function.update n.world s
    (deliverAll (receive parseFromString noRaises) (l.map serialize) (n.world s))
  delivered : n'.delivered = Function.update n.delivered s (n.delivered s + l.length)
  writes : ∀ s', Writes (n.world s') (n'.world s')
  counter : ∀ s', (n'.world s').requestCounter = (n.world s').requestCounter

/-- **Messages that are delivered one after another** are processed as those of a chunk are. -/
lemma Good.delivers {l : List Message} : ∀ {n : Net} {l' : List Message}, Good n → AllPlain n →
    n.inbox s = l ++ l' →
    Delivers n (Runs.run Net.step n (List.replicate l.length (.deliver s))) s l := by
  induction l with
  | nil =>
    intro n l' hn _ _
    exact ⟨hn, trivial, (Function.update_eq_self s n.world).symm,
      (Function.update_eq_self s n.delivered).symm, fun _ => .of_sent rfl, fun _ => rfl⟩
  | cons m l ih =>
    intro n l' hn hplain hin
    have hm : Plain m := hplain.inbox m (by rw [hin]; simp)
    obtain ⟨hgood, hraises, hcounter⟩ := hn.deliver s
    have hstep := step_deliver_cons hin
    rw [raises_deliver_cons hin] at hraises
    set t := after (processMessage m none) (n.world s) with ht
    have hworld : (n.step (.deliver s)).world = Function.update n.world s t := by
      rw [hstep]
      rfl
    have hself : (n.step (.deliver s)).world s = t := by rw [hworld, Function.update_self]
    have hwrites : ∀ s', Writes (n.world s') ((n.step (.deliver s)).world s') := by
      intro s'
      by_cases h : s' = s
      · subst h
        rw [hself]
        exact writes_message hn hm hin
      · rw [step_world_of_ne h]
        exact .of_sent rfl
    have hinbox : (n.step (.deliver s)).inbox s = l ++ l' := by
      rw [hstep, inbox_read_self, inbox_setWorld_self, hin]
      rfl
    have hrest := ih hgood (Writes.allPlain hwrites hplain) hinbox
    have hreceive := receive_serialize hm.proper
    refine ⟨hrest.good, ⟨?_, ?_⟩, ?_, ?_, fun s' => (hwrites s').trans (hrest.writes s'),
      fun s' => (hrest.counter s').trans ?_⟩
    · rw [hreceive]
      exact hraises
    · have hacc := hrest.accepts
      rwa [hself, ht, ← hreceive] at hacc
    · have h := hrest.world
      rw [hself, hworld, Function.update_idem, ht, ← hreceive] at h
      exact h
    · have hread : (n.step (.deliver s)).delivered =
          Function.update n.delivered s (n.delivered s + 1) := by
        rw [hstep]
        rfl
      have h := hrest.delivered
      rw [hread, Function.update_idem, Function.update_self, Nat.add_right_comm] at h
      exact h
    · by_cases h : s' = s
      · rw [h, hcounter]
      · rw [step_world_of_ne h]

/-! ### A step of the streams is a run of the messages -/

/-- A network of byte streams, and one of messages that is as far. -/
structure Relates (b : Link) (n : Net) : Prop where
  good : Good n
  plain : AllPlain n
  world : ∀ s, b.world s = n.world s
  delivered : ∀ s, b.delivered s ≤ (b.written s).length
  reads : ∀ s, Reads (b.handler s) (scan FrameScan.init ((b.written s).take (b.delivered s)))
  payloads : ∀ s, (b.handler s).payloads =
    ((n.world s.peer).sent.take (n.delivered s)).map serialize
  lost : ∀ s, (b.handler s).lost = 0

variable {b : Link}

lemma Relates.written (h : Relates b n) (s : Side) :
    b.written s = sendMessages (n.world s.peer).sent := by
  unfold Link.written
  rw [h.world]

lemma Initial.relates (h : Initial b) : Relates b b.net := by
  have hsent : ∀ s, (b.world s).sent = [] := fun s => (h.world s).sent
  refine ⟨Peers.Initial.good ⟨h.world, h.requestIdStart, fun _ => rfl⟩, fun s m hm => ?_,
    fun _ => rfl, fun s => ?_, fun s => ?_, fun s => ?_, fun s => ?_⟩
  · rw [show (b.net.world s).sent = [] from hsent s] at hm
    cases hm
  · rw [h.delivered]
    exact Nat.zero_le _
  · rw [h.handler, h.delivered, List.take_zero]
    exact reads_fresh _
  · rw [h.handler]
    rfl
  · rw [h.handler]
    rfl

/-- What a side writes while it reads is added to the stream of its peer. -/
lemma written_of_writes {w t : World} (h : Writes w t) :
    ∃ v, sendMessages t.sent = sendMessages w.sent ++ v := by
  obtain ⟨new, hnew, -⟩ := h
  exact ⟨_, by rw [hnew, sendMessages_append]⟩

/-- A side has taken a turn, in which it may have read and written. -/
lemma Relates.turn (h : Relates b n) {b' : Link} {n' : Net} (hgood : Good n')
    (hw : Writes (n.world s) (n'.world s)) (hpeer : n'.world s.peer = n.world s.peer)
    (hcount : n'.delivered s.peer = n.delivered s.peer)
    (hother : b'.handler s.peer = b.handler s.peer)
    (hread : b'.delivered s.peer = b.delivered s.peer) (happ : b'.world s = n'.world s)
    (hle : b'.delivered s ≤ (b.written s).length)
    (hreads : Reads (b'.handler s) (scan FrameScan.init ((b.written s).take (b'.delivered s))))
    (hpay : (b'.handler s).payloads =
      ((n.world s.peer).sent.take (n'.delivered s)).map serialize)
    (hlost : (b'.handler s).lost = 0) : Relates b' n' := by
  have hworld : ∀ s', b'.world s' = n'.world s' := by
    intro s'
    rcases eq_or_eq_peer s s' with rfl | rfl
    · exact happ
    · rw [hpeer, ← h.world]
      exact congrArg Handler.app hother
  have hself : b'.written s = b.written s := by
    unfold Link.written
    rw [hworld, hpeer, ← h.world]
  -- the stream to the peer has only grown
  obtain ⟨v, hv⟩ := written_of_writes hw
  have hgrown : b'.written s.peer = b.written s.peer ++ v := by
    have hold := h.written s.peer
    rw [peer_peer] at hold
    unfold Link.written at hold ⊢
    rw [peer_peer] at hold ⊢
    rw [hworld, hv, hold]
  have hdelivered := h.delivered s.peer
  refine ⟨hgood, Writes.allPlain (fun s' => ?_) h.plain, hworld, fun s' => ?_, fun s' => ?_,
    fun s' => ?_, fun s' => ?_⟩
  all_goals rcases eq_or_eq_peer s s' with rfl | rfl
  · exact hw
  · exact .of_sent (by rw [hpeer])
  · rwa [hself]
  · rw [hread, hgrown, List.length_append]
    omega
  · rwa [hself]
  · rw [hother, hread, hgrown, List.take_append_of_le_length hdelivered]
    exact h.reads s.peer
  · rwa [hpeer]
  · obtain ⟨new, hnew, -⟩ := hw
    have hpay' := h.payloads s.peer
    have hle' := h.good.delivered s.peer
    rw [peer_peer] at hpay' hle' ⊢
    rw [hother, hcount, hnew, List.take_append_of_le_length hle', hpay']
  · exact hlost
  · rw [hother]
    exact h.lost s.peer

lemma Relates.admits {r : ℕ} (h : Relates b n) (he : Admits b (.start s r)) :
    Peers.Admits n (.start s r) := by
  simp only [Admits, h.world] at he
  exact he

/-- Starting a request does at the one network what it does at the other. -/
lemma Relates.start {r : ℕ} (h : Relates b n) (he : Admits b (.start s r))
    (hi : ∀ s', (n.world s').requestCounter + 2 * Peers.starts s' [.start s r] ≤ 2 ^ 31)
    (hint : int32 (n.world s).requestCounter = true) :
    Relates (b.step (.start s r)) (n.step (.start s r)) ∧ b.raises (.start s r) = none := by
  have he' := h.admits he
  obtain ⟨hgood, hraises, -⟩ := h.good.step he' hi
  have hself : (n.step (.start s r)).world s = (n.world s).step (.start r) := setWorld_self _
  have hpeer : (n.step (.start s r)).world s.peer = n.world s.peer :=
    step_world_of_ne (peer_ne s)
  have hhandler : (b.step (.start s r)).handler s =
      { b.handler s with app := (b.world s).step (.start r) } := Function.update_self ..
  have hother : (b.step (.start s r)).handler s.peer = b.handler s.peer :=
    Function.update_of_ne (peer_ne s) ..
  refine ⟨h.turn hgood (hself ▸ writes_start h.good he' hint) hpeer rfl hother rfl ?_
    (h.delivered s) ?_ ?_ ?_, ?_⟩
  · rw [hself, ← h.world]
    exact congrArg Handler.app hhandler
  · rw [hhandler]
    exact reads_app (h.reads s) _
  · rw [hhandler]
    exact h.payloads s
  · rw [hhandler]
    exact h.lost s
  · simp only [Link.raises, h.world]
    exact hraises

/-- **A chunk does what the messages it completes do**, and raises nothing. -/
lemma Relates.chunk (h : Relates b n) {data rest : Bytes} (hin : b.inFlight s = data ++ rest)
    (hne : data ≠ []) : ∃ k, Relates (b.chunk s data)
      (Runs.run Net.step n (List.replicate k (.deliver s))) ∧
      (∀ s', ((Runs.run Net.step n (List.replicate k (.deliver s))).world s').requestCounter =
        (n.world s').requestCounter) ∧
      raised (dataReceived (receive parseFromString noRaises) data) (b.handler s) = none := by
  set ms := (n.world s.peer).sent with hms
  have hwritten : b.written s = sendMessages ms := h.written s
  have hsendable : ∀ m ∈ ms, Sendable m := fun m hm => (h.plain s.peer m hm).sendable
  have hreads := h.reads s
  rw [hwritten] at hreads
  have hdrop : (sendMessages ms).drop (b.delivered s) = data ++ rest := by
    rw [← hwritten]
    exact hin
  obtain ⟨hscan, l, l', hl, hnew⟩ := scan_chunk hsendable hdrop (h.good.delivered s)
    (hreads.2.symm.trans (h.payloads s))
  have hdel := Good.delivers h.good h.plain hl
  have hacc : Accepts (receive parseFromString noRaises) (b.handler s).app (l.map serialize) := by
    have := h.world s
    unfold Link.world at this
    rw [this]
    exact hdel.accepts
  obtain ⟨hreads', happ⟩ := dataReceived_accepts hreads hne hnew hacc
  have hlive := (scan_take hsendable (b.delivered s + data.length)).1
  rw [hscan] at hlive
  obtain ⟨hraised, hlost⟩ := dataReceived_returns hreads hne hnew hacc hlive
  have hhandler : (b.chunk s data).handler s =
      after (dataReceived (receive parseFromString noRaises) data) (b.handler s) :=
    Function.update_self ..
  have hdelivered : (b.chunk s data).delivered s = b.delivered s + data.length :=
    Function.update_self ..
  refine ⟨l.length, h.turn hdel.good (hdel.writes s) ?_ ?_ (Function.update_of_ne (peer_ne s) ..)
    (Function.update_of_ne (peer_ne s) ..) ?_ ?_ ?_ ?_ ?_, hdel.counter, hraised⟩
  · rw [hdel.world, Function.update_of_ne (peer_ne s)]
  · rw [hdel.delivered, Function.update_of_ne (peer_ne s)]
  · rw [hdel.world, Function.update_self, ← h.world]
    unfold Link.world
    rw [hhandler]
    exact happ
  · have hlen := congrArg List.length hin
    rw [Link.inFlight, List.length_drop, List.length_append] at hlen
    have hpos := List.length_pos_iff.mpr hne
    rw [hdelivered]
    omega
  · rw [hhandler, hdelivered, hwritten, hscan]
    exact hreads'
  · rw [hhandler, hreads'.2, hnew, ← hreads.2, h.payloads, hdel.delivered, Function.update_self,
      ← List.map_append, ← hms]
    have htake : ms.take (n.delivered s + l.length) = ms.take (n.delivered s) ++ l := by
      rw [List.take_add, hl, List.take_left]
    rw [htake]
  · rw [hhandler, hlost]
    exact h.lost s

variable (s) in
lemma legal_deliveries (k : ℕ) : ∀ n : Net,
    Runs.Legal Net.step Peers.Admits n (List.replicate k (.deliver s)) := by
  induction k with
  | zero => exact fun _ => trivial
  | succ k ih => exact fun n => ⟨trivial, ih _⟩

/-- From `n` on, messages take it where the events of the byte streams took `b'`, and it counts
the same requests. -/
structure Follows (b' : Link) (n : Net) (es : List Event) (es' : List Peers.Event) : Prop where
  legal : Runs.Legal Net.step Peers.Admits n es'
  relates : Relates b' (Runs.run Net.step n es')
  counter : ∀ s, ((Runs.run Net.step n es').world s).requestCounter =
    (n.world s).requestCounter + 2 * starts s es

/-- The ids that are left are enough for a request that is started. -/
lemma int32_requestCounter (hn : Good n) (h : (n.world s).requestCounter + 2 ≤ 2 ^ 31) :
    int32 (n.world s).requestCounter = true := by
  have hpos := (hn.pinging s).counter.1
  rw [(hn.pinging s).requestIdStart] at hpos
  have hstart : 0 ≤ s.requestIdStart := by cases s <;> decide
  simp only [int32, Bool.and_eq_true, decide_eq_true_eq]
  omega

/-- **Every step** of the byte streams is a run of the messages, and raises nothing. -/
lemma Relates.step (h : Relates b n) {e : Event} (he : Admits b e)
    (hi : ∀ s, (n.world s).requestCounter + 2 * starts s [e] ≤ 2 ^ 31) :
    b.raises e = none ∧ ∃ es', Follows (b.step e) n [e] es' := by
  cases e with
  | start s r =>
    have hstarts : ∀ s', Peers.starts s' [.start s r] = starts s' [.start s r] := fun _ => rfl
    have hint : int32 (n.world s).requestCounter = true :=
      int32_requestCounter h.good (by simpa [starts] using hi s)
    obtain ⟨hrel, hraises⟩ := h.start he (by simpa only [hstarts] using hi) hint
    obtain ⟨-, -, hcounter⟩ := h.good.step (h.admits he) (by simpa only [hstarts] using hi)
    exact ⟨hraises, [.start s r], ⟨h.admits he, trivial⟩, hrel, hcounter⟩
  | deliver s k =>
    by_cases hnil : (b.inFlight s).take k = []
    · refine ⟨by simp [Link.raises, hnil], [], trivial, ?_, fun s' => by simp [starts]⟩
      simpa [Link.step, hnil] using h
    · obtain ⟨j, hrel, hcounter, hraised⟩ :=
        h.chunk (List.take_append_drop k (b.inFlight s)).symm hnil
      refine ⟨by simp [Link.raises, hnil, hraised], _, legal_deliveries s j n, ?_, fun s' => ?_⟩
      · simpa [Link.step, hnil] using hrel
      · simp [hcounter, starts]

lemma starts_cons (s : Side) (e : Event) (es : List Event) :
    starts s (e :: es) = starts s [e] + starts s es := by
  unfold starts
  rw [← List.countP_append, List.singleton_append]

lemma Relates.run {es : List Event} : ∀ {b : Link} {n : Net}, Relates b n →
    Runs.Legal Link.step Admits b es →
    (∀ s, (n.world s).requestCounter + 2 * starts s es ≤ 2 ^ 31) →
    (∃ es', Follows (Runs.run Link.step b es) n es es') ∧ ∀ pre e post, es = pre ++ e :: post →
      (Runs.run Link.step b pre).raises e = none := by
  induction es with
  | nil =>
    intro b n h _ _
    exact ⟨⟨[], trivial, h, fun s => by simp [starts]⟩, fun pre e post heq => by simp at heq⟩
  | cons e es ih =>
    intro b n h hes hi
    have hle : ∀ s, (n.world s).requestCounter + 2 * starts s [e] + 2 * starts s es ≤ 2 ^ 31 := by
      intro s
      have := hi s
      rw [starts_cons] at this
      omega
    obtain ⟨hraises, es₁, h₁⟩ := h.step hes.1 fun s => by
      have := hle s
      omega
    obtain ⟨⟨es₂, h₂⟩, hall⟩ := ih h₁.relates hes.2 fun s => by
      rw [h₁.counter]
      exact hle s
    refine ⟨⟨es₁ ++ es₂, Runs.legal_append.mpr ⟨h₁.legal, h₂.legal⟩, ?_, fun s => ?_⟩, ?_⟩
    · rw [Runs.run_append]
      exact h₂.relates
    · have hcons := starts_cons s e es
      rw [Runs.run_append, h₂.counter, h₁.counter]
      omega
    · rintro (_ | ⟨e', pre⟩) e'' post heq
      · obtain ⟨rfl, -⟩ := List.cons_eq_cons.mp heq
        exact hraises
      · obtain ⟨rfl, rfl⟩ := List.cons_eq_cons.mp heq
        exact hall pre e'' post rfl

/-! ### Pings over byte streams -/

/-- When no bytes are in flight, no messages are. -/
lemma Relates.inbox_nil (h : Relates b n) (hs : b.inFlight s = []) : n.inbox s = [] := by
  have hall : (b.written s).take (b.delivered s) = b.written s :=
    List.take_of_length_le (List.drop_eq_nil_iff.mp hs)
  have hsendable : ∀ m ∈ (n.world s.peer).sent, Sendable m :=
    fun m hm => (h.plain s.peer m hm).sendable
  have hreads := h.reads s
  rw [hall, h.written, scan_sendMessages hsendable] at hreads
  have hlen := congrArg List.length ((h.payloads s).symm.trans hreads.2)
  rw [List.length_map, List.length_map, List.length_take] at hlen
  exact List.drop_eq_nil_iff.mpr (by omega)

/-- **Crossing pings over byte streams**, whatever the chunks and the order of the steps: the
peers do what peers that hand each other whole messages may do, no step raises, no connection is
given up, no deferred is fired twice, and once all bytes are read all pings are done. -/
theorem crossing_pings_bytes {b₀ : Link} (h₀ : Initial b₀) {es : List Event}
    (hes : Runs.Legal Link.step Admits b₀ es) (hcount : ∀ s, starts s es < 2 ^ 30) :
    (∃ es', Runs.Legal Net.step Peers.Admits b₀.net es' ∧
      ∀ s, (Runs.run Link.step b₀ es).world s = (Runs.run Net.step b₀.net es').world s) ∧
    (∀ pre e post, es = pre ++ e :: post → (Runs.run Link.step b₀ pre).raises e = none) ∧
    (∀ s, ((Runs.run Link.step b₀ es).handler s).lost = 0 ∧
      ((Runs.run Link.step b₀ es).world s).faults = []) ∧
    ((∀ s, (Runs.run Link.step b₀ es).inFlight s = []) → ∀ s r,
      (((Runs.run Link.step b₀ es).world s).objs r).kind = .ping →
      (((Runs.run Link.step b₀ es).world s).objs r).id ≠ none →
      (((Runs.run Link.step b₀ es).world s).objs r).deferred = some .callback) := by
  obtain ⟨⟨es', hfollows⟩, hraises⟩ := h₀.relates.run hes fun s => by
    have hstart : (b₀.net.world s).requestCounter ≤ 1 := by
      rw [show (b₀.net.world s).requestCounter = _ from (h₀.world s).requestCounter,
        h₀.requestIdStart]
      cases s <;> decide
    have := hcount s
    omega
  have hrel := hfollows.relates
  have hsound := hrel.good.sound
  refine ⟨⟨es', hfollows.legal, hrel.world⟩, hraises, fun s => ⟨hrel.lost s, ?_⟩,
    fun hnone s r => ?_⟩
  · rw [hrel.world]
    exact hsound.once s
  · rw [hrel.world]
    exact hsound.quiet (fun s => hrel.inbox_nil (hnone s)) s r

/-! ### Two pings -/

/-- Two handlers with ping objects on a new connection. -/
def linked : Link where
  handler s := fresh (pinging.world s)
  delivered _ := 0

/-- Both sides ping, and the bytes come in pieces. -/
def bothLinked : List Event :=
  [.start .server 0, .start .client 0, .deliver .client 3, .deliver .client 6, .deliver .server 1,
    .deliver .server 20]

/-- The client does not give the connection up. -/
theorem crossing_pings_linked :
    ((Runs.run Link.step linked bothLinked).handler .client).lost = 0 ∧
    ((Runs.run Link.step linked bothLinked).world .client).faults = [] := by
  have hinitial : Initial linked :=
    ⟨initial_pinging.world, initial_pinging.requestIdStart, fun _ => rfl, fun _ => rfl⟩
  have hlegal : Runs.Legal Link.step Admits linked bothLinked := by
    exact ⟨⟨(initial_pinging.world .server).objs 0, rfl, rfl, Or.inl rfl⟩,
      ⟨(initial_pinging.world .client).objs 0, rfl, rfl, Or.inl rfl⟩, trivial, trivial, trivial,
      trivial, trivial⟩
  exact (crossing_pings_bytes hinitial hlegal fun s => by cases s <;> decide).2.2.1 .client

end Magicicada.Links
