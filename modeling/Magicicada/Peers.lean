import Magicicada.Starting

/-!
Two `RequestHandler` peers that ping each other over reliable channels.

One side gives its requests the ids 0, 2, 4, ..., the other 1, 3, 5, .... A channel holds what
was written to its end and not yet read from the other, in order.
-/

namespace Magicicada.Peers

open Pb Errors Fields Requests Prog Client

/-! ### The network -/

/-- The two sides, by their `REQUEST_ID_START`. -/
inductive Side
  | server | client
  deriving DecidableEq

def Side.requestIdStart : Side → ℤ
  | .server => 0
  | .client => 1

def Side.peer : Side → Side
  | .server => .client
  | .client => .server

/-- Two handlers, and how many of the messages of its peer each has read. -/
structure Net where
  world : Side → World
  delivered : Side → ℕ

/-- The messages in flight to a side. -/
def Net.inbox (n : Net) (s : Side) : List Message := (n.world s.peer).sent.drop (n.delivered s)

inductive Event
  /-- `ping()` or `noop()`, which start a new request object. -/
  | start (s : Side) (r : ℕ)
  /-- The side reads the next message in flight to it. -/
  | deliver (s : Side)

/-- The network with another state of the handler of a side. -/
def Net.setWorld (n : Net) (s : Side) (w : World) : Net :=
  { n with world := Function.update n.world s w }

/-- The side has read one more message. -/
def Net.read (n : Net) (s : Side) : Net :=
  { n with delivered := Function.update n.delivered s (n.delivered s + 1) }

def Net.step (n : Net) : Event → Net
  | .start s r => n.setWorld s ((n.world s).step (.start r))
  | .deliver s =>
    match n.inbox s with
    | [] => n
    | m :: _ => (n.setWorld s ((n.world s).step (.message m none))).read s

/-- What the event raises, if it does. -/
def Net.raises (n : Net) : Event → Option Exn
  | .start s r => raised (Client.start r) (n.world s)
  | .deliver s =>
    match n.inbox s with
    | [] => none
    | m :: _ => raised (processMessage m none) (n.world s)

/-- Two handlers as they are made, and nothing in flight. -/
structure Initial (n : Net) : Prop where
  world : ∀ s, Client.Initial (n.world s)
  requestIdStart : ∀ s, (n.world s).env.requestIdStart = s.requestIdStart
  delivered : ∀ s, n.delivered s = 0

/-- What is started is a new `Ping` or `Noop`. -/
def Admits (n : Net) : Event → Prop
  | .start s r => Fresh ((n.world s).objs r) ∧ ((n.world s).objs r).source = none ∧
      ((n.world s).objs r).argError = none ∧
      (((n.world s).objs r).kind = .ping ∨ ((n.world s).objs r).kind = .noop)
  | .deliver _ => True

/-- How many requests a side starts. -/
def starts (s : Side) (es : List Event) : ℕ := es.countP fun e =>
  match e with
  | .start s' _ => s' = s
  | .deliver _ => false

/-! ### The pings in flight -/

/-- A message is a `PING` or a `PONG` with the id. -/
def Crosses (i : ℤ) (m : Message) : Prop := m.id = i ∧ (m.type = .ping ∨ m.type = .pong)

instance (i : ℤ) : DecidablePred (Crosses i) := fun _ => inferInstanceAs (Decidable (_ ∧ _))

/-- How many messages with the id are in flight that ask for a `PONG` or are one. -/
def Net.crossing (n : Net) (i : ℤ) : ℕ :=
  (n.inbox .server).countP (Crosses i) + (n.inbox .client).countP (Crosses i)

/-- What is in flight to a side: answers to its own requests, and requests of its peer. -/
inductive Flies (s : Side) : Message → Prop
  | pong (i : ℤ) (h : i % 2 = s.requestIdStart) : Flies s { id := i, type := .pong }
  | ping (i : ℤ) (h : i % 2 = s.peer.requestIdStart) : Flies s { id := i, type := .ping }
  | noop (i : ℤ) (h : i % 2 = s.peer.requestIdStart) : Flies s { id := i, type := .noop }

/-- The requests of a side are pings that wait and others that are done. -/
structure Pinging (s : Side) (w : World) : Prop extends Registry w where
  requestIdStart : w.env.requestIdStart = s.requestIdStart
  pings : ∀ i r, w.requests.get? i = some r → (w.objs r).kind = .ping
  done : ∀ r, (w.objs r).finished = true → (w.objs r).deferred = some .callback

/-- The invariant: an id is in flight once if its ping waits, and else not at all. -/
structure Good (n : Net) : Prop where
  pinging : ∀ s, Pinging s (n.world s)
  delivered : ∀ s, n.delivered s ≤ (n.world s.peer).sent.length
  flies : ∀ s, ∀ m ∈ n.inbox s, Flies s m
  crossing : ∀ s i, i % 2 = s.requestIdStart →
    n.crossing i = if ((n.world s).requests.get? i).isSome then 1 else 0

lemma Initial.good {n : Net} (h : Initial n) : Good n := by
  have hinbox : ∀ s, n.inbox s = [] := fun s => by simp [Net.inbox, (h.world s.peer).sent]
  refine ⟨fun s => ⟨(h.world s).registry, h.requestIdStart s, fun i r hr => ?_, fun r hr => ?_⟩,
    fun s => by simp [h.delivered], fun s m hm => ?_, fun s i _ => ?_⟩
  · simp [(h.world s).requests] at hr
  · simp [((h.world s).objs r).finished] at hr
  · simp [hinbox] at hm
  · simp [Net.crossing, hinbox, (h.world s).requests]

/-- The ids of the two sides are different. -/
lemma parity_ne {s : Side} {i : ℤ} (h : i % 2 = s.requestIdStart) :
    i % 2 ≠ s.peer.requestIdStart := by
  cases s <;> simp [Side.requestIdStart, Side.peer] at * <;> omega

lemma Pinging.parity {s : Side} {w : World} (hw : Pinging s w) {i : ℤ} {r : ℕ}
    (h : w.requests.get? i = some r) : i % 2 = s.requestIdStart := by
  have hid := (hw.entry i r h).1
  have := (hw.ids r i hid).2.2
  rw [hw.requestIdStart] at this
  cases s <;> simpa [Side.requestIdStart] using this

/-! ### Messages -/

/-- A message with nothing but an id and a type is valid. -/
lemma validateMessage_bare (i : ℤ) (t : MessageType) :
    validateMessage { id := i, type := t } = [] := by
  simp [validateMessage, Validators.validateMessage, Validators.validateField,
    Validators.validator, Message.listFields, intField, uintField, subField, strField, repField]

/-! ### One handler -/

variable {s : Side} {w : World} {r : ℕ}

/-- What the started requests of a handler are is known but for their flags. -/
lemma Pinging.of_core {t : World} (hw : Pinging s w) (h : t.core = w.core) : Pinging s t where
  toRegistry := hw.toRegistry.of_ledger (ledger_of_core h)
  requestIdStart := (congrArg (fun w => w.env.requestIdStart) h).trans hw.requestIdStart
  pings i r hr := by
    rw [requests_of_ledger (ledger_of_core h)] at hr
    exact (congrArg Request.kind (objs_of_core h r)).trans (hw.pings i r hr)
  done r hr := by
    have hobj := objs_of_core h r
    have hfin := (congrArg Request.finished hobj).symm.trans hr
    exact (congrArg Request.deferred hobj).trans (hw.done r hfin)

/-- A ping that begins waits for its answer. -/
lemma Pinging.begin (hw : Pinging s w) (hid : (w.objs r).id = none)
    (hkind : (w.objs r).kind = .ping) (m : Message) : Pinging s (w.begin r m) where
  toRegistry := hw.toRegistry.begin hid m
  requestIdStart := (congrArg (fun w => w.env.requestIdStart) (ledger_begin w r m)).trans
    hw.requestIdStart
  pings i r' hr' := by
    rw [begin_requests, Dict.get?_set] at hr'
    split at hr'
    · cases hr'
      exact (congrArg Request.kind (begin_objs_self w r m)).trans (by rw [hkind]; rfl)
    · have hne : r' ≠ r := by
        rintro rfl
        exact absurd (hid.symm.trans (hw.entry i r' hr').1) (Option.some_ne_none i).symm
      exact (congrArg Request.kind (begin_objs_of_ne hne m)).trans (hw.pings i r' hr')
  done r' hr' := by
    by_cases hne : r' = r
    · subst hne
      have hfin := (congrArg Request.finished (begin_objs_self w r' m)).symm.trans hr'
      exact absurd ((hw.fresh r' hid).2.1.symm.trans hfin) Bool.false_ne_true
    · have hobj := begin_objs_of_ne (w := w) hne m
      exact (congrArg Request.deferred hobj).trans
        (hw.done r' ((congrArg Request.finished hobj).symm.trans hr'))

/-- A request that is done leaves the registry to the pings that wait. -/
lemma Pinging.finish {i : ℤ} {t : World} (ht : Registry t) (hr : t.requests.get? i = some r)
    (hstart : t.env.requestIdStart = s.requestIdStart)
    (hpings : ∀ j r', t.requests.get? j = some r' → r' ≠ r → (t.objs r').kind = .ping)
    (hdone : ∀ r', r' ≠ r → (t.objs r').finished = true →
      (t.objs r').deferred = some .callback) : Pinging s (t.finish r i .callback) where
  toRegistry := ht.finish hr .callback
  requestIdStart := hstart
  pings j r' hfinish := by
    obtain ⟨hji, hr'⟩ := registered_of_finish hfinish
    have hne : r' ≠ r := by
      rintro rfl
      exact hji (ht.eq_of_get? hr' hr)
    rw [finish_objs_of_ne hne]
    exact hpings j r' hr' hne
  done r' hr' := by
    by_cases hne : r' = r
    · subst hne; simp
    · rw [finish_objs_of_ne hne] at hr' ⊢
      exact hdone r' hne hr'

lemma get?_begin_self (w : World) (r : ℕ) (m : Message) :
    (w.begin r m).requests.get? w.requestCounter = some r := by
  rw [begin_requests]
  simp

/-- A request that is done once it has begun leaves the pings as they were. -/
lemma Pinging.begin_finish (hw : Pinging s w) (hid : (w.objs r).id = none) (m : Message) :
    Pinging s ((w.begin r m).finish r w.requestCounter .callback) := by
  refine Pinging.finish (hw.toRegistry.begin hid m) (get?_begin_self w r m) ?_ ?_ ?_
  · exact (congrArg (fun w => w.env.requestIdStart) (ledger_begin w r m)).trans hw.requestIdStart
  · intro j r' hr' hne
    rw [begin_requests, Dict.get?_set] at hr'
    split at hr'
    · exact absurd (Option.some.inj hr').symm hne
    · exact (congrArg Request.kind (begin_objs_of_ne hne m)).trans (hw.pings j r' hr')
  · intro r' hne hr'
    have hobj := begin_objs_of_ne (w := w) hne m
    exact (congrArg Request.deferred hobj).trans
      (hw.done r' ((congrArg Request.finished hobj).symm.trans hr'))

/-- `ping()` sends a `PING` and leaves the ping waiting. -/
lemma start_ping (hw : Pinging s w) (hid : (w.objs r).id = none) (hsrc : (w.objs r).source = none)
    (harg : (w.objs r).argError = none) (hkind : (w.objs r).kind = .ping)
    (hi : int32 w.requestCounter = true) :
    (start r).run w = .ok ⟨⟩ (w.begin r { type := .ping }) := by
  rw [start_begin hw.toRegistry hid hsrc harg (by rw [hkind]; rfl) hi, hkind]
  rfl

/-- `noop()` sends a `NOOP` and is done. -/
lemma start_noop (hw : Pinging s w) (hid : (w.objs r).id = none) (hsrc : (w.objs r).source = none)
    (harg : (w.objs r).argError = none) (hkind : (w.objs r).kind = .noop)
    (hi : int32 w.requestCounter = true) : (start r).run w =
      .ok ⟨⟩ ((w.begin r { type := .noop }).finish r w.requestCounter .callback) := by
  rw [start_begin hw.toRegistry hid hsrc harg (by rw [hkind]; rfl) hi, hkind]
  exact settle_run (hw.toRegistry.begin hid _) (get?_begin_self w r _) .callback

/-- A `PONG` for a ping that waits makes it done. -/
lemma processMessage_pong (hw : Pinging s w) {i : ℤ} (hr : w.requests.get? i = some r) :
    (processMessage { id := i, type := .pong } none).run w =
      .ok ⟨⟩ ((w.setObj r fun q => { q with kind := .ping }).finish r i .callback) := by
  have hkind := hw.pings i r hr
  have hreg : Registry (w.setObj r fun q => { q with kind := .ping }) :=
    hw.toRegistry.of_ledger (ledger_setKind w r fun _ => .ping)
  have hset : (Request.settle r .callback).run (w.setObj r fun q => { q with kind := .ping }) =
      .ok ⟨⟩ ((w.setObj r fun q => { q with kind := .ping }).finish r i .callback) :=
    settle_run hreg hr .callback
  have hrun : (Request.processMessage r { id := i, type := .pong } none).run w =
      (Request.settle r .callback).run (w.setObj r fun q => { q with kind := .ping }) := by
    simp [Request.processMessage, hkind, Kind.processMessage, pingProcessMessage, carryOut,
      Request.done, modifyObj, World.setObj]
  rw [processMessage_valid (validateMessage_bare i .pong), dispatch_registered hr, run_tryCatch,
    hrun, hset]

/-- A `PING` of the peer is answered. -/
lemma processMessage_ping {i : ℤ} (hr : w.requests.get? i = none) :
    (processMessage { id := i, type := .ping } none).run w =
      .ok ⟨⟩ (sendMessage { id := i, type := .pong } w) := by
  rw [processMessage_valid (validateMessage_bare i .ping), dispatch_unregistered hr]
  rfl

/-- A `NOOP` of the peer does nothing. -/
lemma processMessage_noop {i : ℤ} (hr : w.requests.get? i = none) :
    (processMessage { id := i, type := .noop } none).run w = .ok ⟨⟩ w := by
  rw [processMessage_valid (validateMessage_bare i .noop), dispatch_unregistered hr]
  rfl

/-! ### The channels -/

@[simp] lemma peer_peer (s : Side) : s.peer.peer = s := by cases s <;> rfl

lemma peer_ne (s : Side) : s.peer ≠ s := by cases s <;> exact fun h => nomatch h

lemma eq_or_eq_peer (s s' : Side) : s' = s ∨ s' = s.peer := by
  cases s <;> cases s' <;> simp [Side.peer]

variable {n : Net}

lemma crossing_eq (s : Side) (i : ℤ) : n.crossing i =
    (n.inbox s).countP (Crosses i) + (n.inbox s.peer).countP (Crosses i) := by
  cases s
  · rfl
  · exact Nat.add_comm ..

@[simp] lemma setWorld_self (t : World) : (n.setWorld s t).world s = t := Function.update_self ..

@[simp] lemma read_world : (n.read s).world = n.world := rfl

@[simp] lemma inbox_read_self : (n.read s).inbox s = (n.inbox s).tail := by
  simp [Net.inbox, Net.read]

@[simp] lemma inbox_read_peer : (n.read s).inbox s.peer = n.inbox s.peer := by
  simp [Net.inbox, Net.read, Function.update_of_ne (peer_ne s)]

@[simp] lemma inbox_setWorld_self (t : World) : (n.setWorld s t).inbox s = n.inbox s := by
  simp [Net.inbox, Net.setWorld, Function.update_of_ne (peer_ne s)]

/-- What a side writes comes after what is in flight. -/
lemma inbox_setWorld_peer {t : World} {new : List Message}
    (hn : n.delivered s.peer ≤ (n.world s).sent.length)
    (h : t.sent = (n.world s).sent ++ new) :
    (n.setWorld s t).inbox s.peer = n.inbox s.peer ++ new := by
  simp [Net.inbox, Net.setWorld, h, List.drop_append_of_le_length hn]

/-- A side reads `taken`, changes its state to `t` and writes `new`. -/
structure Turn (n n' : Net) (s : Side) (t : World) (taken new : List Message) : Prop where
  world : n'.world = Function.update n.world s t
  inbox : n.inbox s = taken ++ n'.inbox s
  outbox : n'.inbox s.peer = n.inbox s.peer ++ new
  delivered : ∀ s, n'.delivered s ≤ (n'.world s.peer).sent.length

/-- **A turn keeps the invariant** if it answers each request of the peer that it takes, and the
pings that begin to wait are those it asks about, less those that were answered. -/
lemma Turn.good {n' : Net} {t : World} {taken new : List Message} (h : Turn n n' s t taken new)
    (hn : Good n) (ht : Pinging s t) (hnew : ∀ m ∈ new, Flies s.peer m)
    (hown : ∀ i, i % 2 = s.requestIdStart →
      (if ((n.world s).requests.get? i).isSome then 1 else 0) + new.countP (Crosses i) =
        (if (t.requests.get? i).isSome then 1 else 0) + taken.countP (Crosses i))
    (hpeer : ∀ i, i % 2 = s.peer.requestIdStart →
      new.countP (Crosses i) = taken.countP (Crosses i)) : Good n' := by
  have hworld : n'.world s = t := by rw [h.world, Function.update_self]
  have hother : n'.world s.peer = n.world s.peer := by
    rw [h.world, Function.update_of_ne (peer_ne s)]
  have hcross : ∀ i, n'.crossing i + taken.countP (Crosses i) =
      n.crossing i + new.countP (Crosses i) := by
    intro i
    rw [crossing_eq s, crossing_eq s, h.inbox, h.outbox, List.countP_append, List.countP_append]
    omega
  refine ⟨fun s' => ?_, h.delivered, fun s' m hm => ?_, fun s' i hi => ?_⟩
  · rcases eq_or_eq_peer s s' with rfl | rfl
    · rwa [hworld]
    · rw [hother]; exact hn.pinging _
  · rcases eq_or_eq_peer s s' with rfl | rfl
    · exact hn.flies _ m (h.inbox ▸ List.mem_append_right _ hm)
    · rcases List.mem_append.mp (h.outbox ▸ hm) with hm | hm
      · exact hn.flies _ m hm
      · exact hnew m hm
  · have hc := hcross i
    have hold := hn.crossing s' i hi
    rcases eq_or_eq_peer s s' with rfl | rfl
    · have := hown i hi
      rw [hworld]
      omega
    · have := hpeer i hi
      rw [hother]
      omega

/-- A side that starts a request only writes. -/
lemma Good.turn_start {t : World} {new : List Message} (hn : Good n)
    (hsent : t.sent = (n.world s).sent ++ new) : Turn n (n.setWorld s t) s t [] new where
  world := rfl
  inbox := by simp
  outbox := inbox_setWorld_peer (by simpa using hn.delivered s.peer) hsent
  delivered s' := by
    rcases eq_or_eq_peer s s' with rfl | rfl
    · simpa [Net.setWorld, Function.update_of_ne (peer_ne s')] using hn.delivered s'
    · have := hn.delivered s.peer
      simp only [peer_peer, Net.setWorld, Function.update_self, hsent, List.length_append] at *
      omega

/-- A side that reads a message may write an answer. -/
lemma Good.turn_deliver {t : World} {m : Message} {rest : List Message} (hn : Good n)
    (new : List Message) (hin : n.inbox s = m :: rest) (hsent : t.sent = (n.world s).sent ++ new) :
    Turn n ((n.setWorld s t).read s) s t [m] new where
  world := rfl
  inbox := by simp [hin]
  outbox := by
    rw [inbox_read_peer]
    exact inbox_setWorld_peer (by simpa using hn.delivered s.peer) hsent
  delivered s' := by
    have hlt : n.delivered s < (n.world s.peer).sent.length := by
      by_contra hge
      rw [Net.inbox, List.drop_of_length_le (not_lt.mp hge)] at hin
      cases hin
    rcases eq_or_eq_peer s s' with rfl | rfl
    · simpa [Net.setWorld, Net.read, Function.update_of_ne (peer_ne s')] using hlt
    · have := hn.delivered s.peer
      simp only [peer_peer, Net.setWorld, Net.read, Function.update_self, hsent,
        List.length_append, Function.update_of_ne (peer_ne s)] at *
      omega

/-! ### Every step -/

lemma get?_requestCounter (hw : Registry w) : w.requests.get? w.requestCounter = none := by
  cases h : w.requests.get? w.requestCounter with
  | none => rfl
  | some r =>
    have := (hw.ids r _ (hw.entry _ r h).1).2.1
    omega

lemma Pinging.requestCounter (hw : Pinging s w) : w.requestCounter % 2 = s.requestIdStart := by
  have := hw.counter.2
  rw [hw.requestIdStart] at this
  cases s <;> simpa [Side.requestIdStart] using this

/-- A request of the peer is not one of the side's own. -/
lemma Pinging.get?_peer (hw : Pinging s w) {i : ℤ} (h : i % 2 = s.peer.requestIdStart) :
    w.requests.get? i = none := by
  cases hr : w.requests.get? i with
  | none => rfl
  | some r => exact absurd h (parity_ne (hw.parity hr))

/-- A side that starts a request keeps the invariant by what it writes. -/
lemma Good.start_of {r : ℕ} {t : World} {new : List Message} (hn : Good n)
    (hrun : (start r).run (n.world s) = .ok ⟨⟩ t) (hsent : t.sent = (n.world s).sent ++ new)
    (ht : Pinging s t) (hcounter : t.requestCounter = (n.world s).requestCounter + 2)
    (hnew : ∀ m ∈ new, Flies s.peer m)
    (hown : ∀ i, i % 2 = s.requestIdStart →
      (if ((n.world s).requests.get? i).isSome then 1 else 0) + new.countP (Crosses i) =
        if (t.requests.get? i).isSome then 1 else 0)
    (hpeer : ∀ i, i % 2 = s.peer.requestIdStart → new.countP (Crosses i) = 0) :
    Good (n.step (.start s r)) ∧ n.raises (.start s r) = none ∧
      ((n.step (.start s r)).world s).requestCounter = (n.world s).requestCounter + 2 := by
  have hstep : n.step (.start s r) = n.setWorld s t :=
    congrArg (n.setWorld s) (after_of_ok hrun)
  rw [hstep, setWorld_self]
  exact ⟨(hn.turn_start hsent).good hn ht hnew hown hpeer, raised_of_ok hrun, hcounter⟩

lemma Good.start_ping (hn : Good n) (he : Admits n (.start s r))
    (hkind : ((n.world s).objs r).kind = .ping) (hi : int32 (n.world s).requestCounter = true) :
    Good (n.step (.start s r)) ∧ n.raises (.start s r) = none ∧
      ((n.step (.start s r)).world s).requestCounter = (n.world s).requestCounter + 2 := by
  obtain ⟨hfresh, hsrc, harg, -⟩ := he
  have hw := hn.pinging s
  have hcount := hw.requestCounter
  have hnone := get?_requestCounter hw.toRegistry
  refine hn.start_of (Peers.start_ping hw hfresh.id hsrc harg hkind hi) (begin_sent _ r _)
    (hw.begin hfresh.id hkind _) (begin_requestCounter _ r _) (fun m hm => ?_) (fun i hi => ?_)
    fun i hi => ?_
  · obtain rfl := List.mem_singleton.mp hm
    exact .ping _ (by rwa [peer_peer])
  · rw [begin_requests, Dict.get?_set]
    by_cases hic : i = (n.world s).requestCounter
    · subst hic
      simp [hnone, Crosses]
    · simp [hic, Crosses, Ne.symm hic]
  · have hne : (n.world s).requestCounter ≠ i := by
      rintro rfl
      exact parity_ne hcount hi
    simp [Crosses, hne]

lemma Good.start_noop (hn : Good n) (he : Admits n (.start s r))
    (hkind : ((n.world s).objs r).kind = .noop) (hi : int32 (n.world s).requestCounter = true) :
    Good (n.step (.start s r)) ∧ n.raises (.start s r) = none ∧
      ((n.step (.start s r)).world s).requestCounter = (n.world s).requestCounter + 2 := by
  obtain ⟨hfresh, hsrc, harg, -⟩ := he
  have hw := hn.pinging s
  have hnone := get?_requestCounter hw.toRegistry
  have hcount := hw.requestCounter
  have hsent : (((n.world s).begin r { type := .noop }).finish r (n.world s).requestCounter
      .callback).sent = (n.world s).sent ++ [_] := begin_sent (n.world s) r { type := .noop }
  refine hn.start_of (Peers.start_noop hw hfresh.id hsrc harg hkind hi) hsent
    (hw.begin_finish hfresh.id _) (begin_requestCounter _ r _) (fun m hm => ?_) (fun i hi => ?_)
    fun i hi => ?_
  · obtain rfl := List.mem_singleton.mp hm
    exact .noop _ (by rwa [peer_peer])
  · rw [finish_requests, Dict.get?_erase, begin_requests, Dict.get?_set]
    by_cases hic : i = (n.world s).requestCounter
    · subst hic
      simp [hnone, Crosses]
    · simp [hic, Crosses]
  · simp [Crosses]

lemma step_deliver_nil (hin : n.inbox s = []) : n.step (.deliver s) = n := by
  simp [Net.step, hin]

lemma step_deliver_cons {m : Message} {rest : List Message} (hin : n.inbox s = m :: rest) :
    n.step (.deliver s) = (n.setWorld s (after (processMessage m none) (n.world s))).read s := by
  simp only [Net.step, hin]
  rfl

lemma raises_deliver_nil (hin : n.inbox s = []) : n.raises (.deliver s) = none := by
  simp [Net.raises, hin]

lemma raises_deliver_cons {m : Message} {rest : List Message} (hin : n.inbox s = m :: rest) :
    n.raises (.deliver s) = raised (processMessage m none) (n.world s) := by
  simp [Net.raises, hin]

/-- A side that processes a message keeps the invariant by what it takes and writes. -/
lemma Good.deliver_of {m : Message} {rest : List Message} {t : World} (hn : Good n)
    (new : List Message) (hin : n.inbox s = m :: rest)
    (hrun : (processMessage m none).run (n.world s) = .ok ⟨⟩ t)
    (hsent : t.sent = (n.world s).sent ++ new) (ht : Pinging s t)
    (hcounter : t.requestCounter = (n.world s).requestCounter)
    (hnew : ∀ m ∈ new, Flies s.peer m)
    (hown : ∀ j, j % 2 = s.requestIdStart →
      (if ((n.world s).requests.get? j).isSome then 1 else 0) + new.countP (Crosses j) =
        (if (t.requests.get? j).isSome then 1 else 0) + [m].countP (Crosses j))
    (hpeer : ∀ j, j % 2 = s.peer.requestIdStart →
      new.countP (Crosses j) = [m].countP (Crosses j)) :
    Good (n.step (.deliver s)) ∧ n.raises (.deliver s) = none ∧
      ((n.step (.deliver s)).world s).requestCounter = (n.world s).requestCounter := by
  rw [step_deliver_cons hin, raises_deliver_cons hin, after_of_ok hrun, read_world, setWorld_self]
  exact ⟨(hn.turn_deliver new hin hsent).good hn ht hnew hown hpeer, raised_of_ok hrun, hcounter⟩

/-- A `PONG` reaches the ping that waits for it. -/
lemma Good.deliver_pong {i : ℤ} {rest : List Message} (hn : Good n)
    (hi : i % 2 = s.requestIdStart) (hin : n.inbox s = { id := i, type := .pong } :: rest) :
    Good (n.step (.deliver s)) ∧ n.raises (.deliver s) = none ∧
      ((n.step (.deliver s)).world s).requestCounter = (n.world s).requestCounter := by
  have hw := hn.pinging s
  have hwaits : ((n.world s).requests.get? i).isSome := by
    by_contra hnone
    have hzero := hn.crossing s i hi
    rw [if_neg hnone, crossing_eq s, hin] at hzero
    simp [Crosses] at hzero
  obtain ⟨r, hr⟩ := Option.isSome_iff_exists.mp hwaits
  have hledger := ledger_setKind (n.world s) r fun _ => .ping
  have hpinging := Pinging.finish (s := s) (hw.toRegistry.of_ledger hledger) hr
    hw.requestIdStart
    (fun j r' hr' hne => by rw [setObj_objs_of_ne hne]; exact hw.pings j r' hr')
    fun r' hne hr' => by
      rw [setObj_objs_of_ne hne] at hr' ⊢
      exact hw.done r' hr'
  refine hn.deliver_of [] hin (processMessage_pong hw hr) (by rw [List.append_nil]; rfl)
    hpinging rfl (by simp) (fun j hj => ?_) fun j hj => ?_
  · rw [finish_requests, Dict.get?_erase]
    by_cases hji : j = i
    · subst hji
      simp [hr, Crosses]
    · have hne : i ≠ j := Ne.symm hji
      simp [hji, hne, Crosses, World.setObj]
  · have hne : i ≠ j := by
      rintro rfl
      exact parity_ne hi hj
    simp [Crosses, hne]

/-- A `PING` is answered. -/
lemma Good.deliver_ping {i : ℤ} {rest : List Message} (hn : Good n)
    (hi : i % 2 = s.peer.requestIdStart) (hin : n.inbox s = { id := i, type := .ping } :: rest) :
    Good (n.step (.deliver s)) ∧ n.raises (.deliver s) = none ∧
      ((n.step (.deliver s)).world s).requestCounter = (n.world s).requestCounter := by
  have hw := hn.pinging s
  have hslows := slows_sendMessage { id := i, type := .pong } (n.world s)
  have hcounter := congrArg World.requestCounter hslows.core
  refine hn.deliver_of _ hin (processMessage_ping (hw.get?_peer hi)) hslows.sent
    (hw.of_core hslows.core) hcounter (fun m hm => ?_) (fun j hj => ?_) fun j hj => ?_
  · obtain rfl := List.mem_singleton.mp hm
    exact .pong i hi
  · rw [requests_of_ledger (ledger_of_core hslows.core)]
    simp [Crosses]
  · simp [Crosses]

/-- **A message is delivered** to the ping that waits for it, or answered, or ignored. -/
lemma Good.deliver (hn : Good n) (s : Side) :
    Good (n.step (.deliver s)) ∧ n.raises (.deliver s) = none ∧
      ((n.step (.deliver s)).world s).requestCounter = (n.world s).requestCounter := by
  cases hin : n.inbox s with
  | nil =>
    rw [step_deliver_nil hin, raises_deliver_nil hin]
    exact ⟨hn, rfl, rfl⟩
  | cons m rest =>
    cases hn.flies s m (by simp [hin]) with
    | pong i hi => exact hn.deliver_pong hi hin
    | ping i hi => exact hn.deliver_ping hi hin
    | noop i hi =>
      have hw := hn.pinging s
      exact hn.deliver_of [] hin (processMessage_noop (hw.get?_peer hi))
        (by rw [List.append_nil]) hw rfl (by simp) (by simp [Crosses]) (by simp [Crosses])

/-! ### Runs -/

/-- The side an event happens at. -/
def Event.side : Event → Side
  | .start s _ => s
  | .deliver s => s

lemma step_world_of_ne {e : Event} (h : s ≠ e.side) : (n.step e).world s = n.world s := by
  cases e with
  | start s' r => exact Function.update_of_ne h ..
  | deliver s' =>
    cases hin : n.inbox s' with
    | nil => rw [step_deliver_nil hin]
    | cons m rest =>
      rw [step_deliver_cons hin]
      exact Function.update_of_ne h ..

/-- **Every step** keeps the invariant, raises nothing and counts what it starts. -/
lemma Good.step (hn : Good n) {e : Event} (he : Admits n e)
    (hi : ∀ s, (n.world s).requestCounter + 2 * starts s [e] ≤ 2 ^ 31) :
    Good (n.step e) ∧ n.raises e = none ∧ ∀ s, ((n.step e).world s).requestCounter =
      (n.world s).requestCounter + 2 * starts s [e] := by
  have hcounter : ∀ k : ℤ, ((n.step e).world e.side).requestCounter =
      (n.world e.side).requestCounter + k →
      (∀ s, 2 * (starts s [e] : ℤ) = if s = e.side then k else 0) →
      ∀ s, ((n.step e).world s).requestCounter =
        (n.world s).requestCounter + 2 * starts s [e] := by
    intro k hk hstarts s
    rw [hstarts]
    split
    · next h => rw [h, hk]
    · next h => rw [step_world_of_ne h, add_zero]
  cases e with
  | start s r =>
    have hint : int32 (n.world s).requestCounter = true := by
      have hpos := (hn.pinging s).counter.1
      have hle := hi s
      rw [(hn.pinging s).requestIdStart] at hpos
      have hstart : 0 ≤ s.requestIdStart := by cases s <;> decide
      simp only [starts, List.countP_cons, List.countP_nil] at hle
      simp only [int32, decide_true, if_true, Bool.and_eq_true, decide_eq_true_eq] at hle ⊢
      omega
    have hstarts : ∀ s', 2 * (starts s' [.start s r] : ℤ) = if s' = s then 2 else 0 := by
      intro s'
      by_cases h : s' = s <;> simp [starts, h, eq_comm]
    rcases he.2.2.2 with hkind | hkind
    · obtain ⟨hgood, hraises, hcount⟩ := hn.start_ping he hkind hint
      exact ⟨hgood, hraises, hcounter 2 hcount hstarts⟩
    · obtain ⟨hgood, hraises, hcount⟩ := hn.start_noop he hkind hint
      exact ⟨hgood, hraises, hcounter 2 hcount hstarts⟩
  | deliver s =>
    obtain ⟨hgood, hraises, hcount⟩ := hn.deliver s
    exact ⟨hgood, hraises, hcounter 0 (hcount.trans (add_zero _).symm)
      fun s' => by simp [starts]⟩

lemma starts_cons (s : Side) (e : Event) (es : List Event) :
    starts s (e :: es) = starts s [e] + starts s es := by
  unfold starts
  rw [← List.countP_append, List.singleton_append]

lemma Good.run {es : List Event} : ∀ {n : Net}, Good n → Runs.Legal Net.step Admits n es →
    (∀ s, (n.world s).requestCounter + 2 * starts s es ≤ 2 ^ 31) →
    Good (Runs.run Net.step n es) ∧ ∀ pre e post, es = pre ++ e :: post →
      (Runs.run Net.step n pre).raises e = none := by
  induction es with
  | nil => exact fun hn _ _ => ⟨hn, fun pre e post h => by simp at h⟩
  | cons e es ih =>
    intro n hn hes hi
    have hle : ∀ s, (n.world s).requestCounter + 2 * starts s [e] + 2 * starts s es ≤ 2 ^ 31 := by
      intro s
      have := hi s
      rw [starts_cons] at this
      omega
    obtain ⟨hgood, hraises, hcounter⟩ := hn.step hes.1 fun s => by
      have := hle s
      omega
    obtain ⟨hrun, hall⟩ := ih hgood hes.2 fun s => by
      rw [hcounter s]
      exact hle s
    refine ⟨hrun, fun pre e' post h => ?_⟩
    cases pre with
    | nil =>
      obtain ⟨rfl, -⟩ := List.cons.inj h
      exact hraises
    | cons e'' pre =>
      obtain ⟨rfl, rfl⟩ := List.cons.inj h
      exact hall pre e' post rfl

/-- The pings of two peers do not get confused. -/
structure Sound (n : Net) : Prop where
  /-- A request of the peer is for the fallback of the handler. -/
  requests : ∀ s, ∀ m ∈ n.inbox s, m.type = .ping ∨ m.type = .noop →
    (n.world s).requests.get? m.id = none
  /-- An answer is for a request that waits. -/
  answers : ∀ s, ∀ m ∈ n.inbox s, m.type = .pong → ∃ r, (n.world s).requests.get? m.id = some r
  /-- A ping that waits is in flight, or its answer is, but not both. -/
  flight : ∀ s r i, ((n.world s).objs r).kind = .ping → ((n.world s).objs r).id = some i →
    ((n.world s).objs r).finished = false → n.crossing i = 1
  /-- When nothing is in flight, every ping has been answered. -/
  quiet : (∀ s, n.inbox s = []) → ∀ s r, ((n.world s).objs r).kind = .ping →
    ((n.world s).objs r).id ≠ none → ((n.world s).objs r).deferred = some .callback
  /-- No deferred was fired twice. -/
  once : ∀ s, (n.world s).faults = []

lemma Good.flight (hn : Good n) {i : ℤ} (hid : ((n.world s).objs r).id = some i)
    (hfin : ((n.world s).objs r).finished = false) : n.crossing i = 1 := by
  have hreg := (hn.pinging s).registered r i hid hfin
  rw [hn.crossing s i ((hn.pinging s).parity hreg), hreg]
  rfl

lemma Good.sound (hn : Good n) : Sound n where
  requests s m hm ht := by
    cases hn.flies s m hm with
    | pong i hi => rcases ht with ht | ht <;> cases ht
    | ping i hi => exact (hn.pinging s).get?_peer hi
    | noop i hi => exact (hn.pinging s).get?_peer hi
  answers s m hm ht := by
    cases hn.flies s m hm with
    | pong i hi =>
      have hcross := hn.crossing s i hi
      have hpos : 0 < (n.inbox s).countP (Crosses i) :=
        List.countP_pos_iff.mpr ⟨_, hm, by simp [Crosses]⟩
      rw [crossing_eq s] at hcross
      by_contra hnone
      have hnot : ((n.world s).requests.get? i).isSome = false := by
        cases hr : (n.world s).requests.get? i with
        | none => rfl
        | some r => exact absurd ⟨r, hr⟩ hnone
      rw [hnot] at hcross
      simp only [Bool.false_eq_true, if_false] at hcross
      omega
    | ping i hi => cases ht
    | noop i hi => cases ht
  flight s r i _ := hn.flight
  quiet hnone s r _ hid := by
    obtain ⟨i, hi⟩ := Option.ne_none_iff_exists'.mp hid
    cases hfin : ((n.world s).objs r).finished with
    | true => exact (hn.pinging s).done r hfin
    | false =>
      have := hn.flight hi hfin
      simp [Net.crossing, hnone] at this
  once s := (hn.pinging s).faults

/-- **Crossing pings do not get confused**, whatever the order of their steps: no step raises, a
`PING` or `NOOP` never reaches a request and a `PONG` always does, a ping that waits is in flight
once, and when nothing is in flight all pings are done. -/
theorem crossing_pings {n₀ : Net} (h₀ : Initial n₀) {es : List Event}
    (hes : Runs.Legal Net.step Admits n₀ es) (hcount : ∀ s, starts s es < 2 ^ 30) :
    Sound (Runs.run Net.step n₀ es) ∧ ∀ pre e post, es = pre ++ e :: post →
      (Runs.run Net.step n₀ pre).raises e = none := by
  have hrun := h₀.good.run hes fun s => by
    have hstart : (n₀.world s).requestCounter ≤ 1 := by
      rw [(h₀.world s).requestCounter, h₀.requestIdStart]
      cases s <;> decide
    have := hcount s
    omega
  exact ⟨hrun.1.sound, hrun.2⟩

/-! ### Two pings -/

/-- Two handlers with ping objects. -/
def pinging : Net where
  world s := { World.init (fun _ => .ping) (fun _ => ⟨fun _ => .ok [], []⟩) with
    env := { requestIdStart := s.requestIdStart }
    requestCounter := s.requestIdStart }
  delivered _ := 0

lemma initial_pinging : Initial pinging where
  world _ := ⟨fun _ => ⟨rfl, rfl, rfl, rfl, rfl, rfl, rfl⟩, rfl, rfl, rfl, rfl, rfl,
    fun _ hc => (nomatch hc), rfl, rfl⟩
  requestIdStart _ := rfl
  delivered _ := rfl

/-- Both sides ping, and everything is delivered. -/
def bothPing : List Event :=
  [.start .server 0, .start .client 0, .deliver .client, .deliver .server, .deliver .client,
    .deliver .server]

/-- The pings cross, and both are done. -/
theorem crossing_pings_both :
    (((Runs.run Net.step pinging bothPing).world .server).objs 0).deferred = some .callback ∧
    (((Runs.run Net.step pinging bothPing).world .client).objs 0).deferred = some .callback := by
  have hlegal : Runs.Legal Net.step Admits pinging bothPing :=
    ⟨⟨(initial_pinging.world .server).objs 0, rfl, rfl, Or.inl rfl⟩,
      ⟨(initial_pinging.world .client).objs 0, rfl, rfl, Or.inl rfl⟩, trivial, trivial, trivial,
      trivial, trivial⟩
  have hsound := (crossing_pings initial_pinging hlegal fun s => by cases s <;> decide).1
  have hdone : ∀ s, (((Runs.run Net.step pinging bothPing).world s).objs 0).deferred =
      some .callback := by
    refine fun s => hsound.quiet (fun s' => ?_) s 0 ?_ ?_
    · cases s' <;> decide +kernel
    · cases s <;> rfl
    · cases s <;> decide +kernel
  exact ⟨hdone .server, hdone .client⟩

end Magicicada.Peers
