import Magicicada.Demux
import Magicicada.Frames
import Magicicada.Parsing
import Magicicada.Rejecting

/-!
A `StorageClient` on its connection: what happens to it when bytes arrive in chunks.

Whatever the bytes are, whatever they are parsed as and whatever is raised, the client gets into
no state that a client which is handed messages does not get into. And where the bytes are those
of frames, and processing the messages in them raises nothing, these are the messages it is
handed, in their order.
-/

namespace Magicicada.Connected

open Errors Bytes Prog Pb Fields Framing Frames Client

/-! ### Chunks at a handler -/

section Handler

variable {σ : Type} {deliver : Bytes → EStateM Exn σ PUnit} {h : Handler σ}
  {s : FrameScan.Scan UInt8} {data : Bytes} {new : List Bytes}

/-- Processing of payloads, one after another. -/
def deliverAll (deliver : Bytes → EStateM Exn σ PUnit) (l : List Bytes) (a : σ) : σ :=
  l.foldl (fun a b => after (deliver b) a) a

lemma deliverAll_lenient (l : List Bytes) (a : σ) :
    deliverAll (lenient deliver) l a = deliverAll deliver l a := by
  unfold deliverAll
  simp only [after_lenient]

lemma lenient_accepted (hr : Reads h s) (hne : data ≠ [])
    (hnew : (scan s data).out = s.out ++ new) (hacc : Accepts deliver h.app new) :
    Accepted deliver h (after (dataReceived (lenient deliver) data) h) := by
  have hreads : Reads (after (dataReceived (lenient deliver) data) h) (scan s data) :=
    dataReceived_reads (fun _ _ => raised_lenient _ _) hr (Or.inl hne)
  exact ⟨new, by rw [hreads.2, hnew, hr.2], hacc⟩

/-- **A chunk moves the handler as it moves the scan**, and what the scan delivers is processed,
where processing it raises nothing. -/
lemma dataReceived_accepts (hr : Reads h s) (hne : data ≠ [])
    (hnew : (scan s data).out = s.out ++ new) (hacc : Accepts deliver h.app new) :
    Reads (after (dataReceived deliver data) h) (scan s data) ∧
      (after (dataReceived deliver data) h).app = deliverAll deliver new h.app := by
  have hreads : Reads (after (dataReceived (lenient deliver) data) h) (scan s data) :=
    dataReceived_reads (fun _ _ => raised_lenient _ _) hr (Or.inl hne)
  have hdelivered : Delivered (lenient deliver) h (after (dataReceived (lenient deliver) data) h) :=
    dataReceived_delivered data h
  obtain ⟨l, hl, happ⟩ := hdelivered
  have hnew' : l = new := by
    rw [hreads.2, hnew, hr.2] at hl
    exact (List.append_cancel_left hl).symm
  rw [dataReceived_congr (lenient_accepted hr hne hnew hacc)]
  subst hnew'
  exact ⟨hreads, happ.trans (deliverAll_lenient l h.app)⟩

lemma finishPart_lost {t : Handler σ} (hrun : (finishPart deliver).run h = .ok ⟨⟩ t) :
    t.lost = h.lost := by
  cases hw : h.waitingFor with
  | size =>
    cases hu : unpackSize h.pendingParts.flatten with
    | none => simp [finishPart, hw, hu] at hrun
    | some sz =>
      by_cases hbig : maxMessageSize < sz
      · simp [finishPart, hw, hu, hbig, loseConnection] at hrun
      · simp [finishPart, hw, hu, hbig] at hrun
        rw [← hrun]
  | message =>
    rw [finishPart_process hw] at hrun
    unfold parseAndProcess at hrun
    rw [run_modify_bind, run_focus] at hrun
    cases hd : (deliver h.pendingParts.flatten).run h.app with
    | ok a t' =>
      simp only [hd] at hrun
      cases hrun
      rfl
    | error e t' => simp [hd] at hrun

/-- The connection is only given up by a call that raises. -/
lemma buildMessage_lost : ∀ (fuel : ℕ) {h t : Handler σ} {data : Bytes},
    (buildMessage deliver fuel data).run h = .ok ⟨⟩ t → t.lost = h.lost
  | 0, _, _, _, hrun => by cases hrun
  | fuel + 1, h, t, data, hrun => by
    by_cases hlt : h.pendingLength < data.length
    · rw [buildMessage_round fuel hlt] at hrun
      cases hfirst : (buildMessage deliver fuel (data.take h.pendingLength)).run h with
      | error e t' =>
        rw [run_bind_error hfirst] at hrun
        cases hrun
      | ok a t' =>
        rw [run_bind_ok hfirst] at hrun
        exact (buildMessage_lost fuel hrun).trans (buildMessage_lost fuel hfirst)
    · have hmore : (buildMessage deliver (fuel + 1) data).run h =
          (moreData deliver data).run h := by
        simp [buildMessage, hlt]
      rw [hmore, moreData_eq] at hrun
      split at hrun
      · have hlost := finishPart_lost hrun
        exact hlost
      · cases hrun
        rfl

/-- Nothing is raised, and the connection is kept, unless a header announces too much. -/
lemma dataReceived_returns (hr : Reads h s) (hne : data ≠ [])
    (hnew : (scan s data).out = s.out ++ new) (hacc : Accepts deliver h.app new)
    (hlive : (scan s data).phase ≠ .dead) :
    raised (dataReceived deliver data) h = none ∧
      (after (dataReceived deliver data) h).lost = h.lost := by
  have haccepted := lenient_accepted hr hne hnew hacc
  unfold Accepted at haccepted
  rw [payloads_dataReceived] at haccepted
  have hok : ∀ b a, raised (lenient deliver b) a = none := fun b a => raised_lenient b a
  obtain ⟨h', hends, hreads⟩ := buildMessage_reads hok (enough data.length) hr (Or.inl hne)
    (by unfold enough; split <;> omega)
  have hbuild := buildMessage_congr (enough data.length) haccepted
  rcases hends with hends | ⟨e, -, -, hdead⟩
  · rw [hends] at hbuild
    have hrun : (dataReceived deliver data).run h = .ok ⟨⟩ h' := by
      unfold dataReceived
      rw [run_tryCatch, hbuild]
    rw [raised_of_ok hrun, after_of_ok hrun]
    exact ⟨rfl, buildMessage_lost _ hbuild⟩
  · exact absurd (represents_dead hreads hdead) hlive

end Handler

/-! ### The client -/

/-- What the parser raises. -/
def decodeError : Exn := .foreign 0

/-- `message.ParseFromString(buf)` and `self.processMessage(message)`. What the parser makes of a
payload is `parse`, which is `none` where it raises, and what the callbacks of the user raise is
`raises`. -/
def receive (parse : Bytes → Option Message) (raises : World → Message → Option Exn)
    (buf : Bytes) : M PUnit :=
  match parse buf with
  | none => throw decodeError
  | some m => do
    let w ← get
    processMessage m (raises w m)

/-- A client with its line mode and its framing. -/
abbrev Connection := Hello.Client World

def Connection.world (c : Connection) : World := c.handler.app

def Connection.setWorld (c : Connection) (w : World) : Connection :=
  { c with handler := { c.handler with app := w } }

inductive Event
  /-- `dataReceived(data)`. -/
  | data (data : Bytes)
  /-- What else happens to the client. -/
  | other (e : Client.Event)

/-- `ThrottlingStorageClient.dataReceived`, which is that of `StorageClient` when there is no
factory that counts. -/
def dataReceived (parse : Bytes → Option Message) (raises : World → Message → Option Exn)
    (data : Bytes) : EStateM Exn Connection PUnit := do
  modify fun c => c.setWorld (registerOwn .reads data.length c.world)
  Hello.dataReceived (receive parse raises) data

variable {parse : Bytes → Option Message} {raises : World → Message → Option Exn}

def step (parse : Bytes → Option Message) (raises : World → Message → Option Exn)
    (c : Connection) : Event → Connection
  | .data data => after (dataReceived parse raises data) c
  | .other e => c.setWorld (c.world.step e)

/-- The event is not that something was read. -/
def isLocal : Client.Event → Bool
  | .read _ | .message _ _ => false
  | _ => true

/-- Request objects are started once, and `done` and `error` are called while they run. -/
def Admits (c : Connection) : Event → Prop
  | .data _ => True
  | .other e => isLocal e = true ∧ AdmitsAny c.world e

/-! ### A connection is a client that is handed messages -/

/-- The events of a list that are not about reading. -/
def localsOf (es : List Event) : List Client.Event := es.filterMap fun e =>
  match e with
  | .data _ => none
  | .other e => some e

/-- The messages among what happens to a client. -/
def messagesOf (es : List Client.Event) : List Message := es.filterMap fun e =>
  match e with
  | .message m _ => some m
  | _ => none

/-- A client gets from one state to another by local events, and by messages that stand in the
payloads. -/
structure Handed (parse : Bytes → Option Message) (w t : World) (locals : List Client.Event)
    (payloads : List Bytes) (es : List Client.Event) : Prop where
  legal : Runs.Legal World.step AdmitsAny w es
  run : Runs.run World.step w es = t
  locals : es.filter isLocal = locals
  messages : messagesOf es = payloads.filterMap parse

lemma Handed.nil (w : World) : Handed parse w w [] [] [] := ⟨trivial, rfl, rfl, rfl⟩

lemma Handed.append {w t u : World} {ls ls' es es' : List Client.Event} {ps ps' : List Bytes}
    (h : Handed parse w t ls ps es) (h' : Handed parse t u ls' ps' es') :
    Handed parse w u (ls ++ ls') (ps ++ ps') (es ++ es') where
  legal := Runs.legal_append.mpr ⟨h.legal, h.run.symm ▸ h'.legal⟩
  run := by rw [Runs.run_append, h.run, h'.run]
  locals := by rw [List.filter_append, h.locals, h'.locals]
  messages := by
    have hm := h.messages
    have hm' := h'.messages
    unfold messagesOf at *
    rw [List.filterMap_append, List.filterMap_append, hm, hm']

variable (parse raises) in
/-- One payload is one message, or none. -/
lemma handed_receive (b : Bytes) (w : World) :
    ∃ es, Handed parse w (after (receive parse raises b) w) [] [b] es := by
  cases hb : parse b with
  | none =>
    have hafter : after (receive parse raises b) w = w := by
      unfold receive
      rw [hb]
      rfl
    exact ⟨[], trivial, hafter.symm, rfl, by simp [messagesOf, hb]⟩
  | some m =>
    have hafter : after (receive parse raises b) w = w.step (.message m (raises w m)) := by
      unfold receive
      rw [hb]
      rfl
    exact ⟨[.message m (raises w m)], ⟨trivial, trivial⟩, hafter.symm, rfl,
      by simp [messagesOf, hb]⟩

variable (parse raises) in
lemma handed_deliverAll (l : List Bytes) : ∀ w : World,
    ∃ es, Handed parse w (deliverAll (receive parse raises) l w) [] l es := by
  induction l with
  | nil => exact fun w => ⟨[], .nil w⟩
  | cons b l ih =>
    intro w
    obtain ⟨es, hes⟩ := handed_receive parse raises b w
    obtain ⟨es', hes'⟩ := ih (after (receive parse raises b) w)
    exact ⟨es ++ es', hes.append hes'⟩

lemma delivered_hello {σ : Type} (deliver : Bytes → EStateM Exn σ PUnit) (data : Bytes)
    (c : Hello.Client σ) :
    Delivered deliver c.handler (after (Hello.dataReceived deliver data) c).handler := by
  have hrest : ∀ (d : Bytes) (c : Hello.Client σ), Delivered deliver c.handler
      (after (Hello.handlerDataReceived deliver d) c).handler := fun d c => by
    rw [Hello.after_handlerDataReceived]
    exact dataReceived_delivered d c.handler
  unfold Hello.dataReceived
  rw [after_get_bind]
  split
  · split
    · exact refl_of _ _
    · rw [after_modify_bind]
      exact hrest _ _
  · exact hrest _ _

/-- **Every step of a connection is a run of the client** that is handed messages. -/
lemma handed_step {c : Connection} {e : Event} (he : Admits c e) :
    ∃ l es, (step parse raises c e).handler.payloads = c.handler.payloads ++ l ∧
      Handed parse c.world (step parse raises c e).world (localsOf [e]) l es := by
  cases e with
  | other e =>
    refine ⟨[], [e], (List.append_nil _).symm, ⟨he.2, trivial⟩, rfl, ?_, ?_⟩
    · simp [localsOf, he.1]
    · have hnone : ∀ m r, e ≠ .message m r := by
        rintro m r rfl
        exact absurd he.1 (by simp [isLocal])
      cases e <;> first | rfl | exact absurd rfl (hnone _ _)
  | data data =>
    set c' := c.setWorld (registerOwn .reads data.length c.world) with hc'
    have hstep : step parse raises c (.data data) =
        after (Hello.dataReceived (receive parse raises) data) c' := rfl
    obtain ⟨l, hl, happ⟩ := delivered_hello (receive parse raises) data c'
    obtain ⟨es, hes⟩ := handed_deliverAll parse raises l c'.world
    have hread : Handed parse c.world c'.world [] [] [.read data.length] :=
      ⟨⟨trivial, trivial⟩, rfl, rfl, rfl⟩
    have hworld : deliverAll (receive parse raises) l c'.world =
        (step parse raises c (.data data)).world := by
      rw [hstep]
      exact happ.symm
    rw [hworld] at hes
    exact ⟨l, _, hstep ▸ hl, hread.append hes⟩

/-- **Whatever bytes arrive**, in chunks of any size between anything else that happens, whatever
they are parsed as and whatever is raised: the client gets where it gets when it is handed the
messages that are parsed from the payloads the framing found, in order, between the same other
events; so its registry is in order. -/
theorem connection_refines {c : Connection} {es : List Event}
    (hes : Runs.Legal (step parse raises) Admits c es) :
    ∃ l es', (Runs.run (step parse raises) c es).handler.payloads = c.handler.payloads ++ l ∧
      Handed parse c.world (Runs.run (step parse raises) c es).world (localsOf es) l es' ∧
      (Registry c.world → Registry (Runs.run (step parse raises) c es).world) := by
  induction es generalizing c with
  | nil => exact ⟨[], [], (List.append_nil _).symm, .nil _, id⟩
  | cons e es ih =>
    obtain ⟨l, es₁, hl, hes₁⟩ := handed_step hes.1
    obtain ⟨l', es₂, hl', hes₂, hreg⟩ := ih hes.2
    have hlocals : localsOf ([e] ++ es) = localsOf [e] ++ localsOf es := List.filterMap_append
    refine ⟨l ++ l', es₁ ++ es₂, ?_, ?_, fun hw => hreg ?_⟩
    · rw [Runs.run_cons, hl', hl, List.append_assoc]
    · rw [← List.singleton_append, hlocals]
      exact hes₁.append hes₂
    · rw [← hes₁.run]
      exact hes₁.legal.invariant (fun _ _ hs he => hs.stepAny he) hw

/-- No callback of the user raises. -/
def noRaises : World → Message → Option Exn := fun _ _ => none

/-- Half a frame, a cancellation, and the other half. -/
def halves : List Event := [.data [0, 0, 0, 4, 8, 3], .other (.cancel 0), .data [16, 47]]

theorem connection_refines_halves : ∃ l es',
    (Runs.run (step parseFromString noRaises) ⟨false, fresh listening⟩ halves).handler.payloads =
      [] ++ l ∧
    Handed parseFromString listening
      (Runs.run (step parseFromString noRaises) ⟨false, fresh listening⟩ halves).world
      (localsOf halves) l es' ∧
    (Registry listening → Registry
      (Runs.run (step parseFromString noRaises) ⟨false, fresh listening⟩ halves).world) := by
  have hlegal : Runs.Legal (step parseFromString noRaises) Admits ⟨false, fresh listening⟩
      halves := ⟨trivial, ⟨rfl, trivial⟩, trivial, trivial⟩
  exact connection_refines hlegal

/-! ### Response streams in chunks -/

/-- The handler is between two frames. -/
structure Between (h : Handler World) : Prop where
  waitingFor : h.waitingFor = .size
  pendingLength : h.pendingLength = sizeFmtSize
  pendingParts : h.pendingParts.flatten = []

/-- Chunks handed to a client one after another. -/
def feed (c : Connection) (chunks : List Bytes) : Connection :=
  Runs.run (step parseFromString noRaises) c (chunks.map Event.data)

lemma receive_serialize {m : Message} (hm : Message.Proper m) :
    receive parseFromString noRaises (serialize m) = processMessage m none := by
  unfold receive
  rw [parse_serialize hm.inRange]
  rfl

lemma after_receive {m : Message} (hm : Message.Proper m) (w : World) :
    after (receive parseFromString noRaises (serialize m)) w = w.step (.message m none) := by
  rw [receive_serialize hm]
  rfl

lemma deliverAll_serialize {l : List Message} (hl : ∀ m ∈ l, Message.Proper m) (w : World) :
    deliverAll (receive parseFromString noRaises) (l.map serialize) w =
      Runs.run World.step w (deliveries l) := by
  induction l generalizing w with
  | nil => rfl
  | cons m l ih =>
    rw [List.forall_mem_cons] at hl
    show deliverAll _ (l.map serialize)
      (after (receive parseFromString noRaises (serialize m)) w) = _
    rw [after_receive hl.1, ih hl.2]
    rfl

/-- **Messages that are awaited** are processed without an exception, and so is what is awaited
after them. -/
lemma awaited_append {l l' : List Message} (hl : ∀ m ∈ l, Message.Proper m) :
    ∀ {w : World}, Registry w → Awaited w (l ++ l') →
      Accepts (receive parseFromString noRaises) w (l.map serialize) ∧
      Registry (Runs.run World.step w (deliveries l)) ∧
      Awaited (Runs.run World.step w (deliveries l)) l' ∧
      ∀ u, Client.Delivered (Runs.run World.step w (deliveries l)) u l' →
        Client.Delivered w u (l ++ l') := by
  induction l with
  | nil => exact fun hw h => ⟨trivial, hw, h, fun _ => id⟩
  | cons m l ih =>
    intro w hw h
    rw [List.forall_mem_cons] at hl
    obtain ⟨r, hr⟩ := h.registered m (List.mem_cons_self ..)
    have hreg : Registered w r m.id := ⟨hw, hr⟩
    have ht := received_of_registered hreg h.valid (h.first hr).1
    have hstep := hw.step (e := .message m none) h.valid
    obtain ⟨hacc, hrun, haw, hdel⟩ := ih hl.2 hstep (h.tail hreg ht)
    refine ⟨⟨?_, ?_⟩, hrun, haw, fun u hu => (hdel u hu).cons hreg h ht⟩
    · obtain ⟨t, hok, -⟩ := hreg.dispatch none
      rw [receive_serialize hl.1, processMessage_valid h.valid, raised_of_ok hok]
    · rwa [after_receive hl.1]

/-- The requests and the registry are the same. -/
def Same (s t : World) : Prop := t.objs = s.objs ∧ t.requests = s.requests

lemma Same.trans {s t u : World} (h : Same s t) (h' : Same t u) : Same s u :=
  ⟨h'.1.trans h.1, h'.2.trans h.2⟩

lemma same_maybeCallLater (i : Option ℕ) (period : ℚ) (func : Func) (w : World) :
    Same w (maybeCallLater i period func w).2 := by
  unfold maybeCallLater
  split
  · exact ⟨rfl, rfl⟩
  · split
    · split <;> exact ⟨rfl, rfl⟩
    · exact ⟨rfl, rfl⟩

lemma same_throttle (w : World) : Same w (Factory.throttle .reads w) := by
  unfold Factory.throttle
  split <;> exact ⟨rfl, rfl⟩

/-- Counting what is read changes no request. -/
lemma same_registerOwn (n : ℕ) (w : World) : Same w (registerOwn .reads n w) := by
  unfold registerOwn
  split
  · unfold register
    split
    · exact ⟨rfl, rfl⟩
    · split
      · unfold checkBandwidth
        split
        · exact ⟨rfl, rfl⟩
        · split
          · -- what is counted is set before, and the timer's id is set after
            set u := w.setFlow .reads fun f => { f with thisSecond := f.thisSecond + n }
            obtain ⟨hobjs, hrequests⟩ := (same_throttle u).trans (same_maybeCallLater _ _ _ _)
            exact ⟨hobjs, hrequests⟩
          · exact ⟨rfl, rfl⟩
      · exact ⟨rfl, rfl⟩
  · exact ⟨rfl, rfl⟩

lemma Same.awaited {s t : World} (h : Same s t) {l : List Message} (hs : Awaited s l) :
    Awaited t l where
  registered := fun m hm => h.2 ▸ hs.registered m hm
  answered := fun i r hr hne => h.1 ▸ hs.answered i r (h.2 ▸ hr) hne

lemma Same.delivered {s t u : World} (h : Same s t) {l : List Message}
    (ht : Client.Delivered t u l) : Client.Delivered s u l where
  objs := fun i r hr => h.1 ▸ ht.objs i r (h.2 ▸ hr)
  others := fun r hr => h.1 ▸ ht.others r fun i => h.2 ▸ hr i
  requests := fun i => h.2 ▸ ht.requests i

/-! ### Chunks of awaited messages -/

lemma dataReceived_binary {c : Connection} (hc : c.lineMode = false) (data : Bytes) :
    (dataReceived parseFromString noRaises data).run c =
      (Hello.handlerDataReceived (receive parseFromString noRaises) data).run
        (c.setWorld (registerOwn .reads data.length c.world)) := by
  unfold dataReceived Hello.dataReceived
  rw [run_modify_bind, run_get_bind]
  simp [Connection.setWorld, hc]

lemma raised_handler (data : Bytes) (c : Connection) :
    raised (Hello.handlerDataReceived (receive parseFromString noRaises) data) c =
      raised (Framing.dataReceived (receive parseFromString noRaises) data) c.handler := by
  unfold raised Hello.handlerDataReceived
  rw [run_focus]
  cases (Framing.dataReceived (receive parseFromString noRaises) data).run c.handler <;> rfl

/-- What was read does not depend on what the client makes of it. -/
lemma reads_app {h : Handler World} {s : FrameScan.Scan UInt8} (hr : Reads h s) (w : World) :
    Reads { h with app := w } s := by
  obtain ⟨hrep, hpay⟩ := hr
  refine ⟨?_, hpay⟩
  generalize s.phase = ph at hrep
  cases hrep with
  | header buf w' p l pos => exact .header buf w' p l pos
  | body n buf w' p l pos => exact .body n buf w' p l pos
  | dead w' p l => exact .dead w' p l

/-- A client that has read what the scan has read, and what it is still to be handed. -/
structure Awaits (c : Connection) (s : FrameScan.Scan UInt8) (l : List Message) : Prop where
  binary : c.lineMode = false
  reads : Reads c.handler s
  registry : Registry c.world
  awaited : Awaited c.world l
  proper : ∀ m ∈ l, Message.Proper m

/-- What a chunk with the frames of some awaited messages does, when others are to follow. -/
structure Took (c : Connection) (data : Bytes) (l l' : List Message) : Prop where
  raised : raised (dataReceived parseFromString noRaises data) c = none
  lost : (step parseFromString noRaises c (.data data)).handler.lost = c.handler.lost
  delivered : ∀ u, Client.Delivered (step parseFromString noRaises c (.data data)).world u l' →
    Client.Delivered c.world u (l ++ l')

/-- **A chunk hands on the messages it completes.** -/
lemma Awaits.chunk {c : Connection} {s : FrameScan.Scan UInt8} {l l' : List Message} {data : Bytes}
    (h : Awaits c s (l ++ l')) (hne : data ≠ [])
    (hnew : (scan s data).out = s.out ++ l.map serialize) (hlive : (scan s data).phase ≠ .dead) :
    Awaits (step parseFromString noRaises c (.data data)) (scan s data) l' ∧ Took c data l l' := by
  set w := registerOwn .reads data.length c.world with hw
  have hsame : Same c.world w := same_registerOwn _ _
  have hreg : Registry w := h.registry.step (e := .read data.length) trivial
  have hproper := List.forall_mem_append.mp h.proper
  obtain ⟨hacc, hreg', haw, hdel⟩ := awaited_append hproper.1 hreg (hsame.awaited h.awaited)
  -- the handler of the client once the bytes are counted
  have hreads : Reads (c.setWorld w).handler s := reads_app h.reads w
  obtain ⟨hreads', happ⟩ := dataReceived_accepts hreads hne hnew hacc
  obtain ⟨hraised, hlost⟩ := dataReceived_returns hreads hne hnew hacc hlive
  have hstep : step parseFromString noRaises c (.data data) = { c.setWorld w with
      handler := after (Framing.dataReceived (receive parseFromString noRaises) data)
        (c.setWorld w).handler } := by
    rw [← Hello.after_handlerDataReceived]
    exact after_congr (dataReceived_binary h.binary data)
  have hworld : (step parseFromString noRaises c (.data data)).world =
      Runs.run World.step w (deliveries l) := by
    rw [hstep]
    exact happ.trans (deliverAll_serialize hproper.1 w)
  refine ⟨⟨?_, ?_, ?_, ?_, hproper.2⟩, ⟨?_, ?_, fun u hu => ?_⟩⟩
  · rw [hstep]
    exact h.binary
  · rw [hstep]
    exact hreads'
  · rwa [hworld]
  · rwa [hworld]
  · rw [raised_congr (dataReceived_binary h.binary data), raised_handler]
    exact hraised
  · rw [hstep]
    exact hlost
  · rw [hworld] at hu
    exact hsame.delivered (hdel u hu)

/-- The messages of a stream, in chunks. -/
structure Fed (c : Connection) (chunks : List Bytes) (s : FrameScan.Scan UInt8)
    (l : List Message) : Prop where
  binary : (feed c chunks).lineMode = false
  reads : Reads (feed c chunks).handler s
  lost : (feed c chunks).handler.lost = c.handler.lost
  raised : ∀ pre data post, chunks = pre ++ data :: post →
    raised (dataReceived parseFromString noRaises data) (feed c pre) = none
  delivered : Client.Delivered c.world (feed c chunks).world l

lemma alive_of_append {s : FrameScan.Scan UInt8} {u v : Bytes}
    (h : (scan s (u ++ v)).phase ≠ .dead) : (scan s u).phase ≠ .dead := by
  intro hd
  rw [scan_append, scan_dead hd] at h
  exact h hd

/-- What is scanned adds to what was. -/
lemma scan_out (p : FrameScan.Phase UInt8) (o : List Bytes) (v : Bytes) :
    scan ⟨p, o⟩ v = ⟨(scan ⟨p, []⟩ v).phase, o ++ (scan ⟨p, []⟩ v).out⟩ := by
  have hout : scan ⟨p, o ++ []⟩ v = ⟨(scan ⟨p, []⟩ v).phase, o ++ (scan ⟨p, []⟩ v).out⟩ :=
    FrameScan.run_out p o [] v
  rwa [List.append_nil] at hout

lemma scan_adds (s : FrameScan.Scan UInt8) (v : Bytes) : ∃ new, (scan s v).out = s.out ++ new :=
  ⟨_, congrArg FrameScan.Scan.out (scan_out s.phase s.out v)⟩

/-- **A stream of awaited messages in chunks of any size** changes each request as its own stream
does. -/
lemma Awaits.feed {chunks : List Bytes} : ∀ {c : Connection} {s : FrameScan.Scan UInt8}
    {l : List Message}, Awaits c s l → (∀ d ∈ chunks, d ≠ []) →
    (scan s chunks.flatten).out = s.out ++ l.map serialize →
    (scan s chunks.flatten).phase ≠ .dead → Fed c chunks (scan s chunks.flatten) l := by
  induction chunks with
  | nil =>
    intro c s l h _ hout _
    have hnone : s.out = s.out ++ l.map serialize := hout
    obtain rfl : l = [] := by simpa using hnone
    exact ⟨h.binary, h.reads, rfl, by simp, run_deliveries h.registry h.awaited⟩
  | cons data chunks ih =>
    intro c s l h hne hout hlive
    rw [List.forall_mem_cons] at hne
    rw [List.flatten_cons] at hout hlive ⊢
    -- what this chunk completes, and what the others do
    obtain ⟨new, hnew⟩ := scan_adds s data
    obtain ⟨new', hnew'⟩ := scan_adds (scan s data) chunks.flatten
    rw [scan_append, hnew', hnew, List.append_assoc] at hout
    obtain ⟨l₁, l₂, rfl, rfl, rfl⟩ := List.map_eq_append_iff.mp (List.append_cancel_left hout).symm
    obtain ⟨hnext, htook⟩ := h.chunk hne.1 hnew (alive_of_append hlive)
    rw [scan_append] at hlive ⊢
    have hfed := ih hnext hne.2 hnew' hlive
    refine ⟨hfed.binary, hfed.reads, hfed.lost.trans htook.lost, ?_,
      htook.delivered _ hfed.delivered⟩
    rintro (_ | ⟨d, pre⟩) data' post heq
    · obtain ⟨rfl, -⟩ := List.cons_eq_cons.mp heq
      exact htook.raised
    · obtain ⟨rfl, rfl⟩ := List.cons_eq_cons.mp heq
      exact hfed.raised pre data' post rfl

/-- Streams of registered requests are awaited. -/
lemma awaited_of_streams {w : World} {S : Finset ℤ} {items : ℤ → List Message} {last : ℤ → Message}
    (hS : ∀ i ∈ S, ∃ r, w.requests.get? i = some r ∧ (w.objs r).kind.collects ∧
      (w.objs r).Answered (items i) (last i)) {l : List Message} (hl : ∀ m ∈ l, m.id ∈ S)
    (hshuffle : ∀ i ∈ S, streamOf i l = items i ++ [last i]) : Awaited w l where
  registered := fun m hm =>
    let ⟨r, hr, _⟩ := hS m.id (hl m hm)
    ⟨r, hr⟩
  answered := fun i r hr hne => by
    have hi : i ∈ S := by
      by_contra hi
      exact hne (streamOf_eq_nil.mpr fun m hm hmi => hi (hmi ▸ hl m hm))
    obtain ⟨r', hr', hk, hans⟩ := hS i hi
    obtain rfl : r' = r := Option.some.inj (hr'.symm.trans hr)
    exact ⟨hk, items i, last i, hshuffle i hi, hans⟩

/-- **Shuffled response streams on the wire**: whatever the chunks their bytes arrive in, nothing
is raised, the connection is kept, each request ends with its items as they were sent and these
requests alone are taken out. -/
theorem demultiplex_bytes {c : Connection} (hbinary : c.lineMode = false)
    (hbetween : Between c.handler) (hreg : Registry c.world) (S : Finset ℤ)
    (items : ℤ → List Message) (last : ℤ → Message)
    (hS : ∀ i ∈ S, ∃ r, c.world.requests.get? i = some r ∧ (c.world.objs r).kind.collects ∧
      (c.world.objs r).Answered (items i) (last i))
    {l : List Message} (hl : ∀ m ∈ l, m.id ∈ S ∧ Message.Proper m ∧ Sendable m)
    (hshuffle : ∀ i ∈ S, streamOf i l = items i ++ [last i])
    {chunks : List Bytes} (hne : ∀ d ∈ chunks, d ≠ []) (hflat : chunks.flatten = sendMessages l) :
    (∀ pre data post, chunks = pre ++ data :: post →
      raised (dataReceived parseFromString noRaises data) (feed c pre) = none) ∧
    (feed c chunks).handler.lost = c.handler.lost ∧ Between (feed c chunks).handler ∧
    (∀ i ∈ S, ∀ r, c.world.requests.get? i = some r →
      (feed c chunks).world.objs r = (c.world.objs r).answered (items i) (last i)) ∧
    ∀ i, (feed c chunks).world.requests.get? i =
      if i ∈ S then none else c.world.requests.get? i := by
  set s : FrameScan.Scan UInt8 := ⟨.header [], c.handler.payloads⟩ with hs
  have hawaits : Awaits c s l := {
    binary := hbinary
    reads := ⟨.header [] hbetween.waitingFor hbetween.pendingParts
      (by rw [hbetween.pendingLength]; rfl) (by rw [hbetween.pendingLength]; decide), rfl⟩
    registry := hreg
    awaited := awaited_of_streams hS (fun m hm => (hl m hm).1) hshuffle
    proper := fun m hm => (hl m hm).2.1 }
  have hscan : scan s chunks.flatten = ⟨.header [], c.handler.payloads ++ l.map serialize⟩ := by
    have hinit := scan_sendMessages fun m hm => (hl m hm).2.2
    rw [← hflat] at hinit
    have hempty : scan ⟨.header [], []⟩ chunks.flatten = ⟨.header [], l.map serialize⟩ := hinit
    rw [hs, scan_out, hempty]
  have hfed := hawaits.feed hne (by rw [hscan]) (by rw [hscan]; simp)
  have hdel := hfed.delivered
  refine ⟨hfed.raised, hfed.lost, ?_, fun i hi r hr => ?_, fun i => ?_⟩
  · have hreads := hfed.reads
    rw [hscan] at hreads
    obtain ⟨hrep, -⟩ := hreads
    cases hrep with
    | header _ w p hlen pos => exact ⟨w, by simpa using hlen, p⟩
  · obtain ⟨r', hr', hk, hans⟩ := hS i hi
    obtain rfl : r' = r := Option.some.inj (hr'.symm.trans hr)
    rw [hdel.objs i _ hr, hshuffle i hi, Request.foldl_receive hk hans.wellFormed]
  · rw [hdel.requests]
    by_cases hi : i ∈ S
    · rw [if_neg (by rw [hshuffle i hi]; simp), if_pos hi]
    · have hnil : streamOf i l = [] := streamOf_eq_nil.mpr fun m hm hmi => hi (hmi ▸ (hl m hm).1)
      rw [if_pos hnil, if_neg hi]

/-! ### A download and a listing, in chunks -/

/-- The client that has a download and a listing under way. -/
def downloading : Connection := ⟨false, fresh listening⟩

def volumesEnd : Message := { id := 3, type := .volumesEnd }

lemma serialize_someBytes : serialize someBytes = [8, 1, 16, 21, 122, 3, 10, 1, 0] := by
  simp [serialize, someBytes, Message.listFields, intField, uintField, subField, repField,
    strField, BytesMessage.listFields, bytesField, Wire.Tree.encode, Wire.Scalar.encode, Wire.key,
    Wire.base128_of_lt, Wire.ofInt, Wire.encodeAll, Wire.delimited, MessageType.number]

lemma serialize_volumesEnd : serialize volumesEnd = [8, 3, 16, 47] := by
  simp [serialize, volumesEnd, Message.listFields, intField, uintField, subField, repField,
    strField, Wire.Tree.encode, Wire.Scalar.encode, Wire.key, Wire.base128_of_lt, Wire.ofInt,
    MessageType.number]

lemma proper_someBytes : Message.Proper someBytes where
  inRange := by constructor <;> simp [someBytes, IntOf]
  isInitialized := rfl

lemma proper_volumesEnd : Message.Proper volumesEnd where
  inRange := by constructor <;> simp [volumesEnd, IntOf]
  isInitialized := rfl

lemma proper_bare (t : MessageType) : Message.Proper (bare t) where
  inRange := by constructor <;> simp [bare, IntOf]
  isInitialized := rfl

/-- The frame of the content is cut, and that of the end of the listing begins in its chunk. -/
def slices : List Bytes := [[0, 0, 0, 9, 8, 1, 16], [21, 122, 3, 10, 1, 0, 0, 0],
  [0, 4, 8, 3, 16, 47, 0, 0, 0, 4, 8, 1, 16], [22]]

theorem demultiplex_bytes_two : (feed downloading slices).world.objs 0 =
    (listening.objs 0).answered [someBytes] (bare .eof) := by
  have h := demultiplex_bytes (c := downloading) rfl ⟨rfl, rfl, rfl⟩ reachable_listening.registry
    {1, 3} (fun i => if i = 1 then [someBytes] else [])
    (fun i => if i = 1 then bare .eof else volumesEnd)
    (l := [someBytes, volumesEnd, bare .eof]) ?_ ?_ ?_
    (fun d (hd : d ∈ slices) => by revert d; decide) ?_
  · exact h.2.2.2.1 1 (by decide) 0 rfl
  · intro i hi
    obtain rfl | rfl : i = 1 ∨ i = 3 := by simpa using hi
    · exact ⟨0, rfl, rfl, by decide, ⟨rfl, trivial⟩, rfl⟩
    · exact ⟨1, rfl, rfl, by decide, trivial, rfl⟩
  · simp only [List.forall_mem_cons]
    refine ⟨⟨by decide, proper_someBytes, ?_⟩, ⟨by decide, proper_volumesEnd, ?_⟩,
      ⟨by decide, proper_bare _, sendable_bare _⟩, by simp⟩
    · simp [Sendable, serialize_someBytes, maxMessageSize]
    · simp [Sendable, serialize_volumesEnd, maxMessageSize]
  · intro i hi
    obtain rfl | rfl : i = 1 ∨ i = 3 := by simpa using hi
    · rfl
    · rfl
  · simp [slices, sendMessages_eq, serialize_someBytes, serialize_volumesEnd, serialize_bare]
    rfl

end Magicicada.Connected
