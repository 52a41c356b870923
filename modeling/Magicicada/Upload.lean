import Magicicada.Producing
import Magicicada.Runs

/-!
The content of an upload: whatever resumes, pauses, stops and cancels it, and in whatever order
its pending steps run, what was sent so far is the beginning of the file from where the upload
began.
-/

namespace Magicicada.Client

open Pb Errors Requests Prog

/-! ### Files -/

/-- Where a call of a method leaves the handle. -/
def FileOp.move (content : Bytes) (position : ℕ) : FileOp → ℕ
  | .seek offset => offset
  | .read size => position + min size (content.length - position)

/-- A file with the content and the handle at the position, which only moves by the calls made
from now on: `read(n)` gives the next `min(n, remaining)` bytes. -/
structure Ordinary (f : File) (content : Bytes) (position : ℕ) : Prop where
  seek : ∀ ops offset, ∃ b, f.behave (f.ops ++ ops ++ [.seek offset]) = .ok b
  read : ∀ ops size, f.behave (f.ops ++ ops ++ [.read size]) =
    .ok ((content.drop (ops.foldl (FileOp.move content) position)).take size)

lemma Ordinary.moved {f : File} {content : Bytes} {position : ℕ} (h : Ordinary f content position)
    (ops : List FileOp) : Ordinary { f with ops := f.ops ++ ops } content
      (ops.foldl (FileOp.move content) position) where
  seek ops' offset := by simpa using h.seek (ops ++ ops') offset
  read ops' size := by simpa using h.read (ops ++ ops') size

/-- A step of a producer reads from its offset if it has one, and else from the handle. -/
lemma Ordinary.fetch {f : File} {content : Bytes} {position : ℕ} (h : Ordinary f content position)
    (q : Producer) (size : ℕ) : f.fetch q size =
      .ok ((content.drop (if q.offset ≠ 0 then q.offset else position)).take size) := by
  unfold File.fetch
  by_cases ho : q.offset ≠ 0
  · obtain ⟨b, hb⟩ := h.seek [] q.offset
    have hr := h.read [.seek q.offset] size
    simp only [List.append_nil, List.append_assoc, List.cons_append, List.nil_append,
      List.foldl_cons, List.foldl_nil, FileOp.move] at hb hr
    simp [ho, hb, hr]
  · have hr := h.read [] size
    simp only [List.append_nil, List.foldl_nil] at hr
    simp [ho, hr]

lemma foldl_fetchOps (content : Bytes) (position : ℕ) (q : Producer) (size : ℕ)
    (h : q.offset = 0) : (fetchOps q size).foldl (FileOp.move content) position =
      position + ((content.drop position).take size).length := by
  simp [fetchOps, h, FileOp.move]

/-- A file with some content, opened. -/
def File.opened (content : Bytes) : File where
  behave ops :=
    match ops.getLast? with
    | some (.read size) =>
      .ok ((content.drop (ops.dropLast.foldl (FileOp.move content) 0)).take size)
    | _ => .ok []

lemma ordinary_opened (content : Bytes) : Ordinary (File.opened content) content 0 where
  seek ops offset := ⟨[], by simp [File.opened]⟩
  read ops size := by simp [File.opened]

/-! ### The upload -/

/-- A producer, its request and its file. -/
structure Upload where
  producer : ℕ
  request : ℕ
  id : ℤ
  /-- `request.max_payload_size`. -/
  size : ℕ
  fh : ℕ
  content : Bytes
  offset : ℕ
  /-- Where the handle stands before the first read. -/
  position : ℕ

namespace Upload

/-- Where the upload begins in the file. -/
def origin (u : Upload) : ℕ := if u.offset ≠ 0 then u.offset else u.position

/-- A message of the upload. -/
def bytes (u : Upload) (data : Bytes) : Message := { bytesMessage data with id := u.id }

def eof (u : Upload) : Message := { eofMessage with id := u.id }

/-- The messages of the upload among others. -/
def messages (u : Upload) (l : List Message) : List Message :=
  l.filter fun m => m.id = u.id ∧ (m.type = .bytes ∨ m.type = .eof)

/-- A new producer of a request that was started, with an id that fits its field. -/
structure Begins (u : Upload) (w : World) : Prop where
  producer : w.producers u.producer = { request := u.request, fh := u.fh, offset := u.offset }
  id : (w.objs u.request).id = some u.id
  int32 : int32 u.id = true
  size : (w.objs u.request).kind.maxPayloadSize = u.size
  pos : 0 < u.size
  file : Ordinary (w.files u.fh) u.content u.position

/-- The pieces were sent, and `EOF` if they are all there is. -/
structure Sent (u : Upload) (before : List Message) (w : World) (pieces : List Bytes)
    (last : Bool) : Prop where
  producer : { w.producers u.producer with producing := false } =
    { request := u.request, fh := u.fh, finished := last
      offset := if u.offset ≠ 0 then u.offset + pieces.flatten.length else 0 }
  id : (w.objs u.request).id = some u.id
  int32 : Pb.int32 u.id = true
  size : (w.objs u.request).kind.maxPayloadSize = u.size
  pos : 0 < u.size
  file : ∃ position, Ordinary (w.files u.fh) u.content position ∧
    (u.offset = 0 → position = u.position + pieces.flatten.length)
  sizes : ∀ b ∈ pieces, b ≠ [] ∧ b.length ≤ u.size
  isPrefix : pieces.flatten <+: u.content.drop u.origin
  complete : last = true → pieces.flatten = u.content.drop u.origin
  messages : u.messages w.sent = before ++ pieces.map u.bytes ++ if last then [u.eof] else []

variable {u : Upload} {before : List Message} {s t w : World} {pieces : List Bytes} {last : Bool}

lemma Begins.sent (h : u.Begins w) : u.Sent (u.messages w.sent) w [] false where
  producer := by
    rw [h.producer]
    by_cases ho : u.offset = 0 <;> simp [ho]
  id := h.id
  int32 := h.int32
  size := h.size
  pos := h.pos
  file := ⟨u.position, h.file, fun _ => by simp⟩
  sizes b hb := nomatch hb
  isPrefix := List.nil_prefix
  complete h := nomatch h
  messages := by simp

namespace Sent

/-- What leaves the file, the messages of the upload and the rest of its producer alone. -/
lemma congr (h : u.Sent before s pieces last)
    (hp : { t.producers u.producer with producing := false } =
      { s.producers u.producer with producing := false })
    (hid : (t.objs u.request).id = (s.objs u.request).id)
    (hkind : (t.objs u.request).kind = (s.objs u.request).kind)
    (hfile : t.files u.fh = s.files u.fh) (hsent : u.messages t.sent = u.messages s.sent) :
    u.Sent before t pieces last :=
  { h with
    producer := hp.trans h.producer
    id := hid.trans h.id
    size := by rw [hkind, h.size]
    file := by rw [hfile]; exact h.file
    messages := hsent.trans h.messages }

lemma of_slows (h : u.Sent before s pieces last) (hst : Slows s t) :
    u.Sent before t pieces last := by
  refine h.congr ?_ ?_ ?_ (by rw [hst.files]) (by rw [hst.sent])
  · rcases hst.producers u.producer with e | e <;> rw [e]
  · rcases hst.objs u.request with e | e <;> rw [e]
  · rcases hst.objs u.request with e | e <;> rw [e]

lemma setProducing (h : u.Sent before w pieces last) (p : ℕ) (b : Bool) :
    u.Sent before (w.setProducer p fun q => { q with producing := b }) pieces last := by
  refine h.congr ?_ rfl rfl rfl rfl
  by_cases hp : u.producer = p
  · subst hp
    rw [setProducer_producers_self]
  · rw [setProducer_producers_of_ne hp]

lemma request (h : u.Sent before w pieces last) :
    (w.producers u.producer).request = u.request := congrArg Producer.request h.producer

lemma fh (h : u.Sent before w pieces last) : (w.producers u.producer).fh = u.fh :=
  congrArg Producer.fh h.producer

lemma finished (h : u.Sent before w pieces last) : (w.producers u.producer).finished = last :=
  congrArg Producer.finished h.producer

lemma offset (h : u.Sent before w pieces last) : (w.producers u.producer).offset =
    if u.offset ≠ 0 then u.offset + pieces.flatten.length else 0 :=
  congrArg Producer.offset h.producer

/-! ### A step of the producer -/

/-- What a step reads comes right after what was sent. -/
lemma fetch (h : u.Sent before w pieces last) :
    (w.files u.fh).fetch (w.producers u.producer) u.size =
        .ok ((u.content.drop (u.origin + pieces.flatten.length)).take u.size) ∧
      ∃ position, Ordinary ((w.fetched u.fh (fetchOps (w.producers u.producer) u.size)).files u.fh)
        u.content position ∧ (u.offset = 0 → position = u.position + (pieces.flatten.length +
          ((u.content.drop (u.origin + pieces.flatten.length)).take u.size).length)) := by
  obtain ⟨position, hfile, hpos⟩ := h.file
  have hread := hfile.fetch (w.producers u.producer) u.size
  have hmoved := hfile.moved (fetchOps (w.producers u.producer) u.size)
  rw [fetched_files_self]
  by_cases ho : u.offset = 0
  · have hq : (w.producers u.producer).offset = 0 := by simp [h.offset, ho]
    rw [foldl_fetchOps _ _ _ _ hq] at hmoved
    have horigin : u.origin = u.position := by simp [Upload.origin, ho]
    rw [if_neg (by simp [hq]), hpos ho] at hread
    rw [horigin]
    exact ⟨hread, _, hmoved, fun _ => by rw [hpos ho]; omega⟩
  · have hq : (w.producers u.producer).offset = u.offset + pieces.flatten.length := by
      simp [h.offset, ho]
    have horigin : u.origin = u.offset := by simp [Upload.origin, ho]
    rw [hq, if_pos (by omega)] at hread
    rw [horigin]
    exact ⟨hread, _, hmoved, fun h0 => absurd h0 ho⟩

/-- The piece that comes after what was sent. -/
def next (u : Upload) (pieces : List Bytes) : Bytes :=
  (u.content.drop (u.origin + pieces.flatten.length)).take u.size

/-- The pieces with the next one are still the beginning. -/
lemma prefix_snoc (h : u.Sent before w pieces last) :
    (pieces ++ [next u pieces]).flatten <+: u.content.drop u.origin := by
  obtain ⟨rest, hrest⟩ := h.isPrefix
  rw [List.flatten_append, List.flatten_singleton, next, ← List.drop_drop, ← hrest,
    List.drop_left, List.prefix_append_right_inj]
  exact List.take_prefix _ _

/-- Where nothing comes next, everything was sent. -/
lemma all_of_next_nil (h : u.Sent before w pieces last) (hnil : next u pieces = []) :
    pieces.flatten = u.content.drop u.origin := by
  obtain ⟨rest, hrest⟩ := h.isPrefix
  have hpos := h.pos
  rw [next, ← List.drop_drop, ← hrest, List.drop_left, List.take_eq_nil_iff] at hnil
  obtain h0 | rfl := hnil
  · omega
  · simpa using hrest

lemma messages_snoc (w : World) (m : Message) (hid : m.id = u.id)
    (htype : m.type = .bytes ∨ m.type = .eof) :
    u.messages (w.sent ++ [m]) = u.messages w.sent ++ [m] := by
  simp [Upload.messages, List.filter_append, hid, htype]

lemma messages_snoc_of_ne (w : World) (m : Message) (hm : m.type ≠ .bytes) (hm' : m.type ≠ .eof) :
    u.messages (w.sent ++ [m]) = u.messages w.sent := by
  simp [Upload.messages, List.filter_append, hm, hm']

/-- A live step that finds content, as a run. -/
lemma run_bytes (h : u.Sent before w pieces false) (hlive : Live w u.producer)
    (hnext : next u pieces ≠ []) : (BytesMessageProducer.go u.producer).run w =
      .ok ⟨⟩ (callLater 0 (.go u.producer) (sendMessage (u.bytes (next u pieces))
        ((w.fetched u.fh (fetchOps (w.producers u.producer) u.size)).advanced u.producer
          (next u pieces).length))) := by
  have hfetch := h.fetch.1
  rw [go_live hlive, h.request, h.size]
  rw [← h.fh] at hfetch
  rw [run_bind_ok (fetch_ok hfetch), h.fh]
  exact sendData_bytes (w := w.fetched u.fh _) (by rw [h.request]; exact h.id) h.int32 hnext

/-- A live step that finds no more content, as a run. -/
lemma run_eof (h : u.Sent before w pieces false) (hlive : Live w u.producer)
    (hnext : next u pieces = []) : (BytesMessageProducer.go u.producer).run w =
      .ok ⟨⟩ ((sendMessage u.eof
        (w.fetched u.fh (fetchOps (w.producers u.producer) u.size))).ended u.producer) := by
  have hfetch := h.fetch.1
  rw [go_live hlive, h.request, h.size]
  rw [← h.fh] at hfetch
  rw [run_bind_ok (fetch_ok hfetch), h.fh]
  show (sendData u.producer (w.producers u.producer) (next u pieces)).run _ = _
  rw [hnext]
  exact sendData_eof (w := w.fetched u.fh _) (by rw [h.request]; exact h.id) h.int32

/-- A producer that has an offset moves it past what it sends. -/
lemma producer_advanced (h : u.Sent before w pieces last) (n : ℕ) :
    { (if (w.producers u.producer).offset ≠ 0 then
        { w.producers u.producer with offset := (w.producers u.producer).offset + n }
      else w.producers u.producer) with producing := false } =
    { request := u.request, fh := u.fh, finished := last
      offset := if u.offset ≠ 0 then u.offset + (pieces.flatten.length + n) else 0 } := by
  have hproducer := h.producer
  by_cases ho : u.offset = 0
  · have hq : (w.producers u.producer).offset = 0 := by simp [h.offset, ho]
    rw [if_neg (by simp [hq]), hproducer]
    simp [ho]
  · have hq : (w.producers u.producer).offset = u.offset + pieces.flatten.length := by
      simp [h.offset, ho]
    rw [if_pos (by omega)]
    have hmoved := congrArg (fun q : Producer => { q with offset := q.offset + n }) hproducer
    rw [← Nat.add_assoc, if_pos ho]
    rw [if_pos ho] at hmoved
    exact hmoved

/-- **A step that finds content** sends the next piece. -/
lemma go_bytes (h : u.Sent before w pieces false) (hlive : Live w u.producer)
    (hnext : next u pieces ≠ []) :
    u.Sent before (after (BytesMessageProducer.go u.producer) w) (pieces ++ [next u pieces])
      false := by
  obtain ⟨-, position, hfile, hposition⟩ := h.fetch
  let v := w.fetched u.fh (fetchOps (w.producers u.producer) u.size)
  let a := v.advanced u.producer (next u pieces).length
  let m := u.bytes (next u pieces)
  rw [after_of_ok (h.run_bytes hlive hnext)]
  have hslows := slows_sendMessage m a
  have hcalls : ∀ x, u.Sent before x (pieces ++ [next u pieces]) false →
      u.Sent before (callLater 0 (.go u.producer) x) (pieces ++ [next u pieces]) false :=
    fun x hx => hx.congr rfl rfl rfl rfl rfl
  refine hcalls _ (of_slows ?_ hslows)
  have hlength : (pieces ++ [next u pieces]).flatten.length =
      pieces.flatten.length + (next u pieces).length := by simp
  constructor
  case producer =>
    show { a.producers u.producer with producing := false } = _
    rw [hlength]
    simp only [a, World.advanced, setProducer_producers_self]
    exact h.producer_advanced _
  case id => exact h.id
  case int32 => exact h.int32
  case size => exact h.size
  case pos => exact h.pos
  case file => exact ⟨position, hfile, fun h0 => by rw [hlength]; exact hposition h0⟩
  case sizes =>
    intro b hb
    rcases List.mem_append.mp hb with hb | hb
    · exact h.sizes b hb
    · obtain rfl := List.mem_singleton.mp hb
      exact ⟨hnext, List.length_take_le _ _⟩
  case isPrefix => exact h.prefix_snoc
  case complete => exact fun h => nomatch h
  case messages =>
    show u.messages (w.sent ++ [m]) = _
    rw [messages_snoc w m rfl (Or.inl rfl), h.messages]
    simp [m]

/-- **A step that finds no more content** sends `EOF`. -/
lemma go_eof (h : u.Sent before w pieces false) (hlive : Live w u.producer)
    (hnext : next u pieces = []) :
    u.Sent before (after (BytesMessageProducer.go u.producer) w) pieces true := by
  obtain ⟨-, position, hfile, hposition⟩ := h.fetch
  let v := w.fetched u.fh (fetchOps (w.producers u.producer) u.size)
  rw [after_of_ok (h.run_eof hlive hnext)]
  have hslows := slows_sendMessage u.eof v
  have hobj : ((sendMessage u.eof v).objs u.request).id = (w.objs u.request).id ∧
      ((sendMessage u.eof v).objs u.request).kind = (w.objs u.request).kind := by
    rcases hslows.objs u.request with e | e <;> rw [e] <;> exact ⟨rfl, rfl⟩
  constructor
  case producer =>
    have hsame : { (sendMessage u.eof v).producers u.producer with producing := false } =
        { w.producers u.producer with producing := false } := by
      rcases hslows.producers u.producer with e | e <;> rw [e] <;> rfl
    simp only [World.ended, setProducer_producers_self]
    exact congrArg (fun q : Producer => { q with finished := true }) (hsame.trans h.producer)
  case id => exact hobj.1.trans h.id
  case int32 => exact h.int32
  case size => exact (congrArg Kind.maxPayloadSize hobj.2).trans h.size
  case pos => exact h.pos
  case file =>
    refine ⟨position, ?_, fun h0 => ?_⟩
    · show Ordinary ((sendMessage u.eof v).files u.fh) u.content position
      rw [hslows.files]
      exact hfile
    · have := hposition h0
      rw [show (u.content.drop (u.origin + pieces.flatten.length)).take u.size = [] from hnext]
        at this
      simpa using this
  case sizes => exact h.sizes
  case isPrefix => exact h.isPrefix
  case complete => exact fun _ => h.all_of_next_nil hnext
  case messages =>
    show u.messages (sendMessage u.eof v).sent = _
    rw [hslows.sent]
    show u.messages (w.sent ++ [u.eof]) = _
    rw [messages_snoc w u.eof rfl (Or.inr rfl), h.messages]
    simp

/-- **A step of the producer** sends the next piece, or `EOF`, or nothing. -/
lemma go (h : u.Sent before w pieces last) : ∃ pieces' last',
    u.Sent before (after (BytesMessageProducer.go u.producer) w) pieces' last' := by
  by_cases hlive : Live w u.producer
  · have hlast : last = false := h.finished.symm.trans hlive.finished
    subst hlast
    by_cases hnext : next u pieces = []
    · exact ⟨_, _, h.go_eof hlive hnext⟩
    · exact ⟨_, _, h.go_bytes hlive hnext⟩
  · rw [after_of_ok (go_idle hlive)]
    exact ⟨_, _, h⟩

end Sent

/-! ### What may happen to it -/

/-- What may be done to the producer and its request. -/
inductive Op
  | resumeProducing
  | pauseProducing
  | stopProducing
  /-- `cancel()` of the request. -/
  | cancel
  /-- The reactor runs the `k`-th delayed call. -/
  | run (k : ℕ)

def perform (u : Upload) : Op → M PUnit
  | .resumeProducing => BytesMessageProducer.resumeProducing u.producer
  | .pauseProducing => modify (BytesMessageProducer.pauseProducing u.producer)
  | .stopProducing => modify (BytesMessageProducer.stopProducing u.producer)
  | .cancel => Request.cancel u.request
  | .run k => runCall k

def step (u : Upload) (w : World) (o : Op) : World := after (u.perform o) w

/-- The delayed calls that are run are steps of the producer. -/
def Admits (u : Upload) (w : World) : Op → Prop
  | .run k => ∀ c, w.calls[k]? = some c → c.func = .go u.producer
  | _ => True

/-- `cancel()` sends nothing of the upload. -/
lemma keeps_cancel :
    Within (Keeps fun w => u.Sent before w pieces last) (Request.cancel u.request) := by
  have hsend : Within (Keeps fun w => u.Sent before w pieces last)
      (Request.sendMessage u.request { type := .cancelRequest }) := by
    refine along_sendMessage fun _ w h => Sent.of_slows ?_ (slows_sendMessage _ w)
    refine h.congr rfl rfl rfl rfl (Sent.messages_snoc_of_ne w _ ?_ ?_) <;> simp
  refine along_cancel (fun w h => ?mark) (along_customCancel (fun w h => ?stop) hsend)
  case mark => refine h.congr rfl ?_ ?_ rfl rfl <;> simp
  case stop =>
    unfold withProducer
    split
    · exact h.setProducing _ false
    · exact h

/-- **Each step** keeps what was sent, and may add to it. -/
lemma Sent.step (h : u.Sent before w pieces last) {o : Op} (ho : u.Admits w o) :
    ∃ pieces' last', u.Sent before (u.step w o) pieces' last' := by
  cases o with
  | resumeProducing => exact (h.setProducing u.producer true).go
  | pauseProducing => exact ⟨_, _, h.setProducing u.producer false⟩
  | stopProducing => exact ⟨_, _, h.setProducing u.producer false⟩
  | cancel => exact ⟨_, _, keeps_cancel w h⟩
  | run k =>
    show ∃ pieces' last', u.Sent before (after (runCall k) w) pieces' last'
    rcases after_runCall k w with e | ⟨c, hc, -, e⟩ <;> rw [e]
    · exact ⟨_, _, h⟩
    · rw [ho c hc]
      have hcalled : u.Sent before (w.called k) pieces last := h.congr rfl rfl rfl rfl rfl
      exact hcalled.go

/-! ### After `cancel()` -/

/-- Nothing is sent once the request is cancelled. -/
lemma Sent.step_cancelled (h : u.Sent before w pieces last)
    (hc : (w.objs u.request).cancelled = true) {o : Op} (ho : u.Admits w o) :
    u.Sent before (u.step w o) pieces last ∧ ((u.step w o).objs u.request).cancelled = true := by
  have hidle : ∀ v : World, u.Sent before v pieces last →
      (v.objs u.request).cancelled = true →
      after (BytesMessageProducer.go u.producer) v = v := by
    intro v hv hvc
    refine after_of_ok (go_idle fun hlive => ?_)
    have := hlive.cancelled
    rw [hv.request, hvc] at this
    cases this
  cases o with
  | resumeProducing =>
    have hv := h.setProducing u.producer true
    have hgo : u.step w .resumeProducing =
        w.setProducer u.producer fun q => { q with producing := true } := hidle _ hv hc
    rw [hgo]
    exact ⟨hv, hc⟩
  | pauseProducing => exact ⟨h.setProducing u.producer false, hc⟩
  | stopProducing => exact ⟨h.setProducing u.producer false, hc⟩
  | cancel => exact ⟨keeps_cancel w h, cancel_cancelled (Or.inr hc)⟩
  | run k =>
    show u.Sent before (after (runCall k) w) pieces last ∧
      ((after (runCall k) w).objs u.request).cancelled = true
    rcases after_runCall k w with e | ⟨c, hk, -, e⟩ <;> rw [e]
    · exact ⟨h, hc⟩
    · have hcalled : u.Sent before (w.called k) pieces last := h.congr rfl rfl rfl rfl rfl
      rw [ho c hk]
      have hgo : after (Func.run (.go u.producer)) (w.called k) = w.called k :=
        hidle _ hcalled hc
      rw [hgo]
      exact ⟨hcalled, hc⟩

/-! ### Runs -/

lemma Sent.run (h : u.Sent before w pieces last) {os : List Op}
    (hos : Runs.Legal u.step u.Admits w os) :
    ∃ pieces' last', u.Sent before (Runs.run u.step w os) pieces' last' :=
  hos.invariant (I := fun w => ∃ pieces last, u.Sent before w pieces last)
    (fun _ _ hs ho => by
      obtain ⟨_, _, hs⟩ := hs
      exact hs.step ho) ⟨pieces, last, h⟩

lemma Sent.run_cancelled (h : u.Sent before w pieces last)
    (hc : (w.objs u.request).cancelled = true) {os : List Op}
    (hos : Runs.Legal u.step u.Admits w os) :
    u.Sent before (Runs.run u.step w os) pieces last :=
  (hos.invariant (I := fun w => u.Sent before w pieces last ∧
    (w.objs u.request).cancelled = true) (fun _ _ hs ho => hs.1.step_cancelled hs.2 ho)
    ⟨h, hc⟩).1

/-- **Uploaded content is exactly the file, in order**, under any scheduling: the pieces sent so
far, none of them empty or too long, are the beginning of the file from where the upload began,
`EOF` is sent once, when they are all of it, and nothing is sent after it or once the request is
cancelled. -/
theorem upload_run {w₀ : World} (h₀ : u.Begins w₀) {os : List Op}
    (hos : Runs.Legal u.step u.Admits w₀ os) :
    (∃ (pieces : List Bytes) (last : Bool), u.messages (Runs.run u.step w₀ os).sent =
        u.messages w₀.sent ++ pieces.map u.bytes ++ (if last then [u.eof] else []) ∧
      (∀ b ∈ pieces, b ≠ [] ∧ b.length ≤ u.size) ∧
      pieces.flatten <+: u.content.drop u.origin ∧
      (last = true → pieces.flatten = u.content.drop u.origin)) ∧
    ∀ pre post, os = pre ++ .cancel :: post →
      ((Runs.run u.step w₀ pre).objs u.request).finished = false →
      u.messages (Runs.run u.step w₀ os).sent = u.messages (Runs.run u.step w₀ pre).sent := by
  constructor
  · obtain ⟨pieces, last, h⟩ := h₀.sent.run hos
    exact ⟨pieces, last, h.messages, h.sizes, h.isPrefix, h.complete⟩
  · rintro pre post rfl hfin
    obtain ⟨hpre, -, hpost⟩ := Runs.legal_append.mp hos
    obtain ⟨pieces, last, h⟩ := h₀.sent.run hpre
    have hcancel : u.Sent _ (u.step (Runs.run u.step w₀ pre) .cancel) pieces last :=
      keeps_cancel _ h
    have hend := hcancel.run_cancelled (cancel_cancelled (Or.inl hfin)) hpost
    rw [Runs.run_append, Runs.run_cons, hend.messages, h.messages]

/-! ### An upload of five bytes -/

def five : Upload :=
  { producer := 0, request := 0, id := 1, size := 3, fh := 0, content := [1, 2, 3, 4, 5]
    offset := 0, position := 0 }

/-- The request has got its `BEGIN_CONTENT`. -/
def fiveBegun : World where
  objs _ := {
    kind := .putContent {
      share := "s", nodeId := "n", previousHash := "p", hash := "h", crc32 := 0, size := 5
      deflatedSize := 5, fd := 0, maxPayloadSize := 3 }
    id := some 1
    started := true }
  files _ := File.opened [1, 2, 3, 4, 5]
  requestCounter := 3

lemma begins_five : five.Begins fiveBegun :=
  ⟨rfl, rfl, by decide, rfl, by decide, ordinary_opened _⟩

lemma legal_five : Runs.Legal five.step five.Admits fiveBegun
    [.resumeProducing, .resumeProducing, .run 0] :=
  ⟨trivial, trivial, by rintro c ⟨⟩; rfl, trivial⟩

/-- It is resumed twice, which leaves two steps pending, and one of them is run. -/
theorem upload_run_five : ∃ (pieces : List Bytes) (last : Bool),
    five.messages (Runs.run five.step fiveBegun [.resumeProducing, .resumeProducing, .run 0]).sent =
        pieces.map five.bytes ++ (if last then [five.eof] else []) ∧
      pieces.flatten <+: [1, 2, 3, 4, 5] := by
  obtain ⟨⟨pieces, last, hmessages, -, hprefix, -⟩, -⟩ := upload_run begins_five legal_five
  exact ⟨pieces, last, hmessages, hprefix⟩

end Upload

end Magicicada.Client
