import Magicicada.Demux
import Magicicada.Teardown

/-!
Where the upload that answers a `BEGIN_CONTENT` begins: at the offset of the message, or, when
that is 0, where the handle of the file stands.
-/

namespace Magicicada.Client

open Pb Errors Requests Prog

namespace Upload

variable {u : Upload} {before : List Message} {w : World} {pieces : List Bytes} {last : Bool}

/-! ### Running to the end -/

/-- What may be done to an upload that is not cancelled. -/
def Unhindered (u : Upload) (w : World) (o : Op) : Prop := u.Admits w o ∧ o ≠ .cancel

/-- The producer has sent everything. -/
def Complete (u : Upload) (w : World) : Prop := (w.producers u.producer).finished = true

lemma core_step {o : Op} (ho : o ≠ .cancel) : (u.step w o).core = w.core := by
  cases o with
  | resumeProducing => exact frame_resumeProducing u.producer w
  | pauseProducing => rfl
  | stopProducing => rfl
  | cancel => exact absurd rfl ho
  | run k => exact frame_runCall k w

/-- What holds of an upload that is left to run. -/
structure Underway (u : Upload) (before : List Message) (w : World) : Prop where
  sent : ∃ pieces last, u.Sent before w pieces last
  cancelled : (w.objs u.request).cancelled = false

lemma Underway.step (h : u.Underway before w) {o : Op} (ho : u.Unhindered w o) :
    u.Underway before (u.step w o) := by
  obtain ⟨pieces, last, hsent⟩ := h.sent
  refine ⟨hsent.step ho.1, ?_⟩
  rw [cancelled_of_core (core_step ho.2)]
  exact h.cancelled

lemma Underway.run (h : u.Underway before w) {os : List Op}
    (hos : Runs.Legal u.step u.Unhindered w os) : u.Underway before (Runs.run u.step w os) :=
  hos.invariant (fun _ _ hs ho => hs.step ho) h

lemma unhindered_resume (w : World) : u.Unhindered w .resumeProducing := ⟨trivial, by simp⟩

lemma legal_resumes (n : ℕ) : ∀ w : World,
    Runs.Legal u.step u.Unhindered w (List.replicate n .resumeProducing) := by
  induction n with
  | zero => exact fun w => trivial
  | succ n ih => exact fun w => ⟨unhindered_resume w, ih _⟩

/-- Each resumption sends the next piece, until nothing is left. -/
lemma Sent.finishes (h : u.Sent before w pieces last)
    (hc : (w.objs u.request).cancelled = false) :
    ∃ n, u.Complete (Runs.run u.step w (List.replicate n .resumeProducing)) := by
  generalize hsize : (u.content.drop (u.origin + pieces.flatten.length)).length = size
  induction size using Nat.strong_induction_on generalizing w pieces with
  | _ size ih =>
    cases last with
    | true => exact ⟨0, h.finished⟩
    | false =>
      let v := w.setProducer u.producer fun q => { q with producing := true }
      have hv : u.Sent before v pieces false := h.setProducing u.producer true
      have hlive : Live v u.producer := by
        refine ⟨by simp [v], ?_, hv.finished⟩
        rw [hv.request]
        exact hc
      by_cases hnext : Sent.next u pieces = []
      · exact ⟨1, (hv.go_eof hlive hnext).finished⟩
      · have hgo : u.Sent before (u.step w .resumeProducing) (pieces ++ [Sent.next u pieces])
            false := hv.go_bytes hlive hnext
        have hcore : (u.step w .resumeProducing).core = w.core := core_step (by simp)
        have hsmaller : (u.content.drop (u.origin +
            (pieces ++ [Sent.next u pieces]).flatten.length)).length < size := by
          have hpos := List.length_pos_iff.mpr hnext
          rw [Sent.next, List.length_take, List.length_drop] at hpos
          rw [List.flatten_append, List.flatten_singleton, List.length_append, Sent.next,
            List.length_take, List.length_drop, List.length_drop, ← hsize, List.length_drop]
          omega
        obtain ⟨n, hn⟩ := ih _ hsmaller hgo ((cancelled_of_core hcore _).trans hc) rfl
        exact ⟨n + 1, hn⟩

/-! ### What the upload sends -/

/-- What was sent of the upload after `sent₀` are some bytes in pieces, and `EOF`. -/
def Delivers (u : Upload) (sent₀ : List Message) (w : World) (b : Bytes) : Prop :=
  ∃ pieces : List Bytes, u.messages w.sent =
    u.messages sent₀ ++ pieces.map u.bytes ++ [u.eof] ∧ pieces.flatten = b

/-- However it is scheduled, the upload can be run to its end, and at its end it has sent these
bytes. -/
def Uploads (u : Upload) (sent₀ : List Message) (w : World) (b : Bytes) : Prop :=
  ∀ os, Runs.Legal u.step u.Unhindered w os →
    (∃ more, Runs.Legal u.step u.Unhindered w (os ++ more) ∧
      u.Complete (Runs.run u.step w (os ++ more))) ∧
    (u.Complete (Runs.run u.step w os) → u.Delivers sent₀ (Runs.run u.step w os) b)

lemma bytes_injective (u : Upload) : Function.Injective u.bytes := by
  intro b b' h
  have hbytes : some (BytesMessage.mk (some b)) = some ⟨some b'⟩ := congrArg Message.bytes h
  exact Option.some_inj.mp (congrArg BytesMessage.bytes (Option.some_inj.mp hbytes))

/-- An upload sends one thing at most. -/
lemma Delivers.unique {sent₀ : List Message} {b b' : Bytes} (h : u.Delivers sent₀ w b)
    (h' : u.Delivers sent₀ w b') : b = b' := by
  obtain ⟨pieces, hsent, rfl⟩ := h
  obtain ⟨pieces', hsent', rfl⟩ := h'
  have heq := hsent.symm.trans hsent'
  rw [List.append_left_inj, List.append_right_inj] at heq
  rw [List.map_injective_iff.mpr u.bytes_injective heq]

lemma Underway.delivers {sent₀ : List Message} (h : u.Underway (u.messages sent₀) w)
    (hend : u.Complete w) : u.Delivers sent₀ w (u.content.drop u.origin) := by
  obtain ⟨pieces, last, hsent⟩ := h.sent
  obtain rfl : last = true := hsent.finished.symm.trans hend
  exact ⟨pieces, hsent.messages, hsent.complete rfl⟩

/-- An upload sends the content from its origin, and nothing else. -/
lemma Underway.sends_iff {sent₀ : List Message} (h : u.Underway (u.messages sent₀) w)
    (b : Bytes) : u.Uploads sent₀ w b ↔ u.content.drop u.origin = b := by
  constructor
  · intro hb
    obtain ⟨more, hmore, hend⟩ := (hb [] trivial).1
    rw [List.nil_append] at hmore hend
    exact ((h.run hmore).delivers hend).unique ((hb more hmore).2 hend)
  · rintro rfl os hos
    have hrun := h.run hos
    obtain ⟨pieces, last, hsent⟩ := hrun.sent
    obtain ⟨n, hn⟩ := hsent.finishes hrun.cancelled
    refine ⟨⟨List.replicate n .resumeProducing, Runs.legal_append.mpr ⟨hos, legal_resumes n _⟩,
      ?_⟩, hrun.delivers⟩
    rw [Runs.run_append]
    exact hn

/-! ### `BEGIN_CONTENT` -/

/-- The upload a `BEGIN_CONTENT` asks a `PutContent` for, with what is in its file and where the
handle stands. -/
def asked (w : World) (r : ℕ) (m : Message) (content : Bytes) (position : ℕ) : Upload where
  producer := w.nextProducer
  request := r
  id := m.id
  size := (w.objs r).kind.maxPayloadSize
  fh := (w.objs r).kind.fd
  content := content
  offset := rd (rd m.beginContent).offset
  position := position

/-- A `PutContent` that waits for `BEGIN_CONTENT`, and its file. -/
structure Awaits (w : World) (r : ℕ) (m : Message) (content : Bytes) (position : ℕ) : Prop where
  registered : Registered w r m.id
  kind : ∃ q, (w.objs r).kind = .putContent q
  cancelled : (w.objs r).cancelled = false
  size : 0 < (w.objs r).kind.maxPayloadSize
  file : Ordinary (w.files (w.objs r).kind.fd) content position
  type : m.type = .beginContent
  int32 : Pb.int32 m.id = true
  valid : validateMessage m = []

/-- `BEGIN_CONTENT` makes a producer for its offset. -/
lemma putContent_begin (q : Requests.PutContent) {m : Message} (hm : m.type = .beginContent)
    {c : Context} (hc : c.raises = none) :
    ∃ q' : Requests.PutContent, q'.fd = q.fd ∧ q'.maxPayloadSize = q.maxPayloadSize ∧
      (Kind.putContent q).processMessage c m =
        (.putContent q', .produce (rd (rd m.beginContent).offset)) := by
  simp only [Kind.processMessage, PutContent.processMessage, hm, Context.call, hc]
  split
  · exact ⟨{ q with uploadIds := q.uploadIds ++ [_] }, rfl, rfl, rfl⟩
  · exact ⟨q, rfl, rfl, rfl⟩

variable {w : World} {r : ℕ} {m : Message} {content : Bytes} {position : ℕ}

/-- A resumption that reads from an ordinary file raises nothing. -/
lemma Sent.resume_run (h : u.Sent before w pieces false) :
    raised (BytesMessageProducer.resumeProducing u.producer) w = none := by
  let v := w.setProducer u.producer fun q => { q with producing := true }
  have hv : u.Sent before v pieces false := h.setProducing u.producer true
  show raised (BytesMessageProducer.go u.producer) v = none
  by_cases hlive : Live v u.producer
  · by_cases hnext : Sent.next u pieces = []
    · exact raised_of_ok (hv.run_eof hlive hnext)
    · exact raised_of_ok (hv.run_bytes hlive hnext)
  · exact raised_of_ok (go_idle hlive)

/-- The state in which the producer that was asked for is resumed. -/
def begun (w : World) (r : ℕ) (m : Message) : World :=
  (w.read r m none).withNewProducer r (rd (rd m.beginContent).offset)

lemma Awaits.reply (h : Awaits w r m content position) :
    ((w.read r m none).objs r).kind.fd = (w.objs r).kind.fd ∧
    ((w.read r m none).objs r).kind.maxPayloadSize = (w.objs r).kind.maxPayloadSize ∧
    w.reply r m none = .produce (rd (rd m.beginContent).offset) := by
  obtain ⟨q, hq⟩ := h.kind
  obtain ⟨q', hfd, hsize, hprocess⟩ := putContent_begin q h.type (c := (w.objs r).context) rfl
  rw [← hq] at hprocess
  have hread : ((w.read r m none).objs r).kind =
      ((w.objs r).kind.processMessage (w.objs r).context m).1 := by
    simp [World.read, Request.context]
  rw [hread, hprocess, hq]
  exact ⟨hfd, hsize, congrArg Prod.snd hprocess⟩

lemma Awaits.begins (h : Awaits w r m content position) :
    (asked w r m content position).Begins (begun w r m) where
  producer := by
    obtain ⟨hfd, -, -⟩ := h.reply
    rw [begun, withNewProducer_producers, hfd]
    exact Function.update_self ..
  id := by
    rw [begun, withNewProducer_objs]
    simp [asked, World.read, (h.registered.entry m.id r h.registered.get?).1]
  int32 := h.int32
  size := by
    obtain ⟨-, hsize, -⟩ := h.reply
    rw [begun, withNewProducer_objs]
    simpa [asked] using hsize
  pos := h.size
  file := h.file

/-- `BEGIN_CONTENT` makes the producer, and resumes it if the request is producing. -/
lemma Awaits.step (h : Awaits w r m content position) :
    w.step (.message m none) = after (if (w.objs r).producing then
      BytesMessageProducer.resumeProducing w.nextProducer else pure ⟨⟩ : M PUnit)
        (begun w r m) := by
  have hraise : raised (if (w.objs r).producing then
      BytesMessageProducer.resumeProducing w.nextProducer else pure ⟨⟩ : M PUnit)
        (begun w r m) = none := by
    split
    · exact h.begins.sent.resume_run
    · rfl
  have hproducing : ((w.read r m none).objs r).producing = (w.objs r).producing := by
    simp [World.read]
  have hrun : (carryOut r m none (w.reply r m none)).run (w.read r m none) =
      (if (w.objs r).producing then BytesMessageProducer.resumeProducing w.nextProducer
        else pure ⟨⟩ : M PUnit).run (begun w r m) := by
    rw [h.reply.2.2, ← hproducing]
    exact produce_run (w.read r m none) r _
  rw [h.registered.message_run h.valid]
  refine after_congr ?_
  rw [run_tryCatch, hrun, run_of_not_raised hraise]

lemma Awaits.underway (h : Awaits w r m content position) :
    (asked w r m content position).Underway ((asked w r m content position).messages w.sent)
      (w.step (.message m none)) := by
  have hsent := h.begins.sent
  have hc : ((begun w r m).objs r).cancelled = false := by
    rw [begun, withNewProducer_objs]
    simp [World.read, h.cancelled]
  have hnow : (asked w r m content position).Underway
      ((asked w r m content position).messages w.sent) (begun w r m) := ⟨⟨_, _, hsent⟩, hc⟩
  rw [h.step]
  split
  · exact hnow.step (unhindered_resume _)
  · exact hnow

/-- **Where the answer to a `BEGIN_CONTENT` begins.** The content from the offset on is sent, and
then `EOF`, exactly when the offset is not 0, the handle stands at the beginning of the file, or
there is nothing in the file. -/
theorem uploads_iff (h : Awaits w r m content position) :
    (asked w r m content position).Uploads w.sent (w.step (.message m none))
        (content.drop (rd (rd m.beginContent).offset)) ↔
      rd (rd m.beginContent).offset ≠ 0 ∨ position = 0 ∨ content = [] := by
  rw [h.underway.sends_iff]
  show content.drop (if rd (rd m.beginContent).offset ≠ 0 then _ else position) = _ ↔ _
  by_cases ho : rd (rd m.beginContent).offset = 0
  · rw [if_neg (not_not.mpr ho), ho, List.drop_zero]
    constructor
    · intro hdrop
      have := congrArg List.length hdrop
      rw [List.length_drop] at this
      have hlen : position = 0 ∨ content.length = 0 := by omega
      exact Or.inr (hlen.imp_right List.length_eq_zero_iff.mp)
    · rintro (h0 | rfl | rfl)
      · exact absurd rfl h0
      · rfl
      · exact List.drop_nil
  · rw [if_pos ho]
    exact iff_of_true rfl (Or.inl ho)

/-! ### A handle that was read from before -/

/-- A client that is to upload a file whose methods were called before. -/
def handled (content : Bytes) (ops : List FileOp) : World :=
  { uploading content with files := fun _ => { File.opened content with ops := ops } }

/-- The upload was started. -/
def handledStarted (content : Bytes) (ops : List FileOp) : World :=
  Runs.run World.step (handled content ops) [.start 0]

lemma reachable_handled (content : Bytes) (ops : List FileOp) :
    Reachable (handledStarted content ops) :=
  ⟨handled content ops, [.start 0], initial_init _ _, ⟨⟨rfl, rfl⟩, trivial⟩, rfl⟩

lemma awaits_handled (content : Bytes) (ops : List FileOp) :
    Awaits (handledStarted content ops) 0 beginContent content
      (ops.foldl (FileOp.move content) 0) where
  registered := ⟨(reachable_handled content ops).registry, rfl⟩
  kind := ⟨_, rfl⟩
  cancelled := rfl
  size := Nat.succ_pos 2
  file := (ordinary_opened content).moved ops
  type := rfl
  int32 := by decide
  valid := beginContent_valid

/-- Two bytes were read of the file before, and the upload begins after them. -/
theorem not_uploads : ¬∀ (w : World) (r : ℕ) (m : Message) (content : Bytes) (position : ℕ),
    Reachable w → Awaits w r m content position →
      (asked w r m content position).Uploads w.sent (w.step (.message m none))
        (content.drop (rd (rd m.beginContent).offset)) := by
  intro h
  have hawaits := awaits_handled [1, 2, 3, 4, 5] [.read 2]
  have huploads := h _ _ _ _ _ (reachable_handled _ _) hawaits
  have hdrop := (hawaits.underway.sends_iff _).mp huploads
  exact absurd hdrop (by decide)

/-- The handle of a file that was just opened. -/
theorem uploads_iff_opened :
    (asked (handledStarted [1, 2, 3, 4, 5] []) 0 beginContent [1, 2, 3, 4, 5] 0).Uploads
      (handledStarted [1, 2, 3, 4, 5] []).sent
      ((handledStarted [1, 2, 3, 4, 5] []).step (.message beginContent none)) [1, 2, 3, 4, 5] :=
  (uploads_iff (awaits_handled [1, 2, 3, 4, 5] [])).mpr (Or.inr (Or.inl rfl))

end Upload

end Magicicada.Client
