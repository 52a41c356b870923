import Magicicada.Events
import Magicicada.Factory

/-!
What a client does to its factory and to the reactor: it has the bytes it writes counted, and it
asks for steps of its uploads.

A relation between states that allows that much is kept by whatever the client does.
-/

namespace Magicicada.Client

open Pb Errors Bytes Framing Fields Requests Prog

/-- The factory and the delayed calls. -/
def World.clocks (w : World) : Option Factory × List DelayedCall := (w.factory, w.calls)

/-- A relation that what a client does keeps to. -/
structure Allows (R : World → World → Prop) : Prop where
  same : ∀ s t, t.clocks = s.clocks → R s t
  go : ∀ s p, R s (callLater 0 (.go p) s)
  register : ∀ s d n, R s (register d n s)

/-! ### Nothing but counting -/

lemma clocks_foldl {α : Type} {f : World → α → World} (h : ∀ w a, (f w a).clocks = w.clocks)
    (l : List α) : ∀ w, (l.foldl f w).clocks = w.clocks := by
  induction l with
  | nil => exact fun _ => rfl
  | cons a l ih => exact fun w => (ih _).trans (h w a)

lemma clocks_pauseRequest (r : ℕ) (w : World) : (Request.pauseProducing r w).clocks = w.clocks := by
  unfold Request.pauseProducing withProducer
  split <;> rfl

lemma clocks_stopRequest (r : ℕ) (w : World) : (Request.stopProducing r w).clocks = w.clocks :=
  clocks_pauseRequest r w

lemma clocks_pause (w : World) : (Handler.pauseProducing w).clocks = w.clocks :=
  clocks_foldl (fun w r => clocks_pauseRequest r w) _ w

lemma clocks_stop (w : World) : (Handler.stopProducing w).clocks = w.clocks :=
  clocks_foldl (fun w r => clocks_stopRequest r w) _ w

lemma clocks_stopProducer (r : ℕ) (w : World) :
    (withProducer r BytesMessageProducer.stopProducing w).clocks = w.clocks := by
  unfold withProducer
  split <;> rfl

lemma clocks_transportWrite (w : World) : (transportWrite w).clocks = w.clocks := by
  unfold transportWrite
  simp only
  split
  · exact clocks_pause _
  · rfl

section

variable {R : World → World → Prop} (hR : Allows R)

include hR

lemma within_still {g : World → World} (hg : ∀ w, (g w).clocks = w.clocks) :
    Within R (modify g : M PUnit) := within_modify fun w => hR.same _ _ (hg w)

lemma within_modifyObj (r : ℕ) (f : Request → Request) : Within R (modifyObj r f) :=
  within_still hR fun _ => rfl

lemma within_fault (f : Fault) : Within R (fault f) := within_still hR fun _ => rfl

variable [IsPreorder World R]

lemma allows_registerOwn (d : Dir) (n : ℕ) (w : World) : R w (registerOwn d n w) := by
  unfold registerOwn
  split
  · exact hR.register w d n
  · exact refl_of R w

lemma allows_sendMessage (m : Message) (w : World) : R w (sendMessage m w) := by
  have hwrite : ∀ (n : ℕ) (w : World), R w (write n w) := fun n w =>
    trans_of R (allows_registerOwn hR .writes n w) (hR.same _ _ (clocks_transportWrite _))
  refine trans_of R (hwrite sizeFmtSize w) (trans_of R (hwrite (byteSize m) _) ?_)
  exact hR.same _ _ rfl

lemma within_sendMessage (r : ℕ) (m : Message) : Within R (Request.sendMessage r m) :=
  along_sendMessage fun _ w => allows_sendMessage hR _ w

/-! ### Uploads -/

lemma within_fileOp (fh : ℕ) (op : FileOp) : Within R (fileOp fh op) := by
  refine within_bind within_get fun w => within_bind (within_still hR fun _ => rfl) fun _ => ?_
  split
  · exact within_pure _
  · exact within_throw _

lemma within_go (p : ℕ) : Within R (BytesMessageProducer.go p) :=
  along_go (within_fileOp hR) fun _ _ => along_sendData (within_sendMessage hR)
    (fun _ _ => hR.same _ _ rfl) (fun _ => hR.same _ _ rfl) fun w => hR.go w p

lemma within_resumeProducing (p : ℕ) : Within R (BytesMessageProducer.resumeProducing p) :=
  within_bind (within_still hR fun _ => rfl) fun _ => within_go hR p

lemma within_resumeRequest (r : ℕ) : Within R (Request.resumeProducing r) :=
  along_resumeRequest (within_resumeProducing hR) fun _ => hR.same _ _ rfl

lemma within_resume : Within R Handler.resumeProducing :=
  along_resume (within_resumeRequest hR) fun _ => hR.same _ _ rfl

lemma within_produce (r offset : ℕ) : Within R (produce r offset) := by
  refine within_bind within_get fun w => within_bind (within_still hR fun _ => rfl) fun _ => ?_
  refine within_bind (within_modifyObj hR _ _) fun _ => within_bind within_get fun w => ?_
  exact within_ite (fun _ => within_resumeProducing hR _) fun _ => within_pure _

/-! ### Requests -/

lemma within_settle (r : ℕ) (o : Outcome) : Within R (Request.settle r o) := by
  have hcleanup : Within R (Request.cleanup r) :=
    along_cleanup (fun _ => hR.same _ _ rfl) (fun _ _ => hR.same _ _ rfl)
      (fun _ _ => hR.same _ _ rfl) (within_fault hR)
  exact along_settle hcleanup (within_fault hR) fun _ => hR.same _ _ rfl

lemma within_cancel (r : ℕ) : Within R (Request.cancel r) :=
  along_cancel (fun _ => hR.same _ _ rfl) <|
    along_customCancel (fun w => hR.same _ _ (clocks_stopProducer r w)) (within_sendMessage hR r _)

lemma within_startExchange (r : ℕ) : Within R (startExchange r) :=
  along_startExchange (within_sendMessage hR r) (fun _ => hR.same _ _ rfl) (within_settle hR r _)

lemma within_start (r : ℕ) : Within R (start r) := by
  refine within_bind within_get fun w => within_bind (within_bind ?first fun _ => ?resume) fun _ =>
    within_bind ?assign fun _ => within_bind (within_modifyObj hR _ _) fun _ =>
      within_startExchange hR r
  case first =>
    refine within_bind within_get fun w => within_ite (fun _ => ?_) fun _ => within_pure _
    exact within_bind within_get fun w => within_ite
      (fun _ => within_bind (within_fault hR _) fun _ => within_throw _) fun _ =>
        within_still hR fun _ => rfl
  case resume =>
    exact within_bind within_get fun w => within_ite (fun _ => within_resumeRequest hR r) fun _ =>
      within_pure _
  case assign =>
    unfold assignId
    split
    · refine within_bind (within_bind within_get fun w => within_bind
        (within_still hR fun _ => rfl) fun _ => within_pure _) fun i => ?_
      exact within_bind (within_modifyObj hR _ _) fun _ => within_still hR fun _ => rfl
    · exact within_modifyObj hR _ _

/-! ### Messages -/

lemma within_notify (m : Message) (raises : Option Exn) : Within R (notify m raises) :=
  along_notify fun _ _ => hR.same _ _ rfl

lemma within_handle (m : Message) (raises : Option Exn) : Within R (handle m raises) :=
  along_handle (within_modify (allows_sendMessage hR _)) (within_still hR fun _ => rfl)
    (within_notify hR m raises)

lemma within_processRequest (r : ℕ) (m : Message) (raises : Option Exn) :
    Within R (Request.processMessage r m raises) :=
  within_bind within_get fun _ => within_bind (within_modifyObj hR _ _) fun _ =>
    along_carryOut (within_settle hR r) (within_produce hR r) (within_notify hR m raises)

lemma within_processMessage (m : Message) (raises : Option Exn) :
    Within R (processMessage m raises) := by
  refine within_ite (fun _ => ?reject) fun _ => ?dispatch
  case reject =>
    exact along_reject (fun _ _ => hR.same _ _ rfl) fun m w _ => allows_sendMessage hR m w
  case dispatch =>
    refine within_bind within_get fun w => ?_
    split
    · exact within_tryCatch (within_processRequest hR _ m raises) fun _ =>
        along_errorOf fun r => within_settle hR r _
    · exact within_handle hR m raises

/-! ### What happens to a client -/

/-- The loop of `connectionLost`. -/
lemma within_loseRequest (reason : Exn) (r : ℕ) : Within R (loseRequest reason r) :=
  along_loseRequest (fun w => hR.same _ _ (clocks_stopRequest r w)) (within_cancel hR r)
    (within_settle hR r _)

/-- **Whatever a client does**, other than being lost or having a delayed call run, keeps to what
it may do. -/
lemma within_perform {e : Event} (hlost : ∀ reason, e ≠ .lost reason) (hcall : ∀ k, e ≠ .call k) :
    Within R (perform e) := by
  cases e with
  | start r => exact within_start hR r
  | read n => exact within_modify (allows_registerOwn hR .reads n)
  | message m raises => exact within_processMessage hR m raises
  | cancel r => exact within_cancel hR r
  | call k => exact absurd rfl (hcall k)
  | pause => exact within_still hR clocks_pause
  | resume => exact within_resume hR
  | stop => exact within_still hR clocks_stop
  | done r => exact within_settle hR r _
  | error r e => exact within_settle hR r _
  | lost reason => exact absurd rfl (hlost reason)

end

end Magicicada.Client
