import Magicicada.Client

/-!
One rule for each program of the client: it moves the state along a relation when what it does to
the state does, and when the programs it calls do.
-/

namespace Magicicada.Client

open Pb Errors Requests Prog

section

variable {R : World → World → Prop} [IsPreorder World R] {r : ℕ}

/-! ### Uploads -/

lemma along_sendMessage {m : Message} (hsend : ∀ i w, R w (sendMessage { m with id := i } w)) :
    Within R (Request.sendMessage r m) := by
  refine within_bind within_get fun w => ?_
  split
  · exact within_throw _
  · exact within_ite (fun _ => within_modify (hsend _)) fun _ => within_throw _

lemma along_seekOffset {q : Producer} (hop : ∀ fh op, Within R (fileOp fh op)) :
    Within R (seekOffset q) :=
  within_ite (fun _ => within_bind (hop _ _) fun _ => within_pure _) fun _ => within_pure _

/-- What is sent of an upload: the data and then the next step, or the end. -/
lemma along_sendData {p : ℕ} {q : Producer} {data : Bytes}
    (hsend : ∀ r m, Within R (Request.sendMessage r m))
    (hadvance : ∀ w n, R w (w.setProducer p fun q =>
      if q.offset ≠ 0 then { q with offset := q.offset + n } else q))
    (hend : ∀ w, R w (w.setProducer p fun q => { q with producing := false, finished := true }))
    (hlater : ∀ w, R w (callLater 0 (.go p) w)) : Within R (sendData p q data) := by
  refine within_ite (fun _ => ?_) fun _ => ?_
  · exact within_bind (within_modify fun w => hadvance w _) fun _ =>
      within_bind (hsend _ _) fun _ => within_modify hlater
  · exact within_bind (hsend _ _) fun _ => within_modify hend

lemma along_go {p : ℕ} (hop : ∀ fh op, Within R (fileOp fh op))
    (hdata : ∀ q data, Within R (sendData p q data)) : Within R (BytesMessageProducer.go p) := by
  refine within_bind within_get fun w => within_ite (fun _ => within_pure _) fun _ => ?_
  exact within_bind (along_seekOffset hop) fun _ => within_bind (hop _ _) fun _ => hdata _ _

lemma along_resumeRequest (hresume : ∀ p, Within R (BytesMessageProducer.resumeProducing p))
    (hproducing : ∀ w, R w (w.setObj r fun q => { q with producing := true })) :
    Within R (Request.resumeProducing r) := by
  refine within_bind (within_bind within_get fun w => ?_) fun _ => within_modify hproducing
  split
  · exact hresume _
  · exact within_pure _

lemma along_resume (hresume : ∀ r, Within R (Request.resumeProducing r))
    (hproducing : ∀ w : World, R w { w with producing := true }) :
    Within R Handler.resumeProducing :=
  within_bind within_get fun _ => within_bind (within_forM _ fun r _ => hresume r) fun _ =>
    within_modify hproducing

/-! ### Requests -/

/-- What a request does when it ends. -/
lemma along_cleanup
    (hmark : ∀ w, R w (w.setObj r fun q => { q with finished := true, started := false }))
    (hrequests : ∀ (w : World) l, R w { w with requests := l })
    (htransport : ∀ (w : World) b,
      R w { w with transport := { w.transport with registered := b } })
    (hfault : ∀ f, Within R (fault f)) : Within R (Request.cleanup r) := by
  refine within_bind (within_modify hmark) fun _ => within_bind ?delete fun _ => ?remove
  case delete =>
    refine within_bind within_get fun w => ?_
    split
    · exact within_bind (hfault _) fun _ => within_throw _
    · split
      · exact within_bind (hfault _) fun _ => within_throw _
      · exact within_modify fun w => hrequests w _
  case remove =>
    refine within_bind within_get fun w => within_ite (fun _ => ?_) fun _ => within_pure _
    exact within_bind within_get fun w =>
      within_ite (fun _ => within_modify fun w => htransport w false) fun _ => hfault _

lemma along_settle {o : Outcome} (hcleanup : Within R (Request.cleanup r))
    (hfault : ∀ f, Within R (fault f))
    (hfire : ∀ w, R w (w.setObj r fun q => { q with deferred := some o })) :
    Within R (Request.settle r o) := by
  refine within_bind hcleanup fun _ => within_bind within_get fun w => ?_
  split
  · exact within_bind (hfault _) fun _ => within_throw _
  · exact within_modify hfire

lemma along_customCancel
    (hstop : ∀ w, R w (withProducer r BytesMessageProducer.stopProducing w))
    (hsend : Within R (Request.sendMessage r { type := .cancelRequest })) :
    Within R (customCancel r) := by
  refine within_bind within_get fun w => ?_
  split
  · exact hsend
  · exact within_bind (within_modify hstop) fun _ => hsend
  · exact within_pure _

lemma along_cancel (hmark : ∀ w, R w (w.setObj r fun q => { q with cancelled := true }))
    (hcustom : Within R (customCancel r)) : Within R (Request.cancel r) := by
  refine within_bind within_get fun w => within_ite (fun _ => within_pure _) fun _ => ?_
  exact within_bind (within_modify hmark) fun _ =>
    within_ite (fun _ => hcustom) fun _ => within_pure _

/-- `_start` in one state, where more is known of the messages and of the state they leave. -/
lemma startExchange_trans {w : World}
    (hsend : ∀ l, (w.objs r).kind.startMessages = .ok l →
      R w (after (l.forM (Request.sendMessage r)) w))
    (hstarted : ∀ t, R t (t.setObj r fun q => { q with kind := q.kind.started }))
    (hdone : ∀ (l : List Message) t, (l.forM (Request.sendMessage r)).run w = .ok ⟨⟩ t →
      let u := t.setObj r fun q => { q with kind := q.kind.started }
      R u (after (Request.done r) u)) : R w (after (startExchange r) w) := by
  unfold startExchange
  rw [after_get_bind]
  dsimp only
  split
  · exact refl_of R w
  · exact refl_of R w
  · next l _ hl =>
    refine after_bind_trans (hsend l hl) fun _ t ht => trans_of R (hstarted t) ?_
    show R _ (after (afterStart r (w.objs r).kind) (t.setObj r _))
    unfold afterStart
    split
    · exact hdone l t ht
    · exact refl_of R _

lemma along_startExchange (hsend : ∀ m, Within R (Request.sendMessage r m))
    (hstarted : ∀ w, R w (w.setObj r fun q => { q with kind := q.kind.started }))
    (hdone : Within R (Request.done r)) : Within R (startExchange r) := fun w =>
  startExchange_trans (fun l _ => within_forM l (fun m _ => hsend m) w) hstarted
    fun _ _ _ => hdone _

/-! ### Messages -/

lemma along_notify {m : Message} {raises : Option Exn}
    (hnotices : ∀ (w : World) l, R w { w with notices := l }) : Within R (notify m raises) := by
  refine within_bind within_get fun w => ?_
  split
  · exact within_throw _
  · exact within_pure _
  · refine within_bind (within_modify fun w => hnotices w _) fun _ => ?_
    split
    · exact within_throw _
    · exact within_pure _

lemma along_handle {m : Message} {raises : Option Exn} (hping : Within R (handlePing m))
    (hroot : Within R (handleRoot m)) (hnotify : Within R (notify m raises)) :
    Within R (handle m raises) := by
  unfold handle
  split
  · exact hping
  · exact within_pure _
  · exact hroot
  · exact within_pure _
  all_goals first | exact hnotify | exact within_throw _

lemma along_carryOut {m : Message} {raises : Option Exn} {reply : Reply}
    (hsettle : ∀ o, Within R (Request.settle r o)) (hproduce : ∀ n, Within R (produce r n))
    (hnotify : Within R (notify m raises)) : Within R (carryOut r m raises reply) := by
  cases reply with
  | stay => exact within_pure _
  | done => exact hsettle _
  | error e => exact hsettle _
  | raise e => exact within_throw _
  | produce offset => exact hproduce offset
  | notify => exact hnotify

lemma along_errorOf {i : ℤ} {e : Exn} (herror : ∀ r, Within R (Request.error r e)) :
    Within R (errorOf i e) := by
  refine within_bind within_get fun w => ?_
  split
  · exact herror _
  · exact within_throw _

lemma along_reject {m : Message} {invalid : List Validators.Invalid}
    (hlogged : ∀ (w : World) l, R w { w with logged := l })
    (hsend : ∀ m w, m.type = .error → R w (sendMessage m w)) :
    Within R (rejectMessage m invalid) := by
  refine within_bind within_get fun w => within_ite (fun _ => ?_) fun _ => within_throw _
  exact within_bind (within_modify fun w => hlogged w _) fun _ =>
    within_modify fun w => hsend _ w rfl

/-- An upload begins. -/
lemma along_produce {n : ℕ}
    (hadd : ∀ (w : World) l p, R w { w with producers := l, nextProducer := p })
    (hregister : ∀ w p, R w (w.setObj r fun q => { q with producer := some p }))
    (hresume : ∀ p, Within R (BytesMessageProducer.resumeProducing p)) :
    Within R (produce r n) := by
  refine within_bind within_get fun w => within_bind (within_modify fun w => hadd w _ _) fun _ =>
    within_bind (within_modify fun w => hregister w _) fun _ => within_bind within_get fun w => ?_
  exact within_ite (fun _ => hresume _) fun _ => within_pure _

/-- A request is registered, resumed if the handler produces, and given its id. -/
lemma along_start (hobj : ∀ w f, R w (w.setObj r f))
    (htransport : ∀ (w : World) b,
      R w { w with transport := { w.transport with registered := b } })
    (hcounter : ∀ (w : World) n, R w { w with requestCounter := n })
    (hrequests : ∀ (w : World) l, R w { w with requests := l })
    (hfault : ∀ f, Within R (fault f)) (hresume : Within R (Request.resumeProducing r))
    (hexchange : Within R (startExchange r)) : Within R (start r) := by
  refine within_bind within_get fun w => within_bind (within_bind ?first fun _ => ?resume) fun _ =>
    within_bind ?assign fun _ => within_bind (within_modify fun w => hobj w _) fun _ => hexchange
  case first =>
    refine within_bind within_get fun w => within_ite (fun _ => ?_) fun _ => within_pure _
    exact within_bind within_get fun w => within_ite
      (fun _ => within_bind (hfault _) fun _ => within_throw _) fun _ =>
        within_modify fun w => htransport w true
  case resume =>
    exact within_bind within_get fun w => within_ite (fun _ => hresume) fun _ => within_pure _
  case assign =>
    unfold assignId
    split
    · refine within_bind (within_bind within_get fun w => within_bind
        (within_modify fun w => hcounter w _) fun _ => within_pure _) fun i => ?_
      exact within_bind (within_modify fun w => hobj w _) fun _ =>
        within_modify fun w => hrequests w _
    · exact within_modify fun w => hobj w _

/-- A message is rejected, given to its request, or handled. -/
lemma along_processMessage {m : Message} {raises : Option Exn}
    (hreject : ∀ invalid, Within R (rejectMessage m invalid))
    (hobj : ∀ r w f, R w (w.setObj r f)) (hsettle : ∀ r o, Within R (Request.settle r o))
    (hproduce : ∀ r n, Within R (produce r n)) (hnotify : Within R (notify m raises))
    (hhandle : Within R (handle m raises)) : Within R (processMessage m raises) := by
  refine within_ite (fun _ => hreject _) fun _ => within_bind within_get fun w => ?_
  split
  · refine within_tryCatch (within_bind within_get fun w => ?_) fun e =>
      along_errorOf fun r => hsettle r _
    exact within_bind (within_modify fun w => hobj _ w _) fun _ =>
      along_carryOut (hsettle _) (hproduce _) hnotify
  · exact hhandle

/-! ### The connection and the timers -/

/-- A round of the loop of `connectionLost`. -/
lemma along_loseRequest {reason : Exn} (hstop : ∀ w, R w (Request.stopProducing r w))
    (hcancel : Within R (Request.cancel r)) (herror : Within R (Request.error r reason)) :
    Within R (loseRequest reason r) := by
  refine within_bind (within_modify hstop) fun _ => within_bind ?_ fun _ => ?_
  · exact within_bind within_get fun w => within_ite (fun _ => hcancel) fun _ => within_pure _
  · exact within_tryCatch herror fun e =>
      within_ite (fun _ => within_pure _) fun _ => within_throw _

lemma along_cancelDelayedCall (hcalls : ∀ (w : World) l, R w { w with calls := l })
    (d : Option ℕ) (w : World) : R w (cancelDelayedCall d w) := by
  cases d with
  | none => exact refl_of R w
  | some k => exact hcalls w _

lemma along_unregisterSelf (hcancel : ∀ d w, R w (cancelDelayedCall d w)) (w : World) :
    R w (unregisterSelf w) := by
  have hfold : ∀ (l : List (Option ℕ)) (w : World),
      R w (l.foldl (fun w d => cancelDelayedCall d w) w) := by
    intro l
    induction l with
    | nil => exact fun w => refl_of R w
    | cons d l ih => exact fun w => trans_of R (hcancel d w) (ih _)
  unfold unregisterSelf
  split
  · exact refl_of R w
  · split
    · exact hfold _ w
    · exact refl_of R w

lemma along_lost {reason : Exn} (hunregister : ∀ w, R w (unregisterSelf w))
    (hlose : ∀ r, Within R (loseRequest reason r)) : Within R (connectionLost reason) :=
  within_bind (within_modify hunregister) fun _ => within_bind within_get fun _ =>
    within_forM _ fun r _ => hlose r

lemma along_unthrottle {d : Dir}
    (hcall : ∀ w : World, R w (w.setFlow d fun f => { f with unthrottleId := none }))
    (hflow : ∀ w : World, R w (w.setFlow d fun f => { f with throttling := false }))
    (hclient : Within R (StorageClient.unthrottle d)) : Within R (Factory.unthrottle d) := by
  refine within_bind (within_modify hcall) fun _ => within_bind within_get fun w => ?_
  split
  · exact within_pure _
  · exact within_modify hflow
  · exact within_bind (within_modify hflow) fun _ => hclient

lemma along_runCall {k : ℕ} (hcalled : ∀ (w : World) l, R w { w with calls := l })
    (hrun : ∀ f : Func, Within R f.run) : Within R (runCall k) := by
  refine within_bind within_get fun w => ?_
  split
  · exact within_pure _
  · exact within_ite (fun _ => within_bind (within_modify fun w => hcalled w _) fun _ => hrun _)
      fun _ => within_pure _

end

end Magicicada.Client
