import Magicicada.ProxyChunks

/-!
How often a connection attempt through the proxy is reported as failed.

`error` does not record that it ran: the loop of `dataReceived` goes on after it, and so does
`connectionLost`.
-/

namespace Magicicada.ProxyTunnel

open Errors Bytes Wire Prog LineScan

variable {f : Factory} {t : Client} {fuel : ℕ} {d : Bytes} {ds : List Bytes}

/-! ### When the loop calls `error` -/

/-- What the loop of `dataReceived` does with a line: it goes on, calls `error`, or leaves the
other lines in the buffer, because the tunnel is there or the line raises. -/
def loopLine (status : Option Bytes) (line : Bytes) : Answer (Option Bytes) :=
  if maxLineLen < line.length then .fail
  else if line = [] then (if status = some connected then .done else .fail)
  else
    match statusOf line with
    | none => .done
    | some (status, _) => .next (some status)

/-- The lines of a chunk are short enough, also the last one if it is not at its end, and a blank
one comes after the status that connects, up to where the loop leaves them. -/
def Quiet (t : Client) (d : Bytes) : Prop :=
  t.negotiationDone = true ∨
    ¬Bad (LineScan.run loopLine (.reading t.status []) (t.buffer ++ d))

lemma failed_after_error {x : M PUnit} {t' : Client} {reason : Reason}
    (h : x.run t = (error reason).run t') : (after x t).Failed := by
  rw [after_of_ok (h.trans (error_run reason t'))]
  exact ⟨reason, by simp⟩

/-- **The loop of `dataReceived`** calls `error` just when its lines are not quiet. -/
lemma failed_readLines (fuel : ℕ) : ∀ t : Client, t.negotiationDone = false → ¬t.Failed →
    t.buffer.length < fuel → ((after (readLines fuel) t).Failed ↔
      Bad (LineScan.run loopLine (.reading t.status []) t.buffer)) := by
  induction fuel with
  | zero => exact fun t _ _ hfuel => absurd hfuel (Nat.not_lt_zero _)
  | succ fuel ih =>
    intro t hdone hnot hfuel
    cases round_readLines hdone hfuel with
    | short hline hlen hrun =>
      rw [run_line_start hline, after_of_ok hrun]
      exact iff_of_false hnot hlen
    | long hline hlen hrun =>
      rw [run_line_start hline]
      exact iff_of_true (failed_after_error hrun) hlen
    | tooLong line x hbuffer hline hlen hrun =>
      rw [hbuffer, run_line hline, loopLine, if_pos hlen, Answer.state, run_failed]
      exact iff_of_true (failed_after_error hrun) trivial
    | connects x hbuffer hstatus hrun =>
      rw [hbuffer, ← List.nil_append (cr :: _), run_line (by simp), loopLine, if_neg (by simp),
        if_pos rfl, if_pos hstatus, Answer.state, run_done, after_of_ok hrun]
      refine iff_of_false ?_ id
      rw [Client.failed_iff] at hnot ⊢
      simpa [Call.isFailure] using hnot
    | refused x hbuffer hstatus hrun =>
      -- the loop goes on after `error`
      rw [hbuffer, ← List.nil_append (cr :: _), run_line (by simp), loopLine, if_neg (by simp),
        if_pos rfl, if_neg hstatus, Answer.state, run_failed, after_congr hrun]
      refine iff_of_true ((extends_readLines fuel _).failed ?_) trivial
      exact ⟨.negotiation t.status t.message, by simp⟩
    | raises line x hbuffer hline hlen hblank hstatus hrun =>
      rw [hbuffer, run_line hline, loopLine, if_neg hlen, if_neg hblank, hstatus,
        after_of_error hrun]
      simp only [Answer.state, run_done]
      exact iff_of_false hnot id
    | status line x status message hbuffer hline hlen hblank hstatus hrun =>
      rw [hbuffer, run_line hline, loopLine, if_neg hlen, if_neg hblank, hstatus,
        after_congr hrun]
      have hx : x.length < fuel := by
        simp [hbuffer] at hfuel
        omega
      exact ih { t with buffer := x, status := some status, message := some message } hdone hnot hx

/-- A chunk calls `error` just when it is not quiet. -/
lemma failed_dataReceived (hnot : ¬t.Failed) (d : Bytes) :
    (after (dataReceived d) t).Failed ↔ ¬Quiet t d := by
  unfold Quiet
  by_cases hdone : t.negotiationDone = true
  · rw [after_of_ok (dataReceived_done hdone d)]
    refine iff_of_false ?_ (not_not.mpr (Or.inl hdone))
    rw [Client.failed_iff] at hnot ⊢
    simpa [Call.isFailure] using hnot
  · have hloop := failed_readLines ((t.buffer ++ d).length + 1) { t with buffer := t.buffer ++ d }
      (by simpa using hdone) hnot (Nat.lt_succ_self _)
    rw [after_congr (dataReceived_run (by simpa using hdone) d), hloop, or_iff_right hdone, not_not]

/-! ### Over all chunks -/

/-- No chunk calls `error`. -/
def QuietRun (f : Factory) (ds : List Bytes) : Prop :=
  ∀ pre d post, ds = pre ++ d :: post → Quiet (feed f pre).client d

lemma quietRun_snoc : QuietRun f (ds ++ [d]) ↔ QuietRun f ds ∧ Quiet (feed f ds).client d := by
  constructor
  · refine fun h => ⟨fun pre e post hds => h pre e (post ++ [d]) (by simp [hds]), h ds d [] rfl⟩
  · rintro ⟨hds, hd⟩ pre e post h
    rcases List.eq_nil_or_concat post with rfl | ⟨post, c, rfl⟩
    · obtain ⟨rfl, he⟩ := List.append_inj' h rfl
      cases he
      exact hd
    · rw [List.concat_eq_append, ← List.cons_append, ← List.append_assoc] at h
      exact hds pre e post (List.append_inj' h rfl).1

lemma failed_feed (f : Factory) (ds : List Bytes) :
    (feed f ds).client.Failed ↔ ¬QuietRun f ds := by
  induction ds using List.reverseRecOn with
  | nil =>
    obtain ⟨-, -, -, hcalls, -⟩ := made_fields f
    refine iff_of_false ?_ (not_not.mpr fun pre d post h => absurd h (by simp))
    rw [Client.failed_iff, Bool.not_eq_true]
    exact hcalls
  | append_singleton ds d ih =>
    rw [feed_snoc, quietRun_snoc]
    by_cases hds : QuietRun f ds
    · rw [and_iff_right hds]
      exact failed_dataReceived (fun h => ih.mp h hds) d
    · exact iff_of_true ((extends_dataReceived d _).failed (ih.mpr hds)) fun h => hds h.1

/-! ### One outcome -/

/-- A client that was fed some chunks and lost its connection. -/
def lose (f : Factory) (ds : List Bytes) (reason : ℕ) : Client :=
  after (connectionLost reason) (feed f ds).client

/-- How often `clientConnectionFailed` was called. -/
def Client.failures (t : Client) : ℕ := t.calls.countP Call.isFailure

/-- A connection attempt has one outcome. `start` begins with `startTLS`. -/
structure OneOutcome (f : Factory) (ds : List Bytes) (reason : ℕ) : Prop where
  atMostOnce : (lose f ds reason).failures ≤ 1
  once_iff : (lose f ds reason).failures = 1 ↔ (feed f ds).client.negotiationDone = false
  noStart : ∀ before c later, (lose f ds reason).calls = before ++ c :: later →
    c.isFailure = true → Call.startTLS ∉ later

lemma failures_pos {t : Client} : 0 < t.failures ↔ t.Failed := by
  rw [Client.failures, List.countP_pos_iff, Client.failed_iff, List.any_eq_true]

/-- The calls after the connection was lost. -/
lemma lose_calls (f : Factory) (ds : List Bytes) (reason : ℕ) : (lose f ds reason).calls =
    (feed f ds).client.calls ++
      if (feed f ds).client.negotiationDone then [.connectionLost reason]
      else [.clientConnectionFailed (.lost reason), .loseConnection] := by
  unfold lose connectionLost
  rw [after_get_bind]
  split
  · rfl
  · simp [after, error_run]

lemma lose_failures (f : Factory) (ds : List Bytes) (reason : ℕ) : (lose f ds reason).failures =
    (feed f ds).client.failures + if (feed f ds).client.negotiationDone then 0 else 1 := by
  rw [Client.failures, lose_calls, List.countP_append, Client.failures]
  split <;> rfl

/-- What is not in the first part of a list is in the second, with all that follows it. -/
lemma suffix_of_notMem {α : Type} {a b before later : List α} {c : α}
    (h : a ++ b = before ++ c :: later) (hc : c ∉ a) : c :: later <:+ b := by
  rcases List.append_eq_append_iff.mp h with ⟨k, -, rfl⟩ | ⟨k, rfl, hk⟩
  · exact List.suffix_append ..
  · cases k with
    | nil => exact hk ▸ List.suffix_rfl
    | cons e k =>
      obtain ⟨rfl, -⟩ := List.cons_eq_cons.mp hk
      exact absurd (List.mem_append_right _ List.mem_cons_self) hc

/-- Nothing is started after a failure that `connectionLost` reports. -/
lemma noStart_of_quiet (hnot : ¬(feed f ds).client.Failed) {reason : ℕ} {before later : List Call}
    {c : Call} (hcalls : (lose f ds reason).calls = before ++ c :: later)
    (hc : c.isFailure = true) : Call.startTLS ∉ later := by
  have hmem : c ∉ (feed f ds).client.calls := fun h =>
    hnot (Client.failed_iff.mpr (List.any_eq_true.mpr ⟨c, h, hc⟩))
  rw [lose_calls] at hcalls
  have hsuffix := suffix_of_notMem hcalls hmem
  intro h
  have hlost := hsuffix.subset (List.mem_cons_of_mem c h)
  split at hlost <;> simp at hlost

/-- **A connection attempt has one outcome** just when no chunk calls `error`. -/
theorem oneOutcome_iff (f : Factory) (ds : List Bytes) (reason : ℕ) :
    OneOutcome f ds reason ↔ QuietRun f ds := by
  have hcount := lose_failures f ds reason
  constructor
  · intro h
    by_contra hquiet
    have hpos := failures_pos.mpr ((failed_feed f ds).mpr hquiet)
    have hone := h.atMostOnce
    cases hdone : (feed f ds).client.negotiationDone with
    | false =>
      -- reported by `error`, and by `connectionLost` again
      rw [hdone, if_neg (by simp)] at hcount
      omega
    | true =>
      rw [hdone, if_pos rfl] at hcount
      have hfalse := h.once_iff.mp (by omega)
      rw [hdone] at hfalse
      cases hfalse
  · intro hquiet
    have hnot : ¬(feed f ds).client.Failed := fun h => (failed_feed f ds).mp h hquiet
    have hzero : (feed f ds).client.failures = 0 := by
      have := mt failures_pos.mp hnot
      omega
    rw [hzero, Nat.zero_add] at hcount
    refine ⟨?_, ?_, fun before c later hcalls hc => noStart_of_quiet hnot hcalls hc⟩
    · rw [hcount]
      split <;> omega
    · rw [hcount]
      cases (feed f ds).client.negotiationDone <;> simp

/-- A proxy that refuses, and then the connection is lost. -/
theorem not_oneOutcome : ¬∀ (f : Factory) (ds : List Bytes) (reason : ℕ),
    OneOutcome f ds reason := by
  intro h
  have hone := (h ⟨"localhost", 443, none⟩ [utf8 "HTTP/1.0 403 Forbidden\r\n\r\n"] 0).atMostOnce
  exact absurd hone (by decide)

end Magicicada.ProxyTunnel
