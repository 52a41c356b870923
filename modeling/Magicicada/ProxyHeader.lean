import Magicicada.LineScan
import Magicicada.ProxyTunnel

/-!
What the proxy says, as a scan of its bytes, and the loop of `dataReceived` as that scan.
-/

namespace Magicicada.ProxyTunnel

open Errors Bytes Prog LineScan

/-! ### The header -/

/-- What a line of the header says, given the status so far. -/
def readLine (status : Option Bytes) (line : Bytes) : Answer (Option Bytes) :=
  if maxLineLen < line.length then .fail
  else if line = [] then (if status = some connected then .done else .fail)
  else
    match statusOf line with
    | none => .fail
    | some (status, _) => .next (some status)

abbrev Header := LineScan.State (Option Bytes)

/-- What the proxy has said with these bytes. -/
def header (x : Bytes) : Header := LineScan.run readLine (.reading none []) x

/-- The proxy does not connect: the header says so or is not one, or its last line is too long
already. -/
def Bad : Header → Prop
  | .reading _ l => maxLineLen < l.length
  | .failed => True
  | .done _ => False

variable {t t' : Client} {fuel : ℕ} {status : Option Bytes} {l rest x y : Bytes}

/-! ### Calls are only added -/

/-- The calls made stay made. -/
def Extends (t t' : Client) : Prop := t.calls <+: t'.calls

instance : IsPreorder Client Extends where
  refl _ := List.prefix_refl _
  trans _ _ _ h1 h2 := List.IsPrefix.trans h1 h2

lemma extends_call (c : Call) : Within Extends (call c) :=
  within_modify fun t => List.prefix_append t.calls [c]

lemma extends_set {g : Client → Client} (hg : ∀ t, (g t).calls = t.calls) :
    Within Extends (modify g : M PUnit) := by
  refine within_modify fun t => ?_
  unfold Extends
  rw [hg]

lemma extends_error (reason : Reason) : Within Extends (error reason) :=
  within_bind (extends_call _) fun _ => extends_call _

lemma extends_lineReceived (line : Bytes) : Within Extends (lineReceived line) := by
  refine within_ite (fun _ => ?_) fun _ => within_bind within_get fun t => within_ite (fun _ => ?_)
    fun _ => extends_error _
  · split
    · exact within_throw _
    · exact extends_set fun _ => rfl
  · refine within_bind (extends_set fun _ => rfl) fun _ => within_bind (extends_call _) fun _ =>
      within_bind (extends_call _) fun _ => within_bind (extends_set fun _ => rfl) fun _ =>
        extends_call _

lemma extends_readLines (fuel : ℕ) : Within Extends (readLines fuel) := by
  induction fuel with
  | zero => exact within_throw _
  | succ fuel ih =>
    refine within_bind within_get fun t => within_ite (fun _ => within_pure _) fun _ => ?_
    split
    · exact within_ite (fun _ => extends_error _) fun _ => within_pure _
    · refine within_bind (extends_set fun _ => rfl) fun _ => within_ite (fun _ => extends_error _)
        fun _ => within_bind (extends_lineReceived _) fun _ => ih

lemma extends_dataReceived (data : Bytes) : Within Extends (dataReceived data) :=
  within_bind within_get fun _ => within_ite (fun _ => extends_call _) fun _ =>
    within_bind (extends_set fun _ => rfl) fun _ => extends_readLines _

/-! ### Failing -/

/-- `clientConnectionFailed` was called. -/
def Client.Failed (t : Client) : Prop := ∃ reason, .clientConnectionFailed reason ∈ t.calls

lemma Extends.failed (h : Extends t t') (ht : t.Failed) : t'.Failed :=
  let ⟨reason, hreason⟩ := ht
  ⟨reason, h.subset hreason⟩

/-- A program fails: it raises, or `clientConnectionFailed` has been called after it. -/
def Fails (x : M PUnit) (t : Client) : Prop := raised x t ≠ none ∨ (after x t).Failed

lemma error_run (reason : Reason) (t : Client) : (error reason).run t = .ok ⟨⟩ { t with
    calls := t.calls ++ [.clientConnectionFailed reason] ++ [.loseConnection] } := rfl

lemma fails_of_error {x : M PUnit} {reason : Reason} (h : x.run t = (error reason).run t') :
    Fails x t := by
  refine Or.inr ⟨reason, ?_⟩
  unfold after
  rw [h, error_run]
  simp

lemma fails_of_failed {x : M PUnit} (hx : Within Extends x) (ht : t.Failed) : Fails x t :=
  Or.inr ((hx t).failed ht)

/-! ### Lines -/

lemma indexCrlf_eq_some {b : Bytes} {pos : ℕ} (h : indexCrlf b = some pos) :
    b = b.take pos ++ cr :: lf :: b.drop (pos + 2) ∧ ¬[cr, lf] <:+: b.take pos := by
  induction b using indexCrlf.induct generalizing pos with
  | case1 => cases h
  | case2 x => cases h
  | case3 x y r hcr =>
    rw [indexCrlf, if_pos hcr, Option.some.injEq] at h
    subst h
    simp [hcr.1, hcr.2]
  | case4 x y r hne ih =>
    rw [indexCrlf, if_neg hne, Option.map_eq_some_iff] at h
    obtain ⟨p, hp, rfl⟩ := h
    obtain ⟨hsplit, hline⟩ := ih hp
    refine ⟨?_, ?_⟩
    · rw [List.take_succ_cons, List.cons_append, show p + 1 + 2 = (p + 2) + 1 by omega,
        List.drop_succ_cons, ← hsplit]
    · rw [List.take_succ_cons, List.infix_cons_iff, not_or]
      refine ⟨fun hpre => ?_, hline⟩
      obtain ⟨hx, hpre⟩ := List.cons_prefix_cons.mp hpre
      cases p with
      | zero => simp at hpre
      | succ p =>
        rw [List.take_succ_cons, List.cons_prefix_cons] at hpre
        exact hne ⟨hx.symm, hpre.1.symm⟩

/-- The loop of `dataReceived` without a whole line in the buffer. -/
lemma readLines_partial (fuel : ℕ) (hdone : t.negotiationDone = false)
    (h : indexCrlf t.buffer = none) : (readLines (fuel + 1)).run t =
      if maxLineLen < t.buffer.length then (error .lineTooLong).run t else .ok ⟨⟩ t := by
  rw [readLines, run_get_bind]
  simp only [hdone, h, Bool.false_eq_true, if_false]
  split <;> rfl

/-- The loop of `dataReceived` with a whole line in the buffer. -/
lemma readLines_line (fuel : ℕ) (hdone : t.negotiationDone = false) {pos : ℕ}
    (h : indexCrlf t.buffer = some pos) :
    (readLines (fuel + 1)).run t =
      (if maxLineLen < (t.buffer.take pos).length then error .lineTooLong
        else do
          lineReceived (t.buffer.take pos)
          readLines fuel : M PUnit).run { t with buffer := t.buffer.drop (pos + 2) } := by
  rw [readLines, run_get_bind]
  simp only [hdone, h, Bool.false_eq_true, if_false]
  rw [run_modify_bind, hdone]

lemma readLines_done (hdone : t.negotiationDone = true) :
    (readLines (fuel + 1)).run t = .ok ⟨⟩ t := by
  rw [readLines, run_get_bind]
  simp only [hdone]
  rfl

/-- A line with a status. -/
lemma lineReceived_status (hl : l ≠ []) {status message : Bytes}
    (h : statusOf l = some (status, message)) : (lineReceived l).run t =
      .ok ⟨⟩ { t with status := some status, message := some message } := by
  unfold lineReceived
  rw [if_pos hl, h]
  rfl

/-- A line without a status. -/
lemma lineReceived_raises (hl : l ≠ []) (h : statusOf l = none) : (lineReceived l).run t =
    .error (.valueError "not enough values to unpack (expected 2, got 1)") t := by
  unfold lineReceived
  rw [if_pos hl, h]
  rfl

/-- The blank line after the status that connects. -/
lemma lineReceived_connected (h : t.status = some connected) : (lineReceived []).run t =
    .ok ⟨⟩ { t with
      negotiationDone := true
      clientProtocol := true
      calls := t.calls ++ [.startTLS, .buildProtocol, .makeConnection] } := by
  unfold lineReceived
  rw [if_neg (by simp), run_get_bind, if_pos h]
  simp [start, call]

/-- The blank line after another status. -/
lemma lineReceived_refused (h : t.status ≠ some connected) : (lineReceived []).run t =
    (error (.negotiation t.status t.message)).run t := by
  unfold lineReceived
  rw [if_neg (by simp), run_get_bind, if_neg h]

/-- What a round of the loop of `dataReceived` does. -/
inductive Round (fuel : ℕ) (t : Client) : Prop
  | short (hline : ¬[cr, lf] <:+: t.buffer) (hlen : ¬maxLineLen < t.buffer.length)
      (hrun : (readLines (fuel + 1)).run t = .ok ⟨⟩ t)
  | long (hline : ¬[cr, lf] <:+: t.buffer) (hlen : maxLineLen < t.buffer.length)
      (hrun : (readLines (fuel + 1)).run t = (error .lineTooLong).run t)
  | tooLong (line x : Bytes) (hbuffer : t.buffer = line ++ cr :: lf :: x)
      (hline : ¬[cr, lf] <:+: line) (hlen : maxLineLen < line.length)
      (hrun : (readLines (fuel + 1)).run t = (error .lineTooLong).run { t with buffer := x })
  | connects (x : Bytes) (hbuffer : t.buffer = cr :: lf :: x) (hstatus : t.status = some connected)
      (hrun : (readLines (fuel + 1)).run t = .ok ⟨⟩ { t with
        buffer := x
        negotiationDone := true
        clientProtocol := true
        calls := t.calls ++ [.startTLS, .buildProtocol, .makeConnection] })
  | refused (x : Bytes) (hbuffer : t.buffer = cr :: lf :: x) (hstatus : t.status ≠ some connected)
      (hrun : (readLines (fuel + 1)).run t = (readLines fuel).run { t with
        buffer := x
        calls := t.calls ++
          [.clientConnectionFailed (.negotiation t.status t.message)] ++ [.loseConnection] })
  | raises (line x : Bytes) (hbuffer : t.buffer = line ++ cr :: lf :: x)
      (hline : ¬[cr, lf] <:+: line) (hlen : ¬maxLineLen < line.length) (hblank : line ≠ [])
      (hstatus : statusOf line = none)
      (hrun : (readLines (fuel + 1)).run t = .error
        (.valueError "not enough values to unpack (expected 2, got 1)") { t with buffer := x })
  | status (line x status message : Bytes) (hbuffer : t.buffer = line ++ cr :: lf :: x)
      (hline : ¬[cr, lf] <:+: line) (hlen : ¬maxLineLen < line.length) (hblank : line ≠ [])
      (hstatus : statusOf line = some (status, message))
      (hrun : (readLines (fuel + 1)).run t = (readLines fuel).run { t with
        buffer := x
        status := some status
        message := some message })

/-- A round of the loop, negotiating. -/
lemma round_readLines (hdone : t.negotiationDone = false) (hfuel : t.buffer.length < fuel + 1) :
    Round fuel t := by
  cases hpos : indexCrlf t.buffer with
  | none =>
    have hrun := readLines_partial fuel hdone hpos
    have hline := indexCrlf_eq_none_iff.mp hpos
    by_cases hlong : maxLineLen < t.buffer.length
    · exact .long hline hlong (by rw [hrun, if_pos hlong])
    · exact .short hline hlong (by rw [hrun, if_neg hlong])
  | some pos =>
    have hrun := readLines_line fuel hdone hpos
    obtain ⟨hbuffer, hline⟩ := indexCrlf_eq_some hpos
    have hlt := indexCrlf_le hpos
    generalize t.buffer.take pos = line at hrun hbuffer hline
    generalize t.buffer.drop (pos + 2) = x at hrun hbuffer
    let u : Client := { t with buffer := x }
    by_cases hlong : maxLineLen < line.length
    · rw [if_pos hlong] at hrun
      exact .tooLong line x hbuffer hline hlong hrun
    rw [if_neg hlong] at hrun
    by_cases hblank : line = []
    · subst hblank
      by_cases hconn : t.status = some connected
      · obtain ⟨k, rfl⟩ : ∃ k, fuel = k + 1 := ⟨fuel - 1, by omega⟩
        have hreceived := lineReceived_connected (t := u) hconn
        exact .connects x hbuffer hconn
          (hrun.trans ((run_bind_ok hreceived).trans (readLines_done rfl)))
      · have hreceived := (lineReceived_refused (t := u) hconn).trans (error_run _ _)
        exact .refused x hbuffer hconn (hrun.trans (run_bind_ok hreceived))
    · cases hstatus : statusOf line with
      | none =>
        exact .raises line x hbuffer hline hlong hblank hstatus
          (hrun.trans (run_bind_error (lineReceived_raises hblank hstatus)))
      | some p =>
        obtain ⟨status, message⟩ := p
        have hreceived := lineReceived_status (t := u) hblank hstatus
        exact .status line x status message hbuffer hline hlong hblank hstatus
          (hrun.trans (run_bind_ok hreceived))

/-! ### The loop -/

/-- What the loop does with the lines of the buffer, by what they say. -/
structure Reads (fuel : ℕ) (t : Client) (h : Header) : Prop where
  bad : Bad h → Fails (readLines fuel) t
  reading : ∀ status l, h = .reading status l → l.length ≤ maxLineLen →
    ∃ t', (readLines fuel).run t = .ok ⟨⟩ t' ∧ t'.negotiationDone = false ∧ t'.status = status ∧
      t'.buffer = l ∧ t'.calls = t.calls
  done : ∀ rest, h = .done rest →
    ∃ t', (readLines fuel).run t = .ok ⟨⟩ t' ∧ t'.negotiationDone = true ∧
      t'.calls = t.calls ++ [.startTLS, .buildProtocol, .makeConnection]
  fueled : raised (readLines fuel) t ≠ some .outOfFuel

lemma fails_congr {x z : M PUnit} (h : x.run t = z.run t') : Fails x t ↔ Fails z t' := by
  rw [Fails, Fails, raised_congr h, after_congr h]

lemma Reads.congr {fuel' : ℕ} {h : Header} (hr : Reads fuel' t' h)
    (hrun : (readLines fuel).run t = (readLines fuel').run t') (hcalls : t'.calls = t.calls) :
    Reads fuel t h where
  bad hb := (fails_congr hrun).mpr (hr.bad hb)
  reading status l hh hl := by
    rw [hrun, ← hcalls]
    exact hr.reading status l hh hl
  done rest hh := by
    rw [hrun, ← hcalls]
    exact hr.done rest hh
  fueled := raised_congr hrun ▸ hr.fueled

/-- What fails without raising for want of fuel is as a bad header is to be read. -/
lemma reads_of_fails (hf : Fails (readLines fuel) t)
    (hfuel : raised (readLines fuel) t ≠ some .outOfFuel) : Reads fuel t .failed :=
  ⟨fun _ => hf, by simp, by simp, hfuel⟩

/-- **The loop of `dataReceived`** does what the bytes in the buffer say. -/
lemma reads_readLines (fuel : ℕ) : ∀ t : Client, t.negotiationDone = false →
    t.buffer.length < fuel →
      Reads fuel t (LineScan.run readLine (.reading t.status []) t.buffer) := by
  induction fuel with
  | zero => exact fun t _ hfuel => absurd hfuel (Nat.not_lt_zero _)
  | succ fuel ih =>
    intro t hdone hfuel
    cases round_readLines hdone hfuel with
    | short hline hlen hrun =>
      rw [run_line_start hline]
      refine ⟨fun h => absurd h hlen, fun status l h _ => ?_, by simp, ?_⟩
      · cases h
        exact ⟨t, hrun, hdone, rfl, rfl, rfl⟩
      · exact raised_ne_some hrun _
    | long hline hlen hrun =>
      rw [run_line_start hline]
      refine ⟨fun _ => fails_of_error hrun, fun status l h hl => ?_, by simp, ?_⟩
      · cases h
        omega
      · exact raised_ne_some (hrun.trans (error_run _ _)) _
    | tooLong line x hbuffer hline hlen hrun =>
      rw [hbuffer, run_line hline, readLine, if_pos hlen, Answer.state, run_failed]
      exact reads_of_fails (fails_of_error hrun) (raised_ne_some (hrun.trans (error_run _ _)) _)
    | connects x hbuffer hstatus hrun =>
      rw [hbuffer, ← List.nil_append (cr :: _), run_line (by simp), readLine, if_neg (by simp),
        if_pos rfl, if_pos hstatus, Answer.state, run_done]
      refine ⟨fun h => h.elim, by simp, fun _ _ => ⟨_, hrun, rfl, rfl⟩,
        raised_ne_some hrun _⟩
    | refused x hbuffer hstatus hrun =>
      rw [hbuffer, ← List.nil_append (cr :: _), run_line (by simp), readLine, if_neg (by simp),
        if_pos rfl, if_neg hstatus, Answer.state, run_failed]
      have hx : x.length < fuel := by
        simp [hbuffer] at hfuel
        omega
      refine reads_of_fails ((fails_congr hrun).mpr (fails_of_failed (extends_readLines _) ?_)) ?_
      · exact ⟨.negotiation t.status t.message, by simp⟩
      · rw [raised_congr hrun]
        exact (ih { t with buffer := x, calls := _ } hdone hx).fueled
    | raises line x hbuffer hline hlen hblank hstatus hrun =>
      rw [hbuffer, run_line hline, readLine, if_neg hlen, if_neg hblank, hstatus]
      simp only [Answer.state, run_failed]
      refine reads_of_fails (Or.inl (raised_ne_none hrun)) ?_
      rw [raised_of_error hrun]
      simp
    | status line x status message hbuffer hline hlen hblank hstatus hrun =>
      rw [hbuffer, run_line hline, readLine, if_neg hlen, if_neg hblank, hstatus]
      have hx : x.length < fuel := by
        simp [hbuffer] at hfuel
        omega
      exact (ih { t with buffer := x, status := some status, message := some message } hdone
        hx).congr hrun rfl

end Magicicada.ProxyTunnel
