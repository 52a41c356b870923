import Magicicada.ProxyHeader

/-!
The lines the loop of `dataReceived` comes to, also after a failure.

`error` does not end the negotiation, and neither does a line that raises. But a line that is too
long ends the loop, as one that raises does, and the lines after it wait in the buffer for the
next chunk.
-/

namespace Magicicada.ProxyTunnel

open Errors Bytes Prog LineScan

variable {t t' : Client} {n fuel : ℕ} {l line x y : Bytes}

/-! ### Lines -/

/-- A line that ends the loop: it is too long, or it is not blank and has no status. -/
def Stops (line : Bytes) : Prop := maxLineLen < line.length ∨ line ≠ [] ∧ statusOf line = none

instance : DecidablePred Stops := fun _ => inferInstanceAs (Decidable (_ ∨ _))

/-- What the lines so far come to: the last status, how many of them ended the loop, and whether
a blank one came after the status 200. The lines after that one do not count. -/
structure Taken where
  status : Option Bytes := none
  stops : ℕ := 0
  connects : Bool := false

def Taken.take (p : Taken) (line : Bytes) : Taken :=
  if p.connects then p
  else if Stops line then { p with stops := p.stops + 1 }
  else if line = [] then { p with connects := decide (p.status = some connected) }
  else { p with status := (statusOf line).map Prod.fst }

/-- All lines are taken. -/
def takeLine (p : Taken) (line : Bytes) : Answer Taken := .next (p.take line)

abbrev Lines := LineScan.State Taken

/-- The lines of a stream, and what there is of the next one. -/
def lines (x : Bytes) : Lines := LineScan.run takeLine (.reading {} []) x

def linesTaken : Lines → Taken
  | .reading p _ => p
  | _ => {}

/-- What the lines of a stream come to. -/
def taken (x : Bytes) : Taken := linesTaken (lines x)

lemma take_connects {p : Taken} (hp : p.connects = true) (line : Bytes) : p.take line = p :=
  if_pos hp

lemma stops_le_take (p : Taken) (line : Bytes) : p.stops ≤ (p.take line).stops := by
  unfold Taken.take
  split_ifs
  · exact le_rfl
  · exact Nat.le_succ _
  · exact le_rfl
  · exact le_rfl

/-- More lines end the loop no less often, and change nothing after the one that connects. -/
lemma run_takeLine (x : Bytes) : ∀ (p : Taken) (l : Bytes), ∃ p' l',
    LineScan.run takeLine (.reading p l) x = .reading p' l' ∧ p.stops ≤ p'.stops ∧
      (p.connects = true → p' = p) := by
  induction x with
  | nil => exact fun p l => ⟨p, l, rfl, le_rfl, fun _ => rfl⟩
  | cons b x ih =>
    intro p l
    rw [run_cons, LineScan.step]
    split
    · obtain ⟨p', l', hrun, hstops, hsame⟩ := ih (p.take l.dropLast) []
      refine ⟨p', l', hrun, (stops_le_take p _).trans hstops, fun hp => ?_⟩
      rw [take_connects hp] at hsame
      exact hsame hp
    · exact ih p (l ++ [b])

lemma lines_eq (x : Bytes) : ∃ l, lines x = .reading (taken x) l := by
  obtain ⟨p, l, hrun, -⟩ := run_takeLine x {} []
  have hlines : lines x = .reading p l := hrun
  exact ⟨l, by rw [taken, hlines, linesTaken]⟩

lemma lines_append (x y : Bytes) : lines (x ++ y) = LineScan.run takeLine (lines x) y :=
  run_append ..

lemma taken_append (x y : Bytes) : (taken x).stops ≤ (taken (x ++ y)).stops ∧
    ((taken x).connects = true → taken (x ++ y) = taken x) := by
  obtain ⟨l, hl⟩ := lines_eq x
  obtain ⟨p, l', hrun, hstops, hsame⟩ := run_takeLine y (taken x) l
  have hlines : lines (x ++ y) = .reading p l' := by rw [lines_append, hl, hrun]
  rw [show taken (x ++ y) = p by rw [taken, hlines, linesTaken]]
  exact ⟨hstops, hsame⟩

/-! ### The loop -/

/-- What the lines in the buffer come to when that many have ended the loop before. -/
def Client.waiting (t : Client) (n : ℕ) : Lines :=
  LineScan.run takeLine (.reading ⟨t.status, n, false⟩ []) t.buffer

/-- The loop takes a line. -/
lemma waiting_line (hbuffer : t.buffer = line ++ cr :: lf :: x) (hline : ¬[cr, lf] <:+: line)
    (n : ℕ) : t.waiting n =
      LineScan.run takeLine (.reading (Taken.take ⟨t.status, n, false⟩ line) []) x := by
  rw [Client.waiting, hbuffer, run_line hline]
  rfl

lemma waiting_blank (hbuffer : t.buffer = cr :: lf :: x) (n : ℕ) : t.waiting n =
    LineScan.run takeLine (.reading (Taken.take ⟨t.status, n, false⟩ []) []) x := by
  have hblank : t.buffer = [] ++ cr :: lf :: x := hbuffer
  exact waiting_line hblank (by simp) n

lemma waiting_stops (hbuffer : t.buffer = line ++ cr :: lf :: x) (hline : ¬[cr, lf] <:+: line)
    (hstops : Stops line) (n : ℕ) :
    t.waiting n = Client.waiting { t with buffer := x } (n + 1) := by
  rw [waiting_line hbuffer hline, Taken.take, if_neg Bool.false_ne_true, if_pos hstops]
  rfl

/-- The loop of `dataReceived` from one state of the client to another one: it has come to the
line that connects, or to the end of the lines in the buffer, or to a line that ends it. -/
inductive Looped (t : Client) (n : ℕ) (t' : Client) : Prop
  | connects (hdone : t'.negotiationDone = true) (hstops : (linesTaken (t.waiting n)).stops = n)
      (hconnects : (linesTaken (t.waiting n)).connects = true)
  | empties (hdone : t'.negotiationDone = false)
      (hwaiting : t.waiting n = .reading ⟨t'.status, n, false⟩ t'.buffer)
      (hline : ¬[cr, lf] <:+: t'.buffer)
  | stops (hdone : t'.negotiationDone = false) (hwaiting : t.waiting n = t'.waiting (n + 1))

lemma Looped.congr {u : Client} (h : Looped u n t') (hwaiting : t.waiting n = u.waiting n) :
    Looped t n t' := by
  cases h with
  | connects hdone hstops hconnects =>
    exact .connects hdone (hwaiting ▸ hstops) (hwaiting ▸ hconnects)
  | empties hdone hread hline => exact .empties hdone (hwaiting.trans hread) hline
  | stops hdone hread => exact .stops hdone (hwaiting.trans hread)

/-- **The loop of `dataReceived`** takes the lines in the buffer up to one that ends it. -/
lemma looped_readLines (fuel : ℕ) : ∀ t : Client, t.negotiationDone = false →
    t.buffer.length < fuel → Looped t n (after (readLines fuel) t) := by
  induction fuel with
  | zero => exact fun t _ hfuel => absurd hfuel (Nat.not_lt_zero _)
  | succ fuel ih =>
    intro t hdone hfuel
    cases round_readLines hdone hfuel with
    | short hline hlen hrun =>
      rw [after_of_ok hrun]
      exact .empties hdone (run_line_start hline) hline
    | long hline hlen hrun =>
      rw [after_of_ok (hrun.trans (error_run _ _))]
      exact .empties hdone (run_line_start hline) hline
    | tooLong line x hbuffer hline hlen hrun =>
      rw [after_of_ok (hrun.trans (error_run _ _))]
      exact .stops hdone (waiting_stops hbuffer hline (.inl hlen) n)
    | connects x hbuffer hstatus hrun =>
      rw [after_of_ok hrun]
      have htake : Taken.take ⟨t.status, n, false⟩ [] = ⟨t.status, n, true⟩ := by
        rw [Taken.take, if_neg Bool.false_ne_true, if_neg (by simp [Stops]), if_pos rfl, hstatus]
        rfl
      have hwaiting := waiting_blank hbuffer n
      rw [htake] at hwaiting
      obtain ⟨p, l, hp, -, hsame⟩ := run_takeLine x ⟨t.status, n, true⟩ []
      rw [hp, hsame rfl] at hwaiting
      exact .connects rfl (by rw [hwaiting, linesTaken]) (by rw [hwaiting, linesTaken])
    | refused x hbuffer hstatus hrun =>
      rw [after_congr hrun]
      have hx : x.length < fuel := by
        simp [hbuffer] at hfuel
        omega
      refine (ih { t with buffer := x, calls := _ } hdone hx).congr ?_
      rw [waiting_blank hbuffer, Taken.take, if_neg Bool.false_ne_true,
        if_neg (by simp [Stops]), if_pos rfl, decide_eq_false hstatus]
      rfl
    | raises line x hbuffer hline hlen hblank hstatus hrun =>
      rw [after_of_error hrun]
      exact .stops hdone (waiting_stops hbuffer hline (.inr ⟨hblank, hstatus⟩) n)
    | status line x status message hbuffer hline hlen hblank hstatus hrun =>
      rw [after_congr hrun]
      have hx : x.length < fuel := by
        simp [hbuffer] at hfuel
        omega
      refine (ih { t with buffer := x, status := some status, message := some message } hdone
        hx).congr ?_
      have hgoes : ¬Stops line := by simp [Stops, hlen, hstatus]
      rw [waiting_line hbuffer hline, Taken.take, if_neg Bool.false_ne_true, if_neg hgoes,
        if_neg hblank, hstatus]
      rfl

end Magicicada.ProxyTunnel
