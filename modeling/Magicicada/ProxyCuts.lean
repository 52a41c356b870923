import Magicicada.Backlog
import Magicicada.ProxyChunks
import Magicicada.ProxyLines

/-!
Two ways of cutting the proxy's stream.

Where the cuts fall decides whether a line that ends the loop of `dataReceived` leaves chunks
enough for the lines after it, and whether bytes that follow the header stay in the buffer.
-/

namespace Magicicada.ProxyTunnel

open Errors Bytes Wire Prog LineScan

variable {f : Factory} {p : Fed} {t t' : Client} {ds ds' pre : List Bytes} {d rest x y : Bytes}
  {n : ℕ}

/-! ### Outcomes -/

/-- What became of a negotiation. -/
inductive Outcome
  | negotiating
  | established
  | failed
  deriving DecidableEq

/-- The tunnel is established when the negotiation is done, also after a failure. -/
def Fed.outcome (p : Fed) : Outcome :=
  if p.client.negotiationDone then .established
  else if p.raised = true ∨ p.client.Failed then .failed
  else .negotiating

/-! ### When the tunnel is established -/

/-- How many lines of these chunks end the loop, before the one that connects. -/
def stopsIn (ds : List Bytes) : ℕ := (taken ds.flatten).stops

/-- The line that connects is among those of the chunks, and it is come to: after each chunk there
are chunks enough for the lines in it and after it that end the loop. -/
def Connects (ds : List Bytes) : Prop := (taken ds.flatten).connects = true ∧
  ∀ pre d post, ds = pre ++ d :: post → stopsIn ds ≤ stopsIn pre + post.length

lemma flatten_snoc (ds : List Bytes) (d : Bytes) : (ds ++ [d]).flatten = ds.flatten ++ d := by
  rw [List.flatten_append, List.flatten_singleton]

lemma Connects.snoc (h : Connects ds) (d : Bytes) : Connects (ds ++ [d]) := by
  have hsame : taken (ds ++ [d]).flatten = taken ds.flatten := by
    rw [flatten_snoc]
    exact (taken_append ds.flatten d).2 h.1
  refine ⟨by rw [hsame]; exact h.1, fun pre e post hsplit => ?_⟩
  rw [stopsIn, hsame]
  rcases List.eq_nil_or_concat post with rfl | ⟨post, e', rfl⟩
  · obtain ⟨rfl, -⟩ := List.append_inj' hsplit rfl
    exact Nat.le_add_right _ _
  · rw [List.concat_eq_append, ← List.cons_append, ← List.append_assoc] at hsplit
    obtain ⟨hsplit, -⟩ := List.append_inj' hsplit rfl
    refine (h.2 pre e post hsplit).trans ?_
    simp

lemma Connects.append (h : Connects ds) (ds' : List Bytes) : Connects (ds ++ ds') := by
  induction ds' using List.reverseRecOn with
  | nil => rwa [List.append_nil]
  | append_singleton ds' d ih =>
    rw [← List.append_assoc]
    exact ih.snoc d

/-- A client that still negotiates: that many lines have ended its loop, one for a chunk, and the
lines after these are in its buffer. -/
structure Negotiating (ds : List Bytes) (t : Client) (n : ℕ) : Prop where
  done : t.negotiationDone = false
  served : Served stopsIn ds n
  waiting : lines ds.flatten = t.waiting n

lemma made_negotiating (f : Factory) : Negotiating [] (made f) 0 := by
  obtain ⟨hdone, hstatus, hbuffer, -⟩ := made_fields f
  refine ⟨hdone, served_nil rfl, ?_⟩
  rw [Client.waiting, hstatus, hbuffer]
  rfl

lemma connects_snoc_iff (h : Served stopsIn ds n) (d : Bytes) : Connects (ds ++ [d]) ↔
    (taken (ds ++ [d]).flatten).connects = true ∧ stopsIn (ds ++ [d]) ≤ n :=
  and_congr_right fun _ => (h.le_iff _).symm

/-- **A chunk**: the client comes to the line that connects, or still negotiates. -/
lemma Negotiating.receive (h : Negotiating ds t n) (d : Bytes) :
    ((after (dataReceived d) t).negotiationDone = true ∧ Connects (ds ++ [d])) ∨
      ¬Connects (ds ++ [d]) ∧ ∃ n', Negotiating (ds ++ [d]) (after (dataReceived d) t) n' := by
  let u : Client := { t with buffer := t.buffer ++ d }
  have hlines : lines (ds ++ [d]).flatten = u.waiting n := by
    rw [flatten_snoc, lines_append, h.waiting, Client.waiting, ← run_append]
    rfl
  have htaken : taken (ds ++ [d]).flatten = linesTaken (u.waiting n) := congrArg linesTaken hlines
  have hloop : Looped u n (after (dataReceived d) t) := by
    rw [after_congr (dataReceived_run h.done d)]
    exact looped_readLines _ u h.done (Nat.lt_succ_self _)
  rw [connects_snoc_iff h.served, stopsIn, htaken]
  cases hloop with
  | connects hdone hstops hconnects => exact Or.inl ⟨hdone, hconnects, hstops.le⟩
  | empties hdone hwaiting hline =>
    refine Or.inr ⟨fun hc => ?_, n, hdone, ?_, ?_⟩
    · rw [hwaiting] at hc
      exact Bool.false_ne_true hc.1
    · have hstops : stopsIn (ds ++ [d]) = n := by rw [stopsIn, htaken, hwaiting, linesTaken]
      have hserved := h.served.snoc d
      rwa [hstops, min_eq_right (Nat.le_succ n)] at hserved
    · rw [hlines, hwaiting, Client.waiting, run_line_start hline]
  | stops hdone hwaiting =>
    obtain ⟨p, l, hrun, hstops, -⟩ := run_takeLine (after (dataReceived d) t).buffer
      ⟨(after (dataReceived d) t).status, n + 1, false⟩ []
    have hp : u.waiting n = .reading p l := hwaiting.trans hrun
    rw [hp, linesTaken]
    refine Or.inr ⟨fun hc => absurd (hstops.trans hc.2) (Nat.not_succ_le_self n), n + 1, hdone,
      ?_, hlines.trans hwaiting⟩
    have hle : n + 1 ≤ stopsIn (ds ++ [d]) := by
      rw [stopsIn, htaken, hp, linesTaken]
      exact hstops
    have hserved := h.served.snoc d
    rwa [min_eq_left hle] at hserved

lemma receive_done (hdone : t.negotiationDone = true) (d : Bytes) :
    after (dataReceived d) t = { t with calls := t.calls ++ [.dataReceived d] } :=
  after_of_ok (dataReceived_done hdone d)

/-- What became of a client that was fed some chunks. -/
lemma connects_or_negotiating (f : Factory) (ds : List Bytes) :
    ((feed f ds).client.negotiationDone = true ∧ Connects ds) ∨
      ¬Connects ds ∧ ∃ n, Negotiating ds (feed f ds).client n := by
  induction ds using List.reverseRecOn with
  | nil => exact Or.inr ⟨fun h => Bool.false_ne_true h.1, 0, made_negotiating f⟩
  | append_singleton ds d ih =>
    rw [feed_snoc]
    rcases ih with ⟨hdone, hconnects⟩ | ⟨-, n, h⟩
    · refine Or.inl ⟨?_, hconnects.snoc d⟩
      show (after (dataReceived d) _).negotiationDone = true
      rw [receive_done hdone]
      exact hdone
    · exact h.receive d

/-- **The tunnel is established** just when the line that connects is come to. -/
lemma done_iff (f : Factory) (ds : List Bytes) :
    (feed f ds).client.negotiationDone = true ↔ Connects ds := by
  rcases connects_or_negotiating f ds with ⟨hdone, hconnects⟩ | ⟨hnot, n, h⟩
  · exact iff_of_true hdone hconnects
  · exact iff_of_false (by rw [h.done]; exact Bool.false_ne_true) hnot

lemma outcome_eq_established_iff : (feed f ds).outcome = .established ↔ Connects ds := by
  rw [← done_iff f, Fed.outcome]
  split
  · next h => exact iff_of_true rfl h
  · next h => exact iff_of_false (by split <;> decide) h

lemma outcome_not_connects (h : ¬Connects ds) (f : Factory) :
    (feed f ds).outcome = .failed ∧ BadCut ds ∨
      (feed f ds).outcome = .negotiating ∧ ¬BadCut ds := by
  rw [← done_iff f] at h
  rw [Fed.outcome, if_neg h]
  by_cases hbad : BadCut ds
  · exact Or.inl ⟨if_pos ((failed_iff_badCut f ds).mpr hbad), hbad⟩
  · exact Or.inr ⟨if_neg fun hf => hbad ((failed_iff_badCut f ds).mp hf), hbad⟩

/-! ### What is passed on -/

/-- The program passes nothing on. -/
def KeepsDelivered (t t' : Client) : Prop := t'.delivered = t.delivered

instance : IsPreorder Client KeepsDelivered where
  refl _ := rfl
  trans _ _ _ h1 h2 := Eq.trans h2 h1

lemma keeps_call {c : Call} (hc : c.passed = []) : Within KeepsDelivered (call c) := by
  refine within_modify fun t => ?_
  simp [KeepsDelivered, Client.delivered, hc]

lemma keeps_set {g : Client → Client} (hg : ∀ t, (g t).calls = t.calls) :
    Within KeepsDelivered (modify g : M PUnit) := by
  refine within_modify fun t => ?_
  rw [KeepsDelivered, Client.delivered, hg]
  rfl

lemma keeps_error (reason : Reason) : Within KeepsDelivered (error reason) :=
  within_bind (keeps_call rfl) fun _ => keeps_call rfl

lemma keeps_lineReceived (line : Bytes) : Within KeepsDelivered (lineReceived line) := by
  refine within_ite (fun _ => ?_) fun _ => within_bind within_get fun t => within_ite (fun _ => ?_)
    fun _ => keeps_error _
  · split
    · exact within_throw _
    · exact keeps_set fun _ => rfl
  · refine within_bind (keeps_set fun _ => rfl) fun _ => within_bind (keeps_call rfl) fun _ =>
      within_bind (keeps_call rfl) fun _ => within_bind (keeps_set fun _ => rfl) fun _ =>
        keeps_call rfl

lemma keeps_readLines (fuel : ℕ) : Within KeepsDelivered (readLines fuel) := by
  induction fuel with
  | zero => exact within_throw _
  | succ fuel ih =>
    refine within_bind within_get fun t => within_ite (fun _ => within_pure _) fun _ => ?_
    split
    · exact within_ite (fun _ => keeps_error _) fun _ => within_pure _
    · refine within_bind (keeps_set fun _ => rfl) fun _ => within_ite (fun _ => keeps_error _)
        fun _ => within_bind (keeps_lineReceived _) fun _ => ih

/-- A chunk is passed on when the tunnel is there, and otherwise nothing is. -/
lemma delivered_receive (p : Fed) (d : Bytes) : (p.receive d).client.delivered =
    p.client.delivered ++ if p.client.negotiationDone then d else [] := by
  show (after (dataReceived d) p.client).delivered = _
  by_cases hdone : p.client.negotiationDone = true
  · rw [receive_done hdone, if_pos hdone]
    simp [Client.delivered, Call.passed]
  · rw [if_neg hdone, List.append_nil,
      after_congr (dataReceived_run (by simpa using hdone) d)]
    exact keeps_readLines _ { p.client with buffer := p.client.buffer ++ d }

/-- The chunks after those with which the tunnel is established are passed on. -/
structure Passed (f : Factory) (ds pre post : List Bytes) : Prop where
  split : ds = pre ++ post
  connects : Connects pre
  first : ∀ q, q <+: ds → Connects q → pre <+: q
  delivered : (feed f ds).client.delivered = post.flatten

lemma delivered_feed (f : Factory) (ds : List Bytes) :
    (¬Connects ds → (feed f ds).client.delivered = []) ∧
    (Connects ds → ∃ pre post, Passed f ds pre post) := by
  induction ds using List.reverseRecOn with
  | nil => exact ⟨fun _ => (made_fields f).2.2.2.2, fun h => absurd h.1 Bool.false_ne_true⟩
  | append_singleton ds d ih =>
    have hreceive := delivered_receive (feed f ds) d
    rw [← feed_snoc] at hreceive
    by_cases hds : Connects ds
    · refine ⟨fun h => absurd (hds.snoc d) h, fun _ => ?_⟩
      obtain ⟨pre, post, rfl, hpre, hfirst, hdelivered⟩ := ih.2 hds
      rw [if_pos ((done_iff f _).mpr hds), hdelivered] at hreceive
      refine ⟨pre, post ++ [d], List.append_assoc .., hpre, fun q hq hc => ?_, ?_⟩
      · rcases List.prefix_concat_iff.mp hq with rfl | hq
        · rw [List.append_assoc]
          exact List.prefix_append ..
        · exact hfirst q hq hc
      · rw [hreceive, flatten_snoc]
    · rw [if_neg fun h => hds ((done_iff f _).mp h), List.append_nil, ih.1 hds] at hreceive
      refine ⟨fun _ => hreceive, fun h => ⟨ds ++ [d], [], by simp, h, fun q hq hc => ?_, hreceive⟩⟩
      rcases List.prefix_concat_iff.mp hq with rfl | ⟨post, rfl⟩
      · exact List.prefix_rfl
      · exact absurd (hc.append post) hds

/-! ### The blank line that ends the header -/

/-- A reader of lines that waits for the blank one. -/
def untilBlank (_ : Unit) (line : Bytes) : Answer Unit := if line = [] then .done else .next ⟨⟩

/-- What follows the first blank line. -/
def afterBlank (s : Bytes) : Option Bytes :=
  match LineScan.run untilBlank (.reading ⟨⟩ []) s with
  | .done rest => some rest
  | _ => none

lemma afterBlank_eq_some : afterBlank x = some rest ↔
    LineScan.run untilBlank (.reading ⟨⟩ []) x = .done rest := by
  unfold afterBlank
  cases LineScan.run untilBlank (.reading ⟨⟩ []) x <;> simp

lemma afterBlank_append (h : afterBlank x = some rest) (y : Bytes) :
    afterBlank (x ++ y) = some (rest ++ y) := by
  rw [afterBlank_eq_some] at h ⊢
  rw [run_append, h, run_done]

/-- A line that connects is blank. -/
lemma afterBlank_of_connects (x : Bytes) : ∀ (p : Taken) (l : Bytes), p.connects = false →
    (linesTaken (LineScan.run takeLine (.reading p l) x)).connects = true →
      ∃ rest, LineScan.run untilBlank (.reading ⟨⟩ l) x = .done rest := by
  induction x with
  | nil => exact fun p l hp hc => absurd (hp.symm.trans hc) Bool.false_ne_true
  | cons b x ih =>
    intro p l hp hc
    rw [run_cons, LineScan.step] at hc ⊢
    split at hc
    · next hb =>
      rw [if_pos hb]
      by_cases hblank : l.dropLast = []
      · rw [hblank, untilBlank, if_pos rfl, Answer.state, run_done]
        exact ⟨_, rfl⟩
      · rw [untilBlank, if_neg hblank]
        refine ih _ _ ?_ hc
        unfold Taken.take
        rw [if_neg (by simp [hp]), if_neg hblank]
        split_ifs <;> exact hp
    · next hb =>
      rw [if_neg hb]
      exact ih p _ hp hc

lemma Connects.afterBlank (h : Connects ds) : ∃ rest, afterBlank ds.flatten = some rest := by
  obtain ⟨rest, hrest⟩ := afterBlank_of_connects ds.flatten {} [] rfl h.1
  exact ⟨rest, afterBlank_eq_some.mpr hrest⟩

/-- What follows the first blank line begins where the line ends. -/
lemma afterBlank_cut (h : afterBlank (x ++ y) = some y) : afterBlank x = some [] := by
  rw [afterBlank_eq_some] at h ⊢
  rw [run_append] at h
  cases hx : LineScan.run untilBlank (.reading ⟨⟩ []) x with
  | done rest =>
    rw [hx, run_done, State.done.injEq, List.append_left_eq_self] at h
    rw [h]
  | reading s l =>
    rw [hx] at h
    exact absurd (run_done_shorter h) (Nat.lt_irrefl _)
  | failed =>
    rw [hx, run_failed] at h
    cases h

/-- A cut falls right after the first blank line, and the tunnel is established by the chunks
before it. -/
def CutAtBlank (ds : List Bytes) : Prop :=
  ∃ pre, pre <+: ds ∧ afterBlank pre.flatten = some [] ∧ Connects pre

lemma CutAtBlank.connects (h : CutAtBlank ds) : Connects ds := by
  obtain ⟨pre, ⟨post, rfl⟩, -, hpre⟩ := h
  exact hpre.append post

/-- What follows the header is passed on just when a cut falls right after it. -/
lemma delivered_eq_iff (f : Factory) (h : Connects ds) :
    some (feed f ds).client.delivered = afterBlank ds.flatten ↔ CutAtBlank ds := by
  obtain ⟨pre, post, hpassed⟩ := (delivered_feed f ds).2 h
  have hflat : ds.flatten = pre.flatten ++ post.flatten := by
    rw [hpassed.split, List.flatten_append]
  rw [hpassed.delivered, hflat]
  constructor
  · intro hrest
    exact ⟨pre, hpassed.split ▸ List.prefix_append .., afterBlank_cut hrest.symm, hpassed.connects⟩
  · rintro ⟨q, hq, hblank, hc⟩
    obtain ⟨z, rfl⟩ := hpassed.first q hq hc
    obtain ⟨rest, hrest⟩ := hpassed.connects.afterBlank
    -- the first chunks with which it is established have the same bytes
    have hall := afterBlank_append hrest z.flatten
    rw [← List.flatten_append, hblank, Option.some.injEq, eq_comm, List.append_eq_nil_iff] at hall
    rw [hall.1] at hrest
    rw [afterBlank_append hrest, List.nil_append]

/-! ### Two ways of cutting -/

/-- Two ways of cutting the proxy's stream come to the same, and the wrapped protocol is given
what follows the header. -/
structure SameTunnel (f : Factory) (ds ds' : List Bytes) : Prop where
  outcome : (feed f ds).outcome = (feed f ds').outcome
  delivered : (feed f ds).outcome = .established →
    (feed f ds).client.delivered = (feed f ds').client.delivered ∧
      some (feed f ds).client.delivered = afterBlank ds.flatten

/-- Where both ways establish the tunnel, both have to cut right after the header. -/
lemma sameTunnel_connects (hflat : ds.flatten = ds'.flatten) (h : Connects ds)
    (h' : Connects ds') : SameTunnel f ds ds' ↔ CutAtBlank ds ∧ CutAtBlank ds' := by
  have hout := outcome_eq_established_iff (f := f).mpr h
  have hout' := outcome_eq_established_iff (f := f).mpr h'
  rw [← delivered_eq_iff f h, ← delivered_eq_iff f h', ← hflat]
  constructor
  · intro hsame
    obtain ⟨heq, hrest⟩ := hsame.delivered hout
    exact ⟨hrest, heq ▸ hrest⟩
  · rintro ⟨hrest, hrest'⟩
    exact ⟨hout.trans hout'.symm, fun _ => ⟨Option.some.inj (hrest.trans hrest'.symm), hrest⟩⟩

/-- Where neither way does, both fail or neither. -/
lemma sameTunnel_not_connects (hflat : ds.flatten = ds'.flatten) (h : ¬Connects ds)
    (h' : ¬Connects ds') : SameTunnel f ds ds' ↔
      Bad (header ds.flatten) ∨ (TightCut ds ↔ TightCut ds') := by
  have hbad : (BadCut ds ↔ BadCut ds') ↔
      Bad (header ds.flatten) ∨ (TightCut ds ↔ TightCut ds') := by
    rw [badCut_iff, badCut_iff, ← hflat]
    tauto
  have hne : (feed f ds).outcome ≠ .established := mt outcome_eq_established_iff.mp h
  rw [← hbad]
  constructor
  · intro hsame
    rcases outcome_not_connects h f with ⟨ho, hb⟩ | ⟨ho, hb⟩ <;>
    rcases outcome_not_connects h' f with ⟨ho', hb'⟩ | ⟨ho', hb'⟩
    · exact iff_of_true hb hb'
    · exact nomatch ho.symm.trans (hsame.outcome.trans ho')
    · exact nomatch ho.symm.trans (hsame.outcome.trans ho')
    · exact iff_of_false hb hb'
  · refine fun hiff => ⟨?_, fun he => absurd he hne⟩
    rcases outcome_not_connects h f with ⟨ho, hb⟩ | ⟨ho, hb⟩ <;>
    rcases outcome_not_connects h' f with ⟨ho', hb'⟩ | ⟨ho', hb'⟩
    · exact ho.trans ho'.symm
    · exact absurd (hiff.mp hb) hb'
    · exact absurd (hiff.mpr hb') hb
    · exact ho.trans ho'.symm

/-- **Cutting the proxy's stream** another way comes to the same just when both ways have a cut
right after the first blank line, with which the tunnel is established; or neither establishes
it, and the stream fails anyway or the ways are alike in their cuts inside the CR LF of a line of
`MAX_LINE_LEN` bytes. -/
theorem sameTunnel_iff (f : Factory) {ds ds' : List Bytes} (hflat : ds.flatten = ds'.flatten) :
    SameTunnel f ds ds' ↔ (CutAtBlank ds ∧ CutAtBlank ds') ∨
      (¬Connects ds ∧ ¬Connects ds' ∧
        (Bad (header ds.flatten) ∨ (TightCut ds ↔ TightCut ds'))) := by
  by_cases h : Connects ds <;> by_cases h' : Connects ds'
  · rw [sameTunnel_connects hflat h h']
    exact ⟨Or.inl, fun hc => hc.elim id fun hn => absurd h hn.1⟩
  · refine iff_of_false (fun hsame => h' ?_) ?_
    · exact outcome_eq_established_iff.mp
        (hsame.outcome.symm.trans (outcome_eq_established_iff.mpr h))
    · exact fun hc => hc.elim (fun hb => h' hb.2.connects) fun hn => hn.1 h
  · refine iff_of_false (fun hsame => h ?_) ?_
    · exact outcome_eq_established_iff.mp
        (hsame.outcome.trans (outcome_eq_established_iff.mpr h'))
    · exact fun hc => hc.elim (fun hb => h hb.1.connects) fun hn => hn.2.1 h'
  · rw [sameTunnel_not_connects hflat h h']
    exact ⟨fun hs => Or.inr ⟨h, h', hs⟩,
      fun hc => hc.elim (fun hb => absurd hb.1.connects h) fun hn => hn.2.2⟩

/-- What a proxy says that connects. -/
def okHeader : Bytes := utf8 "HTTP/1.0 200 OK\r\n\r\n"

/-- Where no line ends the loop, the line that connects is come to. -/
lemma connects_of_stopsIn (hc : (taken ds.flatten).connects = true) (hs : stopsIn ds = 0) :
    Connects ds := ⟨hc, fun _ _ _ _ => hs ▸ Nat.zero_le _⟩

/-- A header cut in the middle, and two bytes in a chunk or two after it. -/
theorem sameTunnel_cut : SameTunnel ⟨"localhost", 443, none⟩ [okHeader, [1, 2]]
    [okHeader.take 7, okHeader.drop 7, [1], [2]] := by
  refine (sameTunnel_iff _ (by decide)).mpr (Or.inl ⟨?_, ?_⟩)
  · exact ⟨[okHeader], ⟨[[1, 2]], rfl⟩, by decide, connects_of_stopsIn (by decide) (by decide)⟩
  · exact ⟨[okHeader.take 7, okHeader.drop 7], ⟨[[1], [2]], rfl⟩, by decide,
      connects_of_stopsIn (by decide) (by decide)⟩

/-- A byte in the chunk in which the header ends is lost. -/
theorem not_sameTunnel : ¬∀ (f : Factory) (ds ds' : List Bytes), (∀ d ∈ ds, d ≠ []) →
    (∀ d ∈ ds', d ≠ []) → ds.flatten = ds'.flatten → SameTunnel f ds ds' := by
  intro h
  have hsame := h ⟨"localhost", 443, none⟩ [okHeader ++ [1]] [okHeader, [1]] (by decide) (by decide)
    (by decide)
  have hest : (feed ⟨"localhost", 443, none⟩ [okHeader ++ [1]]).outcome = .established := by decide
  exact absurd (hsame.delivered hest).1 (by decide)

end Magicicada.ProxyTunnel
