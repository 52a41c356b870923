import Magicicada.Framing

/-!
How much a call of `buildMessage` does, whatever state the handler is in.

A round of the `while` may take no byte, so the length of the data alone does not bound the
rounds: a header that was complete before takes none, nor does an empty message. But such rounds
come at most two in a row, and a header takes four bytes.
-/

namespace Magicicada.Framing

open Errors Bytes Prog

variable {σ : Type} (deliver : Bytes → EStateM Exn σ PUnit)

/-- How calls of `buildMessage` end, with how deep their recursive calls may be nested: at depth
0 there is none, so the `while` takes no round. -/
inductive Builds :
    ℕ → Handler σ → Bytes → EStateM.Result Exn (Handler σ) PUnit → Prop
  /-- The `else` of the `while`. -/
  | rest {d : ℕ} {h : Handler σ} {data : Bytes} (hd : ¬h.pendingLength < data.length) :
      Builds d h data ((moreData deliver data).run h)
  /-- The recursive call raises. -/
  | raise {d : ℕ} {h t : Handler σ} {data : Bytes} {e : Exn}
      (hd : h.pendingLength < data.length)
      (hcall : Builds d h (data.take h.pendingLength) (.error e t)) :
      Builds (d + 1) h data (.error e t)
  /-- The recursive call returns, and the `while` goes on with what it left of the data. -/
  | round {d : ℕ} {h t : Handler σ} {data : Bytes} {r : EStateM.Result Exn (Handler σ) PUnit}
      (hd : h.pendingLength < data.length)
      (hcall : Builds d h (data.take h.pendingLength) (.ok ⟨⟩ t))
      (hnext : Builds (d + 1) t (data.drop h.pendingLength) r) : Builds (d + 1) h data r

/-- The handler a call leaves. -/
def left : EStateM.Result Exn (Handler σ) PUnit → Handler σ
  | .ok _ t => t
  | .error _ t => t

variable {deliver} {d d' : ℕ} {h t : Handler σ} {data : Bytes}
  {r r' : EStateM.Result Exn (Handler σ) PUnit}

/-! ### A completed part -/

/-- What becomes of a handler whose part is complete. -/
inductive Completes (h : Handler σ) : EStateM.Result Exn (Handler σ) PUnit → Prop
  /-- The size is too big, or there are not four bytes of it. -/
  | bad {e : Exn} {t : Handler σ} (hp : t.payloads = h.payloads) : Completes h (.error e t)
  | header {t : Handler σ} (hw : h.waitingFor = .size) (hw' : t.waitingFor = .message)
      (hp : t.payloads = h.payloads) : Completes h (.ok ⟨⟩ t)
  /-- A message was parsed, and it was processed or an exception raised. -/
  | message {r : EStateM.Result Exn (Handler σ) PUnit} (hw : h.waitingFor = .message)
      (hw' : (left r).waitingFor = .size) (hl : (left r).pendingLength = sizeFmtSize)
      (hp : (left r).payloads.length = h.payloads.length + 1) : Completes h r

lemma completes_finishPart (deliver : Bytes → EStateM Exn σ PUnit) (h : Handler σ) :
    Completes h ((finishPart deliver).run h) := by
  cases hw : h.waitingFor with
  | size =>
    cases hu : unpackSize h.pendingParts.flatten with
    | none =>
      have hrun : (finishPart deliver).run h =
          .error .structError { h with pendingParts := [] } := by
        simp [finishPart, hw, hu]
      rw [hrun]
      exact .bad rfl
    | some sz =>
      by_cases hbig : maxMessageSize < sz
      · have hrun : (finishPart deliver).run h =
            .error (.storageProtocolErrorSizeTooBig "message too big")
              { h with pendingParts := [], lost := h.lost + 1 } := by
          simp [finishPart, hw, hu, hbig, loseConnection]
        rw [hrun]
        exact .bad rfl
      · have hrun : (finishPart deliver).run h = .ok ⟨⟩ { h with
            pendingParts := [], pendingLength := sz, waitingFor := .message } := by
          simp [finishPart, hw, hu, hbig]
        rw [hrun]
        exact .header hw rfl rfl
  | message =>
    rw [finishPart_process hw]
    cases hp : (deliver h.pendingParts.flatten).run h.app with
    | ok a b => simpa [parseAndProcess, hp] using Completes.message hw rfl rfl (by simp [left])
    | error e b => simpa [parseAndProcess, hp] using Completes.message hw rfl rfl (by simp [left])

/-- Data of the awaited length completes the part. -/
lemma completes_moreData (deliver : Bytes → EStateM Exn σ PUnit)
    (hlen : h.pendingLength ≤ data.length) : Completes h ((moreData deliver data).run h) := by
  rw [moreData_eq, if_pos hlen]
  have hfinish := completes_finishPart deliver
    { h with pendingParts := h.pendingParts ++ [data], pendingLength := 0 }
  generalize (finishPart deliver).run { h with
    pendingParts := h.pendingParts ++ [data], pendingLength := 0 } = r at hfinish
  cases hfinish with
  | bad hp => exact .bad hp
  | header hw hw' hp => exact .header hw hw' hp
  | message hw hw' hl hp => exact .message hw hw' hl hp

/-- The recursive call of a round takes the `else` at once. -/
lemma builds_take (hd : h.pendingLength < data.length)
    (hcall : Builds deliver d h (data.take h.pendingLength) r) :
    r = (moreData deliver (data.take h.pendingLength)).run h := by
  have hlen : ¬h.pendingLength < (data.take h.pendingLength).length := by
    rw [List.length_take]
    omega
  cases hcall with
  | rest => rfl
  | raise hd' => exact absurd hd' hlen
  | round hd' => exact absurd hd' hlen

lemma completes_take (hd : h.pendingLength < data.length)
    (hcall : Builds deliver d h (data.take h.pendingLength) r) : Completes h r := by
  rw [builds_take hd hcall]
  refine completes_moreData deliver ?_
  rw [List.length_take]
  omega

/-! ### Ending -/

/-- The rounds that take no byte before one does. -/
def idleRounds (h : Handler σ) : ℕ :=
  if h.pendingLength = 0 then if h.waitingFor = .size then 2 else 1 else 0

/-- A round leaves fewer of the bytes or of the idle rounds. -/
lemma idleRounds_round (hd : h.pendingLength < data.length) (hc : Completes h (.ok ⟨⟩ t)) :
    2 * (data.drop h.pendingLength).length + idleRounds t + 1 ≤ 2 * data.length + idleRounds h := by
  rw [List.length_drop]
  cases hc with
  | header hw hw' hp =>
    have ht : idleRounds t ≤ 1 := by
      unfold idleRounds
      rw [hw']
      split <;> decide
    have hh : h.pendingLength = 0 → idleRounds h = 2 := fun h0 => by
      rw [idleRounds, if_pos h0, if_pos hw]
    omega
  | message hw hw' hl hp =>
    have ht : idleRounds t = 0 := if_neg fun h0 => absurd (hl.symm.trans h0) (by decide)
    have hh : h.pendingLength = 0 → idleRounds h = 1 := fun h0 => by
      rw [idleRounds, if_pos h0, if_neg (by rw [hw]; decide)]
    omega

/-- **With enough fuel a call ends**, and no recursive call has one of its own. -/
lemma builds_buildMessage : ∀ (fuel : ℕ) (h : Handler σ) (data : Bytes),
    (h.pendingLength < data.length → 2 * data.length + idleRounds h ≤ fuel) → 0 < fuel →
      Builds deliver 1 h data ((buildMessage deliver fuel data).run h)
  | 0, _, _, _, hpos => absurd hpos (lt_irrefl 0)
  | fuel + 1, h, data, hfuel, _ => by
    by_cases hd : h.pendingLength < data.length
    · have hfuel' := hfuel hd
      obtain ⟨fuel, rfl⟩ : ∃ m, fuel = m + 1 := ⟨fuel - 1, by omega⟩
      have hcall : Builds deliver 0 h (data.take h.pendingLength)
          ((buildMessage deliver (fuel + 1) (data.take h.pendingLength)).run h) := by
        rw [buildMessage_take fuel data hd.le]
        refine .rest ?_
        rw [List.length_take]
        omega
      rw [buildMessage_round _ hd]
      cases hr : (buildMessage deliver (fuel + 1) (data.take h.pendingLength)).run h with
      | error e t =>
        rw [run_bind_error hr]
        rw [hr] at hcall
        exact .raise hd hcall
      | ok a t =>
        rw [run_bind_ok hr]
        rw [hr] at hcall
        have hless := idleRounds_round hd (completes_take hd hcall)
        exact .round hd hcall (builds_buildMessage (fuel + 1) t _ (fun _ => by omega)
          (Nat.succ_pos fuel))
    · have hmore : (buildMessage deliver (fuel + 1) data).run h =
          (moreData deliver data).run h := by
        simp [buildMessage, hd]
      rw [hmore]
      exact .rest hd

/-- A call ends in one way. -/
lemma Builds.unique (hr : Builds deliver d h data r) (hr' : Builds deliver d' h data r') :
    r' = r := by
  induction hr generalizing d' r' with
  | rest hd =>
    cases hr' with
    | rest => rfl
    | raise hd' => exact absurd hd' hd
    | round hd' => exact absurd hd' hd
  | raise hd hcall =>
    cases hr' with
    | rest hd' => exact absurd hd hd'
    | raise _ hcall' => exact (builds_take hd hcall').trans (builds_take hd hcall).symm
    | round _ hcall' => cases (builds_take hd hcall').trans (builds_take hd hcall).symm
  | round hd hcall hnext _ ih =>
    cases hr' with
    | rest hd' => exact absurd hd hd'
    | raise _ hcall' => cases (builds_take hd hcall').trans (builds_take hd hcall).symm
    | round _ hcall' hnext' =>
      cases (builds_take hd hcall').trans (builds_take hd hcall).symm
      exact ih hnext'

/-! ### The messages processed -/

/-- The bytes of a header that need not be in the data: none of them when a whole header is
awaited, and at most all four of it otherwise. -/
def credit (h : Handler σ) : ℕ :=
  if h.waitingFor = .size ∧ sizeFmtSize ≤ h.pendingLength then 0 else sizeFmtSize

lemma credit_le (h : Handler σ) : credit h ≤ 4 := by
  unfold credit
  split <;> decide

lemma credit_message (hw : h.waitingFor = .message) : credit h = 4 :=
  if_neg fun hc => absurd (hw.symm.trans hc.1) (by decide)

/-- A completed part takes a message off the credit, or restores it. -/
lemma payloads_completes (hc : Completes h r) :
    (left r).payloads.length ≤ h.payloads.length + credit h / 4 := by
  cases hc with
  | bad hp => exact (congrArg List.length hp).le.trans (Nat.le_add_right _ _)
  | header hw hw' hp => exact (congrArg List.length hp).le.trans (Nat.le_add_right _ _)
  | message hw hw' hl hp => rw [hp, credit_message hw]

lemma payloads_moreData (deliver : Bytes → EStateM Exn σ PUnit) (h : Handler σ) (data : Bytes) :
    (left ((moreData deliver data).run h)).payloads.length ≤ h.payloads.length + credit h / 4 := by
  by_cases hlen : h.pendingLength ≤ data.length
  · exact payloads_completes (completes_moreData deliver hlen)
  · rw [moreData_eq, if_neg hlen]
    exact Nat.le_add_right _ _

/-- **Each message takes four bytes**, but for the credit. -/
lemma payloads_builds (hr : Builds deliver d h data r) :
    (left r).payloads.length ≤ h.payloads.length + (data.length + credit h) / 4 := by
  induction hr with
  | rest hd => exact (payloads_moreData deliver _ _).trans (by omega)
  | raise hd hcall => exact (payloads_completes (completes_take hd hcall)).trans (by omega)
  | @round d h t data r hd hcall hnext _ ih =>
    rw [List.length_drop] at ih
    have hcredit := credit_le t
    cases completes_take hd hcall with
    | header hw hw' hp =>
      have hh : h.pendingLength < 4 → credit h = 4 := fun hlt => if_neg fun hc =>
        absurd hlt (not_lt.mpr hc.2)
      rw [hp] at ih
      omega
    | message hw hw' hl hp =>
      have ht : credit t = 0 := if_pos ⟨hw', hl.ge⟩
      have hp' : t.payloads.length = h.payloads.length + 1 := hp
      rw [credit_message hw]
      rw [ht] at ih
      omega

/-- **`buildMessage` ends, and does bounded work**, in whatever state. However the call ends, no
recursive call makes one of its own, more fuel makes no difference, and for `n` bytes at most
`n // 4 + 1` messages are parsed and processed. -/
theorem buildMessage_bounded (deliver : Bytes → EStateM Exn σ PUnit) (h : Handler σ)
    (data : Bytes) :
    ∃ r, Builds deliver 1 h data r ∧ (∀ d r', Builds deliver d h data r' → r' = r) ∧
      (∀ fuel, enough data.length ≤ fuel → (buildMessage deliver fuel data).run h = r) ∧
      (left r).payloads.length ≤ h.payloads.length + (data.length / 4 + 1) := by
  have hbuilds : ∀ fuel, enough data.length ≤ fuel →
      Builds deliver 1 h data ((buildMessage deliver fuel data).run h) := by
    intro fuel hfuel
    unfold enough at hfuel
    refine builds_buildMessage fuel h data (fun hd => ?_) (by omega)
    have hidle : idleRounds h ≤ 2 := by
      unfold idleRounds
      split_ifs <;> omega
    omega
  have hr := hbuilds _ le_rfl
  refine ⟨_, hr, fun d r' hr' => hr.unique hr', fun fuel hfuel => hr.unique (hbuilds fuel hfuel),
    (payloads_builds hr).trans ?_⟩
  have hcredit := credit_le h
  omega

/-- A message of length zero was announced, and a header and a byte of what it announces follow. -/
theorem buildMessage_bounded_empty : ∃ r,
    Builds (fun b => modify (· ++ [b])) 1
      { waitingFor := .message, pendingLength := 0, app := [] } [0, 0, 0, 2, 7] r ∧
    (∀ fuel, 12 ≤ fuel → (buildMessage (fun b => modify (· ++ [b])) fuel [0, 0, 0, 2, 7]).run
      { waitingFor := .message, pendingLength := 0, app := [] } = r) ∧
    (left r).payloads.length ≤ 2 := by
  obtain ⟨r, hr, -, hfuel, hcount⟩ := buildMessage_bounded (fun b => modify (· ++ [b]))
    { waitingFor := .message, pendingLength := 0, app := [] } [0, 0, 0, 2, 7]
  exact ⟨r, hr, hfuel, hcount⟩

end Magicicada.Framing
