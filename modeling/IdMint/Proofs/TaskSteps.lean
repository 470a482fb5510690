import IdMint.Coordination.Task

/-! # Steps of a call that is repeated

What an answer, or the end of a sleep, can lead to while a call is repeated: said once here for all
that holds of a task from one waiting point to the next. -/

namespace IdMint.Coordination

variable {gate : Option Operation} {phase : Phase}

/-- A gate that lets an operation through does so because the session is started. -/
theorem eq_started_of_gateError? {operation : Operation}
    (h : gateError? (some operation) phase = none) : phase = .started := by
  by_cases hphase : phase = .started
  · exact hphase
  · simp only [gateError?, if_neg hphase] at h
    cases h

/-- What a call that is repeated comes to with the answer to its last attempt. -/
inductive Settles (gate : Option Operation) (phase : Phase) : Except Fault β → Outcome β → Prop
  /-- The attempt succeeds. -/
  | ok (value : β) : Settles gate phase (.ok value) (.ok value)
  /-- The gate refuses another attempt. -/
  | refused {fault : Fault} {cause : Error} (hgate : gateError? gate phase = some cause) :
    Settles gate phase (.error fault) (.error cause)
  /-- The failure is not transient, or the policy does not permit another attempt. -/
  | failed (fault : Fault) : Settles gate phase (.error fault) (.error (.coordination fault))

namespace Task

variable {request : Request β} {next : Outcome β → Program α} {alarm : Option (Alarm α)}
variable {retries since wake : Nat}

/-- An answer settles a call that is repeated, or leads to the sleep before another attempt. -/
theorem answered_trying (policy : RetryPolicy) (lasts : Nat → Nat) (now draw : Nat)
    (reply : {β : Type} → Request β → Except Fault β) :
    (∃ outcome, Settles gate phase (reply request) outcome
        ∧ answered policy lasts now draw phase reply ⟨.trying gate request retries since next, alarm⟩
          = (next outcome).advance now phase alarm)
      ∨ ∃ fault wake, reply request = .error fault
        ∧ answered policy lasts now draw phase reply ⟨.trying gate request retries since next, alarm⟩
          = (phase, ⟨.resting gate request retries since wake next, alarm⟩) := by
  simp only [answered]
  cases hreply : reply request with
  | ok value => exact .inl ⟨_, .ok value, rfl⟩
  | error fault =>
    dsimp only
    by_cases hretry : fault.isRetryable = true
    · rw [if_pos hretry]
      cases hgate : gateError? gate phase with
      | some cause => exact .inl ⟨_, .refused hgate, rfl⟩
      | none =>
        dsimp only
        cases policy.allowRetry retries (.ofMillis (now - since)) draw with
        | none => exact .inl ⟨_, .failed fault, rfl⟩
        | some sleep => exact .inr ⟨fault, _, rfl, rfl⟩
    · rw [if_neg hretry]
      exact .inl ⟨_, .failed fault, rfl⟩

/-- A transient failure after which the gate and the policy permit another attempt leads to a sleep. -/
theorem answered_of_allowRetry {policy : RetryPolicy} {lasts : Nat → Nat} {now draw : Nat}
    {fault : Fault} {span : Duration} (reply : {β : Type} → Request β → Except Fault β)
    (hreply : reply request = .error fault) (hretry : fault.isRetryable = true)
    (hgate : gateError? gate phase = none)
    (hspan : policy.allowRetry retries (.ofMillis (now - since)) draw = some span) :
    answered policy lasts now draw phase reply ⟨.trying gate request retries since next, alarm⟩
      = (phase, ⟨.resting gate request retries since (now + lasts span.millisCeil) next, alarm⟩) := by
  simp only [answered, hreply, hretry, hgate, hspan, if_true]

/-- The end of a sleep leads to another attempt, unless the gate refuses it. -/
theorem woken_resting (now : Nat) :
    (∃ cause, gateError? gate phase = some cause
        ∧ woken now phase ⟨.resting gate request retries since wake next, alarm⟩
          = (next (.error cause)).advance now phase alarm)
      ∨ gateError? gate phase = none
        ∧ woken now phase ⟨.resting gate request retries since wake next, alarm⟩
          = (phase, ⟨.trying gate request (retries + 1) since next, alarm⟩) := by
  simp only [woken]
  cases hgate : gateError? gate phase with
  | some cause => exact .inl ⟨cause, rfl, rfl⟩
  | none => exact .inr ⟨rfl, rfl⟩

end Task

end IdMint.Coordination
