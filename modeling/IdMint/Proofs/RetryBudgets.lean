import Mathlib.Algebra.Order.Floor.Div
import Mathlib.Data.ENat.Lattice
import IdMint.Proofs.DirectRuns

/-! # How often a call is repeated

A call is repeated until an answer settles it, the policy gives up, or the gate refuses another attempt.
Where only the sleeps take time, a policy has a budget of retries that does not depend on the answers,
and `Trial.ByBudget` tells from it, from the number of failures before the first answer that settles the
call, and from what the gate says, how many attempts there are and what comes of them. A trial repeats a
call without a session around it, on any clock; on the clock of a task, whose sleeps last whole
milliseconds, the task goes through its attempts as the trial says: `Task.Follows`. -/

namespace IdMint

/-! ## Budgets -/

namespace RetryPolicy

variable {policy : RetryPolicy} {lasts : Duration → Duration} {retries : Nat} {elapsed span : Duration}

/-- The number of retries that a policy permits for one call, where nothing but sleeps takes time and a
sleep lasts as `lasts` tells. -/
noncomputable def budget (lasts : Duration → Duration) : RetryPolicy → ℕ∞
  | exponentialBackoff _ maxRetries | boundedExponentialBackoff _ _ maxRetries =>
    (min maxRetries.toNat backoffLimit : Nat)
  | nTimes count _ => count.toNat
  | forever _ => ⊤
  | untilElapsed limit sleep =>
    if (lasts sleep).nanos = 0 then if limit.nanos = 0 then 0 else ⊤
    else (limit.nanos ⌈/⌉ (lasts sleep).nanos : Nat)

/-- The time that has passed after so many retries, as far as the policy looks at it. -/
def OnTime (policy : RetryPolicy) (lasts : Duration → Duration) (retries : Nat) (elapsed : Duration) :
    Prop :=
  ∀ limit sleep, policy = .untilElapsed limit sleep → elapsed.nanos = retries * (lasts sleep).nanos

theorem onTime_zero : policy.OnTime lasts 0 .zero := fun _ _ _ => (Nat.zero_mul _).symm

/-- After another sleep the time is right for another retry. -/
theorem OnTime.next (h : policy.OnTime lasts retries elapsed) {draw : Nat}
    (hallow : policy.allowRetry retries elapsed draw = some span) :
    policy.OnTime lasts (retries + 1) ⟨elapsed.nanos + (lasts span).nanos⟩ := by
  rintro limit sleep rfl
  obtain ⟨-, hspan⟩ := Option.ite_none_right_eq_some.mp hallow
  rw [h limit sleep rfl, Option.some.inj hspan, Nat.succ_mul]

/-- The retries within its budget are those that a policy permits. -/
theorem isSome_allowRetry_iff (h : policy.OnTime lasts retries elapsed) (draw : Nat) :
    (policy.allowRetry retries elapsed draw).isSome ↔ retries < policy.budget lasts := by
  cases policy with
  | exponentialBackoff | boundedExponentialBackoff | nTimes =>
    simp only [allowRetry, budget, ENat.natCast_lt_natCast]
    split <;> simp [*]
  | forever => simp [allowRetry, budget]
  | untilElapsed limit sleep =>
    have helapsed := h limit sleep rfl
    simp only [allowRetry, budget, Duration.lt_def, helapsed]
    by_cases hzero : (lasts sleep).nanos = 0
    · rw [if_pos hzero, hzero, Nat.mul_zero]
      by_cases hlimit : limit.nanos = 0 <;> simp [hlimit, Nat.pos_iff_ne_zero]
    · have hceil : retries < limit.nanos ⌈/⌉ (lasts sleep).nanos
          ↔ retries * (lasts sleep).nanos < limit.nanos := by
        rw [← not_le, ceilDiv_le_iff_le_mul (Nat.pos_of_ne_zero hzero), not_le, Nat.mul_comm]
      rw [if_neg hzero, ENat.natCast_lt_natCast, hceil]
      split <;> simp [*]

/-- A counter of 32 bits does for the retries within the budget: a policy whose budget is greater does
not look at it. -/
theorem allowRetry_mod (h : retries ≤ policy.budget lasts) (elapsed : Duration) (draw : Nat) :
    policy.allowRetry (retries % 2 ^ 32) elapsed draw = policy.allowRetry retries elapsed draw := by
  cases policy with
  | exponentialBackoff base maxRetries | boundedExponentialBackoff base cap maxRetries =>
    have hlt : retries < 2 ^ 32 :=
      (ENat.natCast_le_natCast.mp h).trans_lt ((Nat.min_le_left _ _).trans_lt maxRetries.toNat_lt)
    rw [Nat.mod_eq_of_lt hlt]
  | nTimes count =>
    have hlt : retries < 2 ^ 32 := (ENat.natCast_le_natCast.mp h).trans_lt count.toNat_lt
    rw [Nat.mod_eq_of_lt hlt]
  | forever | untilElapsed => rfl

end RetryPolicy

namespace Coordination

/-! ## Trials -/

/-- What a call that is repeated meets with. -/
structure Trial (β : Type) where
  /-- The answer to each attempt. -/
  answer : Nat → Except Fault β
  /-- The random number that is drawn when an attempt has failed. -/
  draw : Nat → Nat
  /-- What the gate says each time: an error, or nothing where it permits another attempt. It can be
  asked twice for each attempt, before the sleep and after it. -/
  gate : Nat → Option Error

/-- How the repetition of a call ends: after so many attempts and so many questions to the gate. -/
structure Ending (β : Type) where
  attempts : Nat
  asked : Nat
  outcome : Outcome β

namespace Trial

variable {t : Trial β} {policy : RetryPolicy} {lasts : Duration → Duration}

/-- The attempt after so many retries: the repetition ends with it, or goes on after a sleep. -/
def round (t : Trial β) (policy : RetryPolicy) (retries : Nat) (elapsed : Duration) :
    Ending β ⊕ Duration :=
  match t.answer retries with
  | .ok value => .inl ⟨retries + 1, 2 * retries, .ok value⟩
  | .error fault =>
    if fault.isRetryable then
      match t.gate (2 * retries) with
      | some error => .inl ⟨retries + 1, 2 * retries + 1, .error error⟩
      | none =>
        match policy.allowRetry retries elapsed (t.draw retries) with
        | none => .inl ⟨retries + 1, 2 * retries + 1, .error (.coordination fault)⟩
        | some span =>
          match t.gate (2 * retries + 1) with
          | some error => .inl ⟨retries + 1, 2 * retries + 2, .error error⟩
          | none => .inr span
    else .inl ⟨retries + 1, 2 * retries, .error (.coordination fault)⟩

/-- Repeats a call: its end, if it comes within a number of attempts. -/
def run (t : Trial β) (policy : RetryPolicy) (lasts : Duration → Duration) :
    (fuel retries : Nat) → (elapsed : Duration) → Option (Ending β)
  | 0, _, _ => none
  | fuel + 1, retries, elapsed =>
    match t.round policy retries elapsed with
    | .inl ending => some ending
    | .inr span => t.run policy lasts fuel (retries + 1) ⟨elapsed.nanos + (lasts span).nanos⟩

/-- The repetition of a call ends so. -/
def Ends (t : Trial β) (policy : RetryPolicy) (lasts : Duration → Duration) (ending : Ending β) : Prop :=
  ∃ enough, ∀ fuel, enough ≤ fuel → t.run policy lasts fuel 0 .zero = some ending

/-- The repetition of a call never ends. -/
def Endless (t : Trial β) (policy : RetryPolicy) (lasts : Duration → Duration) : Prop :=
  ∀ fuel, t.run policy lasts fuel 0 .zero = none

/-- The number of failures before the first answer that settles the call; infinite where there is no
such answer. -/
noncomputable def failures (t : Trial β) : ℕ∞ :=
  sInf {n | ∃ i : Nat, n = i ∧ (Fault.settled? (t.answer i)).isSome}

/-- Whether the gate is asked once more when it has been asked `j` times and has always let the call
through: an attempt failed before the call was settled, and a sleep before the question was permitted. -/
def Asks (t : Trial β) (policy : RetryPolicy) (lasts : Duration → Duration) (j : Nat) : Prop :=
  (j / 2 : Nat) < t.failures ∧ ((j + 1) / 2 : Nat) ≤ policy.budget lasts

/-- How often a call is repeated, and what comes of it. -/
structure ByBudget (t : Trial β) (policy : RetryPolicy) (lasts : Duration → Duration) : Prop where
  /-- Where the first answer that settles the call comes within the budget, the call ends with it. -/
  settled (hgate : ∀ j, t.Asks policy lasts j → t.gate j = none) {k : Nat} (hk : t.failures = k)
    (hbudget : k ≤ policy.budget lasts) :
    ∃ outcome, Fault.settled? (t.answer k) = some outcome
      ∧ t.Ends policy lasts ⟨k + 1, 2 * k, outcome⟩
  /-- Where it does not, the call ends with the failure that uses the budget up. -/
  givenUp (hgate : ∀ j, t.Asks policy lasts j → t.gate j = none) {b : Nat}
    (hb : policy.budget lasts = b) (hfailures : b < t.failures) :
    ∃ fault, t.answer b = .error fault ∧ fault.isRetryable
      ∧ t.Ends policy lasts ⟨b + 1, 2 * b + 1, .error (.coordination fault)⟩
  /-- Without an answer that settles the call and without a limit to the budget there is no end. -/
  endless (hgate : ∀ j, t.Asks policy lasts j → t.gate j = none) (hfailures : t.failures = ⊤)
    (hbudget : policy.budget lasts = ⊤) : t.Endless policy lasts
  /-- There is no end only then. -/
  unlimited (h : t.Endless policy lasts) : t.failures = ⊤ ∧ policy.budget lasts = ⊤
  /-- The first error of the gate is what the call ends with, and there is no other attempt. -/
  refused {j : Nat} {error : Error} (hasks : t.Asks policy lasts j) (hbefore : ∀ i < j, t.gate i = none)
    (herror : t.gate j = some error) : t.Ends policy lasts ⟨j / 2 + 1, j + 1, .error error⟩

-- two retries, before and after which the gate is asked, and a last failure
example : (⟨fun _ => .error .connectionLoss, fun _ => 0, fun _ => none⟩ : Trial Unit).run
    (.nTimes 2 .zero) id 5 0 .zero = some ⟨3, 5, .error (.coordination .connectionLoss)⟩ := rfl

/-! ### Attempts that are made -/

/-- The attempt after so many retries is made, when so much time has passed. -/
inductive Reaches (t : Trial β) (policy : RetryPolicy) (lasts : Duration → Duration) :
    Nat → Duration → Prop
  | first : Reaches t policy lasts 0 .zero
  | again {retries : Nat} {elapsed span : Duration} (h : Reaches t policy lasts retries elapsed)
    (hround : t.round policy retries elapsed = .inr span) :
    Reaches t policy lasts (retries + 1) ⟨elapsed.nanos + (lasts span).nanos⟩

variable {retries : Nat} {elapsed span : Duration}

/-- A run goes through the attempts that are made. -/
theorem Reaches.run_eq (h : t.Reaches policy lasts retries elapsed) (fuel : Nat) :
    t.run policy lasts (fuel + retries) 0 .zero = t.run policy lasts fuel retries elapsed := by
  induction h generalizing fuel with
  | first => rfl
  | @again retries elapsed span _ hround ih =>
    rw [show fuel + (retries + 1) = fuel + 1 + retries by omega, ih, run, hround]

theorem Reaches.ends (h : t.Reaches policy lasts retries elapsed) {ending : Ending β}
    (hround : t.round policy retries elapsed = .inl ending) : t.Ends policy lasts ending := by
  refine ⟨retries + 1, fun fuel hfuel => ?_⟩
  obtain ⟨rest, rfl⟩ := Nat.exists_eq_add_of_le hfuel
  rw [show retries + 1 + rest = rest + 1 + retries by omega, h.run_eq, run, hround]

theorem endless_of_reaches (h : ∀ n, ∃ elapsed, t.Reaches policy lasts n elapsed) :
    t.Endless policy lasts := by
  intro fuel
  obtain ⟨elapsed, hreaches⟩ := h fuel
  rw [← Nat.zero_add fuel, hreaches.run_eq, run]

/-- The attempts before one that is made are made as well. -/
theorem Reaches.of_le {n : Nat} (h : t.Reaches policy lasts retries elapsed) (hle : n ≤ retries) :
    ∃ before, t.Reaches policy lasts n before := by
  induction h with
  | first => exact ⟨.zero, Nat.le_zero.mp hle ▸ .first⟩
  | @again retries elapsed span h hround ih =>
    rcases Nat.le_succ_iff.mp hle with hle | rfl
    · exact ih hle
    · exact ⟨_, h.again hround⟩

/-- A run that comes to an end does so with an attempt that is made. -/
theorem Reaches.exists_last {fuel : Nat} {ending : Ending β} (h : t.Reaches policy lasts retries elapsed)
    (hrun : t.run policy lasts fuel retries elapsed = some ending) :
    ∃ n last, t.Reaches policy lasts n last ∧ t.round policy n last = .inl ending := by
  induction fuel generalizing retries elapsed with
  | zero => cases hrun
  | succ fuel ih =>
    rw [run] at hrun
    split at hrun
    · next hround => exact ⟨_, _, h, hround.trans (congrArg Sum.inl (Option.some.inj hrun))⟩
    · next hround => exact ih (h.again hround) hrun

theorem Ends.exists_reaches {ending : Ending β} (h : t.Ends policy lasts ending) :
    ∃ n last, t.Reaches policy lasts n last ∧ t.round policy n last = .inl ending := by
  obtain ⟨enough, hends⟩ := h
  exact Reaches.first.exists_last (hends enough le_rfl)

/-- Where there is no end, all attempts are made. -/
theorem Endless.reaches (h : t.Endless policy lasts) (n : Nat) :
    ∃ elapsed, t.Reaches policy lasts n elapsed := by
  induction n with
  | zero => exact ⟨.zero, .first⟩
  | succ n ih =>
    obtain ⟨elapsed, hreaches⟩ := ih
    cases hround : t.round policy n elapsed with
    | inl ending =>
      obtain ⟨enough, hends⟩ := hreaches.ends hround
      cases (hends enough le_rfl).symm.trans (h enough)
    | inr span => exact ⟨_, hreaches.again hround⟩

/-- The end of a repetition counts the attempt with which it ends. -/
theorem attempts_of_inl {ending : Ending β} (h : t.round policy retries elapsed = .inl ending) :
    ending.attempts = retries + 1 := by
  unfold round at h
  grind

theorem Ends.not_endless {ending : Ending β} (h : t.Ends policy lasts ending) :
    ¬ t.Endless policy lasts := by
  obtain ⟨enough, hends⟩ := h
  intro hendless
  cases (hends enough le_rfl).symm.trans (hendless enough)

/-- An answer that settles the call ends the repetition, and nobody asks the gate. -/
theorem round_of_settled {outcome : Outcome β}
    (h : Fault.settled? (t.answer retries) = some outcome) :
    t.round policy retries elapsed = .inl ⟨retries + 1, 2 * retries, outcome⟩ := by
  unfold round
  grind [Fault.settled?]

/-- After a transient failure the gate is asked, then the policy, and then the gate again. -/
theorem round_of_transient {fault : Fault} (hanswer : t.answer retries = .error fault)
    (hretry : fault.isRetryable = true) :
    t.round policy retries elapsed = match t.gate (2 * retries) with
      | some error => .inl ⟨retries + 1, 2 * retries + 1, .error error⟩
      | none =>
        match policy.allowRetry retries elapsed (t.draw retries) with
        | none => .inl ⟨retries + 1, 2 * retries + 1, .error (.coordination fault)⟩
        | some span =>
          match t.gate (2 * retries + 1) with
          | some error => .inl ⟨retries + 1, 2 * retries + 2, .error error⟩
          | none => .inr span := by
  simp only [round, hanswer, hretry, if_true]

/-- The repetition goes on where the attempt fails transiently, the policy permits another one, and the
gate lets it through both times. -/
theorem round_eq_inr_iff :
    t.round policy retries elapsed = .inr span
      ↔ (∃ fault, t.answer retries = .error fault ∧ fault.isRetryable = true)
        ∧ t.gate (2 * retries) = none
        ∧ policy.allowRetry retries elapsed (t.draw retries) = some span
        ∧ t.gate (2 * retries + 1) = none := by
  unfold round
  grind

/-- The time that has passed when an attempt is made is the time of the sleeps before it. -/
theorem Reaches.onTime (h : t.Reaches policy lasts retries elapsed) :
    policy.OnTime lasts retries elapsed := by
  induction h with
  | first => exact RetryPolicy.onTime_zero
  | again _ hround ih => exact ih.next (round_eq_inr_iff.mp hround).2.2.1

/-- An attempt that is made is within the budget of retries. -/
theorem Reaches.le_budget (h : t.Reaches policy lasts retries elapsed) :
    retries ≤ policy.budget lasts := by
  cases h with
  | first => exact zero_le
  | @again before elapsed span hbefore hround =>
    obtain ⟨-, -, hspan, -⟩ := round_eq_inr_iff.mp hround
    have hlt : before < policy.budget lasts :=
      (RetryPolicy.isSome_allowRetry_iff hbefore.onTime (t.draw before)).mp
        (Option.isSome_of_eq_some hspan)
    exact Order.add_one_le_of_lt hlt

/-- A repetition that counts its retries with 32 bits is answered by the policy as this one. -/
theorem Reaches.allowRetry_mod (h : t.Reaches policy lasts retries elapsed) (draw : Nat) :
    policy.allowRetry (retries % 2 ^ 32) elapsed draw = policy.allowRetry retries elapsed draw :=
  RetryPolicy.allowRetry_mod h.le_budget elapsed draw

/-! ### Failures, questions and attempts -/

/-- Every answer before the one that settles the call is a transient failure. -/
theorem transient_of_lt_failures {i : Nat} (h : i < t.failures) :
    ∃ fault, t.answer i = .error fault ∧ fault.isRetryable = true := by
  apply exists_transient_of_settled?
  by_contra hsome
  have hle : t.failures ≤ i := sInf_le ⟨i, rfl, Option.isSome_iff_ne_none.mpr hsome⟩
  exact absurd hle (not_le.mpr h)

/-- The answer behind all these failures settles the call. -/
theorem exists_settled_of_failures {k : Nat} (h : t.failures = k) :
    ∃ outcome, Fault.settled? (t.answer k) = some outcome := by
  have hnonempty : {n : ℕ∞ | ∃ i : Nat, n = i ∧ (Fault.settled? (t.answer i)).isSome}.Nonempty := by
    by_contra hempty
    rw [failures, Set.not_nonempty_iff_eq_empty.mp hempty, sInf_empty] at h
    exact ENat.top_ne_natCast k h
  obtain ⟨i, hi, hsettled⟩ := csInf_mem hnonempty
  obtain rfl : k = i := ENat.natCast_inj.mp (h.symm.trans hi)
  exact Option.isSome_iff_exists.mp hsettled

/-- Whoever is asked a question has been asked all questions before. -/
theorem Asks.of_le {i j : Nat} (h : t.Asks policy lasts j) (hle : i ≤ j) : t.Asks policy lasts i :=
  ⟨(Nat.cast_le.mpr (by omega)).trans_lt h.1, (Nat.cast_le.mpr (by omega)).trans h.2⟩

/-- Within the failures and the budget, and as long as the gate lets the call through, every attempt is
made. -/
theorem exists_reaches {n : Nat} (hfailures : n ≤ t.failures) (hbudget : n ≤ policy.budget lasts)
    (hgate : ∀ j < 2 * n, t.gate j = none) : ∃ elapsed, t.Reaches policy lasts n elapsed := by
  induction n with
  | zero => exact ⟨.zero, .first⟩
  | succ n ih =>
    have hlt : (n : ℕ∞) < (n + 1 : Nat) := Nat.cast_lt.mpr n.lt_succ_self
    obtain ⟨elapsed, hreaches⟩ := ih (hlt.le.trans hfailures) (hlt.le.trans hbudget)
      fun j hj => hgate j (by omega)
    obtain ⟨span, hspan⟩ := Option.isSome_iff_exists.mp
      ((RetryPolicy.isSome_allowRetry_iff hreaches.onTime (t.draw n)).mpr (hlt.trans_le hbudget))
    exact ⟨_, hreaches.again (round_eq_inr_iff.mpr ⟨transient_of_lt_failures (hlt.trans_le hfailures),
      hgate _ (by omega), hspan, hgate _ (by omega)⟩)⟩

/-! ### Ends -/

theorem ends_settled (hgate : ∀ j, t.Asks policy lasts j → t.gate j = none) {k : Nat}
    (hk : t.failures = k) (hbudget : k ≤ policy.budget lasts) :
    ∃ outcome, Fault.settled? (t.answer k) = some outcome
      ∧ t.Ends policy lasts ⟨k + 1, 2 * k, outcome⟩ := by
  obtain ⟨outcome, hsettled⟩ := exists_settled_of_failures hk
  have hasks {j : Nat} (hj : j < 2 * k) : t.Asks policy lasts j :=
    ⟨hk ▸ Nat.cast_lt.mpr (by omega), (Nat.cast_le.mpr (by omega)).trans hbudget⟩
  obtain ⟨elapsed, hreaches⟩ := exists_reaches hk.ge hbudget fun j hj => hgate j (hasks hj)
  exact ⟨outcome, hsettled, hreaches.ends (round_of_settled hsettled)⟩

theorem ends_givenUp (hgate : ∀ j, t.Asks policy lasts j → t.gate j = none) {b : Nat}
    (hb : policy.budget lasts = b) (hfailures : b < t.failures) :
    ∃ fault, t.answer b = .error fault ∧ fault.isRetryable
      ∧ t.Ends policy lasts ⟨b + 1, 2 * b + 1, .error (.coordination fault)⟩ := by
  obtain ⟨fault, hfault, hretry⟩ := transient_of_lt_failures hfailures
  have hasks {j : Nat} (hj : j < 2 * b + 1) : t.Asks policy lasts j :=
    ⟨(Nat.cast_le.mpr (by omega)).trans_lt hfailures, hb ▸ Nat.cast_le.mpr (by omega)⟩
  obtain ⟨elapsed, hreaches⟩ := exists_reaches hfailures.le hb.ge fun j hj => hgate j (hasks (by omega))
  have hstop : policy.allowRetry b elapsed (t.draw b) = none := by
    rw [← Option.not_isSome_iff_eq_none, RetryPolicy.isSome_allowRetry_iff hreaches.onTime, hb]
    exact lt_irrefl _
  refine ⟨fault, hfault, hretry, hreaches.ends ?_⟩
  rw [round_of_transient hfault hretry, hgate _ (hasks (Nat.lt_succ_self _)), hstop]

theorem ends_refused {j : Nat} {error : Error} (hasks : t.Asks policy lasts j)
    (hbefore : ∀ i < j, t.gate i = none) (herror : t.gate j = some error) :
    t.Ends policy lasts ⟨j / 2 + 1, j + 1, .error error⟩ := by
  obtain ⟨hfailures, hbudget⟩ := hasks
  obtain ⟨fault, hfault, hretry⟩ := transient_of_lt_failures hfailures
  -- the gate is asked before a sleep or after one
  obtain ⟨i, rfl | rfl⟩ := Nat.even_or_odd' j
  · rw [show 2 * i / 2 = i by omega] at *
    rw [show (2 * i + 1) / 2 = i by omega] at hbudget
    obtain ⟨elapsed, hreaches⟩ := exists_reaches hfailures.le hbudget hbefore
    refine hreaches.ends ?_
    rw [round_of_transient hfault hretry, herror]
  · rw [show (2 * i + 1) / 2 = i by omega] at *
    rw [show (2 * i + 1 + 1) / 2 = i + 1 by omega] at hbudget
    have hlt : (i : ℕ∞) < policy.budget lasts := (Nat.cast_lt.mpr i.lt_succ_self).trans_le hbudget
    obtain ⟨elapsed, hreaches⟩ := exists_reaches hfailures.le hlt.le fun j hj => hbefore j (by omega)
    obtain ⟨span, hspan⟩ := Option.isSome_iff_exists.mp
      ((RetryPolicy.isSome_allowRetry_iff hreaches.onTime (t.draw i)).mpr hlt)
    refine hreaches.ends ?_
    rw [round_of_transient hfault hretry, hbefore (2 * i) (by omega), hspan, herror]

/-- The repetition of a call that never ends has no answer that settles the call, and an unlimited
budget. -/
theorem Endless.unlimited (h : t.Endless policy lasts) :
    t.failures = ⊤ ∧ policy.budget lasts = ⊤ := by
  by_cases hgate : ∀ j, t.Asks policy lasts j → t.gate j = none
  · rcases lt_or_ge (policy.budget lasts) t.failures with hlt | hle
    · obtain ⟨b, hb⟩ := ENat.ne_top_iff_exists.mp hlt.ne_top
      obtain ⟨fault, -, -, hends⟩ := ends_givenUp hgate hb.symm (hb ▸ hlt)
      exact absurd h hends.not_endless
    · by_cases htop : t.failures = ⊤
      · exact ⟨htop, top_le_iff.mp (htop ▸ hle)⟩
      · obtain ⟨k, hk⟩ := ENat.ne_top_iff_exists.mp htop
        obtain ⟨outcome, -, hends⟩ := ends_settled hgate hk.symm (hk ▸ hle)
        exact absurd h hends.not_endless
  · -- the first error of the gate would be an end
    obtain ⟨j, hj⟩ := not_forall.mp hgate
    obtain ⟨hasks, hj⟩ := Classical.not_imp.mp hj
    have hexists : ∃ j, t.gate j ≠ none := ⟨j, hj⟩
    obtain ⟨error, herror⟩ := Option.ne_none_iff_exists'.mp (Nat.find_spec hexists)
    have hends := ends_refused (hasks.of_le (Nat.find_min' hexists hj))
      (fun i hi => not_not.mp (Nat.find_min hexists hi)) herror
    exact absurd h hends.not_endless

/-- What comes of the repetition of a call is told by the budget of the policy. -/
theorem byBudget (t : Trial β) (policy : RetryPolicy) (lasts : Duration → Duration) :
    t.ByBudget policy lasts where
  settled := ends_settled
  givenUp := ends_givenUp
  endless hgate hfailures hbudget := endless_of_reaches fun _ =>
    exists_reaches (hfailures ▸ le_top) (hbudget ▸ le_top) fun j _ =>
      hgate j ⟨hfailures ▸ ENat.natCast_lt_top _, hbudget ▸ le_top⟩
  unlimited := Endless.unlimited
  refused := ends_refused

end Trial

/-! ## Tasks -/

/-- What a task that repeats a call meets with: the answers to its attempts, the random numbers, and the
phases in which the session is when its gate is asked. -/
structure Encounters where
  reply : Nat → {γ : Type} → Request γ → Except Fault γ
  draw : Nat → Nat
  phase : Nat → Phase

/-- The trial that a call of a task is put to. -/
def Encounters.trial (met : Encounters) (gate : Option Operation) (request : Request β) : Trial β where
  answer i := met.reply i request
  draw := met.draw
  gate j := gateError? gate (met.phase j)

/-- How long the sleeps of a task last, where a sleep of so many whole milliseconds lasts as `lasts`
tells. -/
def timer (lasts : Nat → Nat) (span : Duration) : Duration := .ofMillis (lasts span.millisCeil)

namespace Task

/-- An attempt of a task at a moment: it is answered at once, and a sleep that follows ends in time. The
moment then, and the phase and the task. -/
def attempt (policy : RetryPolicy) (lasts : Nat → Nat) (met : Encounters) (i now : Nat)
    (task : Task α) : Nat × Phase × Task α :=
  let after := task.answered policy lasts now (met.draw i) (met.phase (2 * i)) (met.reply i)
  match after.2.wait with
  | .resting _ _ _ _ wake _ => (wake, after.2.woken wake (met.phase (2 * i + 1)))
  | _ => (now, after)

/-- Several attempts, one after the other. -/
def attempts (policy : RetryPolicy) (lasts : Nat → Nat) (met : Encounters)
    (start : Nat × Phase × Task α) : Nat → Nat × Phase × Task α
  | 0 => start
  | n + 1 =>
    let before := attempts policy lasts met start n
    before.2.2.attempt policy lasts met n before.1

variable {policy : RetryPolicy} {lasts : Nat → Nat} {met : Encounters} {gate : Option Operation}
  {request : Request β} {next : Outcome β → Program α} {alarm : Option (Alarm α)}
  {retries since now : Nat}

/-- No program goes on to a sleep before a repetition. -/
theorem wait_advance_ne_resting (p : Program α) (now : Nat) (phase : Phase) (alarm : Option (Alarm α))
    {γ : Type} (gate : Option Operation) (request : Request γ) (retries since wake : Nat)
    (next : Outcome γ → Program α) :
    (p.advance now phase alarm).2.wait ≠ .resting gate request retries since wake next := by
  induction p generalizing phase alarm with
  | finish | call | persist | pause => exact nofun
  | observe _ ih => exact ih _ _ _
  | exchange expected new _ ih =>
    rw [Program.advance]
    split
    · exact ih _ _ _
    · exact ih _ _ _
  | assign _ _ ih | disarm _ ih | arm _ _ _ _ ih => exact ih _ _

/-- An attempt that settles the call is followed by the program behind it. -/
theorem attempt_of_advance {i : Nat} {task : Task α} {p : Program α} {phase : Phase}
    (h : task.answered policy lasts now (met.draw i) (met.phase (2 * i)) (met.reply i)
      = p.advance now phase alarm) :
    task.attempt policy lasts met i now = (now, p.advance now phase alarm) := by
  unfold attempt
  rw [h]
  dsimp only
  split
  · next hwait => exact absurd hwait (wait_advance_ne_resting p _ _ _ _ _ _ _ _ _)
  · rfl

/-- After an attempt that leads to a sleep a task is woken. -/
theorem attempt_of_resting {i wake : Nat} {task : Task α} {phase : Phase}
    (h : task.answered policy lasts now (met.draw i) (met.phase (2 * i)) (met.reply i)
      = (phase, ⟨.resting gate request retries since wake next, alarm⟩)) :
    task.attempt policy lasts met i now = (wake, Task.woken wake (met.phase (2 * i + 1))
      ⟨.resting gate request retries since wake next, alarm⟩) := by
  unfold attempt
  rw [h]

/-- An attempt with which the trial ends is followed by the program behind the call. -/
theorem attempt_of_inl {ending : Ending β}
    (h : (met.trial gate request).round policy retries (.ofMillis (now - since)) = .inl ending) :
    ∃ now' phase, attempt policy lasts met retries now ⟨.trying gate request retries since next, alarm⟩
      = (now', (next ending.outcome).advance now' phase alarm) := by
  have hadvance (hanswered : answered policy lasts now (met.draw retries) (met.phase (2 * retries))
      (met.reply retries) ⟨.trying gate request retries since next, alarm⟩
        = (next ending.outcome).advance now (met.phase (2 * retries)) alarm) :
      ∃ now' phase, attempt policy lasts met retries now ⟨.trying gate request retries since next, alarm⟩
        = (now', (next ending.outcome).advance now' phase alarm) :=
    ⟨now, _, attempt_of_advance hanswered⟩
  cases hsettled : Fault.settled? (met.reply retries request) with
  | some outcome =>
    rw [Trial.round_of_settled hsettled] at h
    cases h
    exact hadvance (answered_of_settled? (met.reply retries) hsettled)
  | none =>
    obtain ⟨fault, hreply, hretry⟩ := exists_transient_of_settled? hsettled
    rw [Trial.round_of_transient hreply hretry] at h
    dsimp only [Encounters.trial] at h
    -- the gate refuses another attempt, the policy does, or the gate does after the sleep
    split at h
    · next error hgate =>
      cases h
      exact hadvance (by simp only [answered, hreply, hretry, hgate, if_true])
    next hgate =>
    split at h
    · next hstop =>
      cases h
      exact hadvance (by simp only [answered, hreply, hretry, hgate, hstop, if_true])
    next span hspan =>
    split at h
    · next error hwoken =>
      cases h
      refine ⟨now + lasts span.millisCeil, met.phase (2 * retries + 1), ?_⟩
      rw [attempt_of_resting (answered_of_allowRetry (met.reply retries) hreply hretry hgate hspan)]
      simp only [woken, hwoken]
    · cases h

/-- Where the trial goes on, so does the task, when it has slept. -/
theorem attempt_of_inr {span : Duration}
    (h : (met.trial gate request).round policy retries (.ofMillis (now - since)) = .inr span) :
    attempt policy lasts met retries now ⟨.trying gate request retries since next, alarm⟩
      = (now + lasts span.millisCeil, met.phase (2 * retries + 1),
          ⟨.trying gate request (retries + 1) since next, alarm⟩) := by
  obtain ⟨⟨fault, hreply, hretry⟩, hgate, hspan, hwoken⟩ := Trial.round_eq_inr_iff.mp h
  dsimp only [Encounters.trial] at hreply hgate hspan hwoken
  rw [attempt_of_resting (answered_of_allowRetry (met.reply retries) hreply hretry hgate hspan)]
  simp only [woken, hwoken]

/-- A task makes every attempt that the trial makes, when as much time has passed. -/
theorem attempts_of_reaches (next : Outcome β → Program α) (since : Nat) (start : Phase)
    (alarm : Option (Alarm α)) {n : Nat} {elapsed : Duration}
    (h : (met.trial gate request).Reaches policy (timer lasts) n elapsed) :
    ∃ now phase, since ≤ now ∧ elapsed = .ofMillis (now - since)
      ∧ attempts policy lasts met (since, (Program.persist gate request next).advance since start alarm) n
        = (now, phase, ⟨.trying gate request n since next, alarm⟩) := by
  induction h with
  | first => exact ⟨since, start, le_rfl, by rw [Nat.sub_self]; rfl, rfl⟩
  | @again n elapsed span _ hround ih =>
    obtain ⟨now, phase, hle, rfl, hn⟩ := ih
    refine ⟨now + lasts span.millisCeil, met.phase (2 * n + 1), hle.trans (Nat.le_add_right _ _), ?_,
      ?_⟩
    · have htime : now + lasts span.millisCeil - since = now - since + lasts span.millisCeil :=
        Nat.sub_add_comm hle
      rw [htime, timer, Duration.nanos_ofMillis, Duration.nanos_ofMillis, ← Nat.add_mul]
      rfl
    · rw [attempts, hn]
      exact attempt_of_inr hround

/-- A task that repeats a call makes as many attempts as the trial that the call is put to, and goes on
with what the trial comes to. -/
structure Follows (policy : RetryPolicy) (lasts : Nat → Nat) (met : Encounters)
    (gate : Option Operation) (request : Request β) (next : Outcome β → Program α) (since : Nat)
    (start : Phase) (alarm : Option (Alarm α)) : Prop where
  /-- Before the end of the trial the task stands at its attempts, and then behind the call. -/
  ends {ending : Ending β} (h : (met.trial gate request).Ends policy (timer lasts) ending) :
    (∀ n < ending.attempts, ∃ now phase, attempts policy lasts met
        (since, (Program.persist gate request next).advance since start alarm) n
      = (now, phase, ⟨.trying gate request n since next, alarm⟩))
    ∧ ∃ now phase, attempts policy lasts met
        (since, (Program.persist gate request next).advance since start alarm) ending.attempts
      = (now, (next ending.outcome).advance now phase alarm)
  /-- Where the trial has no end, neither have the attempts. -/
  endless (h : (met.trial gate request).Endless policy (timer lasts)) (n : Nat) : ∃ now phase,
    attempts policy lasts met (since, (Program.persist gate request next).advance since start alarm) n
      = (now, phase, ⟨.trying gate request n since next, alarm⟩)

theorem follows (policy : RetryPolicy) (lasts : Nat → Nat) (met : Encounters)
    (gate : Option Operation) (request : Request β) (next : Outcome β → Program α) (since : Nat)
    (start : Phase) (alarm : Option (Alarm α)) :
    Follows policy lasts met gate request next since start alarm where
  ends h := by
    obtain ⟨n, elapsed, hreaches, hround⟩ := h.exists_reaches
    rw [Trial.attempts_of_inl hround]
    constructor
    · intro m hm
      obtain ⟨before, hbefore⟩ := hreaches.of_le (Nat.le_of_lt_succ hm)
      obtain ⟨now, phase, -, -, hm⟩ := attempts_of_reaches next since start alarm hbefore
      exact ⟨now, phase, hm⟩
    · obtain ⟨now, phase, -, rfl, hn⟩ := attempts_of_reaches next since start alarm hreaches
      rw [attempts, hn]
      exact attempt_of_inl hround
  endless h n := by
    obtain ⟨elapsed, hreaches⟩ := h.reaches n
    obtain ⟨now, phase, -, -, hn⟩ := attempts_of_reaches next since start alarm hreaches
    exact ⟨now, phase, hn⟩

end Task

/-! ## Policies -/

/-- What a policy makes of a call that is repeated, on every clock on which only sleeps take time. -/
structure RepeatsByBudget (policy : RetryPolicy) : Prop where
  /-- The repetition of a call ends as its budget tells. -/
  trial {β : Type} (t : Trial β) (lasts : Duration → Duration) : t.ByBudget policy lasts
  /-- On every attempt that is made a counter of the retries that wraps around at 32 bits decides as one
  without a bound. -/
  counted {β : Type} (t : Trial β) (lasts : Duration → Duration) {retries : Nat} {elapsed : Duration}
    (h : t.Reaches policy lasts retries elapsed) (draw : Nat) :
    policy.allowRetry (retries % 2 ^ 32) elapsed draw = policy.allowRetry retries elapsed draw
  /-- The tasks of a session repeat their calls as the trials that the calls are put to. -/
  task {α β : Type} (lasts : Nat → Nat) (met : Encounters) (gate : Option Operation)
    (request : Request β) (next : Outcome β → Program α) (since : Nat) (start : Phase)
    (alarm : Option (Alarm α)) : Task.Follows policy lasts met gate request next since start alarm

/-- **Every policy repeats a call by its budget.** -/
theorem repeats_by_budget (policy : RetryPolicy) : RepeatsByBudget policy where
  trial t lasts := t.byBudget policy lasts
  counted _ _ _ _ h draw := h.allowRetry_mod draw
  task := Task.follows policy

end Coordination

end IdMint
