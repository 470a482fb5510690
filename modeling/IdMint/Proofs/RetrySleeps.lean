import IdMint.Retry.Policy
import Mathlib.Data.List.Basic

/-! # How long a retry policy sleeps

A policy computes with numbers that have no bound, a machine with words that have one. `Span` is a span
of time in words, and `RetryPolicy.allowRetryInWords` decides in words, with nothing as its result wherever a
sum, a shift or a product does not fit. It never comes to that, whatever the number of retries, and both
decide alike. The factor of a backoff lies between one and `2 ^ (n + 1) - 1`, so the sleep lies between the
base and that multiple of it; and a policy that gives up does so for good. -/

namespace IdMint

/-! ## Words -/

namespace Word

/-- The sum of two words of 32 bits, if it fits. -/
def add32? (a b : UInt32) : Option UInt32 :=
  if a.toNat + b.toNat < 2 ^ 32 then some (a + b) else none

/-- A word of 32 bits shifted to the left by less than its width, if no bit is lost. -/
def shiftLeft32? (a places : UInt32) : Option UInt32 :=
  if places.toNat < 32 ∧ a.toNat * 2 ^ places.toNat < 2 ^ 32 then some (a <<< places) else none

/-- The sum of two words of 64 bits, if it fits. -/
def add64? (a b : UInt64) : Option UInt64 :=
  if a.toNat + b.toNat < 2 ^ 64 then some (a + b) else none

/-- The product of two words of 64 bits, if it fits. -/
def mul64? (a b : UInt64) : Option UInt64 :=
  if a.toNat * b.toNat < 2 ^ 64 then some (a * b) else none

/-- A random word below another one, if there is any. -/
def below? (limit : UInt32) (draw : Nat) : Option UInt32 :=
  if 0 < limit.toNat then some (.ofNat (draw % limit.toNat)) else none

theorem exists_add32? {a b : UInt32} (h : a.toNat + b.toNat < 2 ^ 32) :
    ∃ sum, add32? a b = some sum ∧ sum.toNat = a.toNat + b.toNat := by
  refine ⟨a + b, if_pos h, ?_⟩
  rw [UInt32.toNat_add, Nat.mod_eq_of_lt h]

theorem exists_shiftLeft32? {a places : UInt32} (hplaces : places.toNat < 32)
    (h : a.toNat * 2 ^ places.toNat < 2 ^ 32) :
    ∃ shifted, shiftLeft32? a places = some shifted
      ∧ shifted.toNat = a.toNat * 2 ^ places.toNat := by
  refine ⟨a <<< places, if_pos ⟨hplaces, h⟩, ?_⟩
  rw [UInt32.toNat_shiftLeft, Nat.mod_eq_of_lt hplaces, Nat.shiftLeft_eq, Nat.mod_eq_of_lt h]

/-- A sum of 64 bits is missing only where it does not fit. -/
theorem add64?_cases (a b : UInt64) :
    (∃ sum, add64? a b = some sum ∧ sum.toNat = a.toNat + b.toNat)
      ∨ add64? a b = none ∧ 2 ^ 64 ≤ a.toNat + b.toNat := by
  by_cases h : a.toNat + b.toNat < 2 ^ 64
  · refine .inl ⟨a + b, if_pos h, ?_⟩
    rw [UInt64.toNat_add, Nat.mod_eq_of_lt h]
  · exact .inr ⟨if_neg h, Nat.not_lt.mp h⟩

/-- A product of 64 bits is missing only where it does not fit. -/
theorem mul64?_cases (a b : UInt64) :
    (∃ product, mul64? a b = some product ∧ product.toNat = a.toNat * b.toNat)
      ∨ mul64? a b = none ∧ 2 ^ 64 ≤ a.toNat * b.toNat := by
  by_cases h : a.toNat * b.toNat < 2 ^ 64
  · refine .inl ⟨a * b, if_pos h, ?_⟩
    rw [UInt64.toNat_mul, Nat.mod_eq_of_lt h]
  · exact .inr ⟨if_neg h, Nat.not_lt.mp h⟩

theorem exists_below? {limit : UInt32} (h : 0 < limit.toNat) (draw : Nat) :
    ∃ random, below? limit draw = some random ∧ random.toNat = draw % limit.toNat := by
  refine ⟨.ofNat (draw % limit.toNat), if_pos h, ?_⟩
  rw [UInt32.toNat_ofNat', Nat.mod_eq_of_lt]
  exact Nat.lt_trans (Nat.mod_lt _ h) limit.toNat_lt

end Word

/-! ## Spans -/

namespace Duration

@[simp] theorem nanos_min (a b : Duration) : (Duration.min a b).nanos = min a.nanos b.nanos := by
  unfold Duration.min
  split
  · next h => exact (Nat.min_eq_left h).symm
  · next h => exact (Nat.min_eq_right (Nat.le_of_not_le h)).symm

@[simp] theorem nanos_scale (d : Duration) (factor : Nat) :
    (d.scale factor).nanos = min (d.nanos * factor) greatest.nanos := nanos_min _ _

theorem nanos_greatest : greatest.nanos = 2 ^ 64 * 10 ^ 9 - 1 := rfl

theorem ext_nanos {a b : Duration} (h : a.nanos = b.nanos) : a = b := congrArg Duration.mk h

end Duration

/-- A span of time in words: whole seconds, and nanoseconds below a second. -/
structure Span where
  /-- The whole seconds. -/
  secs : UInt64
  /-- The nanoseconds that remain. -/
  nanos : UInt32
  nanos_lt : nanos.toNat < 10 ^ 9

/-- The words for a duration, where it fits. -/
def Duration.span (d : Duration) : Span where
  secs := .ofNat (d.nanos / 10 ^ 9)
  nanos := .ofNat (d.nanos % 10 ^ 9)
  nanos_lt := by
    rw [UInt32.toNat_ofNat', Nat.mod_eq_of_lt (by omega)]
    exact Nat.mod_lt _ (by decide)

namespace Span

open Word

/-- The time that passes in a span. -/
def duration (s : Span) : Duration := .ofParts s.secs.toNat s.nanos.toNat

theorem nanos_duration (s : Span) : s.duration.nanos = s.secs.toNat * 10 ^ 9 + s.nanos.toNat := rfl

/-- The longest span. -/
def longest : Span := ⟨18446744073709551615, 999999999, by decide⟩

/-- So many seconds, and what remains of the nanoseconds when whole seconds are taken from them. -/
def withRest (secs nanos : UInt64) : Span where
  secs
  nanos := (nanos % 1000000000).toUInt32
  nanos_lt := by
    rw [UInt64.toNat_toUInt32, UInt64.toNat_mod]
    exact Nat.lt_of_le_of_lt (Nat.mod_le _ _) (Nat.mod_lt _ (by decide))

/-- A multiple of a span. Where the seconds do not fit it is the longest span; nothing where the
nanoseconds, on the way to it, do not fit. -/
def scale? (s : Span) (factor : UInt32) : Option Span :=
  (mul64? s.nanos.toUInt64 factor.toUInt64).map fun total =>
    match mul64? s.secs factor.toUInt64 with
    | none => longest
    | some whole =>
      match add64? whole (total / 1000000000) with
      | none => longest
      | some secs => withRest secs total

theorem nanos_withRest (secs nanos : UInt64) :
    (withRest secs nanos).duration.nanos = secs.toNat * 10 ^ 9 + nanos.toNat % 10 ^ 9 := by
  have hbillion : (1000000000 : UInt64).toNat = 10 ^ 9 := rfl
  have hrest : nanos.toNat % 10 ^ 9 < 2 ^ 32 := by omega
  rw [nanos_duration, withRest, UInt64.toNat_toUInt32, UInt64.toNat_mod, hbillion,
    Nat.mod_eq_of_lt hrest]

theorem duration_longest : longest.duration = .greatest := by decide

/-- A duration that is not too long is the time that passes in its words. -/
theorem duration_span {d : Duration} (h : d ≤ .greatest) : d.span.duration = d := by
  rw [Duration.le_def, Duration.nanos_greatest] at h
  apply Duration.ext_nanos
  rw [nanos_duration, Duration.span, UInt64.toNat_ofNat', UInt32.toNat_ofNat']
  omega

/-- The nanoseconds of a multiple fit, before whole seconds are taken from them. -/
theorem exists_total (s : Span) (factor : UInt32) :
    ∃ total, mul64? s.nanos.toUInt64 factor.toUInt64 = some total
      ∧ total.toNat = s.nanos.toNat * factor.toNat := by
  have hfits := Nat.mul_lt_mul'' s.nanos_lt factor.toNat_lt
  have hcases := mul64?_cases s.nanos.toUInt64 factor.toUInt64
  rw [UInt32.toNat_toUInt64, UInt32.toNat_toUInt64] at hcases
  exact hcases.resolve_right fun h => by omega

/-- A multiple that is too long for words is cut to the longest span. -/
theorem duration_longest_of_le {s : Span} {factor : Nat}
    (h : 2 ^ 64 * 10 ^ 9 ≤ s.duration.nanos * factor) :
    longest.duration = s.duration.scale factor := by
  have hgreatest := Duration.nanos_greatest
  apply Duration.ext_nanos
  rw [duration_longest, Duration.nanos_scale]
  omega

/-- A multiple of a span is computed without exceeding words, and lasts as long as it should. -/
theorem exists_scale? (s : Span) (factor : UInt32) :
    ∃ t, s.scale? factor = some t ∧ t.duration = s.duration.scale factor.toNat := by
  have hproduct : s.duration.nanos * factor.toNat
      = s.secs.toNat * factor.toNat * 10 ^ 9 + s.nanos.toNat * factor.toNat := by
    rw [nanos_duration, Nat.add_mul, Nat.mul_right_comm]
  obtain ⟨total, htotal, hvalue⟩ := s.exists_total factor
  refine ⟨_, by rw [scale?, htotal, Option.map_some], ?_⟩
  obtain ⟨whole, hwhole, hsecs⟩ | ⟨hwhole, hexceeds⟩ := mul64?_cases s.secs factor.toUInt64
  · have hquotient : (total / 1000000000).toNat = total.toNat / 10 ^ 9 := UInt64.toNat_div _ _
    rw [UInt32.toNat_toUInt64] at hsecs
    obtain ⟨secs, hsum, hplaces⟩ | ⟨hsum, hexceeds⟩ := add64?_cases whole (total / 1000000000)
    · -- neither the seconds nor the nanoseconds exceed their words
      have hgreatest := Duration.nanos_greatest
      have hsecs_lt := secs.toNat_lt
      simp only [hwhole, hsum]
      apply Duration.ext_nanos
      rw [nanos_withRest, Duration.nanos_scale]
      omega
    · simp only [hwhole, hsum]
      exact duration_longest_of_le (by omega)
  · rw [UInt32.toNat_toUInt64] at hexceeds
    simp only [hwhole]
    exact duration_longest_of_le (by omega)

/-- The sleep of a backoff in words: nothing where the exponent, the range of the factor or the sleep
does not fit, or where there is no factor to choose. -/
def backoffSleep? (base : Span) (retries : UInt32) (draw : Nat) : Option Span := do
  let exponent ← add32? (min retries 29) 1
  let spread ← shiftLeft32? 1 exponent
  let random ← below? spread draw
  base.scale? (max random 1)

/-- The sleep of a backoff is computed without exceeding words, and lasts as long as it should. -/
theorem exists_backoffSleep? (base : Span) (retries : UInt32) (draw : Nat) :
    ∃ sleep, base.backoffSleep? retries draw = some sleep
      ∧ sleep.duration = RetryPolicy.backoffSleep base.duration retries.toNat draw := by
  have hleast : (min retries 29).toNat = min retries.toNat 29 := UInt32.toNat_min _ _
  have hone : (1 : UInt32).toNat = 1 := rfl
  obtain ⟨exponent, hexponent, hsum⟩ :=
    exists_add32? (a := min retries 29) (b := 1) (by omega)
  have hwidth : exponent.toNat ≤ 30 := by omega
  have hpower : 2 ^ exponent.toNat ≤ 2 ^ 30 := Nat.pow_le_pow_right (by decide) hwidth
  obtain ⟨spread, hspread, hvalue⟩ :=
    exists_shiftLeft32? (a := 1) (show exponent.toNat < 32 by omega) (by rw [hone]; omega)
  have hvalues : spread.toNat = RetryPolicy.spread retries.toNat := by
    rw [hvalue, hsum, hleast, hone, Nat.one_mul]
    rfl
  obtain ⟨random, hrandom, hrest⟩ :=
    exists_below? (hvalues ▸ RetryPolicy.spread_pos retries.toNat) draw
  obtain ⟨sleep, hsleep, hlasts⟩ := base.exists_scale? (max random 1)
  refine ⟨sleep, ?_, ?_⟩
  · simp only [backoffSleep?, hexponent, hspread, hrandom, hsleep, Option.bind_eq_bind,
      Option.bind_some]
  · rw [hlasts, RetryPolicy.backoffSleep, UInt32.toNat_max, hrest, hvalues, hone, Nat.max_comm]

end Span

/-! ## Decisions -/

namespace RetryPolicy

/-- The decision of a policy in words; nothing where a computation exceeds them. -/
def allowRetryInWords (policy : RetryPolicy) (retries : UInt32) (elapsed : Duration) (draw : Nat) :
    Option (Option Duration) :=
  match policy with
  | exponentialBackoff base maxRetries =>
    if retries < min maxRetries 29 then
      (base.span.backoffSleep? retries draw).map fun sleep => some sleep.duration
    else some none
  | boundedExponentialBackoff base cap maxRetries =>
    if retries < min maxRetries 29 then
      (base.span.backoffSleep? retries draw).map fun sleep => some (Duration.min sleep.duration cap)
    else some none
  | nTimes count sleep => some (if retries < count then some sleep else none)
  | forever interval => some (some interval)
  | untilElapsed limit sleep => some (if elapsed < limit then some sleep else none)

/-- Every duration in the policy has words. -/
def Fits : RetryPolicy → Prop
  | exponentialBackoff base _ => base ≤ .greatest
  | boundedExponentialBackoff base cap _ => base ≤ .greatest ∧ cap ≤ .greatest
  | nTimes _ sleep | forever sleep => sleep ≤ .greatest
  | untilElapsed limit sleep => limit ≤ .greatest ∧ sleep ≤ .greatest

/-- The sleeps that the parameters of a policy let come before a retry. -/
def Admits (policy : RetryPolicy) (retries : Nat) (sleep : Duration) : Prop :=
  match policy with
  | exponentialBackoff base _ =>
    base ≤ sleep
      ∧ sleep.nanos ≤ min (base.nanos * (2 ^ (retries + 1) - 1)) Duration.greatest.nanos
  | boundedExponentialBackoff base cap _ =>
    Duration.min base cap ≤ sleep
      ∧ sleep.nanos ≤ min cap.nanos (base.nanos * (2 ^ (retries + 1) - 1))
  | nTimes _ interval | forever interval | untilElapsed _ interval => sleep = interval

/-- What the decisions of a policy come to. -/
structure DecidesInBounds (policy : RetryPolicy) : Prop where
  /-- In words nothing overflows, and the decision is the same. -/
  computed (retries : UInt32) (elapsed : Duration) (draw : Nat) :
    policy.allowRetryInWords retries elapsed draw = some (policy.allowRetry retries.toNat elapsed draw)
  /-- A sleep that is permitted keeps to the parameters of the policy. -/
  admitted {retries : Nat} {elapsed : Duration} {draw : Nat} {sleep : Duration}
    (h : policy.allowRetry retries elapsed draw = some sleep) : policy.Admits retries sleep
  /-- Once given up, a call is not tried again later, whatever the random numbers. -/
  final {retries retries' : Nat} {elapsed elapsed' : Duration} {draw : Nat}
    (h : policy.allowRetry retries elapsed draw = none) (hretries : retries ≤ retries')
    (helapsed : elapsed ≤ elapsed') (draw' : Nat) : policy.allowRetry retries' elapsed' draw' = none

variable {policy : RetryPolicy} {base : Duration} {retries draw : Nat}

theorem lt_least_iff {retries maxRetries : UInt32} :
    retries < min maxRetries 29 ↔ retries.toNat < min maxRetries.toNat backoffLimit := by
  rw [UInt32.lt_iff_toNat_lt, UInt32.toNat_min]
  rfl

/-- The backoff before a retry, in words and without. -/
theorem map_backoffSleep? (hbase : base ≤ .greatest) (retries : UInt32) (draw : Nat)
    (f : Duration → Duration) :
    ((base.span.backoffSleep? retries draw).map fun sleep => some (f sleep.duration))
      = some (some (f (backoffSleep base retries.toNat draw))) := by
  obtain ⟨sleep, hsleep, hlasts⟩ := base.span.exists_backoffSleep? retries draw
  rw [hsleep, Option.map_some, hlasts, Span.duration_span hbase]

/-- A policy decides in words as it decides without. -/
theorem Fits.allowRetryInWords_eq (h : policy.Fits) (retries : UInt32) (elapsed : Duration) (draw : Nat) :
    policy.allowRetryInWords retries elapsed draw
      = some (policy.allowRetry retries.toNat elapsed draw) := by
  cases policy with
  | exponentialBackoff base maxRetries =>
    simp only [allowRetryInWords, allowRetry, lt_least_iff]
    split
    · exact map_backoffSleep? h retries draw id
    · rfl
  | boundedExponentialBackoff base cap maxRetries =>
    simp only [allowRetryInWords, allowRetry, lt_least_iff]
    split
    · exact map_backoffSleep? h.1 retries draw (Duration.min · cap)
    · rfl
  | nTimes => simp only [allowRetryInWords, allowRetry, UInt32.lt_iff_toNat_lt]
  | forever | untilElapsed => rfl

/-- The factor of a backoff is positive and below the power of two that its exponent names. -/
theorem factor_bounds (hretries : retries < backoffLimit) (draw : Nat) :
    1 ≤ max 1 (draw % spread retries) ∧ max 1 (draw % spread retries) ≤ 2 ^ (retries + 1) - 1 := by
  have hspread : spread retries = 2 ^ (retries + 1) := by
    rw [spread, Nat.min_eq_left (Nat.le_of_lt hretries)]
  have hrest := Nat.mod_lt draw (spread_pos retries)
  have hpower : 2 ^ (0 + 1) ≤ 2 ^ (retries + 1) := Nat.pow_le_pow_right (by decide) (by omega)
  omega

/-- A backoff sleeps at least for the base, and at most for the greatest multiple of it, as far as
durations reach. -/
theorem backoffSleep_bounds (hbase : base ≤ .greatest) (hretries : retries < backoffLimit)
    (draw : Nat) :
    base ≤ backoffSleep base retries draw
      ∧ (backoffSleep base retries draw).nanos
        ≤ min (base.nanos * (2 ^ (retries + 1) - 1)) Duration.greatest.nanos := by
  obtain ⟨hleast, hgreatest⟩ := factor_bounds hretries draw
  rw [Duration.le_def] at hbase
  rw [backoffSleep, Duration.le_def, Duration.nanos_scale]
  have hlower := Nat.le_mul_of_pos_right base.nanos hleast
  have hupper := Nat.mul_le_mul_left base.nanos hgreatest
  omega

/-- A sleep that is permitted keeps to the parameters of the policy. -/
theorem Fits.admits (h : policy.Fits) {elapsed sleep : Duration}
    (hallow : policy.allowRetry retries elapsed draw = some sleep) : policy.Admits retries sleep := by
  cases policy with
  | exponentialBackoff base maxRetries =>
    obtain ⟨hretries, hsleep⟩ := Option.ite_none_right_eq_some.mp hallow
    obtain rfl := Option.some.inj hsleep
    exact backoffSleep_bounds h (by omega) draw
  | boundedExponentialBackoff base cap maxRetries =>
    obtain ⟨hretries, hsleep⟩ := Option.ite_none_right_eq_some.mp hallow
    obtain rfl := Option.some.inj hsleep
    obtain ⟨hlower, hupper⟩ := backoffSleep_bounds h.1 (show retries < backoffLimit by omega) draw
    rw [Duration.le_def] at hlower
    rw [Admits, Duration.le_def, Duration.nanos_min, Duration.nanos_min]
    omega
  | nTimes count interval =>
    obtain ⟨-, hsleep⟩ := Option.ite_none_right_eq_some.mp hallow
    exact (Option.some.inj hsleep).symm
  | forever interval => exact (Option.some.inj hallow).symm
  | untilElapsed limit interval =>
    obtain ⟨-, hsleep⟩ := Option.ite_none_right_eq_some.mp hallow
    exact (Option.some.inj hsleep).symm

/-- A policy that gives up does so after more retries and more time as well, whatever the random
numbers. -/
theorem allowRetry_eq_none_of_le {retries' draw' : Nat} {elapsed elapsed' : Duration}
    (h : policy.allowRetry retries elapsed draw = none) (hretries : retries ≤ retries')
    (helapsed : elapsed ≤ elapsed') : policy.allowRetry retries' elapsed' draw' = none := by
  cases policy with
  | exponentialBackoff | boundedExponentialBackoff | nTimes =>
    simp only [allowRetry, ite_eq_right_iff, reduceCtorEq, imp_false] at h ⊢
    omega
  | forever => cases h
  | untilElapsed =>
    simp only [allowRetry, ite_eq_right_iff, reduceCtorEq, imp_false, Duration.lt_def] at h ⊢
    rw [Duration.le_def] at helapsed
    omega

/-- **A policy decides within bounds.** Whatever its parameters, as long as they are durations that a
machine can keep, no computation exceeds its word; a backoff sleeps between its base and its base times
`2 ^ (n + 1) - 1`, cut where durations end or where the policy says; the other policies sleep for their
interval; and giving up is final. -/
theorem decides_in_bounds (h : policy.Fits) : policy.DecidesInBounds where
  computed := h.allowRetryInWords_eq
  admitted := h.admits
  final hnone hretries helapsed _ := allowRetry_eq_none_of_le hnone hretries helapsed

/-- The base is as long as milliseconds in 64 bits reach, the longest sleep is shorter, and the policy
would go on for as many retries as 32 bits count. -/
theorem decides_in_bounds_longBase :
    Fits (.boundedExponentialBackoff (.ofMillis 18446744073709551615) (.ofMillis 60000) 4294967295)
      ∧ DecidesInBounds
        (.boundedExponentialBackoff (.ofMillis 18446744073709551615) (.ofMillis 60000) 4294967295) :=
  ⟨⟨by decide, by decide⟩, decides_in_bounds ⟨by decide, by decide⟩⟩

-- the last retry that a backoff permits: the greatest factor takes the sleep to where durations end
example : (exponentialBackoff (.ofMillis 18446744073709551615) 100).allowRetryInWords 28 .zero 536870911
    = some (some .greatest) := by decide +kernel

end RetryPolicy

end IdMint
