import IdMint.Generator

/-! # What a clock reads

A drawing sees its clock only through the readings that it takes. `TimeSource.Reads` says which ones a
clock answers, one after the other, and `Generator.pollEach` what a generator makes of given readings;
where the two meet, nothing else of the clock matters. -/

namespace IdMint

variable {σ : Type} [TimeSource σ]

namespace TimeSource

/-- The clock answers the readings one after the other, and is the second clock then. -/
inductive Reads : σ → List UInt64 → σ → Prop
  | nil (clock : σ) : Reads clock [] clock
  | cons {clock clock₁ clock' : σ} {now : UInt64} {later : List UInt64}
    (hread : TimeSource.read clock = (now, clock₁)) (rest : Reads clock₁ later clock') :
    Reads clock (now :: later) clock'

namespace Reads

variable {clock clock₁ clock' : σ} {readings more : List UInt64}

theorem append (h : Reads clock readings clock₁) (h' : Reads clock₁ more clock') :
    Reads clock (readings ++ more) clock' := by
  induction h with
  | nil => exact h'
  | cons hread _ ih => exact .cons hread (ih h')

/-- Readings one after the other are taken from a clock one after the other. -/
theorem append_iff :
    Reads clock (readings ++ more) clock'
      ↔ ∃ between, Reads clock readings between ∧ Reads between more clock' := by
  constructor
  · intro h
    induction readings generalizing clock with
    | nil => exact ⟨clock, .nil _, h⟩
    | cons now later ih =>
      cases h with
      | cons hread rest =>
        obtain ⟨between, hlater, hmore⟩ := ih rest
        exact ⟨between, .cons hread hlater, hmore⟩
  · rintro ⟨between, h, h'⟩
    exact h.append h'

/-- A sequence of readings answers those that it begins with. -/
theorem sequence (readings : List UInt64) (source : Nat → UInt64)
    (h : ∀ i (hi : i < readings.length), source i = readings[i]) :
    Reads source readings fun n => source (n + readings.length) := by
  induction readings generalizing source with
  | nil => exact .nil source
  | cons now later ih =>
    have hnow : source 0 = now := h 0 (Nat.zero_lt_succ _)
    have hlater := ih (fun n => source (n + 1)) fun i hi => h (i + 1) (Nat.succ_lt_succ hi)
    refine .cons (by rw [TimeSource.read_sequence, hnow]) ?_
    simpa only [List.length_cons, Nat.add_assoc, Nat.add_comm 1] using hlater

end Reads

/-- Whatever is to be read, there is a clock that reads it. -/
theorem exists_reads (readings : List UInt64) :
    ∃ clock clock' : Nat → UInt64, Reads clock readings clock' :=
  ⟨fun i => readings.getD i 0, _, .sequence readings _ fun i hi => by simp [hi]⟩

end TimeSource

namespace Generator

/-- Several attempts to issue an identifier, one after the other. -/
def attempts : (count : Nat) → Drawing σ (List (Outcome Poll))
  | 0 => pure []
  | count + 1 => do
    let result ← attempt
    let results ← attempts count
    return result :: results

/-- What a generator comes to when it is polled at the given readings, one after the other, and the
generator after that. -/
def pollEach (g : Generator) : List UInt64 → List (Outcome Poll) × Generator
  | [] => ([], g)
  | now :: later =>
    let (result, g) := g.poll now
    let (results, g) := g.pollEach later
    (result :: results, g)

/-- What a generator comes to at each reading of a clock. -/
theorem attempts_of_reads {clock clock' : σ} {readings : List UInt64}
    (h : TimeSource.Reads clock readings clock') (g : Generator) :
    attempts readings.length (g, clock)
      = some ((g.pollEach readings).1, (g.pollEach readings).2, clock') := by
  induction h generalizing g with
  | nil => rfl
  | @cons clock clock₁ clock' now later hread _ ih =>
    have hattempt : attempt (g, clock) = some ((g.poll now).1, (g.poll now).2, clock₁) := by
      simp only [attempt, hread]
    have hrest := ih (g.poll now).2
    simp only [List.length_cons, attempts, bind, StateT.bind, hattempt, Option.bind_some, hrest]
    rfl

end Generator

end IdMint
