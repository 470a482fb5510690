import IdMint.Proofs.BatchReports
import IdMint.Proofs.LoneGenerators

/-! # Batches poll by poll

A generator that is asked for a batch does nothing but poll. The polls that are not pending are the
draws of the batch, so its result can be told from the results of as many attempts in a row, and the
batch leaves the generator and the clock as these attempts do: `nextTexts_by_polls`. Before it polls,
though, it makes room for all its texts, and where there is no room for them it does not get so far. -/

namespace IdMint.Generator

open Batch

variable {σ : Type} [TimeSource σ] {patience : Nat} {s s' : Generator × σ}
  {results : List (Outcome Poll)}

/-! ## Attempts one after the other -/

/-- Attempts to issue an identifier, one after the other, with what each of them comes to. -/
abbrev AttemptSeries (s : Generator × σ) (results : List (Outcome Poll)) (s' : Generator × σ) : Prop :=
  Series ((Steps.partial (Generator × σ)).goes attempt) s results s'

theorem attempts_eq_some_iff {count : Nat} :
    attempts count s = some (results, s') ↔ results.length = count ∧ AttemptSeries s results s' := by
  induction count generalizing s results with
  | zero =>
    refine (Steps.partial _).goes_pure.trans ?_
    constructor
    · rintro ⟨rfl, rfl⟩
      exact ⟨rfl, .nil _⟩
    · rintro ⟨hlength, h⟩
      obtain rfl := List.length_eq_zero_iff.mp hlength
      cases h
      exact ⟨rfl, rfl⟩
  | succ count ih =>
    refine (Steps.partial _).goes_bind.trans ?_
    constructor
    · rintro ⟨result, s₁, hfirst, hrest⟩
      obtain ⟨rest, s₂, hattempts, hpure⟩ := (Steps.partial _).goes_bind.mp hrest
      obtain ⟨rfl, rfl⟩ := (Steps.partial _).goes_pure.mp hpure
      obtain ⟨hlength, hseries⟩ := ih.mp hattempts
      exact ⟨congrArg Nat.succ hlength, .cons hfirst hseries⟩
    · rintro ⟨hlength, h⟩
      cases h with
      | nil => cases hlength
      | cons hfirst hseries =>
        refine ⟨_, _, hfirst, (Steps.partial _).goes_bind.mpr ⟨_, _, ?_, (Steps.partial _).goes_pure.mpr
          ⟨rfl, rfl⟩⟩⟩
        exact ih.mpr ⟨Nat.succ.inj hlength, hseries⟩

/-- A refused attempt is refused for its reading of the clock. -/
theorem not_partialBatch_of_attempts (h : AttemptSeries s results s') {cause : Error}
    (hcause : .error cause ∈ results) (ids : List String) (inner : Error) :
    cause ≠ .partialBatch ids inner := by
  induction h with
  | nil => cases hcause
  | @cons s s₁ _ result _ hfirst _ ih =>
    rcases List.mem_cons.mp hcause with rfl | hlater
    · have hpoll : (s.1.poll (TimeSource.read s.2).1).1 = .error cause :=
        congrArg Prod.fst (Option.some.inj hfirst)
      obtain rfl | rfl := eq_of_poll_error (Prod.ext hpoll rfl) <;> exact nofun
    · exact ih hlater

/-! ## Attempts that draw -/

/-- The results of attempts, without those that are pending. -/
def conclusions (results : List (Outcome Poll)) : List (Outcome PackedId) :=
  results.filterMap concluded?

theorem conclusions_append (results more : List (Outcome Poll)) :
    conclusions (results ++ more) = conclusions results ++ conclusions more :=
  List.filterMap_append

/-- The attempts that are made for some draws: for each of them pending ones, and one that concludes
it. -/
inductive Yields : List (Outcome Poll) → List (Outcome PackedId) → Prop
  | nil : Yields [] []
  | wait {result : Outcome Poll} {results : List (Outcome Poll)} {drawn : Outcome PackedId}
      {later : List (Outcome PackedId)} (hresult : concluded? result = none)
      (rest : Yields results (drawn :: later)) : Yields (result :: results) (drawn :: later)
  | conclude {result : Outcome Poll} {results : List (Outcome Poll)} {drawn : Outcome PackedId}
      {later : List (Outcome PackedId)} (hresult : concluded? result = some drawn)
      (rest : Yields results later) : Yields (result :: results) (drawn :: later)

namespace Yields

variable {more : List (Outcome Poll)} {drawn later : List (Outcome PackedId)}

theorem conclusions_eq (h : Yields results drawn) : conclusions results = drawn := by
  induction h with
  | nil => rfl
  | wait hresult _ ih => rw [conclusions, List.filterMap_cons_none hresult, ← conclusions, ih]
  | conclude hresult _ ih => rw [conclusions, List.filterMap_cons_some hresult, ← conclusions, ih]

theorem append (h : Yields results drawn) (h' : Yields more later) :
    Yields (results ++ more) (drawn ++ later) := by
  induction h with
  | nil => exact h'
  | wait hresult _ ih => exact .wait hresult ih
  | conclude hresult _ ih => exact .conclude hresult ih

/-- The last of the attempts concludes a draw, so those at the end conclude something. -/
theorem conclusions_ne_nil (h : Yields results drawn) {front back : List (Outcome Poll)}
    (hresults : results = front ++ back) (hback : back ≠ []) : conclusions back ≠ [] := by
  induction h generalizing front with
  | nil => exact absurd (List.append_eq_nil_iff.mp hresults.symm).2 hback
  | wait hresult rest ih =>
    cases front with
    | nil =>
      rw [List.nil_append] at hresults
      rw [← hresults, (Yields.wait hresult rest).conclusions_eq]
      exact List.cons_ne_nil _ _
    | cons first front => exact ih (List.cons.inj hresults).2
  | conclude hresult rest ih =>
    cases front with
    | nil =>
      rw [List.nil_append] at hresults
      rw [← hresults, (Yields.conclude hresult rest).conclusions_eq]
      exact List.cons_ne_nil _ _
    | cons first front => exact ih (List.cons.inj hresults).2

end Yields

/-- Where attempts conclude anything, those up to the first conclusion are made for one draw. -/
theorem exists_yields {drawn : Outcome PackedId} {later : List (Outcome PackedId)}
    (h : conclusions results = drawn :: later) :
    ∃ front back, results = front ++ back ∧ Yields front [drawn] ∧ conclusions back = later := by
  induction results with
  | nil => cases h
  | cons result results ih =>
    cases hresult : concluded? result with
    | some concluded =>
      rw [conclusions, List.filterMap_cons_some hresult] at h
      obtain ⟨rfl, hlater⟩ := List.cons.inj h
      exact ⟨[result], results, rfl, .conclude hresult .nil, hlater⟩
    | none =>
      rw [conclusions, List.filterMap_cons_none hresult] at h
      obtain ⟨front, back, rfl, hfront, hback⟩ := ih h
      exact ⟨result :: front, back, rfl, .wait hresult hfront, hback⟩

/-! ## One draw -/

/-- A draw makes an attempt, and goes on with less patience where that does not conclude it. -/
theorem next_succ_eq_bind (patience : Nat) :
    (next (patience + 1) : Drawing σ (Outcome PackedId))
      = attempt >>= fun result =>
          match concluded? result with
          | some drawn => pure drawn
          | none => next patience :=
  congrArg (attempt >>= ·) (funext fun result => by rcases result with _ | _ | _ <;> rfl)

/-- A draw makes the attempts up to one that concludes it, as far as its patience goes. -/
theorem next_eq_some_iff {drawn : Outcome PackedId} :
    next patience s = some (drawn, s')
      ↔ ∃ results, results.length ≤ patience ∧ AttemptSeries s results s'
          ∧ Yields results [drawn] := by
  induction patience generalizing s with
  | zero =>
    constructor
    · exact nofun
    · rintro ⟨results, hlength, -, hyields⟩
      obtain rfl := List.length_eq_zero_iff.mp (Nat.le_zero.mp hlength)
      cases hyields
  | succ patience ih =>
    rw [next_succ_eq_bind]
    refine (Steps.partial _).goes_bind.trans ?_
    constructor
    · rintro ⟨result, s₁, hfirst, hrest⟩
      cases hresult : concluded? result with
      | some concluded =>
        rw [hresult] at hrest
        obtain ⟨rfl, rfl⟩ := (Steps.partial _).goes_pure.mp hrest
        exact ⟨[result], Nat.succ_pos _, .cons hfirst (.nil _), .conclude hresult .nil⟩
      | none =>
        rw [hresult] at hrest
        obtain ⟨results, hlength, hseries, hyields⟩ := ih.mp hrest
        exact ⟨result :: results, Nat.succ_le_succ hlength, .cons hfirst hseries,
          .wait hresult hyields⟩
    · rintro ⟨results, hlength, hseries, hyields⟩
      cases hyields with
      | conclude hresult rest =>
        cases rest
        cases hseries with
        | cons hfirst hnil =>
          cases hnil
          refine ⟨_, _, hfirst, ?_⟩
          rw [hresult]
          exact (Steps.partial _).goes_pure.mpr ⟨rfl, rfl⟩
      | wait hresult hyields =>
        cases hseries with
        | cons hfirst hseries =>
          refine ⟨_, _, hfirst, ?_⟩
          rw [hresult]
          exact ih.mpr ⟨_, Nat.le_of_succ_le_succ hlength, hseries, hyields⟩

theorem nextText_eq_some_iff {text : Outcome String} :
    nextText patience s = some (text, s')
      ↔ ∃ drawn, next patience s = some (drawn, s') ∧ text = drawn.map PackedId.text := by
  refine (Steps.partial _).goes_bind.trans ?_
  constructor
  · rintro ⟨drawn, s₁, hnext, hpure⟩
    obtain ⟨rfl, rfl⟩ := (Steps.partial _).goes_pure.mp hpure
    exact ⟨drawn, hnext, rfl⟩
  · rintro ⟨drawn, hnext, rfl⟩
    exact ⟨drawn, s', hnext, (Steps.partial _).goes_pure.mpr ⟨rfl, rfl⟩⟩

/-! ## Draws one after the other -/

/-- Draws in decimal one after the other, with what each of them comes to. -/
abbrev DrawSeries (patience : Nat) (s : Generator × σ) (draws : List (Outcome String))
    (s' : Generator × σ) : Prop :=
  Series ((Steps.partial (Generator × σ)).goes (nextText patience)) s draws s'

/-- Draws in decimal. -/
def texts (drawn : List (Outcome PackedId)) : List (Outcome String) :=
  drawn.map fun d => d.map PackedId.text

/-- Draws are attempts, with none behind the one that concludes the last of them. -/
theorem exists_attempts_of_draws {draws : List (Outcome String)} (h : DrawSeries patience s draws s') :
    ∃ results drawn, AttemptSeries s results s' ∧ Yields results drawn ∧ draws = texts drawn := by
  induction h with
  | nil => exact ⟨[], [], .nil _, .nil, rfl⟩
  | cons hfirst _ ih =>
    obtain ⟨later, drawn, hlater, hyields, rfl⟩ := ih
    obtain ⟨first, hnext, rfl⟩ := nextText_eq_some_iff.mp hfirst
    obtain ⟨front, -, hfront, hconcludes⟩ := next_eq_some_iff.mp hnext
    exact ⟨front ++ later, first :: drawn, Series.append_iff.mpr ⟨_, hfront, hlater⟩,
      hconcludes.append hyields, rfl⟩

/-- Attempts are draws of enough patience, up to pending ones at the end. -/
theorem exists_draws_of_attempts (h : AttemptSeries s results s')
    (hpatience : results.length ≤ patience) :
    ∃ s₁, DrawSeries patience s (texts (conclusions results)) s₁ := by
  -- attempt by attempt the draws would not come apart, so the induction is on the conclusions
  generalize hconclusions : conclusions results = drawn
  induction drawn generalizing s results with
  | nil => exact ⟨s, .nil s⟩
  | cons first drawn ih =>
    obtain ⟨front, back, rfl, hfront, hback⟩ := exists_yields hconclusions
    obtain ⟨s₁, hbefore, hafter⟩ := Series.append_iff.mp h
    rw [List.length_append] at hpatience
    obtain ⟨s₂, hdraws⟩ := ih hafter (by omega) hback
    have hnext : next patience s = some (first, s₁) :=
      next_eq_some_iff.mpr ⟨front, by omega, hbefore, hfront⟩
    exact ⟨s₂, .cons (nextText_eq_some_iff.mpr ⟨first, hnext, rfl⟩) hdraws⟩

/-! ## Batches -/

/-- So many attempts are enough for a batch: as many of them as it asks for are not pending, or one is
refused. -/
def AttemptsSuffice (s : Generator × σ) (count attempted : Nat) : Prop :=
  ∃ results s', attempts attempted s = some (results, s') ∧ Enough count (conclusions results)

/-- What a batch makes of the attempts that it takes. -/
structure ByAttempts (s : Generator × σ) (count attempted : Nat) (result : Outcome (List String))
    (s' : Generator × σ) : Prop where
  /-- The batch reports what these attempts draw, and leaves the generator and the clock as they do. -/
  reports : ∃ results, attempts attempted s = some (results, s')
    ∧ Reports count (texts (conclusions results)) result
  suffice : AttemptsSuffice s count attempted
  /-- No fewer attempts are enough. -/
  least : ∀ fewer < attempted, ¬ AttemptsSuffice s count fewer
  /-- What a batch issues before it fails is fewer than it was asked for, and its failure is one of a
  single draw. -/
  partialBatch : ∀ ids cause, result = .error (.partialBatch ids cause) →
    1 ≤ ids.length ∧ ids.length < count ∧ ∀ ids' inner, cause ≠ .partialBatch ids' inner

/-- What is said of a batch of `count` by a generator and its clock. -/
structure PolledBatch (s : Generator × σ) (count : UInt64) : Prop where
  /-- The batch comes to an end where its texts can be allocated and some number of attempts is
  enough. -/
  ends_iff : (∃ patience drawn, nextTexts patience count s = some drawn)
    ↔ count.toNat ≤ capacity ∧ ∃ attempted, AttemptsSuffice s count.toNat attempted
  /-- Where it comes to an end, it makes the least number of attempts that is enough. -/
  byAttempts : ∀ patience result s', nextTexts patience count s = some (result, s') →
    ∃ attempted, ByAttempts s count.toNat attempted result s'

/-- A batch that comes to an end has room for its texts, and draws them one after the other. -/
theorem nextTexts_eq_some_iff {count : UInt64} {result : Outcome (List String)} :
    nextTexts patience count s = some (result, s')
      ↔ count.toNat ≤ capacity
        ∧ ∃ draws, DrawSeries patience s draws s' ∧ Gathers [] count.toNat draws result := by
  by_cases fits : count.toNat ≤ capacity
  · rw [nextTexts_of_le fits]
    exact (Steps.partial _).goes_collect.trans (iff_and_self.mpr fun _ => fits)
  · rw [nextTexts_of_lt (Nat.lt_of_not_le fits)]
    exact iff_of_false nofun fun h => fits h.1

/-- A batch that has room for its texts ends as soon as its patience covers attempts that are enough. -/
theorem exists_nextTexts_of_suffice {count : UInt64} {attempted : Nat} (fits : count.toNat ≤ capacity)
    (h : AttemptsSuffice s count.toNat attempted) :
    ∃ drawn, nextTexts attempted count s = some drawn := by
  obtain ⟨results, s', hattempts, henough⟩ := h
  obtain ⟨hlength, hseries⟩ := attempts_eq_some_iff.mp hattempts
  obtain ⟨s₁, hdraws⟩ := exists_draws_of_attempts hseries (Nat.le_of_eq hlength)
  obtain ⟨front, back, result, hsplit, hgathers⟩ :=
    Gathers.exists_of_enough [] ((enough_map PackedId.text).mpr henough)
  rw [texts, hsplit] at hdraws
  obtain ⟨s₂, hfront, -⟩ := Series.append_iff.mp hdraws
  exact ⟨(result, s₂), nextTexts_eq_some_iff.mpr ⟨fits, front, hfront, hgathers⟩⟩

/-- Fewer attempts than a batch makes are not enough for it. -/
theorem not_suffice_of_lt {count fewer : Nat} {drawn : List (Outcome PackedId)}
    {result : Outcome (List String)} (hseries : AttemptSeries s results s')
    (hyields : Yields results drawn) (hgathers : Gathers [] count (texts drawn) result)
    (hlt : fewer < results.length) : ¬ AttemptsSuffice s count fewer := by
  rintro ⟨front, s₁, hattempts, henough⟩
  have hsplit : results = results.take fewer ++ results.drop fewer := (List.take_append_drop _ _).symm
  obtain ⟨s₂, hfirst, -⟩ := Series.append_iff.mp (hsplit ▸ hseries)
  have hsame : attempts fewer s = some (results.take fewer, s₂) :=
    attempts_eq_some_iff.mpr ⟨List.length_take_of_le (Nat.le_of_lt hlt), hfirst⟩
  obtain ⟨rfl, -⟩ := Prod.mk.inj (Option.some.inj (hattempts.symm.trans hsame))
  -- behind these attempts there are others, of which the last one concludes another draw
  have hback : conclusions (results.drop fewer) ≠ [] :=
    hyields.conclusions_ne_nil hsplit (by rw [Ne, List.drop_eq_nil_iff]; omega)
  have htexts : texts drawn = texts (conclusions (results.take fewer))
      ++ texts (conclusions (results.drop fewer)) := by
    rw [texts, texts, texts, ← List.map_append, ← conclusions_append, ← hsplit,
      hyields.conclusions_eq]
  refine hgathers.not_enough htexts ?_ ((enough_map PackedId.text).mpr henough)
  rwa [texts, Ne, List.map_eq_nil_iff]

/-- A draw fails only where one of the attempts is refused. -/
theorem mem_of_mem_texts {cause : Error} (h : .error cause ∈ texts (conclusions results)) :
    .error cause ∈ results := by
  obtain ⟨drawn, hdrawn, htext⟩ := List.mem_map.mp h
  obtain ⟨result, hresult, hconcluded⟩ := List.mem_filterMap.mp hdrawn
  rcases result with cause' | (id | wait) <;> cases hconcluded <;> cases htext
  exact hresult

/-- A batch reports a partial one only of its own, never one of a draw. -/
theorem partialBatch_of_reports (hseries : AttemptSeries s results s') {count : Nat} {ids : List String}
    {cause : Error}
    (h : Reports count (texts (conclusions results)) (.error (.partialBatch ids cause))) :
    1 ≤ ids.length ∧ ids.length < count ∧ ∀ ids' inner, cause ≠ .partialBatch ids' inner := by
  generalize hdraws : texts (conclusions results) = draws at h
  have hplain (failure : Error) (hfailure : .error failure ∈ draws) :=
    not_partialBatch_of_attempts hseries (mem_of_mem_texts (hdraws ▸ hfailure))
  cases h with
  | failed => exact absurd rfl (hplain _ List.mem_cons_self ids cause)
  | cut hids hcount => exact ⟨hids, hcount, hplain cause (List.mem_append_right _ List.mem_cons_self)⟩

/-- **A batch is its polls.** Whatever the generator has issued before, whatever its clock reads and
however much is asked for, a batch whose texts can be allocated makes just as many attempts as are
enough, ends if there are as many, and reports what they draw. -/
theorem nextTexts_by_polls (g : Generator) (clock : σ) (count : UInt64) :
    PolledBatch (g, clock) count := by
  have hby (patience : Nat) (result : Outcome (List String)) (s' : Generator × σ)
      (h : nextTexts patience count (g, clock) = some (result, s')) :
      ∃ attempted, ByAttempts (g, clock) count.toNat attempted result s' := by
    obtain ⟨-, draws, hdraws, hgathers⟩ := nextTexts_eq_some_iff.mp h
    obtain ⟨results, drawn, hseries, hyields, rfl⟩ := exists_attempts_of_draws hdraws
    have hattempts := attempts_eq_some_iff.mpr ⟨rfl, hseries⟩
    have hconclusions := hyields.conclusions_eq
    have hreports : Reports count.toNat (texts (conclusions results)) result :=
      hconclusions.symm ▸ hgathers.reports
    refine ⟨results.length, ⟨results, hattempts, hreports⟩, ⟨results, s', hattempts, ?_⟩, ?_, ?_⟩
    · exact hconclusions.symm ▸ (enough_map PackedId.text).mp hgathers.enough
    · exact fun fewer hlt => not_suffice_of_lt hseries hyields hgathers hlt
    · rintro ids cause rfl
      exact partialBatch_of_reports hseries hreports
  refine ⟨⟨?_, fun ⟨fits, attempted, h⟩ => ⟨attempted, exists_nextTexts_of_suffice fits h⟩⟩, hby⟩
  rintro ⟨patience, ⟨result, s'⟩, h⟩
  obtain ⟨attempted, hattempted⟩ := hby patience result s' h
  exact ⟨(nextTexts_eq_some_iff.mp h).1, attempted, hattempted.suffice⟩

/-- The clock stands before the last timestamp, so one attempt is enough for any batch. One text more
than can be allocated is still no batch. -/
theorem nextTexts_beyond_capacity :
    AttemptsSuffice (⟨⟨20971520⟩⟩, fun _ : Nat => (3 : UInt64)) 384307168202282326 1
      ∧ ¬ ∃ patience drawn, nextTexts patience 384307168202282326
          (⟨⟨20971520⟩⟩, fun _ : Nat => (3 : UInt64)) = some drawn := by
  refine ⟨⟨[.error (.clockMovedBackwards 5 3)], _, rfl, enough_error_cons⟩, ?_⟩
  rintro ⟨patience, drawn, h⟩
  rw [nextTexts_of_lt (by decide)] at h
  cases h

-- the millisecond 5 is used up, so the first draw takes three attempts, and the second one fails
example : nextTexts 3 2 (⟨⟨20975615⟩⟩, fun n : Nat => ([5, 5, 6, 4] : List UInt64).getD n 0)
    = some (.error (.partialBatch ["25165824"] (.clockMovedBackwards 6 4)),
        ⟨⟨25165824⟩⟩, fun n => [5, 5, 6, 4].getD (n + 4) 0) := rfl

end IdMint.Generator
