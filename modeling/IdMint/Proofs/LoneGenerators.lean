import IdMint.Proofs.ClockReadings
import IdMint.Proofs.LocalHistories

/-! # Locations on their own

Facades on one registry serve many locations from one clock. Yet the calls for one location come to
what they would come to on a generator of its own, if its clock reads what the polls for the location
read: `history_stands_alone`. So calls for other locations matter only through the clock, and calls
that are refused do not matter at all. -/

namespace IdMint

open Batch TimeSource

/-! ## Drawings and what they read -/

namespace Generator

/-- A way to draw with more or less patience, on a clock of any kind. -/
abbrev Way (α : Type) : Type 1 := (patience : Nat) → {σ : Type} → [TimeSource σ] → Drawing σ α

/-- On every clock that reads this, and with this patience or more, the drawing from the generator `g`
comes to the result and leaves the generator `g'`. -/
def Replays {α : Type} (draw : Way α) (patience : Nat) (g : Generator) (readings : List UInt64)
    (result : α) (g' : Generator) : Prop :=
  ∀ {σ : Type} [TimeSource σ] {clock clock' : σ}, Reads clock readings clock' →
    ∀ enough, patience ≤ enough → draw enough (g, clock) = some (result, g', clock')

/-- What a drawing comes to depends on nothing of the clock but on what it reads. -/
structure OnlyReads {α : Type} (draw : Way α) : Prop where
  exists_readings {σ : Type} [TimeSource σ] {patience : Nat} {g g' : Generator} {clock clock' : σ}
    {result : α} (h : draw patience (g, clock) = some (result, g', clock')) :
    ∃ readings, Reads clock readings clock' ∧ Replays draw patience g readings result g'

namespace OnlyReads

variable {α β : Type}

theorem pure (a : α) : OnlyReads fun _ => Pure.pure a := by
  constructor
  intro σ _ patience g g' clock clock' result h
  cases h
  refine ⟨[], .nil clock, ?_⟩
  intro τ _ other other' hreads enough _
  cases hreads
  rfl

/-- Of two drawings one after the other, the second one reads on where the first one ended. -/
theorem bind {draw : Way α} {further : α → Way β} (hdraw : OnlyReads draw)
    (hfurther : ∀ a, OnlyReads (further a)) :
    OnlyReads fun patience => draw patience >>= fun a => further a patience := by
  constructor
  intro σ _ patience g g' clock clock' result h
  obtain ⟨⟨a, g₁, clock₁⟩, hfirst, hsecond⟩ := Option.bind_eq_some_iff.mp h
  obtain ⟨readings, hreads, hreplays⟩ := hdraw.exists_readings hfirst
  obtain ⟨more, hmore, hreplays'⟩ := (hfurther a).exists_readings hsecond
  refine ⟨readings ++ more, hreads.append hmore, ?_⟩
  intro τ _ other other' hother enough hle
  obtain ⟨between, hbefore, hafter⟩ := Reads.append_iff.mp hother
  exact Option.bind_eq_some_iff.mpr
    ⟨_, hreplays hbefore enough hle, hreplays' hafter enough hle⟩

theorem map {draw : Way α} (hdraw : OnlyReads draw) (f : α → β) :
    OnlyReads fun patience => f <$> draw patience :=
  hdraw.bind fun a => .pure (f a)

/-- What a drawing comes to does not depend on the patience that is left. -/
theorem unique {draw : Way α} (hdraw : OnlyReads draw) {σ : Type} [TimeSource σ]
    {patience patience' : Nat} {s : Generator × σ} {drawn drawn' : α × Generator × σ}
    (h : draw patience s = some drawn) (h' : draw patience' s = some drawn') : drawn = drawn' := by
  obtain ⟨readings, hreads, hreplays⟩ := hdraw.exists_readings h
  obtain ⟨readings', hreads', hreplays'⟩ := hdraw.exists_readings h'
  have henough := hreplays hreads _ (Nat.le_max_left patience patience')
  have henough' := hreplays' hreads' _ (Nat.le_max_right patience patience')
  exact Option.some.inj (henough.symm.trans henough')

end OnlyReads

/-- What a poll concludes a drawing with, if it is not pending. -/
def concluded? : Outcome Poll → Option (Outcome PackedId)
  | .ok (.ready id) => some (.ok id)
  | .ok (.pending _) => none
  | .error cause => some (.error cause)

/-- A drawing goes on until a poll concludes it. -/
theorem next_succ_of_read {σ : Type} [TimeSource σ] {clock clock₁ : σ} {now : UInt64}
    (hread : TimeSource.read clock = (now, clock₁)) (patience : Nat) (g : Generator) :
    next (patience + 1) (g, clock) =
      match concluded? (g.poll now).1 with
      | some result => some (result, (g.poll now).2, clock₁)
      | none => next patience ((g.poll now).2, clock₁) := by
  rw [next_succ, hread]
  rcases g.poll now with ⟨cause | (id | wait), g₁⟩ <;> rfl

/-- The attempts to draw one identifier end with the same reading, whatever patience is left. -/
theorem onlyReads_next : OnlyReads fun patience => next patience := by
  constructor
  intro σ _ patience
  -- a poll that concludes the drawing reads once, and a pending one leaves the rest to less patience
  induction patience with
  | zero =>
    intro g g' clock clock' result h
    cases h
  | succ patience ih =>
    intro g g' clock clock' result h
    rcases hread : TimeSource.read clock with ⟨now, clock₁⟩
    change next (patience + 1) (g, clock) = some (result, g', clock') at h
    rw [next_succ_of_read hread] at h
    cases hconcluded : concluded? (g.poll now).1 with
    | some concluded =>
      simp only [hconcluded, Option.some.injEq, Prod.mk.injEq] at h
      obtain ⟨rfl, rfl, rfl⟩ := h
      refine ⟨[now], .cons hread (.nil _), ?_⟩
      intro τ _ other other' hreads enough hle
      obtain ⟨enough, rfl⟩ := Nat.exists_eq_add_of_le' (Nat.zero_lt_of_lt hle)
      cases hreads with
      | cons hother rest =>
        cases rest
        simp only [next_succ_of_read hother, hconcluded]
    | none =>
      simp only [hconcluded] at h
      obtain ⟨readings, hreads, hreplays⟩ := ih h
      refine ⟨now :: readings, .cons hread hreads, ?_⟩
      intro τ _ other other' hreads' enough hle
      obtain ⟨enough, rfl⟩ := Nat.exists_eq_add_of_le' (Nat.zero_lt_of_lt hle)
      cases hreads' with
      | cons hother rest =>
        simp only [next_succ_of_read hother, hconcluded]
        exact hreplays rest enough (Nat.le_of_succ_le_succ hle)

theorem onlyReads_nextText : OnlyReads fun patience => nextText patience :=
  onlyReads_next.bind fun drawn => .pure (drawn.map PackedId.text)

/-- A batch depends on its clock as its single drawings do. -/
theorem onlyReads_collectAfter (issued : List String) (count : Nat) :
    OnlyReads fun patience => collectAfter (nextText patience) issued count := by
  induction count generalizing issued with
  | zero => exact .pure _
  | succ count ih =>
    refine onlyReads_nextText.bind fun drawn => ?_
    cases drawn with
    | ok id => exact ih (issued ++ [id])
    | error cause => exact .pure _

end Generator

/-! ## Calls -/

namespace LocalIds

/-- How many identifiers a call asks for, if it says so. -/
def Call.count? : Call → Option UInt64
  | next | nextFor _ _ => none
  | nextMany count | nextManyFor _ _ count => some count

/-- What a call draws from the generator that it is for. -/
def Call.drawAlone {σ : Type} [TimeSource σ] (call : Call) (patience : Nat) :
    Generator.Drawing σ (Outcome (List String)) :=
  match call.count? with
  | none => single <$> Generator.nextText patience
  | some count =>
    match checkCount count with
    | .error cause => pure (.error cause)
    | .ok () => Generator.nextTexts patience count

/-- The call asks for a location or for a count that there is not. -/
def Call.OutOfRange (ids : LocalIds) (call : Call) : Prop :=
  31 < (call.asked ids).1 ∨ 31 < (call.asked ids).2
    ∨ ∃ count, call.count? = some count ∧ (count = 0 ∨ 1000 < count)

theorem Call.onlyReads_drawAlone (call : Call) :
    Generator.OnlyReads fun patience => call.drawAlone patience := by
  rcases call with _ | _ | count | ⟨_, _, count⟩
  · exact Generator.onlyReads_nextText.map single
  · exact Generator.onlyReads_nextText.map single
  all_goals
    simp only [drawAlone, count?]
    cases hcount : checkCount count with
    | error cause => exact .pure _
    | ok =>
      simp only [Generator.nextTexts_of_le (fits_of_checkCount hcount)]
      exact Generator.onlyReads_collectAfter [] count.toNat

/-- A single identifier may be made a batch before or after the registry is left. -/
theorem single_map_drawFrom {σ : Type} (datacenter machine : UInt64)
    (draw : Generator.Drawing σ (Outcome String)) :
    single <$> Registry.drawFrom datacenter machine draw
      = Registry.drawFrom datacenter machine (single <$> draw) := by
  funext s
  simp only [Functor.map, StateT.map, Registry.drawFrom, bind]
  cases s.1.getGenerator datacenter machine with
  | error cause => rfl
  | ok found =>
    cases hg : found.2.generator? found.1 with
    | none => simp only [hg]; rfl
    | some g =>
      simp only [hg]
      cases draw (g, s.2) <;> rfl

variable {σ : Type} [TimeSource σ] {ids : LocalIds} {call : Call} {patience : Nat}
  {r r' : Registry} {clock clock' : σ} {result : Outcome (List String)}

/-- A call whose count is refused comes to that. -/
theorem Call.draw_of_checkCount {count : UInt64} {cause : Error} (hcount : call.count? = some count)
    (hcheck : checkCount count = .error cause) (ids : LocalIds) :
    call.draw (σ := σ) ids patience = pure (.error cause)
      ∧ call.drawAlone (σ := σ) patience = pure (.error cause) := by
  rcases call with _ | _ | _ | _ <;> cases hcount <;>
    simp only [draw, LocalIds.nextMany, LocalIds.nextManyFor, drawAlone, count?, hcheck, and_self]

/-- A call draws from the generator of the location that it asks for, unless it refuses its count. -/
theorem Call.draw_eq_drawFrom (ids : LocalIds)
    (hcount : ∀ count, call.count? = some count → checkCount count = .ok ()) :
    call.draw (σ := σ) ids patience
      = Registry.drawFrom (call.asked ids).1 (call.asked ids).2 (call.drawAlone patience) := by
  rcases call with _ | ⟨datacenter, machine⟩ | count | ⟨datacenter, machine, count⟩
  · exact single_map_drawFrom _ _ _
  · exact single_map_drawFrom _ _ _
  · simp only [draw, LocalIds.nextMany, LocalIds.nextManyFor, hcount count rfl, drawAlone, count?,
      asked]
  · simp only [draw, LocalIds.nextManyFor, hcount count rfl, drawAlone, count?, asked]

/-- What a call comes to: a refusal that changes nothing, or a drawing from the generator of the
location that it asks for, which changes no other one. -/
theorem Call.draw_cases (h : call.draw ids patience (r, clock) = some (result, r', clock')) :
    (∃ count cause, call.count? = some count ∧ checkCount count = .error cause
      ∧ result = .error cause ∧ r' = r ∧ clock' = clock)
    ∨ (∃ cause, Location.ofNumbers (call.asked ids).1 (call.asked ids).2 = .error cause
      ∧ result = .error cause ∧ r' = r ∧ clock' = clock)
    ∨ ∃ k g, call.asked ids = (k.datacenter, k.machine)
      ∧ (∀ count, call.count? = some count → checkCount count = .ok ())
      ∧ call.drawAlone patience (r.generatorOf k, clock) = some (result, g, clock')
      ∧ r'.generatorOf = Function.update r.generatorOf k g := by
  by_cases hcount : ∀ count, call.count? = some count → checkCount count = .ok ()
  · rw [draw_eq_drawFrom ids hcount] at h
    obtain ⟨cause, hl, hresult⟩ | ⟨k, g, hl, hdraw, hr⟩ := Registry.drawFrom_eq_some h
    · exact .inr (.inl ⟨cause, hl, hresult⟩)
    · obtain ⟨hd, hm⟩ := Location.ofNumbers_eq_ok_iff.mp hl
      exact .inr (.inr ⟨k, g, by rw [hd, hm], hcount, hdraw, hr⟩)
  · push Not at hcount
    obtain ⟨count, hsome, hcheck⟩ := hcount
    cases hcause : checkCount count with
    | ok => exact absurd hcause hcheck
    | error cause =>
      rw [(draw_of_checkCount hsome hcause ids).1] at h
      cases h
      exact .inl ⟨count, cause, hsome, hcause, rfl, rfl, rfl⟩

/-! ## Histories -/

/-- Calls for one location on a generator of its own, each with as much patience as it needed. -/
inductive LoneHistory : Generator → σ → List Completed → Generator → σ → Prop
  | nil (g : Generator) (clock : σ) : LoneHistory g clock [] g clock
  | cons {g g₁ g' : Generator} {clock clock₁ clock' : σ} {c : Completed} {cs : List Completed}
      (patience : Nat) (hcall : c.call.drawAlone patience (g, clock) = some (c.result, g₁, clock₁))
      (rest : LoneHistory g₁ clock₁ cs g' clock') : LoneHistory g clock (c :: cs) g' clock'

/-- Whether a call asks for the location. -/
def Completed.addresses (k : Location) (c : Completed) : Bool :=
  c.asked = (k.datacenter, k.machine)

/-- Of the readings that the calls took, each its own, those of the calls for one location. -/
def readingsFor (k : Location) (cs : List Completed) (log : List (List UInt64)) : List UInt64 :=
  ((cs.zip log).filter (·.1.addresses k)).flatMap (·.2)

/-- What is said of the calls `cs` on one registry that has the generators `gens` before and is `r'`
after them, while the clock went on from `clock` to `clock'` and each of the calls took its readings of
the log. -/
structure StandsAlone (gens : Generators) (clock : σ) (cs : List Completed) (r' : Registry)
    (clock' : σ) (log : List (List UInt64)) : Prop where
  /-- The readings of the calls are those of the clock, one after the other. -/
  reads : Reads clock log.flatten clock'
  length_eq : log.length = cs.length
  /-- A call that asks for what there is not reads nothing. -/
  silent : ∀ p ∈ cs.zip log, p.1.call.OutOfRange p.1.ids → p.2 = []
  /-- The calls for a location come to what they come to on its generator alone, on every clock that
  reads what they read. -/
  alone : ∀ k {τ : Type} [TimeSource τ] {other other' : τ}, Reads other (readingsFor k cs log) other' →
    LoneHistory (gens k) other (cs.filter (·.addresses k)) (r'.generatorOf k) other'

/-- What is said of one call that takes the generators from `gens` to `gens'` by its readings. -/
structure TakenAlone (gens : Generators) (clock : σ) (c : Completed) (gens' : Generators)
    (clock' : σ) (readings : List UInt64) : Prop where
  reads : Reads clock readings clock'
  silent : c.call.OutOfRange c.ids → readings = []
  alone : ∀ k, c.addresses k → ∃ patience, ∀ {τ : Type} [TimeSource τ] {other other' : τ},
    Reads other readings other' →
      c.call.drawAlone patience (gens k, other) = some (c.result, gens' k, other')
  /-- Generators of other locations stay as they are. -/
  others : ∀ k, ¬ c.addresses k → gens' k = gens k

/-- A call takes its readings for the location that it asks for, or takes none. -/
theorem Completed.exists_takenAlone {c : Completed}
    (h : c.call.draw c.ids patience (r, clock) = some (c.result, r', clock')) :
    ∃ readings, TakenAlone r.generatorOf clock c r'.generatorOf clock' readings := by
  obtain ⟨count, cause, hcount, hcheck, hresult, rfl, rfl⟩ | ⟨cause, hl, -, rfl, rfl⟩
    | ⟨k, g, hasked, hcount, hdraw, hr⟩ := Call.draw_cases h
  · -- the count is refused, also on the generator alone
    refine ⟨[], .nil _, fun _ => rfl, fun k _ => ⟨0, ?_⟩, fun _ _ => rfl⟩
    intro τ _ other other' hreads
    cases hreads
    rw [(Call.draw_of_checkCount hcount hcheck c.ids).2, hresult]
    rfl
  · -- the call asks for no location
    refine ⟨[], .nil _, fun _ => rfl, fun k hk => ?_, fun _ _ => rfl⟩
    have hasked : c.call.asked c.ids = (k.datacenter, k.machine) := of_decide_eq_true hk
    rw [hasked, Location.ofNumbers_self] at hl
    cases hl
  · -- the call draws for its location, which replays on any clock that reads the same
    obtain ⟨readings, hreads, hreplays⟩ := (Call.onlyReads_drawAlone c.call).exists_readings hdraw
    refine ⟨readings, hreads, fun hrange => ?_, fun l hl => ⟨patience, ?_⟩, fun l hl => ?_⟩
    · exfalso
      rcases hrange with hd | hm | ⟨count, hsome, hrange⟩
      · rw [hasked] at hd
        exact absurd hd (UInt64.not_lt.mpr k.datacenter_le)
      · rw [hasked] at hm
        exact absurd hm (UInt64.not_lt.mpr k.machine_le)
      · obtain ⟨cause, hcause⟩ := checkCount_eq_error_iff.mpr hrange
        rw [hcount count hsome] at hcause
        cases hcause
    · intro τ _ other other' hother
      have hsame : c.call.asked c.ids = (l.datacenter, l.machine) := of_decide_eq_true hl
      rw [hasked, Prod.mk.injEq] at hsame
      obtain rfl : k = l := Location.ext_numbers hsame.1 hsame.2
      rw [hr, Function.update_self]
      exact hreplays hother patience (Nat.le_refl _)
    · have hne : l ≠ k := by
        rintro rfl
        exact hl (decide_eq_true hasked)
      rw [hr, Function.update_of_ne hne]

theorem readingsFor_cons (k : Location) (c : Completed) (cs : List Completed)
    (readings : List UInt64) (log : List (List UInt64)) :
    readingsFor k (c :: cs) (readings :: log)
      = if c.addresses k then readings ++ readingsFor k cs log else readingsFor k cs log := by
  unfold readingsFor
  rw [List.zip_cons_cons, List.filter_cons]
  split <;> rfl

/-- What is said of a call and of the calls after it is said of all of them. -/
theorem StandsAlone.cons {gens gens₁ : Generators} {clock₁ : σ} {c : Completed}
    {cs : List Completed} {readings : List UInt64} {log : List (List UInt64)}
    (h : TakenAlone gens clock c gens₁ clock₁ readings)
    (h' : StandsAlone gens₁ clock₁ cs r' clock' log) :
    StandsAlone gens clock (c :: cs) r' clock' (readings :: log) where
  reads := h.reads.append h'.reads
  length_eq := congrArg (· + 1) h'.length_eq
  silent p hp hrange := by
    rcases List.mem_cons.mp hp with rfl | hmem
    · exact h.silent hrange
    · exact h'.silent p hmem hrange
  alone k τ _ other other' hreads := by
    rw [readingsFor_cons] at hreads
    rw [List.filter_cons]
    by_cases hk : c.addresses k
    · rw [if_pos hk] at hreads ⊢
      obtain ⟨between, hfirst, hlater⟩ := Reads.append_iff.mp hreads
      obtain ⟨patience, halone⟩ := h.alone k hk
      exact .cons patience (halone hfirst) (h'.alone k hlater)
    · rw [if_neg hk] at hreads ⊢
      rw [← h.others k hk]
      exact h'.alone k hreads

/-- In a history every location stands alone. -/
theorem History.exists_standsAlone {cs : List Completed} (h : History r clock cs r' clock') :
    ∃ log, StandsAlone r.generatorOf clock cs r' clock' log := by
  induction h with
  | nil r clock =>
    refine ⟨[], .nil _, rfl, fun p hp => absurd hp List.not_mem_nil, fun k τ _ other other' h => ?_⟩
    cases h
    exact .nil _ _
  | cons patience hcall _ ih =>
    obtain ⟨readings, hfirst⟩ := Completed.exists_takenAlone hcall
    obtain ⟨log, hlater⟩ := ih
    exact ⟨readings :: log, .cons hfirst hlater⟩

/-! ## Two histories -/

/-- Calls that ask for as many identifiers come to the same on one generator and one clock. -/
theorem LoneHistory.unique {g g₁ g₂ : Generator} {clock₁ clock₂ : σ} {cs cs' : List Completed}
    (h : LoneHistory g clock cs g₁ clock₁) (h' : LoneHistory g clock cs' g₂ clock₂)
    (hsame : cs.map (·.call.count?) = cs'.map (·.call.count?)) :
    cs.map (·.result) = cs'.map (·.result) ∧ g₁ = g₂ := by
  induction h generalizing cs' with
  | nil =>
    cases h' with
    | nil => exact ⟨rfl, rfl⟩
    | cons => cases hsame
  | @cons _ _ _ _ _ _ c _ patience hcall rest ih =>
    cases h' with
    | nil => cases hsame
    | @cons _ _ _ _ _ _ c' _ patience' hcall' rest' =>
      obtain ⟨hcount, hlater⟩ := List.cons.inj hsame
      -- alone, a call is no more than the count that it asks for
      have hdraw : c'.call.drawAlone (σ := σ) patience' = c.call.drawAlone patience' := by
        simp only [Call.drawAlone, hcount]
      rw [hdraw] at hcall'
      obtain ⟨hresult, rfl, rfl⟩ := by
        simpa using (Call.onlyReads_drawAlone c.call).unique hcall hcall'
      obtain ⟨hresults, hg⟩ := ih rest' hlater
      exact ⟨by rw [List.map_cons, List.map_cons, hresult, hresults], hg⟩

/-- Where one list of readings goes on from another one, one clock answers both. -/
theorem exists_reads_both {readings more : List UInt64} (h : readings <+: more ∨ more <+: readings) :
    ∃ clock clock' clock'' : Nat → UInt64, Reads clock readings clock' ∧ Reads clock more clock'' := by
  rcases h with ⟨rest, rfl⟩ | ⟨rest, rfl⟩
  · obtain ⟨clock, clock'', hreads⟩ := exists_reads (readings ++ rest)
    obtain ⟨clock', hbefore, -⟩ := Reads.append_iff.mp hreads
    exact ⟨clock, clock', clock'', hbefore, hreads⟩
  · obtain ⟨clock, clock', hreads⟩ := exists_reads (more ++ rest)
    obtain ⟨clock'', hbefore, -⟩ := Reads.append_iff.mp hreads
    exact ⟨clock, clock', clock'', hreads, hbefore⟩

/-- Two histories ask a location for as many identifiers, call by call, and show it the same readings,
though one may show more of them. -/
structure AskedAlike (k : Location) (cs : List Completed) (log : List (List UInt64))
    (cs₂ : List Completed) (log₂ : List (List UInt64)) : Prop where
  counts_eq : (cs.filter (·.addresses k)).map (·.call.count?)
    = (cs₂.filter (·.addresses k)).map (·.call.count?)
  readings_comparable : readingsFor k cs log <+: readingsFor k cs₂ log₂
    ∨ readingsFor k cs₂ log₂ <+: readingsFor k cs log

/-- Where two histories ask a location alike, its calls come to the same, whatever else is called
for. -/
theorem StandsAlone.results_eq {τ : Type} [TimeSource τ] {gens : Generators} {r₂ : Registry}
    {clock₂ clock₂' : τ} {cs cs₂ : List Completed} {log log₂ : List (List UInt64)}
    (h : StandsAlone gens clock cs r' clock' log) (h₂ : StandsAlone gens clock₂ cs₂ r₂ clock₂' log₂)
    {k : Location} (halike : AskedAlike k cs log cs₂ log₂) :
    (cs.filter (·.addresses k)).map (·.result) = (cs₂.filter (·.addresses k)).map (·.result)
      ∧ r'.generatorOf k = r₂.generatorOf k := by
  obtain ⟨shared, _, _, hreads, hreads₂⟩ := exists_reads_both halike.readings_comparable
  exact (h.alone k hreads).unique (h₂.alone k hreads₂) halike.counts_eq

/-- The call fails before it reads any clock, and leaves the registry as it is. -/
def Call.Refused (ids : LocalIds) (call : Call) : Prop :=
  ∃ cause, ((∃ count, call.count? = some count ∧ cause = .countOutOfRange count 1000)
      ∨ ∃ field number, cause = .invalidArgument (.fieldTooLarge field number 31))
    ∧ ∀ {τ : Type} [TimeSource τ] (patience : Nat) (r : Registry) (clock : τ),
      call.draw ids patience (r, clock) = some (.error cause, r, clock)

/-- Numbers out of range are refused. -/
theorem ofNumbers_outOfRange {datacenter machine : UInt64} (h : 31 < datacenter ∨ 31 < machine) :
    ∃ field number, Location.ofNumbers datacenter machine
      = .error (.invalidArgument (.fieldTooLarge field number 31)) := by
  unfold Location.ofNumbers
  by_cases hd : datacenter ≤ IdField.datacenter.greatest
  · have hm : ¬ machine ≤ IdField.machine.greatest :=
      UInt64.not_le.mpr (h.resolve_left (UInt64.not_lt.mpr hd))
    rw [dif_pos hd, dif_neg hm]
    exact ⟨_, _, rfl⟩
  · rw [dif_neg hd]
    exact ⟨_, _, rfl⟩

/-- A call that asks for a location or for a count that there is not is refused. -/
theorem Call.refused_of_outOfRange (h : call.OutOfRange ids) : call.Refused ids := by
  by_cases hcount : ∃ count, call.count? = some count ∧ (count = 0 ∨ limit < count)
  · obtain ⟨count, hsome, hrange⟩ := hcount
    have hcheck : checkCount count = .error (.countOutOfRange count 1000) := if_pos hrange
    refine ⟨_, .inl ⟨count, hsome, rfl⟩, fun patience r clock => ?_⟩
    rw [(draw_of_checkCount hsome hcheck ids).1]
    rfl
  · have hnumbers : 31 < (call.asked ids).1 ∨ 31 < (call.asked ids).2 :=
      h.elim .inl fun hrest => hrest.elim .inr fun hlast => absurd hlast hcount
    obtain ⟨field, number, hrefused⟩ := ofNumbers_outOfRange hnumbers
    have haccepted (count : UInt64) (hsome : call.count? = some count) : checkCount count = .ok () :=
      if_neg fun hrange => hcount ⟨count, hsome, hrange⟩
    refine ⟨_, .inr ⟨field, number, rfl⟩, fun patience r clock => ?_⟩
    rw [draw_eq_drawFrom ids haccepted]
    simp only [Registry.drawFrom, Registry.getGenerator, hrefused]

/-- What is said of the calls `cs` on one registry that was empty before and is `r'` after them, while
the clock went on from `clock` to `clock'`. -/
structure ServedApart (clock : σ) (cs : List Completed) (r' : Registry) (clock' : σ) : Prop where
  /-- Generators on their own start as new ones. -/
  fresh : ∀ k : Location, Generator.new k.datacenter k.machine = .ok k.freshGenerator
  /-- The calls for a location come to what they come to on its generator alone, and in every other
  history that asks it alike. -/
  alone : ∃ log, StandsAlone Location.freshGenerator clock cs r' clock' log
    ∧ ∀ {τ : Type} [TimeSource τ] {clock₂ clock₂' : τ} {cs₂ : List Completed} {r₂ : Registry},
      History .empty clock₂ cs₂ r₂ clock₂' →
        ∃ log₂, StandsAlone Location.freshGenerator clock₂ cs₂ r₂ clock₂' log₂
          ∧ ∀ k, AskedAlike k cs log cs₂ log₂ →
            (cs.filter (·.addresses k)).map (·.result) = (cs₂.filter (·.addresses k)).map (·.result)
              ∧ r'.generatorOf k = r₂.generatorOf k
  /-- Calls that ask for what there is not change nothing, here or anywhere. -/
  refused : ∀ (ids : LocalIds) (call : Call), call.OutOfRange ids → call.Refused ids

/-- **Locations do not meet.** However the calls to facades on one registry follow each other and
whatever the clock reads, every location is served as if it were the only one. -/
theorem history_stands_alone {cs : List Completed} (h : History .empty clock cs r' clock') :
    ServedApart clock cs r' clock' where
  fresh := Location.new_eq_freshGenerator
  alone := by
    obtain ⟨log, hlog⟩ := h.exists_standsAlone
    refine ⟨log, hlog, ?_⟩
    intro τ _ clock₂ clock₂' cs₂ r₂ h₂
    obtain ⟨log₂, hlog₂⟩ := h₂.exists_standsAlone
    exact ⟨log₂, hlog₂, fun k halike => hlog.results_eq hlog₂ halike⟩
  refused _ _ hrange := Call.refused_of_outOfRange hrange

/-! ### Two locations on one clock -/

/-- Calls for two locations in turn: a batch that the clock ends part of the way, one behind it that is
served at the later reading, and refusals between them. -/
def neighbourCalls : List Completed :=
  [⟨unsteadyFacade, .next, .ok ["21110784"]⟩,
    ⟨unsteadyFacade, .nextFor 7 8, .ok ["26116096"]⟩,
    ⟨unsteadyFacade, .nextMany 2,
      .error (.partialBatch ["25305088"] (.clockMovedBackwards 6 4))⟩,
    ⟨unsteadyFacade, .nextManyFor 1 2 0, .error (.countOutOfRange 0 1000)⟩,
    ⟨unsteadyFacade, .nextFor 32 2, .error (.invalidArgument (.fieldTooLarge .datacenter 32 31))⟩,
    ⟨unsteadyFacade, .nextManyFor 7 8 1, .ok ["30310400"]⟩]

/-- The registry after these calls. -/
def neighbourRegistry : Registry :=
  ⟨[(unsteadyFacade.home, ⟨⟨25305088⟩⟩), (⟨7, 8, by decide, by decide⟩, ⟨⟨30310400⟩⟩)]⟩

/-- The clock of these calls. -/
def neighbourReadings : Nat → UInt64 := fun n => [5, 6, 6, 4, 7].getD n 0

/-- Two locations on a clock that goes back for one of them. -/
theorem history_stands_alone_neighbours :
    History .empty neighbourReadings neighbourCalls neighbourRegistry
        (fun n => neighbourReadings (n + 5))
      ∧ ServedApart neighbourReadings neighbourCalls neighbourRegistry
          (fun n => neighbourReadings (n + 5)) := by
  have h : History .empty neighbourReadings neighbourCalls neighbourRegistry
      (fun n => neighbourReadings (n + 5)) := by
    refine .cons 1 rfl ?_
    refine .cons 1 rfl ?_
    refine .cons 1 rfl ?_
    refine .cons 1 rfl ?_
    refine .cons 1 rfl ?_
    refine .cons 1 rfl ?_
    exact .nil _ _
  exact ⟨h, history_stands_alone h⟩

end LocalIds

end IdMint
