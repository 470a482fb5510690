import IdMint.Proofs.Rehearsals
import IdMint.Proofs.SequenceRuns
import IdMint.Proofs.StartResults

/-! # Tasks under different time limits

A task under a time limit and the same task under a later one, or under none, go on in step: on the same
stage they wait for the same and are woken at the same moments, until the earlier limit strikes. A step
of the scene under the later limit is `Scene.under` of a step under the earlier one; run lemmas in both
directions follow by induction on the steps. -/

namespace IdMint.Coordination

/-! ## Programs -/

namespace Program

/-- The program sets no time limit, and lifts one only if it may. -/
def SetsNoLimit (lifts : Bool) : Program α → Prop
  | finish _ => True
  | observe next => ∀ phase, (next phase).SetsNoLimit lifts
  | exchange _ _ next => ∀ won, (next won).SetsNoLimit lifts
  | assign _ next | pause _ next => next.SetsNoLimit lifts
  | disarm next => lifts = true ∧ next.SetsNoLimit lifts
  | call _ next => ∀ reply, (next reply).SetsNoLimit lifts
  | persist _ _ next => ∀ outcome, (next outcome).SetsNoLimit lifts
  | arm .. => False

/-- The program sets no time limit. -/
abbrev Unarmed (p : Program α) : Prop := p.SetsNoLimit true

/-- The program neither sets a time limit nor lifts one. -/
abbrev Limitless (p : Program α) : Prop := p.SetsNoLimit false

/-- The program as it is with a time limit, or without one: then there is none to lift. -/
def under (limited : Bool) : Program α → Program α
  | finish result => finish result
  | observe next => observe fun phase => (next phase).under limited
  | exchange expected new next => exchange expected new fun won => (next won).under limited
  | assign new next => assign new (next.under limited)
  | call request next => call request fun reply => (next reply).under limited
  | persist gate request next => persist gate request fun outcome => (next outcome).under limited
  | pause ms next => pause ms (next.under limited)
  | arm limit late next => arm limit (late.under limited) (next.under limited)
  | disarm next => if limited then disarm (next.under limited) else next.under limited

section

variable {lifts : Bool} {p : Program α}

theorem SetsNoLimit.bind {f : α → Program β} (h : p.SetsNoLimit lifts)
    (hf : ∀ result, (f result).SetsNoLimit lifts) : (p.bind f).SetsNoLimit lifts := by
  induction p with
  | finish result => exact hf result
  | observe next ih | exchange _ _ next ih | call _ next ih | persist _ _ next ih =>
    exact fun x => ih x (h x)
  | assign _ next ih | pause _ next ih => exact ih h
  | disarm next ih => exact ⟨h.1, ih h.2⟩
  | arm => exact h.elim

theorem SetsNoLimit.unarmed (h : p.SetsNoLimit lifts) : p.Unarmed := by
  induction p with
  | finish => trivial
  | observe next ih | exchange _ _ next ih | call _ next ih | persist _ _ next ih =>
    exact fun x => ih x (h x)
  | assign _ next ih | pause _ next ih => exact ih h
  | disarm next ih => exact ⟨rfl, ih h.2⟩
  | arm => exact h.elim

end

theorem under_bind (limited : Bool) (p : Program α) (f : α → Program β) :
    (p.bind f).under limited = (p.under limited).bind fun result => (f result).under limited := by
  induction p with
  | finish => rfl
  | observe _ ih | exchange _ _ _ ih | call _ _ ih | persist _ _ _ ih =>
    simp only [Program.bind, under]; congr 1; funext x; exact ih x
  | assign _ _ ih | pause _ _ ih => simp only [Program.bind, under, ih]
  | arm _ _ _ ihl ihn => simp only [Program.bind, under, ihl, ihn]
  | disarm _ ih => cases limited <;> simp only [Program.bind, under, ih, if_true, if_false,
      Bool.false_eq_true]

/-- With a time limit the program is as it is. -/
theorem under_true (p : Program α) : p.under true = p := by
  induction p with
  | finish => rfl
  | observe _ ih | exchange _ _ _ ih | call _ _ ih | persist _ _ _ ih =>
    simp only [under]; congr 1; funext x; exact ih x
  | assign _ _ ih | pause _ _ ih => simp only [under, ih]
  | arm _ _ _ ihl ihn => simp only [under, ihl, ihn]
  | disarm _ ih => simp only [under, ih, if_true]

/-- A program that lifts no time limit is the same without one. -/
theorem SetsNoLimit.under_eq {p : Program α} (h : p.Limitless) (limited : Bool) :
    p.under limited = p := by
  induction p with
  | finish => rfl
  | observe _ ih | exchange _ _ _ ih | call _ _ ih | persist _ _ _ ih =>
    simp only [under]; congr 1; funext x; exact ih x (h x)
  | assign _ _ ih | pause _ _ ih => simp only [under, ih h]
  | disarm => cases h.1
  | arm => exact h.elim

end Program

/-! ## Tasks -/

/-- What is left of a task that waits, as it is with a time limit or without one. -/
def Wait.under (limited : Bool) : Wait α → Wait α
  | ended result => ended result
  | calling request next => calling request fun reply => (next reply).under limited
  | trying gate request retries since next =>
    trying gate request retries since fun outcome => (next outcome).under limited
  | resting gate request retries since wake next =>
    resting gate request retries since wake fun outcome => (next outcome).under limited
  | pausing wake next => pausing wake (next.under limited)

/-- What is left of a task that waits sets no time limit. -/
def Wait.Unarmed : Wait α → Prop
  | ended _ => True
  | calling _ next => ∀ reply, (next reply).Unarmed
  | trying _ _ _ _ next | resting _ _ _ _ _ next => ∀ outcome, (next outcome).Unarmed
  | pausing _ next => next.Unarmed

namespace Task

/-- The task under another time limit where it has one. -/
def under (other : Option (Alarm α)) (task : Task α) : Task α :=
  ⟨task.wait.under other.isSome, task.alarm.bind fun _ => other⟩

/-- The task has no time limit but the given one, which it may have lifted. -/
structure Keeps (alarm : Alarm α) (task : Task α) : Prop where
  wait : task.wait.Unarmed
  alarm : task.alarm = none ∨ task.alarm = some alarm

end Task

section

variable {alarm : Alarm α} {other : Option (Alarm α)}

theorem Program.Unarmed.keeps_advance {p : Program α} (h : p.Unarmed) (now : Nat) (phase : Phase)
    {own : Option (Alarm α)} (hown : own = none ∨ own = some alarm) :
    (p.advance now phase own).2.Keeps alarm := by
  induction p generalizing phase own with
  | finish => exact ⟨trivial, .inl rfl⟩
  | observe next ih => exact ih phase (h phase) phase hown
  | exchange expected new next ih =>
    rw [advance]
    split
    · exact ih true (h true) new hown
    · exact ih false (h false) phase hown
  | assign new next ih => exact ih h new hown
  | call | persist | pause => exact ⟨h, hown⟩
  | arm => exact h.elim
  | disarm next ih => exact ih h.2 phase (.inl rfl)

/-- A program comes to the same waiting point whatever its time limit. -/
theorem Program.Unarmed.advance_under {p : Program α} (h : p.Unarmed) (now : Nat) (phase : Phase)
    (own : Option (Alarm α)) :
    (p.under other.isSome).advance now phase (own.bind fun _ => other)
      = ((p.advance now phase own).1, (p.advance now phase own).2.under other) := by
  induction p generalizing phase own with
  | finish => rfl
  | observe next ih => exact ih phase (h phase) phase own
  | exchange expected new next ih =>
    simp only [under, advance]
    split
    · exact ih true (h true) new own
    · exact ih false (h false) phase own
  | assign new next ih => exact ih h new own
  | call | persist | pause => rfl
  | arm => exact h.elim
  | disarm next ih =>
    cases other with
    | none =>
      rw [Option.bind_fun_none]
      exact ih h.2 phase none
    | some other => exact ih h.2 phase none

namespace Task

variable {task : Task α}

/-- Whatever a task waits for, it goes on in step with itself under another time limit. -/
theorem answered_under (h : task.wait.Unarmed) (policy : RetryPolicy) (lasts : Nat → Nat)
    (now draw : Nat) (phase : Phase) (reply : {β : Type} → Request β → Except Fault β) :
    (task.under other).answered policy lasts now draw phase reply
      = ((task.answered policy lasts now draw phase reply).1,
        (task.answered policy lasts now draw phase reply).2.under other) := by
  obtain ⟨wait, own⟩ := task
  cases wait with
  | ended | resting | pausing => rfl
  | calling request next => exact (h (reply request)).advance_under now phase own
  | trying gate request retries since next =>
    simp only [answered, under, Wait.under]
    cases reply request with
    | ok value => exact (h (.ok value)).advance_under now phase own
    | error fault =>
      dsimp only
      by_cases hretry : fault.isRetryable = true
      · rw [if_pos hretry, if_pos hretry]
        cases gateError? gate phase with
        | some cause => exact (h (.error cause)).advance_under now phase own
        | none =>
          dsimp only
          cases policy.allowRetry retries (.ofMillis (now - since)) draw with
          | none => exact (h (.error (.coordination fault))).advance_under now phase own
          | some span => rfl
      · rw [if_neg hretry, if_neg hretry]
        exact (h (.error (.coordination fault))).advance_under now phase own

theorem woken_under (h : task.wait.Unarmed) (now : Nat) (phase : Phase) :
    (task.under other).woken now phase
      = ((task.woken now phase).1, (task.woken now phase).2.under other) := by
  obtain ⟨wait, own⟩ := task
  cases wait with
  | ended | calling | trying => rfl
  | pausing wake next => exact Program.Unarmed.advance_under h now phase own
  | resting gate request retries since wake next =>
    simp only [woken, under, Wait.under]
    cases gateError? gate phase with
    | some cause => exact (h (.error cause)).advance_under now phase own
    | none => rfl

/-- A task that goes on has no other time limit than before. -/
theorem Keeps.goes {policy : RetryPolicy} {told : Fault → Prop} {step : Phase × Task α}
    (h : task.Keeps alarm) (hlate : alarm.late.Unarmed) (hgoes : task.Goes policy told step) :
    step.2.Keeps alarm := by
  obtain ⟨wait, own⟩ := task
  obtain ⟨hwait, hown⟩ := h
  cases hgoes with
  | answer lasts now draw phase reply =>
    cases wait with
    | ended | resting | pausing => exact ⟨hwait, hown⟩
    | calling request next => exact (hwait (reply request)).keeps_advance now phase hown
    | trying gate request retries since next =>
      obtain ⟨outcome, -, hstep⟩ | ⟨fault, wake, -, hstep⟩ :=
        answered_trying policy lasts now draw reply
      · rw [hstep]
        exact (hwait outcome).keeps_advance now phase hown
      · rw [hstep]
        exact ⟨hwait, hown⟩
  | wake now phase =>
    cases wait with
    | ended | calling | trying => exact ⟨hwait, hown⟩
    | pausing wake next => exact Program.Unarmed.keeps_advance hwait now phase hown
    | resting gate request retries since wake next =>
      obtain ⟨cause, -, hstep⟩ | ⟨-, hstep⟩ := woken_resting now
      · rw [hstep]
        exact (hwait _).keeps_advance now phase hown
      · rw [hstep]
        exact ⟨hwait, hown⟩
  | expire now phase =>
    rcases hown with rfl | rfl
    · exact ⟨hwait, .inl rfl⟩
    · exact hlate.keeps_advance now phase (.inl rfl)

end Task

/-! ## Actors -/

namespace Actor

variable {actor : Actor α}

/-- The actor with its task under another time limit. -/
def under (other : Option (Alarm α)) (actor : Actor α) : Actor α :=
  { actor with task := actor.task.under other }

theorem settle_under (stage : Stage) (task : Task α) :
    settle stage (task.under other) = ((settle stage task).1, (settle stage task).2.under other) := by
  obtain ⟨wait, own⟩ := task
  cases wait <;> rfl

theorem task_settle (stage : Stage) (task : Task α) : (settle stage task).2.task = task := by
  obtain ⟨wait, own⟩ := task
  cases wait <;> rfl

theorem wake?_under (actor : Actor α) : (actor.under other).wake? = actor.wake? := by
  obtain ⟨⟨wait, own⟩, transit, ended⟩ := actor
  cases wait <;> rfl

theorem cost_under (actor : Actor α) (now : Nat) : (actor.under other).cost now = actor.cost now := by
  rw [cost, cost, ready, ready, wake?_under]
  rfl

theorem isClosing_under (actor : Actor α) : (actor.under other).isClosing = actor.isClosing := by
  obtain ⟨⟨wait, own⟩, transit, ended⟩ := actor
  cases wait <;> rfl

/-- A call that is delivered is carried out, and its task goes on with the answer. -/
theorem deliver_eq (policy : RetryPolicy) (stage : Stage) (actor : Actor α) (d : Disturbance) :
    actor.deliver policy stage d
      = settleAt { stage with
          coordinator := actor.task.wait.carriedOut stage.coordinator d, draws := stage.draws.tail }
        (actor.task.answered policy stage.lasts stage.now (stage.draws.headD 0) stage.phase
          (Wait.replyOf stage.coordinator d)) := by
  obtain ⟨⟨wait, own⟩, transit, ended⟩ := actor
  cases wait <;> rfl

theorem deliver_under (h : actor.task.wait.Unarmed) (policy : RetryPolicy) (stage : Stage)
    (d : Disturbance) :
    (actor.under other).deliver policy stage d
      = ((actor.deliver policy stage d).1, (actor.deliver policy stage d).2.under other) := by
  have hcarried : (actor.under other).task.wait.carriedOut stage.coordinator d
      = actor.task.wait.carriedOut stage.coordinator d := by
    obtain ⟨⟨wait, own⟩, transit, ended⟩ := actor
    cases wait <;> rfl
  rw [deliver_eq, deliver_eq, hcarried]
  exact (congrArg (settleAt _) (Task.answered_under h policy stage.lasts stage.now
    (stage.draws.headD 0) stage.phase (Wait.replyOf stage.coordinator d))).trans (settle_under _ _)

theorem arrive_under (h : actor.task.wait.Unarmed) (policy : RetryPolicy) (stage : Stage)
    (transit : Transit) :
    (actor.under other).arrive policy stage transit
      = ((actor.arrive policy stage transit).1, (actor.arrive policy stage transit).2.under other) := by
  cases transit with
  | closing arrival own closing => exact deliver_under h policy _ own
  | outbound arrival own =>
    simp only [arrive, isClosing_under]
    split
    · split
      · rfl
      · exact deliver_under h policy _ own
    · exact deliver_under h policy _ own

/-- An actor proceeds in step with itself under another time limit. -/
theorem proceed_under (h : actor.task.wait.Unarmed) (policy : RetryPolicy) (stage : Stage) :
    (actor.under other).proceed policy stage
      = ((actor.proceed policy stage).1, (actor.proceed policy stage).2.under other) := by
  have htransit : (actor.under other).transit = actor.transit := rfl
  rw [proceed, proceed, htransit]
  cases actor.transit with
  | some transit => exact arrive_under h policy stage transit
  | none =>
    exact (congrArg (settleAt _) (Task.woken_under h stage.now stage.phase)).trans (settle_under _ _)

theorem task_deliver (policy : RetryPolicy) (stage : Stage) (actor : Actor α) (d : Disturbance) :
    ∃ phase, actor.task.Goes policy (fun _ => True) (phase, (actor.deliver policy stage d).2.task) := by
  refine ⟨(actor.task.answered policy stage.lasts stage.now (stage.draws.headD 0) stage.phase
    (Wait.replyOf stage.coordinator d)).1, ?_⟩
  rw [deliver_eq, settleAt, task_settle]
  exact .answer stage.lasts stage.now (stage.draws.headD 0) stage.phase _ fun _ _ _ => trivial

/-- The task of an actor that proceeds goes on as well, or its call is held up. -/
theorem task_proceed (policy : RetryPolicy) (stage : Stage) (actor : Actor α) :
    (actor.proceed policy stage).2.task = actor.task
      ∨ ∃ phase, actor.task.Goes policy (fun _ => True)
        (phase, (actor.proceed policy stage).2.task) := by
  rw [proceed]
  cases actor.transit with
  | none =>
    refine .inr ⟨(actor.task.woken stage.now stage.phase).1, ?_⟩
    dsimp only
    rw [settleAt, task_settle]
    exact .wake stage.now stage.phase
  | some transit =>
    cases transit with
    | closing arrival own closing => exact .inr (task_deliver policy _ actor own)
    | outbound arrival own =>
      dsimp only [arrive]
      split
      · split
        · exact .inl rfl
        · exact .inr (task_deliver policy _ actor own)
      · exact .inr (task_deliver policy _ actor own)

/-- So does that of an actor whose time limit may strike. -/
theorem task_act (policy : RetryPolicy) (stage : Stage) (actor : Actor α) :
    (actor.act policy stage).2.task = actor.task
      ∨ ∃ phase, actor.task.Goes policy (fun _ => True) (phase, (actor.act policy stage).2.task) := by
  rw [act]
  split
  · exact task_proceed policy _ actor
  · refine .inr ⟨(actor.task.expired stage.now stage.phase).1, ?_⟩
    rw [settleAt, task_settle]
    exact .expire stage.now stage.phase

end Actor

/-! ## Scenes -/

namespace Scene

variable {policy : RetryPolicy} {scene : Scene α β} {wake : Nat}

/-- The scene with the first actor under another time limit. -/
def under (other : Option (Alarm α)) (scene : Scene α β) : Scene α β :=
  { scene with first := scene.first.under other }

theorem proceedAt_under (h : scene.first.task.wait.Unarmed) (policy : RetryPolicy) (wake : Nat) :
    (scene.under other).proceedAt policy wake = (scene.proceedAt policy wake).under other := by
  simp only [proceedAt, under, goOn, beside, Actor.cost_under, Actor.proceed_under h]

theorem strikes_under {moment : Nat} :
    (scene.under other).Strikes moment wake ↔ scene.Strikes moment wake := by
  simp only [Strikes, under, Actor.cost_under]

/-- The scene after the time limit of the first actor has struck. -/
def struck (scene : Scene α β) (alarm : Alarm α) (now : Nat) (round : Round) : Scene α β :=
  beside scene.second (Actor.settleAt { scene.stage with now, round }
    (alarm.late.advance now scene.stage.phase none))

/-- An actor whose wait is not over, or that the round has no room for, goes on as its time limit
says. -/
theorem firstActs_eq_struck (halarm : scene.first.task.alarm = some alarm) {now : Nat} {round : Round}
    (h : scene.first.ready now = false ∨ round.left < scene.first.cost now) :
    scene.firstActs policy now round = scene.struck alarm now (round.spend (scene.first.cost now)) := by
  have hlate : (scene.first.ready now && decide (scene.first.cost now ≤ round.left)) = false := by
    rcases h with h | h
    · rw [h, Bool.false_and]
    · rw [decide_eq_false (Nat.not_le.mpr h), Bool.and_false]
  simp only [firstActs, Actor.act, hlate, Task.expired, halarm, if_false, Bool.false_eq_true]
  rfl

/-- A time limit that strikes the first actor does so with the next step. -/
theorem step?_of_strikes (policy : RetryPolicy) (hsecond : scene.second.due? = none)
    (hwake : scene.first.wake? = some wake) (halarm : scene.first.task.alarm = some alarm)
    (h : scene.Strikes alarm.moment wake) :
    ∃ now round, scene.step? policy = some (scene.struck alarm now round) := by
  have hdue : scene.first.due? = some (min wake alarm.moment) := by simp [Actor.due?, hwake, halarm]
  rw [step?_eq_stepAt hsecond hdue]
  generalize hnow : max (min wake alarm.moment) scene.stage.now = now
  have hle : min wake alarm.moment ≤ now := by omega
  simp only [stepAt, hdue, hsecond, Option.any_some, Option.any_none, decide_eq_true hle,
    Bool.true_and, Bool.false_and, if_true, if_false, Bool.false_eq_true]
  by_cases hearly : alarm.moment < wake ∧ scene.stage.now < wake
  · -- the wait is not over when the limit strikes, in whatever round
    have hwaits : scene.first.ready now = false := by
      simp only [Actor.ready, hwake, Option.any_some]
      exact decide_eq_false (by omega)
    split
    · exact ⟨now, _, congrArg some (firstActs_eq_struck halarm (.inl hwaits))⟩
    · exact ⟨now, _, congrArg some (firstActs_eq_struck halarm (.inl hwaits))⟩
  · obtain ⟨hlate, hround, hwatched⟩ := h.resolve_left hearly
    obtain rfl : max wake scene.stage.now = now := by omega
    have hoverdue : scene.first.overdue (max wake scene.stage.now) = true := by
      rw [Actor.overdue, halarm, Option.any_some]
      exact decide_eq_true hlate
    have hstands : scene.first.standsBack (scene.stage.round.resume (max wake scene.stage.now))
        (max wake scene.stage.now) = false := by
      rw [Actor.standsBack, hwatched, hoverdue, Bool.true_and, Bool.not_true, Bool.and_false]
    rw [hstands]
    exact ⟨_, _, congrArg some (firstActs_eq_struck halarm (.inr hround))⟩

/-- **One step.** Nothing is left to do, whatever the time limit; or the scenes go on in step; or the
time limit strikes the one and not the other. -/
theorem step?_cases (policy : RetryPolicy) (hsecond : scene.second.due? = none)
    (hkeeps : scene.first.task.Keeps alarm) (hlate : alarm.late.Unarmed)
    (hother : ∀ later, other = some later → alarm.moment ≤ later.moment) :
    scene.step? policy = none ∧ (scene.under other).step? policy = none
      ∨ (∃ next, next.second = scene.second ∧ next.first.task.Keeps alarm
        ∧ scene.step? policy = some next ∧ (scene.under other).step? policy = some (next.under other))
      ∨ ∃ now round, scene.step? policy = some (scene.struck alarm now round) := by
  cases hwake : scene.first.wake? with
  | none =>
    have hwake' : (scene.first.under other).wake? = none := (Actor.wake?_under _).trans hwake
    exact .inl ⟨step?_eq_none (by simp [Actor.due?, hwake]) hsecond,
      step?_eq_none (by simp [under, Actor.due?, hwake']) hsecond⟩
  | some wake =>
    by_cases hstrikes : scene.first.task.alarm = some alarm ∧ scene.Strikes alarm.moment wake
    · exact .inr (.inr (step?_of_strikes policy hsecond hwake hstrikes.1 hstrikes.2))
    · refine .inr (.inl ⟨scene.proceedAt policy wake, rfl, ?_, ?_, ?_⟩)
      · rcases Actor.task_proceed policy _ scene.first with heq | ⟨phase, hgoes⟩
        · rw [proceedAt, goOn, beside, heq]
          exact hkeeps
        · exact hkeeps.goes hlate hgoes
      · apply step?_eq_proceedAt policy hsecond hwake
        intro own hown
        rcases hkeeps.alarm with hnone | hsome
        · cases hnone.symm.trans hown
        · obtain rfl := Option.some.inj (hsome.symm.trans hown)
          exact fun h => hstrikes ⟨hsome, h⟩
      · rw [← proceedAt_under hkeeps.wait]
        have hsecond' : (scene.under other).second.due? = none := hsecond
        have hwake' : (scene.under other).first.wake? = some wake :=
          (Actor.wake?_under _).trans hwake
        apply step?_eq_proceedAt policy hsecond' hwake'
        intro later hlater h
        -- the other limit is a later one, and strikes only where this one does
        obtain ⟨own, hown, hlater⟩ := Option.bind_eq_some_iff.mp hlater
        rcases hkeeps.alarm with hnone | hsome
        · cases hnone.symm.trans hown
        · exact hstrikes ⟨hsome, (strikes_under.mp h).earlier (hother later hlater)⟩

/-! ### Runs -/

/-- Wherever the time limit strikes, the scene comes to an end at which `post` holds. -/
def EndsLate (policy : RetryPolicy) (second : Actor β) (alarm : Alarm α) (post : Scene α β → Prop) :
    Prop :=
  ∀ stage : Stage, (beside second (Actor.settleAt stage
    (alarm.late.advance stage.now stage.phase none))).EndsIn policy post

/-- A scene comes to one end only. -/
theorem finish?_unique {last last' : Scene α β} {steps more : Nat}
    (h : scene.finish? policy steps = some last) (h' : scene.finish? policy more = some last') :
    last = last' := by
  have hlast := finish?_mono h (Nat.le_max_left steps more)
  have hlast' := finish?_mono h' (Nat.le_max_right steps more)
  exact Option.some.inj (hlast.symm.trans hlast')

variable {second : Actor β} {post : Scene α β → Prop} {steps : Nat}

/-- A scene that comes to its end before its time limit strikes does so under every later one. -/
theorem finish?_under {last : Scene α β} (hidle : second.due? = none)
    (hsecond : scene.second = second) (hkeeps : scene.first.task.Keeps alarm)
    (hlate : alarm.late.Unarmed) (hends : EndsLate policy second alarm post)
    (hother : ∀ later, other = some later → alarm.moment ≤ later.moment)
    (h : scene.finish? policy steps = some last) :
    post last ∨ (scene.under other).finish? policy steps = some (last.under other) := by
  induction steps generalizing scene with
  | zero => cases h
  | succ steps ih =>
    subst hsecond
    rw [finish?] at h ⊢
    obtain ⟨hnone, hnone'⟩ | ⟨next, hsecond, hnext, hstep, hstep'⟩ | ⟨now, round, hstep⟩ :=
      step?_cases policy hidle hkeeps hlate hother
    · rw [hnone] at h
      rw [hnone']
      obtain rfl := Option.some.inj h
      exact .inr rfl
    · rw [hstep] at h
      rw [hstep']
      exact ih hsecond hnext h
    · rw [hstep] at h
      obtain ⟨more, last', hfinish, hpost⟩ := hends { scene.stage with now, round }
      obtain rfl : last = last' := finish?_unique h hfinish
      exact .inl hpost

/-- A scene comes to an end where it would under a later time limit. -/
theorem endsIn_of_finish?_under {last : Scene α β} (hidle : second.due? = none)
    (hsecond : scene.second = second) (hkeeps : scene.first.task.Keeps alarm)
    (hlate : alarm.late.Unarmed) (hends : EndsLate policy second alarm post)
    (hother : ∀ later, other = some later → alarm.moment ≤ later.moment)
    (h : (scene.under other).finish? policy steps = some last) :
    scene.EndsIn policy fun own => post own ∨ own.under other = last := by
  induction steps generalizing scene with
  | zero => cases h
  | succ steps ih =>
    subst hsecond
    rw [finish?] at h
    obtain ⟨hnone, hnone'⟩ | ⟨next, hsecond, hnext, hstep, hstep'⟩ | ⟨now, round, hstep⟩ :=
      step?_cases policy hidle hkeeps hlate hother
    · rw [hnone'] at h
      exact endsIn_of_step?_none hnone (.inr (Option.some.inj h))
    · rw [hstep'] at h
      exact (ih hsecond hnext h).of_step? hstep
    · obtain ⟨more, last', hfinish, hpost⟩ := hends { scene.stage with now, round }
      exact EndsIn.of_step? ⟨more, last', hfinish, .inl hpost⟩ hstep

/-- A step of a scene on which the second actor has ended is the first actor's. -/
theorem eq_beside_of_step? {next : Scene α β} (hsecond : scene.second.due? = none)
    (h : scene.step? policy = some next) :
    ∃ stage, next = beside scene.second (scene.first.act policy stage) := by
  cases hdue : scene.first.due? with
  | none =>
    rw [step?_eq_none hdue hsecond] at h
    cases h
  | some due =>
    rw [step?_eq_stepAt hsecond hdue] at h
    obtain rfl := Option.some.inj h
    simp only [stepAt, hdue, hsecond, Option.any_some, Option.any_none, Bool.false_and,
      decide_eq_true (Nat.le_max_left due scene.stage.now), Bool.true_and, if_true, if_false,
      Bool.false_eq_true]
    split
    · exact ⟨_, rfl⟩
    · exact ⟨_, rfl⟩

/-- At the end of a scene a task ends with what its program yields. -/
theorem yields_of_finish? {last : Scene α β} {result : α → Prop} (hsecond : scene.second.due? = none)
    (hyields : scene.first.task.Yields (fun _ => True) result)
    (h : scene.finish? policy steps = some last) :
    last.first.task.Yields (fun _ => True) result := by
  induction steps generalizing scene with
  | zero => cases h
  | succ steps ih =>
    rw [finish?] at h
    cases hstep : scene.step? policy with
    | none =>
      rw [hstep] at h
      obtain rfl := Option.some.inj h
      exact hyields
    | some next =>
      rw [hstep] at h
      obtain ⟨stage, rfl⟩ := eq_beside_of_step? hsecond hstep
      have hnext : (beside scene.second (scene.first.act policy stage)).first.task.Yields
          (fun _ => True) result := by
        show (scene.first.act policy stage).2.task.Yields _ _
        obtain heq | ⟨phase, hgoes⟩ := Actor.task_act policy stage scene.first
        · rw [heq]
          exact hyields
        · exact hyields.goes hgoes
      refine ih ?_ hnext h
      exact hsecond

end Scene

end

end IdMint.Coordination
