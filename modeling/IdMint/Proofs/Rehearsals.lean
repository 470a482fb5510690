import IdMint.Coordination.Rehearsal
import IdMint.Proofs.ActionTrees

/-! # Rehearsals of one task

Where nobody closes the session beside it, a rehearsed task is alone on the stage, and time goes on to
whatever it waits for. `Actor.proceed` is how it goes on then; rounds and moments only say when. -/

namespace IdMint.Coordination

namespace Plan

/-- The disturbances that are left after the next call. -/
theorem take_isSuffix (plan : Plan) (kind other : RequestKind) :
    (plan.take kind).2 other <:+ plan other := by
  simp only [take]
  split
  · exact List.tail_suffix _
  · exact List.suffix_refl _

/-- The next call is calm, or the first of the disturbances to come befalls it. -/
theorem take_cases (plan : Plan) (kind : RequestKind) :
    plan kind = [] ∧ (plan.take kind).1 = .calm
      ∨ plan kind = (plan.take kind).1 :: (plan.take kind).2 kind := by
  cases hplan : plan kind with
  | nil => exact .inl ⟨rfl, by simp [Plan.take, hplan]⟩
  | cons d ds => exact .inr (by simp [Plan.take, hplan])

/-- A fault that befalls the next call is the first of those to come. -/
theorem eq_cons_of_fault {plan : Plan} {kind : RequestKind} {fault : Fault}
    (h : (plan.take kind).1.fault = some fault) :
    plan kind = (plan.take kind).1 :: (plan.take kind).2 kind := by
  refine (plan.take_cases kind).resolve_left ?_
  rintro ⟨-, hcalm⟩
  rw [hcalm] at h
  cases h

/-- The next call does not close the session where none to come does. -/
theorem closes_take {plan : Plan} {kind : RequestKind} (h : ∀ d ∈ plan kind, d.closes = false) :
    (plan.take kind).1.closes = false := by
  rcases plan.take_cases kind with ⟨-, hcalm⟩ | hcons
  · rw [hcalm]
    rfl
  · apply h
    rw [hcons]
    exact List.mem_cons_self

end Plan

namespace Coordinator

variable {d : Disturbance}

theorem performDisturbed_of_none (h : d.fault = none) (c : Coordinator) (request : Request β) :
    c.performDisturbed d request = c.perform request := by
  rw [performDisturbed, h]

/-- A call that is reported as failed and takes no effect. -/
theorem performDisturbed_of_missed {fault : Fault} (h : d.fault = some fault)
    (happlies : d.applies = false) (c : Coordinator) (request : Request β) :
    c.performDisturbed d request = (.error fault, c) := by
  simp [performDisturbed, h, happlies]

end Coordinator

namespace Actor

/-- How an actor goes on when what it waits for has happened. -/
def proceed (policy : RetryPolicy) (stage : Stage) (actor : Actor α) : Stage × Actor α :=
  match actor.transit with
  | some transit => arrive policy stage actor transit
  | none => settleAt stage (actor.task.woken stage.now stage.phase)

/-- An actor that is ready proceeds where the round permits it. -/
theorem act_eq_proceed {policy : RetryPolicy} {stage : Stage} {actor : Actor α}
    (hready : actor.ready stage.now = true) (hcost : actor.cost stage.now ≤ stage.round.left) :
    actor.act policy stage
      = actor.proceed policy { stage with round := stage.round.spend (actor.cost stage.now) } := by
  simp only [act, hready, decide_eq_true hcost, Bool.and_self, if_true]
  rfl

/-- A call that does not close the session is delivered when it arrives. -/
theorem arrive_outbound (policy : RetryPolicy) (stage : Stage) (actor : Actor α) {own : Disturbance}
    (hopen : own.closes = false ∨ stage.closable = false) (arrival : Nat) :
    actor.arrive policy stage (.outbound arrival own) = actor.deliver policy stage own := by
  have hclosing : (own.closes && stage.closable && !actor.isClosing) = false := by
    rcases hopen with hopen | hopen <;> simp [hopen]
  simp [arrive, hclosing]

end Actor

namespace Scene

variable {policy : RetryPolicy} {scene : Scene α β} {wake now : Nat}

/-- An actor on its stage, beside another one. -/
def beside (second : Actor β) (opened : Stage × Actor α) : Scene α β := ⟨opened.1, opened.2, second⟩

/-- The first actor proceeds at a moment and in a round. -/
def goOn (policy : RetryPolicy) (scene : Scene α β) (now : Nat) (round : Round) : Scene α β :=
  beside scene.second (scene.first.proceed policy { scene.stage with now, round })

theorem firstActs_eq_goOn {round : Round} (hwake : scene.first.wake? = some wake) (hle : wake ≤ now)
    (hcost : scene.first.cost now ≤ round.left) :
    scene.firstActs policy now round
      = scene.goOn policy now (round.spend (scene.first.cost now)) := by
  have hready : scene.first.ready now = true := by simp [Actor.ready, hwake, hle]
  simp only [firstActs, goOn, beside]
  rw [Actor.act_eq_proceed hready hcost]

/-- The first actor proceeds when its wait is over, in this round or, if that one is used up, in a new
one. -/
def proceedAt (policy : RetryPolicy) (scene : Scene α β) (wake : Nat) : Scene α β :=
  let now := max wake scene.stage.now
  let round := scene.stage.round.resume now
  let cost := scene.first.cost now
  scene.goOn policy now ((if round.left < cost then Round.fresh now else round).spend cost)

/-- A time limit that ends at a moment strikes before the wait of the first actor is over, or where the
actor would have to stand back then. -/
def Strikes (scene : Scene α β) (moment wake : Nat) : Prop :=
  moment < wake ∧ scene.stage.now < wake
    ∨ moment ≤ max wake scene.stage.now
      ∧ (scene.stage.round.resume (max wake scene.stage.now)).left
        < scene.first.cost (max wake scene.stage.now)
      ∧ (scene.stage.round.resume (max wake scene.stage.now)).watched = true

/-- Where a time limit strikes an earlier one strikes. -/
theorem Strikes.earlier {moment earlier : Nat} (h : scene.Strikes moment wake)
    (hle : earlier ≤ moment) : scene.Strikes earlier wake := by
  rcases h with ⟨hmoment, hnow⟩ | ⟨hmoment, hround⟩
  · exact .inl ⟨Nat.lt_of_le_of_lt hle hmoment, hnow⟩
  · exact .inr ⟨Nat.le_trans hle hmoment, hround⟩

/-- A step of a scene on which the first actor is alone, at the moment when the actor is due. -/
theorem step?_eq_stepAt {due : Nat} (hsecond : scene.second.due? = none)
    (hdue : scene.first.due? = some due) :
    scene.step? policy = some (scene.stepAt policy (max due scene.stage.now)) := by
  simp [step?, hdue, hsecond]

/-- On a stage where no time limit strikes it, the first actor proceeds when its wait is over, if the
second one has ended. -/
theorem step?_eq_proceedAt (policy : RetryPolicy) (hsecond : scene.second.due? = none)
    (hwake : scene.first.wake? = some wake)
    (hstrikes : ∀ alarm, scene.first.task.alarm = some alarm → ¬ scene.Strikes alarm.moment wake) :
    scene.step? policy = some (scene.proceedAt policy wake) := by
  -- the actor is due when its wait is over, at the latest now, and it may have been due before
  have hdue : ∃ due, scene.first.due? = some due ∧ due ≤ wake
      ∧ max due scene.stage.now = max wake scene.stage.now := by
    cases halarm : scene.first.task.alarm with
    | none => exact ⟨wake, by simp [Actor.due?, hwake, halarm], Nat.le_refl _, rfl⟩
    | some alarm =>
      have hearly := (not_or.mp (hstrikes alarm halarm)).1
      refine ⟨min wake alarm.moment, by simp [Actor.due?, hwake, halarm], Nat.min_le_left _ _, ?_⟩
      omega
  obtain ⟨due, hdue, hle, hmax⟩ := hdue
  rw [step?_eq_stepAt hsecond hdue, hmax]
  have hnow : wake ≤ max wake scene.stage.now := Nat.le_max_left _ _
  simp only [stepAt, hdue, hsecond, Option.any_some, Option.any_none,
    decide_eq_true (Nat.le_trans hle hnow), Bool.true_and, Bool.false_and, if_true]
  congr 1
  by_cases hcost : (scene.stage.round.resume (max wake scene.stage.now)).left
      < scene.first.cost (max wake scene.stage.now)
  · -- the round is used up, so the actor stands back and a new round begins at once
    have hstands : scene.first.standsBack (scene.stage.round.resume (max wake scene.stage.now))
        (max wake scene.stage.now) = true := by
      simp only [Actor.standsBack, decide_eq_true hcost, Bool.true_and, Bool.not_eq_true',
        Bool.and_eq_false_iff, Actor.overdue]
      cases halarm : scene.first.task.alarm with
      | none => exact .inr rfl
      | some alarm =>
        have hlate := (not_or.mp (hstrikes alarm halarm)).2
        by_cases hwatched : (scene.stage.round.resume (max wake scene.stage.now)).watched = true
        · exact .inr (decide_eq_false fun hmoment => hlate ⟨hmoment, hcost, hwatched⟩)
        · exact .inl (Bool.eq_false_iff.mpr hwatched)
    have hfresh : scene.first.cost (max wake scene.stage.now)
        ≤ longestRound :=
      Nat.le_trans (scene.first.cost_le_one _) (by decide)
    rw [hstands]
    simp only [Bool.not_true, if_false, Bool.false_eq_true, proceedAt, if_pos hcost]
    exact firstActs_eq_goOn hwake hnow hfresh
  · have hstands : scene.first.standsBack (scene.stage.round.resume (max wake scene.stage.now))
        (max wake scene.stage.now) = false := by
      simp [Actor.standsBack, hcost]
    rw [hstands]
    simp only [Bool.not_false, if_true, proceedAt, if_neg hcost]
    exact firstActs_eq_goOn hwake hnow (Nat.not_lt.mp hcost)

/-- The next step of a scene on which the first actor is alone and has no time limit. -/
theorem step?_eq_goOn (policy : RetryPolicy) (scene : Scene α β)
    (hsecond : scene.second.due? = none) (halarm : scene.first.task.alarm = none)
    (hwake : scene.first.wake? = some wake) :
    ∃ now round, scene.step? policy = some (scene.goOn policy now round) :=
  ⟨_, _, step?_eq_proceedAt policy hsecond hwake (by simp [halarm])⟩

/-- Nothing is left to do when both actors have ended. -/
theorem step?_eq_none (hfirst : scene.first.due? = none) (hsecond : scene.second.due? = none) :
    scene.step? policy = none := by
  simp [step?, hfirst, hsecond]

/-- A scene that comes to its end in some number of steps comes to it in every greater number. -/
theorem finish?_mono {last : Scene α β} {steps more : Nat} (h : scene.finish? policy steps = some last)
    (hle : steps ≤ more) : scene.finish? policy more = some last := by
  induction steps generalizing scene more with
  | zero => cases h
  | succ steps ih =>
    obtain ⟨more, rfl⟩ := Nat.exists_eq_add_one_of_ne_zero (Nat.ne_of_gt (Nat.lt_of_lt_of_le
      (Nat.succ_pos steps) hle))
    rw [finish?] at h ⊢
    cases hstep : scene.step? policy with
    | none =>
      rw [hstep] at h
      exact h
    | some next =>
      rw [hstep] at h
      exact ih h (Nat.le_of_succ_le_succ hle)

/-! ## Ends -/

/-- The scene comes to an end at which `post` holds. -/
def EndsIn (policy : RetryPolicy) (post : Scene α β → Prop) (scene : Scene α β) : Prop :=
  ∃ steps last, scene.finish? policy steps = some last ∧ post last

variable {post : Scene α β → Prop}

theorem EndsIn.of_step? {next : Scene α β} (hnext : next.EndsIn policy post)
    (hstep : scene.step? policy = some next) : scene.EndsIn policy post := by
  obtain ⟨steps, last, hfinish, hpost⟩ := hnext
  refine ⟨steps + 1, last, ?_, hpost⟩
  rw [finish?, hstep]
  exact hfinish

theorem endsIn_of_step?_none (hstep : scene.step? policy = none) (hpost : post scene) :
    scene.EndsIn policy post := by
  refine ⟨1, scene, ?_, hpost⟩
  rw [finish?, hstep]

end Scene

/-! ## A task at its waiting points -/

namespace Stage

/-- The two stages differ only in what a task that is alone does not notice: in the moment, the
round and the length of sleeps, in the random numbers, and in the log. -/
structure Resembles (stage stage' : Stage) : Prop where
  phase : stage.phase = stage'.phase
  coordinator : stage.coordinator = stage'.coordinator
  plan : stage.plan = stage'.plan
  closable : stage.closable = stage'.closable

/-- The disturbance that befalls the next call of a kind. -/
def disturbance (stage : Stage) (kind : RequestKind) : Disturbance := (stage.plan.take kind).1

/-- What the service answers a call on its way. -/
def reply (stage : Stage) (kind : RequestKind) (request : Request β) : Except Fault β :=
  (stage.coordinator.performDisturbed (stage.disturbance kind) request).1

/-- The stage after a call was carried out. -/
def afterCall (stage : Stage) (request : Request β) : Stage :=
  { stage with
    coordinator := (stage.coordinator.performDisturbed (stage.disturbance request.kind) request).2
    plan := (stage.plan.take request.kind).2 }

/-- A call in the plan does not close the session. -/
def Open (stage : Stage) (kind : RequestKind) : Prop :=
  (stage.disturbance kind).closes = false ∨ stage.closable = false

end Stage

namespace Scene

variable {policy : RetryPolicy} {second : Actor β} {post : Scene α β → Prop}
variable {gate : Option Operation} {request : Request γ} {retries since wake : Nat}
variable {next : Outcome γ → Program α}

/-- A call that is repeated, and that nobody closes the session under, is answered with the next
step. -/
theorem endsIn_trying (hsecond : second.due? = none) {stage : Stage} (hopen : stage.Open request.kind)
    (h : ∀ stage' now draw, stage'.Resembles (stage.afterCall request) →
      (beside second (Actor.settleAt stage' (Task.answered policy stage.lasts now draw stage.phase
        (stage.reply request.kind) ⟨.trying gate request retries since next, none⟩))).EndsIn policy
        post) :
    (beside second (Actor.settle stage ⟨.trying gate request retries since next, none⟩)).EndsIn
      policy post := by
  obtain ⟨now, round, hstep⟩ := step?_eq_goOn policy
    (beside second (Actor.settle stage ⟨.trying gate request retries since next, none⟩))
    hsecond rfl rfl
  have hdelivered := Actor.arrive_outbound policy { (stage.send request).2 with now, round }
    (Actor.settle stage ⟨.trying gate request retries since next, none⟩).2 hopen
    (stage.now + (stage.disturbance request.kind).delay)
  apply EndsIn.of_step? _ (hstep.trans (congrArg (some <| beside second ·) hdelivered))
  exact h _ now (stage.draws.headD 0) ⟨rfl, rfl, rfl, rfl⟩

/-- A task that sleeps before a call is repeated makes its next attempt, where the gate permits it. -/
theorem endsIn_resting (hsecond : second.due? = none) {stage : Stage} {phase : Phase}
    (hgate : gateError? gate phase = none)
    (h : ∀ stage', stage'.Resembles { stage with phase } →
      (beside second (Actor.settle stage' ⟨.trying gate request (retries + 1) since next, none⟩)).EndsIn
        policy post) :
    (beside second (Actor.settleAt stage
      (phase, ⟨.resting gate request retries since wake next, none⟩))).EndsIn policy post := by
  obtain ⟨now, round, hstep⟩ := step?_eq_goOn policy
    (beside second (Actor.settleAt stage
      (phase, ⟨.resting gate request retries since wake next, none⟩)))
    hsecond rfl rfl
  have hwoken : Task.woken now phase
      (⟨.resting gate request retries since wake next, none⟩ : Task α)
        = (phase, ⟨.trying gate request (retries + 1) since next, none⟩) := by
    simp only [Task.woken, hgate]
  have hproceeds := congrArg (Actor.settleAt { stage with phase, now, round }) hwoken
  apply EndsIn.of_step? _ (hstep.trans (congrArg (some <| beside second ·) hproceeds))
  exact h { stage with phase, now, round } ⟨rfl, rfl, rfl, rfl⟩

/-- A task that has ended leaves the scene as it is. -/
theorem endsIn_ended (hsecond : second.due? = none) {stage : Stage} {phase : Phase} {result : α}
    (h : post ⟨{ stage with phase }, ⟨⟨.ended result, none⟩, none, some stage.now⟩, second⟩) :
    (beside second (Actor.settleAt stage (phase, ⟨.ended result, none⟩))).EndsIn policy post := by
  exact endsIn_of_step?_none (step?_eq_none rfl hsecond) h

end Scene

/-! ## Rehearsals -/

/-- An actor that has ended with nothing to do. -/
def Actor.idle (moment : Nat) : Actor (Option (Outcome Unit)) :=
  ⟨⟨.ended none, none⟩, none, some moment⟩

/-- Where nobody closes the session beside it, a program is rehearsed beside an idle actor. -/
theorem rehearse_eq (policy : RetryPolicy) (steps : Nat) (program : Program α) (stage : Stage) :
    rehearse policy steps program none stage =
      let opened := Actor.enter { stage with round := stage.round.enter } program
      ((Scene.beside (.idle opened.1.now) opened).finish? policy steps).bind fun last =>
        (last.report? stage.now).map (·, last.stage) := by
  unfold rehearse
  dsimp only
  split
  all_goals
    rename_i hfinish
    exact (congrArg (Option.bind · fun last => (last.report? stage.now).map (·, last.stage))
      hfinish).symm

/-- What is said of the scene at the end of a rehearsal is said of the result and of the stage, if only
the rehearsal may take enough steps. -/
theorem exists_rehearse (post : α → Stage → Prop) {policy : RetryPolicy} {program : Program α}
    {stage : Stage}
    (h : ∀ (begun : Stage) (second : Actor (Option (Outcome Unit))), begun.Resembles stage →
      second.due? = none →
      (Scene.beside second (Actor.settleAt begun
        (program.advance begun.now stage.phase none))).EndsIn policy fun last =>
          ∃ result, last.first = ⟨⟨.ended result, none⟩, none, some last.stage.now⟩
            ∧ post result last.stage) :
    ∃ enough report last, post report.result last ∧ ∀ steps, enough ≤ steps →
      rehearse policy steps program none stage = some (report, last) := by
  obtain ⟨enough, last, hfinish, result, hfirst, hpost⟩ :=
    h { stage with round := stage.round.enter }
      (.idle (Actor.enter { stage with round := stage.round.enter } program).1.now)
      ⟨rfl, rfl, rfl, rfl⟩ rfl
  have hreport : last.report? stage.now
      = some ⟨result, last.stage.now - stage.now, last.second.task.result?.join⟩ := by
    simp only [Scene.report?, hfirst]
    rfl
  refine ⟨enough, ⟨result, last.stage.now - stage.now, last.second.task.result?.join⟩, last.stage,
    hpost, ?_⟩
  intro steps hle
  rw [rehearse_eq]
  refine (congrArg (Option.bind · _) (Scene.finish?_mono hfinish hle)).trans ?_
  rw [Option.bind_some, hreport]
  rfl

end IdMint.Coordination
