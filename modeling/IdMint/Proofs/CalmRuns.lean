import IdMint.Proofs.DirectRuns
import IdMint.Proofs.Rehearsals

/-! # Calm runs

Where nothing disturbs a program it runs from call to call, and every call is answered at the moment
when it is made. `Program.Comes` says what the program comes to then and how many calls it makes, and a
rehearsal without disturbances takes one step for each of them. No time passes, so time limits do not
matter. -/

namespace IdMint.Coordination

/-- What a program comes to over a service that answers every call at once: the number of its calls,
its result, and the phase and the service after it. -/
inductive Program.Comes :
    Program α → Phase → Coordinator → Nat → α → Phase → Coordinator → Prop
  | finish (result : α) (phase : Phase) (c : Coordinator) :
    Comes (.finish result) phase c 0 result phase c
  | observe {next : Phase → Program α} {phase phase' : Phase} {c c' : Coordinator} {calls : Nat}
    {result : α} (rest : Comes (next phase) phase c calls result phase' c') :
    Comes (.observe next) phase c calls result phase' c'
  | won {next : Bool → Program α} {phase new phase' : Phase} {c c' : Coordinator} {calls : Nat}
    {result : α} (rest : Comes (next true) new c calls result phase' c') :
    Comes (.exchange phase new next) phase c calls result phase' c'
  | lost {next : Bool → Program α} {phase expected new phase' : Phase} {c c' : Coordinator}
    {calls : Nat} {result : α} (hphase : phase ≠ expected)
    (rest : Comes (next false) phase c calls result phase' c') :
    Comes (.exchange expected new next) phase c calls result phase' c'
  | assign {next : Program α} {phase new phase' : Phase} {c c' : Coordinator} {calls : Nat}
    {result : α} (rest : Comes next new c calls result phase' c') :
    Comes (.assign new next) phase c calls result phase' c'
  | call {β : Type} {request : Request β} {next : Except Fault β → Program α} {phase phase' : Phase}
    {c c' : Coordinator} {calls : Nat} {result : α}
    (rest : Comes (next (c.perform request).1) phase (c.perform request).2 calls result phase' c') :
    Comes (.call request next) phase c (calls + 1) result phase' c'
  | persist {β : Type} {gate : Option Operation} {request : Request β}
    {next : Outcome β → Program α} {outcome : Outcome β} {phase phase' : Phase} {c c' : Coordinator}
    {calls : Nat} {result : α} (hsettled : Fault.settled? (c.perform request).1 = some outcome)
    (rest : Comes (next outcome) phase (c.perform request).2 calls result phase' c') :
    Comes (.persist gate request next) phase c (calls + 1) result phase' c'
  | arm {limit : Duration} {late next : Program α} {phase phase' : Phase} {c c' : Coordinator}
    {calls : Nat} {result : α} (rest : Comes next phase c calls result phase' c') :
    Comes (.arm limit late next) phase c calls result phase' c'
  | disarm {next : Program α} {phase phase' : Phase} {c c' : Coordinator} {calls : Nat} {result : α}
    (rest : Comes next phase c calls result phase' c') :
    Comes (.disarm next) phase c calls result phase' c'

namespace Program

/-- A program that goes on with another one makes the calls of both. -/
theorem Comes.bind {p : Program α} {f : α → Program β} {phase mid phase' : Phase}
    {c between c' : Coordinator} {first rest calls : Nat} {a : α} {b : β}
    (h : p.Comes phase c first a mid between) (hf : (f a).Comes mid between rest b phase' c')
    (hcalls : calls = first + rest) : (p.bind f).Comes phase c calls b phase' c' := by
  subst hcalls
  induction h with
  | finish =>
    rw [Nat.zero_add]
    exact hf
  | observe _ ih => exact .observe (ih hf)
  | won _ ih => exact .won (ih hf)
  | lost hphase _ ih => exact .lost hphase (ih hf)
  | assign _ ih => exact .assign (ih hf)
  | call _ ih =>
    rw [Nat.add_right_comm]
    exact .call (ih hf)
  | persist hsettled _ ih =>
    rw [Nat.add_right_comm]
    exact .persist hsettled (ih hf)
  | arm _ ih => exact .arm (ih hf)
  | disarm _ ih => exact .disarm (ih hf)

/-- A program that only changes the form of its result. -/
theorem Comes.map {p : Program α} {phase phase' : Phase} {c c' : Coordinator} {calls : Nat} {a : α}
    (h : p.Comes phase c calls a phase' c') (f : α → β) :
    (p.bind fun result => .finish (f result)).Comes phase c calls (f a) phase' c' :=
  h.bind (.finish _ _ _) rfl

end Program

/-! ## Rehearsals without disturbances -/

namespace Plan

/-- Nothing befalls the calls of a calm plan, and the plan stays calm. -/
theorem take_calm (kind : RequestKind) : Plan.calm.take kind = (.calm, .calm) := by
  refine Prod.ext rfl ?_
  funext other
  simp only [take, calm, List.tail_nil, ite_self]

end Plan

/-- A call under a calm plan is logged, and nothing else. -/
theorem Stage.exists_send {stage : Stage} (hplan : stage.plan = .calm) (request : Request β) :
    ∃ log, stage.send request = (.calm, { stage with log }) := by
  refine ⟨(stage.send request).2.log, ?_⟩
  simp only [send, hplan, Plan.take_calm]

/-- The calls that a task waits for, now that they are on their way. -/
inductive Wait.Sends : Wait α → Request β → Prop
  | calling {request : Request β} {next : Except Fault β → Program α} :
    Sends (.calling request next) request
  | trying {gate : Option Operation} {request : Request β} {retries since : Nat}
    {next : Outcome β → Program α} : Sends (.trying gate request retries since next) request

namespace Actor

/-- A call under a calm plan is on its way for no time. -/
theorem exists_settle {stage : Stage} (hplan : stage.plan = .calm) {task : Task α}
    {request : Request β} (h : task.wait.Sends request) :
    ∃ log, settle stage task
      = ({ stage with log }, ⟨task, some (.outbound stage.now .calm), none⟩) := by
  obtain ⟨log, hsend⟩ := Stage.exists_send hplan request
  obtain ⟨wait, alarm⟩ := task
  refine ⟨log, ?_⟩
  cases h <;> simp [settle, hsend, Disturbance.calm]

/-- A call that nothing befalls is carried out, and the task goes on with the answer. -/
theorem deliver_calm (policy : RetryPolicy) (stage : Stage) {task : Task α}
    {request : Request β} (h : task.wait.Sends request) (transit : Option Transit) :
    deliver policy stage ⟨task, transit, none⟩ .calm
      = settleAt { stage with
          coordinator := (stage.coordinator.perform request).2, draws := stage.draws.tail }
        (task.answered policy stage.lasts stage.now (stage.draws.headD 0) stage.phase
          fun request => (stage.coordinator.perform request).1) := by
  obtain ⟨wait, alarm⟩ := task
  cases h <;> rfl

end Actor

namespace Scene

variable {policy : RetryPolicy}

/-- An actor whose wait is over now, and costs the round nothing, proceeds with the next step; a time
limit has to wait. -/
theorem step?_at_once (policy : RetryPolicy) (scene : Scene α β) (hsecond : scene.second.due? = none)
    (hwake : scene.first.wake? = some scene.stage.now) (hcost : scene.first.cost scene.stage.now = 0) :
    ∃ round, scene.step? policy = some (scene.goOn policy scene.stage.now round) := by
  have hstep := step?_eq_proceedAt policy hsecond hwake fun alarm _ hstrikes => by
    simp [Strikes, hcost] at hstrikes
  rw [hstep, proceedAt, Nat.max_self]
  exact ⟨_, rfl⟩

theorem finish?_of_step?_none {scene : Scene α β} (hstep : scene.step? policy = none) :
    scene.finish? policy 1 = some scene := by
  rw [finish?, hstep]

theorem finish?_of_step? {scene next last : Scene α β} {steps : Nat}
    (hstep : scene.step? policy = some next) (h : next.finish? policy steps = some last) :
    scene.finish? policy (steps + 1) = some last := by
  rw [finish?, hstep]
  exact h

/-- A call that nothing befalls is answered with the next step. -/
theorem step?_delivers (policy : RetryPolicy) {second : Actor β} (hsecond : second.due? = none)
    (stage : Stage) (task : Task α) :
    ∃ round, (beside second (stage, ⟨task, some (.outbound stage.now .calm), none⟩)).step? policy
      = some (beside second (Actor.deliver policy { stage with round }
        ⟨task, some (.outbound stage.now .calm), none⟩ .calm)) := by
  have hcost : Actor.cost (⟨task, some (.outbound stage.now .calm), none⟩ : Actor α) stage.now = 0 := by
    simp [Actor.cost, Actor.ready, Actor.wake?, Transit.arrival, Transit.delay, Disturbance.calm]
  obtain ⟨round, hgoes⟩ := step?_at_once policy
    (beside second (stage, ⟨task, some (.outbound stage.now .calm), none⟩)) hsecond rfl hcost
  have hopen : Disturbance.calm.closes = false ∨ stage.closable = false := .inl rfl
  have hdelivered := Actor.arrive_outbound policy { stage with round }
    (⟨task, some (.outbound stage.now .calm), none⟩ : Actor α) hopen stage.now
  exact ⟨round, hgoes.trans (congrArg (some <| beside second ·) hdelivered)⟩

/-- What is so at the end of a scene after a call was answered is so at the end of the scene before the
call, which comes one step later. -/
theorem finish?_of_answered (policy : RetryPolicy) {second : Actor β} (hsecond : second.due? = none)
    (stage : Stage) (hplan : stage.plan = .calm) (task : Task α) {request : Request γ}
    (hsends : task.wait.Sends request) {steps : Nat} {post : Scene α β → Prop}
    (h : ∀ stage' draw, stage'.now = stage.now → stage'.plan = .calm
      → stage'.coordinator = (stage.coordinator.perform request).2
      → ∃ last, (beside second (Actor.settleAt stage' (task.answered policy stage.lasts stage.now draw
          stage.phase fun request => (stage.coordinator.perform request).1))).finish? policy steps
            = some last
        ∧ post last) :
    ∃ last, (beside second (Actor.settle stage task)).finish? policy (steps + 1) = some last
      ∧ post last := by
  obtain ⟨log, hsettle⟩ := Actor.exists_settle hplan hsends
  obtain ⟨round, hstep⟩ := step?_delivers policy hsecond { stage with log } task
  rw [Actor.deliver_calm policy _ hsends] at hstep
  obtain ⟨last, hfinish, hpost⟩ := h { stage with
    log, round, coordinator := (stage.coordinator.perform request).2, draws := stage.draws.tail }
    (stage.draws.headD 0) rfl hplan rfl
  refine ⟨last, ?_, hpost⟩
  rw [hsettle]
  exact finish?_of_step? hstep hfinish

/-- A scene on which nothing disturbs the first actor comes to its end with a step for every call. -/
theorem finish?_of_comes (policy : RetryPolicy) {second : Actor β} (hsecond : second.due? = none)
    {p : Program α} {phase phase' : Phase} {c c' : Coordinator} {calls : Nat} {result : α}
    (h : p.Comes phase c calls result phase' c') (stage : Stage) (hplan : stage.plan = .calm)
    (hservice : stage.coordinator = c) (alarm : Option (Alarm α)) :
    ∃ last, (beside second (Actor.settleAt stage (p.advance stage.now phase alarm))).finish? policy
        (calls + 1) = some last
      ∧ last.first = ⟨⟨.ended result, none⟩, none, some stage.now⟩
      ∧ last.stage.phase = phase' ∧ last.stage.coordinator = c' ∧ last.stage.plan = .calm := by
  -- along the run of the program: only calls take a step, and none of them takes time
  induction h generalizing stage alarm with
  | finish result phase c =>
    exact ⟨_, finish?_of_step?_none (step?_eq_none rfl hsecond), rfl, rfl, hservice, hplan⟩
  | observe _ ih => exact ih stage hplan hservice alarm
  | won _ ih =>
    rw [Program.advance, if_pos rfl]
    exact ih stage hplan hservice alarm
  | lost hphase _ ih =>
    rw [Program.advance, if_neg hphase]
    exact ih stage hplan hservice alarm
  | assign _ ih => exact ih stage hplan hservice alarm
  | disarm _ ih => exact ih stage hplan hservice none
  | arm _ ih => exact ih stage hplan hservice (some _)
  | @call β request next phase phase' c c' calls result rest ih =>
    subst hservice
    refine finish?_of_answered policy hsecond { stage with phase } hplan
      ⟨.calling request next, alarm⟩ .calling ?_
    intro stage' draw hnow hplan' hservice'
    have hrest := ih stage' hplan' hservice' alarm
    rw [hnow] at hrest
    exact hrest
  | @persist β gate request next outcome phase phase' c c' calls result hsettled rest ih =>
    subst hservice
    refine finish?_of_answered policy hsecond { stage with phase } hplan
      ⟨.trying gate request 0 stage.now next, alarm⟩ .trying ?_
    intro stage' draw hnow hplan' hservice'
    -- an answer that settles the call leaves nothing to try again
    rw [Task.answered_of_settled? (fun request => (stage.coordinator.perform request).1) hsettled]
    have hrest := ih stage' hplan' hservice' alarm
    rw [hnow] at hrest
    exact hrest

end Scene

/-- A rehearsal without disturbances takes a step for every call, and one more to find that nothing is
left to do. Nothing is left that could disturb a later one. -/
theorem rehearse_of_comes (policy : RetryPolicy) {p : Program α} {phase' : Phase}
    {c' : Coordinator} {calls : Nat} {result : α} {stage : Stage} (hplan : stage.plan = .calm)
    (h : p.Comes stage.phase stage.coordinator calls result phase' c') :
    ∃ report last, (∀ steps, calls < steps → rehearse policy steps p none stage = some (report, last))
      ∧ report.result = result ∧ last.phase = phase' ∧ last.coordinator = c' ∧ last.plan = .calm := by
  have hidle : (Actor.idle (Actor.enter { stage with round := stage.round.enter } p).1.now).due? = none :=
    rfl
  obtain ⟨last, hfinish, hfirst, hphase, hservice, hcalm⟩ := Scene.finish?_of_comes policy hidle h
    { stage with round := stage.round.enter } hplan rfl none
  have hreport : last.report? stage.now
      = some ⟨result, 0, last.second.task.result?.join⟩ := by
    simp [Scene.report?, hfirst, Task.result?]
  refine ⟨⟨result, 0, last.second.task.result?.join⟩, last.stage, ?_, rfl, hphase, hservice, hcalm⟩
  intro steps hsteps
  rw [rehearse_eq]
  refine (congrArg (Option.bind · _) (Scene.finish?_mono hfinish hsteps)).trans ?_
  rw [Option.bind_some, hreport]
  rfl

end IdMint.Coordination
