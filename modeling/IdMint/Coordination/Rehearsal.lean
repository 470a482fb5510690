import IdMint.Coordination.Coordinator
import IdMint.Coordination.Round
import IdMint.Coordination.Session
import IdMint.Coordination.Task

/-! # Rehearsals

A rehearsal runs session programs against an in-memory coordinator on virtual time: time stands still
while anything can go on, and jumps to the next moment when something is due. Disturbances delay
calls, make them fail before or after they take effect, or close the session under way. Two tasks can
run side by side, in rounds that they share; of two that are due at the same moment the first goes on
first. A time limit that strikes at a moment when its task can go on waits until the task waits again
or the round is used up. -/

namespace IdMint.Coordination

/-- What happens to one call on its way. -/
structure Disturbance where
  /-- How long the call is on its way, in milliseconds. -/
  delay : Nat
  /-- Whether the session is closed while the call is on its way. -/
  closes : Bool
  /-- The failure that is reported in place of the answer. -/
  fault : Option Fault
  /-- Whether a call that is reported as failed takes effect all the same. -/
  applies : Bool
  deriving DecidableEq, Inhabited

/-- The way of a call that nothing happens to. -/
def Disturbance.calm : Disturbance := ⟨0, false, none, false⟩

/-- The disturbances of the calls to come, by the kind of the call; calls beyond them are calm. -/
abbrev Plan : Type := RequestKind → List Disturbance

namespace Plan

/-- The plan without disturbances. -/
def calm : Plan := fun _ => []

/-- Appends disturbances for the calls of one kind. -/
def append (plan : Plan) (kind : RequestKind) (more : List Disturbance) : Plan :=
  fun k => if k = kind then plan k ++ more else plan k

/-- The disturbance of the next call of a kind, and the plan for the calls after it. -/
def take (plan : Plan) (kind : RequestKind) : Disturbance × Plan :=
  ((plan kind).headD .calm, fun k => if k = kind then (plan k).tail else plan k)

end Plan

/-- A call as the log of a rehearsal shows it. -/
def Request.words : Request β → String
  | .connect sessionLimit connectionLimit =>
    "connect " ++ toString sessionLimit ++ "/" ++ toString connectionLimit
  | .close => "close"
  | .lookUp path => "exists " ++ path
  | .create path _ _ => "create " ++ path
  | .setData path _ version => "set_data " ++ path ++ " v" ++ toString version
  | .delete path => "delete " ++ path
  | .children path => "children " ++ path

/-- Carries out a call under a disturbance. -/
def Coordinator.performDisturbed (c : Coordinator) (d : Disturbance) (request : Request β) :
    Except Fault β × Coordinator :=
  match d.fault with
  | none => c.perform request
  | some fault =>
    if d.applies then
      match c.perform request with
      | (.ok _, after) => (.error fault, after)
      | (.error own, after) => (.error own, after)
    else (.error fault, c)

/-- Everything in a rehearsal that its tasks share. -/
structure Stage where
  /-- The present moment, in milliseconds. -/
  now : Nat
  /-- How long a sleep of so many milliseconds lasts. -/
  lasts : Nat → Nat
  /-- The phase of the session. -/
  phase : Phase
  /-- The service. -/
  coordinator : Coordinator
  /-- The disturbances to come. -/
  plan : Plan
  /-- Whether disturbances can close the session. -/
  closable : Bool
  /-- The random numbers to come, one for each answer; zero when they run out. -/
  draws : List Nat
  /-- The calls made so far, the last one first. -/
  log : List String
  /-- The round in which the tasks go on; programs begin in the one in which the last ones ended. -/
  round : Round

namespace Stage

/-- The stage before anything has happened, with the given coordinator and plan. Sleeps last as long as
they should. -/
def opening (coordinator : Coordinator) (plan : Plan) : Stage :=
  ⟨0, id, .uninitialized, coordinator, plan, true, [], [], .fresh 0⟩

/-- Sends a call: logs it and takes its disturbance from the plan. -/
def send (stage : Stage) (request : Request β) : Disturbance × Stage :=
  let (d, plan) := stage.plan.take request.kind
  let entry := Text.trimRight (toString stage.now ++ "ms " ++ request.words)
  (d, { stage with plan, log := entry :: stage.log })

end Stage

/-- How far a call has come on its way. -/
inductive Transit
  /-- On its way until the given moment. -/
  | outbound (arrival : Nat) (own : Disturbance)
  /-- Held up until the given moment by the session's closing, which has its own disturbance. -/
  | closing (arrival : Nat) (own closing : Disturbance)
  deriving DecidableEq

/-- The moment until which a call is on its way. -/
def Transit.arrival : Transit → Nat
  | outbound arrival _ | closing arrival _ _ => arrival

/-- How long a call is on its way, or held up. -/
def Transit.delay : Transit → Nat
  | outbound _ own => own.delay
  | closing _ _ hold => hold.delay

/-- A task of a rehearsal, with its call on the way and the moment when it ended. -/
structure Actor (α : Type) : Type 1 where
  /-- The task. -/
  task : Task α
  /-- How far the call of the task has come. -/
  transit : Option Transit
  /-- The moment when the task ended. -/
  ended : Option Nat

namespace Actor

/-- Takes note of where a task stands: its call is sent, and its end is dated. -/
def settle (stage : Stage) (task : Task α) : Stage × Actor α :=
  match task.wait with
  | .ended _ => (stage, ⟨task, none, some stage.now⟩)
  | .calling request _ | .trying _ request _ _ _ =>
    let (d, stage) := stage.send request
    (stage, ⟨task, some (.outbound (stage.now + d.delay) d), none⟩)
  | .resting .. | .pausing .. => (stage, ⟨task, none, none⟩)

/-- Settles a task after a step that may have changed the phase. -/
def settleAt (stage : Stage) (step : Phase × Task α) : Stage × Actor α :=
  settle { stage with phase := step.1 } step.2

/-- Sets a program going. -/
def enter (stage : Stage) (program : Program α) : Stage × Actor α :=
  settleAt stage (program.advance stage.now stage.phase none)

/-- The moment until which an actor waits, its time limit apart. -/
def wake? (actor : Actor α) : Option Nat :=
  actor.transit.map Transit.arrival <|> actor.task.wake?

/-- The moment when an actor goes on next, if it has not ended. -/
def due? (actor : Actor α) : Option Nat :=
  match actor.wake?, actor.task.alarm with
  | some wake, some alarm => some (min wake alarm.moment)
  | some wake, none => some wake
  | none, _ => none

/-- Whether what an actor waits for has happened, its time limit apart. -/
def ready (actor : Actor α) (now : Nat) : Bool := actor.wake?.any (· ≤ now)

/-- Whether the time limit of an actor has passed. -/
def overdue (actor : Actor α) (now : Nat) : Bool := actor.task.alarm.any (·.moment ≤ now)

/-- How many waits end when an actor goes on. A call that is on its way for no time is no wait. -/
def cost (actor : Actor α) (now : Nat) : Nat :=
  if actor.ready now && actor.transit.any (·.delay = 0) then 0 else 1

/-- Whether an actor that is due has to leave it to the next round to go on: the round is used up, and
no time limit strikes. -/
def standsBack (actor : Actor α) (round : Round) (now : Nat) : Bool :=
  round.left < actor.cost now && !(round.watched && actor.overdue now)

/-- At most one wait ends at a time. -/
theorem cost_le_one (actor : Actor α) (now : Nat) : actor.cost now ≤ 1 := by
  unfold cost
  split
  · exact Nat.zero_le 1
  · exact Nat.le_refl 1

/-- Delivers a call that has arrived: it is carried out, and the task goes on with the answer. -/
def deliver (policy : RetryPolicy) (stage : Stage) (actor : Actor α) (d : Disturbance) :
    Stage × Actor α :=
  let before := stage.coordinator
  let after := match actor.task.wait with
    | .calling request _ | .trying _ request _ _ _ => (before.performDisturbed d request).2
    | .ended _ | .resting .. | .pausing .. => before
  let draw := stage.draws.headD 0
  settleAt { stage with coordinator := after, draws := stage.draws.tail }
    (actor.task.answered policy stage.lasts stage.now draw stage.phase
      fun request => (before.performDisturbed d request).1)

/-- Whether a call is the one that closes the connection. -/
def isClosing (actor : Actor α) : Bool :=
  match actor.task.wait with
  | .calling request _ | .trying _ request _ _ _ => request.kind = .close
  | .ended _ | .resting .. | .pausing .. => false

/-- What happens when a call arrives: it may first close the session, which is a call in itself. -/
def arrive (policy : RetryPolicy) (stage : Stage) (actor : Actor α) : Transit → Stage × Actor α
  | .outbound _ own =>
    if own.closes && stage.closable && !actor.isClosing then
      let (phase, closer) := Session.close.run.advance stage.now stage.phase none
      let stage := { stage with phase }
      if closer.isCalling then
        let (d, stage) := stage.send .close
        (stage, { actor with transit := some (.closing (stage.now + d.delay) own d) })
      else deliver policy stage actor own
    else deliver policy stage actor own
  | .closing _ own closing =>
    let coordinator := (stage.coordinator.performDisturbed closing .close).2
    deliver policy { stage with coordinator } actor own

/-- How an actor goes on at a moment when it is due: as its time limit says if what it waits for has
not happened or the round is used up. -/
def act (policy : RetryPolicy) (stage : Stage) (actor : Actor α) : Stage × Actor α :=
  let cost := actor.cost stage.now
  let after := { stage with round := stage.round.spend cost }
  if actor.ready stage.now && cost ≤ stage.round.left then
    match actor.transit with
    | some transit => arrive policy after actor transit
    | none => settleAt after (actor.task.woken stage.now stage.phase)
  else settleAt after (actor.task.expired stage.now stage.phase)

end Actor

/-- Two actors on one stage. -/
structure Scene (α β : Type) : Type 1 where
  stage : Stage
  first : Actor α
  second : Actor β

namespace Scene

/-- The first actor goes on in a round. -/
def firstActs (policy : RetryPolicy) (scene : Scene α β) (now : Nat) (round : Round) :
    Scene α β :=
  let (stage, first) := scene.first.act policy { scene.stage with now, round }
  { scene with stage, first }

/-- The second actor goes on in a round. -/
def secondActs (policy : RetryPolicy) (scene : Scene α β) (now : Nat) (round : Round) :
    Scene α β :=
  let (stage, second) := scene.second.act policy { scene.stage with now, round }
  { scene with stage, second }

/-- The next step of a scene at a moment when an actor is due: the first actor goes on if it is due
and does not stand back, otherwise the second one. Where the round is used up for all that are due, a
new one begins. -/
def stepAt (policy : RetryPolicy) (scene : Scene α β) (now : Nat) : Scene α β :=
  let round := scene.stage.round.resume now
  let firstDue := scene.first.due?.any (· ≤ now)
  let secondDue := scene.second.due?.any (· ≤ now)
  if firstDue && !scene.first.standsBack round now then scene.firstActs policy now round
  else if secondDue && !scene.second.standsBack round now then scene.secondActs policy now round
  else if firstDue then scene.firstActs policy now (.fresh now)
  else scene.secondActs policy now (.fresh now)

/-- The next step of a scene: time goes on to the moment when an actor is due. Nothing is left to do
when both have ended. -/
def step? (policy : RetryPolicy) (scene : Scene α β) : Option (Scene α β) :=
  let now := scene.stage.now
  match scene.first.due?, scene.second.due? with
  | none, none => none
  | some a, none => some (scene.stepAt policy (max a now))
  | none, some b => some (scene.stepAt policy (max b now))
  | some a, some b => some (scene.stepAt policy (max (min a b) now))

/-- The scene when nothing is left to do, if that comes within a number of steps. -/
def finish? (policy : RetryPolicy) : (steps : Nat) → Scene α β → Option (Scene α β)
  | 0, _ => none
  | steps + 1, scene =>
    match scene.step? policy with
    | none => some scene
    | some next => finish? policy steps next

end Scene

/-- What a rehearsed program came to. -/
structure Report (α : Type) where
  /-- The result of the program. -/
  result : α
  /-- How long it took, in milliseconds. -/
  took : Nat
  /-- What came of closing the session meanwhile, if that was asked for. -/
  closing : Option (Outcome Unit)

/-- The program of the second actor: closes the session after a while, if that is asked for. -/
def closeAfter (delay : Option Nat) : Program (Option (Outcome Unit)) :=
  match delay with
  | none => .finish none
  | some ms => do
    Action.pause ms
    return some (← Session.close.run)

/-- What a scene came to that began at a given moment and in which both actors have ended. -/
def Scene.report? (began : Nat) (scene : Scene α (Option (Outcome Unit))) : Option (Report α) :=
  match scene.first.task.result?, scene.first.ended with
  | some result, some ended =>
    some ⟨result, ended - began, scene.second.task.result?.join⟩
  | _, _ => none

/-- Rehearses a program, with the session closed after `closing` milliseconds if that is asked for:
the report, and the stage when both have ended. Nothing comes of it where that takes more than the
given number of steps. -/
def rehearse (policy : RetryPolicy) (steps : Nat) (program : Program α) (closing : Option Nat)
    (stage : Stage) : Option (Report α × Stage) :=
  let begun := { stage with round := stage.round.enter }
  let (opened, first) := Actor.enter begun program
  let (opened, second) := Actor.enter opened (closeAfter closing)
  match Scene.finish? policy steps ⟨opened, first, second⟩ with
  | none => none
  | some last => (last.report? stage.now).map (·, last.stage)

end IdMint.Coordination
