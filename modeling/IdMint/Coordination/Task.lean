import IdMint.Coordination.Program
import IdMint.Retry.Policy

/-! # Session tasks

A task is a session program on its way. It always stands at a waiting point: a call in flight, the
sleep before a repetition, a pause, or its end. `Program.advance` carries a program to its next
waiting point without interruption; `Task.answered`, `Task.woken` and `Task.expired` say how a task
goes on when what it waits for happens. Moments are in milliseconds. -/

namespace IdMint.Coordination

/-- What a task waits for. -/
inductive Wait (α : Type) : Type 1
  /-- Nothing: the task has ended. -/
  | ended (result : α) : Wait α
  /-- The answer to a single call. -/
  | calling {β : Type} (request : Request β) (next : Except Fault β → Program α) : Wait α
  /-- The answer to a call that is repeated: after so many retries, the first attempt made then. -/
  | trying {β : Type} (gate : Option Operation) (request : Request β) (retries since : Nat)
      (next : Outcome β → Program α) : Wait α
  /-- The end of the sleep before a call is repeated. -/
  | resting {β : Type} (gate : Option Operation) (request : Request β) (retries since wake : Nat)
      (next : Outcome β → Program α) : Wait α
  /-- The end of a pause. -/
  | pausing (wake : Nat) (next : Program α) : Wait α

/-- A time limit: the moment when it strikes, and how the task goes on then. -/
structure Alarm (α : Type) : Type 1 where
  /-- The moment when the limit strikes. -/
  moment : Nat
  /-- What the task does then. -/
  late : Program α

/-- A session program at a waiting point. -/
structure Task (α : Type) : Type 1 where
  /-- What the task waits for. -/
  wait : Wait α
  /-- The time limit under which it waits, if there is one. -/
  alarm : Option (Alarm α)

/-- The error by which a gate ends the repetition of a call, if the phase does not let it through. -/
def gateError? (gate : Option Operation) (phase : Phase) : Option Error :=
  match gate with
  | none => none
  | some operation => if phase = .started then none else some (operation.refused phase)

/-- Carries a program to its next waiting point: the phase and the task then. -/
def Program.advance (now : Nat) : Program α → Phase → Option (Alarm α) → Phase × Task α
  | .finish result, phase, _ => (phase, ⟨.ended result, none⟩)
  | .observe next, phase, alarm => (next phase).advance now phase alarm
  | .exchange expected new next, phase, alarm =>
    if phase = expected then (next true).advance now new alarm
    else (next false).advance now phase alarm
  | .assign new next, _, alarm => next.advance now new alarm
  | .call request next, phase, alarm => (phase, ⟨.calling request next, alarm⟩)
  | .persist gate request next, phase, alarm => (phase, ⟨.trying gate request 0 now next, alarm⟩)
  | .pause ms next, phase, alarm => (phase, ⟨.pausing (now + ms) next, alarm⟩)
  | .arm limit late next, phase, _ => next.advance now phase (some ⟨now + limit.millisCeil, late⟩)
  | .disarm next, phase, _ => next.advance now phase none

namespace Task

/-- The result of a task that has ended. -/
def result? (task : Task α) : Option α :=
  match task.wait with
  | .ended result => some result
  | _ => none

/-- Whether a task waits for the answer to a call. -/
def isCalling (task : Task α) : Bool :=
  match task.wait with
  | .calling .. | .trying .. => true
  | .ended _ | .resting .. | .pausing .. => false

/-- The moment when a task wakes from the sleep or the pause in which it stands. -/
def wake? (task : Task α) : Option Nat :=
  match task.wait with
  | .resting _ _ _ _ wake _ | .pausing wake _ => some wake
  | .ended _ | .calling .. | .trying .. => none

/-- How a task goes on when its call is answered. A transient failure of a call that is repeated
leads to a sleep, if the gate and the policy permit another attempt; a sleep of so many milliseconds
lasts as `lasts` tells. -/
def answered (policy : RetryPolicy) (lasts : Nat → Nat) (now draw : Nat) (phase : Phase)
    (reply : {β : Type} → Request β → Except Fault β) (task : Task α) : Phase × Task α :=
  match task.wait with
  | .calling request next => (next (reply request)).advance now phase task.alarm
  | .trying gate request retries since next =>
    match reply request with
    | .ok value => (next (.ok value)).advance now phase task.alarm
    | .error fault =>
      if fault.isRetryable then
        match gateError? gate phase with
        | some error => (next (.error error)).advance now phase task.alarm
        | none =>
          match policy.allowRetry retries (.ofMillis (now - since)) draw with
          | none => (next (.error (.coordination fault))).advance now phase task.alarm
          | some sleep =>
            (phase, { task with
              wait := .resting gate request retries since (now + lasts sleep.millisCeil) next })
      else (next (.error (.coordination fault))).advance now phase task.alarm
  | .ended _ | .resting .. | .pausing .. => (phase, task)

/-- How a task goes on when its sleep or its pause ends. -/
def woken (now : Nat) (phase : Phase) (task : Task α) : Phase × Task α :=
  match task.wait with
  | .resting gate request retries since _ next =>
    match gateError? gate phase with
    | some error => (next (.error error)).advance now phase task.alarm
    | none => (phase, { task with wait := .trying gate request (retries + 1) since next })
  | .pausing _ next => next.advance now phase task.alarm
  | .ended _ | .calling .. | .trying .. => (phase, task)

/-- How a task goes on when its time limit strikes. -/
def expired (now : Nat) (phase : Phase) (task : Task α) : Phase × Task α :=
  match task.alarm with
  | some alarm => alarm.late.advance now phase none
  | none => (phase, task)

end Task

end IdMint.Coordination
