import IdMint.Proofs.SessionRuns

/-! # The connection of a session

The tasks of a session share one connection to the service. `LinkEvent` is what happens to it,
`LinkEvent.follow?` checks that an open connection is not opened again and that only an open one is
closed, and `Session.LinkRun` is a run of tasks together with what happens to the connection on the
way. The invariant is that at every waiting point the connection is up exactly while the session is
started; what a program does up to its next waiting point follows from its order. -/

namespace IdMint.Coordination

/-! ## What happens to a connection -/

/-- What happens to the connection of a session. -/
inductive LinkEvent
  /-- A call that connects is made. -/
  | connecting
  /-- A call that connects has completed with success. -/
  | connected
  /-- A call that closes the connection is made. -/
  | closing
  deriving DecidableEq

namespace LinkEvent

/-- Whether the connection is up after an event, if the event may happen. -/
def after? : (up : Bool) → LinkEvent → Option Bool
  | false, connecting => some false
  | false, connected => some true
  | true, closing => some false
  | true, connecting | true, connected | false, closing => none

/-- Whether the connection is up after events one after the other, if all of them may happen. -/
def follow? (up : Bool) (events : List LinkEvent) : Option Bool := events.foldlM after? up

@[simp] theorem follow?_nil (up : Bool) : follow? up [] = some up := rfl

theorem follow?_cons (up : Bool) (event : LinkEvent) (events : List LinkEvent) :
    follow? up (event :: events) = (after? up event).bind fun up' => follow? up' events := rfl

theorem follow?_append (up : Bool) (events events' : List LinkEvent) :
    follow? up (events ++ events') = (follow? up events).bind fun up' => follow? up' events' :=
  List.foldlM_append

/-- Events that may happen open the connection as often as they close it, but for its being up before
or after them. -/
theorem count_of_follow? {up up' : Bool} {events : List LinkEvent}
    (h : follow? up events = some up') :
    up.toNat + events.count .connected = events.count .closing + up'.toNat := by
  induction events generalizing up with
  | nil =>
    cases h
    simp
  | cons event events ih =>
    rw [follow?_cons] at h
    obtain ⟨up₁, hevent, hrest⟩ := Option.bind_eq_some_iff.mp h
    have hcount := ih hrest
    cases up <;> cases event <;> cases hevent <;> simp at hcount ⊢ <;> omega

/-- An event among events that may happen finds the connection down, or up if it closes it. -/
theorem count_of_mem_follow? {up : Bool} {before after : List LinkEvent} {event : LinkEvent}
    (h : follow? false (before ++ event :: after) = some up) :
    before.count .connected = before.count .closing + if event = .closing then 1 else 0 := by
  rw [follow?_append] at h
  obtain ⟨up₁, hbefore, hrest⟩ := Option.bind_eq_some_iff.mp h
  rw [follow?_cons] at hrest
  obtain ⟨up₂, hevent, -⟩ := Option.bind_eq_some_iff.mp hrest
  have hcount := count_of_follow? hbefore
  cases up₁ <;> cases event <;> cases hevent <;> simpa using hcount

end LinkEvent

open LinkEvent

/-- What a call does to the connection when it is made. -/
def RequestKind.linkEvents : RequestKind → List LinkEvent
  | connect => [.connecting]
  | close => [.closing]
  | lookUp | create | setData | delete | children => []

theorem RequestKind.IsNode.linkEvents_eq {kind : RequestKind} (h : kind.IsNode) :
    kind.linkEvents = [] := by
  cases kind with
  | connect => exact absurd rfl h.1
  | close => exact absurd rfl h.2
  | lookUp | create | setData | delete | children => rfl

/-- What a call does to the connection when it has completed. -/
def Request.linkEvents : Request β → Except ε β → List LinkEvent
  | .connect .., .ok _ => [.connected]
  | _, _ => []

theorem Request.linkEvents_of_ne_connect {request : Request β} (h : request.kind ≠ .connect)
    (reply : Except ε β) : request.linkEvents reply = [] := by
  cases request with
  | connect => exact absurd rfl h
  | close | lookUp | create | setData | delete | children => rfl

theorem Request.linkEvents_error (request : Request β) (cause : ε) :
    request.linkEvents (.error cause : Except ε β) = [] := by
  cases request <;> rfl

/-- What a call comes to does to the connection what its last answer does. -/
theorem Settles.linkEvents_eq {gate : Option Operation} {phase : Phase} {request : Request β}
    {reply : Except Fault β} {outcome : Outcome β} (h : Settles gate phase reply outcome) :
    request.linkEvents reply = request.linkEvents outcome := by
  cases h with
  | ok value => cases request <;> rfl
  | refused | failed => rw [request.linkEvents_error, request.linkEvents_error]

namespace Wait

/-- What happens to the connection when a task has come to a waiting point. -/
def linkEvents (wait : Wait α) : List LinkEvent :=
  wait.inFlight?.elim [] RequestKind.linkEvents

/-- What happens to the connection when the call in flight is answered. -/
def answerEvents (reply : {β : Type} → Request β → Except Fault β) : Wait α → List LinkEvent
  | calling request _ | trying _ request _ _ _ => request.linkEvents (reply request)
  | ended _ | resting .. | pausing .. => []

end Wait

/-! ## Steps of a task -/

section

variable {role : Role} {post : Standing → α → Prop} {st : Standing}

/-- The events `events`, and then the call that a task makes at the end of a step, may happen to a
connection that is up as the standing says. After them it is up exactly while the session is
started. -/
def LinkedBy (st : Standing) (events : List LinkEvent) (step : Phase × Task α) : Prop :=
  follow? st.linked (events ++ step.2.wait.linkEvents) = some (decide (step.1 = .started))

/-- A task that makes no call leaves the connection as it is. -/
theorem linkedBy_of_rested (hrested : st.Rested) {step : Phase × Task α}
    (hphase : step.1 = st.phase) (hwait : step.2.wait.inFlight? = none) : LinkedBy st [] step := by
  rw [LinkedBy, Wait.linkEvents, hwait, hphase]
  exact congrArg some hrested

/-- An orderly program closes the connection on its way to the next waiting point only as it leaves
`started`, and enters `started` only with the connection up. -/
theorem Program.Orderly.linkedBy (hpost : ∀ st result, post st result → st.Rested) {p : Program α}
    (h : p.Orderly role post st) (now : Nat) (alarm : Option (Alarm α)) :
    LinkedBy st [] (p.advance now st.phase alarm) := by
  induction p generalizing st alarm with
  | finish result => exact linkedBy_of_rested (hpost st result h) rfl rfl
  | observe next ih => exact ih st.phase h alarm
  | exchange expected new next ih =>
    simp only [Orderly] at h
    rw [advance]
    by_cases hphase : st.phase = expected
    · rw [if_pos hphase] at h ⊢
      obtain ⟨st', hchange, rfl, hnext⟩ := h
      have hlinked := ih true hnext alarm
      rwa [LinkedBy, hchange.linked_eq.1] at hlinked
    · rw [if_neg hphase] at h ⊢
      exact ih false h alarm
  | assign new next ih =>
    obtain ⟨st', hchange, rfl, hnext⟩ := h
    have hlinked := ih hnext alarm
    rwa [LinkedBy, hchange.linked_eq.1] at hlinked
  | call request next ih =>
    obtain ⟨hkind, hlinked, hrole, -⟩ := h
    have hdown : st.phase ≠ .started := by
      rcases hrole with ⟨-, hphase⟩ | ⟨-, -, hphase⟩ <;> simp [hphase]
    simp [LinkedBy, advance, Wait.linkEvents, Wait.inFlight?, hkind, RequestKind.linkEvents, hlinked,
      hdown, follow?_cons, after?]
  | persist gate request next ih =>
    rcases h with ⟨hkind, -, -, -, hphase, hlinked, -⟩ | ⟨operation, -, hkind, hphase, hlinked, -⟩
    · simp [LinkedBy, advance, Wait.linkEvents, Wait.inFlight?, hkind, RequestKind.linkEvents,
        hlinked, hphase, follow?_cons, after?]
    · simp [LinkedBy, advance, Wait.linkEvents, Wait.inFlight?, hkind.linkEvents_eq, hlinked, hphase]
  | pause => exact h.elim
  | arm limit late next ihl ihn => exact ihn h.2.2 _
  | disarm next ih => exact ih h _

/-- A call that is repeated opens the connection if it was there to connect and has succeeded. -/
theorem Persists.linkedBy (hpost : ∀ st result, post st result → st.Rested) {β : Type}
    {gate : Option Operation} {request : Request β} {next : Outcome β → Program α}
    (h : Persists role post st gate request next) (hrested : st.Rested) (now : Nat)
    (alarm : Option (Alarm α)) (outcome : Outcome β) :
    LinkedBy st (request.linkEvents outcome) ((next outcome).advance now st.phase alarm) := by
  rcases h with ⟨hkind, -, -, -, hphase, hok, herror⟩ | ⟨operation, -, hkind, hnext⟩
  · cases outcome with
    | error cause =>
      rw [request.linkEvents_error]
      exact (herror cause).linkedBy hpost now alarm
    | ok value =>
      have hdown : st.linked = false := by
        rw [hrested, hphase]
        rfl
      have hlinked := (hok value).linkedBy hpost now alarm
      cases request with
      | connect => rwa [LinkedBy, hdown]
      | close | lookUp | create | setData | delete | children => cases hkind
  · rw [request.linkEvents_of_ne_connect hkind.1]
    exact (hnext outcome st (.refl hrested)).linkedBy hpost now alarm

namespace Task.Orderly

variable {task : Task α}

/-- What happens to the connection when the call of a task is answered. -/
theorem linkedBy_answered (hpost : ∀ st result, post st result → st.Rested)
    (h : task.Orderly role post st) (hcalling : task.isCalling = true) (policy : RetryPolicy)
    (lasts : Nat → Nat) (now draw : Nat) (reply : {β : Type} → Request β → Except Fault β) :
    LinkedBy st (task.wait.answerEvents reply)
      (task.answered policy lasts now draw st.phase reply) := by
  obtain ⟨wait, alarm⟩ := task
  obtain ⟨hrested, -, hwait, -, -⟩ := h
  cases wait with
  | ended | resting | pausing => cases hcalling
  | calling request next =>
    have hconnect : request.kind ≠ .connect := by simp [hwait.1]
    rw [Wait.answerEvents, request.linkEvents_of_ne_connect hconnect]
    exact (hwait.2 (reply request) st (.refl hrested)).linkedBy hpost now alarm
  | trying gate request retries since next =>
    obtain ⟨outcome, hsettles, hstep⟩ | ⟨fault, wake, hreply, hstep⟩ :=
      Task.answered_trying policy lasts now draw reply
    · rw [hstep, Wait.answerEvents, hsettles.linkEvents_eq]
      exact hwait.linkedBy hpost hrested now alarm outcome
    · rw [hstep, Wait.answerEvents, hreply, request.linkEvents_error]
      exact linkedBy_of_rested hrested rfl rfl

/-- What happens to the connection when the sleep of a task ends. -/
theorem linkedBy_woken (hpost : ∀ st result, post st result → st.Rested)
    (h : task.Orderly role post st) (hwake : task.wake?.isSome) (now : Nat) :
    LinkedBy st [] (task.woken now st.phase) := by
  obtain ⟨wait, alarm⟩ := task
  obtain ⟨hrested, -, hwait, -, -⟩ := h
  cases wait with
  | ended | calling | trying => cases hwake
  | pausing => exact hwait.elim
  | resting gate request retries since wake next =>
    obtain ⟨cause, -, hstep⟩ | ⟨hgate, hstep⟩ := Task.woken_resting now
    · have hlinked := hwait.linkedBy hpost hrested now alarm (.error cause)
      rw [request.linkEvents_error] at hlinked
      rwa [hstep]
    · rw [hstep]
      rcases hwait with ⟨hkind, -, -, -, hphase, -⟩ | ⟨operation, rfl, hkind, -⟩
      · have hdown : st.linked = false := by
          rw [hrested, hphase]
          rfl
        simp [LinkedBy, Wait.linkEvents, Wait.inFlight?, hkind, RequestKind.linkEvents, hdown, hphase,
          follow?_cons, after?]
      · -- an attempt at a node operation is no event
        have hevents : (Wait.trying (some operation) request (retries + 1) since next).linkEvents
            = [] := hkind.linkEvents_eq
        rw [LinkedBy, hevents]
        exact congrArg some hrested

/-- What happens to the connection when the time limit of a task strikes. -/
theorem linkedBy_expired (hpost : ∀ st result, post st result → st.Rested)
    (h : task.Orderly role post st) (halarm : task.alarm.isSome) (now : Nat) :
    LinkedBy st [] (task.expired now st.phase) := by
  obtain ⟨wait, alarm⟩ := task
  cases alarm with
  | none => cases halarm
  | some alarm =>
    obtain ⟨hmine, horderly⟩ := h.late alarm rfl
    have hlate := horderly { st with armed := false } hmine rfl h.rested h.proper
    exact hlate.linkedBy hpost now none

end Task.Orderly

end

namespace Session

/-! ## Runs with what happens to the connection -/

/-- How a task that makes a call may go on to its next waiting point, with what happens to the
connection by that. -/
inductive GoesLinked (s : Session) (phase : Phase) (call : SessionCall β) :
    List LinkEvent → Option (Task (Outcome β)) → Phase × Task (Outcome β) → Prop
  | begin (now : Nat) : GoesLinked s phase call [] none ((call.program s).advance now phase none)
  | answer {task : Task (Outcome β)} (hcalling : task.isCalling = true) (lasts : Nat → Nat)
      (now draw : Nat)
    (reply : {β : Type} → Request β → Except Fault β) :
    GoesLinked s phase call (task.wait.answerEvents reply) (some task)
      (task.answered s.policy lasts now draw phase reply)
  | wake {task : Task (Outcome β)} (hwake : task.wake?.isSome) (now : Nat) :
    GoesLinked s phase call [] (some task) (task.woken now phase)
  | expire {task : Task (Outcome β)} (halarm : task.alarm.isSome) (now : Nat) :
    GoesLinked s phase call [] (some task) (task.expired now phase)

/-- Tasks of a crew go on one after the other, with what happens to the connection in order: first
what an answer brings, then the call that is made at the end of the way. -/
inductive LinkRun (s : Session) : Crew → List Turn → List LinkEvent → Crew → Prop
  | nil (crew : Crew) : LinkRun s crew [] [] crew
  | cons {crew crew' : Crew} {log : List Turn} {new events : List LinkEvent} (i : Nat) {β : Type}
    {call : SessionCall β} {task? : Option (Task (Outcome β))} {step : Phase × Task (Outcome β)}
    (hworker : crew.workers[i]? = some ⟨call, task?⟩)
    (hgoes : GoesLinked s crew.phase call new task? step)
    (hrun : LinkRun s (crew.goOn i call step) log events crew') :
    LinkRun s crew (crew.turn i call step :: log) (new ++ step.2.wait.linkEvents ++ events) crew'

namespace GoesLinked

variable {s : Session} {crew : Crew} {i : Nat} {call : SessionCall β} {events : List LinkEvent}
variable {task? : Option (Task (Outcome β))} {step : Phase × Task (Outcome β)}

theorem goes {phase : Phase} (h : GoesLinked s phase call events task? step) :
    Goes s phase call task? step := by
  cases h with
  | begin now => exact .begin now
  | answer hcalling lasts now draw reply => exact .answer hcalling lasts now draw reply
  | wake hwake now => exact .wake hwake now
  | expire halarm now => exact .expire halarm now

/-- What happens to the connection on the way of a task of a crew that keeps to its role. -/
theorem follow?_eq (h : GoesLinked s crew.phase call events task? step)
    (hsound : Worker.Sound crew i ⟨call, task?⟩) :
    follow? (decide (crew.phase = .started)) (events ++ step.2.wait.linkEvents)
      = some (decide (step.1 = .started)) := by
  have hpost (st : Standing) (result : Outcome β) (hended : Ended st) : st.Rested := hended.rested
  cases h with
  | begin now => exact (hsound.orderly_program s).linkedBy hpost now none
  | answer hcalling lasts now draw reply =>
    exact hsound.1.linkedBy_answered hpost hcalling s.policy lasts now draw reply
  | wake hwake now => exact hsound.1.linkedBy_woken hpost hwake now
  | expire halarm now => exact hsound.1.linkedBy_expired hpost halarm now

end GoesLinked

/-- To every way of a task belongs what happens to the connection on it. -/
theorem Goes.exists_linked {s : Session} {phase : Phase} {call : SessionCall β}
    {task? : Option (Task (Outcome β))} {step : Phase × Task (Outcome β)}
    (h : Goes s phase call task? step) : ∃ events, GoesLinked s phase call events task? step := by
  cases h with
  | begin now => exact ⟨_, .begin now⟩
  | answer hcalling lasts now draw reply => exact ⟨_, .answer hcalling lasts now draw reply⟩
  | wake hwake now => exact ⟨_, .wake hwake now⟩
  | expire halarm now => exact ⟨_, .expire halarm now⟩

/-- To every run of tasks belongs what happens to the connection in it. -/
theorem Run.exists_linkRun {s : Session} {crew crew' : Crew} {log : List Turn}
    (h : Run s crew log crew') : ∃ events, LinkRun s crew log events crew' := by
  induction h with
  | nil crew => exact ⟨[], .nil crew⟩
  | cons hstep _ ih =>
    obtain ⟨events, hrun⟩ := ih
    cases hstep with
    | go i hworker hgoes =>
      obtain ⟨new, hlinked⟩ := hgoes.exists_linked
      exact ⟨_, .cons i hworker hlinked hrun⟩

namespace LinkRun

variable {s : Session} {crew crew' : Crew} {log : List Turn} {events : List LinkEvent}

/-- In a run the connection is opened and closed in turn, and it is up at the end exactly if the
session is started then. -/
theorem follow?_eq (h : LinkRun s crew log events crew') (hsound : crew.Sound) :
    follow? (decide (crew.phase = .started)) events = some (decide (crew'.phase = .started)) := by
  induction h with
  | nil => rfl
  | cons i hworker hgoes _ ih =>
    have hstep := Step.go i hworker hgoes.goes
    rw [follow?_append, hgoes.follow?_eq (hsound i _ hworker)]
    exact ih (hstep.sound hsound)

/-- What is said of the events of a connection, and of the tasks `crew` after them. -/
structure InBalance (events : List LinkEvent) (crew : Crew) : Prop where
  /-- The connection was opened as often as it was closed, and once more while the session is
  started. -/
  balance : (events.count .connected : Int) - events.count .closing
    = if crew.phase = .started then 1 else 0
  /-- The connection was closed only while it was open. -/
  closing : ∀ before after, events = before ++ .closing :: after →
    (before.count .connected : Int) - before.count .closing = 1
  /-- No call that connects was made, and none completed with success, while the connection was
  open. -/
  connecting : ∀ before event after, events = before ++ event :: after → event ≠ .closing →
    (before.count .connected : Int) - before.count .closing = 0

/-- A run with what happens to the connection is a run. -/
theorem run (h : LinkRun s crew log events crew') : Run s crew log crew' := by
  induction h with
  | nil crew => exact .nil crew
  | cons i hworker hgoes _ ih => exact .cons (.go i hworker hgoes.goes) ih

theorem inBalance {calls : List ((β : Type) × SessionCall β)}
    (h : LinkRun s (.opening calls) log events crew) : InBalance events crew := by
  have hfollow : follow? false events = some (decide (crew.phase = .started)) :=
    h.follow?_eq (Crew.sound_opening calls)
  constructor
  · have hcount := count_of_follow? hfollow
    by_cases hphase : crew.phase = .started
    · simp [hphase] at hcount ⊢
      omega
    · simp [hphase] at hcount ⊢
      omega
  · rintro before after rfl
    have hcount := count_of_mem_follow? hfollow
    rw [if_pos rfl] at hcount
    omega
  · rintro before event after rfl hevent
    have hcount := count_of_mem_follow? hfollow
    rw [if_neg hevent] at hcount
    omega

end LinkRun

namespace Run

variable {s : Session} {crew : Crew} {log : List Turn}

/-- **A connection for a started session.** However the tasks of a session interleave and whatever
its calls are answered, every connection is closed once, as the session leaves `started`, and no
other one is opened before. -/
theorem keeps_balance {calls : List ((β : Type) × SessionCall β)}
    (h : Run s (.opening calls) log crew) :
    (∃ events, LinkRun s (.opening calls) log events crew)
      ∧ ∀ events, LinkRun s (.opening calls) log events crew → LinkRun.InBalance events crew := by
  constructor
  · exact h.exists_linkRun
  · intro events hlinked
    exact hlinked.inBalance

/-- Two tasks start the session one after the other; the service fails to close the connection of the
first one, which is given up. -/
theorem keeps_balance_reopened :
    ∃ crew, Run sharedSession (.opening sharedCalls) (sharedLog.take 6) crew
      ∧ crew.phase = .started
      ∧ LinkRun.InBalance [.connecting, .connected, .closing, .connecting, .connected] crew := by
  have h : LinkRun sharedSession (.opening sharedCalls) _ _ _ :=
    .cons 0 rfl (.begin 0)
      (.cons 0 rfl (.answer rfl id 1 0 smoothReply)
      (.cons 0 rfl (.expire rfl 5)
      (.cons 0 rfl (.answer rfl id 6 0 fun _ => .error .operationTimeout)
      (.cons 1 rfl (.begin 7)
      (.cons 1 rfl (.answer rfl id 8 0 smoothReply)
      (.nil _))))))
  exact ⟨_, h.run, rfl, (keeps_balance h.run).2 _ h⟩

end Run

end Session

end IdMint.Coordination
