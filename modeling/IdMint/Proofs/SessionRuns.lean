import IdMint.Coordination.Coordinator
import IdMint.Proofs.SessionCalls
import Mathlib.Data.List.Basic

/-! # Runs of session tasks

Any number of tasks work with one session. A task runs without interruption from one waiting point to
the next one; between two waiting points of a task any others may go on, calls may be answered in any
way, sleeps may end and time limits may strike. -/

namespace IdMint.Coordination

/-! ## Refusals -/

section

variable {β : Type}

/-- What is left of a task ends as soon as a gate refuses to repeat a call. -/
def Wait.Heeds : Wait (Outcome β) → Prop
  | ended _ => True
  | trying gate request _ _ next | resting gate request _ _ _ next =>
    (Program.persist gate request next).Heeds
  | calling .. | pausing .. => False

/-- The call in flight fails transiently. -/
def Wait.FailsBy (reply : {β : Type} → Request β → Except Fault β) : Wait α → Prop
  | calling request _ | trying _ request _ _ _ =>
    ∃ fault, reply request = .error fault ∧ fault.isRetryable = true
  | ended _ | resting .. | pausing .. => False

/-- A task without a time limit that ends as soon as a gate refuses to repeat a call. -/
structure Task.Heeds (task : Task (Outcome β)) : Prop where
  wait : task.wait.Heeds
  alarm : task.alarm = none

/-- A program that heeds the gates comes to a waiting point from which it does so. -/
theorem Program.Heeds.advance {p : Program (Outcome β)} (h : p.Heeds) (now : Nat) (phase : Phase) :
    (p.advance now phase none).2.Heeds := by
  induction p with
  | finish => exact ⟨trivial, rfl⟩
  | observe next ih => exact ih phase (h phase)
  | persist => exact ⟨h, rfl⟩
  | exchange | assign | call | pause | arm | disarm => exact h.elim

namespace Task.Heeds

variable {task : Task (Outcome β)}

theorem answered (h : task.Heeds) (policy : RetryPolicy) (lasts : Nat → Nat) (now draw : Nat)
    (phase : Phase) (reply : {β : Type} → Request β → Except Fault β) :
    (task.answered policy lasts now draw phase reply).2.Heeds := by
  obtain ⟨wait, alarm⟩ := task
  obtain ⟨hwait, halarm⟩ := h
  cases halarm
  cases wait with
  | ended | resting => exact ⟨hwait, rfl⟩
  | calling | pausing => exact hwait.elim
  | trying gate request retries since next =>
    obtain ⟨outcome, -, hstep⟩ | ⟨fault, wake, -, hstep⟩ :=
      Task.answered_trying policy lasts now draw reply
    · rw [hstep]
      exact (hwait.2 outcome).advance now phase
    · rw [hstep]
      exact ⟨hwait, rfl⟩

theorem woken (h : task.Heeds) (now : Nat) (phase : Phase) : (task.woken now phase).2.Heeds := by
  obtain ⟨wait, alarm⟩ := task
  obtain ⟨hwait, halarm⟩ := h
  cases halarm
  cases wait with
  | ended | trying => exact ⟨hwait, rfl⟩
  | calling | pausing => exact hwait.elim
  | resting gate request retries since wake next =>
    obtain ⟨cause, -, hstep⟩ | ⟨-, hstep⟩ := Task.woken_resting now
    · rw [hstep]
      exact (hwait.2 (.error cause)).advance now phase
    · rw [hstep]
      exact ⟨hwait, rfl⟩

/-- A call that fails transiently is not repeated while the session is not started: its operation
tells so. -/
theorem refused (h : task.Heeds) {phase : Phase} (hphase : phase ≠ .started)
    {reply : {β : Type} → Request β → Except Fault β} (hfails : task.wait.FailsBy reply)
    (policy : RetryPolicy) (lasts : Nat → Nat) (now draw : Nat) :
    ∃ kind operation, task.wait.inFlight? = some kind ∧ kind.operation? = some operation
      ∧ (task.answered policy lasts now draw phase reply).2.result?
        = some (.error (operation.refused phase)) := by
  obtain ⟨wait, alarm⟩ := task
  obtain ⟨hwait, -⟩ := h
  cases wait with
  | ended | resting | pausing => exact hfails.elim
  | calling => exact hwait.elim
  | trying gate request retries since next =>
    obtain ⟨fault, hreply, hretry⟩ := hfails
    obtain ⟨⟨operation, rfl, hkind, hrefused⟩, -⟩ := hwait
    refine ⟨request.kind, operation, rfl, hkind, ?_⟩
    simp only [Task.answered, hreply, hretry, if_true, gateError?, if_neg hphase, hrefused]
    rfl

end Task.Heeds

end

namespace Session

/-! ## Crews -/

/-- A task of a crew: the call that it makes, and how far it has come if it has begun. -/
structure Worker : Type 1 where
  {β : Type}
  call : SessionCall β
  task? : Option (Task (Outcome β))

/-- A session, and the tasks that work with it. -/
structure Crew : Type 1 where
  phase : Phase
  /-- The task that was the last one to move the session from `uninitialized`. -/
  starter : Option Nat
  workers : List Worker

/-- What a log tells about one task's way from a waiting point to the next one. -/
structure Turn where
  /-- The task, by its place in the crew. -/
  worker : Nat
  role : Role
  before : Phase
  after : Phase
  /-- The task that was the last one to move the session from `uninitialized`, this way included. -/
  starter : Option Nat
  /-- The call that was made at the end of the way. -/
  issued : Option RequestKind
  deriving DecidableEq

namespace Crew

/-- A session that is not initialized, and tasks that are about to make the calls. -/
def opening (calls : List ((β : Type) × SessionCall β)) : Crew :=
  ⟨.uninitialized, none, calls.map fun ⟨_, call⟩ => ⟨call, none⟩⟩

variable (crew : Crew) (i : Nat) (call : SessionCall β) (step : Phase × Task (Outcome β))

/-- The crew after a task has come to its next waiting point. -/
def goOn : Crew where
  phase := step.1
  starter :=
    if crew.phase = .uninitialized ∧ step.1 ≠ .uninitialized then some i else crew.starter
  workers := crew.workers.set i ⟨call, some step.2⟩

/-- What the log tells about the way. -/
def turn : Turn :=
  ⟨i, call.role, crew.phase, step.1, (crew.goOn i call step).starter, step.2.wait.inFlight?⟩

end Crew

/-- How a task that makes a call may go on to its next waiting point: it begins, its call is answered
in some way, its sleep ends, or its time limit strikes. -/
inductive Goes (s : Session) (phase : Phase) (call : SessionCall β) :
    Option (Task (Outcome β)) → Phase × Task (Outcome β) → Prop
  | begin (now : Nat) : Goes s phase call none ((call.program s).advance now phase none)
  | answer {task : Task (Outcome β)} (hcalling : task.isCalling = true) (lasts : Nat → Nat)
      (now draw : Nat)
    (reply : {β : Type} → Request β → Except Fault β) :
    Goes s phase call (some task) (task.answered s.policy lasts now draw phase reply)
  | wake {task : Task (Outcome β)} (hwake : task.wake?.isSome) (now : Nat) :
    Goes s phase call (some task) (task.woken now phase)
  | expire {task : Task (Outcome β)} (halarm : task.alarm.isSome) (now : Nat) :
    Goes s phase call (some task) (task.expired now phase)

/-- One task of a crew goes on to its next waiting point. -/
inductive Step (s : Session) : Crew → Turn → Crew → Prop
  | go {crew : Crew} (i : Nat) {β : Type} {call : SessionCall β}
    {task? : Option (Task (Outcome β))} {step : Phase × Task (Outcome β)}
    (hworker : crew.workers[i]? = some ⟨call, task?⟩) (hgoes : Goes s crew.phase call task? step) :
    Step s crew (crew.turn i call step) (crew.goOn i call step)

/-- Tasks of a crew go on one after the other. -/
inductive Run (s : Session) : Crew → List Turn → Crew → Prop
  | nil (crew : Crew) : Run s crew [] crew
  | cons {crew crew' crew'' : Crew} {turn : Turn} {log : List Turn} (hstep : Step s crew turn crew')
    (hrun : Run s crew' log crew'') : Run s crew (turn :: log) crew''

/-! ## Standings in a crew -/

namespace Crew

/-- How a task of a crew stands to the session at a waiting point. -/
def standing (crew : Crew) (i : Nat) (armed : Bool) : Standing where
  phase := crew.phase
  mine := decide (crew.phase ≠ .uninitialized ∧ crew.starter = some i)
  armed := armed
  linked := decide (crew.phase = .started)

variable {crew : Crew} {i j : Nat} {call : SessionCall β} {step : Phase × Task (Outcome β)}
variable {role : Role} {armed : Bool} {st : Standing}

theorem proper_standing (crew : Crew) (i : Nat) (armed : Bool) :
    (crew.standing i armed).Proper := fun hmine => (of_decide_eq_true hmine).1

/-- Who moves the session from `uninitialized` is noted. -/
theorem starter_goOn_of_init (hinit : crew.phase = .uninitialized)
    (hphase : step.1 ≠ .uninitialized) : (crew.goOn i call step).starter = some i :=
  if_pos ⟨hinit, hphase⟩

/-- Nobody else is noted. -/
theorem starter_goOn (hinit : crew.phase ≠ .uninitialized) :
    (crew.goOn i call step).starter = crew.starter := if_neg fun h => hinit h.1

/-- A task that goes on does not make another one the starter. -/
theorem starter_ne_goOn (hne : j ≠ i) (hstarter : crew.starter ≠ some j) :
    (crew.goOn i call step).starter ≠ some j := by
  show ite _ _ _ ≠ _
  by_cases hmoved : crew.phase = .uninitialized ∧ step.1 ≠ .uninitialized
  · rw [if_pos hmoved]
    exact fun heq => hne (Option.some.inj heq).symm
  · rw [if_neg hmoved]
    exact hstarter

/-- A task that has gone on stands as the crew says. -/
theorem standing_goOn_self (h : Standing.Moved role (crew.standing i armed) st)
    (hphase : st.phase = step.1) (hrested : st.Rested) :
    (crew.goOn i call step).standing i st.armed = st := by
  refine Standing.ext hphase.symm ?_ rfl ?_
  -- the start is its own if it was before, or if it has just taken it
  · show decide (step.1 ≠ .uninitialized ∧ (crew.goOn i call step).starter = some i) = st.mine
    by_cases hinit : crew.phase = .uninitialized
    · rw [h.own (.inr hinit), hphase]
      refine decide_eq_decide.mpr ⟨And.left, ?_⟩
      intro hmoved
      exact ⟨hmoved, starter_goOn_of_init hinit hmoved⟩
    · rw [starter_goOn hinit]
      by_cases hheld : crew.starter = some i
      · rw [h.own (.inl (decide_eq_true ⟨hinit, hheld⟩)), hphase]
        exact decide_eq_decide.mpr ⟨And.left, fun hmoved => ⟨hmoved, hheld⟩⟩
      · rw [(h.other (decide_eq_false fun hmine => hheld hmine.2) hinit).1]
        exact decide_eq_false fun hmine => hheld hmine.2
  · rw [hrested, hphase]
    rfl

/-- What the others find is what may have become of their standings. -/
theorem standing_goOn_other (h : Standing.Moved role (crew.standing i armed) st)
    (hphase : st.phase = step.1) (hne : j ≠ i) (armed' : Bool) :
    (crew.standing j armed').Later ((crew.goOn i call step).standing j armed') := by
  have hother (hinit : crew.phase ≠ .uninitialized) (hheld : crew.starter ≠ some i) :
      step.1 = crew.phase ∨ crew.phase = .started ∧ step.1 = .closed := by
    rw [← hphase]
    exact (h.other (decide_eq_false fun hmine => hheld hmine.2) hinit).2
  refine ⟨?_, rfl, rfl, fun hclosed => hphase.symm.trans (h.closed hclosed), ?_⟩
  · refine decide_eq_decide.mpr ?_
    by_cases hinit : crew.phase = .uninitialized
    · refine iff_of_false ?_ fun hmine => hmine.1 hinit
      rintro ⟨hmoved, hstarter⟩
      rw [starter_goOn_of_init hinit hmoved] at hstarter
      exact hne (Option.some.inj hstarter).symm
    · rw [starter_goOn hinit]
      by_cases hheld : crew.starter = some i
      · rw [hheld]
        exact iff_of_false (fun hmine => hne (Option.some.inj hmine.2).symm)
          fun hmine => hne (Option.some.inj hmine.2).symm
      · have hmoved : step.1 ≠ .uninitialized := by
          rcases hother hinit hheld with heq | ⟨-, heq⟩
          · rwa [heq]
          · rw [heq]
            decide
        exact ⟨fun hmine => ⟨hinit, hmine.2⟩, fun hmine => ⟨hmoved, hmine.2⟩⟩
  · intro hmine
    obtain ⟨hinit, hheld⟩ := of_decide_eq_true hmine
    refine hother hinit ?_
    rw [hheld]
    exact fun heq => hne (Option.some.inj heq)

end Crew

/-! ## Order -/

/-- A task of a crew has not started the session before it has begun, and keeps to its role then. -/
def Worker.Sound (crew : Crew) (i : Nat) : Worker → Prop
  | ⟨_, none⟩ => crew.starter ≠ some i
  | ⟨call, some task⟩ =>
    task.Orderly call.role (fun st _ => Ended st) (crew.standing i task.alarm.isSome)
      ∧ (call.role = .node → task.Heeds)

/-- A node operation that has begun heeds its gates. -/
theorem Worker.Sound.heeds {crew : Crew} {i : Nat} {worker : Worker} (h : worker.Sound crew i)
    (hrole : worker.call.role = .node) (task : Task (Outcome worker.β))
    (htask : worker.task? = some task) : task.Heeds := by
  obtain ⟨call, task?⟩ := worker
  cases task? with
  | none => cases htask
  | some =>
    obtain rfl := Option.some.inj htask
    exact h.2 hrole

/-- A task of a crew that has not begun will keep to its role. -/
theorem Worker.Sound.orderly_program {β : Type} {crew : Crew} {i : Nat} {call : SessionCall β}
    (h : Worker.Sound crew i ⟨call, none⟩) (s : Session) :
    (call.program s).Orderly call.role (fun st _ => Ended st) (crew.standing i false) := by
  have hmine : (crew.standing i false).mine = false := decide_eq_false fun hmine => h hmine.2
  exact call.orderly_program s rfl hmine rfl

/-- All tasks of a crew keep to their roles. -/
def Crew.Sound (crew : Crew) : Prop :=
  ∀ (i : Nat) (worker : Worker), crew.workers[i]? = some worker → worker.Sound crew i

/-- Before anything has happened all tasks of a crew keep to their roles. -/
theorem Crew.sound_opening (calls : List ((β : Type) × SessionCall β)) : (opening calls).Sound := by
  intro i worker hworker
  have hmem : worker ∈ (opening calls).workers := List.mem_of_getElem? hworker
  obtain ⟨⟨β, call⟩, -, rfl⟩ := List.mem_map.mp hmem
  exact nofun

namespace Goes

variable {s : Session} {crew : Crew} {i : Nat} {call : SessionCall β}
variable {task? : Option (Task (Outcome β))} {step : Phase × Task (Outcome β)}

/-- A task of a crew goes on to its next waiting point in order. -/
theorem arrives (h : Goes s crew.phase call task? step)
    (hsound : Worker.Sound crew i ⟨call, task?⟩) :
    ∃ armed, Arrives call.role (fun st _ => Ended st) (crew.phase ≠ .closed)
      (crew.standing i armed) step := by
  have hpost (st : Standing) (result : Outcome β) (hended : Ended st) :
      st.Rested ∧ st.armed = false := ⟨hended.rested, hended.lifted⟩
  cases h with
  | begin now =>
    have hproper := crew.proper_standing i false
    have harrives : Arrives call.role (fun st _ => Ended st) _ (crew.standing i false)
        ((call.program s).advance now crew.phase none) :=
      (hsound.orderly_program s).arrives hpost hproper now rfl nofun
    exact ⟨false, harrives.of_moved (.refl hproper) (Standing.Rested.ne_closed rfl)⟩
  | answer hcalling lasts now draw reply =>
    exact ⟨_, hsound.1.arrives_answered hpost hcalling s.policy lasts now draw reply⟩
  | wake hwake now => exact ⟨_, hsound.1.arrives_woken hpost hwake now⟩
  | expire halarm now => exact ⟨_, hsound.1.arrives_expired hpost halarm now⟩

/-- A node operation of a crew goes on to heed its gates. -/
theorem heeds (h : Goes s crew.phase call task? step)
    (hsound : Worker.Sound crew i ⟨call, task?⟩) (hrole : call.role = .node) : step.2.Heeds := by
  cases h with
  | begin now => exact (SessionCall.worksOnNodes_program hrole s).heeds.advance now crew.phase
  | answer hcalling lasts now draw reply =>
    exact (hsound.2 hrole).answered s.policy lasts now draw crew.phase reply
  | wake hwake now => exact (hsound.2 hrole).woken now crew.phase
  | expire halarm now =>
    rw [(hsound.2 hrole).alarm] at halarm
    cases halarm

end Goes

/-- A step keeps all tasks of a crew to their roles. -/
theorem Step.sound {s : Session} {crew crew' : Crew} {turn : Turn} (h : Step s crew turn crew')
    (hsound : crew.Sound) : crew'.Sound := by
  cases h with
  | @go i _ call _ step hworker hgoes =>
    have hown := hsound i _ hworker
    obtain ⟨armed, st, hmoved, hphase, horderly, -⟩ := hgoes.arrives hown
    intro j worker hworker'
    by_cases hne : j = i
    · -- the task that has gone on
      subst hne
      rw [Crew.goOn, List.getElem?_set_self (List.getElem?_eq_some_iff.mp hworker).1] at hworker'
      obtain rfl := Option.some.inj hworker'
      refine ⟨?_, hgoes.heeds hown⟩
      rw [← horderly.armed_eq, Crew.standing_goOn_self hmoved hphase horderly.rested]
      exact horderly
    · -- a task that waits meanwhile, or has not begun
      rw [Crew.goOn, List.getElem?_set_ne (Ne.symm hne)] at hworker'
      have hother := hsound j worker hworker'
      obtain ⟨call', task?⟩ := worker
      cases task? with
      | none => exact Crew.starter_ne_goOn hne hother
      | some task =>
        exact ⟨hother.1.later (Crew.standing_goOn_other hmoved hphase hne _), hother.2⟩

/-! ## Turns -/

/-- The order that every turn of a run keeps. -/
structure Turn.InOrder (turn : Turn) : Prop where
  /-- Only the task that has moved the session from `uninitialized` connects, while it starts it. -/
  connect : turn.issued = some .connect →
    turn.role = .start ∧ turn.after = .starting ∧ turn.starter = some turn.worker
  /-- Calls that work on nodes are made only while the session is started. -/
  node : ∀ kind, turn.issued = some kind → kind.IsNode → turn.after = .started
  /-- The connection is closed by the task that closes the session, or by the one that starts it. -/
  close : turn.issued = some .close → turn.before ≠ .closed
    ∧ (turn.role = .close ∧ turn.after = .closed
      ∨ turn.role = .start ∧ turn.after = .starting ∧ turn.starter = some turn.worker)
  /-- Only a task that is there for it closes the session. -/
  closes : turn.after = .closed → turn.before = .closed ∨ turn.role = .close
  /-- A closed session stays so. -/
  closed : turn.before = .closed → turn.after = .closed

/-- From a closed session no call is made. -/
theorem Turn.InOrder.issued_eq_none {turn : Turn} (h : turn.InOrder)
    (hbefore : turn.before = .closed) : turn.issued = none := by
  have hafter := h.closed hbefore
  cases hissued : turn.issued with
  | none => rfl
  | some kind =>
    by_cases hconnect : kind = .connect
    · subst hconnect
      exact nomatch hafter.symm.trans (h.connect hissued).2.1
    · by_cases hclose : kind = .close
      · subst hclose
        exact absurd hbefore (h.close hissued).1
      · exact nomatch hafter.symm.trans (h.node kind hissued ⟨hconnect, hclose⟩)

namespace Step

variable {s : Session} {crew crew' : Crew} {turn : Turn}

/-- A turn tells the phases of the session before and after it. -/
theorem phase_eq (h : Step s crew turn crew') :
    turn.before = crew.phase ∧ turn.after = crew'.phase := by
  cases h
  exact ⟨rfl, rfl⟩

/-- A step of a crew whose tasks keep to their roles is in order. -/
theorem inOrder (h : Step s crew turn crew') (hsound : crew.Sound) : turn.InOrder := by
  cases h with
  | @go i _ call _ step hworker hgoes =>
    obtain ⟨armed, st, hmoved, hphase, horderly, hpermitted⟩ := hgoes.arrives (hsound i _ hworker)
    have hstanding : (crew.goOn i call step).standing i st.armed = st :=
      Crew.standing_goOn_self hmoved hphase horderly.rested
    have hstarter (hmine : st.mine = true) : (crew.goOn i call step).starter = some i := by
      rw [← hstanding] at hmine
      exact (of_decide_eq_true hmine).2
    refine ⟨?_, ?_, ?_, ?_, ?_⟩
    · intro hissued
      obtain ⟨hrole, hmine, hstarting⟩ := hpermitted.connect hissued
      exact ⟨hrole, hphase.symm.trans hstarting, hstarter hmine⟩
    · intro kind hissued hkind
      exact hphase.symm.trans (hpermitted.node kind hissued hkind)
    · intro hissued
      obtain ⟨hopen, ⟨hrole, hclosed⟩ | ⟨hrole, hmine, hstarting⟩⟩ := hpermitted.close hissued
      · exact ⟨hopen, .inl ⟨hrole, hphase.symm.trans hclosed⟩⟩
      · exact ⟨hopen, .inr ⟨hrole, hphase.symm.trans hstarting, hstarter hmine⟩⟩
    · intro hclosed
      exact hmoved.closes (hphase.trans hclosed)
    · intro hclosed
      exact hphase.symm.trans (hmoved.closed hclosed)

end Step

namespace Run

variable {s : Session} {crew crew' : Crew} {log : List Turn}

/-- A run keeps all tasks of a crew to their roles, and its turns are in order. -/
theorem sound (h : Run s crew log crew') (hsound : crew.Sound) :
    crew'.Sound ∧ ∀ t ∈ log, t.InOrder := by
  induction h with
  | nil => exact ⟨hsound, nofun⟩
  | cons hstep _ ih =>
    obtain ⟨hsound', hlog⟩ := ih (hstep.sound hsound)
    refine ⟨hsound', ?_⟩
    rintro t (_ | ⟨_, ht⟩)
    · exact hstep.inOrder hsound
    · exact hlog t ht

/-- After a session is closed nothing happens to it any more, and no call is made. -/
theorem of_closed (h : Run s crew log crew') (hsound : crew.Sound) (hclosed : crew.phase = .closed) :
    crew'.phase = .closed ∧ ∀ t ∈ log, t.after = .closed ∧ t.issued = none := by
  induction h with
  | nil => exact ⟨hclosed, nofun⟩
  | cons hstep _ ih =>
    have hturn := hstep.inOrder hsound
    obtain ⟨hbefore, hafter⟩ := hstep.phase_eq
    rw [hclosed] at hbefore
    obtain ⟨hfinal, hlog⟩ := ih (hstep.sound hsound) (hafter.symm.trans (hturn.closed hbefore))
    refine ⟨hfinal, ?_⟩
    rintro t (_ | ⟨_, ht⟩)
    · exact ⟨hturn.closed hbefore, hturn.issued_eq_none hbefore⟩
    · exact hlog t ht

/-- Whatever comes after the turn that closes the session comes to a closed session. -/
theorem pairwise_closed (h : Run s crew log crew') (hsound : crew.Sound) :
    (log.Pairwise fun t t' => t.after = .closed → t'.after = .closed ∧ t'.issued = none)
      ∧ ∀ t ∈ log, t.after = .closed → crew'.phase = .closed := by
  induction h with
  | nil => exact ⟨.nil, nofun⟩
  | cons hstep hrun ih =>
    obtain ⟨hlog, hfinal⟩ := ih (hstep.sound hsound)
    obtain ⟨-, hafter⟩ := hstep.phase_eq
    refine ⟨hlog.cons ?_, ?_⟩
    · intro t ht hclosed
      exact (hrun.of_closed (hstep.sound hsound) (hafter.symm.trans hclosed)).2 t ht
    · rintro t (_ | ⟨_, ht⟩) hclosed
      · exact (hrun.of_closed (hstep.sound hsound) (hafter.symm.trans hclosed)).1
      · exact hfinal t ht hclosed

/-- What is said of the turns `log` of tasks that work with a session, and of the tasks `crew` after
them. -/
structure KeepsOrder (s : Session) (log : List Turn) (crew : Crew) : Prop where
  turns : ∀ t ∈ log, t.InOrder
  /-- Once the session is closed its phase stays, and no call is made any more. -/
  closed : log.Pairwise fun t t' => t.after = .closed → t'.after = .closed ∧ t'.issued = none
  final : ∀ t ∈ log, t.after = .closed → crew.phase = .closed
  /-- Where the session is closed, a node operation whose call in flight fails transiently ends, and
  its error tells so. -/
  refused : crew.phase = .closed → ∀ worker ∈ crew.workers, worker.call.role = .node →
    ∀ task, worker.task? = some task → ∀ (lasts : Nat → Nat) (now draw : Nat)
      (reply : {β : Type} → Request β → Except Fault β), task.wait.FailsBy reply →
    ∃ kind operation, task.wait.inFlight? = some kind ∧ kind.operation? = some operation
      ∧ (task.answered s.policy lasts now draw crew.phase reply).2.result?
        = some (.error (.invalidState .closed operation.label))

/-- **What a session permits.** However the tasks of a session interleave and whatever its calls are
answered, calls are made only in order, and none after the session was closed. -/
theorem keeps_order {calls : List ((β : Type) × SessionCall β)}
    (h : Run s (.opening calls) log crew) : KeepsOrder s log crew := by
  have hopening := Crew.sound_opening calls
  obtain ⟨hsound, hturns⟩ := h.sound hopening
  obtain ⟨hlog, hfinal⟩ := h.pairwise_closed hopening
  refine ⟨hturns, hlog, hfinal, ?_⟩
  intro hclosed worker hworker hrole task htask lasts now draw reply hfails
  obtain ⟨i, hi⟩ := List.mem_iff_getElem?.mp hworker
  have hheeds := (hsound i worker hi).heeds hrole task htask
  have hdown : crew.phase ≠ .started := by
    rw [hclosed]
    decide
  obtain ⟨kind, operation, hkind, hoperation, hresult⟩ :=
    hheeds.refused hdown hfails s.policy lasts now draw
  refine ⟨kind, operation, hkind, hoperation, ?_⟩
  rw [hresult, hclosed]
  rfl

/-! ### A session that is closed under way -/

/-- A session on the root `r` that repeats a call twice. -/
def sharedSession : Session :=
  ⟨{ CoordinationSettings.standard with rootName := "r" }, .nTimes 2 .zero⟩

/-- Two starts, the first one under a time limit, a look at a node, and a close. -/
def sharedCalls : List ((β : Type) × SessionCall β) :=
  [⟨_, .start (some (.ofMillis 5))⟩, ⟨_, .start none⟩, ⟨_, .pathExists "/r/k"⟩, ⟨_, .close⟩]

/-- Answers of a service that has the root node and nothing else. -/
def smoothReply {β : Type} (request : Request β) : Except Fault β :=
  (({ Coordinator.fresh with connected := true }.seed "/r" 0).perform request).1

/-- The first start is given up while it looks for the root node; the session is closed while the look
at a node is repeated. -/
def sharedLog : List Turn :=
  [⟨0, .start, .uninitialized, .starting, some 0, some .connect⟩,
   ⟨0, .start, .starting, .started, some 0, some .lookUp⟩,
   ⟨0, .start, .started, .starting, some 0, some .close⟩,
   ⟨0, .start, .starting, .uninitialized, some 0, none⟩,
   ⟨1, .start, .uninitialized, .starting, some 1, some .connect⟩,
   ⟨1, .start, .starting, .started, some 1, some .lookUp⟩,
   ⟨2, .node, .started, .started, some 1, some .lookUp⟩,
   ⟨1, .start, .started, .started, some 1, none⟩,
   ⟨2, .node, .started, .started, some 1, none⟩,
   ⟨2, .node, .started, .started, some 1, some .lookUp⟩,
   ⟨3, .close, .started, .closed, some 1, some .close⟩,
   ⟨2, .node, .closed, .closed, some 1, none⟩]

/-- Two tasks start the session one after the other, and a third one closes it under way. -/
theorem keeps_order_closed_under_way :
    ∃ crew, Run sharedSession (.opening sharedCalls) sharedLog crew ∧ crew.phase = .closed
      ∧ KeepsOrder sharedSession sharedLog crew := by
  have h : Run sharedSession (.opening sharedCalls) _ _ :=
    .cons (.go 0 rfl (.begin 0))
      (.cons (.go 0 rfl (.answer rfl id 1 0 smoothReply))
      (.cons (.go 0 rfl (.expire rfl 5))
      (.cons (.go 0 rfl (.answer rfl id 6 0 smoothReply))
      (.cons (.go 1 rfl (.begin 7))
      (.cons (.go 1 rfl (.answer rfl id 8 0 smoothReply))
      (.cons (.go 2 rfl (.begin 8))
      (.cons (.go 1 rfl (.answer rfl id 9 0 smoothReply))
      (.cons (.go 2 rfl (.answer rfl id 9 0 fun _ => .error .connectionLoss))
      (.cons (.go 2 rfl (.wake rfl 9))
      (.cons (.go 3 rfl (.begin 10))
      (.cons (.go 2 rfl (.answer rfl id 11 0 fun _ => .error .connectionLoss))
      (.nil _))))))))))))
  exact ⟨_, h, rfl, keeps_order h⟩

end Run

end Session

end IdMint.Coordination
