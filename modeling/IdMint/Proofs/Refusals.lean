import IdMint.Proofs.SessionStarts

/-! # What refusals tell

A session that refuses an operation names the operation and the state in which it is.
`Program.Delivers` says by recursion over a program's tree, with the phase on the way, what a program
ends with and in which phase, whatever the service answers and whatever the phase becomes meanwhile.
So no operation is refused in the phase that it asks for, and the state is the one that users see then.
That state explains the refusal but in one case: users see a session that is being started as one that
is not initialized, which is what a start asks for. -/

namespace IdMint.Coordination

/-! ## Refusals -/

/-- The phase in which a session permits an operation. -/
def Operation.required : Operation → Phase
  | .start => .uninitialized
  | .close | .readNode | .createNode | .writeNode | .deleteNode | .listChildren => .started

theorem Operation.required_of_ne {operation : Operation} (h : operation ≠ .start) :
    operation.required = .started := by
  cases operation with
  | start => exact absurd rfl h
  | close | readNode | createNode | writeNode | deleteNode | listChildren => rfl

/-- What users see of a phase in which an operation is refused is what they see of the phase that it
asks for, only where the session is being started and the operation is another start. -/
theorem Operation.shown_eq_required_iff {operation : Operation} {phase : Phase}
    (h : phase ≠ operation.required) :
    phase.shown = operation.required.shown ↔ operation = .start ∧ phase = .starting := by
  revert h
  cases operation <;> cases phase <;> decide

/-- If an outcome is a refusal, then it is that of an operation which the phase does not permit; only a
start is refused as such. -/
def Justified (role : Role) (phase : Phase) (outcome : Outcome β) : Prop :=
  ∀ state label, outcome = .error (.invalidState state label) →
    ∃ operation : Operation, (operation = .start → role = .start) ∧ phase ≠ operation.required
      ∧ .invalidState state label = operation.refused phase

namespace Justified

variable {role : Role} {phase : Phase}

theorem ok (value : β) : Justified role phase (.ok value) := nofun

theorem refused {operation : Operation} (hrole : operation = .start → role = .start)
    (hphase : phase ≠ operation.required) :
    Justified role phase (.error (operation.refused phase) : Outcome β) := by
  intro state label heq
  exact ⟨operation, hrole, hphase, (Except.error.inj heq).symm⟩

theorem coordination (fault : Fault) :
    Justified role phase (.error (.coordination fault) : Outcome β) := nofun

/-- A failure is the same whatever a success would have been. -/
theorem error {cause : Error} (h : Justified role phase (.error cause : Outcome β)) :
    Justified role phase (.error cause : Outcome γ) := by
  intro state label heq
  exact h state label (congrArg Except.error (Except.error.inj heq))

theorem map {outcome : Outcome β} (h : Justified role phase outcome) (f : β → γ) :
    Justified role phase (outcome.map f) := by
  cases outcome with
  | ok value => exact .ok (f value)
  | error cause => exact h.error

/-- What no start was refused for is justified for every role. -/
theorem of_node {outcome : Outcome β} (h : Justified .node phase outcome) :
    Justified role phase outcome := by
  intro state label heq
  obtain ⟨operation, hrole, hphase, hrefused⟩ := h state label heq
  exact ⟨operation, (fun hstart => nomatch hrole hstart), hphase, hrefused⟩

/-- While the session is started only a start is refused, so any other outcome is justified whatever the
phase becomes. -/
theorem of_started {outcome : Outcome β} (h : Justified .node .started outcome) (later : Phase) :
    Justified role later outcome := by
  intro state label heq
  obtain ⟨operation, hrole, hphase, -⟩ := h state label heq
  have hother : operation ≠ .start := fun hstart => nomatch hrole hstart
  exact absurd (Operation.required_of_ne hother).symm hphase

/-- Users do not see that the start of a session is let go of. -/
theorem of_starting {outcome : Outcome β} (h : Justified .node .starting outcome) :
    Justified .node .uninitialized outcome := by
  intro state label heq
  obtain ⟨operation, hrole, -, hrefused⟩ := h state label heq
  have hother : operation ≠ .start := fun hstart => nomatch hrole hstart
  refine ⟨operation, hrole, ?_, hrefused⟩
  rw [Operation.required_of_ne hother]
  decide

end Justified

/-- What a call comes to whose gate lets it through only while the session is started. -/
theorem Settles.justified {gate : Option Operation} {phase : Phase} {reply : Except Fault β}
    {outcome : Outcome β} (h : Settles gate phase reply outcome) (hgate : gate ≠ some .start) :
    Justified .node phase outcome := by
  cases h with
  | ok value => exact .ok value
  | failed fault => exact .coordination fault
  | refused hrefuses =>
    cases gate with
    | none => cases hrefuses
    | some operation =>
      have hother : operation ≠ .start := fun hstart => hgate (congrArg some hstart)
      by_cases hphase : phase = .started
      · rw [gateError?, if_pos hphase] at hrefuses
        cases hrefuses
      · rw [gateError?, if_neg hphase] at hrefuses
        cases hrefuses
        refine .refused (fun hstart => absurd hstart hother) ?_
        rwa [Operation.required_of_ne hother]

/-! ## Programs -/

namespace Program

/-- From a phase the program comes to a result that fits the phase then, where every wait ends in one
of the phases `among`. -/
def Delivers (among : Phase → Prop) (post : Phase → α → Prop) : Phase → Program α → Prop
  | phase, finish result => post phase result
  | phase, observe next => (next phase).Delivers among post phase
  | phase, exchange expected new next =>
    if phase = expected then (next true).Delivers among post new
    else (next false).Delivers among post phase
  | _, assign new next => next.Delivers among post new
  | _, call _ next => ∀ reply later, among later → (next reply).Delivers among post later
  -- a gate looks at the phase in which the wait has ended
  | _, persist gate _ next => ∀ reply outcome later, among later → Settles gate later reply outcome →
    (next outcome).Delivers among post later
  | _, pause _ next => ∀ later, among later → next.Delivers among post later
  | phase, arm _ late next =>
    (∀ later, among later → late.Delivers among post later) ∧ next.Delivers among post phase
  | phase, disarm next => next.Delivers among post phase

variable {among : Phase → Prop} {phase : Phase}

theorem Delivers.bind {post : Phase → α → Prop} {post' : Phase → β → Prop} {p : Program α}
    {f : α → Program β} (h : p.Delivers among post phase)
    (hf : ∀ phase result, post phase result → (f result).Delivers among post' phase) :
    (p.bind f).Delivers among post' phase := by
  induction p generalizing phase with
  | finish result => exact hf phase result h
  | observe next ih => exact ih phase h
  | exchange expected new next ih =>
    simp only [Delivers, Program.bind] at h ⊢
    by_cases hphase : phase = expected
    · rw [if_pos hphase] at h ⊢
      exact ih true h
    · rw [if_neg hphase] at h ⊢
      exact ih false h
  | assign new next ih | disarm next ih => exact ih h
  | call request next ih => exact fun reply later hlater => ih reply (h reply later hlater)
  | persist gate request next ih =>
    exact fun reply outcome later hlater hsettles => ih outcome (h reply outcome later hlater hsettles)
  | pause ms next ih => exact fun later hlater => ih (h later hlater)
  | arm limit late next ihl ihn => exact ⟨fun later hlater => ihl (h.1 later hlater), ihn h.2⟩

/-- A program comes to less where less is asked of its end. -/
theorem Delivers.mono {post post' : Phase → α → Prop} {p : Program α}
    (h : p.Delivers among post phase) (hpost : ∀ phase result, post phase result → post' phase result) :
    p.Delivers among post' phase := by
  rw [← p.bind_finish]
  exact h.bind hpost

end Program

namespace Session

open Program

variable {among : Phase → Prop} {phase : Phase}

/-- How work on nodes ends: in a phase in which a wait may end, and refused only if the session is not
started. -/
structure Worked (among : Phase → Prop) (phase : Phase) (outcome : Outcome β) : Prop where
  among : among phase
  justified : Justified .node phase outcome

theorem delivers_onNode (h : among phase) {operation : Operation} (hother : operation ≠ .start)
    (path : String) (request : Request β) :
    (onNode operation path request).run.Delivers among (Worked among) phase := by
  rw [run_onNode]
  show (ite _ _ _ : Program (Outcome β)).Delivers _ _ _
  by_cases hphase : phase = .started
  · rw [if_pos hphase]
    cases Path.check path with
    | error fault => exact ⟨h, .coordination fault⟩
    | ok =>
      intro reply outcome later hlater hsettles
      exact ⟨hlater, hsettles.justified fun heq => hother (Option.some.inj heq)⟩
  · rw [if_neg hphase]
    refine ⟨h, .refused (fun hstart => absurd hstart hother) ?_⟩
    rwa [Operation.required_of_ne hother]

theorem delivers_pathExists (h : among phase) (path : String) :
    (pathExists path).run.Delivers among (Worked among) phase := by
  rw [run_pathExists]
  refine (delivers_onNode h (by decide) path _).bind ?_
  intro later outcome houtcome
  exact ⟨houtcome.among, houtcome.justified.map Option.isSome⟩

theorem delivers_ensurePath (h : among phase) (path : String) :
    (ensurePath path).run.Delivers among (Worked among) phase := by
  rw [run_ensurePath]
  refine (delivers_pathExists h path).bind ?_
  rintro later (cause | _ | _) ⟨hlater, houtcome⟩
  · exact ⟨hlater, houtcome.error⟩
  · refine (delivers_onNode hlater (by decide) path _).bind ?_
    intro last outcome ⟨hlast, houtcome'⟩
    refine ⟨hlast, ?_⟩
    unfold forgiven
    split
    · exact .ok ()
    · exact houtcome'
  · exact ⟨hlater, .ok ()⟩

theorem delivers_childPaths (h : among phase) (path : String) :
    (childPaths path).run.Delivers among (Worked among) phase := by
  rw [run_childPaths]
  refine (delivers_onNode h (by decide) path _).bind ?_
  intro later outcome houtcome
  exact ⟨houtcome.among, houtcome.justified.map _⟩

/-- A start that is given up ends with the cause, and the way back does not make it untrue. -/
theorem delivers_abandon {cause : Error}
    (h : Justified .node phase (.error cause : Outcome Unit)) :
    (abandon cause).Delivers among (Justified .node) phase := by
  -- to let go of the start is the only change of the phase behind the failure
  have hletGo (later : Phase) (hlater : Justified .node later (.error cause : Outcome Unit)) :
      (letGo cause).Delivers among (Justified .node) later := by
    show ite _ _ _
    by_cases hphase : later = .starting
    · rw [if_pos hphase]
      subst hphase
      exact hlater.of_starting
    · rw [if_neg hphase]
      exact hlater
  rw [abandon_eq]
  show ite _ _ _
  by_cases hphase : phase = .started
  · rw [if_pos hphase]
    subst hphase
    -- in a started session the cause is no refusal, so the wait for the close may end in any phase
    exact fun _ later _ => hletGo later (h.of_started later)
  · rw [if_neg hphase]
    exact hletGo phase h

/-- A start that has connected works on nodes. -/
theorem delivers_establish (s : Session) (h : among .started) :
    (establish s).run.Delivers among (Worked among) phase := by
  rw [run_establish]
  rintro reply (cause | value) later hlater hsettles
  · exact ⟨hlater, (hsettles.justified nofun).error⟩
  · exact delivers_ensurePath h s.rootPath

/-- A start that nobody else lets go of is refused at its end only if the session is not started. -/
theorem delivers_conclude {result : Outcome Unit} (h : Worked among phase result)
    (hinit : phase ≠ .uninitialized) :
    (conclude result).Delivers among (Justified .start) phase := by
  cases result with
  | error cause => exact (delivers_abandon h.justified).mono fun _ _ hresult => hresult.of_node
  | ok =>
    rw [conclude_ok]
    show Justified .start phase (ite _ _ _)
    by_cases hphase : phase = .started
    · rw [if_pos hphase]
      exact .ok ()
    · rw [if_neg hphase]
      exact .refused (fun _ => rfl) hinit

theorem delivers_start (hinit : ∀ later, among later → later ≠ .uninitialized)
    (hstarted : among .started) (s : Session) (limit : Option Duration) (phase : Phase) :
    (start s limit).run.Delivers among (Justified .start) phase := by
  rw [run_start]
  show ite _ _ _
  by_cases hphase : phase = .uninitialized
  · rw [if_pos hphase]
    have hconclude (later : Phase) (result : Outcome Unit) (h : Worked among later result) :
        (conclude result).Delivers among (Justified .start) later :=
      delivers_conclude h (hinit later h.among)
    cases limit with
    | none => exact (delivers_establish s hstarted).bind hconclude
    | some limit =>
      refine ⟨?_, (delivers_establish s hstarted).bind hconclude⟩
      intro later _
      have hlate : Justified .node later (.error (.connectionTimeout limit) : Outcome Unit) := nofun
      exact (delivers_abandon hlate).mono fun _ _ hresult => hresult.of_node
  · rw [if_neg hphase]
    exact .refused (fun _ => rfl) hphase

theorem delivers_close (phase : Phase) :
    Session.close.run.Delivers among (Justified .node) phase := by
  rw [run_close]
  show ite _ _ _
  by_cases hphase : phase = .started
  · rw [if_pos hphase]
    rintro (fault | value) later _
    · exact .coordination fault
    · exact .ok ()
  · rw [if_neg hphase]
    exact .refused (fun hstart => nomatch hstart) hphase

end Session

/-- The phases in which a wait of a call may end: nobody lets go of the start that a task holds. -/
def SessionCall.Among (call : SessionCall β) (phase : Phase) : Prop :=
  call.role = .start → phase ≠ .uninitialized

open Session in
/-- However a call comes to its end, if it is refused then it asks for another phase. -/
theorem SessionCall.delivers_program (call : SessionCall β) (s : Session) (phase : Phase) :
    (call.program s).Delivers call.Among (Justified call.role) phase := by
  have hnode {p : Program (Outcome β)} (hrole : call.role = .node)
      (h : p.Delivers call.Among (Worked call.Among) phase) :
      p.Delivers call.Among (Justified call.role) phase := by
    exact h.mono fun _ _ hworked => hworked.justified.of_node
  cases call with
  | start limit => exact delivers_start (fun _ h => h rfl) (fun _ => by decide) s limit phase
  | close => exact (delivers_close phase).mono fun _ _ h => h.of_node
  | nodeStat path => exact hnode rfl (delivers_onNode nofun (by decide) path _)
  | pathExists path => exact hnode rfl (delivers_pathExists nofun path)
  | createPath path data mode => exact hnode rfl (delivers_onNode nofun (by decide) path _)
  | ensurePath path => exact hnode rfl (delivers_ensurePath nofun path)
  | setData path data version => exact hnode rfl (delivers_onNode nofun (by decide) path _)
  | deletePath path => exact hnode rfl (delivers_onNode nofun (by decide) path _)
  | childNames path => exact hnode rfl (delivers_onNode nofun (by decide) path _)
  | childPaths path => exact hnode rfl (delivers_childPaths nofun path)

/-! ## Tasks -/

section

variable {among : Phase → Prop} {post : Phase → α → Prop} {phase : Phase}

/-- What is left of a task that waits comes to a result that fits the phase then. -/
def Wait.Delivers (among : Phase → Prop) (post : Phase → α → Prop) : Wait α → Prop
  | ended _ => True
  | calling _ next => ∀ reply later, among later → (next reply).Delivers among post later
  | trying gate _ _ _ next | resting gate _ _ _ _ next => ∀ reply outcome later, among later →
    Settles gate later reply outcome → (next outcome).Delivers among post later
  | pausing _ next => ∀ later, among later → next.Delivers among post later

/-- A task comes to a result that fits the phase then, also when its time limit strikes. -/
structure Task.Delivers (among : Phase → Prop) (post : Phase → α → Prop) (task : Task α) : Prop where
  wait : task.wait.Delivers among post
  late : ∀ alarm, task.alarm = some alarm → ∀ later, among later →
    alarm.late.Delivers among post later

/-- A task has come to its next waiting point, and if that is its end, to a result that fits. -/
structure Lands (among : Phase → Prop) (post : Phase → α → Prop) (step : Phase × Task α) : Prop where
  delivers : step.2.Delivers among post
  result : ∀ result, step.2.result? = some result → post step.1 result

theorem Program.Delivers.advance {p : Program α} (h : p.Delivers among post phase) (now : Nat)
    {alarm : Option (Alarm α)}
    (hlate : ∀ a, alarm = some a → ∀ later, among later → a.late.Delivers among post later) :
    Lands among post (p.advance now phase alarm) := by
  -- over the tree, with the phase and the time limit as they are at each node on the way
  induction p generalizing phase alarm with
  | finish result =>
    refine ⟨⟨trivial, ?_⟩, ?_⟩
    · rintro _ ⟨⟩
    · rintro _ ⟨⟩
      exact h
  | observe next ih => exact ih phase h hlate
  | exchange expected new next ih =>
    simp only [Delivers] at h
    rw [Program.advance]
    by_cases hphase : phase = expected
    · rw [if_pos hphase] at h ⊢
      exact ih true h hlate
    · rw [if_neg hphase] at h ⊢
      exact ih false h hlate
  | assign new next ih => exact ih h hlate
  | call | persist | pause =>
    refine ⟨⟨h, hlate⟩, ?_⟩
    rintro _ ⟨⟩
  | arm limit late next ihl ihn =>
    refine ihn h.2 ?_
    rintro _ ⟨⟩
    exact h.1
  | disarm next ih =>
    refine ih h ?_
    rintro _ ⟨⟩

namespace Task.Delivers

variable {task : Task α}

theorem answered (h : task.Delivers among post) (hphase : among phase)
    (hcalling : task.isCalling = true) (policy : RetryPolicy) (lasts : Nat → Nat) (now draw : Nat)
    (reply : {β : Type} → Request β → Except Fault β) :
    Lands among post (task.answered policy lasts now draw phase reply) := by
  obtain ⟨wait, alarm⟩ := task
  obtain ⟨hwait, hlate⟩ := h
  cases wait with
  | ended | resting | pausing => cases hcalling
  | calling request next => exact (hwait (reply request) phase hphase).advance now hlate
  | trying gate request retries since next =>
    obtain ⟨outcome, hsettles, hstep⟩ | ⟨fault, wake, -, hstep⟩ :=
      Task.answered_trying policy lasts now draw reply
    · rw [hstep]
      exact (hwait _ outcome phase hphase hsettles).advance now hlate
    · rw [hstep]
      exact ⟨⟨hwait, hlate⟩, nofun⟩

theorem woken (h : task.Delivers among post) (hphase : among phase) (hwake : task.wake?.isSome)
    (now : Nat) : Lands among post (task.woken now phase) := by
  obtain ⟨wait, alarm⟩ := task
  obtain ⟨hwait, hlate⟩ := h
  cases wait with
  | ended | calling | trying => cases hwake
  | pausing wake next => exact (hwait phase hphase).advance now hlate
  | resting gate request retries since wake next =>
    obtain ⟨cause, hgate, hstep⟩ | ⟨-, hstep⟩ := Task.woken_resting now
    · -- the gate refuses another attempt whatever the last one failed with
      rw [hstep]
      exact (hwait (.error .connectionLoss) _ phase hphase (.refused hgate)).advance now hlate
    · rw [hstep]
      exact ⟨⟨hwait, hlate⟩, nofun⟩

theorem expired (h : task.Delivers among post) (hphase : among phase) (halarm : task.alarm.isSome)
    (now : Nat) : Lands among post (task.expired now phase) := by
  obtain ⟨wait, alarm⟩ := task
  cases alarm with
  | none => cases halarm
  | some alarm => exact (h.late alarm rfl phase hphase).advance now nofun

end Task.Delivers

end

namespace Session

/-! ## Crews -/

/-- A task goes on to be refused only what the phase does not permit. -/
theorem Goes.lands {s : Session} {phase : Phase} {call : SessionCall β}
    {task? : Option (Task (Outcome β))} {step : Phase × Task (Outcome β)}
    (h : Goes s phase call task? step)
    (hbegun : ∀ task, task? = some task →
      task.Delivers call.Among (Justified call.role) ∧ call.Among phase) :
    Lands call.Among (Justified call.role) step := by
  cases h with
  | begin now => exact (call.delivers_program s phase).advance now nofun
  | answer hcalling lasts now draw reply =>
    obtain ⟨hdelivers, hphase⟩ := hbegun _ rfl
    exact hdelivers.answered hphase hcalling s.policy lasts now draw reply
  | wake hwake now =>
    obtain ⟨hdelivers, hphase⟩ := hbegun _ rfl
    exact hdelivers.woken hphase hwake now
  | expire halarm now =>
    obtain ⟨hdelivers, hphase⟩ := hbegun _ rfl
    exact hdelivers.expired hphase halarm now

/-- A start that has ended has not left the session on the way to be started. -/
theorem Concluded.ne_starting {phase : Phase} {there : Prop} {result : Outcome Unit}
    (h : Concluded phase there result) : phase ≠ .starting := by
  cases result with
  | ok =>
    rw [(h.ok rfl).1]
    decide
  | error cause => rcases h.error cause rfl with rfl | rfl <;> decide

namespace Step

variable {s : Session} {crew crew' : Crew} {turn : Turn} {path : String} {i : Nat}

/-- A step leaves all tasks as they are but the one that goes on. -/
theorem workers_of_ne (h : Step s crew turn crew') (hturn : turn.worker ≠ i) :
    crew'.workers[i]? = crew.workers[i]? := by
  cases h with
  | go j hworker hgoes => exact List.getElem?_set_ne hturn

/-- Only a start brings the session on the way to be started. -/
theorem starts (h : Step s crew turn crew') (hsound : crew.Sound) (hphase : crew'.phase = .starting) :
    crew.phase = .starting ∨ turn.role = .start := by
  cases h with
  | go j hworker hgoes =>
    obtain ⟨armed, st, hmoved, hst, -, -⟩ := hgoes.arrives (hsound j _ hworker)
    exact hmoved.starts (hst.trans hphase)

/-- A start that leaves the session on the way to be started is on its way. -/
theorem starts_of_tracks (h : Step s crew turn crew') (hsound : crew.Sound)
    (htracks : crew.Tracks path i) (hturn : turn.worker = i) (hphase : crew'.phase = .starting) :
    ∃ there, crew'.Starts path i there := by
  rcases h.tracks hsound htracks with hstarts | ⟨limit, result, hended⟩
  · exact hstarts
  · obtain ⟨there, hconcluded⟩ := h.concluded htracks hturn hended rfl
    exact absurd hphase hconcluded.ne_starting

/-- A start that has begun is on its way or has ended, also if it has begun just now. -/
theorem tracks_of_begin (h : Step s crew turn crew') (hturn : turn.worker = i)
    {limit : Option Duration} (hcall : crew.workers[i]? = some ⟨.start limit, none⟩) :
    crew'.Tracks s.rootPath i
      ∧ (crew'.phase = .starting → crew.phase = .starting ∨ ∃ there, crew'.Starts s.rootPath i there) := by
  obtain ⟨step, rfl, rfl, hgoes⟩ := h.begins hturn hcall
  by_cases hphase : crew.phase = .uninitialized
  · rw [hphase] at hgoes
    have hreaches := hgoes.reaches_begin
    have hnext : (crew.goOn i (.start limit) step).Starts s.rootPath i False
        ∨ (crew.goOn i (.start limit) step).HasStarted i :=
      Crew.starts_of_reaches (.inl hphase) hcall hreaches
    rcases hnext with hstarts | ⟨limit', result, htask⟩
    · exact ⟨.inl ⟨_, hstarts⟩, fun _ => .inr ⟨_, hstarts⟩⟩
    · have hconcluded := Crew.concluded_of_reaches hcall hreaches htask rfl
      exact ⟨.inr ⟨limit', result, htask⟩, fun hstarting => absurd hstarting hconcluded.ne_starting⟩
  · obtain rfl := hgoes.eq_refused hphase
    exact ⟨.inr ⟨limit, _, Crew.workers_goOn_self hcall _ _⟩, .inl⟩

end Step

/-- What is known of the tasks of a session whatever has happened: they are refused only what the phase
does not permit, their starts are on their way or have ended, and while the session is being started
one of them is on its way. -/
structure Crew.Attended (s : Session) (crew : Crew) : Prop where
  delivers : ∀ (i : Nat) (worker : Worker), crew.workers[i]? = some worker →
    ∀ task, worker.task? = some task → task.Delivers worker.call.Among (Justified worker.call.role)
  tracks : ∀ (i : Nat) (limit : Option Duration) (task : Task (Outcome Unit)),
    crew.workers[i]? = some ⟨.start limit, some task⟩ → crew.Tracks s.rootPath i
  starts : crew.phase = .starting → ∃ i there, crew.Starts s.rootPath i there

namespace Crew.Attended

variable {s : Session} {crew crew' : Crew} {turn : Turn}

/-- Before anything has happened no task has begun. -/
theorem opening (s : Session) (calls : List ((β : Type) × SessionCall β)) :
    (opening calls).Attended s := by
  have hidle (i : Nat) (worker : Worker) (hworker : (Crew.opening calls).workers[i]? = some worker) :
      worker.task? = none := by
    have hmem : worker ∈ (Crew.opening calls).workers := List.mem_of_getElem? hworker
    obtain ⟨⟨β, call⟩, -, rfl⟩ := List.mem_map.mp hmem
    rfl
  refine ⟨?_, ?_, nofun⟩
  · intro i worker hworker task htask
    rw [hidle i worker hworker] at htask
    cases htask
  · intro i limit task hworker
    exact nomatch hidle i _ hworker

/-- A task that has begun and goes on does so in a phase in which its waits may end. -/
theorem among (h : crew.Attended s) {i : Nat} {call : SessionCall β} {task : Task (Outcome β)}
    {step : Phase × Task (Outcome β)} (hworker : crew.workers[i]? = some ⟨call, some task⟩)
    (hgoes : Goes s crew.phase call (some task) step) : call.Among crew.phase := by
  intro hrole
  cases call with
  | start limit =>
    rcases h.tracks i limit task hworker with ⟨there, hstarts⟩ | ⟨limit', result, hended⟩
    · exact hstarts.ne_uninitialized
    · rw [hworker] at hended
      cases hended
      exact absurd hgoes Goes.not_ended
  | _ => cases hrole

/-- Where a task comes that goes on. -/
theorem lands (h : crew.Attended s) {i : Nat} {call : SessionCall β}
    {task? : Option (Task (Outcome β))} {step : Phase × Task (Outcome β)}
    (hworker : crew.workers[i]? = some ⟨call, task?⟩) (hgoes : Goes s crew.phase call task? step) :
    Lands call.Among (Justified call.role) step := by
  refine hgoes.lands ?_
  rintro task rfl
  exact ⟨h.delivers i _ hworker task rfl, h.among hworker hgoes⟩

/-- Where the task has come that went on in a step. -/
theorem lands_step (h : crew.Attended s) (hstep : Step s crew turn crew') {i : Nat}
    (hturn : turn.worker = i) {worker : Worker} (hworker : crew'.workers[i]? = some worker)
    {task : Task (Outcome worker.β)} (htask : worker.task? = some task) :
    Lands worker.call.Among (Justified worker.call.role) (crew'.phase, task) := by
  cases hstep with
  | go j hbefore hgoes =>
    obtain rfl : j = i := hturn
    rw [workers_goOn_self hbefore] at hworker
    cases hworker
    cases htask
    exact h.lands hbefore hgoes

/-- All starts that have begun are on their way or have ended, the one that goes on included. -/
theorem tracks_step (h : crew.Attended s) (hsound : crew.Sound) (hstep : Step s crew turn crew')
    {i : Nat} {limit : Option Duration} {task : Task (Outcome Unit)}
    (hworker : crew'.workers[i]? = some ⟨.start limit, some task⟩) : crew'.Tracks s.rootPath i := by
  by_cases hturn : turn.worker = i
  · cases hstep with
    | @go j _ call task? step hbefore hgoes =>
      obtain rfl : j = i := hturn
      rw [workers_goOn_self hbefore] at hworker
      cases hworker
      have hstep := Step.go j hbefore hgoes
      cases task? with
      | none => exact (hstep.tracks_of_begin rfl hbefore).1
      | some task => exact hstep.tracks hsound (h.tracks j limit task hbefore)
  · rw [hstep.workers_of_ne hturn] at hworker
    exact hstep.tracks hsound (h.tracks i limit task hworker)

/-- While the session is being started there is a start on its way, whoever goes on. -/
theorem starts_step (h : crew.Attended s) (hsound : crew.Sound) (hstep : Step s crew turn crew')
    (hphase : crew'.phase = .starting) : ∃ i there, crew'.Starts s.rootPath i there := by
  by_cases hbefore : crew.phase = .starting
  · -- it was on its way before: it has gone on itself, or another task has
    obtain ⟨i, there, hstarts⟩ := h.starts hbefore
    by_cases hturn : turn.worker = i
    · exact ⟨i, hstep.starts_of_tracks hsound (.inl ⟨there, hstarts⟩) hturn hphase⟩
    · exact ⟨i, there, hstep.other hsound hturn hstarts⟩
  · have hrole := (hstep.starts hsound hphase).resolve_left hbefore
    cases hstep with
    | @go j _ call task? step hworker hgoes =>
      have hstep := Step.go j hworker hgoes
      cases call with
      | start limit =>
        cases task? with
        | none =>
          exact ⟨j, ((hstep.tracks_of_begin rfl hworker).2 hphase).resolve_left hbefore⟩
        | some task =>
          exact ⟨j, hstep.starts_of_tracks hsound (h.tracks j limit task hworker) rfl hphase⟩
      | _ => cases hrole

/-- A start that ends by a step and leaves the session on the way to be started has begun with the
step. -/
theorem eq_none_of_starting (h : crew.Attended s) (hstep : Step s crew turn crew') {i : Nat}
    (hturn : turn.worker = i) {limit : Option Duration} {task : Task (Outcome Unit)}
    (hworker : crew'.workers[i]? = some ⟨.start limit, some task⟩) {result : Outcome Unit}
    (hresult : task.result? = some result) (hphase : crew'.phase = .starting) :
    crew.workers[i]? = some ⟨.start limit, none⟩ := by
  cases hstep with
  | @go j _ call task? step hbefore hgoes =>
    obtain rfl : j = i := hturn
    have hself := hworker
    rw [workers_goOn_self hbefore] at hself
    cases hself
    cases task? with
    | none => exact hbefore
    | some task =>
      -- a start that has begun before ends as it is concluded, and not in the middle of another one
      have hstep := Step.go j hbefore hgoes
      obtain ⟨there, hconcluded⟩ := hstep.concluded (h.tracks j limit task hbefore) rfl hworker hresult
      exact absurd hphase hconcluded.ne_starting

theorem step (h : crew.Attended s) (hsound : crew.Sound) (hstep : Step s crew turn crew') :
    crew'.Attended s where
  tracks _ _ _ hworker := h.tracks_step hsound hstep hworker
  starts hphase := h.starts_step hsound hstep hphase
  delivers i worker hworker task htask := by
    by_cases hturn : turn.worker = i
    · exact (h.lands_step hstep hturn hworker htask).delivers
    · rw [hstep.workers_of_ne hturn] at hworker
      exact h.delivers i worker hworker task htask

end Crew.Attended

theorem Run.attended {s : Session} {crew crew' : Crew} {log : List Turn} (h : Run s crew log crew')
    (hsound : crew.Sound) (hcrew : crew.Attended s) : crew'.Attended s := by
  induction h with
  | nil => exact hcrew
  | cons hstep _ ih => exact ih (hstep.sound hsound) (hcrew.step hsound hstep)

/-! ## Refusals in a run -/

/-- What is said of a turn, from the tasks `crew` to the tasks `crew'`, in which a task ends with the
refusal of an operation in a state. -/
structure Accounted (crew : Crew) (turn : Turn) (crew' : Crew) (state : SessionState)
    (operation : Operation) : Prop where
  /-- The state is the one that the session shows, and its phase does not permit the operation. -/
  state_eq : state = crew'.phase.shown
  phase : crew'.phase ≠ operation.required
  /-- The state explains the refusal, unless a start was refused while the session is being started. -/
  explains : state ≠ operation.required.shown ↔ ¬ (operation = .start ∧ crew'.phase = .starting)
  /-- Such a start is refused as soon as it begins, in the state that it asks for, and the start of
  another task is on its way. -/
  beside : operation = .start → crew'.phase = .starting → state = .uninitialized
    ∧ (∃ limit, crew.workers[turn.worker]? = some ⟨.start limit, none⟩)
    ∧ ∃ j limit task, j ≠ turn.worker ∧ crew'.starter = some j
      ∧ crew'.workers[j]? = some ⟨.start limit, some task⟩ ∧ task.result? = none

namespace Run

variable {s : Session} {crew crew' : Crew} {past : List Turn} {turn : Turn}

/-- **What a refusal tells.** However the tasks of a session interleave and whatever its calls are
answered: a task that ends with a refusal tells the state in which the session is then, and the phase
of the session is not the one that the operation asks for. The state explains that, but for a start
that is refused beside another one that is on its way. -/
theorem accounts_for_refusals {calls : List ((β : Type) × SessionCall β)}
    (h : Run s (.opening calls) past crew) (hstep : Step s crew turn crew') {worker : Worker}
    {task : Task (Outcome worker.β)} {state : SessionState} {label : String}
    (hworker : crew'.workers[turn.worker]? = some worker) (htask : worker.task? = some task)
    (hresult : task.result? = some (.error (.invalidState state label))) :
    ∃ operation : Operation, operation.label = label ∧ Accounted crew turn crew' state operation := by
  have hopening := Crew.sound_opening calls
  have hsound := (h.sound hopening).1
  have hcrew := h.attended hopening (.opening s calls)
  have hcrew' := hcrew.step hsound hstep
  have hjustified := (hcrew.lands_step hstep rfl hworker htask).result _ hresult
  obtain ⟨operation, hrole, hphase, hrefused⟩ := hjustified state label rfl
  cases hrefused
  refine ⟨operation, rfl, rfl, hphase, not_congr (operation.shown_eq_required_iff hphase), ?_⟩
  intro hstart hstarting
  obtain ⟨call, _ | own⟩ := worker
  · cases htask
  obtain rfl := Option.some.inj htask
  cases call with
  | start limit =>
    obtain ⟨j, there, ⟨limit', other, hother, hattempts⟩, hstarter⟩ := hcrew'.starts hstarting
    have hwaits := hattempts.result?_eq_none
    refine ⟨congrArg Phase.shown hstarting,
      ⟨limit, hcrew.eq_none_of_starting hstep rfl hworker hresult hstarting⟩,
      j, limit', other, ?_, hstarter, hother, hwaits⟩
    -- the start that is refused has ended, and the other one has not
    rintro rfl
    rw [hworker] at hother
    cases hother
    exact nomatch hwaits.symm.trans hresult
  | _ => exact nomatch hrole hstart

/-- The first start of `sharedCalls` is on its way when the second one begins. -/
theorem accounts_for_refusals_beside :
    ∃ past crew turn crew', Run sharedSession (.opening sharedCalls) past crew
      ∧ Step sharedSession crew turn crew'
      ∧ Accounted crew turn crew' .uninitialized .start ∧ crew'.phase = .starting := by
  have hpast : Run sharedSession (.opening sharedCalls) _ _ :=
    .cons (.go 0 rfl (.begin 0)) (.nil _)
  obtain ⟨operation, hlabel, haccounted⟩ :=
    accounts_for_refusals hpast (.go 1 rfl (.begin 1)) rfl rfl rfl
  obtain rfl : operation = .start := by
    revert hlabel
    cases operation <;> decide
  exact ⟨_, _, _, _, hpast, .go 1 rfl (.begin 1), haccounted, rfl⟩

/-- Not every refusal is explained by the state that it tells: a session that is not initialized
refuses to start. -/
theorem not_explains_all :
    ¬ ∀ (s : Session) (calls : List ((β : Type) × SessionCall β)) (log : List Turn) (crew : Crew),
      Run s (.opening calls) log crew → ∀ worker ∈ crew.workers, ∀ task, worker.task? = some task →
        ∀ state (operation : Operation),
          task.result? = some (.error (.invalidState state operation.label)) →
            state ≠ operation.required.shown := by
  intro h
  have hrun : Run sharedSession (.opening sharedCalls) _ _ :=
    .cons (.go 0 rfl (.begin 0)) (.cons (.go 1 rfl (.begin 1)) (.nil _))
  exact h _ _ _ _ hrun _ (List.mem_of_getElem? (i := 1) rfl) _ rfl .uninitialized .start rfl rfl

end Run

end Session

end IdMint.Coordination
