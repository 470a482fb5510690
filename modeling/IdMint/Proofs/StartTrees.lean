import IdMint.Proofs.ActionTrees
import IdMint.Proofs.NodePresence
import IdMint.Proofs.TaskSteps

/-! # What a start comes to

A task that holds the start of a session finds at the end of a wait the phase that it left there, or
`closed` where it left `started`. `Program.Attempts` says by recursion over a program's tree, with the
phase and with whether a node is known to be there, that whatever the service answers the program ends
with a result that fits both. A task keeps it from one waiting point to the next. -/

namespace IdMint.Coordination

/-! ## Phases and answers -/

/-- The phases in which a wait may end that began in a phase, for the task that holds the start: nobody
else does anything to the phase but to close the session. -/
def Phase.Becomes (phase later : Phase) : Prop :=
  later = phase ∨ phase = .started ∧ later = .closed

namespace Phase.Becomes

variable {phase later last : Phase}

theorem refl (phase : Phase) : phase.Becomes phase := .inl rfl

theorem trans (h : phase.Becomes later) (h' : later.Becomes last) : phase.Becomes last := by
  rcases h with rfl | ⟨hstarted, rfl⟩
  · exact h'
  · rcases h' with rfl | ⟨hclosed, -⟩
    · exact .inr ⟨hstarted, rfl⟩
    · cases hclosed

theorem ne_uninitialized (h : phase.Becomes later) (hphase : phase ≠ .uninitialized) :
    later ≠ .uninitialized := by
  rcases h with rfl | ⟨-, rfl⟩
  · exact hphase
  · decide

/-- A session that is on the way to be started is closed by nobody. -/
theorem eq_starting (h : Becomes .starting later) : later = .starting := by
  rcases h with rfl | ⟨hstarted, -⟩
  · rfl
  · cases hstarted

end Phase.Becomes

/-- The session was started, and may have been closed since. -/
def Phase.Established (phase : Phase) : Prop := phase = .started ∨ phase = .closed

theorem Phase.Established.becomes {phase later : Phase} (h : phase.Established)
    (hlater : phase.Becomes later) : later.Established := by
  rcases hlater with rfl | ⟨-, rfl⟩
  · exact h
  · exact .inr rfl

theorem Phase.Established.ne_uninitialized {phase : Phase} (h : phase.Established) :
    phase ≠ .uninitialized := by
  rcases h with rfl | rfl <;> decide

/-- What a call comes to tells that there is a node at the path. -/
def Request.Shows (path : String) (request : Request β) : Outcome β → Prop
  | .ok value => request.Tells path (.ok value)
  | .error (.coordination fault) => request.Tells path (.error fault)
  | .error _ => False

/-- Only a failure of the service tells of a node. -/
theorem Request.not_shows_error {request : Request β} {path : String} {cause : Error}
    (h : ∀ other, cause ≠ .coordination (.nodeExists other)) :
    ¬ request.Shows path (.error cause) := by
  cases cause with
  | coordination fault =>
    apply not_tells_error
    rintro other rfl
    exact h other rfl
  | _ => exact id

/-- A gate does not tell of nodes. -/
theorem ne_nodeExists_of_gateError {gate : Option Operation} {phase : Phase} {cause : Error}
    {other : String} (h : gateError? gate phase = some cause) :
    cause ≠ .coordination (.nodeExists other) := by
  unfold gateError? at h
  split at h
  · cases h
  · split at h <;> cases h
    exact nofun

/-- What a call comes to tells no more of a node than its last answer. -/
theorem Settles.tells_of_shows {gate : Option Operation} {phase : Phase} {request : Request β}
    {reply : Except Fault β} {outcome : Outcome β} {path : String}
    (h : Settles gate phase reply outcome) (hshows : request.Shows path outcome) :
    request.Tells path reply := by
  cases h with
  | ok value => exact hshows
  | failed fault => exact hshows
  | refused hgate =>
    exact absurd hshows (Request.not_shows_error fun _ => ne_nodeExists_of_gateError hgate)

/-- A path that is refused is reported as invalid. -/
theorem Path.check_ne_nodeExists {path other : String} :
    Path.check path ≠ .error (.nodeExists other) := by
  unfold Path.check
  split <;> simp

/-! ## Programs -/

/-- What a program of a task that holds the start comes to, from a phase, and where `there` says
whether a node is known to be at the path. -/
def Program.Attempts (path : String) (post : Phase → Prop → α → Prop) :
    Phase → Prop → Program α → Prop
  | phase, there, finish result => post phase there result
  | phase, there, observe next => (next phase).Attempts path post phase there
  | phase, there, exchange expected new next =>
    if phase = expected then (next true).Attempts path post new there
    else (next false).Attempts path post phase there
  | _, there, assign new next => next.Attempts path post new there
  -- the call that is made but once ends the session with the service, and nodes with it
  | phase, _, call _ next => phase ≠ .uninitialized ∧
    ∀ reply later, phase.Becomes later → (next reply).Attempts path post later False
  | phase, there, persist _ request next => phase ≠ .uninitialized ∧
    ∀ outcome later, phase.Becomes later →
      (next outcome).Attempts path post later (there ∨ request.Shows path outcome)
  | _, _, pause .. => False
  | phase, there, arm _ late next =>
    (∀ later, later ≠ .uninitialized → late.Attempts path post later False)
      ∧ next.Attempts path post phase there
  | phase, there, disarm next => next.Attempts path post phase there

/-- A program that goes on with another one comes to what the other one comes to after it. -/
theorem Program.Attempts.bind {path : String} {post : Phase → Prop → α → Prop}
    {post' : Phase → Prop → β → Prop} {p : Program α} {f : α → Program β} {phase : Phase}
    {there : Prop} (h : p.Attempts path post phase there)
    (hf : ∀ phase there result, post phase there result →
      (f result).Attempts path post' phase there) :
    (p.bind f).Attempts path post' phase there := by
  induction p generalizing phase there with
  | finish result => exact hf phase there result h
  | observe next ih => exact ih phase h
  | exchange expected new next ih =>
    simp only [Attempts, Program.bind] at h ⊢
    by_cases hphase : phase = expected
    · rw [if_pos hphase] at h ⊢
      exact ih true h
    · rw [if_neg hphase] at h ⊢
      exact ih false h
  | assign new next ih => exact ih h
  | call request next ih =>
    exact ⟨h.1, fun reply later hlater => ih reply (h.2 reply later hlater)⟩
  | persist gate request next ih =>
    exact ⟨h.1, fun outcome later hlater => ih outcome (h.2 outcome later hlater)⟩
  | pause => exact h.elim
  | arm limit late next ihl ihn => exact ⟨fun later hlater => ihl (h.1 later hlater), ihn h.2⟩
  | disarm next ih => exact ih h

/-- A program comes to less where less is asked of its end. -/
theorem Program.Attempts.mono {path : String} {post post' : Phase → Prop → α → Prop} {p : Program α}
    {phase : Phase} {there : Prop} (h : p.Attempts path post phase there)
    (hpost : ∀ phase there result, post phase there result → post' phase there result) :
    p.Attempts path post' phase there := by
  rw [← p.bind_finish]
  exact h.bind hpost

namespace Session

/-- A node operation of a start leaves the session established, and its answer may show a node. -/
theorem attempts_onNode {path : String} {phase : Phase} (h : phase.Established) (there : Prop)
    (operation : Operation) (node : String) (request : Request β) :
    (onNode operation node request).run.Attempts path
      (fun later there' outcome => later.Established ∧ (request.Shows path outcome → there'))
      phase there := by
  rw [run_onNode]
  show (if phase = .started then _ else _ : Program (Outcome β)).Attempts path _ phase there
  by_cases hphase : phase = .started
  · rw [if_pos hphase]
    cases hcheck : Path.check node with
    | ok =>
      refine ⟨h.ne_uninitialized, ?_⟩
      intro outcome later hlater
      exact ⟨h.becomes hlater, .inr⟩
    | error fault =>
      refine ⟨h, fun hshows => absurd hshows (Request.not_shows_error ?_)⟩
      rintro other ⟨⟩
      exact Path.check_ne_nodeExists hcheck
  · rw [if_neg hphase]
    exact ⟨h, fun hshows => hshows.elim⟩

/-- Making sure that there is a node leaves the session established, and the node is known to be there
after a success. -/
theorem attempts_ensurePath {phase : Phase} (h : phase.Established) (there : Prop)
    (path : String) :
    (ensurePath path).run.Attempts path
      (fun later there' outcome => later.Established ∧ (outcome = .ok () → there'))
      phase there := by
  rw [run_ensurePath]
  have hexists : (pathExists path).run.Attempts path
      (fun later there' outcome => later.Established ∧ (outcome = .ok true → there'))
      phase there := by
    rw [run_pathExists]
    refine (attempts_onNode h there .readNode path (.lookUp path)).bind ?_
    rintro later there' outcome ⟨hlater, hshows⟩
    refine ⟨hlater, ?_⟩
    rcases outcome with cause | _ | stat
    · exact nofun
    · exact nofun
    · exact fun _ => hshows rfl
  refine hexists.bind ?_
  rintro later there' (cause | found) ⟨hlater, hfound⟩
  · exact ⟨hlater, nofun⟩
  cases found with
  | true => exact ⟨hlater, fun _ => hfound rfl⟩
  | false =>
    refine (attempts_onNode hlater there' .createNode path (.create path [] .persistent)).bind ?_
    rintro last there'' outcome ⟨hlast, hshows⟩
    refine ⟨hlast, ?_⟩
    -- the creation succeeded, or it failed because the node is there
    unfold forgiven
    split
    · exact fun _ => hshows rfl
    · rintro rfl
      exact hshows rfl

/-- What a start comes to: after a success the session is started, and the node is known to be there;
after a failure the session is back where it began, unless it was closed. -/
structure Concluded (phase : Phase) (there : Prop) (result : Outcome Unit) : Prop where
  ok : result = .ok () → phase = .started ∧ there
  error : ∀ cause, result = .error cause → phase = .uninitialized ∨ phase = .closed

/-- To let go of the start is to leave the session as it was before. -/
theorem attempts_letGo {path : String} (cause : Error) {phase : Phase}
    (h : phase = .starting ∨ phase = .closed) (there : Prop) :
    (letGo cause).Attempts path Concluded phase there := by
  show ite _ _ _
  rcases h with rfl | rfl
  · exact ⟨nofun, fun _ _ => .inl rfl⟩
  · exact ⟨nofun, fun _ _ => .inr rfl⟩

/-- A start that is given up leaves the session as it was before, or closed. -/
theorem attempts_abandon {path : String} (cause : Error) {phase : Phase}
    (h : phase ≠ .uninitialized) (there : Prop) :
    (abandon cause).Attempts path Concluded phase there := by
  rw [abandon_eq]
  show ite _ _ _
  by_cases hphase : phase = .started
  · rw [if_pos hphase]
    refine ⟨by decide, ?_⟩
    intro reply later hlater
    -- nobody closes a session that is not started, so it is still there to let go of
    exact attempts_letGo cause (.inl hlater.eq_starting) False
  · rw [if_neg hphase]
    apply attempts_letGo
    cases phase with
    | uninitialized => exact absurd rfl h
    | started => exact absurd rfl hphase
    | starting => exact .inl rfl
    | closed => exact .inr rfl

/-- A start that has connected is established; if it has succeeded its root node is known to be
there. -/
theorem attempts_establish (s : Session) (there : Prop) :
    (establish s).run.Attempts s.rootPath
      (fun later there' outcome => later ≠ .uninitialized
        ∧ (outcome = .ok () → later.Established ∧ there')) .starting there := by
  rw [run_establish]
  refine ⟨by decide, ?_⟩
  rintro (cause | value) later hlater
  · exact ⟨hlater.ne_uninitialized (by decide), nofun⟩
  · refine (attempts_ensurePath (.inl rfl) _ s.rootPath).mono ?_
    intro last there' outcome ⟨hlast, hthere⟩
    exact ⟨hlast.ne_uninitialized, fun hok => ⟨hlast, hthere hok⟩⟩

theorem attempts_conclude {path : String} {phase : Phase} {there : Prop} {result : Outcome Unit}
    (h : phase ≠ .uninitialized) (hok : result = .ok () → phase.Established ∧ there) :
    (conclude result).Attempts path Concluded phase there := by
  cases result with
  | error cause => exact attempts_abandon cause h there
  | ok =>
    obtain ⟨hphase, hthere⟩ := hok rfl
    rw [conclude_ok]
    show Concluded phase there (if phase = .started then _ else _)
    rcases hphase with rfl | rfl
    · exact ⟨fun _ => ⟨rfl, hthere⟩, nofun⟩
    · exact ⟨nofun, fun _ _ => .inr rfl⟩

/-- A start that takes hold of the session, under a time limit or without one. -/
theorem attempts_start (s : Session) (limit : Option Duration) (there : Prop) :
    (start s limit).run.Attempts s.rootPath Concluded .uninitialized there := by
  rw [run_start]
  show (establishWithin s limit).Attempts s.rootPath Concluded .starting there
  cases limit with
  | none =>
    refine (attempts_establish s there).bind ?_
    intro later there' result ⟨hlater, hok⟩
    exact attempts_conclude hlater hok
  | some limit =>
    constructor
    · intro later hlater
      exact attempts_abandon _ hlater False
    · refine (attempts_establish s there).bind ?_
      intro later there' result ⟨hlater, hok⟩
      exact attempts_conclude hlater hok

end Session

/-! ## Tasks -/

section

variable {path : String} {post : Phase → Prop → α → Prop} {phase : Phase} {there : Prop}

/-- What is left of a task that waits comes to what it should. -/
def Wait.Attempts (path : String) (post : Phase → Prop → α → Prop) (phase : Phase) (there : Prop) :
    Wait α → Prop
  | calling request next => (Program.call request next).Attempts path post phase there
  | trying gate request _ _ next | resting gate request _ _ _ next =>
    (Program.persist gate request next).Attempts path post phase there
  | ended _ | pausing .. => False

/-- A task that holds the start and waits comes to what it should, also when its time limit strikes. -/
structure Task.Attempts (path : String) (post : Phase → Prop → α → Prop) (phase : Phase)
    (there : Prop) (task : Task α) : Prop where
  wait : task.wait.Attempts path post phase there
  late : ∀ alarm, task.alarm = some alarm → ∀ later, later ≠ .uninitialized →
    alarm.late.Attempts path post later False

/-- A task has come to its next waiting point, from which it comes to what it should, or to its end. -/
def Reaches (path : String) (post : Phase → Prop → α → Prop) (there : Prop)
    (step : Phase × Task α) : Prop :=
  step.2.Attempts path post step.1 there
    ∨ ∃ result, step.2 = ⟨.ended result, none⟩ ∧ post step.1 there result

theorem Program.Attempts.advance {p : Program α} (h : p.Attempts path post phase there) (now : Nat)
    {alarm : Option (Alarm α)}
    (hlate : ∀ a, alarm = some a → ∀ later, later ≠ .uninitialized →
      a.late.Attempts path post later False) :
    Reaches path post there (p.advance now phase alarm) := by
  induction p generalizing phase alarm with
  | finish result => exact .inr ⟨result, rfl, h⟩
  | observe next ih => exact ih phase h hlate
  | exchange expected new next ih =>
    simp only [Attempts] at h
    rw [Program.advance]
    by_cases hphase : phase = expected
    · rw [if_pos hphase] at h ⊢
      exact ih true h hlate
    · rw [if_neg hphase] at h ⊢
      exact ih false h hlate
  | assign new next ih => exact ih h hlate
  | call request next ih => exact .inl ⟨h, hlate⟩
  | persist gate request next ih => exact .inl ⟨h, hlate⟩
  | pause => exact h.elim
  | arm limit late next ihl ihn =>
    apply ihn h.2
    rintro _ ⟨⟩
    exact h.1
  | disarm next ih => exact ih h nofun

/-- Of a node at the path it is known that it is there after an answer, if it was there before or the
answer tells so; nothing is known after a call that ends the session with the service. -/
def Wait.Finds (path : String) (there : Prop) (reply : {β : Type} → Request β → Except Fault β) :
    Wait α → Prop
  | trying _ request _ _ _ => there ∨ request.Tells path (reply request)
  | calling .. | ended _ | resting .. | pausing .. => False

namespace Task.Attempts

variable {task : Task α}

/-- A task that waits has not ended. -/
theorem result?_eq_none (h : task.Attempts path post phase there) : task.result? = none := by
  obtain ⟨wait, alarm⟩ := task
  cases wait with
  | ended => exact h.wait.elim
  | calling | trying | resting | pausing => rfl

theorem ne_uninitialized (h : task.Attempts path post phase there) : phase ≠ .uninitialized := by
  obtain ⟨wait, alarm⟩ := task
  cases wait with
  | ended | pausing => exact h.wait.elim
  | calling | trying | resting => exact h.wait.1

/-- What is left of a task comes to the same after others have gone on. -/
theorem becomes {later : Phase} (h : task.Attempts path post phase there)
    (hlater : phase.Becomes later) : task.Attempts path post later there where
  late := h.late
  wait := by
    obtain ⟨wait, alarm⟩ := task
    have hwait := h.wait
    cases wait with
    | ended | pausing => exact hwait.elim
    | calling | trying | resting =>
      exact ⟨hlater.ne_uninitialized hwait.1,
        fun outcome last hlast => hwait.2 outcome last (hlater.trans hlast)⟩

/-- Where a task comes when its call is answered. -/
theorem reaches_answered (h : task.Attempts path post phase there) (hcalling : task.isCalling = true)
    (policy : RetryPolicy) (lasts : Nat → Nat) (now draw : Nat)
    (reply : {β : Type} → Request β → Except Fault β) :
    ∃ there', (there' → task.wait.Finds path there reply)
      ∧ Reaches path post there' (task.answered policy lasts now draw phase reply) := by
  obtain ⟨wait, alarm⟩ := task
  obtain ⟨hwait, hlate⟩ := h
  cases wait with
  | ended | resting | pausing => cases hcalling
  | calling request next =>
    exact ⟨False, False.elim, (hwait.2 (reply request) phase (.refl phase)).advance now hlate⟩
  | trying gate request retries since next =>
    obtain ⟨outcome, hsettles, hstep⟩ | ⟨fault, wake, -, hstep⟩ :=
      Task.answered_trying policy lasts now draw reply
    · have hnext := (hwait.2 outcome phase (.refl phase)).advance now hlate
      rw [← hstep] at hnext
      exact ⟨_, Or.imp_right hsettles.tells_of_shows, hnext⟩
    · rw [hstep]
      exact ⟨there, .inl, .inl ⟨hwait, hlate⟩⟩

/-- Where a task comes when its sleep ends: an attempt that is refused shows no node. -/
theorem reaches_woken (h : task.Attempts path post phase there) (hwake : task.wake?.isSome)
    (now : Nat) :
    ∃ there', (there' → there) ∧ Reaches path post there' (task.woken now phase) := by
  obtain ⟨wait, alarm⟩ := task
  obtain ⟨hwait, hlate⟩ := h
  cases wait with
  | ended | calling | trying => cases hwake
  | pausing => exact hwait.elim
  | resting gate request retries since wake next =>
    obtain ⟨cause, hgate, hstep⟩ | ⟨-, hstep⟩ := Task.woken_resting now
    · refine ⟨there ∨ request.Shows path (.error cause), ?_, ?_⟩
      · intro hthere
        exact hthere.resolve_right
          (Request.not_shows_error fun _ => ne_nodeExists_of_gateError hgate)
      · rw [hstep]
        exact (hwait.2 (.error cause) phase (.refl phase)).advance now hlate
    · rw [hstep]
      exact ⟨there, id, .inl ⟨hwait, hlate⟩⟩

/-- Where a task comes when its time limit strikes. -/
theorem reaches_expired (h : task.Attempts path post phase there) (halarm : task.alarm.isSome)
    (now : Nat) : Reaches path post False (task.expired now phase) := by
  have hphase := h.ne_uninitialized
  obtain ⟨wait, alarm⟩ := task
  cases alarm with
  | none => cases halarm
  | some alarm => exact (h.late alarm rfl phase hphase).advance now nofun

end Task.Attempts

end

end IdMint.Coordination
