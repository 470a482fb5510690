import IdMint.Proofs.DirectRuns

/-! # What programs end with

Whatever a service answers, a call comes to a value, to a failure that the service has reported, or to
the refusal of a gate. `Program.Yields` says by recursion over its tree what a program ends with then,
for any set of failures that the service may report, and a task keeps it from one waiting point to the
next. A start adds one failure of its own: that its time limit has struck. -/

namespace IdMint.Coordination

/-! ## Answers -/

/-- The failures that a service reports are among those told. -/
def Reports (told : Fault → Prop) (reply : {β : Type} → Request β → Except Fault β) : Prop :=
  ∀ {β : Type} (request : Request β) (fault : Fault), reply request = .error fault → told fault

/-- What a call of a session can come to over a service whose failures are among those told. -/
inductive Answered (told : Fault → Prop) : Outcome β → Prop
  | ok (value : β) : Answered told (.ok value)
  | refused (operation : Operation) (phase : Phase) :
    Answered told (.error (operation.refused phase))
  | failed {fault : Fault} (h : told fault) : Answered told (.error (.coordination fault))

section

variable {told : Fault → Prop}

theorem Answered.map {outcome : Outcome β} (h : Answered told outcome) (f : β → γ) :
    Answered told (outcome.map f) := by
  cases h with
  | ok value => exact .ok (f value)
  | refused operation phase => exact .refused operation phase
  | failed h => exact .failed h

/-- A failure is the same whatever a success would have been. -/
theorem Answered.error {cause : Error} (h : Answered told (.error cause : Outcome β)) :
    Answered told (.error cause : Outcome γ) := by
  cases h with
  | refused operation phase => exact .refused operation phase
  | failed h => exact .failed h

theorem answered_of_gateError {gate : Option Operation} {phase : Phase} {cause : Error}
    (h : gateError? gate phase = some cause) : Answered told (.error cause : Outcome β) := by
  unfold gateError? at h
  split at h
  · cases h
  · split at h <;> cases h
    exact .refused _ phase

theorem Settles.answered {gate : Option Operation} {phase : Phase} {reply : Except Fault β}
    {outcome : Outcome β} (h : Settles gate phase reply outcome)
    (htold : ∀ fault, reply = .error fault → told fault) : Answered told outcome := by
  cases h with
  | ok value => exact .ok value
  | refused hgate => exact answered_of_gateError hgate
  | failed fault => exact .failed (htold fault rfl)

end

/-! ## Programs -/

namespace Program

/-- What a program ends with over a service whose failures are among those told. -/
def Yields (told : Fault → Prop) (post : α → Prop) : Program α → Prop
  | finish result => post result
  | observe next => ∀ phase, (next phase).Yields told post
  | exchange _ _ next => ∀ won, (next won).Yields told post
  | assign _ next | pause _ next | disarm next => next.Yields told post
  | call _ next =>
    ∀ reply, (∀ fault, reply = .error fault → told fault) → (next reply).Yields told post
  | persist _ _ next => ∀ outcome, Answered told outcome → (next outcome).Yields told post
  | arm _ late next => late.Yields told post ∧ next.Yields told post

variable {told : Fault → Prop} {post : α → Prop} {post' : β → Prop} {p : Program α}

theorem Yields.bind {f : α → Program β} (h : p.Yields told post)
    (hf : ∀ result, post result → (f result).Yields told post') : (p.bind f).Yields told post' := by
  induction p with
  | finish result => exact hf result h
  | observe next ih | exchange _ _ next ih => exact fun x => ih x (h x)
  | assign _ next ih | pause _ next ih | disarm next ih => exact ih h
  | call request next ih => exact fun reply hreply => ih reply (h reply hreply)
  | persist gate request next ih => exact fun outcome houtcome => ih outcome (h outcome houtcome)
  | arm limit late next ihl ihn => exact ⟨ihl h.1, ihn h.2⟩

end Program

namespace Session

variable {told : Fault → Prop} {path : String}

/-- A node operation ends with what its call comes to, or is refused; what the check finds wrong with
the path has to be told as well. -/
theorem yields_onNode (hpath : ∀ fault, Path.check path = .error fault → told fault)
    (operation : Operation) (request : Request β) :
    (onNode operation path request).run.Yields told (Answered told) := by
  rw [run_onNode]
  intro phase
  dsimp only
  by_cases hphase : phase = .started
  · rw [if_pos hphase]
    cases hcheck : Path.check path with
    | error fault => exact .failed (hpath fault hcheck)
    | ok => exact fun _ houtcome => houtcome
  · rw [if_neg hphase]
    exact .refused operation phase

theorem yields_ensurePath (hpath : ∀ fault, Path.check path = .error fault → told fault) :
    (ensurePath path).run.Yields told (Answered told) := by
  have hexists : (pathExists path).run.Yields told (Answered told) := by
    rw [run_pathExists]
    refine (yields_onNode hpath _ _).bind ?_
    intro outcome houtcome
    exact houtcome.map Option.isSome
  rw [run_ensurePath]
  refine hexists.bind ?_
  rintro (cause | _ | _) houtcome
  · exact houtcome.error
  · refine (yields_onNode hpath _ _).bind ?_
    intro outcome houtcome
    show Answered told (forgiven outcome)
    unfold forgiven
    split
    · exact .ok ()
    · exact houtcome
  · exact .ok ()

/-- A start that is given up ends with the cause. -/
theorem yields_abandon (told : Fault → Prop) (cause : Error) :
    (abandon cause).Yields told (· = .error cause) := by
  rw [abandon_eq]
  rintro (_ | _)
  · exact fun _ => rfl
  · exact fun _ _ _ => rfl

/-- What a start ends with: what its calls come to, or the failure that its time limit has struck. -/
def EndsStart (told : Fault → Prop) (limit : Option Duration) (result : Outcome Unit) : Prop :=
  Answered told result ∨ ∃ span, limit = some span ∧ result = .error (.connectionTimeout span)

theorem yields_start {s : Session} (hroot : ∀ fault, Path.check s.rootPath = .error fault → told fault)
    (limit : Option Duration) : (start s limit).run.Yields told (EndsStart told limit) := by
  have hestablish : (establish s).run.Yields told (Answered told) := by
    rw [run_establish]
    rintro (cause | value) houtcome
    · exact houtcome
    · exact yields_ensurePath hroot
  have hconclude (result : Outcome Unit) (h : Answered told result) :
      (conclude result).Yields told (EndsStart told limit) := by
    cases result with
    | error cause =>
      rw [← Program.bind_finish (conclude _)]
      refine (yields_abandon told cause).bind ?_
      rintro _ rfl
      exact .inl h
    | ok =>
      rw [conclude_ok]
      intro phase
      show EndsStart told limit (ite _ _ _)
      split
      · exact .inl (.ok ())
      · exact .inl (.refused _ phase)
  rw [run_start]
  rintro (_ | _)
  · exact fun phase => .inl (.refused _ phase)
  · cases limit with
    | none => exact hestablish.bind hconclude
    | some limit =>
      refine ⟨?_, hestablish.bind hconclude⟩
      rw [← Program.bind_finish (abandon _)]
      refine (yields_abandon told _).bind ?_
      rintro _ rfl
      exact .inr ⟨limit, rfl, rfl⟩

end Session

/-! ## Tasks -/

section

variable {told : Fault → Prop} {post : α → Prop}

/-- What is left of a task that waits ends so. -/
def Wait.Yields (told : Fault → Prop) (post : α → Prop) : Wait α → Prop
  | ended result => post result
  | calling request next => (Program.call request next).Yields told post
  | trying gate request _ _ next | resting gate request _ _ _ next =>
    (Program.persist gate request next).Yields told post
  | pausing _ next => next.Yields told post

/-- A task ends so, also when its time limit strikes. -/
structure Task.Yields (told : Fault → Prop) (post : α → Prop) (task : Task α) : Prop where
  wait : task.wait.Yields told post
  late : ∀ alarm, task.alarm = some alarm → alarm.late.Yields told post

theorem Task.Yields.of_result? {task : Task α} (h : task.Yields told post) {result : α}
    (hresult : task.result? = some result) : post result := by
  obtain ⟨wait, alarm⟩ := task
  cases wait with
  | ended own =>
    obtain rfl := Option.some.inj hresult
    exact h.wait
  | calling | trying | resting | pausing => cases hresult

theorem Program.Yields.advance {p : Program α} (h : p.Yields told post) (now : Nat) (phase : Phase)
    {alarm : Option (Alarm α)} (hlate : ∀ a, alarm = some a → a.late.Yields told post) :
    (p.advance now phase alarm).2.Yields told post := by
  induction p generalizing phase alarm with
  | finish result =>
    refine ⟨h, ?_⟩
    rintro _ ⟨⟩
  | observe next ih => exact ih phase (h phase) phase hlate
  | exchange expected new next ih =>
    rw [Program.advance]
    split
    · exact ih true (h true) new hlate
    · exact ih false (h false) phase hlate
  | assign new next ih => exact ih h new hlate
  | call | persist | pause => exact ⟨h, hlate⟩
  | arm limit late next ihl ihn =>
    refine ihn h.2 phase ?_
    rintro _ ⟨⟩
    exact h.1
  | disarm next ih =>
    refine ih h phase ?_
    rintro _ ⟨⟩

namespace Task

/-- How a task may go on from a waiting point to the next one, at any moment and whatever the phase has
become, over a service whose failures are among those told. -/
inductive Goes (policy : RetryPolicy) (told : Fault → Prop) (task : Task α) : Phase × Task α → Prop
  | answer (lasts : Nat → Nat) (now draw : Nat) (phase : Phase)
    (reply : {β : Type} → Request β → Except Fault β) (hreply : Reports told reply) :
    Goes policy told task (task.answered policy lasts now draw phase reply)
  | wake (now : Nat) (phase : Phase) : Goes policy told task (task.woken now phase)
  | expire (now : Nat) (phase : Phase) : Goes policy told task (task.expired now phase)

theorem Yields.goes {policy : RetryPolicy} {task : Task α} {step : Phase × Task α}
    (h : task.Yields told post) (hgoes : task.Goes policy told step) : step.2.Yields told post := by
  obtain ⟨wait, alarm⟩ := task
  have hwait := h.wait
  have hlate := h.late
  cases hgoes with
  | answer lasts now draw phase reply hreply =>
    cases wait with
    | ended | resting | pausing => exact h
    | calling request next => exact (hwait (reply request) (hreply request)).advance now phase hlate
    | trying gate request retries since next =>
      obtain ⟨outcome, hsettles, hstep⟩ | ⟨fault, wake, -, hstep⟩ :=
        answered_trying policy lasts now draw reply
      · rw [hstep]
        exact (hwait outcome (hsettles.answered (hreply request))).advance now phase hlate
      · rw [hstep]
        exact ⟨hwait, hlate⟩
  | wake now phase =>
    cases wait with
    | ended | calling | trying => exact h
    | pausing wake next => exact Program.Yields.advance hwait now phase hlate
    | resting gate request retries since wake next =>
      obtain ⟨cause, hgate, hstep⟩ | ⟨-, hstep⟩ := woken_resting now
      · rw [hstep]
        exact (hwait _ (answered_of_gateError hgate)).advance now phase hlate
      · rw [hstep]
        exact ⟨hwait, hlate⟩
  | expire now phase =>
    cases alarm with
    | none => exact h
    | some alarm => exact (hlate alarm rfl).advance now phase nofun

end Task

end

end IdMint.Coordination
