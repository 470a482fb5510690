import IdMint.Proofs.SequenceRuns
import IdMint.Proofs.SessionRuns
import IdMint.Proofs.StartTrees

/-! # Starts of a session

One task starts a session while others close it, work on nodes or try to start it, too. A task that has
taken hold of the start keeps it to its end, so that others can do nothing but to close the session;
what the start ends with follows from its program. Over a service in memory the root node is there
after a success: its presence is carried along from the answer that tells of it. -/

namespace IdMint.Coordination

namespace Session

/-! ## Ways of a start -/

section

variable {s : Session} {limit : Option Duration} {phase : Phase} {path : String} {there : Prop}
variable {step : Phase × Task (Outcome Unit)}

/-- A start that finds the session uninitialized takes hold of it. -/
theorem Goes.reaches_begin (h : Goes s .uninitialized (.start limit) none step) :
    Reaches s.rootPath Concluded False step := by
  cases h with
  | begin now => exact (attempts_start s limit False).advance now nofun

/-- A start that finds the session in any other phase is refused, and does nothing. -/
theorem Goes.eq_refused (h : Goes s phase (.start limit) none step) (hphase : phase ≠ .uninitialized) :
    step = (phase, ⟨.ended (.error (Operation.start.refused phase)), none⟩) := by
  cases h with
  | begin now =>
    show ((start s limit).run).advance now phase none = _
    rw [run_start, Program.advance, if_neg hphase]
    rfl

/-- Where a start comes that is under way. -/
theorem Goes.reaches {task : Task (Outcome Unit)} (h : Goes s phase (.start limit) (some task) step)
    (hattempts : task.Attempts path Concluded phase there) :
    ∃ there', Reaches path Concluded there' step := by
  cases h with
  | answer hcalling lasts now draw reply =>
    obtain ⟨there', -, hreaches⟩ :=
      hattempts.reaches_answered hcalling s.policy lasts now draw reply
    exact ⟨there', hreaches⟩
  | wake hwake now =>
    obtain ⟨there', -, hreaches⟩ := hattempts.reaches_woken hwake now
    exact ⟨there', hreaches⟩
  | expire halarm now => exact ⟨False, hattempts.reaches_expired halarm now⟩

/-- A task that has ended does not go on. -/
theorem Goes.not_ended {call : SessionCall β} {result : Outcome β} {step : Phase × Task (Outcome β)} :
    ¬ Goes s phase call (some ⟨.ended result, none⟩) step := by
  intro h
  cases h with
  | answer hcalling => cases hcalling
  | wake hwake => cases hwake
  | expire halarm => cases halarm

end

/-! ## The start in a crew -/

namespace Crew

/-- Task `i` of a crew holds the start and is on its way; `there` says whether a node is known to be
at the path. -/
structure Starts (crew : Crew) (path : String) (i : Nat) (there : Prop) : Prop where
  worker : ∃ limit task, crew.workers[i]? = some ⟨.start limit, some task⟩
    ∧ task.Attempts path Concluded crew.phase there
  starter : crew.starter = some i

/-- The start that task `i` of a crew was there for has ended. -/
def HasStarted (crew : Crew) (i : Nat) : Prop :=
  ∃ limit result, crew.workers[i]? = some ⟨.start limit, some ⟨.ended result, none⟩⟩

variable {crew : Crew} {path : String} {i j : Nat} {there : Prop}

theorem Starts.ne_uninitialized (h : crew.Starts path i there) : crew.phase ≠ .uninitialized := by
  obtain ⟨limit, task, -, hattempts⟩ := h.worker
  exact hattempts.ne_uninitialized

/-- What others do leaves the start with the task that holds it. -/
theorem Starts.other (h : crew.Starts path i there) (hsound : crew.Sound) (hne : i ≠ j)
    {s : Session} {call : SessionCall β} {task? : Option (Task (Outcome β))}
    {step : Phase × Task (Outcome β)} (hworker : crew.workers[j]? = some ⟨call, task?⟩)
    (hgoes : Goes s crew.phase call task? step) :
    (crew.goOn j call step).Starts path i there := by
  obtain ⟨armed, st, hmoved, hphase, -, -⟩ := hgoes.arrives (hsound j _ hworker)
  have hlater : (crew.standing i false).Later ((crew.goOn j call step).standing i false) :=
    standing_goOn_other hmoved hphase hne false
  have hmine : (crew.standing i false).mine = true :=
    decide_eq_true ⟨h.ne_uninitialized, h.starter⟩
  have hbecomes : crew.phase.Becomes step.1 := hlater.held hmine
  refine ⟨?_, (of_decide_eq_true (hlater.mine_eq.trans hmine)).2⟩
  obtain ⟨limit, task, htask, hattempts⟩ := h.worker
  refine ⟨limit, task, ?_, hattempts.becomes hbecomes⟩
  rw [goOn, List.getElem?_set_ne (Ne.symm hne)]
  exact htask

/-- A start that has ended is not gone on with. -/
theorem HasStarted.other (h : crew.HasStarted i) (hne : i ≠ j) (call : SessionCall β)
    (step : Phase × Task (Outcome β)) : (crew.goOn j call step).HasStarted i := by
  obtain ⟨limit, result, htask⟩ := h
  refine ⟨limit, result, ?_⟩
  rw [goOn, List.getElem?_set_ne (Ne.symm hne)]
  exact htask

/-- The start is with the task that takes it, and stays with the task that has it. -/
theorem starter_goOn_self (hown : crew.phase = .uninitialized ∨ crew.starter = some i)
    {call : SessionCall β} {step : Phase × Task (Outcome β)} (hphase : step.1 ≠ .uninitialized) :
    (crew.goOn i call step).starter = some i := by
  by_cases hinit : crew.phase = .uninitialized
  · exact starter_goOn_of_init hinit hphase
  · rw [starter_goOn hinit]
    exact hown.resolve_left hinit

theorem workers_goOn_self {worker : Worker} (hworker : crew.workers[i]? = some worker)
    (call : SessionCall β) (step : Phase × Task (Outcome β)) :
    (crew.goOn i call step).workers[i]? = some ⟨call, some step.2⟩ :=
  List.getElem?_set_self (List.getElem?_eq_some_iff.mp hworker).1

/-- The start of task `i` is on its way, or has ended. -/
def Tracks (crew : Crew) (path : String) (i : Nat) : Prop :=
  (∃ there, crew.Starts path i there) ∨ crew.HasStarted i

variable {limit : Option Duration} {worker : Worker} {step : Phase × Task (Outcome Unit)}

/-- A start that has come to its next waiting point is on its way, or has ended. -/
theorem starts_of_reaches (hown : crew.phase = .uninitialized ∨ crew.starter = some i)
    (hworker : crew.workers[i]? = some worker) (h : Reaches path Concluded there step) :
    (crew.goOn i (.start limit) step).Starts path i there
      ∨ (crew.goOn i (.start limit) step).HasStarted i := by
  have hself := workers_goOn_self hworker (.start limit) step
  rcases h with hattempts | ⟨result, hended, -⟩
  · exact .inl ⟨⟨limit, step.2, hself, hattempts⟩, starter_goOn_self hown hattempts.ne_uninitialized⟩
  · rw [hended] at hself
    exact .inr ⟨limit, result, hself⟩

theorem Starts.goOn_of_reaches (h : crew.Starts path i there) (limit : Option Duration)
    {there' : Prop} (hreaches : Reaches path Concluded there' step) :
    (crew.goOn i (.start limit) step).Starts path i there'
      ∨ (crew.goOn i (.start limit) step).HasStarted i := by
  obtain ⟨limit₀, task, hworker, -⟩ := h.worker
  exact starts_of_reaches (.inr h.starter) hworker hreaches

/-- A start that has ended by a step ended with what it should. -/
theorem concluded_of_reaches (hworker : crew.workers[i]? = some worker)
    (h : Reaches path Concluded there step) {limit' : Option Duration} {task : Task (Outcome Unit)}
    (htask : (crew.goOn i (.start limit) step).workers[i]? = some ⟨.start limit', some task⟩)
    {result : Outcome Unit} (hresult : task.result? = some result) :
    Concluded step.1 there result := by
  rw [workers_goOn_self hworker] at htask
  cases htask
  rcases h with hattempts | ⟨own, hended, hconcluded⟩
  · rw [hattempts.result?_eq_none] at hresult
    cases hresult
  · rw [hended] at hresult
    cases hresult
    exact hconcluded

end Crew

/-! ## Starts in a run -/

namespace Step

variable {s : Session} {crew crew' : Crew} {turn : Turn} {path : String} {i : Nat}

/-- A step of a task that is about to start the session. -/
theorem begins (h : Step s crew turn crew') (hturn : turn.worker = i) {limit : Option Duration}
    (hcall : crew.workers[i]? = some ⟨.start limit, none⟩) :
    ∃ step, turn = crew.turn i (.start limit) step ∧ crew' = crew.goOn i (.start limit) step
      ∧ Goes s crew.phase (.start limit) none step := by
  cases h with
  | go j hworker hgoes =>
    obtain rfl : j = i := hturn
    rw [hworker] at hcall
    cases hcall
    exact ⟨_, rfl, rfl, hgoes⟩

/-- A start that has ended stays so. -/
theorem hasStarted (h : Step s crew turn crew') (hended : crew.HasStarted i) :
    crew'.HasStarted i ∧ turn.worker ≠ i := by
  cases h with
  | go j hworker hgoes =>
    have hne : i ≠ j := by
      rintro rfl
      obtain ⟨limit, result, htask⟩ := hended
      rw [htask] at hworker
      cases hworker
      exact hgoes.not_ended
    exact ⟨hended.other hne _ _, hne.symm⟩

/-- A step of the task that holds the start goes on with the start. -/
theorem own (h : Step s crew turn crew') (hturn : turn.worker = i) {there : Prop}
    (hstarts : crew.Starts path i there) :
    ∃ limit step there', crew' = crew.goOn i (.start limit) step
      ∧ Reaches path Concluded there' step := by
  cases h with
  | go j hworker hgoes =>
    obtain rfl : j = i := hturn
    obtain ⟨limit, task, htask, hattempts⟩ := hstarts.worker
    rw [hworker] at htask
    cases htask
    obtain ⟨there', hreaches⟩ := hgoes.reaches hattempts
    exact ⟨limit, _, there', rfl, hreaches⟩

/-- A step of another task leaves the start with the task that holds it. -/
theorem other (h : Step s crew turn crew') (hsound : crew.Sound) (hturn : turn.worker ≠ i)
    {there : Prop} (hstarts : crew.Starts path i there) : crew'.Starts path i there := by
  cases h with
  | go j hworker hgoes => exact hstarts.other hsound (Ne.symm hturn) hworker hgoes

/-- A start that is on its way stays so, or ends. -/
theorem tracks (h : Step s crew turn crew') (hsound : crew.Sound) (htracks : crew.Tracks path i) :
    crew'.Tracks path i := by
  rcases htracks with ⟨there, hstarts⟩ | hended
  · by_cases hturn : turn.worker = i
    · obtain ⟨limit, step, there', rfl, hreaches⟩ := h.own hturn hstarts
      exact (hstarts.goOn_of_reaches limit hreaches).imp_left fun hstarts' => ⟨there', hstarts'⟩
    · exact .inl ⟨there, h.other hsound hturn hstarts⟩
  · exact .inr (h.hasStarted hended).1

/-- What a start comes to that ends by a step. -/
theorem concluded (h : Step s crew turn crew') (htracks : crew.Tracks path i)
    (hturn : turn.worker = i) {limit : Option Duration} {task : Task (Outcome Unit)}
    {result : Outcome Unit} (htask : crew'.workers[i]? = some ⟨.start limit, some task⟩)
    (hresult : task.result? = some result) : ∃ there, Concluded crew'.phase there result := by
  rcases htracks with ⟨there, hstarts⟩ | hended
  · obtain ⟨limit', step, there', rfl, hreaches⟩ := h.own hturn hstarts
    obtain ⟨limit₀, task₀, hworker, -⟩ := hstarts.worker
    exact ⟨there', Crew.concluded_of_reaches hworker hreaches htask hresult⟩
  · exact absurd hturn (h.hasStarted hended).2

end Step

namespace Run

variable {s : Session} {crew crew' : Crew} {log : List Turn} {path : String} {i : Nat}

theorem tracks (h : Run s crew log crew') (hsound : crew.Sound) (htracks : crew.Tracks path i) :
    crew'.Tracks path i := by
  induction h with
  | nil => exact htracks
  | cons hstep _ ih => exact ih (hstep.sound hsound) (hstep.tracks hsound htracks)

/-- The last turn of a run is a step to its end. -/
theorem exists_last {turn : Turn} (h : Run s crew log crew') (hlast : log.getLast? = some turn) :
    ∃ init crew₁, Run s crew init crew₁ ∧ Step s crew₁ turn crew' := by
  induction h with
  | nil => cases hlast
  | @cons crew crew₁ crew' t log hstep hrun ih =>
    cases log with
    | nil =>
      cases hrun
      cases hlast
      exact ⟨[], crew, .nil crew, hstep⟩
    | cons t' log =>
      obtain ⟨init, crew₂, hinit, hturn⟩ := ih hlast
      exact ⟨t :: init, crew₂, .cons hstep hinit, hturn⟩

end Run

/-- Task `i` makes a start in a run: it begins in the first turn, and it ends in the last one. -/
structure Attempt (s : Session) (i : Nat) (limit : Option Duration) (result : Outcome Unit)
    (crew : Crew) (log : List Turn) (crew' : Crew) : Prop where
  run : Run s crew log crew'
  call : crew.workers[i]? = some ⟨.start limit, none⟩
  first : log.head?.map Turn.worker = some i
  last : log.getLast?.map Turn.worker = some i
  ended : ∃ task, crew'.workers[i]? = some ⟨.start limit, some task⟩ ∧ task.result? = some result

namespace Attempt

variable {s : Session} {i : Nat} {limit : Option Duration} {result : Outcome Unit}
variable {crew crew' : Crew} {log : List Turn}

/-- The turn in which a start begins, and the rest of the run. -/
theorem exists_begin (h : Attempt s i limit result crew log crew') :
    ∃ step rest, log = crew.turn i (.start limit) step :: rest
      ∧ Goes s crew.phase (.start limit) none step
      ∧ Run s (crew.goOn i (.start limit) step) rest crew' := by
  obtain ⟨hrun, hcall, hfirst, -, -⟩ := h
  cases hrun with
  | nil => cases hfirst
  | cons hstep hrest =>
    obtain ⟨step, rfl, rfl, hgoes⟩ := hstep.begins (Option.some.inj hfirst) hcall
    exact ⟨step, _, rfl, hgoes, hrest⟩

/-- What a start of a session comes to that was not initialized. -/
theorem concluded (h : Attempt s i limit result crew log crew') (hsound : crew.Sound)
    (hidle : crew.phase = .uninitialized) : ∃ there, Concluded crew'.phase there result := by
  obtain ⟨task, htask, hresult⟩ := h.ended
  obtain ⟨step, rest, rfl, hgoes, hrest⟩ := h.exists_begin
  have hstep := Step.go i h.call hgoes
  rw [hidle] at hgoes
  have hreaches := hgoes.reaches_begin
  have htracks : (crew.goOn i (.start limit) step).Tracks s.rootPath i :=
    (Crew.starts_of_reaches (.inl hidle) h.call hreaches).imp_left fun hstarts => ⟨_, hstarts⟩
  have hlast := h.last
  cases rest with
  | nil =>
    cases hrest
    exact ⟨_, Crew.concluded_of_reaches h.call hreaches htask hresult⟩
  | cons t rest =>
    obtain ⟨turn, hturn, hworker⟩ := Option.map_eq_some_iff.mp hlast
    obtain ⟨init, crew₁, hinit, hend⟩ := hrest.exists_last hturn
    exact hend.concluded (hinit.tracks (hstep.sound hsound) htracks) hworker htask hresult

/-- The phase that a start leaves behind is the one after its last turn. -/
theorem exists_after (h : Attempt s i limit result crew log crew') :
    ∃ t ∈ log, t.after = crew'.phase := by
  obtain ⟨turn, hturn, -⟩ := Option.map_eq_some_iff.mp h.last
  obtain ⟨init, crew₁, -, hend⟩ := h.run.exists_last hturn
  exact ⟨turn, List.mem_of_getLast? hturn, hend.phase_eq.2⟩

end Attempt

/-! ## Starts over a service in memory -/

/-- The service still has every node that it had. -/
def Keeps (c c' : Coordinator) : Prop :=
  ∀ path, c.tree.hasNode path = true → c'.tree.hasNode path = true

theorem Keeps.refl (c : Coordinator) : Keeps c c := fun _ => id

/-- To store a node takes none away. -/
theorem keeps_seed (c : Coordinator) (path : String) (version : Int32) :
    Keeps c (c.seed path version) := fun _ hnode => NodeTree.hasNode_insert hnode path _

/-- How a task that makes a call may go on where a service in memory carries out the calls, and the
service after that. No call deletes a node; a call may be disturbed, but no disturbance makes a node
up. -/
inductive Serves (s : Session) (phase : Phase) (call : SessionCall β) (c : Coordinator) :
    Option (Task (Outcome β)) → Phase × Task (Outcome β) → Coordinator → Prop
  | begin (now : Nat) : Serves s phase call c none ((call.program s).advance now phase none) c
  | answer {task : Task (Outcome β)} (hcalling : task.isCalling = true)
    (hdelete : task.wait.inFlight? ≠ some .delete) (lasts : Nat → Nat) (now draw : Nat) (d : Disturbance)
    (hhonest : ∀ path, d.fault ≠ some (.nodeExists path)) :
    Serves s phase call c (some task)
      (task.answered s.policy lasts now draw phase (Wait.replyOf c d)) (task.wait.carriedOut c d)
  | wake {task : Task (Outcome β)} (hwake : task.wake?.isSome) (now : Nat) :
    Serves s phase call c (some task) (task.woken now phase) c
  | expire {task : Task (Outcome β)} (halarm : task.alarm.isSome) (now : Nat) :
    Serves s phase call c (some task) (task.expired now phase) c

/-- A crew, and the service in memory that its calls go to. -/
structure Site : Type 1 where
  crew : Crew
  service : Coordinator

/-- One task of a crew goes on, after other clients of the service may have added nodes to it. -/
inductive ServedStep (s : Session) : Site → Turn → Site → Prop
  | go {crew : Crew} {c c₁ c' : Coordinator} (hothers : Keeps c c₁) (i : Nat) {β : Type}
    {call : SessionCall β} {task? : Option (Task (Outcome β))} {step : Phase × Task (Outcome β)}
    (hworker : crew.workers[i]? = some ⟨call, task?⟩)
    (hserves : Serves s crew.phase call c₁ task? step c') :
    ServedStep s ⟨crew, c⟩ (crew.turn i call step) ⟨crew.goOn i call step, c'⟩

/-- Tasks of a crew go on one after the other over a service in memory, while nobody deletes a node. -/
inductive Served (s : Session) : Site → List Turn → Site → Prop
  | nil (site : Site) : Served s site [] site
  | cons {site site' site'' : Site} {turn : Turn} {log : List Turn}
    (hstep : ServedStep s site turn site') (hrun : Served s site' log site'') :
    Served s site (turn :: log) site''

/-- What is answered over a service in memory is a way to answer. -/
theorem Serves.goes {s : Session} {phase : Phase} {call : SessionCall β} {c c' : Coordinator}
    {task? : Option (Task (Outcome β))} {step : Phase × Task (Outcome β)}
    (h : Serves s phase call c task? step c') : Goes s phase call task? step := by
  cases h with
  | begin now => exact .begin now
  | answer hcalling _ lasts now draw d => exact .answer hcalling lasts now draw _
  | wake hwake now => exact .wake hwake now
  | expire halarm now => exact .expire halarm now

theorem ServedStep.step {s : Session} {site site' : Site} {turn : Turn}
    (h : ServedStep s site turn site') : Step s site.crew turn site'.crew := by
  cases h with
  | go _ i hworker hserves => exact .go i hworker hserves.goes

theorem Served.run {s : Session} {site site' : Site} {log : List Turn}
    (h : Served s site log site') : Run s site.crew log site'.crew := by
  induction h with
  | nil site => exact .nil site.crew
  | cons hstep _ ih => exact .cons hstep.step ih

/-! ### Closing the connection -/

/-- A task that has a call in flight which closes the connection has closed the session, or holds the
start. -/
def Crew.ClosesInOrder (crew : Crew) : Prop :=
  ∀ (j : Nat) (worker : Worker), crew.workers[j]? = some worker → ∀ task, worker.task? = some task →
    task.wait.inFlight? = some .close →
    crew.phase = .closed ∨ crew.phase = .starting ∧ crew.starter = some j

/-- Nobody closes the connection before anything has happened. -/
theorem Crew.closesInOrder_opening (calls : List ((β : Type) × SessionCall β)) :
    (opening calls).ClosesInOrder := by
  intro j worker hworker task htask
  have hmem : worker ∈ (opening calls).workers := List.mem_of_getElem? hworker
  obtain ⟨⟨β, call⟩, -, rfl⟩ := List.mem_map.mp hmem
  cases htask

theorem Step.closesInOrder {s : Session} {crew crew' : Crew} {turn : Turn}
    (h : Step s crew turn crew') (hsound : crew.Sound) (hcloses : crew.ClosesInOrder) :
    crew'.ClosesInOrder := by
  have horder := h.inOrder hsound
  cases h with
  | @go i _ call _ step hworker hgoes =>
    intro j worker hworker' task htask hclose
    by_cases hne : j = i
    · -- the task that has just made the call
      subst hne
      rw [Crew.workers_goOn_self hworker] at hworker'
      cases hworker'
      cases htask
      obtain ⟨-, ⟨-, hclosed⟩ | ⟨-, hstarting, hstarter⟩⟩ := horder.close hclose
      · exact .inl hclosed
      · exact .inr ⟨hstarting, hstarter⟩
    · -- a task that waits meanwhile: nobody takes the start from it
      rw [Crew.goOn, List.getElem?_set_ne (Ne.symm hne)] at hworker'
      rcases hcloses j worker hworker' task htask hclose with hclosed | ⟨hstarting, hstarter⟩
      · exact .inl (horder.closed hclosed)
      · obtain ⟨armed, st, hmoved, hphase, -, -⟩ := hgoes.arrives (hsound i _ hworker)
        have hlater : (crew.standing j false).Later ((crew.goOn i call step).standing j false) :=
          Crew.standing_goOn_other hmoved hphase hne false
        have hmine : (crew.standing j false).mine = true := by
          refine decide_eq_true ⟨?_, hstarter⟩
          rw [hstarting]
          decide
        refine .inr ⟨?_, (of_decide_eq_true (hlater.mine_eq.trans hmine)).2⟩
        rcases hlater.held hmine with heq | ⟨hstarted, -⟩
        · exact heq.trans hstarting
        · cases hstarting.symm.trans hstarted

theorem Run.closesInOrder {s : Session} {crew crew' : Crew} {log : List Turn}
    (h : Run s crew log crew') (hsound : crew.Sound) (hcloses : crew.ClosesInOrder) :
    crew'.ClosesInOrder := by
  induction h with
  | nil => exact hcloses
  | cons hstep _ ih => exact ih (hstep.sound hsound) (hstep.closesInOrder hsound hcloses)

/-! ### The root node -/

/-- A call in flight that neither deletes a node nor ends the session takes no node away. -/
theorem keeps_carriedOut {wait : Wait α} (hclose : wait.inFlight? ≠ some .close)
    (hdelete : wait.inFlight? ≠ some .delete) (c : Coordinator) (d : Disturbance) :
    Keeps c (wait.carriedOut c d) := by
  intro path hnode
  cases wait with
  | ended | resting | pausing => exact hnode
  | calling request | trying _ request =>
    exact Coordinator.hasNode_performDisturbed hnode d
      (fun hkind => hclose (congrArg some hkind)) fun hkind => hdelete (congrArg some hkind)

/-- What a task does takes no node away, unless it closes the connection. -/
theorem Serves.keeps {s : Session} {phase : Phase} {call : SessionCall β} {c c' : Coordinator}
    {task? : Option (Task (Outcome β))} {step : Phase × Task (Outcome β)}
    (h : Serves s phase call c task? step c')
    (hclose : ∀ task, task? = some task → task.wait.inFlight? ≠ some .close) : Keeps c c' := by
  cases h with
  | begin | wake | expire => exact .refl c
  | answer _ hdelete _ _ _ d => exact keeps_carriedOut (hclose _ rfl) hdelete c d

/-- What a task that starts the session learns of the root node is so. -/
theorem Serves.reaches {s : Session} {phase : Phase} {limit : Option Duration} {c c' : Coordinator}
    {task : Task (Outcome Unit)} {step : Phase × Task (Outcome Unit)} {path : String} {there : Prop}
    {st : Standing} (h : Serves s phase (.start limit) c (some task) step c')
    (hattempts : task.Attempts path Concluded phase there)
    (horderly : task.Orderly .start (fun st _ => Ended st) st)
    (hthere : there → c.tree.hasNode path = true) :
    ∃ there', (there' → c'.tree.hasNode path = true) ∧ Reaches path Concluded there' step := by
  cases h with
  | wake hwake now =>
    obtain ⟨there', hwoken, hreaches⟩ := hattempts.reaches_woken hwake now
    exact ⟨there', hthere ∘ hwoken, hreaches⟩
  | expire halarm now => exact ⟨False, False.elim, hattempts.reaches_expired halarm now⟩
  | answer hcalling hdelete lasts now draw d hhonest =>
    obtain ⟨there', hfinds, hreaches⟩ :=
      hattempts.reaches_answered hcalling s.policy lasts now draw (Wait.replyOf c d)
    refine ⟨there', fun hnode => ?_, hreaches⟩
    have hfound := hfinds hnode
    obtain ⟨wait, alarm⟩ := task
    cases wait with
    | calling | ended | resting | pausing => exact hfound.elim
    | trying gate request retries since next =>
      have hclose : request.kind ≠ .close := by
        rcases horderly.wait with ⟨hkind, -⟩ | ⟨operation, -, hkind, -⟩
        · simp [hkind]
        · exact hkind.2
      have hkeep : request.kind ≠ .delete := fun hkind => hdelete (congrArg some hkind)
      rcases hfound with hbefore | htells
      · exact Coordinator.hasNode_performDisturbed (hthere hbefore) d hclose hkeep
      · exact Coordinator.hasNode_of_tells_disturbed hhonest htells

/-- The start of task `i` is on its way, and the node at the path is there if it is known to be, unless
the session is closed; or the start has ended. -/
def Site.Tracks (site : Site) (path : String) (i : Nat) : Prop :=
  (∃ there, site.crew.Starts path i there
      ∧ (there → site.crew.phase = .closed ∨ site.service.tree.hasNode path = true))
    ∨ site.crew.HasStarted i

namespace ServedStep

variable {s : Session} {site site' : Site} {turn : Turn} {path : String} {i : Nat} {there : Prop}

/-- A step of the task that holds the start: what it knows of the root node is so. -/
theorem own (h : ServedStep s site turn site') (hsound : site.crew.Sound) (hturn : turn.worker = i)
    (hstarts : site.crew.Starts path i there)
    (hthere : there → site.crew.phase = .closed ∨ site.service.tree.hasNode path = true) :
    ∃ limit step there', site'.crew = site.crew.goOn i (.start limit) step
      ∧ Reaches path Concluded there' step
      ∧ (there' → site'.crew.phase = .closed ∨ site'.service.tree.hasNode path = true) := by
  have horder := h.step.inOrder hsound
  cases h with
  | @go crew _ _ _ hothers j _ _ _ _ hworker hserves =>
    obtain rfl : j = i := hturn
    obtain ⟨limit, task, htask, hattempts⟩ := hstarts.worker
    rw [hworker] at htask
    cases htask
    by_cases hclosed : crew.phase = .closed
    · obtain ⟨there', hreaches⟩ := hserves.goes.reaches hattempts
      exact ⟨limit, _, there', rfl, hreaches, fun _ => .inl (horder.closed hclosed)⟩
    · have horderly := (hsound j _ hworker).1
      obtain ⟨there', hnode, hreaches⟩ := hserves.reaches hattempts horderly fun hknown =>
        hothers _ ((hthere hknown).resolve_left hclosed)
      exact ⟨limit, _, there', rfl, hreaches, fun hknown => .inr (hnode hknown)⟩

/-- A step of another task takes the root node away only if the session is closed. -/
theorem other (h : ServedStep s site turn site') (hsound : site.crew.Sound)
    (hcloses : site.crew.ClosesInOrder) (hturn : turn.worker ≠ i)
    (hstarts : site.crew.Starts path i there)
    (hthere : there → site.crew.phase = .closed ∨ site.service.tree.hasNode path = true) :
    there → site'.crew.phase = .closed ∨ site'.service.tree.hasNode path = true := by
  have horder := h.step.inOrder hsound
  intro hknown
  cases h with
  | @go crew _ _ _ hothers j _ _ task? _ hworker hserves =>
    by_cases hclosed : crew.phase = .closed
    · exact .inl (horder.closed hclosed)
    · have hopen (task) (htask : task? = some task) : task.wait.inFlight? ≠ some .close := by
        intro hclose
        obtain hclosed' | ⟨-, hstarter⟩ := hcloses j _ hworker task htask hclose
        · exact hclosed hclosed'
        · rw [hstarts.starter] at hstarter
          exact hturn (Option.some.inj hstarter).symm
      exact .inr (hserves.keeps hopen _ (hothers _ ((hthere hknown).resolve_left hclosed)))

theorem tracks (h : ServedStep s site turn site') (hsound : site.crew.Sound)
    (hcloses : site.crew.ClosesInOrder) (htracks : site.Tracks path i) : site'.Tracks path i := by
  rcases htracks with ⟨there, hstarts, hthere⟩ | hended
  · by_cases hturn : turn.worker = i
    · obtain ⟨limit, step, there', hcrew, hreaches, hthere'⟩ := h.own hsound hturn hstarts hthere
      have hnext := hstarts.goOn_of_reaches limit hreaches
      rw [← hcrew] at hnext
      exact hnext.imp_left fun hstarts' => ⟨there', hstarts', hthere'⟩
    · exact .inl ⟨there, h.step.other hsound hturn hstarts,
        h.other hsound hcloses hturn hstarts hthere⟩
  · exact .inr (h.step.hasStarted hended).1

/-- After a start that ends with a success by a step, the root node is there. -/
theorem hasNode (h : ServedStep s site turn site') (hsound : site.crew.Sound)
    (htracks : site.Tracks path i) (hturn : turn.worker = i) {limit : Option Duration}
    {task : Task (Outcome Unit)}
    (htask : site'.crew.workers[i]? = some ⟨.start limit, some task⟩)
    (hresult : task.result? = some (.ok ())) : site'.service.tree.hasNode path = true := by
  rcases htracks with ⟨there, hstarts, hthere⟩ | hended
  · obtain ⟨limit', step, there', hcrew, hreaches, hthere'⟩ := h.own hsound hturn hstarts hthere
    obtain ⟨limit₀, task₀, hworker, -⟩ := hstarts.worker
    rw [hcrew] at htask hthere'
    obtain ⟨hstarted, hknown⟩ :=
      (Crew.concluded_of_reaches hworker hreaches htask hresult).ok rfl
    refine (hthere' hknown).resolve_left fun hclosed => ?_
    exact nomatch hstarted.symm.trans hclosed
  · exact absurd hturn (h.step.hasStarted hended).2

end ServedStep

namespace Served

variable {s : Session} {site site' : Site} {log : List Turn} {path : String} {i : Nat}

theorem tracks (h : Served s site log site') (hsound : site.crew.Sound)
    (hcloses : site.crew.ClosesInOrder) (htracks : site.Tracks path i) :
    site'.Tracks path i ∧ site'.crew.Sound := by
  induction h with
  | nil => exact ⟨htracks, hsound⟩
  | cons hstep _ ih =>
    exact ih (hstep.step.sound hsound) (hstep.step.closesInOrder hsound hcloses)
      (hstep.tracks hsound hcloses htracks)

/-- The last turn of a run over a service is a step to its end. -/
theorem exists_last {turn : Turn} (h : Served s site log site') (hlast : log.getLast? = some turn) :
    ∃ init site₁, Served s site init site₁ ∧ ServedStep s site₁ turn site' := by
  induction h with
  | nil => cases hlast
  | @cons site site₁ site' t log hstep hrun ih =>
    cases log with
    | nil =>
      cases hrun
      cases hlast
      exact ⟨[], site, .nil site, hstep⟩
    | cons t' log =>
      obtain ⟨init, site₂, hinit, hturn⟩ := ih hlast
      exact ⟨t :: init, site₂, .cons hstep hinit, hturn⟩

end Served

/-- After a start that was a success the root node is there. -/
theorem Attempt.hasNode {s : Session} {i : Nat} {limit : Option Duration} {crew crew' : Crew}
    {c c' : Coordinator} {log : List Turn} (h : Attempt s i limit (.ok ()) crew log crew')
    (hserved : Served s ⟨crew, c⟩ log ⟨crew', c'⟩) (hsound : crew.Sound)
    (hcloses : crew.ClosesInOrder) (hidle : crew.phase = .uninitialized) :
    c'.tree.hasNode s.rootPath = true := by
  obtain ⟨task, htask, hresult⟩ := h.ended
  have hfirst := h.first
  have hlast := h.last
  cases hserved with
  | nil => cases hfirst
  | @cons _ site _ _ rest hbegin hrest =>
    obtain ⟨step, -, hcrew, hgoes⟩ := hbegin.step.begins (Option.some.inj hfirst) h.call
    rw [hidle] at hgoes
    have hreaches := hgoes.reaches_begin
    -- a start that has just begun knows nothing of the root node
    have htracks : site.Tracks s.rootPath i := by
      have hnext : (crew.goOn i (.start limit) step).Starts s.rootPath i False
          ∨ (crew.goOn i (.start limit) step).HasStarted i :=
        Crew.starts_of_reaches (.inl hidle) h.call hreaches
      rw [← hcrew] at hnext
      exact hnext.imp_left fun hstarts => ⟨False, hstarts, False.elim⟩
    cases rest with
    | nil =>
      cases hrest
      obtain rfl : crew' = _ := hcrew
      exact ((Crew.concluded_of_reaches h.call hreaches htask hresult).ok rfl).2.elim
    | cons t rest =>
      obtain ⟨turn, hturn, hworker⟩ := Option.map_eq_some_iff.mp hlast
      obtain ⟨init, site₁, hinit, hend⟩ := hrest.exists_last hturn
      have hsound' := hbegin.step.sound hsound
      have hcloses' := hbegin.step.closesInOrder hsound hcloses
      obtain ⟨htracks', hsound''⟩ := hinit.tracks hsound' hcloses' htracks
      exact hend.hasNode hsound'' htracks' hworker htask hresult

/-! ## What a start comes to -/

/-- What is said of a start that finds the session uninitialized and ends with `result`: the tasks
`crew` before it, their turns meanwhile, and the tasks `crew'` after it. -/
structure Accepted (s : Session) (result : Outcome Unit) (crew : Crew) (log : List Turn)
    (crew' : Crew) : Prop where
  ok : result = .ok () → crew'.phase = .started
  /-- Over a service in memory from which nobody deletes a node meanwhile, the root node is there
  after a success. -/
  root : ∀ c c', Served s ⟨crew, c⟩ log ⟨crew', c'⟩ → result = .ok () →
    c'.tree.hasNode s.rootPath = true
  /-- A failure leaves the session as it was before, if it was not closed meanwhile: another start
  takes hold of it and connects. -/
  error : ∀ cause, result = .error cause → (∀ t ∈ log, t.after ≠ .closed) →
    crew'.phase = .uninitialized ∧ ∀ limit step, Goes s crew'.phase (.start limit) none step →
      step.1 = .starting ∧ step.2.wait.inFlight? = some .connect
  closed : (∃ t ∈ log, t.after = .closed) →
    (∃ cause, result = .error cause) ∧ crew'.phase = .closed

/-- What is said of a start by task `i` that does not find the session uninitialized: it fails in the
turn in which it begins, it makes no call, and it leaves everything else as it was. -/
structure Refused (i : Nat) (limit : Option Duration) (crew : Crew) (turn : Turn) (crew' : Crew) :
    Prop where
  issued : turn.issued = none
  phase : crew'.phase = crew.phase
  starter : crew'.starter = crew.starter
  workers : crew'.workers
    = crew.workers.set i
      ⟨.start limit, some ⟨.ended (.error (.invalidState crew.phase.shown "start")), none⟩⟩

/-- A start that finds the session uninitialized connects. -/
theorem Goes.connects {s : Session} {limit : Option Duration} {step : Phase × Task (Outcome Unit)}
    (h : Goes s .uninitialized (.start limit) none step) :
    step.1 = .starting ∧ step.2.wait.inFlight? = some .connect := by
  cases h with
  | begin now =>
    show (Program.advance _ (Session.start s limit).run _ _).1 = _ ∧ _
    cases limit <;> exact ⟨rfl, rfl⟩

theorem Attempt.accepted {s : Session} {i : Nat} {limit : Option Duration} {result : Outcome Unit}
    {crew crew' : Crew} {log : List Turn} (h : Attempt s i limit result crew log crew')
    (hsound : crew.Sound) (hcloses : crew.ClosesInOrder) (hidle : crew.phase = .uninitialized) :
    Accepted s result crew log crew' := by
  obtain ⟨there, hok, herror⟩ := h.concluded hsound hidle
  have hfinal := (h.run.pairwise_closed hsound).2
  constructor
  · intro hresult
    exact (hok hresult).1
  · rintro c c' hserved rfl
    exact h.hasNode hserved hsound hcloses hidle
  · intro cause hresult hopen
    obtain ⟨t, ht, hafter⟩ := h.exists_after
    have hphase : crew'.phase = .uninitialized := by
      apply (herror cause hresult).resolve_right
      rw [← hafter]
      exact hopen t ht
    refine ⟨hphase, ?_⟩
    intro limit' step hgoes
    rw [hphase] at hgoes
    exact hgoes.connects
  · rintro ⟨t, ht, hafter⟩
    have hclosed := hfinal t ht hafter
    refine ⟨?_, hclosed⟩
    cases result with
    | error cause => exact ⟨cause, rfl⟩
    | ok => exact nomatch hclosed.symm.trans (hok rfl).1

theorem Step.refused {s : Session} {i : Nat} {limit : Option Duration} {crew crew' : Crew}
    {turn : Turn} (h : Step s crew turn crew') (hturn : turn.worker = i)
    (hcall : crew.workers[i]? = some ⟨.start limit, none⟩) (hphase : crew.phase ≠ .uninitialized) :
    Refused i limit crew turn crew' := by
  obtain ⟨step, rfl, rfl, hgoes⟩ := h.begins hturn hcall
  obtain rfl := hgoes.eq_refused hphase
  exact ⟨rfl, rfl, Crew.starter_goOn hphase, rfl⟩

namespace Run

variable {s : Session} {crew : Crew} {past : List Turn}

/-- **What a start comes to.** Whatever has happened to a session, whatever the calls of a start are
answered, whenever its time limit strikes and wherever others interfere: a start that finds the
session uninitialized is a success that leaves it started, or a failure that leaves it as it was or
closed; any other start is refused. -/
theorem settles_starts {calls : List ((β : Type) × SessionCall β)}
    (h : Run s (.opening calls) past crew) (i : Nat) (limit : Option Duration) :
    (crew.phase = .uninitialized → ∀ result log crew', Attempt s i limit result crew log crew' →
        Accepted s result crew log crew')
      ∧ (crew.phase ≠ .uninitialized → crew.workers[i]? = some ⟨.start limit, none⟩ →
        ∀ turn crew', Step s crew turn crew' → turn.worker = i →
          Refused i limit crew turn crew') := by
  have hopening := Crew.sound_opening calls
  constructor
  · intro hidle result log crew' hattempt
    have hcloses := h.closesInOrder hopening (Crew.closesInOrder_opening calls)
    exact hattempt.accepted (h.sound hopening).1 hcloses hidle
  · intro hphase hcall turn crew' hstep hturn
    exact hstep.refused hturn hcall hphase

/-- The tasks that share a session when the time limit of the first start has struck. -/
def sharedGivenUp : Crew where
  phase := .uninitialized
  starter := some 0
  workers :=
    [⟨.start (some (.ofMillis 5)),
        some ⟨.ended (.error (.connectionTimeout (.ofMillis 5))), none⟩⟩,
     ⟨.start none, none⟩, ⟨.pathExists "/r/k", none⟩, ⟨.close, none⟩]

/-- After the first start was given up, the second one is a success: the service loses its first
connection, and another client creates the root node just before it. -/
theorem settles_starts_second :
    ∃ log crew' c, Run sharedSession (.opening sharedCalls) (sharedLog.take 4) sharedGivenUp
      ∧ Served sharedSession ⟨sharedGivenUp, .fresh⟩ log ⟨crew', c⟩
      ∧ crew'.phase = .started ∧ c.tree.hasNode "/r" = true := by
  have hways : Run sharedSession (.opening sharedCalls) _ _ :=
    .cons (.go 0 rfl (.begin 0))
      (.cons (.go 0 rfl (.answer rfl id 1 0 smoothReply))
      (.cons (.go 0 rfl (.expire rfl 5))
      (.cons (.go 0 rfl (.answer rfl id 6 0 smoothReply))
      (.nil _))))
  have hpast : Run sharedSession (.opening sharedCalls) (sharedLog.take 4) sharedGivenUp := hways
  have hstart : Served sharedSession ⟨sharedGivenUp, .fresh⟩ _ ⟨_, _⟩ :=
    .cons (.go (.refl _) 1 rfl (.begin 7))
      (.cons (.go (.refl _) 1 rfl
        (.answer rfl (by decide) id 8 0 ⟨0, false, some .connectionLoss, false⟩ (by simp)))
      (.cons (.go (.refl _) 1 rfl (.wake rfl 8))
      (.cons (.go (.refl _) 1 rfl (.answer rfl (by decide) id 9 0 .calm (by simp [Disturbance.calm])))
      (.cons (.go (.refl _) 1 rfl (.answer rfl (by decide) id 10 0 .calm (by simp [Disturbance.calm])))
      (.cons (.go (keeps_seed _ "/r" 0) 1 rfl
        (.answer rfl (by decide) id 11 0 .calm (by simp [Disturbance.calm])))
      (.nil _))))))
  have haccepted := (settles_starts hpast 1 none).1 rfl (.ok ()) _ _
    ⟨hstart.run, rfl, rfl, rfl, _, rfl, rfl⟩
  exact ⟨_, _, _, hpast, hstart, haccepted.ok rfl, haccepted.root _ _ hstart rfl⟩

end Run

end Session

end IdMint.Coordination
