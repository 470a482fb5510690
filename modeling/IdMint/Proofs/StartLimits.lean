import IdMint.Proofs.TimeLimits

/-! # Starts under a time limit

A start under a time limit goes on in step with the same start under a later one, or under none. When the
limit strikes, the session is let go of, after the connection was closed if there is one, and the start
fails with that limit. So a limit changes what a start comes to only by striking, and a start that is in
time under one limit is in time under every later one. -/

namespace IdMint.Coordination

namespace Session

/-! ## The programs -/

theorem limitless_onNode (operation : Operation) (path : String) (request : Request β) :
    (onNode operation path request).run.Limitless := by
  rw [run_onNode]
  intro phase
  dsimp only
  by_cases hphase : phase = .started
  · rw [if_pos hphase]
    cases Path.check path with
    | error => trivial
    | ok => exact fun _ => trivial
  · rw [if_neg hphase]
    trivial

theorem limitless_ensurePath (path : String) : (ensurePath path).run.Limitless := by
  have hexists : (pathExists path).run.Limitless := by
    rw [run_pathExists]
    exact (limitless_onNode _ _ _).bind fun _ => trivial
  rw [run_ensurePath]
  refine hexists.bind ?_
  rintro (cause | _ | _)
  · trivial
  · exact (limitless_onNode _ _ _).bind fun _ => trivial
  · trivial

theorem limitless_establish (s : Session) : (establish s).run.Limitless := by
  rw [run_establish]
  rintro (cause | value)
  · trivial
  · exact limitless_ensurePath s.rootPath

theorem limitless_abandon (cause : Error) : (abandon cause).Limitless := by
  rw [abandon_eq]
  rintro (_ | _)
  · exact fun _ => trivial
  · exact fun _ _ => trivial

theorem limitless_conclude (result : Outcome Unit) : (conclude result).Limitless := by
  cases result with
  | error cause => exact limitless_abandon cause
  | ok => exact fun _ => trivial

/-- What a start that took hold of the session does under its time limit. -/
def establishAndLift (s : Session) : Program (Outcome Unit) :=
  (establish s).run.bind fun result => .disarm (conclude result)

theorem unarmed_establishAndLift (s : Session) : (establishAndLift s).Unarmed :=
  (limitless_establish s).unarmed.bind fun result => ⟨rfl, (limitless_conclude result).unarmed⟩

/-- Without a time limit it does the same, but lifts none. -/
theorem under_establishAndLift (s : Session) :
    (establishAndLift s).under false = (establish s).run.bind conclude := by
  rw [establishAndLift, Program.under_bind, (limitless_establish s).under_eq]
  congr 1
  funext result
  exact (limitless_conclude result).under_eq false

/-! ## Entering -/

/-- The time limit of a start that begins at a moment. -/
def alarmAt (now : Nat) (limit : Duration) : Alarm (Outcome Unit) :=
  ⟨now + limit.millisCeil, abandon (.connectionTimeout limit)⟩

/-- A longer limit strikes no earlier. -/
theorem moment_alarmAt_le {limit longer : Duration} (h : limit ≤ longer) (now : Nat) :
    (alarmAt now limit).moment ≤ (alarmAt now longer).moment := by
  have hceil : limit.millisCeil ≤ longer.millisCeil :=
    Nat.div_le_div_right (Nat.add_le_add_right (Duration.le_def.mp h) _)
  exact Nat.add_le_add_left hceil now

section

variable (s : Session) (now : Nat) (limit : Duration)

/-- A start comes to its first waiting point under its limit. -/
theorem keeps_start (phase : Phase) :
    ((start s (some limit)).run.advance now phase none).2.Keeps (alarmAt now limit) := by
  rw [run_start, Program.advance]
  split
  · exact (unarmed_establishAndLift s).keeps_advance now .starting (.inr rfl)
  · exact ⟨trivial, .inl rfl⟩

/-- Under another limit, or under none, it comes to the same waiting point. -/
theorem advance_start_under (phase : Phase) (other : Option Duration) :
    (start s other).run.advance now phase none
      = (((start s (some limit)).run.advance now phase none).1,
        ((start s (some limit)).run.advance now phase none).2.under (other.map (alarmAt now))) := by
  rw [run_start, run_start, Program.advance, Program.advance]
  by_cases hphase : phase = .uninitialized
  · rw [if_pos hphase, if_pos hphase]
    cases other with
    | none =>
      refine Eq.trans ?_
        ((unarmed_establishAndLift s).advance_under now .starting (some (alarmAt now limit)))
      show Program.advance now ((establish s).run.bind conclude) _ _ = _
      rw [← under_establishAndLift]
      rfl
    | some other =>
      refine Eq.trans ?_
        ((unarmed_establishAndLift s).advance_under now .starting (some (alarmAt now limit)))
      show Program.advance now (establishAndLift s) _ _ = _
      rw [Option.map_some, Option.isSome_some, Program.under_true]
      rfl
  · rw [if_neg hphase, if_neg hphase]
    rfl

end

/-! ## The end of a start that is late -/

theorem advance_letGo (cause : Error) (now : Nat) (phase : Phase) :
    (letGo cause).advance now phase none
      = (if phase = .starting then .uninitialized else phase, ⟨.ended (.error cause), none⟩) := by
  rw [letGo, Program.advance]
  split <;> rfl

/-- The call that closes the connection is delivered when it arrives, and the session let go of. -/
theorem endsIn_closing (policy : RetryPolicy) {second : Actor β} (hidle : second.due? = none)
    (stage : Stage) (cause : Error) :
    (Scene.beside second (Actor.settleAt stage
      (.starting, ⟨.calling .close fun _ => letGo cause, none⟩))).EndsIn policy fun last =>
        ∃ moment, last.first = ⟨⟨.ended (.error cause), none⟩, none, some moment⟩ := by
  let actor := (Actor.settleAt stage (.starting, ⟨.calling .close fun _ => letGo cause, none⟩)).2
  obtain ⟨now, round, hstep⟩ := Scene.step?_eq_goOn policy (Scene.beside second (Actor.settleAt stage
    (.starting, ⟨.calling .close fun _ => letGo cause, none⟩))) hidle rfl rfl
  have hdelivered (stage' : Stage) (arrival : Nat) (own : Disturbance) :
      actor.arrive policy stage' (.outbound arrival own) = actor.deliver policy stage' own := by
    have hclosing : actor.isClosing = true := rfl
    simp [Actor.arrive, hclosing]
  apply Scene.EndsIn.of_step? _ (hstep.trans (congrArg (some <| Scene.beside second ·)
    (hdelivered _ (stage.now + (stage.disturbance .close).delay) (stage.disturbance .close))))
  rw [Actor.deliver_eq]
  show (Scene.beside second (Actor.settleAt _ ((letGo cause).advance now .starting none))).EndsIn _ _
  rw [advance_letGo]
  exact Scene.endsIn_ended hidle ⟨now, rfl⟩

/-- A start whose time limit strikes fails with it, at once or as soon as the connection is closed. -/
theorem endsLate_abandon (policy : RetryPolicy) {second : Actor β} (hidle : second.due? = none)
    (now : Nat) (limit : Duration) :
    Scene.EndsLate policy second (alarmAt now limit) fun last => ∃ moment, last.first
      = ⟨⟨.ended (.error (.connectionTimeout limit)), none⟩, none, some moment⟩ := by
  intro stage
  show (Scene.beside second (Actor.settleAt stage
    ((abandon (.connectionTimeout limit)).advance stage.now stage.phase none))).EndsIn policy _
  rw [abandon_eq, Program.advance]
  by_cases hphase : stage.phase = .started
  · rw [if_pos hphase]
    exact endsIn_closing policy hidle stage _
  · rw [if_neg hphase]
    show (Scene.beside second (Actor.settleAt stage
      ((letGo _).advance stage.now stage.phase none))).EndsIn policy _
    rw [advance_letGo]
    exact Scene.endsIn_ended hidle ⟨stage.now, rfl⟩

/-! ## Rehearsals -/

/-- The scene on which a start is rehearsed. -/
def startScene (s : Session) (limit : Option Duration) (stage : Stage) :
    Scene (Outcome Unit) (Option (Outcome Unit)) :=
  Scene.beside (.idle stage.now)
    (Actor.enter { stage with round := stage.round.enter } (start s limit).run)

section

variable {s : Session} {limit : Duration} {stage last : Stage} {steps : Nat}
variable {report : Report (Outcome Unit)}

/-- A start under another limit is rehearsed on the same scene, but for the limit. -/
theorem startScene_under (s : Session) (limit : Duration) (other : Option Duration) (stage : Stage) :
    startScene s other stage
      = (startScene s (some limit) stage).under (other.map (alarmAt stage.now)) := by
  have hadvance := advance_start_under s stage.now limit stage.phase other
  rw [startScene, startScene, Actor.enter, Actor.enter, hadvance]
  exact congrArg (Scene.beside _) (Actor.settle_under _ _)

theorem keeps_startScene (s : Session) (limit : Duration) (stage : Stage) :
    (startScene s (some limit) stage).first.task.Keeps (alarmAt stage.now limit) := by
  show (Actor.settleAt _ _).2.task.Keeps _
  rw [Actor.settleAt, Actor.task_settle]
  exact keeps_start s stage.now limit stage.phase

/-- What a rehearsal reports is what the scene came to at its end. -/
theorem rehearse_start_eq_some_iff {limit : Option Duration} :
    rehearse s.policy steps (start s limit).run none stage = some (report, last)
      ↔ ∃ scene, (startScene s limit stage).finish? s.policy steps = some scene
        ∧ scene.report? stage.now = some report ∧ scene.stage = last := by
  have hnow : (Actor.enter { stage with round := stage.round.enter } (start s limit).run).1.now
      = stage.now := by
    rw [Actor.enter, Actor.settleAt]
    generalize Program.advance _ _ _ _ = step
    obtain ⟨phase, wait, alarm⟩ := step
    cases wait <;> rfl
  have hrehearse := rehearse_eq s.policy steps (start s limit).run stage
  dsimp only at hrehearse
  rw [hnow] at hrehearse
  rw [hrehearse]
  show (Option.bind ((startScene s limit stage).finish? s.policy steps) _) = _ ↔ _
  rw [Option.bind_eq_some_iff]
  refine exists_congr fun scene => and_congr_right fun _ => ?_
  simp only [Option.map_eq_some_iff, Prod.mk.injEq]
  constructor
  · rintro ⟨own, hown, rfl, rfl⟩
    exact ⟨hown, rfl⟩
  · rintro ⟨hown, rfl⟩
    exact ⟨report, hown, rfl, rfl⟩

/-- What is reported of a start is the result of its task. -/
theorem result?_of_report? {began : Nat} {scene : Scene (Outcome Unit) (Option (Outcome Unit))}
    (h : scene.report? began = some report) : scene.first.task.result? = some report.result := by
  unfold Scene.report? at h
  split at h
  · rename_i hresult hended
    cases h
    exact hresult
  · cases h

/-- The time limit is not part of what is reported. -/
theorem report?_under {began : Nat} {alarm? : Option (Alarm (Outcome Unit))}
    (scene : Scene (Outcome Unit) (Option (Outcome Unit))) :
    (scene.under alarm?).report? began = scene.report? began := by
  obtain ⟨stage, ⟨⟨wait, own⟩, transit, ended⟩, second⟩ := scene
  cases wait <;> rfl

/-- A start without a time limit does not fail with one. -/
theorem rehearse_start_ne_timeout
    (h : rehearse s.policy steps (start s none).run none stage = some (report, last))
    (span : Duration) : report.result ≠ .error (.connectionTimeout span) := by
  obtain ⟨scene, hfinish, hreport, -⟩ := rehearse_start_eq_some_iff.mp h
  have hyields : (startScene s none stage).first.task.Yields (fun _ => True)
      (EndsStart (fun _ => True) none) := by
    show (Actor.settleAt _ _).2.task.Yields _ _
    rw [Actor.settleAt, Actor.task_settle]
    refine (yields_start (fun _ _ => trivial) none).advance _ _ ?_
    rintro _ ⟨⟩
  have hends := (Scene.yields_of_finish? rfl hyields hfinish).of_result? (result?_of_report? hreport)
  rintro hspan
  rw [hspan] at hends
  rcases hends with hanswered | ⟨limit, hlimit, -⟩
  · cases hanswered
  · cases hlimit

/-- A start under a time limit fails with the limit, or it comes to what it comes to under a longer
limit, or without one. -/
theorem rehearse_start_other (other : Option Duration)
    (hother : ∀ longer, other = some longer → limit ≤ longer)
    (h : rehearse s.policy steps (start s (some limit)).run none stage = some (report, last)) :
    report.result = .error (.connectionTimeout limit)
      ∨ rehearse s.policy steps (start s other).run none stage = some (report, last) := by
  obtain ⟨scene, hfinish, hreport, rfl⟩ := rehearse_start_eq_some_iff.mp h
  have hlater : ∀ later, other.map (alarmAt stage.now) = some later →
      (alarmAt stage.now limit).moment ≤ later.moment := by
    intro later hlater
    obtain ⟨longer, hlonger, rfl⟩ := Option.map_eq_some_iff.mp hlater
    exact moment_alarmAt_le (hother longer hlonger) stage.now
  rcases Scene.finish?_under rfl rfl (keeps_startScene s limit stage) (limitless_abandon _).unarmed
    (endsLate_abandon s.policy rfl stage.now limit) hlater hfinish with ⟨moment, hfirst⟩ | hfinish'
  · have hresult := result?_of_report? hreport
    rw [hfirst] at hresult
    exact .inl (Option.some.inj hresult).symm
  · rw [← startScene_under] at hfinish'
    refine .inr (rehearse_start_eq_some_iff.mpr ⟨_, hfinish', ?_, rfl⟩)
    rw [report?_under]
    exact hreport

end

/-! ## What a time limit changes -/

/-- The start fails with its time limit. -/
def TimesOut (s : Session) (limit : Duration) (stage : Stage) : Prop :=
  ∃ steps report last, rehearse s.policy steps (start s (some limit)).run none stage
      = some (report, last)
    ∧ report.result = .error (.connectionTimeout limit)

theorem TimesOut.shorter {s : Session} {limit longer : Duration} {stage : Stage}
    (h : TimesOut s longer stage) (hle : limit ≤ longer) : TimesOut s limit stage := by
  obtain ⟨steps, report, last, hrehearse, hresult⟩ := h
  obtain ⟨scene, hfinish, hreport, -⟩ := rehearse_start_eq_some_iff.mp hrehearse
  rw [startScene_under s limit] at hfinish
  have hlater : ∀ later, (some longer).map (alarmAt stage.now) = some later →
      (alarmAt stage.now limit).moment ≤ later.moment := by
    rintro _ ⟨⟩
    exact moment_alarmAt_le hle stage.now
  obtain ⟨more, own, hown, hcases⟩ := Scene.endsIn_of_finish?_under rfl rfl
    (keeps_startScene s limit stage) (limitless_abandon _).unarmed
    (endsLate_abandon s.policy rfl stage.now limit) hlater hfinish
  have hsame (hown' : own.report? stage.now = some report) : TimesOut s limit stage := by
    have hstart := rehearse_start_eq_some_iff.mpr ⟨own, hown, hown', rfl⟩
    rcases rehearse_start_other none nofun hstart with hlate | hnone
    · exact ⟨more, report, own.stage, hstart, hlate⟩
    · exact absurd hresult (rehearse_start_ne_timeout hnone longer)
  rcases hcases with ⟨moment, hfirst⟩ | hunder
  · refine ⟨more, ⟨.error (.connectionTimeout limit), moment - stage.now,
      own.second.task.result?.join⟩, own.stage, rehearse_start_eq_some_iff.mpr ⟨own, hown, ?_, rfl⟩, rfl⟩
    simp [Scene.report?, hfirst, Task.result?]
  · rw [← hunder, report?_under] at hreport
    exact hsame hreport

/-- What is said of a start under a time limit on a stage. -/
structure KeepsToLimit (s : Session) (limit : Duration) (stage : Stage) : Prop where
  /-- A start that comes to an end fails with the limit, or it comes to the same report, in the same
  number of steps, as without a limit, and leaves the same stage: the phase, the service, and the log
  of the calls made. -/
  same : ∀ steps report last,
    rehearse s.policy steps (start s (some limit)).run none stage = some (report, last) →
      report.result = .error (.connectionTimeout limit)
        ∨ rehearse s.policy steps (start s none).run none stage = some (report, last)
  /-- A start that does not fail with the limit comes to the same under every longer one. -/
  longer : ∀ longer, limit ≤ longer → ∀ steps report last,
    rehearse s.policy steps (start s (some limit)).run none stage = some (report, last) →
      report.result ≠ .error (.connectionTimeout limit) →
      rehearse s.policy steps (start s (some longer)).run none stage = some (report, last)
        ∧ ∀ span, report.result ≠ .error (.connectionTimeout span)
  /-- A start that does not fail with the limit, be it because it never ends, does not fail with any
  longer one. -/
  inTime : ¬ TimesOut s limit stage → ∀ longer, limit ≤ longer → ¬ TimesOut s longer stage

/-- **A time limit changes a start only by striking it.** Whatever a session finds on the stage, however
long sleeps last there and whatever befalls its calls, a start under a time limit fails with that limit
or is the start without one; and where one limit does not strike, no longer one does. -/
theorem keeps_to_limit (s : Session) (limit : Duration) (stage : Stage) : KeepsToLimit s limit stage where
  same _ _ _ h := rehearse_start_other none nofun h
  longer longer hle steps report last h htime := by
    have hlonger := rehearse_start_other (some longer) (by rintro _ ⟨⟩; exact hle) h
    have hnone := (rehearse_start_other none nofun h).resolve_left htime
    exact ⟨hlonger.resolve_left htime, rehearse_start_ne_timeout hnone⟩
  inTime htime _ hle h := htime (h.shorter hle)

/-- A session that repeats a call once, after a sleep of a tenth of a second. -/
def patientSession : Session :=
  ⟨{ CoordinationSettings.standard with rootName := "r" }, .nTimes 1 (.ofMillis 100)⟩

/-- A new service that loses its first connection. -/
def lossyStage : Stage :=
  .opening .fresh (Plan.calm.append .connect [⟨0, false, some .connectionLoss, false⟩])

/-- A sleep that ends just when the time limit strikes is in time, and so is everything that takes no
time after it; a limit that is shorter by a millisecond strikes. -/
theorem keeps_to_limit_boundary :
    KeepsToLimit patientSession (.ofMillis 100) lossyStage
      ∧ (∃ last, rehearse patientSession.policy 9 (start patientSession (some (.ofMillis 100))).run none
          lossyStage = some (⟨.ok (), 100, none⟩, last)
        ∧ rehearse patientSession.policy 9 (start patientSession none).run none lossyStage
          = some (⟨.ok (), 100, none⟩, last))
      ∧ TimesOut patientSession (.ofMillis 99) lossyStage := by
  have h := keeps_to_limit patientSession (.ofMillis 100) lossyStage
  have hstart : ∃ last, rehearse patientSession.policy 9
      (start patientSession (some (.ofMillis 100))).run none lossyStage
        = some (⟨.ok (), 100, none⟩, last) := ⟨_, rfl⟩
  obtain ⟨last, hlast⟩ := hstart
  refine ⟨h, ⟨last, hlast, (h.same 9 _ last hlast).resolve_left nofun⟩, ?_⟩
  exact ⟨9, _, _, rfl, rfl⟩

end Session

end IdMint.Coordination
