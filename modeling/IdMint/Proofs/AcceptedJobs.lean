import IdMint.CommandLine.Run
import IdMint.Proofs.CounterDraws
import IdMint.Proofs.FreshSequences
import IdMint.Proofs.IdentifierTexts

/-! # Jobs that validation accepts

The front end validates the options of a run before any generator sees them, and the generators check
their arguments again. What validation accepts passes these checks, with two exceptions: validation has
no upper bound for the step of a counter, and does not look at the path that a scope, a name and a key
make up. -/

namespace IdMint

/-! ## Errors about arguments -/

namespace Error

/-- The error says that an argument or a setting is not what it has to be: a key, a count, an address, a
kind of retry policy, a path, or the number of a field, a step or a width. -/
def BlamesArgument : Error → Prop
  | emptyKey _ | countOutOfRange _ _ | missingConnectString | unsupportedRetryType _ => True
  | coordination (.invalidPath _ _) => True
  | invalidArgument (.fieldTooLarge _ _ _) | invalidArgument (.stepOutOfRange _) => True
  | invalidArgument .lengthZero => True
  | partialBatch _ cause => cause.BlamesArgument
  | _ => False

/-- A batch that fails blames what its failure blames. -/
theorem blamesArgument_interrupted {issued : List String} {cause : Error} :
    (Batch.interrupted issued cause).BlamesArgument ↔ cause.BlamesArgument := by
  cases issued <;> rfl

end Error

/-- An outcome that blames no argument. -/
def Spares (outcome : Outcome α) : Prop := ∀ cause, outcome = .error cause → ¬ cause.BlamesArgument

theorem spares_ok (a : α) : Spares (.ok a) := nofun

theorem spares_error {cause : Error} (h : ¬ cause.BlamesArgument) :
    Spares (.error cause : Outcome α) := by
  rintro _ ⟨⟩
  exact h

/-- The refusal of a path blames the path. -/
theorem Coordination.Path.blamesArgument_of_check {path : String} {fault : Coordination.Fault}
    (h : check path = .error fault) : (Error.coordination fault).BlamesArgument := by
  rw [check] at h
  cases hfault : fault? path.toList with
  | none =>
    rw [hfault] at h
    cases h
  | some reason =>
    rw [hfault] at h
    cases h
    trivial

/-! ## Generators -/

/-- What goes wrong with a wall clock is the system clock. -/
theorem WallClock.spares_ofEpoch (epoch : Duration) (now : UInt64) : Spares (ofEpoch epoch now) := by
  simp only [ofEpoch]
  split
  · exact spares_error id
  · exact spares_ok _

namespace Generator

variable {σ : Type} [TimeSource σ]

/-- What goes wrong with a generator is the clock. -/
theorem spares_next {patience : Nat} {g : Generator} {clock : σ} {result : Outcome PackedId}
    {s : Generator × σ} (h : next patience (g, clock) = some (result, s)) : Spares result := by
  induction patience generalizing g clock with
  | zero => cases h
  | succ patience ih =>
    rw [next_succ] at h
    rcases hpoll : g.poll (TimeSource.read clock).1 with ⟨cause | (id | wait), g'⟩
    · rw [hpoll] at h
      cases h
      obtain rfl | rfl := eq_of_poll_error hpoll <;> exact spares_error id
    · rw [hpoll] at h
      cases h
      exact spares_ok id
    · rw [hpoll] at h
      exact ih h

/-- What goes wrong with a batch of a generator is the clock. -/
theorem spares_collectAfter {patience count : Nat} {issued : List String} {g : Generator} {clock : σ}
    {result : Outcome (List String)} {s : Generator × σ}
    (h : Batch.collectAfter (nextText patience) issued count (g, clock) = some (result, s)) :
    Spares result := by
  induction count generalizing issued g clock with
  | zero =>
    cases h
    exact spares_ok issued
  | succ count ih =>
    rw [collectAfter_nextText_succ, nextText_apply] at h
    cases hnext : next patience (g, clock) with
    | none =>
      rw [hnext] at h
      cases h
    | some drawn =>
      obtain ⟨drawn, g', clock'⟩ := drawn
      have hspares := spares_next hnext
      rw [hnext] at h
      cases drawn with
      | ok id => exact ih h
      | error cause =>
        cases h
        exact spares_error (Error.blamesArgument_interrupted.not.mpr (hspares cause rfl))

end Generator

namespace Counter

/-- What goes wrong with a store's answer is the store. -/
theorem spares_ofAnswer (answer : Except Fault (List ReplyValue)) (length : UInt64) :
    Spares (ofAnswer answer length) := by
  unfold ofAnswer
  split
  · exact spares_ok _
  · exact spares_error id

variable {σ : Type} [Store σ]

/-- What goes wrong with a counter whose arguments pass the checks is the store. -/
theorem spares_next {key : String} {step length : UInt64} (h : checkCall key step length = .ok ())
    (store : σ) : Spares (next key step length store).1 := by
  simp only [next, h]
  exact spares_ofAnswer _ length

theorem spares_collectAfter {key : String} {step length : UInt64}
    (h : checkCall key step length = .ok ()) (issued : List String) (count : Nat) (store : σ) :
    Spares (Batch.collectAfter (next key step length) issued count store).1 := by
  induction count generalizing issued store with
  | zero => exact spares_ok issued
  | succ count ih =>
    have hnext := spares_next h store
    simp only [Batch.collectAfter, bind, StateT.bind]
    rcases hdrawn : next key step length store with ⟨cause | id, store'⟩
    · rw [hdrawn] at hnext
      exact spares_error (Error.blamesArgument_interrupted.not.mpr (hnext cause rfl))
    · exact ih (issued ++ [id]) store'

end Counter

/-! ## Accepted options -/

namespace CommandLine.Job

/-- What validation makes sure of. -/
structure Passes (job : Job) : Prop where
  /-- The number of identifiers is one that a batch takes. -/
  count : Batch.checkCount job.count = .ok ()
  /-- The location is one that a packed identifier has room for. -/
  location : ∃ l, Location.ofNumbers job.locals.datacenter job.locals.machine = .ok l
  /-- Counters and sequence numbers have a key. -/
  key : job.strategy ≠ .localIds → ∃ composite,
    CompositeKey.ofParts job.counter.scope job.name job.key = .ok composite
  /-- Counters and sequence numbers have the same scope. -/
  scope : job.coordination.rootName = job.counter.scope
  /-- A counter has a step and a width. -/
  counter : job.strategy = .counter → job.counter.step ≠ 0 ∧ job.counter.length ≠ 0
  /-- The retry settings name a policy. -/
  policy : ∃ policy, RetryPolicy.ofSettings job.coordination.retry = .ok policy
  /-- A sequence has an address. -/
  address : job.strategy = .sequence → Text.allBlank job.coordination.connectString = false

theorem of_checkRanges {o : Options} (h : checkRanges o = .ok ()) :
    Batch.checkCount o.count = .ok () ∧ ∃ l, Location.ofNumbers o.datacenter o.machine = .ok l := by
  unfold checkRanges at h
  by_cases hcount : o.count = 0 ∨ Batch.limit < o.count
  · rw [if_pos hcount] at h
    cases h
  by_cases hd : IdField.datacenter.greatest < o.datacenter
  · rw [if_neg hcount, if_pos hd] at h
    cases h
  by_cases hm : IdField.machine.greatest < o.machine
  · rw [if_neg hcount, if_neg hd, if_pos hm] at h
    cases h
  · refine ⟨if_neg hcount, ⟨o.datacenter, o.machine, UInt64.not_lt.mp hd, UInt64.not_lt.mp hm⟩, ?_⟩
    exact Location.ofNumbers_eq_ok_iff.mpr ⟨rfl, rfl⟩

theorem of_checkBackend {o : Options} (h : checkBackend o = .ok ()) (hstrategy : o.strategy ≠ .localIds) :
    o.scope.isEmpty = false ∧ o.name.isEmpty = false ∧ o.key.isEmpty = false := by
  unfold checkBackend at h
  rw [if_neg hstrategy] at h
  by_cases hshared : o.inProcess = true
  swap
  · rw [if_neg hshared] at h
    cases h
  by_cases hscope : o.scope.isEmpty = true
  · rw [if_pos hshared, if_pos hscope] at h
    cases h
  by_cases hname : o.name.isEmpty = true
  · rw [if_pos hshared, if_neg hscope, if_pos hname] at h
    cases h
  by_cases hkey : o.key.isEmpty = true
  · rw [if_pos hshared, if_neg hscope, if_neg hname, if_pos hkey] at h
    cases h
  · exact ⟨Bool.eq_false_iff.mpr hscope, Bool.eq_false_iff.mpr hname, Bool.eq_false_iff.mpr hkey⟩

theorem of_checkCounter {o : Options} (h : checkCounter o = .ok ()) (hstrategy : o.strategy = .counter) :
    o.step ≠ 0 ∧ o.length ≠ 0 := by
  unfold checkCounter at h
  rw [if_pos hstrategy] at h
  by_cases hstep : o.step = 0
  · rw [if_pos hstep] at h
    cases h
  by_cases hlength : o.length = 0
  · rw [if_neg hstep, if_pos hlength] at h
    cases h
  · exact ⟨hstep, hlength⟩

theorem of_checkAddress {o : Options} (h : checkAddress o = .ok ()) (hstrategy : o.strategy = .sequence) :
    Text.allBlank o.connectString = false := by
  unfold checkAddress at h
  by_cases hblank : Text.allBlank o.connectString = true
  · rw [if_pos ⟨hstrategy, hblank⟩] at h
    cases h
  · exact Bool.eq_false_iff.mpr hblank

/-- The settings for a kind of retry policy name a policy. -/
theorem exists_policy (choices : RetryChoices) (kind : RetryKind) :
    ∃ policy, RetryPolicy.ofSettings (choices.settings kind) = .ok policy := by
  have htag : (choices.settings kind).tag = kind.tag := rfl
  rw [RetryPolicy.ofSettings, htag, RetryKind.ofTag_tag]
  cases kind <;> exact ⟨_, rfl⟩

/-- Where two steps succeed one after the other, each of them does. -/
theorem exists_of_bind_eq_ok {x : Except ε α} {f : α → Except ε β} {b : β} (h : x >>= f = .ok b) :
    ∃ a, x = .ok a ∧ f a = .ok b := by
  cases x with
  | error cause => cases h
  | ok a => exact ⟨a, rfl, h⟩

/-- Validation makes sure of what it should. -/
theorem passes {o : Options} {job : Job} (h : ofOptions o = .ok job) : job.Passes := by
  obtain ⟨_, hranges, h⟩ := exists_of_bind_eq_ok h
  obtain ⟨_, hbackend, h⟩ := exists_of_bind_eq_ok h
  obtain ⟨_, hcounter, h⟩ := exists_of_bind_eq_ok h
  obtain ⟨kind, -, h⟩ := exists_of_bind_eq_ok h
  obtain ⟨_, haddress, h⟩ := exists_of_bind_eq_ok h
  cases h
  -- each field of the job is what one of the checks has looked at
  refine
    { count := (of_checkRanges hranges).1
      location := (of_checkRanges hranges).2
      key := ?_
      scope := rfl
      counter := of_checkCounter hcounter
      policy := exists_policy o.retry kind
      address := of_checkAddress haddress }
  intro hstrategy
  obtain ⟨hscope, hname, hkey⟩ := of_checkBackend hbackend hstrategy
  refine ⟨⟨CompositeKey.join o.scope o.name o.key⟩, ?_⟩
  simp [CompositeKey.ofParts, describe, hscope, hname, hkey]

/-! ## Runs of accepted jobs -/

variable {job : Job}

/-- What is reported of an accepted job for local identifiers is the clock. -/
theorem Passes.spares_localIds (h : job.Passes) {s : Surroundings} {cause : Error}
    (hids : job.localIds s = some (.error (.reported cause))) : ¬ cause.BlamesArgument := by
  rw [localIds] at hids
  cases hwall : WallClock.ofEpoch (.ofMillis standardEpoch.toNat) (systemMillis (s.times 0)) with
  | error cause =>
    have hclock := WallClock.spares_ofEpoch (.ofMillis standardEpoch.toNat) (systemMillis (s.times 0))
    rw [hwall] at hids
    cases hids
    exact hclock cause hwall
  | ok wall =>
    obtain ⟨l, hl⟩ := h.location
    simp only [hwall, LocalIds.ofSettings, hl, Except.map] at hids
    obtain ⟨⟨drawn, rest⟩, hdraw, heq⟩ := Option.map_eq_some_iff.mp hids
    cases drawn with
    | ok texts =>
      -- the batch succeeded, and its identifiers are readable
      obtain ⟨issued, rfl⟩ := LocalIds.exists_of_nextMany hdraw
      cases heq.symm.trans (job.showIds_texts (WallClock.epoch_of_ofEpoch hwall) issued)
    | error own =>
      cases heq
      have hnumbers : Location.ofNumbers l.datacenter l.machine = .ok l := Location.ofNumbers_self l
      simp only [LocalIds.nextMany, LocalIds.nextManyFor, h.count, StateT.run,
        Generator.nextTexts_of_le (Batch.fits_of_checkCount h.count)] at hdraw
      obtain ⟨registry, clock⟩ := rest
      -- the registry refuses no location, so what is drawn is a batch of a generator
      obtain ⟨_, hrefused, -⟩ | ⟨own, g, -, hg, -⟩ := Registry.drawFrom_eq_some hdraw
      · rw [hnumbers] at hrefused
        cases hrefused
      · exact Generator.spares_collectAfter hg cause rfl

/-- A composite key that is accepted passes the check of composite keys. -/
theorem check_composite {scope name key : String} {composite : CompositeKey}
    (h : CompositeKey.ofParts scope name key = .ok composite) :
    CompositeKey.check composite.text = .ok () := by
  rw [Coordination.Sequence.text_of_ofParts h]
  have hlong : (CompositeKey.join scope name key).isEmpty = false := by
    rw [Bool.eq_false_iff, ne_eq, String.isEmpty_iff, ← String.toList_inj]
    simp [CompositeKey.join]
  rw [CompositeKey.check, hlong]
  rfl

/-- The first part of a composite key that is accepted is not empty. -/
theorem scope_of_ofParts {scope name key : String} {composite : CompositeKey}
    (h : CompositeKey.ofParts scope name key = .ok composite) : ¬ scope.isEmpty = true := by
  intro hscope
  rw [CompositeKey.ofParts, if_pos hscope] at h
  cases h

/-- The issuer of an accepted job for counters is refused exactly if the step is too great. -/
theorem Passes.ofSettings_counter (h : job.Passes) (hstrategy : job.strategy = .counter) :
    Counter.Issuer.ofSettings job.counter = if Counter.greatestStep < job.counter.step then
      .error (.invalidArgument (.stepOutOfRange job.counter.step)) else .ok ⟨job.counter⟩ := by
  obtain ⟨composite, hparts⟩ := h.key (by rw [hstrategy]; nofun)
  obtain ⟨hzero, hlength⟩ := h.counter hstrategy
  have hwidth : Counter.checkLength job.counter.length = .ok () := if_neg hlength
  rw [Counter.Issuer.ofSettings, if_neg (scope_of_ofParts hparts), hwidth]
  by_cases hstep : Counter.greatestStep < job.counter.step
  · rw [Counter.checkStep, if_pos (.inr hstep), if_pos hstep]
    rfl
  · rw [Counter.checkStep, if_neg (not_or.mpr ⟨hzero, hstep⟩), if_neg hstep]
    rfl

/-- What goes wrong with an accepted job for counters is the store, unless the step is too great. -/
theorem Passes.spares_counterIds (h : job.Passes) (hstrategy : job.strategy = .counter)
    (hstep : ¬ Counter.greatestStep < job.counter.step) (s : Surroundings) :
    Spares (job.counterIds s) := by
  obtain ⟨composite, hparts⟩ := h.key (by rw [hstrategy]; nofun)
  obtain ⟨hzero, hlength⟩ := h.counter hstrategy
  have hcheck : Counter.checkStep job.counter.step = .ok () := if_neg (not_or.mpr ⟨hzero, hstep⟩)
  have hwidth : Counter.checkLength job.counter.length = .ok () := if_neg hlength
  have hcall : Counter.checkCall composite.text job.counter.step job.counter.length = .ok () := by
    rw [Counter.checkCall, check_composite hparts, hcheck, hwidth]
    rfl
  rw [counterIds, h.ofSettings_counter hstrategy, if_neg hstep]
  show Spares (Counter.Issuer.nextManyFor _ _ _ _ _ _ _).1
  simp only [Counter.Issuer.nextManyFor, hparts, Counter.nextMany, Batch.accept_of_ok h.count]
  exact Counter.spares_collectAfter hcall [] _ _

/-- An accepted job for counters whose step is too great fails on the step. -/
theorem Passes.counterIds_of_lt (h : job.Passes) (hstrategy : job.strategy = .counter)
    (hstep : Counter.greatestStep < job.counter.step) (s : Surroundings) :
    job.counterIds s = .error (.invalidArgument (.stepOutOfRange job.counter.step)) := by
  rw [counterIds, h.ofSettings_counter hstrategy, if_pos hstep]
  rfl

open Coordination in
/-- The program of a job for sequence numbers comes to what its draws come to. -/
theorem comes_sequenceProgram (s : Session) (hroot : Path.check s.rootPath = .ok ())
    (hname : s.settings.rootName ≠ "") {result : Outcome (List String)}
    (hdraws : ∀ c : Coordinator, c.connected = true → (∀ path, c.versionAt path = 0) →
      ∃ calls c', calls ≤ job.count.toNat + 2
        ∧ (Sequence.nextManyFor s job.name job.key job.count).run.Comes .started c calls result
          .started c') :
    ∃ calls c', calls < job.sequenceSteps
      ∧ (job.sequenceProgram s).Comes .uninitialized .fresh calls result .closed c' := by
  obtain ⟨first, c₁, hfirst, hstart, hconnected, hversions⟩ :=
    Session.comes_start hroot (Session.rootPath_ne_root hname) job.startLimit .fresh
  have hnew (path : String) : c₁.versionAt path = 0 := by
    rw [hversions, Coordinator.versionAt, NodeTree.versionAt]
    simp [Coordinator.fresh]
  obtain ⟨drawn, c₂, hdrawn, hresult⟩ := hdraws c₁ hconnected hnew
  obtain ⟨c₃, hclose⟩ := Session.comes_close c₂
  -- three calls for the start, two beside the draws, and one to close
  refine ⟨first + (drawn + 1), c₃, by rw [sequenceSteps]; omega, ?_⟩
  exact hstart.bind (hresult.bind (hclose.bind (.finish _ _ _) rfl) rfl) rfl

/-- The path of the node that holds the sequence numbers of a job. -/
def nodePath (job : Job) : String :=
  "/" ++ job.coordination.rootName ++ "/"
    ++ CompositeKey.join job.coordination.rootName job.name job.key

theorem Passes.rootName_ne (h : job.Passes) (hstrategy : job.strategy = .sequence) :
    job.coordination.rootName ≠ "" := by
  obtain ⟨composite, hparts⟩ := h.key (by rw [hstrategy]; nofun)
  rw [h.scope]
  intro hscope
  exact scope_of_ofParts hparts (String.isEmpty_iff.mpr hscope)

open Coordination in
/-- The session of an accepted job for sequence numbers is refused only for its root path. -/
theorem Passes.ofSettings_coordination (h : job.Passes) (hstrategy : job.strategy = .sequence) :
    (∃ fault, Path.check ("/" ++ job.coordination.rootName) = .error fault
        ∧ Session.ofSettings job.coordination = .error (.coordination fault))
      ∨ ∃ policy, Path.check ("/" ++ job.coordination.rootName) = .ok ()
        ∧ Session.ofSettings job.coordination = .ok ⟨job.coordination, policy⟩ := by
  obtain ⟨policy, hpolicy⟩ := h.policy
  have hblank : ¬ Text.allBlank job.coordination.connectString = true := by
    rw [h.address hstrategy]
    nofun
  have hscope : ¬ job.coordination.rootName.isEmpty = true := by
    rw [String.isEmpty_iff]
    exact h.rootName_ne hstrategy
  rw [Session.ofSettings, if_neg hblank, if_neg hscope, hpolicy]
  cases hroot : Path.check ("/" ++ job.coordination.rootName) with
  | error fault => exact .inl ⟨fault, rfl, rfl⟩
  | ok => exact .inr ⟨policy, rfl, rfl⟩

theorem toNat_le_of_checkCount {count : UInt64} (h : Batch.checkCount count = .ok ()) :
    count.toNat ≤ 1000 := by
  unfold Batch.checkCount at h
  split at h
  · cases h
  · rename_i hin
    exact UInt64.le_iff_toNat_le.mp (UInt64.not_lt.mp (not_or.mp hin).2)

open Coordination in
/-- A rehearsal of the program of a job for sequence numbers comes to what its draws come to. -/
theorem sequenceIds_of_comes {policy : RetryPolicy}
    (hsession : Session.ofSettings job.coordination = .ok ⟨job.coordination, policy⟩)
    {result : Outcome (List String)} {phase : Phase} {c : Coordinator} {calls : Nat}
    (hcalls : calls < job.sequenceSteps)
    (h : (job.sequenceProgram ⟨job.coordination, policy⟩).Comes .uninitialized .fresh calls result phase
      c) : job.sequenceIds = some result := by
  have hopening : (Stage.opening .fresh .calm).plan = .calm := rfl
  obtain ⟨report, last, hrehearse, rfl, -⟩ := rehearse_of_comes policy hopening h
  simp only [sequenceIds, hsession, hrehearse _ hcalls, Option.map_some]

open Coordination in
/-- The draws of an accepted job for sequence numbers are draws for the composite key. -/
theorem Passes.run_nextManyFor (h : job.Passes) (hstrategy : job.strategy = .sequence)
    (policy : RetryPolicy) :
    ∃ key, CompositeKey.check key = .ok ()
      ∧ Session.nodePath ⟨job.coordination, policy⟩ key = job.nodePath
      ∧ (Sequence.nextManyFor ⟨job.coordination, policy⟩ job.name job.key job.count).run
        = (Sequence.nextMany ⟨job.coordination, policy⟩ key job.count).run := by
  obtain ⟨composite, hparts⟩ := h.key (by rw [hstrategy]; nofun)
  rw [← h.scope] at hparts
  refine ⟨composite.text, check_composite hparts, ?_, ?_⟩
  · rw [Sequence.text_of_ofParts hparts]
    rfl
  · rw [Sequence.nextManyFor, run_lift_bind, hparts]

open Coordination in
/-- The root path of a job is valid where the path of its node is. -/
theorem check_root_of_nodePath (h : Path.check job.nodePath = .ok ()) :
    Path.check ("/" ++ job.coordination.rootName) = .ok () :=
  Session.check_rootPath_of_nodePath (s := ⟨job.coordination, .forever .zero⟩) h

open Coordination in
/-- An accepted job for sequence numbers issues the numbers from one on, if the path of its node is
valid. -/
theorem Passes.sequenceIds_of_valid (h : job.Passes) (hstrategy : job.strategy = .sequence)
    (hpath : Path.check job.nodePath = .ok ()) :
    job.sequenceIds = some (.ok ((List.range' 1 job.count.toNat).map toString)) := by
  obtain ⟨fault, hroot, -⟩ | ⟨policy, hroot, hsession⟩ := h.ofSettings_coordination hstrategy
  · rw [check_root_of_nodePath hpath] at hroot
    cases hroot
  obtain ⟨key, hkey, hnode, hrun⟩ := h.run_nextManyFor hstrategy policy
  have hcount := toNat_le_of_checkCount h.count
  rw [← hnode] at hpath
  have hdraws (c : Coordinator) (hconnected : c.connected = true)
      (hnew : ∀ path, c.versionAt path = 0) :
      ∃ calls c', calls ≤ job.count.toNat + 2 ∧
        (Sequence.nextManyFor ⟨job.coordination, policy⟩ job.name job.key job.count).run.Comes .started
          c calls (.ok ((List.range' 1 job.count.toNat).map toString)) .started c' := by
    rw [hrun]
    exact Sequence.comes_nextMany _ h.count hkey hpath hconnected (hnew _) (by omega)
  obtain ⟨calls, c', hcalls, hcomes⟩ := comes_sequenceProgram ⟨job.coordination, policy⟩ hroot
    (h.rootName_ne hstrategy) hdraws
  exact sequenceIds_of_comes hsession hcalls hcomes

open Coordination in
/-- An accepted job for sequence numbers fails on the path of its node, if that is not valid. -/
theorem Passes.sequenceIds_of_invalid (h : job.Passes) (hstrategy : job.strategy = .sequence)
    (hpath : Path.check job.nodePath ≠ .ok ()) :
    ∃ cause, cause.BlamesArgument ∧ job.sequenceIds = some (.error cause) := by
  obtain ⟨fault, hroot, hsession⟩ | ⟨policy, hroot, hsession⟩ := h.ofSettings_coordination hstrategy
  · -- the root path is not valid either, and there is no session
    refine ⟨.coordination fault, Path.blamesArgument_of_check hroot, ?_⟩
    rw [sequenceIds, hsession]
  obtain ⟨key, hkey, hnode, hrun⟩ := h.run_nextManyFor hstrategy policy
  cases hfault : Path.check job.nodePath with
  | ok => exact absurd hfault hpath
  | error fault =>
    refine ⟨.coordination fault, Path.blamesArgument_of_check hfault, ?_⟩
    rw [← hnode] at hfault
    have hdraws (c : Coordinator) (_ : c.connected = true) (_ : ∀ path, c.versionAt path = 0) :
        ∃ calls c', calls ≤ job.count.toNat + 2 ∧
          (Sequence.nextManyFor ⟨job.coordination, policy⟩ job.name job.key job.count).run.Comes .started
            c calls (.error (.coordination fault)) .started c' := by
      rw [hrun]
      exact ⟨0, c, Nat.zero_le _, Sequence.comes_nextMany_invalid _ h.count hkey hfault⟩
    obtain ⟨calls, c', hcalls, hcomes⟩ := comes_sequenceProgram ⟨job.coordination, policy⟩ hroot
      (h.rootName_ne hstrategy) hdraws
    exact sequenceIds_of_comes hsession hcalls hcomes

/-! ## What validation overlooks -/

/-- A job reports the error with which its identifiers fail. -/
@[simp] theorem mapError_reported_eq_error_iff {outcome : Outcome α} {cause : Error} :
    outcome.mapError Failure.reported = .error (.reported cause) ↔ outcome = .error cause := by
  cases outcome <;> simp [Except.mapError]

/-- What validation does not look at: a step that is too great, and the path of the node. -/
def Overlooked (job : Job) : Prop :=
  job.strategy = .counter ∧ Counter.greatestStep < job.counter.step
    ∨ job.strategy = .sequence ∧ Coordination.Path.check job.nodePath ≠ .ok ()

/-- An accepted job for counters fails on an argument exactly if its step is too great. -/
theorem Passes.counterIds_blames_iff (h : job.Passes) (hstrategy : job.strategy = .counter)
    (s : Surroundings) :
    (∃ cause, job.counterIds s = .error cause ∧ cause.BlamesArgument)
      ↔ Counter.greatestStep < job.counter.step := by
  constructor
  · rintro ⟨cause, hids, hblames⟩
    by_contra hstep
    exact h.spares_counterIds hstrategy hstep s cause hids hblames
  · intro hstep
    exact ⟨_, h.counterIds_of_lt hstrategy hstep s, trivial⟩

/-- An accepted job for sequence numbers fails on an argument exactly if the path of its node is not
valid. -/
theorem Passes.sequenceIds_blames_iff (h : job.Passes) (hstrategy : job.strategy = .sequence) :
    (∃ cause, job.sequenceIds = some (.error cause) ∧ cause.BlamesArgument)
      ↔ Coordination.Path.check job.nodePath ≠ .ok () := by
  constructor
  · rintro ⟨cause, hids, -⟩ hpath
    rw [h.sequenceIds_of_valid hstrategy hpath] at hids
    cases hids
  · intro hpath
    obtain ⟨cause, hblames, hids⟩ := h.sequenceIds_of_invalid hstrategy hpath
    exact ⟨cause, hids, hblames⟩

/-- **Validation agrees with the generators but for two things.** Whatever a run of accepted options
finds around it, it fails on an argument exactly if the step of its counter is too great or the path of
its node is not valid. A run for sequence numbers whose path is valid issues them. -/
theorem blamed_iff_overlooked {o : Options} {job : Job} (h : ofOptions o = .ok job) (s : Surroundings) :
    ((∃ cause, job.ids s = some (.error (.reported cause)) ∧ cause.BlamesArgument) ↔ job.Overlooked)
      ∧ (job.strategy = .sequence → Coordination.Path.check job.nodePath = .ok () →
        job.ids s = some (.ok ((List.range' 1 job.count.toNat).map toString))) := by
  have hpasses := passes h
  refine ⟨?_, fun hstrategy hpath => ?_⟩
  · cases hstrategy : job.strategy with
    | localIds =>
      rw [Overlooked, ids, hstrategy]
      refine iff_of_false ?_ (by rintro (⟨hno, -⟩ | ⟨hno, -⟩) <;> cases hno)
      rintro ⟨cause, hids, hblames⟩
      exact hpasses.spares_localIds hids hblames
    | counter =>
      have hiff := hpasses.counterIds_blames_iff hstrategy s
      simpa [Overlooked, ids, hstrategy] using hiff
    | sequence =>
      have hiff := hpasses.sequenceIds_blames_iff hstrategy
      simpa [Overlooked, ids, hstrategy] using hiff
  · rw [ids, hstrategy]
    exact congrArg (Option.map _) (hpasses.sequenceIds_of_valid hstrategy hpath)

/-- Options for sequence numbers of the usual key. -/
def sequenceOptions : Options :=
  { Options.standard with strategy := .sequence, inProcess := true, count := 3 }

/-- Options for sequence numbers that are accepted, and whose run issues the numbers. -/
theorem blamed_iff_overlooked_sequence :
    ofOptions sequenceOptions = .ok (describe sequenceOptions .exponentialBackoff)
      ∧ ∀ s : Surroundings,
        ((∃ cause, (describe sequenceOptions .exponentialBackoff).ids s
            = some (.error (.reported cause)) ∧ cause.BlamesArgument)
          ↔ (describe sequenceOptions .exponentialBackoff).Overlooked)
        ∧ ((describe sequenceOptions .exponentialBackoff).strategy = .sequence →
          Coordination.Path.check (describe sequenceOptions .exponentialBackoff).nodePath = .ok () →
          (describe sequenceOptions .exponentialBackoff).ids s
            = some (.ok ((List.range' 1 3).map toString))) := by
  have haccepted : ofOptions sequenceOptions
      = .ok (describe sequenceOptions .exponentialBackoff) := rfl
  exact ⟨haccepted, blamed_iff_overlooked haccepted⟩

/-- Options for a counter with the first step that is too great. -/
def greatStepOptions : Options :=
  { Options.standard with strategy := .counter, inProcess := true, step := 0x8000000000000000 }

/-- Options for sequence numbers of a key that ends with a slash. -/
def endSlashOptions : Options :=
  { Options.standard with strategy := .sequence, inProcess := true, key := "x/" }

/-- Validation accepts a step that is too great, and a key that makes up no valid path; the runs fail
on them. -/
theorem accepted_and_blamed :
    (ofOptions greatStepOptions = .ok (describe greatStepOptions .exponentialBackoff)
      ∧ ∀ s, (describe greatStepOptions .exponentialBackoff).ids s
        = some (.error (.reported (.invalidArgument (.stepOutOfRange 0x8000000000000000)))))
    ∧ ofOptions endSlashOptions = .ok (describe endSlashOptions .exponentialBackoff)
      ∧ ∀ s, (describe endSlashOptions .exponentialBackoff).ids s
        = some (.error (.reported (.coordination
          (.invalidPath "/idforge/idforge:default:x/" "path must not end with /")))) :=
  ⟨⟨rfl, fun _ => rfl⟩, rfl, fun _ => rfl⟩

end CommandLine.Job

end IdMint
