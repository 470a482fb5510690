import IdMint.Proofs.TaskSteps

/-! # The order that session tasks keep

A task of a session knows the phase while it runs from one waiting point to the next; at a waiting
point other tasks may change it. `Standing` is what a task can rely on. `Program.Orderly` says, by
recursion over a program's tree, that from a standing the program changes the phase and makes calls to
the service only as its role permits, whatever the service answers and whatever other tasks do
meanwhile. A task that is orderly at one waiting point is so at the next one. -/

namespace IdMint.Coordination

/-- What a task of a session is there for. -/
inductive Role
  /-- It starts the session. -/
  | start
  /-- It closes the session. -/
  | close
  /-- It works on nodes. -/
  | node
  deriving DecidableEq, Repr

/-- The call is one that works on nodes. -/
def RequestKind.IsNode (kind : RequestKind) : Prop := kind ≠ .connect ∧ kind ≠ .close

/-! ## Standings -/

/-- How a task stands to the session. -/
@[ext] structure Standing where
  /-- The phase of the session. -/
  phase : Phase
  /-- Whether the task holds the start: it has moved the session from `uninitialized`, and not back. -/
  mine : Bool
  /-- Whether the task has a time limit. -/
  armed : Bool
  /-- Whether the connection is up. -/
  linked : Bool

namespace Standing

/-- The connection is up exactly while the session is started, as it is at every waiting point. -/
def Rested (st : Standing) : Prop := st.linked = decide (st.phase = .started)

/-- While the connection is up the session is not closed. -/
theorem Rested.ne_closed {st : Standing} (h : st.Rested) (hup : st.linked = true) :
    st.phase ≠ .closed := by
  intro hclosed
  rw [h, hclosed] at hup
  cases hup

/-- A start is held only while the session is not back where it began. -/
def Proper (st : Standing) : Prop := st.mine = true → st.phase ≠ .uninitialized

/-- The changes of the phase that the role of a task permits. -/
inductive Change : Role → Standing → Standing → Prop
  /-- A start takes hold of a session that is not initialized. -/
  | take {st : Standing} (hphase : st.phase = .uninitialized) :
    Change .start st { st with phase := .starting, mine := true }
  /-- The holder of the start has connected. -/
  | establish {st : Standing} (hphase : st.phase = .starting) (hmine : st.mine = true) :
    Change .start st { st with phase := .started }
  /-- The holder of the start gives up what it has started. -/
  | withdraw {st : Standing} (hphase : st.phase = .started) (hmine : st.mine = true) :
    Change .start st { st with phase := .starting }
  /-- The holder of the start lets go of it, once no time limit can strike any more. -/
  | release {st : Standing} (hphase : st.phase = .starting) (hmine : st.mine = true)
    (harmed : st.armed = false) :
    Change .start st { st with phase := .uninitialized, mine := false }
  /-- The session is closed. -/
  | close {st : Standing} (hphase : st.phase = .started) :
    Change .close st { st with phase := .closed }

/-- What a standing may have become at the end of a wait, during which other tasks went on. -/
structure Later (st st' : Standing) : Prop where
  mine_eq : st'.mine = st.mine
  armed_eq : st'.armed = st.armed
  rested : st'.Rested
  closed : st.phase = .closed → st'.phase = .closed
  held : st.mine = true → st'.phase = st.phase ∨ st.phase = .started ∧ st'.phase = .closed

theorem Later.refl {st : Standing} (h : st.Rested) : st.Later st :=
  ⟨rfl, rfl, h, id, fun _ => .inl rfl⟩

theorem Later.trans {st st' st'' : Standing} (h : st.Later st') (h' : st'.Later st'') :
    st.Later st'' where
  mine_eq := h'.mine_eq.trans h.mine_eq
  armed_eq := h'.armed_eq.trans h.armed_eq
  rested := h'.rested
  closed hclosed := h'.closed (h.closed hclosed)
  held hmine := by
    have hmine' : st'.mine = true := h.mine_eq.trans hmine
    rcases h.held hmine with heq | ⟨hstarted, hclosed⟩
    · rw [← heq]
      exact h'.held hmine'
    · exact .inr ⟨hstarted, h'.closed hclosed⟩

/-- What a task itself may do to its standing between two waiting points. -/
structure Moved (role : Role) (st st' : Standing) : Prop where
  /-- The start of another task is not touched; the session may be closed. -/
  other : st.mine = false → st.phase ≠ .uninitialized →
    st'.mine = false ∧ (st'.phase = st.phase ∨ st.phase = .started ∧ st'.phase = .closed)
  /-- The start is held as long as the session is not back where it began. -/
  own : st.mine = true ∨ st.phase = .uninitialized →
    st'.mine = decide (st'.phase ≠ .uninitialized)
  closed : st.phase = .closed → st'.phase = .closed
  /-- Only a task that is there for it closes the session. -/
  closes : st'.phase = .closed → st.phase = .closed ∨ role = .close
  /-- Only a task that is there for it brings the session on the way to be started. -/
  starts : st'.phase = .starting → st.phase = .starting ∨ role = .start

/-- Nothing is moved where the phase and the hold on the start stay. -/
theorem Moved.of_eq {role : Role} {st st' : Standing} (hst : st.Proper)
    (hphase : st'.phase = st.phase) (hmine : st'.mine = st.mine) : Moved role st st' where
  other hother _ := ⟨hmine.trans hother, .inl hphase⟩
  own hown := by
    rw [hmine, hphase]
    by_cases hheld : st.mine = true
    · rw [hheld, decide_eq_true (hst hheld)]
    · have hphase := hown.resolve_left hheld
      rw [Bool.eq_false_iff.mpr hheld, hphase]
      rfl
  closed hclosed := hphase.trans hclosed
  closes hclosed := .inl (hphase.symm.trans hclosed)
  starts hstarting := .inl (hphase.symm.trans hstarting)

theorem Moved.refl {role : Role} {st : Standing} (hst : st.Proper) : Moved role st st :=
  .of_eq hst rfl rfl

theorem Moved.trans {role : Role} {st st' st'' : Standing} (h : Moved role st st')
    (h' : Moved role st' st'') : Moved role st st'' where
  other hother hphase := by
    obtain ⟨hother', hphase'⟩ := h.other hother hphase
    -- a start of another task is not undone, so the second move finds it as well
    have hinit : st'.phase ≠ .uninitialized := by
      rcases hphase' with heq | ⟨-, heq⟩
      · rwa [heq]
      · rw [heq]
        decide
    obtain ⟨hother'', hphase''⟩ := h'.other hother' hinit
    refine ⟨hother'', ?_⟩
    rcases hphase' with heq | ⟨hstarted, heq⟩
    · rwa [heq] at hphase''
    · exact .inr ⟨hstarted, h'.closed heq⟩
  own hown := by
    refine h'.own ?_
    by_cases hinit : st'.phase = .uninitialized
    · exact .inr hinit
    · left
      rw [h.own hown, decide_eq_true hinit]
  closed hclosed := h'.closed (h.closed hclosed)
  closes hclosed := by
    rcases h'.closes hclosed with hclosed' | hrole
    · exact h.closes hclosed'
    · exact .inr hrole
  starts hstarting := by
    rcases h'.starts hstarting with hstarting' | hrole
    · exact h.starts hstarting'
    · exact .inr hrole

/-- A move leads from one proper standing to another. -/
theorem Moved.proper {role : Role} {st st' : Standing} (h : Moved role st st') : st'.Proper := by
  intro hmine
  by_cases hown : st.mine = true ∨ st.phase = .uninitialized
  · have hheld := h.own hown
    rw [hmine] at hheld
    exact of_decide_eq_true hheld.symm
  · obtain ⟨hother, hinit⟩ := not_or.mp hown
    rw [(h.other (Bool.eq_false_iff.mpr hother) hinit).1] at hmine
    cases hmine

/-- A change that the role permits is a move. -/
theorem Change.moved {role : Role} {st st' : Standing} (h : Change role st st') :
    Moved role st st' := by
  cases h with
  | take hphase =>
    refine ⟨fun _ hinit => absurd hphase hinit, fun _ => rfl, ?_, nofun, fun _ => .inr rfl⟩
    exact fun hclosed => nomatch hphase.symm.trans hclosed
  | establish hphase hmine | withdraw hphase hmine =>
    refine ⟨?_, fun _ => hmine, ?_, nofun, fun _ => .inr rfl⟩
    · exact fun hother => nomatch hmine.symm.trans hother
    · exact fun hclosed => nomatch hphase.symm.trans hclosed
  | release hphase hmine =>
    refine ⟨?_, fun _ => rfl, ?_, nofun, nofun⟩
    · exact fun hother => nomatch hmine.symm.trans hother
    · exact fun hclosed => nomatch hphase.symm.trans hclosed
  | close hphase =>
    refine ⟨fun hother _ => ⟨hother, .inr ⟨hphase, rfl⟩⟩, ?_, fun _ => rfl, fun _ => .inr rfl, nofun⟩
    intro hown
    exact hown.resolve_right fun hinit => nomatch hphase.symm.trans hinit

/-- A start under a time limit is not let go of. -/
theorem Change.mine_of_armed {role : Role} {st st' : Standing} (h : Change role st st')
    (harmed : st.armed = true) (hmine : st.mine = true) : st'.mine = true := by
  cases h with
  | take => rfl
  | establish | withdraw | close => exact hmine
  | release _ _ hlifted => exact nomatch harmed.symm.trans hlifted

/-- A change leaves the connection alone. -/
theorem Change.linked_eq {role : Role} {st st' : Standing} (h : Change role st st') :
    st'.linked = st.linked ∧ st'.armed = st.armed := by
  cases h <;> exact ⟨rfl, rfl⟩

/-- The holder of a start that is under way finds everything as it was. -/
theorem Later.eq_of_starting {st st' : Standing} (h : st.Later st') (hrested : st.Rested)
    (hmine : st.mine = true) (hphase : st.phase = .starting) : st' = st := by
  have heq : st'.phase = st.phase :=
    (h.held hmine).resolve_right fun hother => nomatch hphase.symm.trans hother.1
  refine Standing.ext heq h.mine_eq h.armed_eq ?_
  rw [h.rested, hrested, heq]

end Standing

/-! ## Programs -/

/-- From the standing, the program changes the phase and makes calls as the role permits, and ends
with a result that fits its standing then. -/
def Program.Orderly (role : Role) (post : Standing → α → Prop) : Standing → Program α → Prop
  | st, finish result => post st result
  | st, observe next => (next st.phase).Orderly role post st
  | st, exchange expected new next =>
    if st.phase = expected then
      ∃ st', Standing.Change role st st' ∧ st'.phase = new ∧ (next true).Orderly role post st'
    else (next false).Orderly role post st
  | st, assign new next =>
    ∃ st', Standing.Change role st st' ∧ st'.phase = new ∧ next.Orderly role post st'
  -- only who has just taken the session out of `started` closes the connection
  | st, call request next =>
    request.kind = .close ∧ st.linked = true
      ∧ (role = .close ∧ st.phase = .closed ∨ role = .start ∧ st.mine = true ∧ st.phase = .starting)
      ∧ ∀ reply st', Standing.Later { st with linked := false } st' →
        (next reply).Orderly role post st'
  -- the holder of the start connects, and everybody works on nodes while the session is started
  | st, persist gate request next =>
    (request.kind = .connect ∧ gate = none ∧ role = .start ∧ st.mine = true ∧ st.phase = .starting
        ∧ st.linked = false
        ∧ (∀ value, (next (.ok value)).Orderly role post { st with linked := true })
        ∧ ∀ cause, (next (.error cause)).Orderly role post st)
      ∨ ∃ operation, gate = some operation ∧ request.kind.IsNode ∧ st.phase = .started
        ∧ st.linked = true
        ∧ ∀ outcome st', Standing.Later st st' → (next outcome).Orderly role post st'
  | _, pause .. => False
  -- a time limit may strike at any waiting point until it is lifted
  | st, arm _ late next =>
    st.mine = true
      ∧ (∀ st' : Standing, st'.mine = true → st'.armed = false → st'.Rested → st'.Proper →
        late.Orderly role post st')
      ∧ next.Orderly role post { st with armed := true }
  | st, disarm next => next.Orderly role post { st with armed := false }

namespace Program

variable {role : Role}

/-- A program that goes on with another one is as orderly as the two are. -/
theorem Orderly.bind {post : Standing → α → Prop} {post' : Standing → β → Prop} {p : Program α}
    {f : α → Program β} {st : Standing} (h : p.Orderly role post st)
    (hf : ∀ st result, post st result → (f result).Orderly role post' st) :
    (p.bind f).Orderly role post' st := by
  induction p generalizing st with
  | finish result => exact hf st result h
  | observe next ih => exact ih st.phase h
  | exchange expected new next ih =>
    simp only [Orderly, Program.bind] at h ⊢
    by_cases hphase : st.phase = expected
    · rw [if_pos hphase] at h ⊢
      obtain ⟨st', hchange, hnew, hnext⟩ := h
      exact ⟨st', hchange, hnew, ih true hnext⟩
    · rw [if_neg hphase] at h ⊢
      exact ih false h
  | assign new next ih =>
    obtain ⟨st', hchange, hnew, hnext⟩ := h
    exact ⟨st', hchange, hnew, ih hnext⟩
  | call request next ih =>
    obtain ⟨hkind, hlinked, hrole, hnext⟩ := h
    exact ⟨hkind, hlinked, hrole, fun reply st' hlater => ih reply (hnext reply st' hlater)⟩
  | persist gate request next ih =>
    rcases h with ⟨hkind, hgate, hrole, hmine, hphase, hlinked, hok, herror⟩
      | ⟨operation, hgate, hkind, hphase, hlinked, hnext⟩
    · exact .inl ⟨hkind, hgate, hrole, hmine, hphase, hlinked, fun value => ih _ (hok value),
        fun cause => ih _ (herror cause)⟩
    · exact .inr ⟨operation, hgate, hkind, hphase, hlinked,
        fun outcome st' hlater => ih outcome (hnext outcome st' hlater)⟩
  | pause => exact h.elim
  | arm limit late next ihl ihn =>
    obtain ⟨hmine, hlate, hnext⟩ := h
    refine ⟨hmine, ?_, ihn hnext⟩
    intro st' hheld hlifted hrested hproper
    exact ihl (hlate st' hheld hlifted hrested hproper)
  | disarm next ih => exact ih h

/-- A program stays orderly where less is asked of its end. -/
theorem Orderly.mono {post post' : Standing → α → Prop} {p : Program α} {st : Standing}
    (h : p.Orderly role post st) (hpost : ∀ st result, post st result → post' st result) :
    p.Orderly role post' st := by
  rw [← p.bind_finish]
  exact h.bind hpost

end Program

/-! ## Tasks -/

section

variable {role : Role} {post : Standing → α → Prop}

/-- The calls that a role permits at a standing, to a task that came there with the connection up
only if `up` holds. -/
structure Permitted (role : Role) (up : Prop) (st : Standing) (issued : Option RequestKind) :
    Prop where
  connect : issued = some .connect → role = .start ∧ st.mine = true ∧ st.phase = .starting
  node : ∀ kind, issued = some kind → kind.IsNode → st.phase = .started
  close : issued = some .close → up
    ∧ (role = .close ∧ st.phase = .closed ∨ role = .start ∧ st.mine = true ∧ st.phase = .starting)

namespace Permitted

variable {up : Prop} {st : Standing} {kind : RequestKind}

/-- To make no call is always permitted. -/
theorem of_none (role : Role) (up : Prop) (st : Standing) : Permitted role up st none :=
  ⟨nofun, nofun, nofun⟩

/-- The holder of a start that is under way may connect. -/
theorem of_connect (hkind : kind = .connect) (hrole : role = .start) (hmine : st.mine = true)
    (hphase : st.phase = .starting) : Permitted role up st (some kind) := by
  subst hkind
  refine ⟨fun _ => ⟨hrole, hmine, hphase⟩, ?_, nofun⟩
  rintro _ ⟨⟩ hnode
  exact absurd rfl hnode.1

/-- Everybody may work on nodes while the session is started. -/
theorem of_node (hkind : kind.IsNode) (hphase : st.phase = .started) :
    Permitted role up st (some kind) := by
  refine ⟨?_, fun _ _ _ => hphase, ?_⟩
  · rintro ⟨⟩
    exact absurd rfl hkind.1
  · rintro ⟨⟩
    exact absurd rfl hkind.2

/-- Who has taken the session out of `started` may close the connection. -/
theorem of_close (hkind : kind = .close) (hup : up)
    (hrole : role = .close ∧ st.phase = .closed
      ∨ role = .start ∧ st.mine = true ∧ st.phase = .starting) :
    Permitted role up st (some kind) := by
  subst hkind
  refine ⟨nofun, ?_, fun _ => ⟨hup, hrole⟩⟩
  rintro _ ⟨⟩ hnode
  exact absurd rfl hnode.2

end Permitted

/-- A call that is repeated is made and goes on in order from the standing. -/
def Persists (role : Role) (post : Standing → α → Prop) (st : Standing) (gate : Option Operation)
    {β : Type} (request : Request β) (next : Outcome β → Program α) : Prop :=
  (request.kind = .connect ∧ gate = none ∧ role = .start ∧ st.mine = true ∧ st.phase = .starting
      ∧ (∀ value, (next (.ok value)).Orderly role post { st with linked := true })
      ∧ ∀ cause, (next (.error cause)).Orderly role post st)
    ∨ ∃ operation, gate = some operation ∧ request.kind.IsNode
      ∧ ∀ outcome st', Standing.Later st st' → (next outcome).Orderly role post st'

/-- What is left of a task at a waiting point goes on in order. -/
def Wait.Orderly (role : Role) (post : Standing → α → Prop) (st : Standing) : Wait α → Prop
  | ended result => ∃ st₀, Standing.Later st₀ st ∧ post st₀ result
  | calling request next => request.kind = .close
    ∧ ∀ reply st', Standing.Later st st' → (next reply).Orderly role post st'
  | trying gate request _ _ next | resting gate request _ _ _ next =>
    Persists role post st gate request next
  | pausing .. => False

/-- What a task does when its time limit strikes is in order whenever it may strike. -/
def Alarm.Orderly (role : Role) (post : Standing → α → Prop) (alarm : Alarm α) : Prop :=
  ∀ st : Standing, st.mine = true → st.armed = false → st.Rested → st.Proper →
    alarm.late.Orderly role post st

/-- A task goes on in order from the standing in which it waits. -/
structure Task.Orderly (role : Role) (post : Standing → α → Prop) (st : Standing) (task : Task α) :
    Prop where
  rested : st.Rested
  proper : st.Proper
  wait : task.wait.Orderly role post st
  armed_eq : st.armed = task.alarm.isSome
  /-- Only the holder of the start has a time limit. -/
  late : ∀ alarm, task.alarm = some alarm → st.mine = true ∧ alarm.Orderly role post

/-- The kind of the call that is in flight. -/
def Wait.inFlight? : Wait α → Option RequestKind
  | calling request _ | trying _ request _ _ _ => some request.kind
  | ended _ | resting .. | pausing .. => none

/-- A task has come to a waiting point in order: its moves were permitted, and so is the call that it
has made there, if it has made one. -/
def Arrives (role : Role) (post : Standing → α → Prop) (up : Prop) (st : Standing)
    (step : Phase × Task α) : Prop :=
  ∃ st', Standing.Moved role st st' ∧ st'.phase = step.1 ∧ step.2.Orderly role post st'
    ∧ Permitted role up st' step.2.wait.inFlight?

/-- A task that comes to a waiting point from a standing to which it has moved comes there from the
standing before, too. -/
theorem Arrives.of_moved {up up' : Prop} {st st' : Standing} {step : Phase × Task α}
    (h : Arrives role post up' st' step) (hmoved : Standing.Moved role st st') (hup : up' → up) :
    Arrives role post up st step := by
  obtain ⟨st'', hmoved', hphase, horderly, hpermitted⟩ := h
  refine ⟨st'', hmoved.trans hmoved', hphase, horderly, hpermitted.connect, hpermitted.node, ?_⟩
  intro hclose
  obtain ⟨hlinked, hrole⟩ := hpermitted.close hclose
  exact ⟨hup hlinked, hrole⟩

/-- A time limit stays in order when its task changes the phase. -/
theorem Standing.Change.late {st st' : Standing} (h : Standing.Change role st st')
    {alarm : Option (Alarm α)} (harmed : st.armed = alarm.isSome)
    (hlate : ∀ a, alarm = some a → st.mine = true ∧ a.Orderly role post) (a : Alarm α)
    (ha : alarm = some a) : st'.mine = true ∧ a.Orderly role post := by
  obtain ⟨hmine, horderly⟩ := hlate a ha
  exact ⟨h.mine_of_armed (by rw [harmed, ha]; rfl) hmine, horderly⟩

/-- An orderly program comes to its next waiting point in order. -/
theorem Program.Orderly.arrives (hpost : ∀ st result, post st result → st.Rested ∧ st.armed = false)
    {p : Program α} {st : Standing} (h : p.Orderly role post st) (hproper : st.Proper) (now : Nat)
    {alarm : Option (Alarm α)} (harmed : st.armed = alarm.isSome)
    (hlate : ∀ a, alarm = some a → st.mine = true ∧ a.Orderly role post) :
    Arrives role post (st.linked = true) st (p.advance now st.phase alarm) := by
  -- over the tree, with the standing and the time limit as they are at each node on the way
  induction p generalizing st alarm with
  | finish result =>
    obtain ⟨hrested, hlifted⟩ := hpost st result h
    exact ⟨st, .of_eq hproper rfl rfl, rfl,
      ⟨hrested, hproper, ⟨st, .refl hrested, h⟩, hlifted, nofun⟩, .of_none _ _ _⟩
  | observe next ih => exact ih st.phase h hproper harmed hlate
  | exchange expected new next ih =>
    simp only [Orderly] at h
    rw [advance]
    by_cases hphase : st.phase = expected
    · rw [if_pos hphase] at h ⊢
      obtain ⟨st', hchange, rfl, hnext⟩ := h
      obtain ⟨hlinked, harmed'⟩ := hchange.linked_eq
      have harrives := ih true hnext hchange.moved.proper (harmed'.trans harmed)
        (hchange.late harmed hlate)
      exact harrives.of_moved hchange.moved fun hup => hlinked.symm.trans hup
    · rw [if_neg hphase] at h ⊢
      exact ih false h hproper harmed hlate
  | assign new next ih =>
    obtain ⟨st', hchange, rfl, hnext⟩ := h
    obtain ⟨hlinked, harmed'⟩ := hchange.linked_eq
    have harrives := ih hnext hchange.moved.proper (harmed'.trans harmed)
      (hchange.late harmed hlate)
    exact harrives.of_moved hchange.moved fun hup => hlinked.symm.trans hup
  | call request next ih =>
    -- the connection goes down with the call, whatever it will be answered
    obtain ⟨hkind, hlinked, hrole, hnext⟩ := h
    have hdown : st.phase ≠ .started := by
      rcases hrole with ⟨-, hphase⟩ | ⟨-, -, hphase⟩ <;> rw [hphase] <;> decide
    refine ⟨{ st with linked := false }, .of_eq hproper rfl rfl, rfl, ?_, ?_⟩
    · exact ⟨(decide_eq_false hdown).symm, hproper, ⟨hkind, hnext⟩, harmed, hlate⟩
    · exact .of_close hkind hlinked hrole
  | persist gate request next ih =>
    rcases h with ⟨hkind, hgate, hrole, hmine, hphase, hlinked, hok, herror⟩
      | ⟨operation, hgate, hkind, hphase, hlinked, hnext⟩
    · refine ⟨st, .of_eq hproper rfl rfl, rfl, ?_, ?_⟩
      · refine ⟨?_, hproper, .inl ⟨hkind, hgate, hrole, hmine, hphase, hok, herror⟩, harmed, hlate⟩
        rw [Standing.Rested, hlinked, hphase]
        rfl
      · exact .of_connect hkind hrole hmine hphase
    · refine ⟨st, .of_eq hproper rfl rfl, rfl, ?_, ?_⟩
      · refine ⟨?_, hproper, .inr ⟨operation, hgate, hkind, hnext⟩, harmed, hlate⟩
        rw [Standing.Rested, hlinked, hphase]
        rfl
      · exact .of_node hkind hphase
  | pause => exact h.elim
  | arm limit late next ihl ihn =>
    obtain ⟨hmine, hlater, hnext⟩ := h
    have harrives : Arrives role post (st.linked = true) { st with armed := true }
        (next.advance now st.phase (some ⟨now + limit.millisCeil, late⟩)) := by
      refine ihn hnext hproper rfl ?_
      rintro _ ⟨⟩
      exact ⟨hmine, hlater⟩
    exact harrives.of_moved (.of_eq hproper rfl rfl) id
  | disarm next ih =>
    have harrives : Arrives role post (st.linked = true) { st with armed := false }
        (next.advance now st.phase none) := ih h hproper rfl nofun
    exact harrives.of_moved (.of_eq hproper rfl rfl) id

/-- What is left of a call that is repeated stays in order while others go on. -/
theorem Persists.later {st st' : Standing} {β : Type} {gate : Option Operation}
    {request : Request β} {next : Outcome β → Program α}
    (h : Persists role post st gate request next) (hrested : st.Rested) (hlater : st.Later st') :
    Persists role post st' gate request next := by
  rcases h with ⟨hkind, hgate, hrole, hmine, hphase, hok, herror⟩ | ⟨operation, hgate, hkind, hnext⟩
  · rw [hlater.eq_of_starting hrested hmine hphase]
    exact .inl ⟨hkind, hgate, hrole, hmine, hphase, hok, herror⟩
  · exact .inr ⟨operation, hgate, hkind,
      fun outcome st'' hlater' => hnext outcome st'' (hlater.trans hlater')⟩

/-- A call that is repeated goes on in order when it is settled. -/
theorem Persists.arrives
    (hpost : ∀ st result, post st result → st.Rested ∧ st.armed = false) {st : Standing} {β : Type}
    {gate : Option Operation} {request : Request β} {next : Outcome β → Program α}
    (h : Persists role post st gate request next) (hrested : st.Rested) (hproper : st.Proper)
    (now : Nat) {alarm : Option (Alarm α)} (harmed : st.armed = alarm.isSome)
    (hlate : ∀ a, alarm = some a → st.mine = true ∧ a.Orderly role post) (outcome : Outcome β) :
    Arrives role post (st.phase ≠ .closed) st ((next outcome).advance now st.phase alarm) := by
  rcases h with ⟨-, -, -, -, hphase, hok, herror⟩ | ⟨operation, -, -, hnext⟩
  · cases outcome with
    | ok value =>
      -- the connection has come up, and the session is about to be started
      have harrives : Arrives role post _ { st with linked := true }
          ((next (.ok value)).advance now st.phase alarm) :=
        (hok value).arrives hpost hproper now harmed hlate
      refine harrives.of_moved (.of_eq hproper rfl rfl) fun _ => ?_
      rw [hphase]
      decide
    | error cause =>
      have harrives := (herror cause).arrives hpost hproper now harmed hlate
      exact harrives.of_moved (.refl hproper) hrested.ne_closed
  · have harrives := (hnext outcome st (.refl hrested)).arrives hpost hproper now harmed hlate
    exact harrives.of_moved (.refl hproper) hrested.ne_closed

namespace Task.Orderly

variable {st st' : Standing} {task : Task α}

/-- What is left of a task stays in order while others go on. -/
theorem later (h : task.Orderly role post st) (hlater : st.Later st') :
    task.Orderly role post st' where
  rested := hlater.rested
  proper := by
    intro hmine hinit
    rw [hlater.mine_eq] at hmine
    rcases hlater.held hmine with heq | ⟨-, hclosed⟩
    · exact h.proper hmine (heq.symm.trans hinit)
    · exact nomatch hclosed.symm.trans hinit
  armed_eq := hlater.armed_eq.trans h.armed_eq
  late alarm halarm := by
    obtain ⟨hmine, horderly⟩ := h.late alarm halarm
    exact ⟨hlater.mine_eq.trans hmine, horderly⟩
  wait := by
    have hwait := h.wait
    cases hw : task.wait with
    | ended result =>
      rw [hw] at hwait
      obtain ⟨st₀, hlater₀, hresult⟩ := hwait
      exact ⟨st₀, hlater₀.trans hlater, hresult⟩
    | calling request next =>
      rw [hw] at hwait
      exact ⟨hwait.1, fun reply st'' hlater' => hwait.2 reply st'' (hlater.trans hlater')⟩
    | trying gate request retries since next =>
      rw [hw] at hwait
      exact Persists.later hwait h.rested hlater
    | resting gate request retries since wake next =>
      rw [hw] at hwait
      exact Persists.later hwait h.rested hlater
    | pausing wake next =>
      rw [hw] at hwait
      exact hwait.elim

/-- The step of a task is in order when its call is answered. -/
theorem arrives_answered (hpost : ∀ st result, post st result → st.Rested ∧ st.armed = false)
    (h : task.Orderly role post st) (hcalling : task.isCalling = true) (policy : RetryPolicy)
    (lasts : Nat → Nat) (now draw : Nat) (reply : {β : Type} → Request β → Except Fault β) :
    Arrives role post (st.phase ≠ .closed) st (task.answered policy lasts now draw st.phase reply) := by
  obtain ⟨wait, alarm⟩ := task
  have horderly := h
  obtain ⟨hrested, hproper, hwait, harmed, hlate⟩ := h
  cases wait with
  | ended | resting | pausing => cases hcalling
  | calling request next =>
    have hnext := (hwait.2 (reply request) st (.refl hrested)).arrives hpost hproper now harmed hlate
    exact hnext.of_moved (.refl hproper) hrested.ne_closed
  | trying gate request retries since next =>
    obtain ⟨outcome, -, hstep⟩ | ⟨fault, wake, -, hstep⟩ :=
      Task.answered_trying policy lasts now draw reply
    · rw [hstep]
      exact hwait.arrives hpost hrested hproper now harmed hlate outcome
    · rw [hstep]
      exact ⟨st, .refl hproper, rfl, ⟨hrested, hproper, hwait, harmed, hlate⟩, .of_none _ _ _⟩

/-- The step of a task is in order when its sleep ends. -/
theorem arrives_woken (hpost : ∀ st result, post st result → st.Rested ∧ st.armed = false)
    (h : task.Orderly role post st) (hwake : task.wake?.isSome) (now : Nat) :
    Arrives role post (st.phase ≠ .closed) st (task.woken now st.phase) := by
  obtain ⟨wait, alarm⟩ := task
  obtain ⟨hrested, hproper, hwait, harmed, hlate⟩ := h
  cases wait with
  | ended | calling | trying => cases hwake
  | pausing => exact hwait.elim
  | resting gate request retries since wake next =>
    obtain ⟨cause, -, hstep⟩ | ⟨hgate, hstep⟩ := Task.woken_resting now
    · rw [hstep]
      exact hwait.arrives hpost hrested hproper now harmed hlate (.error cause)
    · rw [hstep]
      refine ⟨st, .refl hproper, rfl, ⟨hrested, hproper, hwait, harmed, hlate⟩, ?_⟩
      rcases hwait with ⟨hkind, -, hrole, hmine, hphase, -⟩ | ⟨operation, rfl, hkind, -⟩
      · exact .of_connect hkind hrole hmine hphase
      · exact .of_node hkind (eq_started_of_gateError? hgate)

/-- The step of a task is in order when its time limit strikes. -/
theorem arrives_expired (hpost : ∀ st result, post st result → st.Rested ∧ st.armed = false)
    (h : task.Orderly role post st) (halarm : task.alarm.isSome) (now : Nat) :
    Arrives role post (st.phase ≠ .closed) st (task.expired now st.phase) := by
  obtain ⟨wait, alarm⟩ := task
  cases alarm with
  | none => cases halarm
  | some alarm =>
    obtain ⟨hmine, horderly⟩ := h.late alarm rfl
    -- what was waited for is dropped, and the task goes on without a time limit
    have hlate := horderly { st with armed := false } hmine rfl h.rested h.proper
    have harrives : Arrives role post (st.linked = true) { st with armed := false }
        (alarm.late.advance now st.phase none) := hlate.arrives hpost h.proper now rfl nofun
    exact harrives.of_moved (.of_eq h.proper rfl rfl) h.rested.ne_closed

end Task.Orderly

end

end IdMint.Coordination
