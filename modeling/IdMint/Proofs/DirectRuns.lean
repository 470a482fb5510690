import IdMint.Proofs.SequenceDraws
import IdMint.Proofs.SessionCalls

/-! # Programs carried out at one go

`Program.direct?` carries a program out over a service that answers every call at once: no call has to
be repeated, and time does not matter. Every operation that a session is there for comes to something
so, if its connection is up while it is started. -/

namespace IdMint.Coordination

/-! ## Answers -/

/-- What a call comes to with an answer after which it is not repeated. -/
def Fault.settled? : Except Fault β → Option (Outcome β)
  | .ok value => some (.ok value)
  | .error fault => if fault.isRetryable then none else some (.error (.coordination fault))

/-- Only transient failures do not settle a call. -/
theorem exists_transient_of_settled? {reply : Except Fault β} (h : Fault.settled? reply = none) :
    ∃ fault, reply = .error fault ∧ fault.isRetryable = true := by
  cases reply with
  | ok value => cases h
  | error fault =>
    rw [Fault.settled?] at h
    split at h
    · next hretry => exact ⟨fault, rfl, hretry⟩
    · cases h

/-- A call that need not be repeated ends with what it is settled with. -/
theorem Settles.of_settled? {gate : Option Operation} {phase : Phase} {reply : Except Fault β}
    {outcome : Outcome β} (h : Fault.settled? reply = some outcome) :
    Settles gate phase reply outcome := by
  cases reply with
  | ok value =>
    cases h
    exact .ok value
  | error fault =>
    rw [Fault.settled?] at h
    split at h <;> cases h
    exact .failed fault

/-- An answer after which a call need not be repeated ends it. -/
theorem Task.answered_of_settled? {policy : RetryPolicy} {lasts : Nat → Nat}
    {gate : Option Operation} {phase : Phase} {request : Request β} {next : Outcome β → Program α}
    {alarm : Option (Alarm α)} {retries since now draw : Nat} (reply : {β : Type} → Request β → Except Fault β)
    {outcome : Outcome β} (h : Fault.settled? (reply request) = some outcome) :
    answered policy lasts now draw phase reply ⟨.trying gate request retries since next, alarm⟩
      = (next outcome).advance now phase alarm := by
  simp only [answered]
  cases hreply : reply request with
  | ok value =>
    rw [hreply] at h
    cases h
    rfl
  | error fault =>
    rw [hreply] at h
    by_cases hretry : fault.isRetryable = true
    · simp [Fault.settled?, hretry] at h
    · simp only [Fault.settled?, hretry] at h
      cases h
      simp [hretry]

namespace Coordinator

/-- Calls other than the one that ends the session leave the connection up. -/
theorem connected_perform {c : Coordinator} (h : c.connected = true) {request : Request β}
    (hkind : request.kind ≠ .close) : (c.perform request).2.connected = true := by
  cases request with
  | connect => rfl
  | close => exact absurd rfl hkind
  | lookUp | create | setData | delete | children =>
    rw [perform]
    grind

/-- While the connection is up the service does not fail transiently. -/
theorem isRetryable_of_perform {c : Coordinator} (h : c.connected = true) {request : Request β}
    {fault : Fault} (hfault : (c.perform request).1 = .error fault) : fault.isRetryable = false := by
  cases request with
  | connect | close => cases hfault
  | lookUp path =>
    rw [perform, if_pos h] at hfault
    cases hfault
  | create path | delete path | children path =>
    simp only [perform, h, Bool.not_true, Bool.false_eq_true, if_false] at hfault
    split at hfault <;> cases hfault
    rfl
  | setData path data version =>
    simp only [perform, h, Bool.not_true, Bool.false_eq_true, if_false] at hfault
    cases hwrite : write c.tree path data version with
    | ok written =>
      rw [hwrite] at hfault
      cases hfault
    | error fault' =>
      rw [hwrite] at hfault
      cases hfault
      unfold write at hwrite
      split at hwrite
      · cases hwrite
        rfl
      · split at hwrite <;> cases hwrite
        rfl

/-- While the connection is up no answer of the service asks to repeat the call. -/
theorem exists_settled? {c : Coordinator} (h : c.connected = true) (request : Request β) :
    ∃ outcome, Fault.settled? (c.perform request).1 = some outcome := by
  cases hreply : (c.perform request).1 with
  | ok value => exact ⟨.ok value, rfl⟩
  | error fault =>
    have hfault : fault.isRetryable = false := isRetryable_of_perform h hreply
    exact ⟨.error (.coordination fault), by simp [Fault.settled?, hfault]⟩

end Coordinator

namespace Program

/-- What a program comes to where every call is answered at once: its result, and the phase and the
service after it. Nothing comes of it where a call would have to be repeated, or where it makes a
call that is never repeated, pauses, or sets a time limit. -/
def direct? : Program α → Phase → Coordinator → Option (α × Phase × Coordinator)
  | finish result, phase, c => some (result, phase, c)
  | observe next, phase, c => (next phase).direct? phase c
  | exchange expected new next, phase, c =>
    if phase = expected then (next true).direct? new c else (next false).direct? phase c
  | assign new next, _, c => next.direct? new c
  | persist gate request next, phase, c =>
    if gateError? gate phase = none then
      (Fault.settled? (c.perform request).1).bind fun outcome =>
        (next outcome).direct? phase (c.perform request).2
    else none
  | call .., _, _ | pause .., _, _ | arm .., _, _ => none
  | disarm next, phase, c => next.direct? phase c

/-- A call that may be repeated is made where its gate permits it, and settled. -/
theorem direct?_persist_eq_some_iff {gate : Option Operation} {request : Request β}
    {next : Outcome β → Program α} {phase : Phase} {c : Coordinator}
    {ending : α × Phase × Coordinator} :
    (persist gate request next).direct? phase c = some ending
      ↔ gateError? gate phase = none ∧ ∃ outcome,
        Fault.settled? (c.perform request).1 = some outcome
          ∧ (next outcome).direct? phase (c.perform request).2 = some ending := by
  rw [direct?, Option.ite_none_right_eq_some, Option.bind_eq_some_iff]

/-- What becomes of a program that goes on with another one. -/
theorem direct?_bind (p : Program α) (f : α → Program β) (phase : Phase) (c : Coordinator) :
    (p.bind f).direct? phase c
      = (p.direct? phase c).bind fun (result, phase', c') => (f result).direct? phase' c' := by
  induction p generalizing phase c with
  | finish result => rfl
  | observe next ih => exact ih phase phase c
  | exchange expected new next ih =>
    simp only [direct?, Program.bind]
    by_cases hphase : phase = expected
    · rw [if_pos hphase, if_pos hphase]
      exact ih true new c
    · rw [if_neg hphase, if_neg hphase]
      exact ih false phase c
  | assign new next ih => exact ih new c
  | persist gate request next ih =>
    simp only [direct?, Program.bind]
    by_cases hgate : gateError? gate phase = none
    · rw [if_pos hgate, if_pos hgate, Option.bind_assoc]
      congr 1
      funext outcome
      exact ih outcome phase _
    · rw [if_neg hgate, if_neg hgate]
      rfl
  | call | pause | arm => rfl
  | disarm next ih => exact ih phase c

variable {phase : Phase} {c : Coordinator}

/-- A program that keeps to work on nodes comes to a result, and leaves the phase and the connection
alone. -/
theorem Orderly.exists_direct? {post : Standing → α → Prop} {p : Program α} {st : Standing}
    (h : p.Orderly .node post st) (hmine : st.mine = false)
    (hlinked : st.linked = true → c.connected = true) :
    ∃ result c', p.direct? st.phase c = some (result, st.phase, c')
      ∧ (c.connected = true → c'.connected = true) := by
  induction p generalizing st c with
  | finish result => exact ⟨result, c, rfl, id⟩
  | observe next ih => exact ih st.phase h hmine hlinked
  | exchange expected new next ih =>
    simp only [Orderly] at h
    rw [direct?]
    by_cases hphase : st.phase = expected
    · -- work on nodes changes no phase
      rw [if_pos hphase] at h
      obtain ⟨st', hchange, -, -⟩ := h
      cases hchange
    · rw [if_neg hphase] at h ⊢
      exact ih false h hmine hlinked
  | assign new next ih =>
    obtain ⟨st', hchange, -, -⟩ := h
    cases hchange
  | call request next ih =>
    obtain ⟨-, -, ⟨hrole, -⟩ | ⟨hrole, -⟩, -⟩ := h <;> cases hrole
  | persist gate request next ih =>
    rcases h with ⟨-, -, hrole, -⟩ | ⟨operation, rfl, hkind, hphase, hup, hnext⟩
    · cases hrole
    have hconnected := hlinked hup
    obtain ⟨outcome, hsettled⟩ := Coordinator.exists_settled? hconnected request
    have hconnected' : (c.perform request).2.connected = true :=
      Coordinator.connected_perform hconnected hkind.2
    have hrested : st.Rested := by
      rw [Standing.Rested, hup, hphase]
      rfl
    obtain ⟨result, c', hresult, hstays⟩ :=
      ih outcome (hnext outcome st (.refl hrested)) hmine fun _ => hconnected'
    refine ⟨result, c', ?_, fun _ => hstays hconnected'⟩
    have hgate : gateError? (some operation) st.phase = none := if_pos hphase
    rw [direct?, if_pos hgate, hsettled]
    exact hresult
  | pause => exact h.elim
  | arm limit late next =>
    rw [h.1] at hmine
    cases hmine
  | disarm next ih =>
    have hnext : next.Orderly .node post { st with armed := false } := h
    have hdirect := ih hnext hmine hlinked
    exact hdirect

end Program

namespace Session

variable {c : Coordinator} {path : String}

/-- A node operation of a started session comes to what its call is answered. -/
theorem direct?_onNode (hpath : Path.check path = .ok ()) (operation : Operation)
    (request : Request β) :
    (onNode operation path request).run.direct? .started c
      = (Fault.settled? (c.perform request).1).map fun outcome =>
        (outcome, .started, (c.perform request).2) := by
  have hgate : gateError? (some operation) .started = none := rfl
  rw [run_onNode, Program.direct?, if_pos rfl, hpath, Program.direct?, if_pos hgate]
  cases Fault.settled? (c.perform request).1 <;> rfl

theorem direct?_pathExists (h : c.connected = true) (hpath : Path.check path = .ok ()) :
    (pathExists path).run.direct? .started c
      = some (.ok (c.tree.stat? path).isSome, .started, c) := by
  have hlookUp : c.perform (.lookUp path) = (.ok (c.tree.stat? path), c) := if_pos h
  rw [run_pathExists, Program.direct?_bind, direct?_onNode hpath, hlookUp]
  rfl

/-- To make sure that there is a node succeeds in a started session, also where the node is there
although the service has no stat of it. -/
theorem direct?_ensurePath (h : c.connected = true) (hpath : Path.check path = .ok ()) :
    ∃ c', (ensurePath path).run.direct? .started c = some (.ok (), .started, c')
      ∧ c'.connected = true := by
  rw [run_ensurePath, Program.direct?_bind, direct?_pathExists h hpath]
  cases (c.tree.stat? path).isSome with
  | true => exact ⟨c, rfl, h⟩
  | false =>
    have hconnected : (c.perform (.create path [] .persistent)).2.connected = true :=
      Coordinator.connected_perform h (by simp [Request.kind])
    refine ⟨_, ?_, hconnected⟩
    show Program.direct? (Program.bind _ _) _ _ = _
    rw [Program.direct?_bind, createPath, direct?_onNode hpath]
    -- the creation succeeds, or it fails because the node is there
    by_cases hnode : c.tree.hasNode path = true <;>
      simp [Coordinator.perform, h, hnode, Fault.settled?, Fault.isRetryable, Program.direct?,
        forgiven]

/-- Settings that are accepted name a root node, and its path is valid. -/
theorem passes_ofSettings {settings : CoordinationSettings} {s : Session}
    (h : ofSettings settings = .ok s) :
    s.settings.rootName ≠ "" ∧ Path.check s.rootPath = .ok () := by
  unfold ofSettings at h
  by_cases hblank : Text.allBlank settings.connectString = true
  · rw [if_pos hblank] at h
    cases h
  by_cases hempty : settings.rootName.isEmpty = true
  · rw [if_neg hblank, if_pos hempty] at h
    cases h
  rw [if_neg hblank, if_neg hempty] at h
  cases hpolicy : RetryPolicy.ofSettings settings.retry with
  | error cause =>
    rw [hpolicy] at h
    cases h
  | ok policy =>
    rw [hpolicy] at h
    cases hcheck : Path.check ("/" ++ settings.rootName) with
    | error fault =>
      simp only [hcheck] at h
      cases h
    | ok =>
      simp only [hcheck] at h
      cases h
      exact ⟨fun hname => hempty (String.isEmpty_iff.mpr hname), hcheck⟩

/-- Settings that are accepted name a root node with a valid path. -/
theorem check_rootPath {settings : CoordinationSettings} {s : Session}
    (h : ofSettings settings = .ok s) : Path.check s.rootPath = .ok () := (passes_ofSettings h).2

/-- A start without a time limit succeeds if it finds the session uninitialized. -/
theorem direct?_start {s : Session} (hroot : Path.check s.rootPath = .ok ()) (c : Coordinator) :
    ∃ c', (start s none).run.direct? .uninitialized c = some (.ok (), .started, c')
      ∧ c'.connected = true := by
  obtain ⟨c', hensure, hconnected⟩ :=
    direct?_ensurePath (c := { c with connected := true, connects := c.connects + 1 }) rfl hroot
  refine ⟨c', ?_, hconnected⟩
  have hestablish : (establish s).run.direct? .starting c = some (.ok (), .started, c') := by
    rw [run_establish]
    exact hensure
  rw [run_start, Program.direct?, if_pos rfl]
  show ((establish s).run.bind conclude).direct? .starting c = _
  rw [Program.direct?_bind, hestablish]
  rfl

/-- A start that does not find the session uninitialized is refused. -/
theorem direct?_start_refused (s : Session) {phase : Phase} (h : phase ≠ .uninitialized) :
    (start s none).run.direct? phase c
      = some (.error (Operation.start.refused phase), phase, c) := by
  rw [run_start, Program.direct?, if_neg h]
  rfl

end Session

/-! ## Sequence numbers -/

/-- The program works on nodes in order, and leaves the phase to others. -/
def Program.WorksInOrder (p : Program α) : Prop :=
  ∀ st : Standing, st.Rested → p.Orderly .node (fun st' _ => st.Later st') st

namespace Program.WorksInOrder

theorem finish (result : α) : (Program.finish result).WorksInOrder := fun _ hrested => .refl hrested

theorem bind {p : Program α} {f : α → Program β} (h : p.WorksInOrder)
    (hf : ∀ result, (f result).WorksInOrder) : (p.bind f).WorksInOrder := by
  intro st hrested
  refine (h st hrested).bind ?_
  intro st' result hlater
  exact (hf result st' hlater.rested).mono fun _ _ hlater' => hlater.trans hlater'

/-- An action that goes on where another one succeeds. -/
theorem andThen {x : Action α} {f : α → Action β} (h : x.run.WorksInOrder)
    (hf : ∀ a, (f a).run.WorksInOrder) : (x >>= f).run.WorksInOrder := by
  rw [run_bind]
  refine h.bind ?_
  rintro (cause | a)
  · exact finish _
  · exact hf a

/-- An action that goes on after a check. -/
theorem afterCheck (check : Outcome α) {f : α → Action β} (hf : ∀ a, (f a).run.WorksInOrder) :
    ((check : Action α) >>= f : Action β).run.WorksInOrder := by
  rw [run_lift_bind]
  cases check with
  | error cause => exact finish _
  | ok a => exact hf a

end Program.WorksInOrder

namespace Sequence

open Session Program.WorksInOrder

theorem worksInOrder_draw (path : String) : (draw path).run.WorksInOrder := by
  rw [run_draw]
  exact bind ((worksOnNodes_onNode rfl path).orderly .node) fun _ => finish _

/-- Writes one after the other work in order, up to the first that fails. -/
theorem worksInOrder_collectAfter (path : String) (issued : List String) (count : Nat) :
    (Batch.collectAfter (draw path).run issued count).WorksInOrder := by
  induction count generalizing issued with
  | zero => exact finish _
  | succ count ih =>
    rw [Batch.collectAfter]
    refine bind (worksInOrder_draw path) ?_
    rintro (cause | id)
    · exact finish _
    · exact ih (issued ++ [id])

theorem worksInOrder_next (s : Session) (key : String) : (next s key).run.WorksInOrder := by
  refine afterCheck _ fun _ => andThen ?_ fun _ => worksInOrder_draw _
  exact (worksOnNodes_ensurePath _).orderly .node

theorem worksInOrder_nextMany (s : Session) (key : String) (count : UInt64) :
    (nextMany s key count).run.WorksInOrder := by
  refine afterCheck _ fun _ => afterCheck _ fun _ => andThen ?_ fun _ => ?_
  · exact (worksOnNodes_ensurePath _).orderly .node
  · exact worksInOrder_collectAfter _ [] _

/-- Every call to an issuer of sequence numbers works on nodes in order. -/
theorem Call.worksInOrder_program (s : Session) (call : Call) :
    (call.program s).WorksInOrder := by
  cases call with
  | next key => exact bind (worksInOrder_next s key) fun _ => finish _
  | nextFor name key =>
    have hfor : (Sequence.nextFor s name key).run.WorksInOrder :=
      afterCheck _ fun composite => worksInOrder_next s composite.text
    exact bind hfor fun _ => finish _
  | nextMany key count => exact worksInOrder_nextMany s key count
  | nextManyFor name key count =>
    exact afterCheck _ fun composite => worksInOrder_nextMany s composite.text count

end Sequence

/-! ## Calls -/

/-- A call to a session that starts it without a time limit, works on nodes or issues sequence
numbers, indexed by the type of its answer. -/
inductive ScriptCall : Type → Type 1
  | start : ScriptCall Unit
  | node (call : SessionCall β) (hrole : call.role = .node) : ScriptCall β
  | sequence (call : Sequence.Call) : ScriptCall (List String)

namespace ScriptCall

/-- The program of a call. -/
def program (s : Session) : ScriptCall β → Program (Outcome β)
  | start => (Session.start s none).run
  | node call _ => call.program s
  | sequence call => call.program s

/-- Every call comes to something where the connection is up while the session is started, and leaves
it so. -/
theorem exists_direct? {s : Session} (hroot : Path.check s.rootPath = .ok ()) (call : ScriptCall β)
    {phase : Phase} {c : Coordinator} (hready : phase = .started → c.connected = true) :
    ∃ result phase' c', (call.program s).direct? phase c = some (result, phase', c')
      ∧ (phase' = .started → c'.connected = true) := by
  have hworks {p : Program (Outcome β)} (h : p.WorksInOrder) :
      ∃ result phase' c', p.direct? phase c = some (result, phase', c')
        ∧ (phase' = .started → c'.connected = true) := by
    obtain ⟨result, c', hdirect, hstays⟩ :=
      (h ⟨phase, false, false, decide (phase = .started)⟩ rfl).exists_direct? rfl
        fun hup => hready (of_decide_eq_true hup)
    exact ⟨result, phase, c', hdirect, fun hphase => hstays (hready hphase)⟩
  cases call with
  | start =>
    by_cases hphase : phase = .uninitialized
    · subst hphase
      obtain ⟨c', hdirect, hconnected⟩ := Session.direct?_start hroot c
      exact ⟨_, _, c', hdirect, fun _ => hconnected⟩
    · exact ⟨_, _, c, Session.direct?_start_refused s hphase, hready⟩
  | node call hrole => exact hworks ((call.worksOnNodes_program hrole s).orderly .node)
  | sequence call => exact hworks (call.worksInOrder_program s)

end ScriptCall

end IdMint.Coordination
