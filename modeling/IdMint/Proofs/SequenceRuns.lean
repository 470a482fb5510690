import IdMint.Coordination.Rehearsal
import IdMint.Proofs.Numerals
import IdMint.Proofs.SequenceDraws
import IdMint.Proofs.TaskSteps
import Mathlib.Data.List.Basic
import Mathlib.Data.List.Flatten

/-! # Interleaved issuers of sequence numbers

Clients of one coordinator issue sequence numbers. Between any two of a client's calls to the service
other clients may make theirs, and a call may fail before or after it took effect. -/

namespace IdMint.Coordination

open Batch

/-! ## Tasks -/

section

namespace Wait

variable {path : String} {post : List String → α → Prop}

/-- What is left of a task at a waiting point fits what was issued before. -/
def Draws (path : String) (post : List String → α → Prop) (issued : List String) : Wait α → Prop
  | ended result => post issued result
  | trying gate request _ _ next | resting gate request _ _ _ next =>
    (Program.persist gate request next).Draws path post issued
  | calling .. | pausing .. => False

/-- The numbers that the answer to the call in flight issues. -/
def issuedBy (reply : {β : Type} → Request β → Except Fault β) : Wait α → List String
  | calling request _ | trying _ request _ _ _ => request.issued (reply request)
  | ended _ | resting .. | pausing .. => []

end Wait

variable {path : String} {post : List String → α → Prop} {issued : List String}

/-- A program that issues numbers stands at a waiting point without having touched the phase. -/
theorem Program.Draws.advance {p : Program α} (h : p.Draws path post issued) (now : Nat)
    (phase : Phase) (alarm : Option (Alarm α)) :
    (p.advance now phase alarm).1 = phase
      ∧ (p.advance now phase alarm).2.wait.Draws path post issued := by
  induction p with
  | finish result => exact ⟨rfl, h⟩
  | observe next ih => exact ih phase (h phase)
  | persist gate request next ih => exact ⟨rfl, h⟩
  | exchange | assign | call | pause | arm | disarm => exact h.elim

/-- An error of a gate hands out nothing. -/
theorem issued_of_gateError {gate : Option Operation} {phase : Phase} {cause : Error}
    (h : gateError? gate phase = some cause) : cause.issued = [] := by
  unfold gateError? at h
  split at h
  · cases h
  · split at h <;> cases h
    rfl

/-- An error issues nothing. -/
theorem Request.issued_error (request : Request β) (cause : ε) :
    request.issued (.error cause : Except ε β) = [] := by
  cases request <;> rfl

/-- The numbers that an answer issues do not depend on how its errors are told. -/
theorem Request.issued_ok (request : Request β) (value : β) {ε ε' : Type} :
    request.issued (.ok value : Except ε β) = request.issued (.ok value : Except ε' β) := by
  cases request <;> rfl

/-- What a call comes to issues what its last answer does. -/
theorem Settles.issued_eq {gate : Option Operation} {phase : Phase} {request : Request β}
    {reply : Except Fault β} {outcome : Outcome β} (h : Settles gate phase reply outcome) :
    request.issued outcome = request.issued reply := by
  cases h with
  | ok value => exact request.issued_ok value
  | refused | failed => rw [request.issued_error, request.issued_error]

/-- What a call comes to hands out nothing by itself. -/
theorem Settles.plain {gate : Option Operation} {phase : Phase} {reply : Except Fault β}
    {outcome : Outcome β} (h : Settles gate phase reply outcome) : Plain outcome := by
  cases h with
  | ok value => exact plain_ok value
  | refused hgate => exact plain_error (issued_of_gateError hgate)
  | failed fault => exact plain_error rfl

namespace Task

/-- A task keeps fitting what was issued when its call is answered. -/
theorem draws_answered {task : Task α} (h : task.wait.Draws path post issued) (policy : RetryPolicy)
    (lasts : Nat → Nat) (now draw : Nat) (phase : Phase)
    (reply : {β : Type} → Request β → Except Fault β) :
    (task.answered policy lasts now draw phase reply).1 = phase
      ∧ (task.answered policy lasts now draw phase reply).2.wait.Draws path post
          (issued ++ task.wait.issuedBy reply) := by
  obtain ⟨wait, alarm⟩ := task
  cases wait with
  | ended result => exact ⟨rfl, by rwa [Wait.issuedBy, List.append_nil]⟩
  | resting gate request retries since wake next =>
    exact ⟨rfl, by rwa [Wait.issuedBy, List.append_nil]⟩
  | calling | pausing => exact h.elim
  | trying gate request retries since next =>
    obtain ⟨outcome, hsettles, hstep⟩ | ⟨fault, wake, hreply, hstep⟩ :=
      answered_trying policy lasts now draw reply
    · rw [hstep, Wait.issuedBy, ← hsettles.issued_eq]
      exact (h.2 outcome hsettles.plain).advance now phase alarm
    · rw [hstep, Wait.issuedBy, hreply, request.issued_error fault, List.append_nil]
      exact ⟨rfl, h⟩

/-- A task keeps fitting what was issued when its sleep ends. -/
theorem draws_woken {task : Task α} (h : task.wait.Draws path post issued) (now : Nat)
    (phase : Phase) :
    (task.woken now phase).1 = phase ∧ (task.woken now phase).2.wait.Draws path post issued := by
  obtain ⟨wait, alarm⟩ := task
  cases wait with
  | ended result => exact ⟨rfl, h⟩
  | trying gate request retries since next => exact ⟨rfl, h⟩
  | calling | pausing => exact h.elim
  | resting gate request retries since wake next =>
    obtain ⟨cause, hgate, hstep⟩ | ⟨-, hstep⟩ := woken_resting now
    · have hdraws := h.2 (.error cause) (plain_error (issued_of_gateError hgate))
      rw [request.issued_error cause, List.append_nil] at hdraws
      rw [hstep]
      exact hdraws.advance now phase alarm
    · rw [hstep]
      exact ⟨rfl, h⟩

end Task

/-! ## Calls to the service -/

/-- A write that took effect. -/
structure Write where
  /-- The client, by its place among the clients. -/
  client : Nat
  /-- The node that was written to. -/
  path : String
  /-- The version that the write gave it. -/
  version : Int32
  /-- Whether the client was told. -/
  acknowledged : Bool
  deriving DecidableEq

/-- The number that the client of a write was told. -/
def Write.told? (w : Write) : Option String :=
  if w.acknowledged then some (toString w.version) else none

/-- What the client of a write was told is the version. -/
theorem Write.told?_eq {w : Write} {text : String} (h : w.told? = some text) :
    toString w.version.toInt = text := by
  unfold told? at h
  by_cases hacknowledged : w.acknowledged = true
  · rw [if_pos hacknowledged] at h
    exact Option.some.inj h
  · rw [if_neg hacknowledged] at h
    cases h

namespace Coordinator

/-- The write that a call makes under a disturbance, if it takes effect. -/
def writes (c : Coordinator) (d : Disturbance) (client : Nat) (request : Request β) : List Write :=
  match request.written (c.perform request).1 with
  | some (path, version) =>
    if d.fault.isNone || d.applies then [⟨client, path, version, d.fault.isNone⟩] else []
  | none => []

/-- What a call does under a disturbance: nothing that issuers see, or a write to its node that adds
one to the version, which the client is told unless the answer is lost. -/
theorem writes_cases (c : Coordinator) (d : Disturbance) (client : Nat) {request : Request β}
    (h : request.WritesOnly path) :
    c.writes d client request = []
        ∧ request.issued (c.performDisturbed d request).1 = []
        ∧ (∀ other, (c.performDisturbed d request).2.versionAt other = c.versionAt other)
      ∨ ∃ w, c.writes d client request = [w] ∧ w.client = client ∧ w.path = path
        ∧ w.version = c.versionAt path + 1
        ∧ request.issued (c.performDisturbed d request).1 = w.told?.toList
        ∧ ∀ other, (c.performDisturbed d request).2.versionAt other
          = if path = other then c.versionAt path + 1 else c.versionAt other := by
  have hlost (fault : Fault) : request.issued (.error fault : Except Fault β) = [] :=
    request.issued_error fault
  have hcases := c.versionAt_perform h
  unfold writes performDisturbed
  rcases hperform : c.perform request with ⟨reply, after⟩
  rw [hperform] at hcases
  obtain ⟨hversions, hnone⟩ | ⟨hsome, hversions⟩ := hcases
  · -- nothing is written, so nothing is told either
    left
    have hissued : request.issued reply = [] := by rw [Request.issued, hnone]; rfl
    simp only [hnone]
    refine ⟨trivial, ?_⟩
    cases d.fault with
    | none => exact ⟨hissued, hversions⟩
    | some fault =>
      by_cases happlies : d.applies = true
      · simp only [happlies, if_true]
        cases reply with
        | ok value => exact ⟨hlost fault, hversions⟩
        | error own => exact ⟨hlost own, hversions⟩
      · simp only [happlies]
        exact ⟨hlost fault, fun _ => rfl⟩
  · -- a write is answered with success, so under a fault it is lost or never made
    simp only [hsome]
    cases d.fault with
    | none =>
      right
      refine ⟨⟨client, path, c.versionAt path + 1, true⟩, rfl, rfl, rfl, rfl, ?_, hversions⟩
      rw [Request.issued, hsome]
      rfl
    | some fault =>
      by_cases happlies : d.applies = true
      · right
        simp only [happlies, if_true]
        have hok : ∃ value, reply = .ok value := by
          cases reply with
          | ok value => exact ⟨value, rfl⟩
          | error own => cases request <;> cases hsome
        obtain ⟨value, rfl⟩ := hok
        exact ⟨⟨client, path, c.versionAt path + 1, false⟩, rfl, rfl, rfl, rfl, hlost fault,
          hversions⟩
      · left
        simp only [happlies]
        exact ⟨rfl, hlost fault, fun _ => rfl⟩

end Coordinator

namespace Wait

/-- The service after the call in flight was carried out under a disturbance. -/
def carriedOut (c : Coordinator) (d : Disturbance) : Wait α → Coordinator
  | calling request _ | trying _ request _ _ _ => (c.performDisturbed d request).2
  | ended _ | resting .. | pausing .. => c

/-- The writes that the call in flight makes under a disturbance. -/
def writes (c : Coordinator) (d : Disturbance) (client : Nat) : Wait α → List Write
  | calling request _ | trying _ request _ _ _ => c.writes d client request
  | ended _ | resting .. | pausing .. => []

/-- The answer to a call under a disturbance. -/
def replyOf (c : Coordinator) (d : Disturbance) : {β : Type} → Request β → Except Fault β :=
  fun request => (c.performDisturbed d request).1

/-- What the call in flight of a task that issues numbers does under a disturbance. -/
theorem Draws.writes_cases {wait : Wait α} (h : wait.Draws path post issued) (c : Coordinator)
    (d : Disturbance) (client : Nat) :
    wait.writes c d client = []
        ∧ wait.issuedBy (replyOf c d) = []
        ∧ (∀ other, (wait.carriedOut c d).versionAt other = c.versionAt other)
      ∨ ∃ w, wait.writes c d client = [w] ∧ w.client = client ∧ w.path = path
        ∧ w.version = c.versionAt path + 1
        ∧ wait.issuedBy (replyOf c d) = w.told?.toList
        ∧ ∀ other, (wait.carriedOut c d).versionAt other
          = if path = other then c.versionAt path + 1 else c.versionAt other := by
  cases wait with
  | ended | resting => exact .inl ⟨rfl, rfl, fun _ => rfl⟩
  | calling | pausing => exact h.elim
  | trying gate request retries since next => exact c.writes_cases d client h.1

end Wait

end

namespace Sequence

/-! ## Clients -/

/-- A client with a call of it. -/
structure Client where
  session : Session
  call : Call
  /-- How far the call has come. -/
  task : Task (Outcome (List String))
  /-- The numbers that the answers to the call's writes have told so far. -/
  told : List String

namespace Client

/-- A client that makes a call. -/
def enter (session : Session) (call : Call) (now : Nat) (phase : Phase) : Client :=
  ⟨session, call, ((call.program session).advance now phase none).2, []⟩

/-- The node that holds the numbers of the call's key. -/
def path (client : Client) : String := client.call.path client.session

/-- The client after the answer to its call in flight. -/
def answered (client : Client) (lasts : Nat → Nat) (now draw : Nat) (phase : Phase) (c : Coordinator)
    (d : Disturbance) : Client :=
  { client with
    task := (client.task.answered client.session.policy lasts now draw phase (Wait.replyOf c d)).2
    told := client.told ++ client.task.wait.issuedBy (Wait.replyOf c d) }

/-- The client after its sleep has ended. -/
def woken (client : Client) (now : Nat) (phase : Phase) : Client :=
  { client with task := (client.task.woken now phase).2 }

/-- What the call has handed out: nothing before it has ended. -/
def handedOut (client : Client) : List String :=
  match client.task.result? with
  | some result => Batch.handedOut result
  | none => []

/-- What is left of the call fits what its writes have been told. -/
def Sound (client : Client) : Prop := client.task.wait.Draws client.path HandsOut client.told

theorem sound_enter (session : Session) (call : Call) (now : Nat) (phase : Phase) :
    (enter session call now phase).Sound :=
  ((call.draws_program session).advance now phase none).2

/-- A call that has ended handed out what its writes were told. -/
theorem Sound.handedOut_eq {client : Client} (h : client.Sound) {result : Outcome (List String)}
    (hresult : client.task.result? = some result) : Batch.handedOut result = client.told := by
  obtain ⟨session, call, ⟨wait, alarm⟩, told⟩ := client
  cases wait with
  | ended own =>
    cases hresult
    exact h
  | calling | trying | resting | pausing => cases hresult

end Client

/-- A coordinator, and the clients on it. -/
structure Crew where
  coordinator : Coordinator
  clients : List Client

/-- What can happen to clients of a coordinator while nobody else changes the version of the node at
the path, and the writes that take effect by it. The phase is that of the session concerned. -/
inductive Step (path : String) : Crew → List Write → Crew → Prop
  /-- A client makes a call. -/
  | enter (crew : Crew) (session : Session) (call : Call) (now : Nat) (phase : Phase) :
    Step path crew []
      { crew with clients := crew.clients ++ [.enter session call now phase] }
  /-- The call in flight of a client is carried out, under a disturbance, and answered. -/
  | answer {crew : Crew} {client : Client} (i : Nat) (hclient : crew.clients[i]? = some client)
      (lasts : Nat → Nat) (now draw : Nat) (phase : Phase) (d : Disturbance) :
    Step path crew (client.task.wait.writes crew.coordinator d i)
      ⟨client.task.wait.carriedOut crew.coordinator d,
        crew.clients.set i (client.answered lasts now draw phase crew.coordinator d)⟩
  /-- The sleep of a client ends. -/
  | wake {crew : Crew} {client : Client} (i : Nat) (hclient : crew.clients[i]? = some client)
      (now : Nat) (phase : Phase) :
    Step path crew [] { crew with clients := crew.clients.set i (client.woken now phase) }
  /-- Something else happens to the service. -/
  | other {crew : Crew} {c : Coordinator}
      (hversion : c.versionAt path = crew.coordinator.versionAt path) :
    Step path crew [] { crew with coordinator := c }

/-- Steps one after the other, with the writes that take effect in order. -/
inductive Run (path : String) : Crew → List Write → Crew → Prop
  | nil (crew : Crew) : Run path crew [] crew
  | cons {crew crew₁ crew' : Crew} {new log : List Write} (step : Step path crew new crew₁)
      (rest : Run path crew₁ log crew') : Run path crew (new ++ log) crew'

/-- All clients of a crew are sound. -/
def Crew.Sound (crew : Crew) : Prop := ∀ client ∈ crew.clients, client.Sound

/-- What a step does to the clients: one of them comes and has been told nothing, one of them is told
the numbers of the step's writes, which are its own, or none of them is concerned. -/
theorem Step.clients_cases {path : String} {crew crew' : Crew} {new : List Write}
    (h : Step path crew new crew') (hsound : crew.Sound) :
    (∃ client : Client, crew'.clients = crew.clients ++ [client] ∧ client.Sound
        ∧ client.told = [] ∧ new = [])
      ∨ (∃ i client client', crew.clients[i]? = some client
        ∧ crew'.clients = crew.clients.set i client' ∧ client'.Sound ∧ client'.path = client.path
        ∧ client'.told = client.told ++ new.filterMap Write.told?
        ∧ ∀ w ∈ new, w.client = i ∧ w.path = client.path)
      ∨ crew'.clients = crew.clients ∧ new = [] := by
  cases h with
  | enter session call now phase =>
    exact .inl ⟨_, rfl, Client.sound_enter session call now phase, rfl, rfl⟩
  | @answer client i hclient lasts now draw phase d =>
    have hdraws : client.Sound := hsound client (List.mem_of_getElem? hclient)
    refine .inr (.inl ⟨i, client, _, hclient, rfl, ?_, rfl, ?_, ?_⟩)
    · exact (Task.draws_answered hdraws _ lasts now draw phase _).2
    · refine congrArg (client.told ++ ·) ?_
      obtain ⟨hnew, htold, -⟩ | ⟨w, hnew, -, -, -, htold, -⟩ :=
        hdraws.writes_cases crew.coordinator d i
      · rw [hnew, htold]
        rfl
      · rw [hnew, htold]
        cases hw : w.told? <;> simp [hw]
    · intro w hw
      obtain ⟨hnew, -⟩ | ⟨w', hnew, hi, hpath, -⟩ := hdraws.writes_cases crew.coordinator d i
      · rw [hnew] at hw
        cases hw
      · rw [hnew] at hw
        obtain rfl := List.mem_singleton.mp hw
        exact ⟨hi, hpath⟩
  | @wake client i hclient now phase =>
    have hdraws : client.Sound := hsound client (List.mem_of_getElem? hclient)
    refine .inr (.inl ⟨i, client, _, hclient, rfl, ?_, rfl, ?_, ?_⟩)
    · exact (Task.draws_woken hdraws now phase).2
    · exact (List.append_nil _).symm
    · intro w hw
      cases hw
  | other hversion => exact .inr (.inr ⟨rfl, rfl⟩)

/-- What a step does to the version of the node at the path: it adds one for a write to the node, which
gets the new version. -/
theorem Step.version_cases {path : String} {crew crew' : Crew} {new : List Write}
    (h : Step path crew new crew') (hsound : crew.Sound) :
    (crew'.coordinator.versionAt path = crew.coordinator.versionAt path
        ∧ new.filter (·.path = path) = [])
      ∨ ∃ w, new = [w] ∧ w.path = path ∧ w.version = crew.coordinator.versionAt path + 1
        ∧ crew'.coordinator.versionAt path = w.version := by
  cases h with
  | enter | wake => exact .inl ⟨rfl, rfl⟩
  | other hversion => exact .inl ⟨hversion, rfl⟩
  | @answer client i hclient lasts now draw phase d =>
    have hdraws : client.Sound := hsound client (List.mem_of_getElem? hclient)
    obtain ⟨hnew, -, hversions⟩ | ⟨w, hnew, -, hpath, hversion, -, hversions⟩ :=
      hdraws.writes_cases crew.coordinator d i
    · exact .inl ⟨hversions path, by rw [hnew]; rfl⟩
    · -- a write by a client that works for another node leaves the version here alone
      by_cases hother : client.path = path
      · rw [hother] at hpath hversion hversions
        refine .inr ⟨w, hnew, hpath, hversion, ?_⟩
        rw [hversion]
        exact (hversions path).trans (if_pos rfl)
      · refine .inl ⟨(hversions path).trans (if_neg hother), ?_⟩
        have hw : w.path ≠ path := by rwa [hpath]
        rw [hnew, List.filter_cons_of_neg (by simpa using hw)]
        rfl

/-- A step keeps all clients of a crew sound. -/
theorem Step.sound {path : String} {crew crew' : Crew} {new : List Write}
    (h : Step path crew new crew') (hsound : crew.Sound) : crew'.Sound := by
  intro client hclient
  obtain ⟨client', heq, hclient', -⟩ | ⟨i, client₀, client', -, heq, hclient', -⟩ | ⟨heq, -⟩ :=
    h.clients_cases hsound
  · rw [heq] at hclient
    rcases List.mem_append.mp hclient with hmem | hmem
    · exact hsound client hmem
    · exact List.mem_singleton.mp hmem ▸ hclient'
  · rw [heq] at hclient
    rcases List.mem_or_eq_of_mem_set hclient with hmem | rfl
    · exact hsound client hmem
    · exact hclient'
  · rw [heq] at hclient
    exact hsound client hclient

/-! ## Runs -/

/-- What the client in a place has been told; nothing where there is no client. -/
def Crew.toldTo (crew : Crew) (i : Nat) : List String :=
  match crew.clients[i]? with
  | some client => client.told
  | none => []

/-- What the clients whose calls are for the node at the path have been told. -/
def Crew.toldFor (crew : Crew) (path : String) : List String :=
  crew.clients.flatMap fun client => if client.path = path then client.told else []

/-- What the calls for the node at the path have handed out. -/
def Crew.handedOutFor (crew : Crew) (path : String) : List String :=
  crew.clients.flatMap fun client => if client.path = path then client.handedOut else []

/-- The version after a write, where the one before is not the greatest. -/
theorem toInt_add_one {version : Int32} (h : version.toInt < 2 ^ 31 - 1) :
    (version + 1).toInt = version.toInt + 1 := by
  have hlow := version.le_toInt
  rw [Int32.toInt_add, Int32.toInt_one]
  exact Int.bmod_eq_of_le_mul_two (by omega) (by omega)

namespace Run

variable {path : String} {crew crew' : Crew} {log : List Write}

theorem sound (h : Run path crew log crew') (hsound : crew.Sound) : crew'.Sound := by
  induction h with
  | nil => exact hsound
  | cons step rest ih => exact ih (step.sound hsound)

/-- The writes to the node at the path give it one version after the other, as long as the versions
stay below the greatest one. -/
theorem versions_eq (h : Run path crew log crew') (hsound : crew.Sound)
    (hfirst : (crew.coordinator.versionAt path).toInt < 2 ^ 31 - 1)
    (hlater : ∀ w ∈ log, w.path = path → w.version.toInt < 2 ^ 31 - 1) :
    (log.filter (·.path = path)).map (·.version.toInt)
      = (List.range (log.filter (·.path = path)).length).map fun k : Nat =>
        (crew.coordinator.versionAt path).toInt + 1 + (k : Int) := by
  induction h with
  | nil => rfl
  | @cons crew crew₁ crew' new log step rest ih =>
    have hrest := ih (step.sound hsound)
    have hlog : ∀ w ∈ log, w.path = path → w.version.toInt < 2 ^ 31 - 1 := by
      intro w hw
      exact hlater w (List.mem_append_right new hw)
    obtain ⟨hversion, hnone⟩ | ⟨w, rfl, hpath, hversion, hafter⟩ := step.version_cases hsound
    · rw [hversion] at hrest
      rw [List.filter_append, hnone, List.nil_append]
      exact hrest hfirst hlog
    · -- the rest of the run counts on from the version of the first write
      have hw : w.version.toInt = (crew.coordinator.versionAt path).toInt + 1 := by
        rw [hversion, toInt_add_one hfirst]
      have hbelow := hlater w (List.mem_append_left log List.mem_cons_self) hpath
      rw [hafter] at hrest
      rw [List.singleton_append, List.filter_cons_of_pos (by simpa using hpath), List.map_cons,
        hrest hbelow hlog, List.length_cons, List.range_succ_eq_map, List.map_cons, List.map_map, hw]
      refine List.cons_eq_cons.mpr ⟨by simp, List.map_congr_left fun k _ => ?_⟩
      simp only [Function.comp]
      omega

end Run

/-- Writes of which all or none have a property are all kept or all left out by it. -/
theorem filter_eq_ite {new : List Write} {p : Write → Prop} [DecidablePred p] {q : Prop} [Decidable q]
    (h : ∀ w ∈ new, p w ↔ q) : (new.filter fun w => p w) = if q then new else [] := by
  by_cases hq : q
  · rw [if_pos hq, List.filter_eq_self]
    intro w hw
    exact decide_eq_true ((h w hw).mpr hq)
  · rw [if_neg hq, List.filter_eq_nil_iff]
    intro w hw hkept
    exact hq ((h w hw).mp (of_decide_eq_true hkept))

/-- A step tells every client the numbers of its own writes. -/
theorem Step.toldTo_eq {path : String} {crew crew' : Crew} {new : List Write}
    (h : Step path crew new crew') (hsound : crew.Sound) (i : Nat) :
    crew'.toldTo i = crew.toldTo i ++ (new.filter (·.client = i)).filterMap Write.told? := by
  unfold Crew.toldTo
  obtain ⟨client, heq, -, htold, rfl⟩ | ⟨j, client, client', hclient, heq, -, -, htold, hnew⟩
    | ⟨heq, rfl⟩ := h.clients_cases hsound
  · -- a client that comes has been told as little as one that is not there
    rw [heq, List.filter_nil, List.filterMap_nil, List.append_nil, List.getElem?_append]
    by_cases hi : i < crew.clients.length
    · rw [if_pos hi]
    · rw [if_neg hi, List.getElem?_eq_none (Nat.not_lt.mp hi), List.getElem?_singleton]
      by_cases hlast : i - crew.clients.length = 0
      · rw [if_pos hlast]
        exact htold
      · rw [if_neg hlast]
  · have hj := (List.getElem?_eq_some_iff.mp hclient).1
    have hown : new.filter (·.client = i) = if j = i then new else [] :=
      filter_eq_ite fun w hw => by rw [(hnew w hw).1]
    rw [heq, hown]
    by_cases hi : j = i
    · subst hi
      rw [List.getElem?_set_self hj, hclient, if_pos rfl]
      exact htold
    · rw [List.getElem?_set_ne hi, if_neg hi, List.filterMap_nil, List.append_nil]
  · rw [heq, List.filter_nil, List.filterMap_nil, List.append_nil]

/-- A step tells the clients for the node at the path the numbers of its writes. -/
theorem Step.toldFor_perm {path : String} {crew crew' : Crew} {new : List Write}
    (h : Step path crew new crew') (hsound : crew.Sound) :
    (crew'.toldFor path).Perm
      (crew.toldFor path ++ (new.filter (·.path = path)).filterMap Write.told?) := by
  unfold Crew.toldFor
  obtain ⟨client, heq, -, htold, rfl⟩ | ⟨j, client, client', hclient, heq, -, hpath, htold, hnew⟩
    | ⟨heq, rfl⟩ := h.clients_cases hsound
  · have hnone : (if client.path = path then client.told else []) = [] := by
      rw [htold, ite_self]
    rw [heq, List.flatMap_append, List.flatMap_cons, hnone]
    exact .refl _
  · have hown : new.filter (·.path = path) = if client.path = path then new else [] :=
      filter_eq_ite fun w hw => by rw [(hnew w hw).2]
    rw [heq, hown]
    refine flatMap_set_perm ?_ hclient
    rw [hpath, htold]
    by_cases hother : client.path = path
    · rw [if_pos hother, if_pos hother, if_pos hother]
    · rw [if_neg hother, if_neg hother, if_neg hother]
      rfl
  · rw [heq, List.filter_nil, List.filterMap_nil, List.append_nil]

namespace Run

variable {path : String} {crew crew' : Crew} {log : List Write}

/-- Every client has been told the numbers of its own writes, in order. -/
theorem toldTo_eq (h : Run path crew log crew') (hsound : crew.Sound) (i : Nat) :
    crew'.toldTo i = crew.toldTo i ++ (log.filter (·.client = i)).filterMap Write.told? := by
  induction h with
  | nil => exact (List.append_nil _).symm
  | cons step rest ih =>
    rw [ih (step.sound hsound), step.toldTo_eq hsound, List.filter_append, List.filterMap_append,
      List.append_assoc]

/-- What the clients for the node at the path have been told are the numbers of its writes. -/
theorem toldFor_perm (h : Run path crew log crew') (hsound : crew.Sound) :
    (crew'.toldFor path).Perm
      (crew.toldFor path ++ (log.filter (·.path = path)).filterMap Write.told?) := by
  induction h with
  | nil => simp
  | cons step rest ih =>
    refine (ih (step.sound hsound)).trans ?_
    rw [List.filter_append, List.filterMap_append, ← List.append_assoc]
    exact (step.toldFor_perm hsound).append_right _

/-! ## What a run hands out -/

/-- What is said of the writes `log` to a node that had the version `first` before them, and of the
clients `crew` after them. -/
structure IssuedByWrites (path : String) (first : Int) (log : List Write) (crew : Crew) : Prop where
  /-- A call that has ended handed out the numbers of its writes that were acknowledged, in order. -/
  handedOut : ∀ i client result, crew.clients[i]? = some client →
    client.task.result? = some result →
    Batch.handedOut result = (log.filter (·.client = i)).filterMap Write.told?
  /-- The writes to the node that were acknowledged have ascending versions. -/
  ascending : (log.filter fun w => w.path = path ∧ w.acknowledged).Pairwise
    fun w w' => w.version.toInt < w'.version.toInt
  /-- No number is handed out twice for the node. -/
  nodup : (crew.handedOutFor path).Nodup
  /-- Where every write to the node was acknowledged, their versions have no gaps. -/
  gapless : (∀ w ∈ log, w.path = path → w.acknowledged = true) →
    (log.filter (·.path = path)).map (·.version.toInt)
      = (List.range (log.filter (·.path = path)).length).map fun k : Nat => first + 1 + (k : Int)
  /-- Where besides every call for the node has ended, the numbers of the node were handed out. -/
  complete : (∀ w ∈ log, w.path = path → w.acknowledged = true) →
    (∀ client ∈ crew.clients, client.path = path → client.task.result?.isSome) →
    (crew.handedOutFor path).Perm
      ((List.range (log.filter (·.path = path)).length).map fun k : Nat =>
        toString (first + 1 + (k : Int)))

/-- The versions of a node stay below the greatest one. -/
structure StaysBelow (path : String) (c : Coordinator) (log : List Write) : Prop where
  first : (c.versionAt path).toInt < 2 ^ 31 - 1
  later : ∀ w ∈ log, w.path = path → w.version.toInt < 2 ^ 31 - 1

/-- Calls hand out no more than what their clients have been told. -/
theorem handedOutFor_sublist (hsound : crew.Sound) :
    (crew.handedOutFor path).Sublist (crew.toldFor path) := by
  refine List.Sublist.flatMap_right _ fun client hclient => ?_
  by_cases hpath : client.path = path
  · rw [if_pos hpath, if_pos hpath, Client.handedOut]
    cases hresult : client.task.result? with
    | none => exact List.nil_sublist _
    | some result =>
      dsimp only
      rw [(hsound client hclient).handedOut_eq hresult]
  · rw [if_neg hpath, if_neg hpath]

/-- Calls that have all ended hand out what their clients have been told. -/
theorem handedOutFor_eq (hsound : crew.Sound)
    (hended : ∀ client ∈ crew.clients, client.path = path → client.task.result?.isSome) :
    crew.handedOutFor path = crew.toldFor path := by
  refine List.flatMap_congr fun client hclient => ?_
  by_cases hpath : client.path = path
  · obtain ⟨result, hresult⟩ := Option.isSome_iff_exists.mp (hended client hclient hpath)
    rw [if_pos hpath, if_pos hpath, ← (hsound client hclient).handedOut_eq hresult,
      Client.handedOut, hresult]
  · rw [if_neg hpath, if_neg hpath]

/-- **What interleaved issuers hand out.** However the calls to the service interleave and fail,
the numbers of a node are issued once and in the order of its writes. -/
theorem issues_by_writes {c : Coordinator} (h : Run path ⟨c, []⟩ log crew')
    (hbelow : StaysBelow path c log) :
    IssuedByWrites path (c.versionAt path).toInt log crew' := by
  have hnone : Crew.Sound ⟨c, []⟩ := fun client hclient => absurd hclient List.not_mem_nil
  have hsound := h.sound hnone
  have hversions := h.versions_eq hnone hbelow.first hbelow.later
  have hperm := h.toldFor_perm hnone
  have hpairs : (log.filter (·.path = path)).Pairwise
      fun w w' => w.version.toInt < w'.version.toInt := by
    rw [← List.pairwise_map (f := fun w : Write => w.version.toInt), hversions, List.pairwise_map]
    exact List.pairwise_lt_range.imp fun hlt => by omega
  refine ⟨?_, ?_, ?_, fun _ => hversions, ?_⟩
  · intro i client result hclient hresult
    have htold := h.toldTo_eq hnone i
    rw [Crew.toldTo, hclient] at htold
    rw [(hsound client (List.mem_of_getElem? hclient)).handedOut_eq hresult]
    exact htold
  · have hfilter : (log.filter fun w => w.path = path ∧ w.acknowledged)
        = (log.filter (·.path = path)).filter (·.acknowledged) := by
      rw [List.filter_filter]
      exact List.filter_congr fun w _ => by simp [Bool.and_comm]
    rw [hfilter]
    exact hpairs.filter _
  · -- what was told twice would be the version of two writes
    refine (handedOutFor_sublist hsound).nodup (hperm.nodup_iff.mpr ?_)
    show ((log.filter (·.path = path)).filterMap Write.told?).Nodup
    rw [List.Nodup, List.pairwise_filterMap]
    refine hpairs.imp fun hlt text htext text' htext' heq => ?_
    rw [← Write.told?_eq htext, ← Write.told?_eq htext'] at heq
    exact absurd (Decimal.eq_of_toString_eq heq) (Int.ne_of_lt hlt)
  · -- no version is left out, as every write has told its own and every call has ended
    intro hacknowledged hended
    rw [handedOutFor_eq hsound hended]
    have hall : (log.filter (·.path = path)).filterMap Write.told?
        = (log.filter (·.path = path)).map fun w => toString w.version.toInt := by
      rw [← List.filterMap_eq_map]
      refine List.filterMap_congr fun w hw => ?_
      obtain ⟨hmem, hpath⟩ := List.mem_filter.mp hw
      exact if_pos (hacknowledged w hmem (of_decide_eq_true hpath))
    refine hperm.trans (.of_eq ?_)
    have htexts := congrArg (List.map toString) hversions
    rw [List.map_map, List.map_map] at htexts
    rw [hall]
    exact htexts

/-! ### Two clients on one node -/

/-- A session on the root `r` that repeats a call once. -/
def contendedSession : Session :=
  ⟨{ CoordinationSettings.standard with rootName := "r" }, .nTimes 1 .zero⟩

/-- A service whose node for the key `k` has been written to six times. -/
def contendedService : Coordinator := { Coordinator.fresh with connected := true }.seed "/r/k" 6

/-- An answer that is lost. -/
def lostAnswer : Disturbance := ⟨0, false, some .connectionLoss, true⟩

/-- The writes of two clients: the first one takes effect twice, as its answer is lost once. -/
def contendedWrites : List Write :=
  [⟨0, "/r/k", 7, false⟩, ⟨1, "/r/k", 8, true⟩, ⟨0, "/r/k", 9, true⟩]

/-- Two clients draw a number for one key; one of them repeats its write after the other one's. -/
theorem issues_by_writes_contended :
    ∃ crew, Run "/r/k" ⟨contendedService, []⟩ contendedWrites crew
      ∧ StaysBelow "/r/k" contendedService contendedWrites
      ∧ crew.handedOutFor "/r/k" = ["9", "8"]
      ∧ IssuedByWrites "/r/k" 6 contendedWrites crew := by
  have h : Run "/r/k" ⟨contendedService, []⟩ _ _ :=
    .cons (.enter _ contendedSession (.next "k") 0 .started)
      (.cons (.enter _ contendedSession (.next "k") 0 .started)
      (.cons (.answer 0 rfl id 0 0 .started .calm)
      (.cons (.answer 1 rfl id 0 0 .started .calm)
      (.cons (.answer 0 rfl id 0 0 .started lostAnswer)
      (.cons (.answer 1 rfl id 0 0 .started .calm)
      (.cons (.wake 0 rfl 0 .started)
      (.cons (.answer 0 rfl id 0 0 .started .calm)
      (.nil _))))))))
  have hbelow : StaysBelow "/r/k" contendedService contendedWrites := ⟨by decide, by decide⟩
  exact ⟨_, h, hbelow, rfl, issues_by_writes h hbelow⟩

end Run

end Sequence

end IdMint.Coordination
