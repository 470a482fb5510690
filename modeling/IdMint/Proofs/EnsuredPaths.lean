import IdMint.Proofs.NodeBranches
import IdMint.Proofs.SequenceRuns

/-! # Making sure of a node

To make sure of a node a session looks it up, and creates it if there was none. Between the two calls,
and between the attempts at each of them, other clients use the service, and an attempt may fail before
or after it took effect. So a creation that is refused has lost a race, be it to another client or to an
attempt of its own, and both are as good as a creation that succeeds. -/

namespace IdMint.Coordination

/-! ## Other clients -/

/-- The event takes no node away and leaves the connection up. -/
def ServiceEvent.Peaceful : ServiceEvent → Prop
  | seed _ _ => True
  | call request => request.kind ≠ .close ∧ request.kind ≠ .delete

namespace Coordinator

variable {c : Coordinator} {events : List ServiceEvent}

/-- Peaceful events leave the connection up. -/
theorem connected_run (h : c.connected = true) (hpeace : ∀ event ∈ events, event.Peaceful) :
    (c.run events).connected = true := by
  refine run_induction (P := fun c => c.connected = true) h fun c event hevent hup => ?_
  cases event with
  | seed => exact hup
  | call request => exact connected_perform hup (hpeace _ hevent).1

/-- Peaceful events take no node away. -/
theorem hasNode_run {path : String} (h : c.tree.hasNode path = true)
    (hpeace : ∀ event ∈ events, event.Peaceful) : (c.run events).tree.hasNode path = true := by
  refine run_induction (P := fun c => c.tree.hasNode path = true) h fun c event hevent hthere => ?_
  cases event with
  | seed other version => exact NodeTree.hasNode_insert hthere other _
  | call request => exact hasNode_perform hthere (hpeace _ hevent).1 (hpeace _ hevent).2

end Coordinator

/-! ## Undertakings -/

/-- What surrounds an attempt at a call. -/
structure Passage : Type 1 where
  /-- What other clients do to the service before the attempt is carried out. -/
  others : List ServiceEvent
  /-- The failure that is reported in place of the answer. -/
  fault : Option Fault
  /-- Whether an attempt that is reported as failed takes effect all the same. -/
  applies : Bool
  /-- The moment when the attempt is answered. -/
  now : Nat
  /-- The random number drawn then. -/
  draw : Nat
  /-- The moment when the sleep ends that may follow. -/
  wake : Nat

/-- What happens to the attempt on its way; the session is not closed meanwhile. -/
def Passage.disturbance (passage : Passage) : Disturbance := ⟨0, false, passage.fault, passage.applies⟩

/-- The kind of the call in flight. -/
def Wait.kinds : Wait α → List RequestKind
  | calling request _ | trying _ request _ _ _ => [request.kind]
  | ended _ | resting .. | pausing .. => []

/-- A program of a session on its way, at a service that other clients use meanwhile. -/
structure Undertaking (α : Type) : Type 1 where
  /-- The service. -/
  coordinator : Coordinator
  /-- The phase of the session. -/
  phase : Phase
  /-- How far the program has come. -/
  task : Task α
  /-- What the other clients have done so far. -/
  others : List ServiceEvent
  /-- The kinds of the calls made so far. -/
  made : List RequestKind

namespace Undertaking

/-- A program that begins at a moment. -/
def enter (coordinator : Coordinator) (phase : Phase) (now : Nat) (program : Program α) :
    Undertaking α :=
  let (phase, task) := program.advance now phase none
  ⟨coordinator, phase, task, [], []⟩

/-- An attempt at the call in flight: other clients come first, then the attempt is carried out and
answered, and a sleep that follows ends. -/
def attempt (policy : RetryPolicy) (u : Undertaking α) (passage : Passage) : Undertaking α :=
  let met := u.coordinator.run passage.others
  let (phase, task) := u.task.answered policy (fun _ => passage.wake - passage.now) passage.now
    passage.draw u.phase (Wait.replyOf met passage.disturbance)
  let (phase, task) := task.woken passage.wake phase
  ⟨u.task.wait.carriedOut met passage.disturbance, phase, task, u.others ++ passage.others,
    u.made ++ u.task.wait.kinds⟩

/-- Attempts one after the other, until the program has ended. -/
def play (policy : RetryPolicy) : List Passage → Undertaking α → Undertaking α
  | [], u => u
  | passage :: passages, u =>
    if u.task.result?.isSome then u else play policy passages (u.attempt policy passage)

end Undertaking

/-! ## The courses of calls -/

/-- The attempts at a call. -/
structure Course : Type 1 where
  /-- The attempts that are reported as failed. -/
  failing : List Passage
  /-- The attempt that is not. -/
  last : Passage

/-- All attempts of a course. -/
def Course.passages (course : Course) : List Passage := course.failing ++ [course.last]

/-- What the other clients do during a number of attempts. -/
def deeds (passages : List Passage) : List ServiceEvent := passages.flatMap Passage.others

theorem deeds_cons (passage : Passage) (passages : List Passage) :
    deeds (passage :: passages) = passage.others ++ deeds passages := List.flatMap_cons

theorem Course.deeds_passages (course : Course) :
    deeds course.passages = deeds course.failing ++ course.last.others := by
  simp [deeds, passages]

/-- The attempt, which is made after so many retries of a call that began at a moment, fails transiently,
and the policy permits another one. -/
structure Passage.Repeated (policy : RetryPolicy) (since retries : Nat) (passage : Passage) : Prop where
  transient : ∃ fault, passage.fault = some fault ∧ fault.isRetryable = true
  permitted : (policy.allowRetry retries (.ofMillis (passage.now - since)) passage.draw).isSome

/-- Another attempt follows each of these, the first of which is made after so many retries. -/
def AllRepeated (policy : RetryPolicy) (since : Nat) : (retries : Nat) → List Passage → Prop
  | _, [] => True
  | retries, passage :: passages =>
    passage.Repeated policy since retries ∧ AllRepeated policy since (retries + 1) passages

/-- A call that begins at a moment gets through within the budget of retries, while other clients take
no node away. -/
structure Course.Within (policy : RetryPolicy) (since : Nat) (course : Course) : Prop where
  peaceful : ∀ event ∈ deeds course.passages, event.Peaceful
  failing : AllRepeated policy since 0 course.failing
  last : course.last.fault = none

namespace Undertaking

section

variable {policy : RetryPolicy} {c : Coordinator} {operation : Operation} {request : Request β}
variable {retries since : Nat} {next : Outcome β → Program α} {others : List ServiceEvent}
variable {made : List RequestKind} {passage : Passage} {passages : List Passage}

/-- A started session that has repeated its call so many times. -/
def repeating (c : Coordinator) (operation : Operation) (request : Request β) (retries since : Nat)
    (next : Outcome β → Program α) (others : List ServiceEvent) (made : List RequestKind) :
    Undertaking α :=
  ⟨c, .started, ⟨.trying (some operation) request retries since next, none⟩, others, made⟩

/-- A started session whose program goes on at a moment; a pause to which it comes ends. -/
def goOn (c : Coordinator) (program : Program α) (now wake : Nat) (others : List ServiceEvent)
    (made : List RequestKind) : Undertaking α :=
  let (phase, task) := program.advance now .started none
  let (phase, task) := task.woken wake phase
  ⟨c, phase, task, others, made⟩

theorem play_of_ended {u : Undertaking α} {result : α} (h : u.task.result? = some result)
    (passages : List Passage) : play policy passages u = u := by
  cases passages with
  | nil => rfl
  | cons => rw [play, if_pos (Option.isSome_of_eq_some h)]

theorem play_repeating :
    play policy (passage :: passages) (repeating c operation request retries since next others made)
      = play policy passages
        ((repeating c operation request retries since next others made).attempt policy passage) := rfl

/-- A transient failure within the budget leads to another attempt. -/
theorem attempt_of_repeated (h : passage.Repeated policy since retries) {fault : Fault}
    (hfault : passage.fault = some fault)
    (hreply : ((c.run passage.others).performDisturbed passage.disturbance request).1 = .error fault) :
    (repeating c operation request retries since next others made).attempt policy passage
      = repeating ((c.run passage.others).performDisturbed passage.disturbance request).2 operation
        request (retries + 1) since next (others ++ passage.others) (made ++ [request.kind]) := by
  obtain ⟨⟨own, hown, hretry⟩, hpermitted⟩ := h
  obtain rfl : fault = own := Option.some.inj (hfault.symm.trans hown)
  obtain ⟨span, hspan⟩ := Option.isSome_iff_exists.mp hpermitted
  have hgate : gateError? (some operation) .started = none := rfl
  simp only [attempt, repeating, Task.answered_of_allowRetry
    (Wait.replyOf (c.run passage.others) passage.disturbance) hreply hretry hgate hspan]
  rfl

/-- An answer that settles the call leads on to what the program does next. -/
theorem attempt_of_settled {outcome : Outcome β}
    (h : Fault.settled? ((c.run passage.others).performDisturbed passage.disturbance request).1
      = some outcome) :
    (repeating c operation request retries since next others made).attempt policy passage
      = goOn ((c.run passage.others).performDisturbed passage.disturbance request).2 (next outcome)
        passage.now passage.wake (others ++ passage.others) (made ++ [request.kind]) := by
  simp only [attempt, repeating,
    Task.answered_of_settled? (Wait.replyOf (c.run passage.others) passage.disturbance) h]
  rfl

/-- An answer with which the program ends. -/
theorem attempt_of_finish {outcome : Outcome β} {result : α}
    (h : Fault.settled? ((c.run passage.others).performDisturbed passage.disturbance request).1
      = some outcome) (hnext : next outcome = .finish result) :
    (repeating c operation request retries since next others made).attempt policy passage
      = ⟨((c.run passage.others).performDisturbed passage.disturbance request).2, .started,
        ⟨.ended result, none⟩, others ++ passage.others, made ++ [request.kind]⟩ := by
  rw [attempt_of_settled h, hnext]
  rfl

end

/-! ## Looking up -/

/-- A look-up that fails on its way leaves the service as it is. -/
theorem performDisturbed_lookUp {c : Coordinator} (hup : c.connected = true) {d : Disturbance}
    {fault : Fault} (hfault : d.fault = some fault) (path : String) :
    c.performDisturbed d (.lookUp path) = (.error fault, c) := by
  rw [Coordinator.performDisturbed, hfault, Coordinator.perform, if_pos hup]
  exact ite_self _

section

variable {policy : RetryPolicy} {since : Nat} {path : String}
variable {next : Outcome (Option NodeStat) → Program α}

/-- The attempts at a look-up that fail leave the service to the other clients. -/
theorem play_failing_lookUps {c : Coordinator} {failing : List Passage} {retries : Nat}
    {others : List ServiceEvent} {made : List RequestKind} (hup : c.connected = true)
    (hpeace : ∀ event ∈ deeds failing, event.Peaceful)
    (hfailing : AllRepeated policy since retries failing) (rest : List Passage) :
    play policy (failing ++ rest)
        (repeating c .readNode (.lookUp path) retries since next others made)
      = play policy rest (repeating (c.run (deeds failing)) .readNode (.lookUp path)
        (retries + failing.length) since next (others ++ deeds failing)
        (made ++ List.replicate failing.length .lookUp)) := by
  induction failing generalizing c retries others made with
  | nil => simp [deeds]
  | cons passage failing ih =>
    rw [deeds_cons] at hpeace
    obtain ⟨hown, hpeace⟩ := List.forall_mem_append.mp hpeace
    obtain ⟨hrepeated, hfailing⟩ := hfailing
    have hup' : (c.run passage.others).connected = true := Coordinator.connected_run hup hown
    obtain ⟨fault, hfault, -⟩ := hrepeated.transient
    have hlost := performDisturbed_lookUp (d := passage.disturbance) hup' hfault path
    rw [List.cons_append, play_repeating,
      attempt_of_repeated hrepeated hfault (congrArg Prod.fst hlost), hlost,
      ih hup' hpeace hfailing, deeds_cons, ← Coordinator.run_append, List.append_assoc,
      List.append_assoc, List.length_cons, List.replicate_succ, Nat.add_assoc, Nat.add_comm 1]
    rfl

/-- A look-up that gets through tells of the node as the other clients left it. -/
theorem attempt_lookUp {c : Coordinator} {passage : Passage} {retries : Nat}
    {others : List ServiceEvent} {made : List RequestKind}
    (hup : (c.run passage.others).connected = true) (hcalm : passage.fault = none) :
    (repeating c .readNode (.lookUp path) retries since next others made).attempt policy passage
      = goOn (c.run passage.others) (next (.ok ((c.run passage.others).tree.stat? path))) passage.now
        passage.wake (others ++ passage.others) (made ++ [.lookUp]) := by
  have hreply : (c.run passage.others).performDisturbed passage.disturbance (.lookUp path)
      = (.ok ((c.run passage.others).tree.stat? path), c.run passage.others) := by
    rw [Coordinator.performDisturbed_of_none hcalm, Coordinator.perform, if_pos hup]
  rw [attempt_of_settled (congrArg (fun step => Fault.settled? step.1) hreply), hreply]
  rfl

/-- However often it is repeated, it does no more to the service. -/
theorem play_lookUps {c : Coordinator} {course : Course} (hup : c.connected = true)
    (h : course.Within policy since) (rest : List Passage) :
    ∃ made, (∀ kind ∈ made, kind = .lookUp)
      ∧ play policy (course.passages ++ rest)
          (repeating c .readNode (.lookUp path) 0 since next [] [])
        = play policy rest (goOn (c.run (deeds course.passages))
          (next (.ok ((c.run (deeds course.passages)).tree.stat? path))) course.last.now
          course.last.wake (deeds course.passages) made) := by
  refine ⟨List.replicate (course.failing.length + 1) .lookUp, fun _ => List.eq_of_mem_replicate, ?_⟩
  have hpeace := h.peaceful
  have hup' := Coordinator.connected_run hup hpeace
  rw [course.deeds_passages] at hpeace hup' ⊢
  rw [Coordinator.run_append] at hup' ⊢
  rw [Course.passages, List.append_assoc,
    play_failing_lookUps hup (List.forall_mem_append.mp hpeace).1 h.failing, List.singleton_append,
    play_repeating, attempt_lookUp hup' h.last, List.nil_append, List.nil_append, List.replicate_succ']

end

end Undertaking

/-! ## Creating -/

namespace Coordinator

/-- What a service has become that other clients have used, while a session made sure of a node. -/
inductive Secures (start : Coordinator) (path : String) : List ServiceEvent → Coordinator → Prop
  /-- Only the other clients have changed it. -/
  | untouched (others : List ServiceEvent) : Secures start path others (start.run others)
  /-- The session has created the node, where there was none, and nothing else. -/
  | created {past : List ServiceEvent} {after : Coordinator} (since : List ServiceEvent)
    (hgap : path ∉ (start.run past).tree)
    (hcreate : (start.run past).perform (.create path [] .persistent) = (.ok (), after))
    (hgains : (start.run past).tree.Gains after.tree path [] .persistent) :
    Secures start path (past ++ since) (after.run since)

variable {start c : Coordinator} {path : String} {others : List ServiceEvent}

/-- Other clients go on. -/
theorem Secures.run (h : Secures start path others c) (more : List ServiceEvent) :
    Secures start path (others ++ more) (c.run more) := by
  cases h with
  | untouched =>
    rw [← run_append]
    exact .untouched _
  | created since hgap hcreate hgains =>
    rw [← run_append, List.append_assoc]
    exact .created (since ++ more) hgap hcreate hgains

/-- As long as there is no node, only the other clients have changed anything. -/
theorem Secures.hasNode_or_eq (h : Secures start path others c)
    (hpeace : ∀ event ∈ others, event.Peaceful) :
    c.tree.hasNode path = true ∨ c = start.run others := by
  cases h with
  | untouched => exact .inr rfl
  | @created past after since hgap hcreate hgains =>
    have hthere : after.tree.hasNode path = true :=
      NodeTree.hasNode_iff.mpr (.inr ((hgains.paths path).mpr (.inr (.inl rfl))))
    exact .inl (hasNode_run hthere fun event hevent =>
      hpeace event (List.mem_append_right _ hevent))

/-- An attempt to create the node creates it where there is none, and changes nothing otherwise. -/
theorem Secures.attempt (h : Secures start path others c)
    (hpeace : ∀ event ∈ others, event.Peaceful) (hup : c.connected = true) (d : Disturbance) :
    Secures start path others (c.performDisturbed d (.create path [] .persistent)).2 := by
  have hcreated : Secures start path others (c.perform (.create path [] .persistent)).2 := by
    by_cases hthere : c.tree.hasNode path = true
    · have hrefused : (c.perform (.create path [] .persistent)).2 = c := by
        rw [perform, if_neg (by simp [hup]), if_pos hthere]
      rw [hrefused]
      exact h
    · obtain rfl := (h.hasNode_or_eq hpeace).resolve_left hthere
      have hgap : path ∉ (start.run others).tree := fun hmem =>
        hthere (NodeTree.hasNode_iff.mpr (.inr hmem))
      have hcreate : (start.run others).perform (.create path [] .persistent)
          = (.ok (), { start.run others with
            tree := (start.run others).tree.create path [] .persistent }) := by
        rw [perform, if_neg (by simp [hup]), if_neg hthere]
      rw [hcreate]
      have hmade := Secures.created [] hgap hcreate (NodeTree.gains_create hgap [] .persistent)
      rwa [List.append_nil] at hmade
  obtain heq | ⟨fault, -, heq⟩ | ⟨fault, value, -, -, -, heq⟩ :=
    c.performDisturbed_cases d (.create path [] .persistent)
  · rwa [heq]
  · rwa [heq]
  · rwa [heq]

/-- An attempt to create a node settles that it is there, or it is reported as failed on its way. -/
theorem create_settles_or_fails (hup : c.connected = true) (d : Disturbance) (path : String)
    (data : List UInt8) (mode : NodeMode) :
    (∃ outcome, Fault.settled? (c.performDisturbed d (.create path data mode)).1 = some outcome
        ∧ Session.forgiven outcome = .ok ()
        ∧ (c.performDisturbed d (.create path data mode)).2.tree.hasNode path = true)
      ∨ ∃ fault, d.fault = some fault
        ∧ (c.performDisturbed d (.create path data mode)).1 = .error fault := by
  obtain heq | ⟨fault, hfault, heq⟩ | ⟨fault, value, hfault, -, -, heq⟩ :=
    c.performDisturbed_cases d (.create path data mode)
  · rw [heq]
    left
    by_cases hthere : c.tree.hasNode path = true
    · rw [perform, if_neg (by simp [hup]), if_pos hthere]
      exact ⟨.error (.coordination (.nodeExists path)), rfl, rfl, hthere⟩
    · rw [perform, if_neg (by simp [hup]), if_neg hthere]
      exact ⟨.ok (), rfl, rfl, NodeTree.hasNode_insert_self _ path _⟩
  · exact .inr ⟨fault, hfault, congrArg Prod.fst heq⟩
  · exact .inr ⟨fault, hfault, congrArg Prod.fst heq⟩

end Coordinator

namespace Undertaking

/-- A call that made sure of a node has succeeded: the node is stored. -/
structure Secured (start : Coordinator) (path : String) (u : Undertaking (Outcome Unit)) : Prop where
  /-- The call has returned without an error. -/
  succeeds : u.task.result? = some (.ok ())
  /-- The session is started still. -/
  started : u.phase = .started
  /-- The connection is up still. -/
  connected : u.coordinator.connected = true
  /-- There is a node at the path. -/
  stored : path ∈ u.coordinator.tree
  /-- The session has changed nothing but by creating the node. -/
  secures : start.Secures path u.others u.coordinator

section

variable {policy : RetryPolicy} {start : Coordinator} {path : String} {since : Nat}

/-- A session on its way to a node, which has tried to create it so many times. -/
def creating (c : Coordinator) (path : String) (retries since : Nat) (others : List ServiceEvent)
    (made : List RequestKind) : Undertaking (Outcome Unit) :=
  repeating c .createNode (.create path [] .persistent) retries since
    (fun outcome => .finish (Session.forgiven outcome)) others made

/-- An attempt to create a node is the last one, or it is reported as failed on its way. -/
theorem attempt_creating_cases {c : Coordinator} {passage : Passage} {retries : Nat}
    {others : List ServiceEvent} {made : List RequestKind} (hroot : path ≠ "/")
    (hup : (c.run passage.others).connected = true)
    (hpeace : ∀ event ∈ others ++ passage.others, event.Peaceful) (h : start.Secures path others c) :
    Secured start path ((creating c path retries since others made).attempt policy passage)
      ∨ ∃ fault, passage.fault = some fault
        ∧ ((c.run passage.others).performDisturbed passage.disturbance
          (.create path [] .persistent)).1 = .error fault := by
  refine (Coordinator.create_settles_or_fails hup passage.disturbance path [] .persistent).imp_left ?_
  rintro ⟨outcome, hsettled, hforgiven, hthere⟩
  have hfinish : (creating c path retries since others made).attempt policy passage = _ :=
    attempt_of_finish hsettled (congrArg Program.finish hforgiven)
  rw [hfinish]
  exact ⟨rfl, rfl, Coordinator.connected_performDisturbed hup _ (by rintro ⟨⟩),
    (NodeTree.hasNode_iff.mp hthere).resolve_left hroot,
    (h.run passage.others).attempt hpeace hup passage.disturbance⟩

/-- The attempts to create a node end with its being there. -/
theorem secured_play_creating {c : Coordinator} {failing : List Passage} {last : Passage}
    {retries : Nat} {others : List ServiceEvent} {made : List RequestKind} (hroot : path ≠ "/")
    (hup : c.connected = true) (hpast : ∀ event ∈ others, event.Peaceful)
    (hpeace : ∀ event ∈ deeds (failing ++ [last]), event.Peaceful)
    (hfailing : AllRepeated policy since retries failing) (hlast : last.fault = none)
    (h : start.Secures path others c) :
    Secured start path (play policy (failing ++ [last]) (creating c path retries since others made)) := by
  induction failing generalizing c retries others made with
  | nil =>
    rw [List.nil_append, deeds_cons, deeds, List.flatMap_nil, List.append_nil] at hpeace
    have hup' := Coordinator.connected_run hup hpeace
    have hpast' := List.forall_mem_append.mpr ⟨hpast, hpeace⟩
    refine (attempt_creating_cases hroot hup' hpast' h).resolve_right ?_
    rintro ⟨fault, hfault, -⟩
    cases hlast.symm.trans hfault
  | cons passage failing ih =>
    rw [List.cons_append, deeds_cons] at hpeace
    obtain ⟨hown, hpeace⟩ := List.forall_mem_append.mp hpeace
    obtain ⟨hrepeated, hfailing⟩ := hfailing
    have hup' := Coordinator.connected_run hup hown
    have hpast' := List.forall_mem_append.mpr ⟨hpast, hown⟩
    show Secured start path (play policy (failing ++ [last])
      ((creating c path retries since others made).attempt policy passage))
    rcases attempt_creating_cases hroot hup' hpast' h with hsecured | ⟨fault, hfault, hreply⟩
    · -- an attempt of its own, or another client, came before, and the answer says so
      rw [play_of_ended hsecured.succeeds]
      exact hsecured
    · rw [creating, attempt_of_repeated hrepeated hfault hreply]
      exact ih (Coordinator.connected_performDisturbed hup' _ (by rintro ⟨⟩)) hpast' hpeace hfailing
        ((h.run passage.others).attempt hpast' hup' passage.disturbance)

end

end Undertaking

/-! ## Making sure -/

namespace Session

/-- What is left to do when the node has been looked up. -/
def afterLookUp (path : String) : Outcome (Option NodeStat) → Program (Outcome Unit)
  | .error cause => .finish (.error cause)
  | .ok (some _) => .finish (.ok ())
  | .ok none => (createPath path [] .persistent).run.bind fun outcome => .finish (forgiven outcome)

theorem run_ensurePath_lookUp (path : String) :
    (ensurePath path).run = (onNode .readNode path (.lookUp path)).run.bind (afterLookUp path) := by
  rw [run_ensurePath, run_pathExists, Program.bind_assoc]
  congr 1
  funext outcome
  rcases outcome with cause | _ | stat <;> rfl

end Session

namespace Undertaking

open Session

variable {policy : RetryPolicy} {path : String} {c : Coordinator}

/-- The call begins with the look-up. -/
theorem enter_ensurePath (hvalid : Path.check path = .ok ()) (c : Coordinator) (began : Nat) :
    enter c .started began (ensurePath path).run
      = repeating c .readNode (.lookUp path) 0 began (afterLookUp path) [] [] := by
  rw [enter, run_ensurePath_lookUp, run_onNode, Program.bind, Program.advance, if_pos rfl, hvalid]
  rfl

/-- A call that finds the node ends there. -/
theorem play_ensurePath_of_mem (hvalid : Path.check path = .ok ()) (hup : c.connected = true)
    {course : Course} {began : Nat} (h : course.Within policy began)
    (hmem : path ∈ (c.run (deeds course.passages)).tree) (rest : List Passage) :
    ∃ made, (∀ kind ∈ made, kind = .lookUp)
      ∧ play policy (course.passages ++ rest) (enter c .started began (ensurePath path).run)
        = ⟨c.run (deeds course.passages), .started, ⟨.ended (.ok ()), none⟩, deeds course.passages,
          made⟩ := by
  obtain ⟨made, hmade, hplay⟩ := play_lookUps hup h rest
  obtain ⟨node, hnode⟩ := NodeTree.mem_iff_exists.mp hmem
  refine ⟨made, hmade, ?_⟩
  rw [enter_ensurePath hvalid, hplay, NodeTree.stat?, hnode]
  exact play_of_ended rfl rest

/-- A call that does not find the node goes on to create it. -/
theorem play_ensurePath_of_not_mem (hvalid : Path.check path = .ok ()) (hup : c.connected = true)
    {course : Course} {began : Nat} (h : course.Within policy began)
    (hgap : path ∉ (c.run (deeds course.passages)).tree) (rest : List Passage) :
    ∃ made, play policy (course.passages ++ rest) (enter c .started began (ensurePath path).run)
      = play policy rest (creating (c.run (deeds course.passages)) path 0 course.last.now
          (deeds course.passages) made) := by
  obtain ⟨made, -, hplay⟩ := play_lookUps hup h rest
  refine ⟨made, ?_⟩
  have hcreate (now : Nat) : (afterLookUp path (.ok none)).advance now .started none
      = (.started, ⟨.trying (some .createNode) (.create path [] .persistent) 0 now
        (fun outcome => .finish (forgiven outcome)), none⟩) := by
    rw [afterLookUp, createPath, run_onNode, Program.bind, Program.advance, if_pos rfl, hvalid]
    rfl
  rw [enter_ensurePath hvalid, hplay, NodeTree.stat?, Std.ExtTreeMap.getElem?_eq_none hgap,
    Option.map_none, goOn, hcreate]
  rfl

/-- What is said of a call that makes sure of a node. -/
structure EnsuresPath (policy : RetryPolicy) (before : Coordinator) (path : String)
    (u : Undertaking (Outcome Unit)) : Prop where
  /-- The call succeeds, the node is stored, and the session has changed nothing else than by creating
  it at most once, where there was none: with its missing ancestors, beside the nodes that were there. -/
  secured : u.Secured before path
  /-- Another call, through whatever it comes, succeeds as well. It creates no node, and leaves the
  service to the other clients. -/
  again : ∀ (began : Nat) (course : Course), course.Within policy began →
    ∃ later, play policy course.passages (enter u.coordinator u.phase began (ensurePath path).run) = later
      ∧ later.task.result? = some (.ok ())
      ∧ (∀ kind ∈ later.made, kind = .lookUp)
      ∧ later.coordinator = u.coordinator.run later.others

/-- **Making sure of a node succeeds through every race and every failure within the budget, and creates
it once at most.** -/
theorem ensures_path (hvalid : Path.check path = .ok ()) (hroot : path ≠ "/")
    (hup : c.connected = true) {began : Nat} {lookUps creates : Course}
    (hlookUps : lookUps.Within policy began) (hcreates : creates.Within policy lookUps.last.now) :
    EnsuresPath policy c path (play policy (lookUps.passages ++ creates.passages)
      (enter c .started began (ensurePath path).run)) := by
  have hsecured : Secured c path (play policy (lookUps.passages ++ creates.passages)
      (enter c .started began (ensurePath path).run)) := by
    have huntouched : c.Secures path (deeds lookUps.passages) (c.run (deeds lookUps.passages)) :=
      .untouched _
    have hup' := Coordinator.connected_run hup hlookUps.peaceful
    by_cases hmem : path ∈ (c.run (deeds lookUps.passages)).tree
    · obtain ⟨made, -, hplay⟩ := play_ensurePath_of_mem hvalid hup hlookUps hmem creates.passages
      rw [hplay]
      exact ⟨rfl, rfl, hup', hmem, huntouched⟩
    · obtain ⟨made, hplay⟩ := play_ensurePath_of_not_mem hvalid hup hlookUps hmem creates.passages
      rw [hplay]
      exact secured_play_creating hroot hup' hlookUps.peaceful hcreates.peaceful hcreates.failing
        hcreates.last huntouched
  refine ⟨hsecured, fun began' course hcourse => ?_⟩
  have hthere := Coordinator.hasNode_run (NodeTree.hasNode_iff.mpr (.inr hsecured.stored))
    hcourse.peaceful
  obtain ⟨made, hmade, hplay⟩ := play_ensurePath_of_mem hvalid hsecured.connected hcourse
    ((NodeTree.hasNode_iff.mp hthere).resolve_left hroot) []
  rw [List.append_nil] at hplay
  rw [hsecured.started]
  exact ⟨_, hplay, rfl, hmade, rfl⟩

/-! ### A lost answer -/

/-- A service with one node that has been written to. -/
def hostService : Coordinator := { Coordinator.fresh with connected := true }.seed "/r" 3

/-- A look-up whose first attempt is lost. -/
def lostLookUp : Course := ⟨[⟨[], some .connectionLoss, false, 5, 0, 5⟩], ⟨[], none, false, 5, 0, 5⟩⟩

/-- A creation whose answer is lost: another client creates a node beside the new one before it, and
writes to the new one after it. -/
def lostCreation : Course :=
  ⟨[⟨[.call (.create "/r/b" [1] .ephemeral)], some .operationTimeout, true, 6, 0, 7⟩],
    ⟨[.call (.setData "/r/a/x" [2] anyVersion)], none, false, 8, 0, 8⟩⟩

/-- The session is told of its own node as of another client's, and is content. -/
theorem ensures_path_lost_answer :
    Path.check "/r/a/x" = .ok () ∧ "/r/a/x" ≠ "/" ∧ hostService.connected = true
      ∧ lostLookUp.Within (.nTimes 1 .zero) 0 ∧ lostCreation.Within (.nTimes 1 .zero) 5
      ∧ ∃ u, u = play (.nTimes 1 .zero) (lostLookUp.passages ++ lostCreation.passages)
          (enter hostService .started 0 (ensurePath "/r/a/x").run)
        ∧ EnsuresPath (.nTimes 1 .zero) hostService "/r/a/x" u
        ∧ u.made = [.lookUp, .lookUp, .create, .create]
        ∧ u.coordinator.tree["/r/a/x"]? = some ⟨[2], 1, .persistent⟩ := by
  have hlookUps : lostLookUp.Within (.nTimes 1 .zero) 0 := by
    refine ⟨?_, ⟨⟨⟨_, rfl, rfl⟩, rfl⟩, trivial⟩, rfl⟩
    simp [lostLookUp, Course.passages, deeds]
  have hcreates : lostCreation.Within (.nTimes 1 .zero) 5 := by
    refine ⟨?_, ⟨⟨⟨_, rfl, rfl⟩, rfl⟩, trivial⟩, rfl⟩
    simp [lostCreation, Course.passages, deeds, ServiceEvent.Peaceful, Request.kind]
  have hvalid : Path.check "/r/a/x" = .ok () := rfl
  have hroot : "/r/a/x" ≠ "/" := by decide
  refine ⟨hvalid, hroot, rfl, hlookUps, hcreates, _, rfl,
    ensures_path hvalid hroot rfl hlookUps hcreates, ?_, ?_⟩
  · decide +kernel
  · decide +kernel

end Undertaking

end IdMint.Coordination
