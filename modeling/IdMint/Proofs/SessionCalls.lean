import IdMint.Proofs.ActionTrees
import IdMint.Proofs.SessionOrder

/-! # The calls of a session

Each operation of a session is a program that keeps to the role it has: a start, a close, or work on
nodes. -/

namespace IdMint.Coordination

open Standing

/-! ## Work on nodes -/

/-- The operation that refuses to repeat a call that works on nodes. -/
def RequestKind.operation? : RequestKind → Option Operation
  | .lookUp => some .readNode
  | .create => some .createNode
  | .setData => some .writeNode
  | .delete => some .deleteNode
  | .children => some .listChildren
  | .connect | .close => none

/-- A call that an operation may refuse to repeat works on nodes. -/
theorem RequestKind.isNode_of_operation? {kind : RequestKind} {operation : Operation}
    (h : kind.operation? = some operation) : kind.IsNode := by
  constructor <;> rintro rfl <;> cases h

namespace Program

/-- All calls of the program are gated, and it ends as soon as a gate refuses to repeat one. -/
def Heeds : Program (Outcome β) → Prop
  | finish _ => True
  | observe next => ∀ phase, (next phase).Heeds
  | persist gate request next =>
    (∃ operation, gate = some operation ∧ request.kind.operation? = some operation
      ∧ ∀ phase, next (.error (operation.refused phase)) = finish (.error (operation.refused phase)))
    ∧ ∀ outcome, (next outcome).Heeds
  | exchange .. | assign .. | call .. | pause .. | arm .. | disarm .. => False

/-- A program that goes on with another one heeds the gates if both do and the other one passes
refusals on. -/
theorem Heeds.bind {p : Program (Outcome β)} {f : Outcome β → Program (Outcome γ)} (h : p.Heeds)
    (hf : ∀ outcome, (f outcome).Heeds)
    (hpass : ∀ (operation : Operation) phase,
      f (.error (operation.refused phase)) = finish (.error (operation.refused phase))) :
    (p.bind f).Heeds := by
  induction p with
  | finish result => exact hf result
  | observe next ih => exact fun phase => ih phase (h phase)
  | persist gate request next ih =>
    obtain ⟨⟨operation, hgate, hkind, hrefused⟩, hnext⟩ := h
    refine ⟨⟨operation, hgate, hkind, ?_⟩, fun outcome => ih outcome (hnext outcome)⟩
    intro phase
    show (next _).bind f = _
    rw [hrefused, Program.bind, hpass]
  | exchange | assign | call | pause | arm | disarm => exact h.elim

/-- Whatever its role, a task that runs the program works on nodes only, and ends as soon as a gate
refuses to repeat a call. -/
structure WorksOnNodes (p : Program (Outcome β)) : Prop where
  orderly : ∀ (role : Role) (st : Standing), st.Rested →
    p.Orderly role (fun st' _ => st.Later st') st
  heeds : p.Heeds

namespace WorksOnNodes

/-- A program that only ends works on nothing. -/
theorem finish (result : Outcome β) : (finish result).WorksOnNodes where
  orderly _ _ hrested := .refl hrested
  heeds := trivial

/-- Work on nodes that goes on with work on nodes and passes refusals on. -/
theorem bind {p : Program (Outcome β)} {f : Outcome β → Program (Outcome γ)} (h : p.WorksOnNodes)
    (hf : ∀ outcome, (f outcome).WorksOnNodes)
    (hpass : ∀ (operation : Operation) phase,
      f (.error (operation.refused phase)) = .finish (.error (operation.refused phase))) :
    (p.bind f).WorksOnNodes where
  orderly role st hrested := by
    refine (h.orderly role st hrested).bind ?_
    intro st' outcome hlater
    have hnext := (hf outcome).orderly role st' hlater.rested
    exact hnext.mono fun st'' _ hlater' => hlater.trans hlater'
  heeds := h.heeds.bind (fun outcome => (hf outcome).heeds) hpass

end WorksOnNodes

end Program

namespace Session

open Program

/-- A node operation works on nodes. -/
theorem worksOnNodes_onNode {operation : Operation} {request : Request β}
    (hkind : request.kind.operation? = some operation) (path : String) :
    (onNode operation path request).run.WorksOnNodes where
  orderly role st hrested := by
    rw [run_onNode]
    show Program.Orderly _ _ _ (ite _ _ _)
    by_cases hphase : st.phase = .started
    · rw [if_pos hphase]
      cases Path.check path with
      | error fault => exact .refl hrested
      | ok =>
        have hlinked : st.linked = true := by rw [hrested, hphase]; rfl
        exact .inr ⟨operation, rfl, RequestKind.isNode_of_operation? hkind, hphase, hlinked,
          fun _ _ hlater => hlater⟩
    · rw [if_neg hphase]
      exact .refl hrested
  heeds := by
    rw [run_onNode]
    intro phase
    dsimp only
    by_cases hphase : phase = .started
    · rw [if_pos hphase]
      cases Path.check path with
      | error fault => trivial
      | ok => exact ⟨⟨operation, rfl, hkind, fun _ => rfl⟩, fun _ => trivial⟩
    · rw [if_neg hphase]
      trivial

theorem worksOnNodes_createPath (path : String) (data : List UInt8) (mode : NodeMode) :
    (createPath path data mode).run.WorksOnNodes := worksOnNodes_onNode rfl path

theorem worksOnNodes_pathExists (path : String) : (pathExists path).run.WorksOnNodes := by
  rw [run_pathExists]
  exact (worksOnNodes_onNode rfl path).bind (fun _ => .finish _) fun _ _ => rfl

/-- To make sure that there is a node is to look it up and perhaps to create it. -/
theorem worksOnNodes_ensurePath (path : String) : (ensurePath path).run.WorksOnNodes := by
  rw [run_ensurePath]
  refine (worksOnNodes_pathExists path).bind ?_ fun _ _ => rfl
  rintro (cause | found)
  · exact .finish _
  · cases found with
    | true => exact .finish _
    | false =>
      exact (worksOnNodes_createPath path [] .persistent).bind (fun _ => .finish _) fun _ _ => rfl

theorem worksOnNodes_childPaths (path : String) : (childPaths path).run.WorksOnNodes := by
  rw [run_childPaths]
  exact (worksOnNodes_onNode rfl path).bind (fun _ => .finish _) fun _ _ => rfl

/-! ## Starting and closing -/

/-- How a task stands when it has ended with a result. -/
structure Ended (st : Standing) : Prop where
  rested : st.Rested
  lifted : st.armed = false

/-- How a start stands when it has ended: after a success the session is started, and after a failure
nobody holds the start any more unless the session was closed. -/
structure Settled (st : Standing) (result : Outcome Unit) : Prop where
  ended : Ended st
  ok : result = .ok () → st.phase = .started
  error : ∀ cause, result = .error cause → st.mine = true → st.phase = .closed

/-- The holder of a start that is not initialized or closed yet may let go of it. -/
theorem orderly_letGo (cause : Error) {st : Standing} (hmine : st.mine = true)
    (harmed : st.armed = false) (hrested : st.Rested)
    (hphase : st.phase = .starting ∨ st.phase = .closed) :
    (letGo cause).Orderly .start Settled st := by
  show ite _ _ _
  rcases hphase with hphase | hphase
  · rw [if_pos hphase]
    refine ⟨_, .release hphase hmine harmed, rfl, ⟨?_, harmed⟩, nofun, nofun⟩
    rw [Rested, hrested, hphase]
    rfl
  · have hother : st.phase ≠ .starting := by
      rw [hphase]
      decide
    rw [if_neg hother]
    exact ⟨⟨hrested, harmed⟩, nofun, fun _ _ _ => hphase⟩

/-- The holder of a start may give it up at any waiting point. -/
theorem orderly_abandon (cause : Error) {st : Standing} (hmine : st.mine = true)
    (harmed : st.armed = false) (hrested : st.Rested) (hproper : st.Proper) :
    (abandon cause).Orderly .start Settled st := by
  rw [abandon_eq]
  show ite _ _ _
  by_cases hstarted : st.phase = .started
  · rw [if_pos hstarted]
    have hlinked : st.linked = true := by rw [hrested, hstarted]; rfl
    refine ⟨_, .withdraw hstarted hmine, rfl, rfl, hlinked, .inr ⟨rfl, hmine, rfl⟩, ?_⟩
    intro _ st' hlater
    -- nobody else touches the session while the holder of the start closes the connection
    obtain rfl := hlater.eq_of_starting rfl hmine rfl
    exact orderly_letGo cause hmine harmed rfl (.inl rfl)
  · rw [if_neg hstarted]
    refine orderly_letGo cause hmine harmed hrested ?_
    have hinit := hproper hmine
    cases hphase : st.phase with
    | uninitialized => exact absurd hphase hinit
    | starting => exact .inl rfl
    | started => exact absurd hphase hstarted
    | closed => exact .inr rfl

/-- How the holder of a start stands when it has tried to establish the session. -/
structure Established (armed : Bool) (st : Standing) (result : Outcome Unit) : Prop where
  rested : st.Rested
  proper : st.Proper
  mine : st.mine = true
  armed_eq : st.armed = armed
  ok : result = .ok () → st.phase = .started ∨ st.phase = .closed

/-- The holder of a start connects, and works on nodes when it has connected. -/
theorem orderly_establish (s : Session) {st : Standing} (hmine : st.mine = true)
    (hphase : st.phase = .starting) (hlinked : st.linked = false) :
    (establish s).run.Orderly .start (Established st.armed) st := by
  rw [run_establish]
  refine .inl ⟨rfl, rfl, rfl, hmine, hphase, hlinked, ?_, ?_⟩
  · intro _
    -- from here on other tasks may work on nodes, and may close the session
    refine ⟨{ st with phase := .started, linked := true }, .establish hphase hmine, rfl, ?_⟩
    have hnodes := worksOnNodes_ensurePath s.rootPath
    refine (hnodes.orderly .start { st with phase := .started, linked := true } rfl).mono ?_
    intro st' _ hlater
    have hheld : st'.phase = .started ∨ st'.phase = .closed :=
      (hlater.held hmine).imp_right And.right
    have hinit : st'.phase ≠ .uninitialized := by
      rcases hheld with heq | heq <;> rw [heq] <;> decide
    exact ⟨hlater.rested, fun _ => hinit, hlater.mine_eq.trans hmine, hlater.armed_eq, fun _ => hheld⟩
  · intro _
    refine ⟨?_, ?_, hmine, rfl, nofun⟩
    · rw [Rested, hlinked, hphase]
      rfl
    · intro _
      rw [hphase]
      decide

/-- A start whose time limit is lifted ends in order. -/
theorem orderly_conclude {st : Standing} {result : Outcome Unit}
    (h : Established false st result) : (conclude result).Orderly .start Settled st := by
  obtain ⟨hrested, hproper, hmine, harmed, hok⟩ := h
  cases result with
  | error cause => exact orderly_abandon cause hmine harmed hrested hproper
  | ok =>
    rw [conclude_ok]
    refine ⟨⟨hrested, harmed⟩, ?_, ?_⟩
    · intro hresult
      by_cases hstarted : st.phase = .started
      · exact hstarted
      · rw [if_neg hstarted] at hresult
        cases hresult
    · intro cause hresult _
      refine (hok rfl).resolve_left fun hstarted => ?_
      rw [if_pos hstarted] at hresult
      cases hresult

/-- A start keeps to its role, under a time limit and without one. -/
theorem orderly_start (s : Session) (limit : Option Duration) {st : Standing} (hrested : st.Rested)
    (hmine : st.mine = false) (harmed : st.armed = false) :
    (start s limit).run.Orderly .start Settled st := by
  rw [run_start]
  show ite _ _ _
  by_cases hphase : st.phase = .uninitialized
  · rw [if_pos hphase]
    have hlinked : st.linked = false := by rw [hrested, hphase]; rfl
    refine ⟨{ st with phase := .starting, mine := true }, .take hphase, rfl, ?_⟩
    cases limit with
    | none =>
      refine Orderly.bind (orderly_establish s rfl rfl hlinked) ?_
      intro st' result hresult
      dsimp only at hresult
      rw [harmed] at hresult
      exact orderly_conclude hresult
    | some limit =>
      refine ⟨rfl, ?_, ?_⟩
      · -- the limit may strike at any waiting point, so nothing is known but who holds the start
        intro st' hmine' harmed' hrested' hproper'
        exact orderly_abandon _ hmine' harmed' hrested' hproper'
      · refine Orderly.bind (orderly_establish s rfl rfl hlinked) ?_
        intro st' result ⟨hrested', hproper', hmine', _, hok⟩
        exact orderly_conclude ⟨hrested', hproper', hmine', rfl, hok⟩
  · rw [if_neg hphase]
    refine ⟨⟨hrested, harmed⟩, nofun, ?_⟩
    intro _ _ hheld
    rw [hmine] at hheld
    cases hheld

/-- A close keeps to its role. -/
theorem orderly_close {st : Standing} (hrested : st.Rested) (harmed : st.armed = false) :
    Session.close.run.Orderly .close (fun st' _ => Ended st') st := by
  rw [run_close]
  show ite _ _ _
  by_cases hphase : st.phase = .started
  · rw [if_pos hphase]
    have hlinked : st.linked = true := by rw [hrested, hphase]; rfl
    refine ⟨_, .close hphase, rfl, rfl, hlinked, .inl ⟨rfl, rfl⟩, ?_⟩
    intro reply st' hlater
    have hended : Ended st' := ⟨hlater.rested, hlater.armed_eq.trans harmed⟩
    cases reply with
    | ok => exact hended
    | error => exact hended
  · rw [if_neg hphase]
    exact ⟨hrested, harmed⟩

end Session

/-! ## Calls -/

/-- A call of an operation of a session, indexed by the type of its answer. -/
inductive SessionCall : Type → Type
  | start (limit : Option Duration) : SessionCall Unit
  | close : SessionCall Unit
  | nodeStat (path : String) : SessionCall (Option NodeStat)
  | pathExists (path : String) : SessionCall Bool
  | createPath (path : String) (data : List UInt8) (mode : NodeMode) : SessionCall Unit
  | ensurePath (path : String) : SessionCall Unit
  | setData (path : String) (data : List UInt8) (version : Int32) : SessionCall NodeStat
  | deletePath (path : String) : SessionCall Unit
  | childNames (path : String) : SessionCall (List String)
  | childPaths (path : String) : SessionCall (List String)

namespace SessionCall

/-- What a task that makes the call is there for. -/
def role : SessionCall β → Role
  | start _ => .start
  | close => .close
  | nodeStat _ | pathExists _ | createPath .. | ensurePath _ | setData .. | deletePath _
  | childNames _ | childPaths _ => .node

/-- The program of a call. -/
def program (s : Session) : SessionCall β → Program (Outcome β)
  | start limit => (Session.start s limit).run
  | close => Session.close.run
  | nodeStat path => (Session.nodeStat path).run
  | pathExists path => (Session.pathExists path).run
  | createPath path data mode => (Session.createPath path data mode).run
  | ensurePath path => (Session.ensurePath path).run
  | setData path data version => (Session.setData path data version).run
  | deletePath path => (Session.deletePath path).run
  | childNames path => (Session.childNames path).run
  | childPaths path => (Session.childPaths path).run

open Session

/-- A node operation works on nodes. -/
theorem worksOnNodes_program {call : SessionCall β} (h : call.role = .node) (s : Session) :
    (call.program s).WorksOnNodes := by
  cases call with
  | start | close => cases h
  | nodeStat path | setData path | deletePath path | childNames path =>
    exact worksOnNodes_onNode rfl path
  | createPath path data mode => exact worksOnNodes_createPath path data mode
  | pathExists path => exact worksOnNodes_pathExists path
  | ensurePath path => exact worksOnNodes_ensurePath path
  | childPaths path => exact worksOnNodes_childPaths path

/-- Every call keeps to its role. -/
theorem orderly_program (call : SessionCall β) (s : Session) {st : Standing} (hrested : st.Rested)
    (hmine : st.mine = false) (harmed : st.armed = false) :
    (call.program s).Orderly call.role (fun st' _ => Ended st') st := by
  by_cases hrole : call.role = .node
  · refine ((worksOnNodes_program hrole s).orderly call.role st hrested).mono ?_
    intro st' _ hlater
    exact ⟨hlater.rested, hlater.armed_eq.trans harmed⟩
  · cases call with
    | start limit => exact (orderly_start s limit hrested hmine harmed).mono fun _ _ h => h.ended
    | close => exact orderly_close hrested harmed
    | _ => exact absurd rfl hrole

end SessionCall

end IdMint.Coordination
