import IdMint.Coordination.Sequence

/-! # Actions as trees

The session programs that the operations of a session and of its issuer of sequence numbers run, from
one atomic access, call or end to the next. -/

namespace IdMint.Coordination

/-! ## Sequencing -/

/-- An action that goes on with another one where it succeeds. -/
theorem run_bind (x : Action α) (f : α → Action β) :
    (x >>= f).run = x.run.bind fun
      | .ok a => (f a).run
      | .error cause => .finish (.error cause) := by
  show Program.bind _ _ = Program.bind _ _
  congr 1
  funext outcome
  cases outcome <;> rfl

/-- An action that goes on where a check accepts its argument. -/
theorem run_lift_bind (check : Outcome α) (f : α → Action β) :
    ((check : Action α) >>= f).run =
      match check with
      | .ok a => (f a).run
      | .error cause => .finish (.error cause) := by
  cases check <;> rfl

namespace Session

/-! ## Node operations -/

/-- A node operation: the phase and the path are looked at, then one call is made and repeated. -/
theorem run_onNode (operation : Operation) (path : String) (request : Request β) :
    (onNode operation path request).run = .observe fun phase =>
      if phase = .started then
        match Path.check path with
        | .ok () => .persist (some operation) request .finish
        | .error fault => .finish (.error (.coordination fault))
      else .finish (.error (operation.refused phase)) := by
  show Program.observe _ = _
  congr 1
  funext phase
  by_cases hphase : phase = .started
  · subst hphase
    rw [if_pos rfl]
    unfold ensureValid
    cases Path.check path <;> rfl
  · rw [if_neg hphase]
    cases phase with
    | started => exact absurd rfl hphase
    | uninitialized | starting | closed => rfl

theorem run_pathExists (path : String) :
    (pathExists path).run = (onNode .readNode path (.lookUp path)).run.bind fun outcome =>
      .finish (outcome.map Option.isSome) := by
  show Program.bind _ _ = _
  congr 1
  funext outcome
  cases outcome <;> rfl

/-- What a node's creation counts as where the node only has to be there: a node that appeared
meanwhile will do. -/
def forgiven : Outcome Unit → Outcome Unit
  | .error (.coordination (.nodeExists _)) => .ok ()
  | outcome => outcome

/-- A node that is not there is created. -/
theorem run_ensurePath (path : String) :
    (ensurePath path).run = (pathExists path).run.bind fun
      | .error cause => .finish (.error cause)
      | .ok true => .finish (.ok ())
      | .ok false => (createPath path [] .persistent).run.bind fun outcome =>
        .finish (forgiven outcome) := by
  show Program.bind _ _ = _
  congr 1
  funext outcome
  rcases outcome with cause | found
  · rfl
  cases found with
  | true => rfl
  | false =>
    show Program.bind _ _ = Program.bind _ _
    congr 1
    funext outcome
    cases outcome with
    | ok => rfl
    | error cause =>
      cases cause with
      | coordination fault => cases fault <;> rfl
      | _ => rfl

theorem run_childPaths (path : String) :
    (childPaths path).run = (onNode .listChildren path (.children path)).run.bind fun outcome =>
      .finish (outcome.map fun names =>
        names.map fun name => withoutEndSlashes path ++ "/" ++ name) := by
  show Program.bind _ _ = _
  congr 1
  funext outcome
  cases outcome <;> rfl

/-! ## Starting and closing -/

theorem run_establish (s : Session) :
    (establish s).run =
      .persist none (.connect s.settings.sessionTimeoutMs s.settings.connectionTimeoutMs) fun
        | .ok () => .assign .started (ensurePath s.rootPath).run
        | .error cause => .finish (.error cause) := by
  show Program.persist _ _ _ = _
  congr 1
  funext outcome
  cases outcome <;> rfl

/-- The end of a start that is rolled back: the session is let go of. -/
def letGo (cause : Error) : Program (Outcome Unit) :=
  .exchange .starting .uninitialized fun _ => .finish (.error cause)

theorem abandon_eq (cause : Error) :
    abandon cause = .exchange .started .starting fun won =>
      if won then .call .close fun _ => letGo cause else letGo cause := rfl

theorem conclude_ok :
    conclude (.ok ()) = .observe fun phase =>
      .finish (if phase = .started then .ok () else .error (Operation.start.refused phase)) := rfl

/-- A session that was taken hold of is established, under a time limit if there is one. -/
def establishWithin (s : Session) : Option Duration → Program (Outcome Unit)
  | none => (establish s).run.bind conclude
  | some limit => .arm limit (abandon (.connectionTimeout limit))
      ((establish s).run.bind fun result => .disarm (conclude result))

theorem run_start (s : Session) (limit : Option Duration) :
    (start s limit).run = .exchange .uninitialized .starting fun won =>
      if won then establishWithin s limit
      else .observe fun phase => .finish (.error (Operation.start.refused phase)) := rfl

theorem run_close :
    Session.close.run = .exchange .started .closed fun won =>
      if won then .call .close fun
        | .ok () => .finish (.ok ())
        | .error fault => .finish (.error (.coordination fault))
      else .observe fun phase => .finish (.error (Operation.close.refused phase)) := rfl

end Session

namespace Sequence

open Session

theorem run_draw (path : String) :
    (draw path).run = (onNode .writeNode path (.setData path [] anyVersion)).run.bind fun outcome =>
      .finish (outcome.map fun stat => toString stat.version) := by
  show Program.bind _ _ = _
  congr 1
  funext outcome
  cases outcome <;> rfl

end Sequence

end IdMint.Coordination
