import IdMint.Coordination.Task
import IdMint.Proofs.ActionTrees
import IdMint.Proofs.Batches
import IdMint.Proofs.NodeVersions

/-! # What issuing sequence numbers hands out

A program that issues sequence numbers writes to one node only, and hands out the versions with which
its writes are answered, in order, whatever the service answers and whenever the session is closed.
`Draws` says so of a program by recursion over its tree, with what was issued so far as an argument;
a task keeps it from one waiting point to the next. -/

namespace IdMint.Coordination

open Batch

/-- The number that an answer to a write issues. -/
def Request.issued (request : Request β) (reply : Except ε β) : List String :=
  ((request.written reply).map fun written => toString written.2).toList

namespace Program

/-- The program writes to no node but the one at the path, and ends with a result that fits what was
issued, if `issued` was issued before. -/
def Draws (path : String) (post : List String → α → Prop) : List String → Program α → Prop
  | issued, finish result => post issued result
  | issued, observe next => ∀ phase, (next phase).Draws path post issued
  | issued, persist _ request next => request.WritesOnly path ∧
    ∀ outcome, Plain outcome → (next outcome).Draws path post (issued ++ request.issued outcome)
  | _, exchange .. | _, assign .. | _, call .. | _, pause .. | _, arm .. | _, disarm _ => False

variable {path : String}

/-- A program that goes on with another one fits what the other one fits after it. -/
theorem Draws.bind {post : List String → α → Prop} {post' : List String → β → Prop}
    {p : Program α} {f : α → Program β} {issued : List String} (h : p.Draws path post issued)
    (hf : ∀ issued result, post issued result → (f result).Draws path post' issued) :
    (p.bind f).Draws path post' issued := by
  induction p generalizing issued with
  | finish result => exact hf issued result h
  | observe next ih => exact fun phase => ih phase (h phase)
  | persist gate request next ih =>
    exact ⟨h.1, fun outcome hplain => ih outcome (h.2 outcome hplain)⟩
  | exchange | assign | call | pause | arm | disarm => exact h.elim

end Program

/-! ## Programs -/

/-- The action issues what its result shows behind what was issued before. -/
def Action.Issues (path : String) (shown : Outcome α → List String) (x : Action α) : Prop :=
  ∀ issued, x.run.Draws path
    (fun all outcome => all = issued ++ shown outcome ∧ Plain outcome) issued

/-- An action that goes on after one that issues nothing. -/
theorem draws_bind {path : String} {issued : List String}
    {post : List String → Outcome β → Prop}
    (herror : ∀ cause, cause.issued = [] → post issued (.error cause)) {x : Action α}
    (h : x.Issues path fun _ => []) {f : α → Action β}
    (hf : ∀ a, (f a).run.Draws path post issued) : (x >>= f).run.Draws path post issued := by
  rw [run_bind]
  refine (h issued).bind ?_
  rintro all outcome ⟨rfl, hplain⟩
  rw [List.append_nil]
  cases outcome with
  | ok a => exact hf a
  | error cause => exact herror cause (hplain cause rfl)

/-- An action that goes on after a check. -/
theorem draws_lift_bind {path : String} {issued : List String}
    {post : List String → Outcome β → Prop}
    (herror : ∀ cause, cause.issued = [] → post issued (.error cause)) {check : Outcome α}
    (hcheck : Plain check) {f : α → Action β}
    (hf : ∀ a, check = .ok a → (f a).run.Draws path post issued) :
    Program.Draws path post issued ((check : Action α) >>= f : Action β).run := by
  rw [run_lift_bind]
  cases check with
  | ok a => exact hf a rfl
  | error cause => exact herror cause (hcheck cause rfl)

namespace Session

/-- A node operation issues what the answer to its call tells. -/
theorem issues_onNode {path : String} {request : Request β} (h : request.WritesOnly path)
    (operation : Operation) (node : String) :
    (onNode operation node request).Issues path request.issued := by
  intro issued
  rw [run_onNode]
  intro phase
  have hnothing (cause : Error) : issued ++ request.issued (.error cause : Outcome β) = issued := by
    cases request <;> exact List.append_nil issued
  show (if phase = .started then _ else _ : Program (Outcome β)).Draws path _ issued
  by_cases hphase : phase = .started
  · rw [if_pos hphase]
    cases Path.check node with
    | ok => exact ⟨h, fun outcome hplain => ⟨rfl, hplain⟩⟩
    | error fault => exact ⟨(hnothing _).symm, plain_error rfl⟩
  · rw [if_neg hphase]
    exact ⟨(hnothing _).symm, plain_error rfl⟩

/-- Asking whether a node is there issues nothing. -/
theorem issues_pathExists (path node : String) : (pathExists node).Issues path fun _ => [] := by
  intro issued
  have hlookUp : (Request.lookUp node).WritesOnly path := trivial
  rw [run_pathExists]
  refine (issues_onNode hlookUp .readNode node issued).bind ?_
  rintro all outcome ⟨hall, hplain⟩
  exact ⟨hall, hplain.map Option.isSome⟩

/-- Creating a node issues nothing. -/
theorem issues_createPath (path node : String) (data : List UInt8) (mode : NodeMode) :
    (createPath node data mode).Issues path fun _ => [] := by
  have hcreate : (Request.create node data mode).WritesOnly path := trivial
  exact issues_onNode hcreate .createNode node

/-- Making sure that a node is there issues nothing. -/
theorem issues_ensurePath (path node : String) : (ensurePath node).Issues path fun _ => [] := by
  intro issued
  rw [run_ensurePath]
  refine (issues_pathExists path node issued).bind ?_
  rintro all outcome ⟨hall, hplain⟩
  rw [List.append_nil] at hall
  subst hall
  rcases outcome with cause | found
  · exact ⟨(List.append_nil all).symm, plain_error (hplain cause rfl)⟩
  cases found with
  | true => exact ⟨(List.append_nil all).symm, plain_ok ()⟩
  | false =>
    refine (issues_createPath path node [] .persistent all).bind ?_
    rintro all outcome ⟨hall, hplain⟩
    refine ⟨hall, ?_⟩
    unfold forgiven
    split
    · exact plain_ok ()
    · exact hplain

end Session

namespace Sequence

open Session

/-- What an action hands out that draws one number. -/
def one (outcome : Outcome String) : List String := handedOut (single outcome)

/-- A write issues the number that it returns. -/
theorem issues_draw (path : String) : (draw path).Issues path one := by
  intro issued
  have hwrite : (Request.setData path [] anyVersion).WritesOnly path := rfl
  rw [run_draw]
  refine (issues_onNode hwrite .writeNode path issued).bind ?_
  rintro all outcome ⟨rfl, hplain⟩
  cases outcome with
  | ok stat => exact ⟨rfl, plain_ok _⟩
  | error cause =>
    have hcause := hplain cause rfl
    refine ⟨congrArg (issued ++ ·) ?_, plain_error hcause⟩
    exact hcause.symm

/-- A result that hands out exactly what was issued. -/
def HandsOut (issued : List String) (result : Outcome (List String)) : Prop :=
  handedOut result = issued

/-- Writes one after the other hand out the numbers that they issue, also where one of them fails. -/
theorem draws_collectAfter (path : String) (issued : List String) (count : Nat) :
    (collectAfter (draw path).run issued count).Draws path HandsOut issued := by
  induction count generalizing issued with
  | zero => exact handedOut_ok issued
  | succ count ih =>
    rw [collectAfter]
    refine (issues_draw path issued).bind ?_
    rintro all outcome ⟨rfl, hplain⟩
    cases outcome with
    | ok id => exact ih (issued ++ [id])
    | error cause =>
      -- the error of the batch holds what the writes before have issued
      have hcause := hplain cause rfl
      show handedOut (.error (interrupted issued cause)) = issued ++ cause.issued
      rw [handedOut_interrupted hcause, hcause, List.append_nil]

/-- An issuer writes to the node of the key, and returns the number that the write issues. -/
theorem draws_next (s : Session) (key : String) :
    (single <$> (next s key).run).Draws (s.nodePath key) HandsOut [] := by
  have hone : (next s key).run.Draws (s.nodePath key)
      (fun all outcome => all = [] ++ one outcome ∧ Plain outcome) [] := by
    have herror (cause : Error) (h : cause.issued = []) :
        [] = [] ++ one (.error cause) ∧ Plain (.error cause : Outcome String) :=
      ⟨h.symm, plain_error h⟩
    refine draws_lift_bind herror (fun _ => issued_of_check) ?_
    intro _ _
    refine draws_bind herror (issues_ensurePath _ _) ?_
    intro _
    exact issues_draw _ []
  refine hone.bind ?_
  rintro all outcome ⟨hall, -⟩
  exact hall.symm

/-- An error that hands out nothing fits where nothing was issued. -/
theorem handsOut_error {cause : Error} (h : cause.issued = []) : HandsOut [] (.error cause) := h

/-- An issuer of several numbers writes to the node of the key, and hands out the numbers that its
writes issue. -/
theorem draws_nextMany (s : Session) (key : String) (count : UInt64) :
    (nextMany s key count).run.Draws (s.nodePath key) HandsOut [] := by
  refine draws_lift_bind (fun _ => handsOut_error) (fun _ => issued_of_accept) ?_
  intro _ _
  refine draws_lift_bind (fun _ => handsOut_error) (fun _ => issued_of_check) ?_
  intro _ _
  refine draws_bind (fun _ => handsOut_error) (issues_ensurePath _ _) ?_
  intro _
  exact draws_collectAfter _ [] _

/-! ## Calls -/

/-- A call to an issuer of sequence numbers. -/
inductive Call
  /-- One number for a composite key. -/
  | next (key : String)
  /-- One number for a name and a key. -/
  | nextFor (name key : String)
  /-- Several numbers for a composite key. -/
  | nextMany (key : String) (count : UInt64)
  /-- Several numbers for a name and a key. -/
  | nextManyFor (name key : String) (count : UInt64)
  deriving DecidableEq

/-- What a call runs, as a program for several numbers. -/
def Call.program (s : Session) : Call → Program (Outcome (List String))
  | next key => single <$> (Sequence.next s key).run
  | nextFor name key => single <$> (Sequence.nextFor s name key).run
  | nextMany key count => (Sequence.nextMany s key count).run
  | nextManyFor name key count => (Sequence.nextManyFor s name key count).run

/-- The composite key that a call is for. -/
def Call.key (s : Session) : Call → String
  | next key | nextMany key _ => key
  | nextFor name key | nextManyFor name key _ => CompositeKey.join s.settings.rootName name key

/-- The node that holds the numbers of the call's key. -/
def Call.path (s : Session) (call : Call) : String := s.nodePath (call.key s)

/-- A composite key that is accepted is the joined one. -/
theorem text_of_ofParts {scope name key : String} {composite : CompositeKey}
    (h : CompositeKey.ofParts scope name key = .ok composite) :
    composite.text = CompositeKey.join scope name key := by
  unfold CompositeKey.ofParts at h
  split at h
  · cases h
  · split at h
    · cases h
    · split at h
      · cases h
      · cases h; rfl

/-- A call writes to the node of its key only, and hands out the numbers that its writes issue. -/
theorem Call.draws_program (s : Session) (call : Call) :
    (call.program s).Draws (call.path s) HandsOut [] := by
  cases call with
  | next key => exact draws_next s key
  | nextMany key count => exact draws_nextMany s key count
  | nextFor name key =>
    show ((Sequence.nextFor s name key).run.bind fun outcome => .finish (single outcome)).Draws _ _ _
    rw [Sequence.nextFor, run_lift_bind]
    cases hparts : CompositeKey.ofParts s.settings.rootName name key with
    | error cause => exact handsOut_error (issued_of_ofParts hparts)
    | ok composite =>
      have hpath : Call.path s (.nextFor name key) = s.nodePath composite.text :=
        congrArg s.nodePath (text_of_ofParts hparts).symm
      rw [hpath]
      exact draws_next s composite.text
  | nextManyFor name key count =>
    refine draws_lift_bind (fun _ => handsOut_error) (fun _ => issued_of_ofParts) ?_
    intro composite hparts
    have hpath : Call.path s (.nextManyFor name key count) = s.nodePath composite.text :=
      congrArg s.nodePath (text_of_ofParts hparts).symm
    rw [hpath]
    exact draws_nextMany s composite.text count

end Sequence

end IdMint.Coordination
