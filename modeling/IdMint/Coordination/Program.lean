import IdMint.Coordination.Request
import IdMint.Error

/-! # Session programs

What a session operation does, as a tree: atomic accesses to the session's phase, calls to the
service, pauses, and a time limit. A program runs without interruption from one waiting point to the
next; the waiting points are the calls and the pauses. A call that is repeated under the retry policy
is one node of the tree, so the tree is finite in depth even where retrying never ends. -/

namespace IdMint.Coordination

/-- The life cycle of a session as the session itself keeps it. -/
inductive Phase
  /-- Not started, or rolled back after a failed start. -/
  | uninitialized
  /-- One task is starting the session. -/
  | starting
  /-- Node operations are permitted. -/
  | started
  /-- Closed for good. -/
  | closed
  deriving DecidableEq, Inhabited, Repr

/-- The state that users see: a session that is being started is not initialized yet. -/
def Phase.shown : Phase → SessionState
  | uninitialized | starting => .uninitialized
  | started => .started
  | closed => .closed

/-- The operations that a session refuses in the wrong state. -/
inductive Operation
  | start | close | readNode | createNode | writeNode | deleteNode | listChildren
  deriving DecidableEq, Inhabited, Repr

/-- The name of an operation in messages. -/
def Operation.label : Operation → String
  | start => "start"
  | close => "close"
  | readNode => "read node"
  | createNode => "create node"
  | writeNode => "write node"
  | deleteNode => "delete node"
  | listChildren => "list children"

/-- The error of an operation that the present phase does not permit. -/
def Operation.refused (operation : Operation) (phase : Phase) : Error :=
  .invalidState phase.shown operation.label

/-- What a task of a session does, down to a result of type `α`. -/
inductive Program (α : Type) : Type 1
  /-- Ends with a result. -/
  | finish (result : α) : Program α
  /-- Reads the phase. -/
  | observe (next : Phase → Program α) : Program α
  /-- Replaces the phase if it is the expected one, and tells whether it was. -/
  | exchange (expected new : Phase) (next : Bool → Program α) : Program α
  /-- Replaces the phase, whatever it is. -/
  | assign (new : Phase) (next : Program α) : Program α
  /-- Makes one call to the service. -/
  | call {β : Type} (request : Request β) (next : Except Fault β → Program α) : Program α
  /-- Makes a call and repeats it under the retry policy while it fails transiently. With a gate,
  every repetition needs a started session. -/
  | persist {β : Type} (gate : Option Operation) (request : Request β)
      (next : Outcome β → Program α) : Program α
  /-- Waits for a number of milliseconds. -/
  | pause (ms : Nat) (next : Program α) : Program α
  /-- Sets a time limit: a wait that lasts beyond it goes on with `late` instead. -/
  | arm (limit : Duration) (late next : Program α) : Program α
  /-- Lifts the time limit. -/
  | disarm (next : Program α) : Program α

namespace Program

/-- Goes on with another program where the first one ends. -/
protected def bind : Program α → (α → Program β) → Program β
  | finish result, f => f result
  | observe next, f => observe fun phase => (next phase).bind f
  | exchange expected new next, f => exchange expected new fun won => (next won).bind f
  | assign new next, f => assign new (next.bind f)
  | call request next, f => call request fun reply => (next reply).bind f
  | persist gate request next, f => persist gate request fun outcome => (next outcome).bind f
  | pause ms next, f => pause ms (next.bind f)
  | arm limit late next, f => arm limit (late.bind f) (next.bind f)
  | disarm next, f => disarm (next.bind f)

instance : Monad Program where
  pure := finish
  bind := Program.bind

theorem bind_finish (p : Program α) : p.bind finish = p := by
  induction p with
  | finish => rfl
  | observe _ ih | exchange _ _ _ ih | call _ _ ih | persist _ _ _ ih =>
    simp only [Program.bind]; congr 1; funext x; exact ih x
  | assign _ _ ih | pause _ _ ih | disarm _ ih => simp only [Program.bind, ih]
  | arm _ _ _ ihl ihn => simp only [Program.bind, ihl, ihn]

theorem bind_assoc (p : Program α) (f : α → Program β) (g : β → Program γ) :
    (p.bind f).bind g = p.bind fun a => (f a).bind g := by
  induction p with
  | finish => rfl
  | observe _ ih | exchange _ _ _ ih | call _ _ ih | persist _ _ _ ih =>
    simp only [Program.bind]; congr 1; funext x; exact ih x
  | assign _ _ ih | pause _ _ ih | disarm _ ih => simp only [Program.bind, ih]
  | arm _ _ _ ihl ihn => simp only [Program.bind, ihl, ihn]

instance : LawfulMonad Program :=
  LawfulMonad.mk' Program bind_finish (fun _ _ => rfl) bind_assoc

end Program

/-- A program that may fail. -/
abbrev Action (α : Type) : Type 1 := ExceptT Error Program α

namespace Action

/-- Reads the phase. -/
def observe : Program Phase := .observe .finish

/-- Replaces the phase if it is the expected one, and tells whether it was. -/
def exchange (expected new : Phase) : Program Bool := .exchange expected new .finish

/-- Replaces the phase, whatever it is. -/
def assign (new : Phase) : Program Unit := .assign new (.finish ())

/-- Makes one call to the service. -/
def call (request : Request β) : Program (Except Fault β) := .call request .finish

/-- Makes a call and repeats it under the retry policy while it fails transiently. -/
def persist (gate : Option Operation) (request : Request β) : Action β :=
  .mk (.persist gate request .finish)

/-- Waits for a number of milliseconds. -/
def pause (ms : Nat) : Program Unit := .pause ms (.finish ())

/-- Lifts the time limit. -/
def disarm : Program Unit := .disarm (.finish ())

end Action

end IdMint.Coordination
