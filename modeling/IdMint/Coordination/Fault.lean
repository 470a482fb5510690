import IdMint.Text.Quoted

/-! # Faults of the coordination service

What a call to the coordination service can fail with. The three faults of the connection are
transient: the same call may succeed when it is tried again. -/

namespace IdMint.Coordination

/-- A failure that the coordination service reports. -/
inductive Fault
  /-- The connection to the service was lost. -/
  | connectionLoss
  /-- The service did not answer in time. -/
  | operationTimeout
  /-- The service ended the session. -/
  | sessionExpired
  /-- The node that was to be created is there already. -/
  | nodeExists (path : String)
  /-- The node that was addressed is not there. -/
  | noNode (path : String)
  /-- The node has another version than the caller asked for. -/
  | badVersion (path : String)
  /-- The path is not absolute and normalized. -/
  | invalidPath (path reason : String)
  /-- Any other failure, in the service's words. -/
  | other (text : String)
  deriving DecidableEq, Inhabited, Repr

namespace Fault

/-- Whether the failure is transient, so that the call may be tried again. -/
def isRetryable : Fault → Bool
  | connectionLoss | operationTimeout | sessionExpired => true
  | nodeExists _ | noNode _ | badVersion _ | invalidPath _ _ | other _ => false

/-- The words in which a failure is reported. -/
def message : Fault → String
  | connectionLoss => "connection lost"
  | operationTimeout => "operation timed out"
  | sessionExpired => "session expired"
  | nodeExists path => "node already exists: " ++ path
  | noNode path => "no node: " ++ path
  | badVersion path => "version conflict on " ++ path
  | invalidPath path reason => "invalid path " ++ Text.quote path ++ ": " ++ reason
  | other text => text

end Fault

end IdMint.Coordination
