import IdMint.Coordination.Fault
import IdMint.Counter.Fault
import IdMint.Duration

/-! # Errors

Everything that issuing an identifier can fail with, as causes; `Error.message` holds the wording.
The causes fall into four groups: arguments and settings that are refused before anything happens,
the clock, the life cycle of a coordination session, and failures that a backend reports. -/

namespace IdMint

/-- The part of a packed identifier that a number is meant for. -/
inductive IdField
  | timestamp
  | datacenter
  | machine
  | sequence
  deriving DecidableEq, Inhabited, Repr

/-- The name of a field in messages. -/
def IdField.label : IdField → String
  | timestamp => "timestamp"
  | datacenter => "datacenter_id"
  | machine => "machine_id"
  | sequence => "sequence"

/-- The reason why an argument is refused. -/
inductive ArgumentFault
  /-- The number does not fit its field of the identifier. -/
  | fieldTooLarge (field : IdField) (value greatest : UInt64)
  /-- The timestamp lies before the epoch that it is counted from. -/
  | beforeEpoch (timestamp epoch : UInt64)
  /-- The clock reading does not fit the timestamp field. -/
  | timestampOutOfRange (reading : UInt64)
  /-- The step of a counter is zero or no positive signed number. -/
  | stepOutOfRange (step : UInt64)
  /-- The width of a counter's suffix is zero. -/
  | lengthZero
  /-- Any other reason, in the caller's words. -/
  | other (reason : String)
  deriving DecidableEq, Inhabited, Repr

/-- The words in which the reason is reported. -/
def ArgumentFault.message : ArgumentFault → String
  | fieldTooLarge field value greatest =>
    field.label ++ " " ++ toString value ++ " exceeds maximum " ++ toString greatest
  | beforeEpoch timestamp epoch =>
    "timestamp " ++ toString timestamp ++ " precedes epoch " ++ toString epoch
  | timestampOutOfRange reading => "timestamp " ++ toString reading ++ " exceeds the 41-bit range"
  | stepOutOfRange step => "step must be in [1, 9223372036854775807], got " ++ toString step
  | lengthZero => "length must be positive"
  | other reason => reason

/-- The life cycle of a coordination session as its users see it. -/
inductive SessionState
  /-- Never started, or on the way to be started. -/
  | uninitialized
  /-- Started: node operations are permitted. -/
  | started
  /-- Closed for good. -/
  | closed
  deriving DecidableEq, Inhabited, Repr

/-- The name of a session state. -/
def SessionState.label : SessionState → String
  | uninitialized => "uninitialized"
  | started => "started"
  | closed => "closed"

/-- What issuing an identifier can fail with. -/
inductive Error
  /-- An argument is outside its documented range. -/
  | invalidArgument (fault : ArgumentFault)
  /-- A required part of a key is empty. -/
  | emptyKey (part : String)
  /-- A batch asks for no identifiers or for more than the limit. -/
  | countOutOfRange (count limit : UInt64)
  /-- The clock reads earlier than the last timestamp issued. -/
  | clockMovedBackwards (last now : UInt64)
  /-- The system clock reads earlier than the epoch. -/
  | clockBeforeEpoch
  /-- The address of the coordination service is missing or blank. -/
  | missingConnectString
  /-- The tag names no retry policy. -/
  | unsupportedRetryType (tag : String)
  /-- The coordination session was not there within its time limit. -/
  | connectionTimeout (limit : Duration)
  /-- A session operation was tried in a state that does not permit it. -/
  | invalidState (state : SessionState) (operation : String)
  /-- A batch failed part of the way; the identifiers issued before stay issued. -/
  | partialBatch (issued : List String) (cause : Error)
  /-- The counter store failed or sent a malformed reply. -/
  | store (fault : Counter.Fault)
  /-- The coordination service failed. -/
  | coordination (fault : Coordination.Fault)
  deriving DecidableEq, Inhabited, Repr

/-- A value, or the error that stands in its place. -/
abbrev Outcome (α : Type) : Type := Except Error α

namespace Error

/-- The words in which an error is reported. -/
def message : Error → String
  | invalidArgument fault => "invalid argument: " ++ fault.message
  | emptyKey part => part ++ " is empty"
  | countOutOfRange count limit =>
    "count must be in [1, " ++ toString limit ++ "], got " ++ toString count
  | clockMovedBackwards last now =>
    "clock moved backwards: last issued " ++ toString last ++ " ms, now " ++ toString now ++ " ms"
  | clockBeforeEpoch => "system clock is before the configured epoch"
  | missingConnectString => "coordination connect string is empty"
  | unsupportedRetryType tag => "unsupported retry type: " ++ Text.quote tag
  | connectionTimeout limit =>
    "timed out after " ++ limit.text ++ " waiting for the coordination session"
  | invalidState state operation =>
    "cannot " ++ operation ++ " while session is " ++ state.label
  | partialBatch issued cause =>
    "batch failed after " ++ toString issued.length ++ " ids: " ++ cause.message
  | store fault => "store error: " ++ fault.message
  | coordination fault => "coordination error: " ++ fault.message

/-- The words of the backend's own failure that an error passes on, if it passes one on. -/
def source? : Error → Option String
  | store fault => some fault.message
  | coordination fault => some fault.message
  | _ => none

end Error

end IdMint
