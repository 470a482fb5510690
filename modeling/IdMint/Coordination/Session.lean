import IdMint.Coordination.Path
import IdMint.Coordination.Program
import IdMint.Coordination.Settings
import IdMint.Retry.Policy

/-! # Coordination sessions

A session owns one connection to the coordination service and lets node operations through only while
it is started. Its life is `uninitialized`, `started`, `closed`; a start that fails leads back to
`uninitialized`, and `closed` is final. -/

namespace IdMint.Coordination

open IdMint.Coordination.Action

/-- A session: its settings, and the retry policy that they name. -/
structure Session where
  /-- The settings, checked. -/
  settings : CoordinationSettings
  /-- How calls that fail transiently are repeated. -/
  policy : RetryPolicy

namespace Session

/-- Checks the settings of a session. Nothing is sent to the service. -/
def ofSettings (settings : CoordinationSettings) : Outcome Session := do
  if Text.allBlank settings.connectString then throw .missingConnectString
  if settings.rootName.isEmpty then throw (.emptyKey "prefix")
  let policy ← RetryPolicy.ofSettings settings.retry
  match Path.check ("/" ++ settings.rootName) with
  | .error fault => throw (.coordination fault)
  | .ok () => return ⟨settings, policy⟩

/-- The path of the node that all sequence nodes lie below. -/
def rootPath (s : Session) : String := "/" ++ s.settings.rootName

/-- The path of the node for a key. -/
def nodePath (s : Session) (key : String) : String := "/" ++ s.settings.rootName ++ "/" ++ key

/-! ## Node operations -/

/-- Goes on only while the session is started. -/
def ensureStarted (operation : Operation) : Action Unit := do
  let phase ← observe
  unless phase = .started do throw (operation.refused phase)

/-- Goes on only with a valid path. -/
def ensureValid (path : String) : Action Unit :=
  match Path.check path with
  | .ok () => pure ()
  | .error fault => throw (.coordination fault)

/-- A node operation: refused unless the session is started and the path is valid, then one call,
repeated under the retry policy as long as the session stays started. -/
def onNode (operation : Operation) (path : String) (request : Request β) : Action β := do
  ensureStarted operation
  ensureValid path
  persist (some operation) request

/-- The stat of a node, absent where the node is. -/
def nodeStat (path : String) : Action (Option NodeStat) := onNode .readNode path (.lookUp path)

/-- Whether there is a node at a path. -/
def pathExists (path : String) : Action Bool := return (← nodeStat path).isSome

/-- Creates a node and the ancestors that are missing; a node that is there already is an error. -/
def createPath (path : String) (data : List UInt8) (mode : NodeMode) : Action Unit :=
  onNode .createNode path (.create path data mode)

/-- Creates a persistent node without data, unless there is one. A node that appears meanwhile is as
good as one created. -/
def ensurePath (path : String) : Action Unit := do
  if ← pathExists path then return
  tryCatch (createPath path [] .persistent) fun
    | .coordination (.nodeExists _) => pure ()
    | cause => throw cause

/-- Writes to a node that has the given version, or any version, and returns its new stat. -/
def setData (path : String) (data : List UInt8) (version : Int32) : Action NodeStat :=
  onNode .writeNode path (.setData path data version)

/-- Deletes a node and everything below it. -/
def deletePath (path : String) : Action Unit := onNode .deleteNode path (.delete path)

/-- The names of the nodes right below a node. -/
def childNames (path : String) : Action (List String) := onNode .listChildren path (.children path)

/-- A path without the slashes at its end. -/
def withoutEndSlashes (path : String) : String :=
  String.ofList (path.toList.reverse.dropWhile (· = '/')).reverse

/-- The paths of the nodes right below a node. -/
def childPaths (path : String) : Action (List String) := do
  let names ← childNames path
  return names.map fun name => withoutEndSlashes path ++ "/" ++ name

/-! ## Starting and closing -/

/-- Connects, under the retry policy, and makes sure that the root node exists. -/
def establish (s : Session) : Action Unit := do
  persist none (.connect s.settings.sessionTimeoutMs s.settings.connectionTimeoutMs)
  assign .started
  ensurePath s.rootPath

/-- Rolls a failed start back. A session that got as far as `started` closes its connection; one that
was closed meanwhile stays closed. -/
def abandon (cause : Error) : Program (Outcome Unit) := do
  if ← exchange .started .starting then let _ ← call .close
  let _ ← exchange .starting .uninitialized
  return .error cause

/-- Ends a start: a failure is rolled back, and a success counts only if the session is started. -/
def conclude : Outcome Unit → Program (Outcome Unit)
  | .error cause => abandon cause
  | .ok () => do
    let phase ← observe
    return if phase = .started then .ok () else .error (Operation.start.refused phase)

/-- Starts the session. Of all tasks that try only the one that finds it uninitialized goes on. With
a limit the whole start is given up when it takes longer. -/
def start (s : Session) (limit : Option Duration) : Action Unit := .mk do
  if ← exchange .uninitialized .starting then
    match limit with
    | none => do conclude (← (establish s).run)
    | some limit =>
      .arm limit (abandon (.connectionTimeout limit)) do
        let result ← (establish s).run
        disarm
        conclude result
  else
    let phase ← observe
    return .error (Operation.start.refused phase)

/-- Closes the session. Only a started session can be closed, and it is closed even if the service
fails to close the connection. -/
def close : Action Unit := .mk do
  if ← exchange .started .closed then
    match ← call .close with
    | .ok () => return .ok ()
    | .error fault => return .error (.coordination fault)
  else
    let phase ← observe
    return .error (Operation.close.refused phase)

end Session

end IdMint.Coordination
