import IdMint.Coordination.Fault

/-! # Requests to the coordination service

The calls that a client makes, each with the type of its answer. -/

namespace IdMint.Coordination

/-- How long a node lives. -/
inductive NodeMode
  /-- Until it is deleted. -/
  | persistent
  /-- Until the session that created it ends. -/
  | ephemeral
  deriving DecidableEq, Inhabited, Repr

/-- What the service tells about a node. -/
structure NodeStat where
  /-- The number of writes since the node was created, in 32 bits with a sign. -/
  version : Int32
  /-- The number of nodes right below the node. -/
  children : Int32
  deriving DecidableEq, Inhabited

/-- The version that a write names when it does not depend on the node's version. -/
def anyVersion : Int32 := -1

/-- A call to the coordination service, indexed by the type of its answer. -/
inductive Request : Type → Type
  /-- Opens the session; the two limits are in milliseconds. -/
  | connect (sessionLimit connectionLimit : UInt64) : Request Unit
  /-- Ends the session. -/
  | close : Request Unit
  /-- Asks for a node's stat, which is absent where the node is. -/
  | lookUp (path : String) : Request (Option NodeStat)
  /-- Creates a node and the ancestors that are missing. -/
  | create (path : String) (data : List UInt8) (mode : NodeMode) : Request Unit
  /-- Replaces a node's data, if the node has the version or any version will do. -/
  | setData (path : String) (data : List UInt8) (version : Int32) : Request NodeStat
  /-- Deletes a node and everything below it. -/
  | delete (path : String) : Request Unit
  /-- Lists the names of the nodes right below a node. -/
  | children (path : String) : Request (List String)

/-- The kinds of calls, without their arguments. -/
inductive RequestKind
  | connect | close | lookUp | create | setData | delete | children
  deriving DecidableEq, Inhabited, Repr

/-- The kind of a call. -/
def Request.kind : Request β → RequestKind
  | connect .. => .connect
  | close => .close
  | lookUp .. => .lookUp
  | create .. => .create
  | setData .. => .setData
  | delete .. => .delete
  | children .. => .children

end IdMint.Coordination
