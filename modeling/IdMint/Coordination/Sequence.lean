import IdMint.Batch
import IdMint.CompositeKey
import IdMint.Coordination.Session

/-! # Sequence numbers

Every key owns a node below the session's root. Issuing a number writes to the node and returns its
new version, so the numbers for one key increase across all clients of the service, and the first
number of a new key is one. -/

namespace IdMint.Coordination.Sequence

open Session

/-- Writes to the node at a path and returns its new version in decimal. -/
def draw (path : String) : Action String := do
  let stat ← setData path [] anyVersion
  return toString stat.version

/-- Issues the next number for a composite key. -/
def next (s : Session) (key : String) : Action String := do
  CompositeKey.check key
  ensurePath (s.nodePath key)
  draw (s.nodePath key)

/-- Issues the next number for a name and a key in the session's scope. -/
def nextFor (s : Session) (name key : String) : Action String := do
  let composite ← CompositeKey.ofParts s.settings.rootName name key
  next s composite.text

/-- Issues several numbers for a composite key, by one write each. -/
def nextMany (s : Session) (key : String) (count : UInt64) : Action (List String) := do
  let size ← Batch.accept count
  CompositeKey.check key
  ensurePath (s.nodePath key)
  .mk (Batch.collect (draw (s.nodePath key)).run size)

/-- Issues several numbers for a name and a key in the session's scope. -/
def nextManyFor (s : Session) (name key : String) (count : UInt64) : Action (List String) := do
  let composite ← CompositeKey.ofParts s.settings.rootName name key
  nextMany s composite.text count

end IdMint.Coordination.Sequence
