/-! # Faults of the counter store

What a script call to the shared counter store can fail with. -/

namespace IdMint.Counter

/-- A failure of the counter store. -/
inductive Fault
  /-- The store rejected the script or failed to run it. -/
  | script (text : String)
  /-- The connection to the store failed. -/
  | connection (text : String)
  /-- The reply did not have the expected shape. -/
  | malformedReply (text : String)
  deriving DecidableEq, Inhabited, Repr

/-- The words in which a failure is reported. -/
def Fault.message : Fault → String
  | script text => "script failed: " ++ text
  | connection text => "connection failed: " ++ text
  | malformedReply text => "malformed reply: " ++ text

end IdMint.Counter
