import IdMint.Retry.Settings

/-! # Coordination settings

How a session finds the coordination service and where its nodes lie. -/

namespace IdMint

/-- Settings of a coordination session. -/
structure CoordinationSettings where
  /-- The path, without its first slash, that all sequence nodes lie below. -/
  rootName : String
  /-- The addresses of the service; blank is refused. -/
  connectString : String
  /-- How long the service keeps a silent session, in milliseconds. -/
  sessionTimeoutMs : UInt64
  /-- How long one attempt to connect may take, in milliseconds. -/
  connectionTimeoutMs : UInt64
  /-- How failed calls are repeated. -/
  retry : RetrySettings
  deriving DecidableEq, Inhabited, Repr

/-- The coordination settings where none are given; the address has no default. -/
def CoordinationSettings.standard : CoordinationSettings where
  rootName := "idforge"
  connectString := ""
  sessionTimeoutMs := 15000
  connectionTimeoutMs := 15000
  retry := .standard

end IdMint
