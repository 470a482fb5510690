import IdMint.Error

/-! # Composite keys

A composite key joins a scope, a name and a key with colons. -/

namespace IdMint

/-- A key of three parts, joined with colons. -/
structure CompositeKey where
  /-- The joined text. -/
  text : String
  deriving DecidableEq, Inhabited, Repr

namespace CompositeKey

/-- The three parts joined with colons. -/
def join (scope name key : String) : String := scope ++ ":" ++ name ++ ":" ++ key

/-- Joins three parts, of which none may be empty; the first empty one is named in the error. -/
def ofParts (scope name key : String) : Outcome CompositeKey :=
  if scope.isEmpty then .error (.emptyKey "prefix")
  else if name.isEmpty then .error (.emptyKey "name")
  else if key.isEmpty then .error (.emptyKey "key")
  else .ok ⟨join scope name key⟩

/-- Refuses an empty composite key that a caller supplies. -/
def check (key : String) : Outcome Unit :=
  if key.isEmpty then .error (.emptyKey "composite key") else .ok ()

instance : Ord CompositeKey := ⟨fun a b => compare a.text b.text⟩

end CompositeKey

end IdMint
