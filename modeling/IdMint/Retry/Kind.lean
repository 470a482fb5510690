import IdMint.Error
import IdMint.Text.Blank

/-! # Kinds of retry policy

The five kinds of policy and the tags by which settings name them. A tag may have blanks around it,
and its ASCII letters may have either case. -/

namespace IdMint

/-- A kind of retry policy. -/
inductive RetryKind
  | exponentialBackoff
  | boundedExponentialBackoff
  | nTimes
  | forever
  | untilElapsed
  deriving DecidableEq, Inhabited, Repr

namespace RetryKind

/-- All kinds, in the order in which tags are compared. -/
def all : List RetryKind :=
  [exponentialBackoff, boundedExponentialBackoff, nTimes, forever, untilElapsed]

/-- Every kind is listed. -/
theorem mem_all (kind : RetryKind) : kind ∈ all := by cases kind <;> simp [all]

/-- The tag of a kind. -/
def tag : RetryKind → String
  | exponentialBackoff => "exponentialBackoffRetry"
  | boundedExponentialBackoff => "boundedExponentialBackoffRetry"
  | nTimes => "retryNTimes"
  | forever => "retryForever"
  | untilElapsed => "retryUntilElapsed"

/-- Whether two texts are equal up to the case of ASCII letters. -/
def sameFolded (a b : String) : Bool := a.toList.map Char.toLower = b.toList.map Char.toLower

/-- The kind that a tag names. -/
def ofTag (text : String) : Outcome RetryKind :=
  match all.find? fun kind => sameFolded kind.tag (Text.trim text) with
  | some kind => .ok kind
  | none => .error (.unsupportedRetryType text)

/-- Every kind is named by its own tag. -/
theorem ofTag_tag (kind : RetryKind) : ofTag kind.tag = .ok kind := by
  cases kind <;> rfl

end RetryKind

end IdMint
