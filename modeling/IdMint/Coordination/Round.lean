/-! # Rounds

Tasks that share their time go on in rounds. In a round every task goes on as far as it can, one task
after the other, and a round belongs to one moment. Only so many waits may end in one round, those of
all tasks taken together: when the round is used up, a task stands back before its next wait, even
where that wait is over, and goes on in the next round. -/

namespace IdMint.Coordination

/-- How many waits may end in one round. -/
def longestRound : Nat := 128

/-- A round of the tasks that share their time. -/
structure Round where
  /-- The moment to which the round belongs. -/
  moment : Nat
  /-- How many more waits may end in it. -/
  left : Nat
  /-- Whether a time limit strikes once the round is used up. It does, unless the round was used up
  before the programs of the tasks began. -/
  watched : Bool
  deriving DecidableEq, Inhabited, Repr

namespace Round

/-- A new round. -/
def fresh (moment : Nat) : Round := ⟨moment, longestRound, true⟩

/-- The round in which tasks go on at a moment: a later moment begins a new one. -/
def resume (round : Round) (now : Nat) : Round := if round.moment < now then fresh now else round

/-- The round in which programs begin. -/
def enter (round : Round) : Round := { round with watched := 0 < round.left }

/-- The round after a number of waits have ended in it. -/
def spend (round : Round) (waits : Nat) : Round := { round with left := round.left - waits }

end Round

end IdMint.Coordination
