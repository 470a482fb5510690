import IdMint.Error

/-! # Batches

A batch draws several identifiers one after the other. The first failure ends it: with nothing issued
the failure stands for itself, otherwise it comes with the identifiers issued before. -/

namespace IdMint.Batch

/-- The most identifiers that one call may ask for. -/
def limit : UInt64 := 1000

/-- Refuses a count of zero and a count above the limit. -/
def checkCount (count : UInt64) : Outcome Unit :=
  if count = 0 ∨ limit < count then .error (.countOutOfRange count limit) else .ok ()

/-- The most texts that can be allocated at once: an allocation has less than `2 ^ 63` bytes, and a text
takes 24 of them. -/
def capacity : Nat := (2 ^ 63 - 1) / 24

/-- The size of a batch. A batch begins with an allocation for all its texts. -/
structure Size where
  count : Nat
  fits : count ≤ capacity

/-- The size of a batch of so many identifiers, unless they are more than can be allocated. -/
def Size.ofCount? (count : UInt64) : Option Size :=
  if fits : count.toNat ≤ capacity then some ⟨count.toNat, fits⟩ else none

theorem fits_of_checkCount {count : UInt64} (h : checkCount count = .ok ()) :
    count.toNat ≤ capacity := by
  unfold checkCount at h
  split at h
  · cases h
  · next hrange =>
    have hle : count ≤ limit := UInt64.not_lt.mp (not_or.mp hrange).2
    exact Nat.le_trans (UInt64.le_iff_toNat_le.mp hle) (by decide)

/-- The size of a batch whose count passes the check. -/
def accept (count : UInt64) : Outcome Size :=
  match h : checkCount count with
  | .error cause => .error cause
  | .ok () => .ok ⟨count.toNat, fits_of_checkCount h⟩

theorem accept_of_error {count : UInt64} {cause : Error} (h : checkCount count = .error cause) :
    accept count = .error cause := by
  unfold accept
  split <;> simp_all

theorem accept_of_ok {count : UInt64} (h : checkCount count = .ok ()) :
    accept count = .ok ⟨count.toNat, fits_of_checkCount h⟩ := by
  unfold accept
  split <;> simp_all

/-- The error of a batch that failed by `cause` after it issued `issued`. -/
def interrupted (issued : List String) (cause : Error) : Error :=
  if issued.isEmpty then cause else .partialBatch issued cause

@[simp] theorem interrupted_nil (cause : Error) : interrupted [] cause = cause := rfl

@[simp] theorem interrupted_cons (id : String) (ids : List String) (cause : Error) :
    interrupted (id :: ids) cause = .partialBatch (id :: ids) cause := rfl

universe u

variable {m : Type → Type u} [Monad m]

/-- Draws `count` further identifiers by `next` behind those in `issued`. -/
def collectAfter (next : m (Outcome String)) : (issued : List String) → (count : Nat) →
    m (Outcome (List String))
  | issued, 0 => pure (.ok issued)
  | issued, count + 1 => do
    match ← next with
    | .ok id => collectAfter next (issued ++ [id]) count
    | .error cause => pure (.error (interrupted issued cause))

/-- Draws the identifiers of a batch by `next`, and stops at the first failure. -/
def collect (next : m (Outcome String)) (size : Size) : m (Outcome (List String)) :=
  collectAfter next [] size.count

@[simp] theorem collectAfter_zero (next : m (Outcome String)) (issued : List String) :
    collectAfter next issued 0 = pure (.ok issued) := rfl

end IdMint.Batch
