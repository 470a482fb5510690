import IdMint.Batch
import IdMint.CompositeKey

/-! # What a batch hands out

A call that draws identifiers hands them out in its result: all of them when it succeeds, and those
issued before the failure when it fails part of the way. -/

namespace IdMint

/-- The identifiers that an error hands out: those of a batch that failed part of the way. -/
def Error.issued : Error → List String
  | .partialBatch issued _ => issued
  | _ => []

namespace Batch

/-- The identifiers that a call hands out by its result. -/
def handedOut : Outcome (List String) → List String
  | .ok ids => ids
  | .error cause => cause.issued

@[simp] theorem handedOut_ok (ids : List String) : handedOut (.ok ids) = ids := rfl

@[simp] theorem handedOut_error (cause : Error) : handedOut (.error cause) = cause.issued := rfl

/-- A batch that fails hands out what it issued before. -/
theorem handedOut_interrupted {cause : Error} (h : cause.issued = []) (issued : List String) :
    handedOut (.error (interrupted issued cause)) = issued := by
  cases issued with
  | nil => exact h
  | cons id ids => rfl

/-- A count passes the check unless it is out of range. -/
theorem checkCount_eq_ok_iff {count : UInt64} :
    checkCount count = .ok () ↔ ¬ (count = 0 ∨ limit < count) := by
  unfold checkCount
  split <;> simp [*]

/-- A count that is refused is out of range, and the other way round. -/
theorem checkCount_eq_error_iff {count : UInt64} :
    (∃ cause, checkCount count = .error cause) ↔ count = 0 ∨ limit < count := by
  unfold checkCount
  split <;> simp [*]

/-- A count that is refused hands out nothing. -/
theorem issued_of_checkCount {count : UInt64} {cause : Error}
    (h : checkCount count = .error cause) : cause.issued = [] := by
  unfold checkCount at h
  split at h <;> cases h
  rfl

theorem issued_of_accept {count : UInt64} {cause : Error} (h : accept count = .error cause) :
    cause.issued = [] := by
  cases hcount : checkCount count with
  | ok => cases (accept_of_ok hcount).symm.trans h
  | error refusal =>
    cases (accept_of_error hcount).symm.trans h
    exact issued_of_checkCount hcount

/-- A composite key that is refused hands out nothing. -/
theorem issued_of_ofParts {scope name key : String} {cause : Error}
    (h : CompositeKey.ofParts scope name key = .error cause) : cause.issued = [] := by
  unfold CompositeKey.ofParts at h
  by_cases hscope : scope.isEmpty = true
  · rw [if_pos hscope] at h
    cases h
    rfl
  by_cases hname : name.isEmpty = true
  · rw [if_neg hscope, if_pos hname] at h
    cases h
    rfl
  by_cases hkey : key.isEmpty = true
  · rw [if_neg hscope, if_neg hname, if_pos hkey] at h
    cases h
    rfl
  · rw [if_neg hscope, if_neg hname, if_neg hkey] at h
    cases h

/-- A composite key that a caller supplies and that is refused hands out nothing. -/
theorem issued_of_check {key : String} {cause : Error} (h : CompositeKey.check key = .error cause) :
    cause.issued = [] := by
  unfold CompositeKey.check at h
  split at h <;> cases h
  rfl

/-- An outcome that hands out nothing where it is an error. -/
def Plain {α : Type} (outcome : Outcome α) : Prop :=
  ∀ cause, outcome = .error cause → cause.issued = []

theorem plain_ok {α : Type} (a : α) : Plain (.ok a) := by
  intro cause h
  cases h

theorem plain_error {α : Type} {cause : Error} (h : cause.issued = []) :
    Plain (.error cause : Outcome α) := by
  rintro _ ⟨⟩
  exact h

/-- An outcome that is plain stays so when its value is replaced. -/
theorem Plain.map {α β : Type} {outcome : Outcome α} (h : Plain outcome) (f : α → β) :
    Plain (outcome.map f) := by
  cases outcome with
  | ok a => exact plain_ok _
  | error cause => exact plain_error (h cause rfl)

/-- A result of a single identifier as the result of a batch of one. -/
def single (result : Outcome String) : Outcome (List String) := result.map fun id => [id]

@[simp] theorem single_error (cause : Error) : single (.error cause) = .error cause := rfl

/-! ## What many calls hand out -/

universe u

/-- Putting an element in the place of another one that yields less adds the difference. -/
theorem flatMap_set_perm {α : Type u} {β : Type} {f : α → List β} {a b : α} {added : List β}
    (hf : f b = f a ++ added) {l : List α} {i : Nat} (h : l[i]? = some a) :
    ((l.set i b).flatMap f).Perm (l.flatMap f ++ added) := by
  induction l generalizing i with
  | nil => cases h
  | cons c l ih =>
    cases i with
    | zero =>
      cases h
      rw [List.set_cons_zero, List.flatMap_cons, List.flatMap_cons, hf, List.append_assoc,
        List.append_assoc]
      exact List.Perm.append_left _ List.perm_append_comm
    | succ i =>
      rw [List.set_cons_succ, List.flatMap_cons, List.flatMap_cons, List.append_assoc]
      exact List.Perm.append_left _ (ih h)

end Batch

end IdMint
