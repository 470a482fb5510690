import IdMint.Coordination.Fault

/-! # Node paths

A path names a node of the coordination service: a slash, then the names from the root down, joined
by slashes. The root itself is the single slash. `check` accepts exactly the absolute and normalized
paths; `parent?` and `ancestors` cut names off at the end and make sense for every text. -/

namespace IdMint.Coordination.Path

/-! ## Splitting at slashes -/

/-- The parts of a text between its slashes, in order. -/
def split : List Char → List (List Char)
  | [] => [[]]
  | c :: cs =>
    if c = '/' then [] :: split cs
    else match split cs with
      | [] => [[c]]
      | name :: names => (c :: name) :: names

@[simp] theorem split_nil : split [] = [[]] := rfl

@[simp] theorem split_slash (cs : List Char) : split ('/' :: cs) = [] :: split cs := by
  simp [split]

theorem split_ne_nil (cs : List Char) : split cs ≠ [] := by
  cases cs with
  | nil => simp
  | cons c cs =>
    simp only [split]
    split
    · simp
    · split <;> simp

/-- Names joined by slashes. -/
def join : List (List Char) → List Char
  | [] => []
  | [name] => name
  | name :: names => name ++ '/' :: join names

/-- Joining undoes splitting. -/
theorem join_split (cs : List Char) : join (split cs) = cs := by
  induction cs with
  | nil => rfl
  | cons c cs ih =>
    obtain ⟨name, names, h⟩ := List.exists_cons_of_ne_nil (split_ne_nil cs)
    rw [h] at ih
    by_cases hc : c = '/'
    · subst hc; rw [split_slash, h]; simp [join, ih]
    · rw [split, if_neg hc, h]
      cases names with
      | nil => simpa [join] using ih
      | cons n ns => simpa [join] using ih

/-! ## Valid paths -/

/-- The reason why a name is not permitted in a path. -/
def nameFault? (name : List Char) : Option String :=
  if name = [] then some "empty node name"
  else if name = ['.'] ∨ name = ['.', '.'] then some "relative paths not allowed"
  else none

/-- The reason why a text is no valid path. -/
def fault? : List Char → Option String
  | '/' :: names =>
    if names = [] then none
    else if names.getLast? = some '/' then some "path must not end with /"
    else if '\x00' ∈ names then some "null character not allowed"
    else (split names).findSome? nameFault?
  | _ => some "path must start with /"

/-- Accepts a path that is absolute and normalized. -/
def check (path : String) : Except Fault Unit :=
  match fault? path.toList with
  | none => .ok ()
  | some reason => .error (.invalidPath path reason)

/-! ## Parents -/

/-- The characters of a path in front of its last slash; for a node right below the root, the root. -/
def parentChars? (path : List Char) : Option (List Char) :=
  match path.reverse.dropWhile (· ≠ '/') with
  | [] => none
  | _ :: front =>
    if front = [] then (if path.length = 1 then none else some ['/']) else some front.reverse

/-- The parent of a path, if it has one: the root has none. -/
def parent? (path : String) : Option String := (parentChars? path.toList).map String.ofList

theorem length_lt_of_parentChars? {path up : List Char} (h : parentChars? path = some up) :
    up.length < path.length := by
  have hdrop : (path.reverse.dropWhile (· ≠ '/')).length ≤ path.length := by
    simpa using (List.dropWhile_sublist (· ≠ '/') (l := path.reverse)).length_le
  unfold parentChars? at h
  split at h
  · cases h
  · rename_i c front hd
    rw [hd, List.length_cons] at hdrop
    split at h
    · split at h
      · cases h
      · cases h; simp only [List.length_cons, List.length_nil]; omega
    · cases h; simp only [List.length_reverse]; omega

/-- The proper ancestors of a path below the root, from the parent upwards. -/
def ancestorChars (path : List Char) : List (List Char) :=
  match _h : parentChars? path with
  | none => []
  | some up => if up = ['/'] then [] else up :: ancestorChars up
termination_by path.length
decreasing_by exact length_lt_of_parentChars? _h

/-- The proper ancestors of a path below the root, from the parent upwards. -/
def ancestors (path : String) : List String := (ancestorChars path.toList).map String.ofList

/-! ## Children -/

/-- What stands in front of the name of every node right below `path`. -/
def childStem (path : List Char) : List Char := if path = ['/'] then ['/'] else path ++ ['/']

/-- The rest of a text behind a given beginning, if it begins so. -/
def behind? : (stem text : List Char) → Option (List Char)
  | [], text => some text
  | _ :: _, [] => none
  | s :: stem, c :: text => if s = c then behind? stem text else none

theorem behind?_eq_some_iff {stem text rest : List Char} :
    behind? stem text = some rest ↔ text = stem ++ rest := by
  induction stem generalizing text with
  | nil => simp [behind?]
  | cons s stem ih =>
    cases text with
    | nil => simp [behind?]
    | cons c text =>
      by_cases h : s = c
      · simp [behind?, h, ih]
      · simp [behind?, h, Ne.symm h]

/-- Whether a path lies below another one. -/
def isBelow (path descendant : String) : Bool :=
  (behind? (childStem path.toList) descendant.toList).isSome

/-- The name of a node that lies right below a path. -/
def childName? (path node : String) : Option String :=
  match behind? (childStem path.toList) node.toList with
  | none => none
  | some name => if '/' ∈ name then none else some (String.ofList name)

end IdMint.Coordination.Path
