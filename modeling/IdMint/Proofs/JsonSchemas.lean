import IdMint.Proofs.JsonGrammar
import Mathlib.Data.List.Perm.Basic
import Mathlib.Data.List.Perm.Lattice

/-! # Schemas of records

A schema says which values a field may hold. What a value that fits stands for is said field by field:
a field that is given has the value found under its key, and every other one keeps the value that it
has in the standard record. So neither the order of the members nor unknown ones make a difference. -/

namespace IdMint.Json

/-- Which values are meant: texts, natural numbers below a bound, or records with the given fields. -/
inductive Schema
  | text
  | natural (bound : Nat)
  | record (fields : List (String × Schema))

/-- The keys that a record knows, in the order of the members. -/
def knownKeys (fields : List (String × Schema)) (members : List (Option String × Value)) :
    List String :=
  (members.filterMap (·.1)).filter fun key => (fields.lookup key).isSome

namespace Schema

/-- The value is of the right kind. A record is an object whose keys all spell texts and that gives each
of its known ones once, or an array of values for the first fields. -/
inductive Fits : Schema → Value → Prop
  | text (s : String) : Fits .text (.text (some s))
  | natural {bound n : Nat} (h : n < bound) : Fits (.natural bound) (.integer false n)
  | object {fields : List (String × Schema)} {members : List (Option String × Value)}
      (hspelled : ∀ m ∈ members, m.1.isSome = true) (hdistinct : (knownKeys fields members).Nodup)
      (hfits : ∀ m ∈ members, ∀ key ∈ m.1, ∀ schema, fields.lookup key = some schema →
        Fits schema m.2) : Fits (.record fields) (.object members)
  | array {fields : List (String × Schema)} {items : List Value}
      (hlength : items.length ≤ fields.length)
      (hfits : ∀ p ∈ fields.zip items, Fits p.1.2 p.2) : Fits (.record fields) (.array items)

/-- Something is wrong with the value of a known key, at any depth, or such a key is repeated, or a key
spells no text. -/
inductive Flawed : Schema → Value → Prop
  | null (schema : Schema) : Flawed schema .null
  | negative (schema : Schema) (n : Nat) : Flawed schema (.integer true n)
  | fractional (schema : Schema) : Flawed schema .fractional
  | unspelled (schema : Schema) : Flawed schema (.text none)
  | outOfRange {bound n : Nat} (h : bound ≤ n) : Flawed (.natural bound) (.integer false n)
  | repeated {fields : List (String × Schema)} {key : String} {schema : Schema} {v w : Value}
      {front between back : List (Option String × Value)} (hkey : fields.lookup key = some schema) :
      Flawed (.record fields)
        (.object (front ++ (some key, v) :: (between ++ (some key, w) :: back)))
  | unspelledKey {fields : List (String × Schema)} {v : Value} {members : List (Option String × Value)}
      (hmem : (none, v) ∈ members) : Flawed (.record fields) (.object members)
  | inside {fields : List (String × Schema)} {key : String} {schema : Schema} {v : Value}
      {members : List (Option String × Value)} (hkey : fields.lookup key = some schema)
      (hmem : (some key, v) ∈ members) (h : Flawed schema v) :
      Flawed (.record fields) (.object members)

/-- A change that is none to the record: of the order of members, or by a member with an unknown key,
also inside the value of a known key. -/
inductive Change : Schema → Value → Value → Prop
  | order {fields : List (String × Schema)} {members members' : List (Option String × Value)}
      (h : members.Perm members') : Change (.record fields) (.object members) (.object members')
  | unknown {fields : List (String × Schema)} {key : String} {v : Value}
      {front back : List (Option String × Value)} (hkey : fields.lookup key = none) :
      Change (.record fields) (.object (front ++ (some key, v) :: back)) (.object (front ++ back))
  | inside {fields : List (String × Schema)} {key : String} {schema : Schema} {v v' : Value}
      {front back : List (Option String × Value)} (hkey : fields.lookup key = some schema)
      (h : Change schema v v') :
      Change (.record fields) (.object (front ++ (some key, v) :: back))
        (.object (front ++ (some key, v') :: back))

variable {fields : List (String × Schema)} {members members' : List (Option String × Value)}
  {key : String} {v v' : Value}

theorem fits_text_iff {s : Option String} : text.Fits (.text s) ↔ s.isSome = true := by
  constructor
  · intro h
    cases h with
    | text s => rfl
  · intro h
    obtain ⟨s, rfl⟩ := Option.isSome_iff_exists.mp h
    exact .text s

theorem fits_object_iff : (record fields).Fits (.object members) ↔
    (∀ m ∈ members, m.1.isSome = true) ∧ (knownKeys fields members).Nodup
      ∧ ∀ m ∈ members, ∀ key ∈ m.1, ∀ schema, fields.lookup key = some schema → schema.Fits m.2 := by
  constructor
  · intro h
    cases h with
    | object hspelled hdistinct hfits => exact ⟨hspelled, hdistinct, hfits⟩
  · exact fun h => .object h.1 h.2.1 h.2.2

theorem mem_knownKeys : key ∈ knownKeys fields members ↔
    (∃ v, (some key, v) ∈ members) ∧ (fields.lookup key).isSome = true := by
  simp [knownKeys]

/-- What is flawed does not fit. -/
theorem Flawed.not_fits {schema : Schema} (h : Flawed schema v) : ¬ schema.Fits v := by
  induction h with
  | null | negative | fractional | unspelled => nofun
  | outOfRange h =>
    intro hfits
    cases hfits with
    | natural hlt => exact absurd hlt (Nat.not_lt.mpr h)
  | repeated hkey =>
    intro hfits
    have hdistinct := (fits_object_iff.mp hfits).2.1
    simp [knownKeys, hkey, List.nodup_append] at hdistinct
  | unspelledKey hmem =>
    intro hfits
    cases (fits_object_iff.mp hfits).1 _ hmem
  | inside hkey hmem _ ih =>
    exact fun hfits => ih ((fits_object_iff.mp hfits).2.2 _ hmem _ rfl _ hkey)

/-! ## Changes -/

theorem knownKeys_perm (h : members.Perm members') :
    (knownKeys fields members).Perm (knownKeys fields members') :=
  (h.filterMap _).filter _

theorem knownKeys_unknown (hkey : fields.lookup key = none)
    (front back : List (Option String × Value)) :
    knownKeys fields (front ++ (some key, v) :: back) = knownKeys fields (front ++ back) := by
  simp [knownKeys, hkey]

theorem knownKeys_inside (v w : Value) (front back : List (Option String × Value)) :
    knownKeys fields (front ++ (some key, v) :: back)
      = knownKeys fields (front ++ (some key, w) :: back) := by
  simp [knownKeys]

/-- A change leaves what fits fitting, and what does not fit as it is. -/
theorem Change.fits_iff {schema : Schema} (h : Change schema v v') : schema.Fits v ↔ schema.Fits v' := by
  induction h with
  | order h =>
    rw [fits_object_iff, fits_object_iff, (knownKeys_perm h).nodup_iff]
    simp only [h.mem_iff]
  | unknown hkey =>
    rw [fits_object_iff, fits_object_iff, knownKeys_unknown hkey]
    simp only [List.forall_mem_append, List.forall_mem_cons, Option.isSome_some, Option.mem_def,
      Option.some.injEq, forall_eq', hkey, reduceCtorEq, false_imp_iff, implies_true, true_and]
  | @inside _ _ _ w w' _ _ hkey _ ih =>
    rw [fits_object_iff, fits_object_iff, knownKeys_inside w w']
    simp only [List.forall_mem_append, List.forall_mem_cons, Option.isSome_some, Option.mem_def,
      Option.some.injEq, forall_eq', hkey, ih]

end Schema

end IdMint.Json
