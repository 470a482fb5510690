import IdMint.Proofs.JsonSchemas

/-! # Kinds of records

What a value that fits a schema stands for. A record stands for the standard one with the fields that
are given replaced: each field takes what is found under its key, and touches no other field. -/

namespace IdMint.Json

variable {α ρ : Type}

/-- A kind of values: which ones are meant, and what each of these stands for. -/
structure Kind (α : Type) where
  schema : Schema
  value : Value → α

/-- A field of a record: its key, which values are meant, and the record with what is given under the
key in the field's place, if anything is. -/
structure Slot (ρ : Type) where
  key : String
  schema : Schema
  update : Option Value → ρ → ρ

/-- The field of a key whose value `get` takes from the record and `put` puts into it. -/
def slot (key : String) (kind : Kind α) (get : ρ → α) (put : α → ρ → ρ) : Slot ρ where
  key := key
  schema := kind.schema
  update given record := put ((given.map kind.value).getD (get record)) record

/-- What a value gives under a key: the member of an object, or the item of an array that stands where
the key stands among the given ones. -/
def Value.given (keys : List String) : Value → String → Option Value
  | object members, key => members.lookup (some key)
  | array items, key => (keys.zip items).lookup key
  | _, _ => none

/-- The record with all that is given in its place. -/
def fill (slots : List (Slot ρ)) (given : String → Option Value) (record : ρ) : ρ :=
  slots.foldl (fun record s => s.update (given s.key) record) record

namespace Kind

/-- Texts. -/
def text : Kind String where
  schema := .text
  value
    | .text (some s) => s
    | _ => ""

theorem text_value (s : Option String) : text.value (.text s) = s.getD "" := by
  cases s <;> rfl

/-- The number of an integer. -/
def sizeOf : Value → Nat
  | .integer _ n => n
  | _ => 0

/-- Unsigned 64-bit numbers. -/
def uint64 : Kind UInt64 := ⟨.natural UInt64.size, fun v => .ofNat (sizeOf v)⟩

/-- Unsigned 32-bit numbers. -/
def uint32 : Kind UInt32 := ⟨.natural UInt32.size, fun v => .ofNat (sizeOf v)⟩

/-- Records that keep a standard value where none is given. -/
def record (standard : ρ) (slots : List (Slot ρ)) : Kind ρ where
  schema := .record (slots.map fun s => (s.key, s.schema))
  value v := fill slots (v.given (slots.map Slot.key)) standard

end Kind

/-! ## Slots -/

/-- Every field has a key of its own, stays where nothing is given, and leaves the others alone. -/
structure Separate (slots : List (Slot ρ)) : Prop where
  nodup : (slots.map Slot.key).Nodup
  idle : ∀ s ∈ slots, ∀ record, s.update none record = record
  commute : slots.Pairwise fun s t => ∀ v w record,
    s.update v (t.update w record) = t.update w (s.update v record)

theorem Separate.of_cons {s : Slot ρ} {slots : List (Slot ρ)} (h : Separate (s :: slots)) :
    Separate slots where
  nodup := (List.nodup_cons.mp h.nodup).2
  idle t ht := h.idle t (List.mem_cons_of_mem s ht)
  commute := (List.pairwise_cons.mp h.commute).2

/-- The key of a field is not that of one behind it. -/
theorem Separate.key_ne {s t : Slot ρ} {slots : List (Slot ρ)} (h : Separate (s :: slots))
    (ht : t ∈ slots) : t.key ≠ s.key := fun heq =>
  (List.nodup_cons.mp h.nodup).1 (heq ▸ List.mem_map_of_mem ht)

variable {slots : List (Slot ρ)} {given given' : String → Option Value}

/-- Only what is given under the keys of the fields matters. -/
theorem fill_congr (h : ∀ s ∈ slots, s.update (given s.key) = s.update (given' s.key)) (record : ρ) :
    fill slots given record = fill slots given' record := by
  induction slots generalizing record with
  | nil => rfl
  | cons s slots ih =>
    rw [fill, List.foldl_cons, h s List.mem_cons_self]
    exact ih (fun t ht => h t (List.mem_cons_of_mem s ht)) _

/-- Where nothing is given the record stays as it is. -/
theorem Separate.fill_none (h : Separate slots) (record : ρ) :
    fill slots (fun _ => none) record = record := by
  induction slots generalizing record with
  | nil => rfl
  | cons s slots ih =>
    rw [fill, List.foldl_cons, h.idle s List.mem_cons_self]
    exact ih h.of_cons record

/-- A field that is filled first may as well be given. -/
theorem Separate.fill_update (h : Separate slots) {s : Slot ρ} (hs : s ∈ slots)
    (hnone : given s.key = none) (v : Value) (record : ρ) :
    fill slots given (s.update (some v) record)
      = fill slots (Function.update given s.key (some v)) record := by
  induction slots generalizing record with
  | nil => exact absurd hs List.not_mem_nil
  | cons t slots ih =>
    rw [fill, fill, List.foldl_cons, List.foldl_cons]
    -- the update that is made first is carried past the fields in front until the field's own turn
    rcases List.mem_cons.mp hs with rfl | hmem
    · rw [hnone, h.idle s List.mem_cons_self, Function.update_self]
      exact fill_congr (fun t ht => by rw [Function.update_of_ne (h.key_ne ht)]) _
    · have hcommute := (List.pairwise_cons.mp h.commute).1 s hmem
      rw [hcommute, Function.update_of_ne (h.key_ne hmem).symm]
      exact ih h.of_cons hmem _

/-! ## Members -/

/-- The slot of a key, if it is known. -/
def slot? (slots : List (Slot ρ)) (key : String) : Option (Slot ρ) := slots.find? (·.key = key)

theorem mem_of_slot? {key : String} {s : Slot ρ} (h : slot? slots key = some s) :
    s ∈ slots ∧ s.key = key := by
  have hkey := List.find?_some h
  exact ⟨List.mem_of_find?_eq_some h, by simpa using hkey⟩

/-- A field is found by its key. -/
theorem Separate.slot?_key (h : Separate slots) {s : Slot ρ} (hs : s ∈ slots) :
    slot? slots s.key = some s := by
  induction slots with
  | nil => exact absurd hs List.not_mem_nil
  | cons t slots ih =>
    rcases List.mem_cons.mp hs with rfl | hmem
    · exact List.find?_cons_of_pos (decide_eq_true rfl)
    · rw [slot?, List.find?_cons_of_neg (by simpa using (h.key_ne hmem).symm)]
      exact ih h.of_cons hmem

/-- A key is known to the schema as it is to the fields. -/
theorem lookup_fields (slots : List (Slot ρ)) (key : String) :
    (slots.map fun s => (s.key, s.schema)).lookup key = (slot? slots key).map Slot.schema := by
  induction slots with
  | nil => rfl
  | cons s slots ih =>
    rw [List.map_cons, List.lookup_cons, slot?, List.find?_cons]
    by_cases hkey : s.key = key
    · simp [hkey]
    · have hne : (key == s.key) = false := beq_eq_false_iff_ne.mpr (Ne.symm hkey)
      simpa [hne, hkey, slot?] using ih

/-- The record after a member of an object has been taken into it. -/
def takeMember (slots : List (Slot ρ)) (record : ρ) (m : Option String × Value) : ρ :=
  match m.1.bind (slot? slots) with
  | some s => s.update (some m.2) record
  | none => record

/-- The fields of a record, as a schema has them. -/
theorem knownKeys_cons (slots : List (Slot ρ)) (key : String) (v : Value)
    (members : List (Option String × Value)) :
    knownKeys (slots.map fun s => (s.key, s.schema)) ((some key, v) :: members)
      = (if (slot? slots key).isSome then [key] else [])
        ++ knownKeys (slots.map fun s => (s.key, s.schema)) members := by
  show List.filter _ (key :: members.filterMap (·.1)) = _
  rw [List.filter_cons, lookup_fields, Option.isSome_map]
  split <;> rfl

/-- A known key that is not among those of the members is not found. -/
theorem lookup_eq_none_of_notMem {fields : List (String × Schema)}
    {members : List (Option String × Value)} {key : String}
    (hkey : (fields.lookup key).isSome = true) (h : key ∉ knownKeys fields members) :
    members.lookup (some key) = none := by
  refine List.lookup_eq_none_iff.mpr fun m hm => bne_iff_ne.mpr fun heq => ?_
  exact h (Schema.mem_knownKeys.mpr ⟨⟨m.2, heq ▸ hm⟩, hkey⟩)

/-- The member of another key is not found. -/
theorem lookup_cons_of_ne {key key' : String} (h : key ≠ key') {v : Value}
    {members : List (Option String × Value)} :
    ((some key', v) :: members).lookup (some key) = members.lookup (some key) := by
  rw [List.lookup_cons, beq_eq_false_iff_ne.mpr (mt Option.some.inj h)]

/-- A key that is unknown is that of no field. -/
theorem key_ne_of_slot? {key : String} (h : slot? slots key = none) {s : Slot ρ} (hs : s ∈ slots) :
    s.key ≠ key := fun heq => by
  have hnone := List.find?_eq_none.mp h s hs
  simp [heq] at hnone

/-- Members that are taken one by one fill their fields. -/
theorem Separate.foldl_takeMember (h : Separate slots) {members : List (Option String × Value)}
    (hdistinct : (knownKeys (slots.map fun s => (s.key, s.schema)) members).Nodup) (record : ρ) :
    members.foldl (takeMember slots) record
      = fill slots (fun key => members.lookup (some key)) record := by
  induction members generalizing record with
  | nil => exact (h.fill_none record).symm
  | cons m members ih =>
    obtain ⟨_ | key, v⟩ := m
    · exact ih hdistinct record
    rw [knownKeys_cons] at hdistinct
    rw [List.foldl_cons, takeMember, Option.bind_some]
    cases hslot : slot? slots key with
    | none =>
      simp only [hslot, Option.isSome_none, Bool.false_eq_true, if_false, List.nil_append] at hdistinct
      rw [ih hdistinct]
      refine fill_congr (fun s hs => ?_) record
      rw [lookup_cons_of_ne (key_ne_of_slot? hslot hs)]
    | some s =>
      obtain ⟨hs, rfl⟩ := mem_of_slot? hslot
      simp only [hslot, Option.isSome_some, if_true, List.singleton_append, List.nodup_cons]
        at hdistinct
      -- the key is not given again behind the member
      have hnone : (fun key => members.lookup (some key)) s.key = none :=
        lookup_eq_none_of_notMem (by rw [lookup_fields, hslot]; rfl) hdistinct.1
      rw [ih hdistinct.2, h.fill_update hs hnone]
      refine fill_congr (fun t _ => ?_) record
      by_cases heq : t.key = s.key
      · rw [heq, Function.update_self, List.lookup_cons_self]
      · rw [Function.update_of_ne heq, lookup_cons_of_ne heq]

/-! ## Items -/

/-- The record after the items of an array have been taken into it, each into the field at its place. -/
def takeItems (slots : List (Slot ρ)) (items : List Value) (record : ρ) : ρ :=
  (slots.zip items).foldl (fun record p => p.1.update (some p.2) record) record

theorem Value.given_array_self (key : String) (keys : List String) (v : Value) (items : List Value) :
    (array (v :: items)).given (key :: keys) key = some v := by
  rw [given, List.zip_cons_cons, List.lookup_cons, beq_self_eq_true]

theorem Value.given_array_of_ne {key k : String} (h : k ≠ key) (keys : List String) (v : Value)
    (items : List Value) :
    (array (v :: items)).given (key :: keys) k = (array items).given keys k := by
  rw [given, List.zip_cons_cons, List.lookup_cons, beq_eq_false_iff_ne.mpr h]
  rfl

/-- Items that are taken one by one fill their fields. -/
theorem Separate.takeItems_eq_fill (h : Separate slots) (items : List Value) (record : ρ) :
    takeItems slots items record
      = fill slots ((Value.array items).given (slots.map Slot.key)) record := by
  induction slots generalizing items record with
  | nil => rfl
  | cons s slots ih =>
    cases items with
    | nil =>
      show record = fill _ (fun key => List.lookup key (List.zip _ [])) record
      rw [List.zip_nil_right]
      exact (h.fill_none record).symm
    | cons v items =>
      calc takeItems (s :: slots) (v :: items) record
        _ = takeItems slots items (s.update (some v) record) := rfl
        _ = fill slots ((Value.array items).given (slots.map Slot.key)) (s.update (some v) record) :=
          ih h.of_cons items _
        _ = fill slots ((Value.array (v :: items)).given ((s :: slots).map Slot.key))
            (s.update (some v) record) := fill_congr (fun t ht => by
              rw [List.map_cons, Value.given_array_of_ne (h.key_ne ht)]) _
        _ = fill (s :: slots) ((Value.array (v :: items)).given ((s :: slots).map Slot.key)) record := by
          rw [fill, fill, List.foldl_cons, List.map_cons, Value.given_array_self]

/-! ## Changes -/

/-- A change does not matter to what a value that fits stands for. -/
def Kind.Steady (kind : Kind α) : Prop :=
  ∀ {v v'}, kind.schema.Change v v' → kind.schema.Fits v → kind.value v = kind.value v'

/-- A change of what is given does not matter to the field. -/
def Slot.Steady (s : Slot ρ) : Prop :=
  ∀ {v v'}, s.schema.Change v v' → s.schema.Fits v → s.update (some v) = s.update (some v')

theorem steady_slot {kind : Kind α} (h : kind.Steady) (key : String) (get : ρ → α)
    (put : α → ρ → ρ) : (slot key kind get put).Steady := by
  intro v v' hchange hfits
  funext record
  show put (kind.value v) record = put (kind.value v') record
  rw [h hchange hfits]

theorem Kind.steady_text : Kind.text.Steady := nofun

theorem Kind.steady_uint64 : Kind.uint64.Steady := nofun

theorem Kind.steady_uint32 : Kind.uint32.Steady := nofun

variable {fields : List (String × Schema)} {members members' : List (Option String × Value)}
  {key : String} {v : Value}

/-- A known key finds the one member that has it. -/
theorem lookup_eq_some_iff_mem (hdistinct : (knownKeys fields members).Nodup)
    (hkey : (fields.lookup key).isSome = true) :
    members.lookup (some key) = some v ↔ (some key, v) ∈ members := by
  constructor
  · intro h
    obtain ⟨front, back, rfl, -⟩ := List.lookup_eq_some_iff.mp h
    exact List.mem_append_right _ List.mem_cons_self
  · intro h
    obtain ⟨front, back, rfl⟩ := List.append_of_mem h
    -- no member in front has the key too
    have hfront : key ∉ knownKeys fields front := by
      intro hmem
      rw [knownKeys, List.filterMap_append, List.filter_append,
        show ((some key, v) :: back).filterMap (·.1) = key :: back.filterMap (·.1) from rfl,
        List.filter_cons_of_pos (by exact hkey)] at hdistinct
      exact (List.nodup_append.mp hdistinct).2.2 key hmem key List.mem_cons_self rfl
    rw [List.lookup_append, lookup_eq_none_of_notMem hkey hfront, Option.none_or, List.lookup_cons_self]

/-- What a known key finds does not depend on the order of the members. -/
theorem lookup_perm (h : members.Perm members') (hdistinct : (knownKeys fields members).Nodup)
    (hkey : (fields.lookup key).isSome = true) :
    members.lookup (some key) = members'.lookup (some key) := by
  have hdistinct' := (Schema.knownKeys_perm h).nodup_iff.mp hdistinct
  refine Option.ext fun v => ?_
  rw [lookup_eq_some_iff_mem hdistinct hkey, lookup_eq_some_iff_mem hdistinct' hkey, h.mem_iff]

/-- A change does not matter to a record whose fields it does not matter to. -/
theorem Separate.steady_record (h : Separate slots) (hslots : ∀ s ∈ slots, s.Steady) {standard : ρ} :
    (Kind.record standard slots).Steady := by
  intro v v' hchange hfits
  have hlookup (s : Slot ρ) (hs : s ∈ slots) :
      (slots.map fun s => (s.key, s.schema)).lookup s.key = some s.schema := by
    rw [lookup_fields, h.slot?_key hs]
    rfl
  cases hchange with
  | order hperm =>
    refine fill_congr (fun s hs => congrArg s.update ?_) standard
    exact lookup_perm hperm (Schema.fits_object_iff.mp hfits).2.1 (by rw [hlookup s hs]; rfl)
  | @unknown _ key _ front back hkey =>
    refine fill_congr (fun s hs => congrArg s.update ?_) standard
    have hne : s.key ≠ key := fun heq => by
      rw [← heq, hlookup s hs] at hkey
      cases hkey
    show (front ++ (some key, _) :: back).lookup (some s.key) = (front ++ back).lookup (some s.key)
    rw [List.lookup_append, List.lookup_append, lookup_cons_of_ne hne]
  | @inside _ key schema w w' front back hkey hinside =>
    refine fill_congr (fun s hs => ?_) standard
    show s.update ((front ++ (some key, w) :: back).lookup (some s.key))
      = s.update ((front ++ (some key, w') :: back).lookup (some s.key))
    rw [List.lookup_append, List.lookup_append]
    by_cases heq : s.key = key
    · subst heq
      rw [hlookup s hs] at hkey
      cases hkey
      have hw : s.schema.Fits w := (Schema.fits_object_iff.mp hfits).2.2 _
        (List.mem_append_right _ List.mem_cons_self) _ rfl _ (hlookup s hs)
      rw [List.lookup_cons_self, List.lookup_cons_self]
      cases hfront : front.lookup (some s.key) with
      | some u => rfl
      | none => exact hslots s hs hinside hw
    · rw [lookup_cons_of_ne heq, lookup_cons_of_ne heq]

end IdMint.Json
