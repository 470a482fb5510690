import IdMint.Json.Documents
import IdMint.Proofs.JsonValues
import Mathlib.Data.List.Forall2

/-! # Documents read back

A record that is written is read back as it was: its fields follow each other in the order of the
shape, each under a key of its own, and together they say all that there is to say of the record. So a
document that is accepted may be replaced by the one that is written for what was read. -/

namespace IdMint.Json

variable {ρ : Type}

/-! ## Fields -/

/-- The value that is written for a record's field is read back as a change of a record. -/
def Field.Restores (record : ρ) (f : Field ρ) (change : ρ → ρ) : Prop :=
  ∀ {rest}, Stops rest → f.read (f.write record ++ rest) = .ok (change, rest)

theorem restores_field {α : Type} {codec : Codec α} (h : codec.Lawful) {key : String} {get : ρ → α}
    {put : α → ρ → ρ} {record : ρ} :
    (field key codec get put).Restores record (put (get record)) := by
  intro rest hrest
  show (codec.read (codec.write (get record) ++ rest)).map _ = _
  rw [h (get record) hrest]
  rfl

namespace Shape

/-- The shape says all that there is to say of a record, and every field has a key of its own. -/
structure Lawful (shape : Shape ρ) : Prop where
  nodup : (shape.fields.map Field.key).Nodup
  ne_nil : shape.fields ≠ []
  restores : ∀ record, ∃ changes, List.Forall₂ (Field.Restores record) shape.fields changes
    ∧ changes.foldl (fun r change => change r) shape.standard = record

/-- The field of a key is found by the key. -/
theorem find?_key {fields : List (Field ρ)} (hnodup : (fields.map Field.key).Nodup) {f : Field ρ}
    (hf : f ∈ fields) : fields.find? (·.key = f.key) = some f := by
  induction fields with
  | nil => exact absurd hf List.not_mem_nil
  | cons g fields ih =>
    rw [List.map_cons, List.nodup_cons] at hnodup
    rcases List.mem_cons.mp hf with rfl | hmem
    · exact List.find?_cons_of_pos (decide_eq_true rfl)
    · have hne : g.key ≠ f.key := fun heq => hnodup.1 (heq ▸ List.mem_map_of_mem hmem)
      rw [List.find?_cons_of_neg (by simpa using hne)]
      exact ih hnodup.2 hmem

/-! ## Members -/

/-- A member as it is written, behind the quote that opens its key. -/
def memberBehindQuote (record : ρ) (f : Field ρ) (rest : List Char) : List Char :=
  f.key.toList.flatMap writeChar ++ '"' :: ':' :: (f.write record ++ rest)

theorem writeMember_append (record : ρ) (f : Field ρ) (rest : List Char) :
    writeMember record f ++ rest = '"' :: memberBehindQuote record f rest := by
  rw [writeMember, List.append_assoc, writeString_append]
  rfl

variable {shape : Shape ρ} {record : ρ}

/-- A member that is written is read back, if its key has not been seen. -/
theorem readMember_write (hnodup : (shape.fields.map Field.key).Nodup) {f : Field ρ}
    (hf : f ∈ shape.fields) {change : ρ → ρ} (hrestores : f.Restores record change)
    {seen : List String} (hseen : f.key ∉ seen) (so : ρ) {rest : List Char} (hrest : Stops rest) :
    shape.readMember seen so (memberBehindQuote record f rest)
      = .ok ((f.key :: seen, change so), rest) := by
  have hkey := readString_write f.key (':' :: (f.write record ++ rest))
  have hcolon : skipColon (':' :: (f.write record ++ rest)) = .ok (f.write record ++ rest) := rfl
  simp only [readMember, memberBehindQuote, hkey, bind, Except.bind, find?_key hnodup hf, if_neg hseen,
    hcolon, hrestores hrest]

/-- Further members as they are written, each behind a comma. -/
def furtherMembers (record : ρ) (fields : List (Field ρ)) (rest : List Char) : List Char :=
  fields.foldr (fun f rest => ',' :: (writeMember record f ++ rest)) ('\x7d' :: rest)

theorem stops_furtherMembers (record : ρ) (fields : List (Field ρ)) (rest : List Char) :
    Stops (furtherMembers record fields rest) := by
  cases fields with
  | nil => exact .inr rfl
  | cons f fields => exact .inl rfl

/-- The members behind the first one are read back one by one. -/
theorem readMembersWithin_write (hnodup : (shape.fields.map Field.key).Nodup)
    {fields : List (Field ρ)} {changes : List (ρ → ρ)} (hfields : ∀ f ∈ fields, f ∈ shape.fields)
    (hown : (fields.map Field.key).Nodup)
    (hrestores : List.Forall₂ (Field.Restores record) fields changes) {fuel : Nat}
    (hfuel : fields.length < fuel) {seen : List String} (hseen : ∀ f ∈ fields, f.key ∉ seen) (so : ρ)
    (rest : List Char) :
    shape.readMembersWithin fuel seen so (furtherMembers record fields rest)
      = shape.close ((fields.map Field.key).reverse ++ seen)
          (changes.foldl (fun r change => change r) so) rest := by
  -- every member adds its key to those seen, and none of the later ones is among them
  induction hrestores generalizing fuel seen so with
  | nil =>
    obtain ⟨fuel, rfl⟩ := Nat.exists_eq_add_of_le' hfuel
    rfl
  | @cons f change fields changes hf _ ih =>
    obtain ⟨fuel, rfl⟩ := Nat.exists_eq_add_of_le' (Nat.zero_lt_of_lt hfuel)
    rw [List.map_cons, List.nodup_cons] at hown
    have hmember := readMember_write hnodup (hfields f List.mem_cons_self) hf
      (hseen f List.mem_cons_self) so (stops_furtherMembers record fields rest)
    have hseen' (g : Field ρ) (hg : g ∈ fields) : g.key ∉ f.key :: seen := by
      rw [List.mem_cons, not_or]
      exact ⟨fun heq => hown.1 (heq ▸ List.mem_map_of_mem hg), hseen g (List.mem_cons_of_mem f hg)⟩
    have hlater := ih (fun g hg => hfields g (List.mem_cons_of_mem f hg)) hown.2
      (Nat.lt_of_succ_lt_succ hfuel) hseen' (change so)
    rw [List.map_cons, List.reverse_cons, List.append_assoc, List.foldl_cons]
    refine Eq.trans ?_ hlater
    rw [furtherMembers, List.foldr_cons, ← furtherMembers, writeMember_append]
    show (shape.readMember seen so (memberBehindQuote record f _)).bind
      (fun read => shape.readMembersWithin fuel read.1.1 read.1.2 read.2) = _
    rw [hmember]
    rfl

/-- Further members take no fewer characters than there are members. -/
theorem length_lt_furtherMembers (record : ρ) (fields : List (Field ρ)) (rest : List Char) :
    fields.length < (furtherMembers record fields rest).length := by
  induction fields with
  | nil => exact Nat.zero_lt_succ _
  | cons f fields ih =>
    rw [furtherMembers, List.foldr_cons, ← furtherMembers, List.length_cons, List.length_cons,
      List.length_append]
    omega

/-! ## Records -/

/-- Parts with commas between them are the first one and the others, each behind a comma. -/
theorem intercalate_append (part : List Char) (parts : List (List Char)) (rest : List Char) :
    List.intercalate [','] (part :: parts) ++ rest
      = part ++ parts.foldr (fun next rest => ',' :: (next ++ rest)) rest := by
  induction parts generalizing part with
  | nil => simp [List.intercalate]
  | cons next parts ih =>
    rw [List.foldr_cons, ← ih]
    simp [List.intercalate]

/-- A record as it is written, member by member. -/
theorem write_append (shape : Shape ρ) (record : ρ) {f : Field ρ} {fields : List (Field ρ)}
    (hfields : shape.fields = f :: fields) (rest : List Char) :
    shape.write record ++ rest
      = '\x7b' :: '"' :: memberBehindQuote record f (furtherMembers record fields rest) := by
  have hparts := intercalate_append (writeMember record f) (fields.map (writeMember record))
    ('\x7d' :: rest)
  rw [List.foldr_map] at hparts
  rw [write, hfields, List.map_cons, List.append_assoc, List.cons_append, ← writeMember_append]
  exact congrArg _ hparts

/-- Where all keys were given a record is complete. -/
theorem close_of_seen {seen : List String} (h : ∀ f ∈ shape.fields, f.key ∈ seen) (so : ρ)
    (rest : List Char) : shape.close seen so rest = .ok (so, rest) := by
  have hall : shape.fields.all (seen.contains ·.key) = true :=
    List.all_eq_true.mpr fun f hf => List.contains_iff_mem.mpr (h f hf)
  rw [close, hall, Bool.not_true, Bool.and_false]
  rfl

/-- A record is read back from the object that is written for it. -/
theorem Lawful.codec (h : shape.Lawful) : shape.codec.Lawful := by
  intro record rest _
  show shape.read (shape.write record ++ rest) = .ok (record, rest)
  obtain ⟨changes, hrestores, hrecord⟩ := h.restores record
  have hnodup := h.nodup
  cases hfields : shape.fields with
  | nil => exact absurd hfields h.ne_nil
  | cons f fields =>
    have hin (g : Field ρ) (hg : g ∈ f :: fields) : g ∈ shape.fields := hfields ▸ hg
    rw [hfields] at hrestores
    obtain ⟨change, changes, hf, hlater, rfl⟩ := List.forall₂_cons_left_iff.mp hrestores
    have hown : f.key ∉ fields.map Field.key ∧ (fields.map Field.key).Nodup := by
      rw [hfields, List.map_cons, List.nodup_cons] at hnodup
      exact hnodup
    have hmember := readMember_write hnodup (hin f List.mem_cons_self) hf List.not_mem_nil
      shape.standard (stops_furtherMembers record fields rest)
    -- each member takes a character, so there is fuel for all of them
    have hfuel : fields.length
        < ('"' :: memberBehindQuote record f (furtherMembers record fields rest)).length := by
      have hlength := length_lt_furtherMembers record fields rest
      simp only [memberBehindQuote, List.length_cons, List.length_append]
      omega
    have hfresh (g : Field ρ) (hg : g ∈ fields) : g.key ∉ [f.key] := by
      rw [List.mem_singleton]
      exact fun heq => hown.1 (heq ▸ List.mem_map_of_mem hg)
    have hmembers := readMembersWithin_write hnodup
      (fun g hg => hin g (List.mem_cons_of_mem f hg)) hown.2 hlater hfuel hfresh
      (change shape.standard) rest
    have hseen (g : Field ρ) (hg : g ∈ shape.fields) :
        g.key ∈ (fields.map Field.key).reverse ++ [f.key] := by
      rw [hfields] at hg
      rcases List.mem_cons.mp hg with rfl | hg
      · exact List.mem_append_right _ List.mem_cons_self
      · exact List.mem_append_left _ (List.mem_reverse.mpr (List.mem_map_of_mem hg))
    rw [write_append shape record hfields]
    show (shape.readMember [] shape.standard (memberBehindQuote record f _)).bind
      (fun read => shape.readMembersWithin _ read.1.1 read.1.2 read.2) = _
    rw [hmember]
    refine hmembers.trans ?_
    rw [close_of_seen hseen, ← hrecord]
    rfl

/-! ## Documents -/

/-- The document that is written for what is read from a document. -/
def rewrite (shape : Shape ρ) (document : String) : Except Fault String :=
  (shape.parse document).map shape.print

/-- What is said of the documents of a shape. -/
structure ReadsBack (shape : Shape ρ) : Prop where
  /-- A record is read back from the document that is written for it. -/
  parse_print : ∀ record, shape.parse (shape.print record) = .ok record
  /-- What is read from a document that is accepted is read again from the one written for it. -/
  parse_again : ∀ document record, shape.parse document = .ok record →
    (shape.rewrite document).bind shape.parse = .ok record
  /-- A document that was written is written again as it is. -/
  rewrite_again : ∀ document document', shape.rewrite document = .ok document' →
    shape.rewrite document' = .ok document'

theorem Lawful.parse_print (h : shape.Lawful) (record : ρ) :
    shape.parse (shape.print record) = .ok record := by
  have hread : shape.read (shape.write record ++ []) = .ok (record, []) := h.codec record trivial
  rw [List.append_nil] at hread
  rw [parse, print, String.toList_ofList, hread]
  rfl

theorem Lawful.readsBack (h : shape.Lawful) : shape.ReadsBack where
  parse_print := h.parse_print
  parse_again document record hparse := by
    rw [rewrite, hparse]
    exact h.parse_print record
  rewrite_again document document' hrewrite := by
    rw [rewrite] at hrewrite
    cases hparse : shape.parse document with
    | error fault =>
      rw [hparse] at hrewrite
      cases hrewrite
    | ok record =>
      rw [hparse] at hrewrite
      cases hrewrite
      rw [rewrite, h.parse_print]
      rfl

end Shape

end IdMint.Json

namespace IdMint

open Json

/-! ## Settings and identifiers -/

theorem LocalSettings.lawful_shape : LocalSettings.shape.Lawful where
  nodup := by decide
  ne_nil := List.cons_ne_nil _ _
  restores _ := ⟨_, .cons (restores_field Codec.lawful_uint64) <|
    .cons (restores_field Codec.lawful_uint64) .nil, rfl⟩

theorem CounterSettings.lawful_shape : CounterSettings.shape.Lawful where
  nodup := by decide
  ne_nil := List.cons_ne_nil _ _
  restores _ := ⟨_, .cons (restores_field Codec.lawful_text) <|
    .cons (restores_field Codec.lawful_uint64) <|
    .cons (restores_field Codec.lawful_uint64) .nil, rfl⟩

theorem BackoffSettings.lawful_shape : BackoffSettings.shape.Lawful where
  nodup := by decide
  ne_nil := List.cons_ne_nil _ _
  restores _ := ⟨_, .cons (restores_field Codec.lawful_uint64) <|
    .cons (restores_field Codec.lawful_uint32) .nil, rfl⟩

theorem BoundedBackoffSettings.lawful_shape : BoundedBackoffSettings.shape.Lawful where
  nodup := by decide
  ne_nil := List.cons_ne_nil _ _
  restores _ := ⟨_, .cons (restores_field Codec.lawful_uint64) <|
    .cons (restores_field Codec.lawful_uint64) <|
    .cons (restores_field Codec.lawful_uint32) .nil, rfl⟩

theorem NTimesSettings.lawful_shape : NTimesSettings.shape.Lawful where
  nodup := by decide
  ne_nil := List.cons_ne_nil _ _
  restores _ := ⟨_, .cons (restores_field Codec.lawful_uint32) <|
    .cons (restores_field Codec.lawful_uint64) .nil, rfl⟩

theorem ForeverSettings.lawful_shape : ForeverSettings.shape.Lawful where
  nodup := by decide
  ne_nil := List.cons_ne_nil _ _
  restores _ := ⟨_, .cons (restores_field Codec.lawful_uint64) .nil, rfl⟩

theorem UntilElapsedSettings.lawful_shape : UntilElapsedSettings.shape.Lawful where
  nodup := by decide
  ne_nil := List.cons_ne_nil _ _
  restores _ := ⟨_, .cons (restores_field Codec.lawful_uint64) <|
    .cons (restores_field Codec.lawful_uint64) .nil, rfl⟩

theorem RetrySettings.lawful_shape : RetrySettings.shape.Lawful where
  nodup := by decide
  ne_nil := List.cons_ne_nil _ _
  restores _ := ⟨_, .cons (restores_field Codec.lawful_text) <|
    .cons (restores_field BackoffSettings.lawful_shape.codec) <|
    .cons (restores_field BoundedBackoffSettings.lawful_shape.codec) <|
    .cons (restores_field NTimesSettings.lawful_shape.codec) <|
    .cons (restores_field ForeverSettings.lawful_shape.codec) <|
    .cons (restores_field UntilElapsedSettings.lawful_shape.codec) .nil, rfl⟩

theorem CoordinationSettings.lawful_shape : CoordinationSettings.shape.Lawful where
  nodup := by decide
  ne_nil := List.cons_ne_nil _ _
  restores _ := ⟨_, .cons (restores_field Codec.lawful_text) <|
    .cons (restores_field Codec.lawful_text) <|
    .cons (restores_field Codec.lawful_uint64) <|
    .cons (restores_field Codec.lawful_uint64) <|
    .cons (restores_field RetrySettings.lawful_shape.codec) .nil, rfl⟩

theorem PackedId.lawful_shape : PackedId.shape.Lawful where
  nodup := by decide
  ne_nil := List.cons_ne_nil _ _
  restores _ := ⟨_, .cons (restores_field Codec.lawful_uint64) .nil, rfl⟩

/-- **Documents are read back.** Whatever integers and texts settings or an identifier hold, what is read
from the document that is written for them is what was written. -/
theorem documents_read_back :
    LocalSettings.shape.ReadsBack ∧ CounterSettings.shape.ReadsBack ∧ RetrySettings.shape.ReadsBack
      ∧ CoordinationSettings.shape.ReadsBack ∧ PackedId.shape.ReadsBack :=
  ⟨LocalSettings.lawful_shape.readsBack, CounterSettings.lawful_shape.readsBack,
    RetrySettings.lawful_shape.readsBack, CoordinationSettings.lawful_shape.readsBack,
    PackedId.lawful_shape.readsBack⟩

example : CounterSettings.shape.print ⟨"\"\\\x01", 8, 1⟩
    = "\x7b\"prefix\":\"\\\"\\\\\\u0001\",\"length\":8,\"step\":1\x7d" := by cbv

end IdMint
