import IdMint.Proofs.ReadValues
import Mathlib.Data.List.Forall2

/-! # Records that are read

A record that may be given in part is read from an object or an array that fits its schema. Behind each
member or item stands the record as far as it has been read, and a set of keys that have been seen: the
members are accepted one after the other exactly where all of them together fit. -/

namespace IdMint.Json

variable {α ρ : Type}

/-! ## Fields -/

/-- The field reads values into the slot. -/
structure Field.Follows (f : Field ρ) (s : Slot ρ) : Prop where
  key_eq : f.key = s.key
  steady : s.Steady
  reads : ∀ {v cs before rest}, Spells v cs → Blank before → Ends rest →
    Reads (f.read (before ++ (cs ++ rest))) (s.schema.Fits v) (s.update (some v)) rest

theorem follows_field {codec : Codec α} {kind : Kind α} (h : codec.Follows kind) (key : String)
    (get : ρ → α) (put : α → ρ → ρ) : (field key codec get put).Follows (slot key kind get put) where
  key_eq := rfl
  steady := steady_slot h.steady key get put
  reads hv hbefore hrest := (h.reads hv hbefore hrest).map put

namespace Shape

/-- The shape reads records with the given slots, any of which may be left out. -/
structure Follows (shape : Shape ρ) (slots : List (Slot ρ)) : Prop where
  separate : Separate slots
  partly : shape.complete = false
  fields : List.Forall₂ Field.Follows shape.fields slots

section Find

variable {fields : List (Field ρ)} {slots : List (Slot ρ)} {key : String}

/-- No field has a key that no slot has. -/
theorem find?_eq_none (h : List.Forall₂ Field.Follows fields slots) (hkey : slot? slots key = none) :
    fields.find? (·.key = key) = none := by
  induction h with
  | nil => rfl
  | @cons f s fields slots hf _ ih =>
    rw [slot?, List.find?_cons] at hkey
    rw [List.find?_cons, hf.key_eq]
    split at hkey
    · cases hkey
    · exact ih hkey

/-- The field of a key reads into the slot of the key. -/
theorem exists_find? (h : List.Forall₂ Field.Follows fields slots) {s : Slot ρ}
    (hkey : slot? slots key = some s) : ∃ f, fields.find? (·.key = key) = some f ∧ f.Follows s := by
  induction h with
  | nil => cases hkey
  | @cons f t fields slots hf _ ih =>
    rw [slot?, List.find?_cons] at hkey
    rw [List.find?_cons, hf.key_eq]
    split at hkey
    · cases hkey
      exact ⟨f, rfl, hf⟩
    · exact ih hkey

end Find

/-! ## Members -/

variable {shape : Shape ρ} {slots : List (Slot ρ)}

/-- The keys that have been seen behind a member. -/
def seenAfter (slots : List (Slot ρ)) (seen : List String) : Option String → List String
  | some key => if (slot? slots key).isSome then key :: seen else seen
  | none => seen

/-- A member is accepted: its key spells a text, and if it is known, it has not been seen and the value
fits. -/
def Admits (slots : List (Slot ρ)) (seen : List String) (m : Option String × Value) : Prop :=
  ∃ key, m.1 = some key ∧ ∀ s, slot? slots key = some s → key ∉ seen ∧ s.schema.Fits m.2

/-- A member is read into the slot of its key, or passed over. -/
theorem Follows.reads_readMember (h : shape.Follows slots) (seen : List String) (record : ρ)
    {m : Option String × Value} {cs rest : List Char} (hm : Member Spells m ('"' :: cs)) (hrest : Ends rest) :
    Reads (shape.readMember seen record (cs ++ rest)) (Admits slots seen m)
      (seenAfter slots seen m.1, takeMember slots record m) rest := by
  cases hm with
  | @mk key v raw gap before cs hkey hgap hbefore hv =>
    have hstring := hkey.reads_readString (gap ++ ':' :: (before ++ cs) ++ rest)
    rw [readMember, List.append_assoc, List.cons_append]
    cases key with
    | none =>
      -- the key is read whether it is known or not
      obtain ⟨fault, hfault⟩ := hstring.error nofun
      exact .of_error ⟨fault, by rw [hfault]; rfl⟩ nofun
    | some key =>
      rw [hstring.ok rfl]
      simp only [Option.getD_some, bind, Except.bind, List.append_assoc, List.cons_append,
        skipColon_append hgap, seenAfter, takeMember, Option.bind_some, Admits, Option.some.injEq,
        exists_eq_left']
      cases hslot : slot? slots key with
      | none =>
        refine .of_ok ?_ fun s hs => absurd hs (Option.some_ne_none s).symm
        simp only [find?_eq_none h.fields hslot, hv.skipValue hbefore hrest]
        rfl
      | some s =>
        obtain ⟨f, hfind, hf⟩ := exists_find? h.fields hslot
        simp only [hfind, Option.isSome_some, if_true, Option.some.injEq, forall_eq']
        by_cases hseen : key ∈ seen
        · rw [if_pos hseen]
          exact .of_error ⟨_, rfl⟩ fun hboth => hboth.1 hseen
        · rw [if_neg hseen]
          exact ((hf.reads hv hbefore hrest).map fun put => (key :: seen, put record)).congr
            (and_iff_right hseen).symm

/-- Members are accepted one after the other. -/
def AdmitsAll (slots : List (Slot ρ)) : List String → List (Option String × Value) → Prop
  | _, [] => True
  | seen, m :: members => Admits slots seen m ∧ AdmitsAll slots (seenAfter slots seen m.1) members

theorem Follows.close_eq (h : shape.Follows slots) (seen : List String) (record : ρ)
    (rest : List Char) : shape.close seen record rest = .ok (record, rest) := by
  rw [close, h.partly]
  rfl

theorem readMembersWithin_comma (fuel : Nat) (seen : List String) (record : ρ)
    {cs more rest : List Char} (hcomma : skipSpace cs = ',' :: more)
    (hquote : skipSpace more = '"' :: rest) :
    shape.readMembersWithin (fuel + 1) seen record cs
      = (shape.readMember seen record rest).bind fun read =>
          shape.readMembersWithin fuel read.1.1 read.1.2 read.2 := by
  rw [readMembersWithin]
  simp only [hcomma, hquote]
  rfl

/-- The members behind the first one are read, and the closing brace. -/
theorem Follows.reads_readMembersWithin (h : shape.Follows slots)
    {members : List (Option String × Value)}
    {tail : List Char} (hmembers : Behind '\x7d' (Member Spells) members tail) {fuel : Nat}
    (hfuel : members.length < fuel) (seen : List String) (record : ρ) (rest : List Char) :
    Reads (shape.readMembersWithin fuel seen record (tail ++ rest)) (AdmitsAll slots seen members)
      (members.foldl (takeMember slots) record) rest := by
  -- along the spelling; the keys seen and the record are those behind the members read so far
  induction hmembers generalizing fuel seen record with
  | @last after hafter =>
    obtain ⟨fuel, rfl⟩ := Nat.exists_eq_add_of_le' (m := 1) (n := fuel) (by omega)
    rw [List.foldl_nil, readMembersWithin, skipSpace_closing hafter (by decide)]
    exact .of_ok (h.close_eq seen record rest) trivial
  | @more after before cs tail m members hafter hbefore hm htail ih =>
    obtain ⟨fuel, rfl⟩ := Nat.exists_eq_add_of_le' (m := 1) (n := fuel) (by omega)
    obtain ⟨raw, rfl⟩ := hm.exists_cons
    have hcomma := skipSpace_comma hafter before ('"' :: raw) tail rest
    rw [readMembersWithin_comma fuel seen record hcomma (skipSpace_append_cons hbefore (by decide))]
    exact (h.reads_readMember seen record hm (htail.ends (.inr rfl) rest)).bind fun _ =>
      ih (Nat.lt_of_succ_lt_succ hfuel) _ _

/-- An object is read behind its opening brace. -/
theorem Follows.reads_readObject (h : shape.Follows slots) {members : List (Option String × Value)}
    {cs : List Char} (hmembers : Listed '\x7d' (Member Spells) members cs) (rest : List Char) :
    Reads (shape.readObject (cs ++ rest)) (AdmitsAll slots [] members)
      (members.foldl (takeMember slots) shape.standard) rest := by
  cases hmembers with
  | empty hbetween =>
    rw [readObject, skipSpace_closing hbetween (by decide)]
    exact .of_ok (h.close_eq [] shape.standard rest) trivial
  | @some before cs tail m members hbefore hm htail =>
    obtain ⟨raw, rfl⟩ := hm.exists_cons
    have hquote : skipSpace (before ++ ('"' :: raw ++ tail) ++ rest) = '"' :: (raw ++ (tail ++ rest)) := by
      simp only [List.append_assoc, List.cons_append]
      exact skipSpace_append_cons hbefore (by decide)
    have hobject : shape.readObject (before ++ ('"' :: raw ++ tail) ++ rest)
        = (shape.readMember [] shape.standard (raw ++ (tail ++ rest))).bind fun read =>
            shape.readMembersWithin (before ++ ('"' :: raw ++ tail) ++ rest).length read.1.1 read.1.2
              read.2 := by
      rw [readObject, hquote]
      rfl
    rw [hobject]
    refine (h.reads_readMember [] shape.standard hm (htail.ends (.inr rfl) rest)).bind fun _ =>
      h.reads_readMembersWithin htail ?_ _ _ rest
    have hlength := htail.length_lt
    simp only [List.length_append]
    omega

/-! ## Items -/

/-- Items are accepted: there are no more than slots, and each fits the slot at its place. -/
def ItemsFit (slots : List (Slot ρ)) (items : List Value) : Prop :=
  items.length ≤ slots.length ∧ ∀ p ∈ slots.zip items, p.1.schema.Fits p.2

theorem itemsFit_nil (slots : List (Slot ρ)) : ItemsFit slots [] :=
  ⟨Nat.zero_le _, by rw [List.zip_nil_right]; exact nofun⟩

theorem itemsFit_cons {s : Slot ρ} {v : Value} {items : List Value} :
    s.schema.Fits v ∧ ItemsFit slots items ↔ ItemsFit (s :: slots) (v :: items) := by
  simp only [ItemsFit, List.zip_cons_cons, List.forall_mem_cons, List.length_cons,
    Nat.add_le_add_iff_right]
  tauto

theorem takeItems_nil (slots : List (Slot ρ)) (record : ρ) : takeItems slots [] record = record := by
  rw [takeItems, List.zip_nil_right]
  rfl

/-- The end of an array whose items have all been read. -/
theorem closeArray_bracket (record : ρ) {cs rest : List Char} (hclose : skipSpace cs = ']' :: rest) :
    closeArray record cs = .ok (record, rest) := by
  rw [closeArray, hclose]
  rfl

/-- Further items are refused where all fields have been read. -/
theorem closeArray_ne (record : ρ) {cs tail : List Char} {c : Char} (hskip : skipSpace cs = c :: tail)
    (hc : c ≠ ']') : closeArray record cs = .error .malformed := by
  rw [closeArray, hskip]
  split
  · rename_i heq
    cases heq
  · rename_i heq
    exact absurd (List.cons.inj heq).1 hc
  · rfl

section Parts

variable {f : Field ρ} {fields : List (Field ρ)} {cs more tail : List Char} {c : Char}

theorem readItems_bracket (hpartly : shape.complete = false) (record : ρ)
    (hclose : skipSpace cs = ']' :: tail) :
    shape.readItems (f :: fields) record cs = .ok (record, tail) := by
  rw [readItems]
  simp only [hclose, hpartly]
  rfl

theorem readItems_comma (record : ρ) (hcomma : skipSpace cs = ',' :: more)
    (hvalue : skipSpace more = c :: tail) (hc : c ≠ ']') :
    shape.readItems (f :: fields) record cs
      = (f.read (c :: tail)).bind fun read => shape.readItems fields (read.1 record) read.2 := by
  rw [readItems]
  simp only [hcomma, hvalue]
  split
  · rename_i heq
    cases heq
  · rename_i heq
    exact absurd (List.cons.inj heq).1 hc
  · rfl

theorem readArray_nil (hfields : shape.fields = []) (cs : List Char) :
    shape.readArray cs = closeArray shape.standard cs := by
  rw [readArray, hfields]

theorem readArray_bracket (hfields : shape.fields = f :: fields) (hpartly : shape.complete = false)
    (hclose : skipSpace cs = ']' :: tail) : shape.readArray cs = .ok (shape.standard, tail) := by
  rw [readArray, hfields]
  simp only [hclose, hpartly]
  rfl

theorem readArray_value (hfields : shape.fields = f :: fields) (hvalue : skipSpace cs = c :: tail)
    (hc : c ≠ ']') :
    shape.readArray cs
      = (f.read (c :: tail)).bind fun read => shape.readItems fields (read.1 shape.standard) read.2 := by
  rw [readArray, hfields]
  simp only [hvalue]
  split
  · rename_i heq
    cases heq
  · rename_i heq
    exact absurd (List.cons.inj heq).1 hc
  · rfl

end Parts

/-- The items behind the first one are read, each into the slot at its place, and the closing bracket. -/
theorem Follows.reads_readItems (h : shape.Follows slots) {items : List Value} {tail : List Char}
    (hitems : Behind ']' Spells items tail) {fields : List (Field ρ)} {left : List (Slot ρ)}
    (hleft : List.Forall₂ Field.Follows fields left) (record : ρ) (rest : List Char) :
    Reads (shape.readItems fields record (tail ++ rest)) (ItemsFit left items)
      (takeItems left items record) rest := by
  -- along the spelling; the fields that are left become fewer with each item
  induction hitems generalizing fields left record with
  | @last after hafter =>
    rw [takeItems_nil]
    refine .of_ok ?_ (itemsFit_nil left)
    have hclose : skipSpace (after ++ [']'] ++ rest) = ']' :: rest :=
      skipSpace_closing hafter (by decide) rest
    cases hleft with
    | nil => exact closeArray_bracket record hclose
    | cons => exact readItems_bracket h.partly record hclose
  | @more after before cs tail v items hafter hbefore hv htail ih =>
    have hcomma := skipSpace_comma hafter before cs tail rest
    cases hleft with
    | nil => exact .of_error ⟨_, closeArray_ne record hcomma (by decide)⟩ (by simp [ItemsFit])
    | @cons f s fields left hf hfields =>
      obtain ⟨c, ds, hcons, hc⟩ := hv.begins
      have hvalue : skipSpace (before ++ (cs ++ (tail ++ rest))) = c :: (ds ++ (tail ++ rest)) := by
        rw [hv.skipSpace_append hbefore, hcons, List.cons_append]
      rw [readItems_comma record hcomma hvalue hc.ne_bracket, ← List.cons_append, ← hcons]
      exact ((hf.reads hv blank_nil (htail.ends (.inl rfl) rest)).bind fun _ =>
        ih hfields _).congr itemsFit_cons

/-- An array is read behind its opening bracket. -/
theorem Follows.reads_readArray (h : shape.Follows slots) {items : List Value} {cs : List Char}
    (hitems : Listed ']' Spells items cs) (rest : List Char) :
    Reads (shape.readArray (cs ++ rest)) (ItemsFit slots items)
      (takeItems slots items shape.standard) rest := by
  have hfollows := h.fields
  generalize hshape : shape.fields = fields at hfollows
  cases hitems with
  | @empty between hbetween =>
    rw [takeItems_nil]
    refine .of_ok ?_ (itemsFit_nil slots)
    have hclose : skipSpace (between ++ [']'] ++ rest) = ']' :: rest :=
      skipSpace_closing hbetween (by decide) rest
    cases hfollows with
    | nil => rw [readArray_nil hshape, closeArray_bracket _ hclose]
    | cons => exact readArray_bracket hshape h.partly hclose
  | @some before cs tail v items hbefore hv htail =>
    obtain ⟨c, ds, hcons, hc⟩ := hv.begins
    have hvalue : skipSpace (before ++ (cs ++ tail) ++ rest) = c :: (ds ++ (tail ++ rest)) := by
      rw [List.append_assoc, List.append_assoc, hv.skipSpace_append hbefore, hcons, List.cons_append]
    cases hfollows with
    | nil =>
      rw [readArray_nil hshape]
      exact .of_error ⟨_, closeArray_ne _ hvalue hc.ne_bracket⟩ (by simp [ItemsFit])
    | cons hf hfields =>
      rw [readArray_value hshape hvalue hc.ne_bracket, ← List.cons_append, ← hcons]
      exact ((hf.reads hv blank_nil (htail.ends (.inl rfl) rest)).bind fun _ =>
        h.reads_readItems htail hfields _ rest).congr itemsFit_cons

/-! ## Records -/

/-- Members are accepted where all keys spell texts, no known one is repeated or has been seen, and all
known ones fit. -/
theorem admitsAll_iff (slots : List (Slot ρ)) (seen : List String)
    (members : List (Option String × Value)) :
    AdmitsAll slots seen members
      ↔ (∀ m ∈ members, m.1.isSome = true)
        ∧ (knownKeys (slots.map fun s => (s.key, s.schema)) members).Nodup
        ∧ (∀ key ∈ knownKeys (slots.map fun s => (s.key, s.schema)) members, key ∉ seen)
        ∧ ∀ m ∈ members, ∀ key ∈ m.1, ∀ schema,
            (slots.map fun s => (s.key, s.schema)).lookup key = some schema → schema.Fits m.2 := by
  induction members generalizing seen with
  | nil => simp [AdmitsAll, knownKeys]
  | cons m members ih =>
    obtain ⟨_ | key, v⟩ := m
    · simp [AdmitsAll, Admits]
    rw [AdmitsAll, ih, knownKeys_cons, List.forall_mem_cons, List.forall_mem_cons, Admits, seenAfter]
    simp only [Option.isSome_some, true_and, Option.mem_def, Option.some.injEq, exists_eq_left',
      forall_eq', lookup_fields]
    -- a known key is remembered: that it comes again is what the members behind it are refused for
    cases slot? slots key with
    | none => simp
    | some s =>
      simp only [Option.some.injEq, forall_eq', Option.isSome_some, if_true, Option.map_some,
        List.singleton_append, List.nodup_cons, List.mem_cons, forall_eq_or_imp, not_or]
      constructor
      · rintro ⟨⟨hnew, hfits⟩, hspelled, hnodup, hseen, hall⟩
        exact ⟨hspelled, ⟨fun hmem => (hseen _ hmem).1 rfl, hnodup⟩,
          ⟨hnew, fun key hkey => (hseen key hkey).2⟩, hfits, hall⟩
      · rintro ⟨hspelled, ⟨hfresh, hnodup⟩, ⟨hnew, hseen⟩, hfits, hall⟩
        exact ⟨⟨hnew, hfits⟩, hspelled, hnodup,
          fun key hkey => ⟨fun heq => hfresh (heq ▸ hkey), hseen key hkey⟩, hall⟩

theorem admitsAll_nil_iff (standard : ρ) (slots : List (Slot ρ))
    (members : List (Option String × Value)) :
    AdmitsAll slots [] members ↔ (Kind.record standard slots).schema.Fits (.object members) := by
  rw [admitsAll_iff]
  refine Iff.trans ?_ Schema.fits_object_iff.symm
  simp

theorem itemsFit_iff (standard : ρ) (slots : List (Slot ρ)) (items : List Value) :
    ItemsFit slots items ↔ (Kind.record standard slots).schema.Fits (.array items) := by
  have hzip : (slots.map fun s => (s.key, s.schema)).zip items
      = (slots.zip items).map fun p => ((p.1.key, p.1.schema), p.2) := by
    rw [List.zip_map_left]
    rfl
  constructor
  · rintro ⟨hlength, hfits⟩
    refine .array (by rwa [List.length_map]) fun p hp => ?_
    rw [hzip] at hp
    obtain ⟨q, hq, rfl⟩ := List.mem_map.mp hp
    exact hfits q hq
  · intro h
    cases h with
    | array hlength hfits =>
      rw [List.length_map] at hlength
      refine ⟨hlength, fun p hp => ?_⟩
      exact hfits ((p.1.key, p.1.schema), p.2) (hzip ▸ List.mem_map_of_mem hp)

/-- An object or an array is read as a record if it fits, and nothing else is. -/
theorem Follows.reads_read (h : shape.Follows slots) {v : Value}
    {cs before : List Char} (hv : Spells v cs) (hbefore : Blank before) (rest : List Char) :
    Reads (shape.read (before ++ (cs ++ rest))) ((Kind.record shape.standard slots).schema.Fits v)
      ((Kind.record shape.standard slots).value v) rest := by
  rw [read, hv.skipSpace_append hbefore]
  obtain ⟨c, tail, hcons, hc⟩ := hv.begins
  by_cases hbracket : c = '['
  · obtain ⟨items, rfl⟩ := hc.array hbracket
    cases hv with
    | array hitems =>
      have hreads := (h.reads_readArray hitems rest).congr (itemsFit_iff shape.standard slots items)
      rw [h.separate.takeItems_eq_fill] at hreads
      exact hreads
  · by_cases hbrace : c = '\x7b'
    · obtain ⟨members, rfl⟩ := hc.object hbrace
      cases hv with
      | object hmembers =>
        have hreads := (h.reads_readObject hmembers rest).congr
          (admitsAll_nil_iff shape.standard slots members)
        refine ⟨fun hfits => (hreads.ok hfits).trans ?_, hreads.error⟩
        rw [h.separate.foldl_takeMember (Schema.fits_object_iff.mp hfits).2.1]
        rfl
    · refine .of_error ⟨wrongKind (cs ++ rest), ?_⟩ fun hfits => ?_
      · rw [hcons, List.cons_append]
        split
        · rename_i heq
          cases heq
        · rename_i heq
          exact absurd (List.cons.inj heq).1 hbracket
        · rename_i heq
          exact absurd (List.cons.inj heq).1 hbrace
        · rfl
      · cases hfits with
        | object =>
          cases hv with
          | object => exact hbrace (List.cons.inj hcons).1.symm
        | array =>
          cases hv with
          | array => exact hbracket (List.cons.inj hcons).1.symm

/-- Changes do not matter to the slots that fields read into. -/
theorem steady_slots {fields : List (Field ρ)} (h : List.Forall₂ Field.Follows fields slots) :
    ∀ s ∈ slots, s.Steady := by
  induction h with
  | nil => nofun
  | cons hf _ ih => exact List.forall_mem_cons.mpr ⟨hf.steady, ih⟩

/-- Records are values of a kind. -/
theorem Follows.codec (h : shape.Follows slots) :
    shape.codec.Follows (.record shape.standard slots) where
  steady := h.separate.steady_record (steady_slots h.fields)
  reads hv hbefore _ := h.reads_read hv hbefore _

end Shape

end IdMint.Json
