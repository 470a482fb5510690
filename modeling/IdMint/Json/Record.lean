import IdMint.Json.Number

/-! # JSON records

Reading and writing records. A record is read from an object, with its fields in any order and mixed
with unknown ones, which are passed over; or from an array of its fields in their order, of which the
last ones may be left out. A field that is not given keeps its standard value. A record is written as
an object with all its fields in their order and without white space. -/

namespace IdMint.Json

/-! ## Passing over values -/

/-- Passes over the given letters. -/
def skipWord : (word : List Char) → List Char → Except Fault (List Char)
  | [], cs => .ok cs
  | _ :: _, [] => .error .truncated
  | w :: word, c :: cs => if w = c then skipWord word cs else .error .malformed

/-- Passes over a colon and the white space in front of it. -/
def skipColon (cs : List Char) : Except Fault (List Char) :=
  match skipSpace cs with
  | [] => .error .truncated
  | ':' :: rest => .ok rest
  | _ => .error .malformed

/-- Whether a character can begin a number. -/
def beginsNumber (c : Char) : Bool := c = '-' || c.isDigit

mutual

/-- Passes over a value of any kind within the given number of steps. -/
def skipValueWithin : (fuel : Nat) → List Char → Except Fault (List Char)
  | 0, _ => .error .truncated
  | fuel + 1, cs =>
    match skipSpace cs with
    | [] => .error .truncated
    | c :: rest =>
      if c = 'n' then skipWord ['u', 'l', 'l'] rest
      else if c = 't' then skipWord ['r', 'u', 'e'] rest
      else if c = 'f' then skipWord ['a', 'l', 's', 'e'] rest
      else if beginsNumber c then skipNumber (c :: rest)
      else if c = '"' then skipString rest
      else if c = '[' then
        match skipSpace rest with
        | ']' :: rest => .ok rest
        | [] => .error .truncated
        | rest => skipItemsWithin fuel rest
      else if c = '\x7b' then
        match skipSpace rest with
        | '\x7d' :: rest => .ok rest
        | [] => .error .truncated
        | rest => skipMembersWithin fuel rest
      else .error .malformed

/-- Passes over the items of an array, of which there is at least one, and its closing bracket. -/
def skipItemsWithin : (fuel : Nat) → List Char → Except Fault (List Char)
  | 0, _ => .error .truncated
  | fuel + 1, cs => do
    match skipSpace (← skipValueWithin fuel cs) with
    | [] => .error .truncated
    | ']' :: rest => .ok rest
    | ',' :: rest => skipItemsWithin fuel rest
    | _ => .error .malformed

/-- Passes over the members of an object, of which there is at least one, and its closing brace. -/
def skipMembersWithin : (fuel : Nat) → List Char → Except Fault (List Char)
  | 0, _ => .error .truncated
  | fuel + 1, cs =>
    match skipSpace cs with
    | [] => .error .truncated
    | '"' :: rest => do
      let rest ← skipColon (← skipString rest)
      match skipSpace (← skipValueWithin fuel rest) with
      | [] => .error .truncated
      | '\x7d' :: rest => .ok rest
      | ',' :: rest => skipMembersWithin fuel rest
      | _ => .error .malformed
    | _ => .error .malformed

end

/-- Passes over a value of any kind. An opening bracket takes two steps, any other character at most
one. -/
def skipValue (cs : List Char) : Except Fault (List Char) := skipValueWithin (2 * cs.length + 1) cs

/-! ## Reading single values -/

/-- What is wrong with a value of another kind than the one asked for: a scalar has to be well-formed
for that to matter. The characters begin with the value. -/
def wrongKind (cs : List Char) : Fault :=
  let scalar : Except Fault Unit := match cs with
    | [] => .error .truncated
    | c :: rest =>
      if c = 'n' then (skipWord ['u', 'l', 'l'] rest).map fun _ => ()
      else if c = 't' then (skipWord ['r', 'u', 'e'] rest).map fun _ => ()
      else if c = 'f' then (skipWord ['a', 'l', 's', 'e'] rest).map fun _ => ()
      else if beginsNumber c then (readNumber (c :: rest)).map fun _ => ()
      else if c = '"' then (readString rest).map fun _ => ()
      else if c = '[' ∨ c = '\x7b' then .ok ()
      else .error .malformed
  match scalar with
  | .ok () => .mismatched
  | .error fault => fault

/-- Reads a string. -/
def readText : Reader String := fun cs =>
  match skipSpace cs with
  | [] => .error .truncated
  | '"' :: rest => readString rest
  | cs => .error (wrongKind cs)

/-- Reads a natural number below a bound. -/
def readBelow (bound : Nat) : Reader Nat := fun cs =>
  match skipSpace cs with
  | [] => .error .truncated
  | c :: rest =>
    if beginsNumber c then
      match readNumber (c :: rest) with
      | .ok (.natural n, rest) => if n < bound then .ok (n, rest) else .error .mismatched
      | .ok (.other, _) => .error .mismatched
      | .error fault => .error fault
    else .error (wrongKind (c :: rest))

/-! ## Codecs -/

/-- A way to read values of a type and to write them. -/
structure Codec (α : Type) where
  /-- Reads a value from the front of the characters that are left. -/
  read : Reader α
  /-- A value as it is written. -/
  write : α → List Char

namespace Codec

/-- Texts. -/
def text : Codec String := ⟨readText, writeString⟩

/-- Unsigned 64-bit numbers. -/
def uint64 : Codec UInt64 where
  read cs := (readBelow UInt64.size cs).map fun (n, rest) => (UInt64.ofNat n, rest)
  write n := Nat.toDigits 10 n.toNat

/-- Unsigned 32-bit numbers. -/
def uint32 : Codec UInt32 where
  read cs := (readBelow UInt32.size cs).map fun (n, rest) => (UInt32.ofNat n, rest)
  write n := Nat.toDigits 10 n.toNat

end Codec

/-! ## Shapes of records -/

/-- A field of a record: its key, how its value is read into the record, and how it is written. -/
structure Field (ρ : Type) where
  key : String
  read : Reader (ρ → ρ)
  write : ρ → List Char

/-- The field of a key whose value `get` takes from the record and `put` puts into it. -/
def field (key : String) (codec : Codec α) (get : ρ → α) (put : α → ρ → ρ) : Field ρ where
  key := key
  read cs := (codec.read cs).map fun (a, rest) => (put a, rest)
  write record := codec.write (get record)

/-- The shape of a record in JSON. -/
structure Shape (ρ : Type) where
  /-- The record that keeps its standard values. -/
  standard : ρ
  /-- The fields in their order. -/
  fields : List (Field ρ)
  /-- Whether every field has to be given. -/
  complete : Bool

namespace Shape

variable {ρ : Type}

/-! ### Reading -/

/-- The end of a record: the keys that were given have to suffice. -/
def close (shape : Shape ρ) (seen : List String) (record : ρ) (rest : List Char) :
    Except Fault (ρ × List Char) :=
  if shape.complete && !shape.fields.all (seen.contains ·.key) then .error .mismatched
  else .ok (record, rest)

/-- Reads one member of an object behind the quote that opens its key. A known key may be given only
once. -/
def readMember (shape : Shape ρ) (seen : List String) (record : ρ) (cs : List Char) :
    Except Fault ((List String × ρ) × List Char) := do
  let (key, rest) ← readString cs
  match shape.fields.find? (·.key = key) with
  | none =>
    let rest ← skipValue (← skipColon rest)
    .ok ((seen, record), rest)
  | some known =>
    if key ∈ seen then .error .mismatched
    else
      let rest ← skipColon rest
      let (put, rest) ← known.read rest
      .ok ((key :: seen, put record), rest)

/-- Reads the members of an object behind its first one, and its closing brace. -/
def readMembersWithin (shape : Shape ρ) :
    (fuel : Nat) → List String → ρ → List Char → Except Fault (ρ × List Char)
  | 0, _, _, _ => .error .truncated
  | fuel + 1, seen, record, cs =>
    match skipSpace cs with
    | [] => .error .truncated
    | '\x7d' :: rest => shape.close seen record rest
    | ',' :: rest =>
      match skipSpace rest with
      | [] => .error .truncated
      | '"' :: rest => do
        let ((seen, record), rest) ← shape.readMember seen record rest
        readMembersWithin shape fuel seen record rest
      | _ => .error .malformed
    | _ => .error .malformed

/-- Reads an object behind its opening brace. -/
def readObject (shape : Shape ρ) (cs : List Char) : Except Fault (ρ × List Char) :=
  match skipSpace cs with
  | [] => .error .truncated
  | '\x7d' :: rest => shape.close [] shape.standard rest
  | '"' :: rest => do
    let ((seen, record), after) ← shape.readMember [] shape.standard rest
    readMembersWithin shape cs.length seen record after
  | _ => .error .malformed

/-- The end of an array of which all fields have been read. -/
def closeArray (record : ρ) (cs : List Char) : Except Fault (ρ × List Char) :=
  match skipSpace cs with
  | [] => .error .truncated
  | ']' :: rest => .ok (record, rest)
  | _ => .error .malformed

/-- Reads the fields of an array that are left, behind its first one. -/
def readItems (shape : Shape ρ) : List (Field ρ) → ρ → List Char → Except Fault (ρ × List Char)
  | [], record, cs => closeArray record cs
  | f :: fields, record, cs =>
    match skipSpace cs with
    | [] => .error .truncated
    | ']' :: rest => if shape.complete then .error .mismatched else .ok (record, rest)
    | ',' :: rest =>
      match skipSpace rest with
      | [] => .error .truncated
      | ']' :: _ => .error .malformed
      | rest => do
        let (put, rest) ← f.read rest
        readItems shape fields (put record) rest
    | _ => .error .malformed

/-- Reads an array behind its opening bracket. -/
def readArray (shape : Shape ρ) (cs : List Char) : Except Fault (ρ × List Char) :=
  match shape.fields with
  | [] => closeArray shape.standard cs
  | f :: fields =>
    match skipSpace cs with
    | [] => .error .truncated
    | ']' :: rest => if shape.complete then .error .mismatched else .ok (shape.standard, rest)
    | rest => do
      let (put, rest) ← f.read rest
      readItems shape fields (put shape.standard) rest

/-- Reads a record. -/
def read (shape : Shape ρ) : Reader ρ := fun cs =>
  match skipSpace cs with
  | [] => .error .truncated
  | '[' :: rest => shape.readArray rest
  | '\x7b' :: rest => shape.readObject rest
  | cs => .error (wrongKind cs)

/-- Reads a document that consists of one record. -/
def parse (shape : Shape ρ) (document : String) : Except Fault ρ := do
  let (record, rest) ← shape.read document.toList
  if (skipSpace rest).isEmpty then .ok record else .error .malformed

/-! ### Writing -/

/-- A field of a record as it is written: the key, a colon and the value. -/
def writeMember (record : ρ) (f : Field ρ) : List Char :=
  writeString f.key ++ ':' :: f.write record

/-- A record as it is written. -/
def write (shape : Shape ρ) (record : ρ) : List Char :=
  '\x7b' :: List.intercalate [','] (shape.fields.map (writeMember record)) ++ ['\x7d']

/-- The document that consists of one record. -/
def print (shape : Shape ρ) (record : ρ) : String := String.ofList (shape.write record)

/-- Records as values of their own. -/
def codec (shape : Shape ρ) : Codec ρ := ⟨shape.read, shape.write⟩

end Shape

end IdMint.Json
