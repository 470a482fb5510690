import IdMint.Json.Documents
import IdMint.Proofs.ReadRecords

/-! # Partial documents

Settings may be given in part. A document gives what it gives in any order and mixed with members that
nobody knows, also inside settings in settings; what is read is the standard settings with exactly that
in its place. A known key that is repeated or holds a value of another kind makes a document refused, and
so does a key that spells no text, known or not. -/

namespace IdMint.Json

variable {ρ : Type}

/-! ## Documents -/

theorem ends_of_blank {after : List Char} (h : Blank after) : Ends after := fun c hc =>
  .inl (h c (List.mem_of_mem_head? hc))

theorem skipSpace_blank {after : List Char} (h : Blank after) : skipSpace after = [] := by
  have hskip := skipSpace_append h []
  rwa [List.append_nil] at hskip

namespace Shape

variable {shape : Shape ρ} {kind : Kind ρ} {v : Value} {document : String}

/-- A document whose value fits is read. -/
theorem parse_of_fits (h : shape.codec.Follows kind) (hdocument : Document v document)
    (hfits : kind.schema.Fits v) : shape.parse document = .ok (kind.value v) := by
  obtain ⟨before, cs, after, hbefore, hv, hafter, hchars⟩ := hdocument
  have hread : shape.read (before ++ (cs ++ after)) = .ok (kind.value v, after) :=
    (h.reads hv hbefore (ends_of_blank hafter)).ok hfits
  rw [parse, hchars, hread]
  simp only [bind, Except.bind, skipSpace_blank hafter, List.isEmpty_nil, if_true]

/-- Every other document is refused. -/
theorem parse_of_not_fits (h : shape.codec.Follows kind) (hdocument : Document v document)
    (hfits : ¬ kind.schema.Fits v) : ∃ fault, shape.parse document = .error fault := by
  obtain ⟨before, cs, after, hbefore, hv, hafter, hchars⟩ := hdocument
  obtain ⟨fault, hread⟩ : ∃ fault, shape.read (before ++ (cs ++ after)) = .error fault :=
    (h.reads hv hbefore (ends_of_blank hafter)).error hfits
  exact ⟨fault, by rw [parse, hchars, hread]; rfl⟩

/-- What is said of the documents of a shape. -/
structure ReadsPartially (shape : Shape ρ) (kind : Kind ρ) : Prop where
  /-- A document that fits is read as the standard record with what it gives in its place. -/
  accepts : ∀ v document, Document v document → kind.schema.Fits v →
    shape.parse document = .ok (kind.value v)
  /-- Every other document is refused. -/
  refuses : ∀ v document, Document v document → ¬ kind.schema.Fits v →
    ∃ fault, shape.parse document = .error fault
  /-- So is one where a known key is repeated, or holds null or a negative number, a fraction or a number
  out of range, or where a key spells no text. -/
  flawed : ∀ v document, Document v document → kind.schema.Flawed v →
    ∃ fault, shape.parse document = .error fault
  /-- Neither the order of the members nor unknown ones make a difference. -/
  unmoved : ∀ v v' document document', Document v document → Document v' document' →
    kind.schema.Change v v' → (shape.parse document).toOption = (shape.parse document').toOption

theorem readsPartially (h : shape.codec.Follows kind) : shape.ReadsPartially kind where
  accepts _ _ hdocument hfits := parse_of_fits h hdocument hfits
  refuses _ _ hdocument hfits := parse_of_not_fits h hdocument hfits
  flawed _ _ hdocument hflawed := parse_of_not_fits h hdocument hflawed.not_fits
  unmoved v v' document document' hdocument hdocument' hchange := by
    by_cases hfits : kind.schema.Fits v
    · rw [parse_of_fits h hdocument hfits,
        parse_of_fits h hdocument' (hchange.fits_iff.mp hfits), h.steady hchange hfits]
    · obtain ⟨fault, hfault⟩ := parse_of_not_fits h hdocument hfits
      obtain ⟨fault', hfault'⟩ := parse_of_not_fits h hdocument' (hchange.fits_iff.not.mp hfits)
      rw [hfault, hfault']
      rfl

end Shape

end IdMint.Json

namespace IdMint

open Json

/-! ## Settings -/

/-- The fields of local settings. -/
def LocalSettings.slots : List (Slot LocalSettings) :=
  [slot "datacenterId" .uint64 datacenter fun v s => { s with datacenter := v },
    slot "machineId" .uint64 machine fun v s => { s with machine := v }]

/-- The fields of counter settings. -/
def CounterSettings.slots : List (Slot CounterSettings) :=
  [slot "prefix" .text scope fun v s => { s with scope := v },
    slot "length" .uint64 length fun v s => { s with length := v },
    slot "step" .uint64 step fun v s => { s with step := v }]

/-- The fields of the parameters of exponential backoff. -/
def BackoffSettings.slots : List (Slot BackoffSettings) :=
  [slot "baseSleepTimeMs" .uint64 baseSleepMs fun v s => { s with baseSleepMs := v },
    slot "maxRetries" .uint32 maxRetries fun v s => { s with maxRetries := v }]

/-- The fields of the parameters of bounded exponential backoff. -/
def BoundedBackoffSettings.slots : List (Slot BoundedBackoffSettings) :=
  [slot "baseSleepTimeMs" .uint64 baseSleepMs fun v s => { s with baseSleepMs := v },
    slot "maxSleepTimeMs" .uint64 maxSleepMs fun v s => { s with maxSleepMs := v },
    slot "maxRetries" .uint32 maxRetries fun v s => { s with maxRetries := v }]

/-- The fields of the parameters of counted retries. -/
def NTimesSettings.slots : List (Slot NTimesSettings) :=
  [slot "count" .uint32 count fun v s => { s with count := v },
    slot "sleepMsBetweenRetries" .uint64 sleepMs fun v s => { s with sleepMs := v }]

/-- The field of the parameters of endless retries. -/
def ForeverSettings.slots : List (Slot ForeverSettings) :=
  [slot "retryIntervalMs" .uint64 intervalMs fun v s => { s with intervalMs := v }]

/-- The fields of the parameters of retries within a time span. -/
def UntilElapsedSettings.slots : List (Slot UntilElapsedSettings) :=
  [slot "maxElapsedTimeMs" .uint64 maxElapsedMs fun v s => { s with maxElapsedMs := v },
    slot "sleepMsBetweenRetries" .uint64 sleepMs fun v s => { s with sleepMs := v }]

/-- The fields of retry settings. -/
def RetrySettings.slots : List (Slot RetrySettings) :=
  [slot "retryType" .text tag fun v s => { s with tag := v },
    slot "exponentialBackoffRetry" (.record .standard BackoffSettings.slots) exponentialBackoff
      fun v s => { s with exponentialBackoff := v },
    slot "boundedExponentialBackoffRetry" (.record .standard BoundedBackoffSettings.slots)
      boundedExponentialBackoff fun v s => { s with boundedExponentialBackoff := v },
    slot "retryNTimes" (.record .standard NTimesSettings.slots) nTimes
      fun v s => { s with nTimes := v },
    slot "retryForever" (.record .standard ForeverSettings.slots) forever
      fun v s => { s with forever := v },
    slot "retryUntilElapsed" (.record .standard UntilElapsedSettings.slots) untilElapsed
      fun v s => { s with untilElapsed := v }]

/-- The fields of coordination settings. -/
def CoordinationSettings.slots : List (Slot CoordinationSettings) :=
  [slot "prefix" .text rootName fun v s => { s with rootName := v },
    slot "connectString" .text connectString fun v s => { s with connectString := v },
    slot "sessionTimeoutMs" .uint64 sessionTimeoutMs fun v s => { s with sessionTimeoutMs := v },
    slot "connectionTimeoutMs" .uint64 connectionTimeoutMs
      fun v s => { s with connectionTimeoutMs := v },
    slot "retry" (.record .standard RetrySettings.slots) retry fun v s => { s with retry := v }]

theorem LocalSettings.follows_shape : shape.Follows slots where
  separate := ⟨by decide, by simp [slots, slot], by simp [slots, slot]⟩
  partly := rfl
  fields := .cons (follows_field Codec.follows_uint64 _ _ _) <|
    .cons (follows_field Codec.follows_uint64 _ _ _) .nil

theorem CounterSettings.follows_shape : shape.Follows slots where
  separate := ⟨by decide, by simp [slots, slot], by simp [slots, slot]⟩
  partly := rfl
  fields := .cons (follows_field Codec.follows_text _ _ _) <|
    .cons (follows_field Codec.follows_uint64 _ _ _) <|
    .cons (follows_field Codec.follows_uint64 _ _ _) .nil

theorem BackoffSettings.follows_shape : shape.Follows slots where
  separate := ⟨by decide, by simp [slots, slot], by simp [slots, slot]⟩
  partly := rfl
  fields := .cons (follows_field Codec.follows_uint64 _ _ _) <|
    .cons (follows_field Codec.follows_uint32 _ _ _) .nil

theorem BoundedBackoffSettings.follows_shape : shape.Follows slots where
  separate := ⟨by decide, by simp [slots, slot], by simp [slots, slot]⟩
  partly := rfl
  fields := .cons (follows_field Codec.follows_uint64 _ _ _) <|
    .cons (follows_field Codec.follows_uint64 _ _ _) <|
    .cons (follows_field Codec.follows_uint32 _ _ _) .nil

theorem NTimesSettings.follows_shape : shape.Follows slots where
  separate := ⟨by decide, by simp [slots, slot], by simp [slots, slot]⟩
  partly := rfl
  fields := .cons (follows_field Codec.follows_uint32 _ _ _) <|
    .cons (follows_field Codec.follows_uint64 _ _ _) .nil

theorem ForeverSettings.follows_shape : shape.Follows slots where
  separate := ⟨by decide, by simp [slots, slot], by simp [slots, slot]⟩
  partly := rfl
  fields := .cons (follows_field Codec.follows_uint64 _ _ _) .nil

theorem UntilElapsedSettings.follows_shape : shape.Follows slots where
  separate := ⟨by decide, by simp [slots, slot], by simp [slots, slot]⟩
  partly := rfl
  fields := .cons (follows_field Codec.follows_uint64 _ _ _) <|
    .cons (follows_field Codec.follows_uint64 _ _ _) .nil

theorem RetrySettings.follows_shape : shape.Follows slots where
  separate := ⟨by decide, by simp [slots, slot], by simp [slots, slot]⟩
  partly := rfl
  fields := .cons (follows_field Codec.follows_text _ _ _) <|
    .cons (follows_field BackoffSettings.follows_shape.codec _ _ _) <|
    .cons (follows_field BoundedBackoffSettings.follows_shape.codec _ _ _) <|
    .cons (follows_field NTimesSettings.follows_shape.codec _ _ _) <|
    .cons (follows_field ForeverSettings.follows_shape.codec _ _ _) <|
    .cons (follows_field UntilElapsedSettings.follows_shape.codec _ _ _) .nil

theorem CoordinationSettings.follows_shape : shape.Follows slots where
  separate := ⟨by decide, by simp [slots, slot], by simp [slots, slot]⟩
  partly := rfl
  fields := .cons (follows_field Codec.follows_text _ _ _) <|
    .cons (follows_field Codec.follows_text _ _ _) <|
    .cons (follows_field Codec.follows_uint64 _ _ _) <|
    .cons (follows_field Codec.follows_uint64 _ _ _) <|
    .cons (follows_field RetrySettings.follows_shape.codec _ _ _) .nil

/-- **Partial documents.** Whichever fields a document of settings gives, in whichever order and among
whichever others, they stand in the place of their standard values, and all else is standard. -/
theorem partial_documents_read :
    LocalSettings.shape.ReadsPartially (.record .standard LocalSettings.slots)
      ∧ CounterSettings.shape.ReadsPartially (.record .standard CounterSettings.slots)
      ∧ RetrySettings.shape.ReadsPartially (.record .standard RetrySettings.slots)
      ∧ CoordinationSettings.shape.ReadsPartially (.record .standard CoordinationSettings.slots) :=
  ⟨Shape.readsPartially LocalSettings.follows_shape.codec,
    Shape.readsPartially CounterSettings.follows_shape.codec,
    Shape.readsPartially RetrySettings.follows_shape.codec,
    Shape.readsPartially CoordinationSettings.follows_shape.codec⟩

example (members : List (Option String × Value)) :
    (Kind.record .standard CoordinationSettings.slots).value (.object members)
      = { rootName := ((members.lookup (some "prefix")).map Kind.text.value).getD "idforge"
          connectString := ((members.lookup (some "connectString")).map Kind.text.value).getD ""
          sessionTimeoutMs :=
            ((members.lookup (some "sessionTimeoutMs")).map Kind.uint64.value).getD 15000
          connectionTimeoutMs :=
            ((members.lookup (some "connectionTimeoutMs")).map Kind.uint64.value).getD 15000
          retry := ((members.lookup (some "retry")).map
            (Kind.record .standard RetrySettings.slots).value).getD .standard } := rfl

/-! ### A nested document -/

/-- Coordination settings that give a name and a number of retries, among unknown members. What is unknown
may hold strings and keys that spell no text. -/
def nestedValue : Value :=
  .object [(some "x", .array [.text none, .object [(none, .fractional)]]),
    (some "retry", .object
      [(some "z", .text (some "\u2713")), (some "retryNTimes", .object [(some "count", .integer false 3)])]),
    (some "prefix", .text (some "p"))]

/-- A document that consists of them. -/
def nestedDocument : String :=
  "\x7b \"x\" : [ \"\\uDC00\",\x7b\"\\ud800\":-1.5e3\x7d ],\"retry\":\x7b\"z\":\"\\u2713\"," ++
    "\"retryNTimes\":\x7b\"count\":3\x7d\x7d,\n\"prefix\":\"p\"\x7d"

/-- A first half with nothing behind it spells no text. -/
theorem spells_first_half :
    SpellsChars ['\\', 'u', 'd', '8', '0', '0'] ((none : Option String).map String.toList) :=
  have unit : hex4? 'd' '8' '0' '0' = some 0xD800 := rfl
  .alone unit (.inr ⟨by decide, nofun⟩) .nil

theorem spells_text_self {s : String}
    (h : s.toList.all (fun c => c ≠ '"' ∧ c ≠ '\\' ∧ 0x20 ≤ c.toNat) = true) :
    SpellsChars s.toList ((some s).map String.toList) :=
  .self fun c hc => of_decide_eq_true (List.all_eq_true.mp h c hc)

theorem document_nested : Document nestedValue nestedDocument := by
  have blank : Blank [' '] := by simp [Blank, isSpace]
  have newline : Blank ['\n'] := by simp [Blank, isSpace]
  have digit {c : Char} (h : c.isDigit = true) : Decimal.Digits [c] := ⟨by simp, by simpa using h⟩
  have exponent := IsExponent.mk (show isExponentMark 'e' = true from rfl) (.inl rfl)
    (digit (c := '3') rfl)
  have half : hex4? 'D' 'C' '0' '0' = some 0xDC00 := rfl
  have mark : SpellsChars ['\\', 'u', '2', '7', '1', '3'] ((some []).map ('\u2713' :: ·)) :=
    .unit rfl (by decide) (by decide) .nil
  have y := Member.mk spells_first_half blank_nil blank_nil
    (Spells.fractional true 1 (.both (digit (c := '5') rfl) exponent))
  have x := Member.mk (spells_text_self (s := "x") rfl) blank blank
    (Spells.array (.some blank (Spells.text (s := none) (.alone half (.inl (by decide)) .nil)) (.more blank_nil blank_nil
      (Spells.object (.some blank_nil y (.last blank_nil))) (.last blank))))
  have count := Member.mk (spells_text_self (s := "count") rfl) blank_nil blank_nil
    (Spells.integer false 3)
  have nTimes := Member.mk (spells_text_self (s := "retryNTimes") rfl) blank_nil blank_nil
    (Spells.object (.some blank_nil count (.last blank_nil)))
  have z := Member.mk (spells_text_self (s := "z") rfl) blank_nil blank_nil
    (Spells.text (s := some "\u2713") mark)
  have retry := Member.mk (spells_text_self (s := "retry") rfl) blank_nil blank_nil
    (Spells.object (.some blank_nil z (.more blank_nil blank_nil nTimes (.last blank_nil))))
  have root := Member.mk (spells_text_self (s := "prefix") rfl) blank_nil blank_nil
    (Spells.text (spells_text_self (s := "p") rfl))
  exact ⟨[], _, [], blank_nil, Spells.object (.some blank x (.more blank_nil blank_nil retry
    (.more blank_nil newline root (.last blank_nil)))), blank_nil, rfl⟩

/-- The nested document is read. -/
theorem partial_documents_read_nested :
    CoordinationSettings.shape.parse nestedDocument = .ok { CoordinationSettings.standard with
      rootName := "p", retry := { RetrySettings.standard with nTimes := ⟨3, 2000⟩ } } := by
  have hnTimes : (Kind.record .standard NTimesSettings.slots).schema.Fits
      (.object [(some "count", .integer false 3)]) := by
    refine .object (by decide) (by decide) (List.forall_mem_cons.mpr ⟨?_, nofun⟩)
    rintro _ ⟨⟩ _ ⟨⟩
    exact .natural (by decide)
  have hretry : (Kind.record .standard RetrySettings.slots).schema.Fits (.object
      [(some "z", .text (some "\u2713")),
        (some "retryNTimes", .object [(some "count", .integer false 3)])]) := by
    refine .object (by simp) (by decide) (List.forall_mem_cons.mpr ⟨?_,
      List.forall_mem_cons.mpr ⟨?_, nofun⟩⟩)
    · rintro _ ⟨⟩ _ ⟨⟩
    · rintro _ ⟨⟩ _ ⟨⟩
      exact hnTimes
  have hfits : (Kind.record .standard CoordinationSettings.slots).schema.Fits nestedValue := by
    refine .object (by simp) (by decide) (List.forall_mem_cons.mpr ⟨?_, List.forall_mem_cons.mpr
      ⟨?_, List.forall_mem_cons.mpr ⟨?_, nofun⟩⟩⟩)
    · rintro _ ⟨⟩ _ ⟨⟩
    · rintro _ ⟨⟩ _ ⟨⟩
      exact hretry
    · rintro _ ⟨⟩ _ ⟨⟩
      exact .text "p"
  exact partial_documents_read.2.2.2.accepts nestedValue nestedDocument document_nested hfits

/-! ### A key that spells no text -/

/-- A document without any known key is refused for a key that spells no text. -/
theorem unspelled_key_refused :
    Document (.object [(none, .integer false 1)]) "\x7b\"\\ud800\":1\x7d"
      ∧ LocalSettings.shape.parse "\x7b\"\\ud800\":1\x7d" = .error .malformed := by
  have member := Member.mk spells_first_half blank_nil blank_nil
    (Spells.integer false 1)
  exact ⟨⟨[], _, [], blank_nil, Spells.object (.some blank_nil member (.last blank_nil)), blank_nil,
    rfl⟩, rfl⟩

end IdMint
