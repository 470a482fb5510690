import IdMint.CommandLine.Options

/-! # Arguments

Reading the arguments of the command line. An option begins with two dashes, or with one where it is
a single letter; its value follows an equals sign or is the next argument, unless that one begins with
a dash. The value is read when the next option appears or the arguments end. Options that the
arguments do not give are looked up in the environment. -/

namespace IdMint.CommandLine

/-- An argument by its looks. -/
inductive Argument
  /-- Two dashes alone. -/
  | separator
  /-- Two dashes, a name, and what follows an equals sign. -/
  | long (written : String) (value : Option String)
  /-- One dash, a letter, and the characters behind it. -/
  | letters (first : Char) (others : List Char)
  /-- Any other argument. -/
  | plain
  deriving DecidableEq

/-- The characters in front of the first equals sign, and those behind it. -/
def splitEquals (cs : List Char) : String × Option String :=
  match cs.dropWhile (· ≠ '=') with
  | [] => (String.ofList cs, none)
  | _ :: value => (String.ofList (cs.takeWhile (· ≠ '=')), some (String.ofList value))

/-- The looks of an argument. -/
def Argument.of (text : String) : Argument :=
  match text.toList with
  | ['-', '-'] => separator
  | '-' :: '-' :: cs => long (splitEquals cs).1 (splitEquals cs).2
  | '-' :: c :: cs => letters c cs
  | _ => plain

/-- What a name on the command line means. -/
inductive Keyword
  | option (which : OptionName)
  | help
  | version
  deriving DecidableEq

/-- The meaning of a name behind two dashes. -/
def Keyword.ofLong? (written : String) : Option Keyword :=
  if written = "help" then some help
  else if written = "version" then some version
  else (OptionName.ofLong? written).map option

/-- The meaning of a letter behind one dash. -/
def Keyword.ofLetter? (c : Char) : Option Keyword :=
  if c = 'n' then some (option .count)
  else if c = 'h' then some help
  else if c = 'V' then some version
  else none

/-- What ends the reading of the command line early. -/
inductive Halt
  /-- Something is wrong with it. -/
  | misuse (fault : Misuse)
  /-- Help is asked for, in its long form or in its short one. -/
  | helpWanted (long : Bool)
  /-- The version is asked for. -/
  | versionWanted
  deriving DecidableEq, Inhabited, Repr

/-- How far the reading of the arguments has come. -/
structure Scan where
  /-- The options that have been given. -/
  given : List OptionName
  /-- The values of all options so far. -/
  options : Options
  /-- An option that has not been read yet, with its value once there is one. -/
  pending : Option (OptionName × Option String)

namespace Scan

/-- The scan before the first argument. -/
def start : Scan := ⟨[], .standard, none⟩

/-- Sets an option that may be given only once. -/
def record (scan : Scan) (option : OptionName) (text : String) : Except Halt Scan :=
  if option ∈ scan.given then .error (.misuse .repeatedOption)
  else match scan.options.assign option text with
    | .ok options => .ok { scan with given := option :: scan.given, options }
    | .error fault => .error (.misuse fault)

/-- Reads the pending option, if there is one. -/
def settle (scan : Scan) : Except Halt Scan :=
  match scan.pending with
  | none => .ok scan
  | some (_, none) => .error (.misuse .invalidValue)
  | some (option, some text) => { scan with pending := none }.record option text

/-- An option with the value attached to it, if there is one. -/
def giveOption (scan : Scan) (option : OptionName) (value : Option String) : Except Halt Scan := do
  let scan ← scan.settle
  match value with
  | some text => scan.record option text
  | none =>
    if option.isSwitch then scan.record option "true"
    else return { scan with pending := some (option, none) }

/-- Help or the version: once what is pending has been read, they end the scan. -/
def halt (scan : Scan) (reason : Halt) : Except Halt Scan := do
  let _ ← scan.settle
  throw reason

/-- A name behind two dashes. An unknown name, and a value for what takes none, count more than
whatever is pending. -/
def giveLong (scan : Scan) (written : String) (value : Option String) : Except Halt Scan :=
  match Keyword.ofLong? written with
  | none => .error (.misuse .unknownArgument)
  | some (.option option) =>
    if option.isSwitch && value.isSome then .error (.misuse .unexpectedValue)
    else scan.giveOption option value
  | some .help =>
    if value.isSome then .error (.misuse .unexpectedValue) else scan.halt (.helpWanted true)
  | some .version =>
    if value.isSome then .error (.misuse .unexpectedValue) else scan.halt .versionWanted

/-- What follows an option's letter: a value, which an equals sign may set off. -/
def attachedValue : List Char → Option String
  | [] => none
  | '=' :: cs => some (String.ofList cs)
  | cs => some (String.ofList cs)

/-- A letter behind one dash, and the characters behind it. -/
def giveLetter (scan : Scan) (c : Char) (cs : List Char) : Except Halt Scan :=
  match Keyword.ofLetter? c with
  | none => .error (.misuse .unknownArgument)
  | some (.option option) => scan.giveOption option (attachedValue cs)
  | some .help => scan.halt (.helpWanted false)
  | some .version => scan.halt .versionWanted

/-- An argument that looks like no option: the value of the pending option, if that lacks one. -/
def givePlain (scan : Scan) (text : String) : Except Halt Scan :=
  match scan.pending with
  | some (option, none) => .ok { scan with pending := some (option, some text) }
  | _ => .error (.misuse .unknownArgument)

/-- Reads the arguments. Nothing may follow two dashes alone. -/
def arguments (scan : Scan) : List String → Except Halt Scan
  | [] => scan.settle
  | text :: rest =>
    match Argument.of text with
    | .separator => if rest.isEmpty then scan.settle else .error (.misuse .unknownArgument)
    | .long written value => do (← scan.giveLong written value).arguments rest
    | .letters first others => do (← scan.giveLetter first others).arguments rest
    | .plain => do (← scan.givePlain text).arguments rest

/-- Looks an option up in the environment, unless it has been given. -/
def fill (environment : String → Option String) (scan : Scan) (option : OptionName) :
    Except Halt Scan :=
  if option ∈ scan.given || !option.fromEnvironment then .ok scan
  else match environment option.environmentName with
    | none => .ok scan
    | some text => scan.record option text

end Scan

/-- Reads the arguments and the environment. -/
def Options.read (arguments : List String) (environment : String → Option String) :
    Except Halt Options := do
  let scan ← Scan.start.arguments arguments
  let scan ← OptionName.all.foldlM (Scan.fill environment) scan
  return scan.options

example : (Options.read ["-n5"] fun _ => none).map Options.count = .ok 5 := by cbv
example : Options.read ["-n", "x", "--help"] (fun _ => none) = .error (.misuse .unreadableNumber) := by
  cbv
example : Options.read ["-n", "x", "y"] (fun _ => none) = .error (.misuse .unknownArgument) := by cbv
example : Options.read ["-n", "1", "--count=x"] (fun _ => none) = .error (.misuse .repeatedOption) := by
  cbv

end IdMint.CommandLine
