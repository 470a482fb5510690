import IdMint.CommandLine.Options
import IdMint.Text.Lines
import IdMint.Text.Plain

/-! # Help

The texts that explain the command line: a short form, a long form with more words about each option,
the version, and what is said when the command line is misused. -/

namespace IdMint.CommandLine

/-- The name of the program and its version. -/
def versionLine : String := "idforge 0.3.0"

/-- How the program is called. -/
def usageLine : String := "Usage: idforge [OPTIONS]"

/-- What is said about a misuse. -/
def Misuse.message : Misuse → String
  | unknownArgument => "unexpected argument found"
  | invalidValue => "invalid value or missing value for an option"
  | unreadableNumber => "invalid number for an option"
  | repeatedOption => "an option cannot be used multiple times"
  | unexpectedValue => "unexpected value for an option that takes none"

/-- The text on the standard error after a misuse. -/
def usageText (fault : Misuse) : String :=
  "error: " ++ fault.message ++ "\n\n" ++ usageLine
    ++ "\n\nFor more information, try '--help'."

namespace Strategy

/-- What a strategy does. -/
def help : Strategy → String
  | localIds => "Snowflake IDs generated in-process"
  | counter => "Timestamp plus a shared counter"
  | sequence => "Node versions in the coordination service"

end Strategy

namespace OptionName

/-- What an option is for, in short. -/
def help : OptionName → String
  | strategy => "Generator to use"
  | count => "Number of IDs to print, in `[1, 1000]`"
  | datacenter => "Datacenter ID for local IDs, in `[0, 31]`"
  | machine => "Machine ID for local IDs, in `[0, 31]`"
  | decode => "Print the fields packed into each local ID next to it"
  | scope => "Namespace for counter keys and the root sequence node"
  | name => "Business name part of the counter or sequence key"
  | key => "Key part of the counter or sequence key"
  | step => "Counter increment per ID"
  | length => "Width of the counter suffix"
  | connectString => "Coordination ensemble, as a comma-separated `host:port` list"
  | retryType => "Retry strategy for coordination operations"
  | retryBaseSleep => "Base sleep of both exponential backoff strategies"
  | retryMaxRetries => "Retry limit of both exponential backoff strategies, capped at 29"
  | retryMaxSleep => "Longest single sleep of `boundedExponentialBackoffRetry`"
  | retryCount => "Retry limit of `retryNTimes`"
  | retrySleepBetween => "Sleep between attempts for `retryNTimes` and `retryUntilElapsed`"
  | retryInterval => "Sleep between attempts for `retryForever`"
  | retryMaxElapsed => "Total retry window of `retryUntilElapsed`"
  | sessionTimeout | connectionTimeout => ""
  | startTimeout =>
    "Give up on starting the coordination session after this long. Zero waits indefinitely"
  | inProcess =>
    "Run the counter and sequence strategies against the in-process backends. Their state lives "
      ++ "only as long as the process, so IDs repeat across runs"

/-- The sentence that names the environment variable of an option. -/
def environmentHelp (option : OptionName) : String :=
  "Environment variable: `" ++ option.environmentName ++ "`"

/-- The short help on an option. Two options are explained by nothing but their variable. -/
def shortHelp (option : OptionName) : String :=
  if option.help.isEmpty then option.environmentHelp else option.help

/-- The paragraphs of the long help on an option. -/
def longHelp (option : OptionName) : List String :=
  if option.help.isEmpty then [option.environmentHelp]
  else if option.fromEnvironment then [option.help ++ ".", option.environmentHelp]
  else [option.help]

/-- The value that an option has when nobody sets it, as far as help shows one. -/
def shownDefault? : OptionName → Option String
  | strategy => some Options.standard.strategy.tag
  | count => some (toString Options.standard.count)
  | datacenter => some (toString Options.standard.datacenter)
  | machine => some (toString Options.standard.machine)
  | scope => some Options.standard.scope
  | name => some Options.standard.name
  | key => some Options.standard.key
  | step => some (toString Options.standard.step)
  | length => some (toString Options.standard.length)
  | connectString => some Options.standard.connectString
  | retryType => some Options.standard.retryType
  | sessionTimeout => some (toString Options.standard.sessionTimeoutMs)
  | connectionTimeout => some (toString Options.standard.connectionTimeoutMs)
  | startTimeout => some (toString Options.standard.startTimeoutMs)
  | decode | retryBaseSleep | retryMaxRetries | retryMaxSleep | retryCount | retrySleepBetween
  | retryInterval | retryMaxElapsed | inProcess => none

/-- The line that shows how an option is written. -/
def heading (option : OptionName) : String :=
  (if option = count then "  " ++ Text.bold "-n" ++ ", " else "      ")
    ++ Text.bold ("--" ++ option.long)
    ++ if option.isSwitch then "" else " <" ++ capitals option.long ++ ">"

/-- The environment variable with its present value. -/
def environmentNote (environment : String → Option String) (option : OptionName) : List String :=
  if option.fromEnvironment then
    ["[env: " ++ option.environmentName ++ "=" ++ (environment option.environmentName).getD "" ++ "]"]
  else []

/-- The value that an option has when nobody sets it, as a note. -/
def defaultNote (option : OptionName) : List String :=
  match option.shownDefault? with
  | none => []
  | some value => ["[default: " ++ value ++ "]"]

/-- The permitted values of an option that has only a few, as a note. -/
def valuesNote (option : OptionName) : List String :=
  if option = strategy then
    ["[possible values: " ++ String.intercalate ", " (Strategy.all.map Strategy.tag) ++ "]"]
  else []

/-- The margin in front of everything that is said about an option. -/
def margin : String := "          "

/-- The lines of the short help on an option, with its notes. -/
def shortLines (environment : String → Option String) (option : OptionName) : List String :=
  let notes := option.environmentNote environment ++ option.defaultNote ++ option.valuesNote
  option.heading :: Text.setIn margin (String.intercalate " " (option.shortHelp :: notes))

/-- A strategy with what it does, its name filled up to the longest one. -/
def strategyLine (s : Strategy) : String :=
  let longest := (Strategy.all.map fun t => t.tag.length).foldl max 0
  "- " ++ Text.bold s.tag ++ ":" ++ String.ofList (List.replicate (longest - s.tag.length + 1) ' ') ++ s.help

/-- The permitted values of an option that has only a few, with what they stand for. -/
def valuesLines (option : OptionName) : List String :=
  if option = strategy then
    "" :: ("Possible values:" :: Strategy.all.map strategyLine).flatMap (Text.setIn margin)
  else []

/-- The lines of the long help on an option: its paragraphs, the permitted values, and its notes. -/
def longLines (environment : String → Option String) (option : OptionName) : List String :=
  let notes := option.environmentNote environment ++ option.defaultNote
  option.heading :: (option.longHelp.intersperse "").flatMap (Text.setIn margin)
    ++ option.valuesLines
    ++ (if notes.isEmpty then [] else "" :: notes).flatMap (Text.setIn margin)

end OptionName

/-- The line that shows how the option for help or the one for the version is written. -/
def commonHeading (short long : String) : String :=
  "  " ++ Text.bold ("-" ++ short) ++ ", " ++ Text.bold ("--" ++ long)

/-- The lines of the short help. -/
def shortHelpLines (environment : String → Option String) : List String :=
  ["Generate unique IDs", "", usageLine, "", "Options:"]
    ++ OptionName.all.flatMap (OptionName.shortLines environment)
    ++ [commonHeading "h" "help", "          Print help (see more with '--help')",
      commonHeading "V" "version", "          Print version"]

/-- The lines of the long help. -/
def longHelpLines (environment : String → Option String) : List String :=
  ["Command line options for the `idforge` binary.", "",
    "Every option can also be set through the environment (or a `.env` file in the working "
      ++ "directory); command line flags win.", "", usageLine, "", "Options:"]
    ++ OptionName.all.flatMap (fun option => option.longLines environment ++ [""])
    ++ [commonHeading "h" "help", "          Print help (see a summary with '-h')", "",
      commonHeading "V" "version", "          Print version"]

/-- The lines of the help in one of its forms. What a terminal would show in bold type is written in
plain type, and values from the environment lose their control sequences; one that is left open in a
value takes with it what comes in front of the next bold text. -/
def helpLines (environment : String → Option String) (long : Bool) : List String :=
  let shown := if long then longHelpLines environment else shortHelpLines environment
  Text.lines (Text.plain (String.intercalate "\n" shown))

end IdMint.CommandLine
