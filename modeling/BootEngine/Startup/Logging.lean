import BootEngine.Failure
import BootEngine.Text.Blank
import BootEngine.Text.Digits

/-!
# Logging

How an application writes its log: what it lets through, in which form, and with which particulars.

Contents:
* `LogOutput`, `LoggingConfig`: the choices, with presets for development and for production.
* `FilterFault`, `filterFault?`: the fault of a filter.
* `LoggingConfig.install`: puts a configuration into force, which only one can be.
-/

namespace BootEngine.Startup

/-- The form of log lines. -/
inductive LogOutput where
  | text
  | json
  deriving DecidableEq, Repr, Inhabited

/-- The name of a form. -/
def LogOutput.name : LogOutput → String
  | text => "Text"
  | json => "Json"

/-- How an application writes its log. -/
structure LoggingConfig where
  filter : String
  output : LogOutput
  phaseTimings : Bool
  sourceLocation : Bool
  deriving DecidableEq, Repr, Inhabited

/-- The names of levels, the least talkative first. -/
def levelNames : List String := ["off", "error", "warn", "info", "debug", "trace"]

/-- What is wrong with a filter. -/
inductive FilterFault where
  /-- A level has a name that is none. -/
  | level
  /-- A directive is not put together as it should be. -/
  | form
  deriving DecidableEq, Repr, Inhabited

/-- The wording of a fault. -/
def FilterFault.message : FilterFault → String
  | level => "error parsing level filter: expected one of \"off\", \"error\", \"warn\", " ++
      "\"info\", \"debug\", \"trace\", or a number 0-5"
  | form => "invalid filter directive"

/-- A text names a level: a name in letters of any case, a number up to five, or nothing at all. -/
def isLevel (cs : List Char) : Bool :=
  let digits := if cs.head? == some '+' then cs.drop 1 else cs
  cs.isEmpty || levelNames.any (fun name => name.toList == cs.map Char.toLower) ||
    (!digits.isEmpty && digits.all Char.isDigit && Text.decimal digits ≤ 5)

/-- The pieces of a text between commas. Those within braces divide nothing. -/
def pieces (inBraces : Bool) : List Char → List (List Char)
  | [] => [[]]
  | c :: rest =>
    if c == ',' && !inBraces then [] :: pieces inBraces rest
    else
      match pieces (c != '\x7d' && (inBraces || c == '\x7b')) rest with
      | [] => [[c]]
      | first :: others => (c :: first) :: others

/-- The fault of a level. -/
def levelFault? (cs : List Char) : Option FilterFault :=
  if isLevel cs then none else some .level

/-- The fault of what follows a span: nothing, or a level after an equals sign. -/
def afterSpan? : List Char → Option FilterFault
  | [] => none
  | '=' :: level => levelFault? level
  | _ => some .form

/-- The fault of a span after its opening bracket: a name, and fields in braces if there are any,
    with commas between them. -/
def spanFault? (cs : List Char) : Option FilterFault :=
  match cs.dropWhile fun c => c != ']' && c != '\x7b' with
  | ']' :: rest => afterSpan? rest
  | '\x7b' :: rest =>
    let fields := pieces false (rest.takeWhile (· != '\x7d'))
    match rest.dropWhile (· != '\x7d') with
    | '\x7d' :: ']' :: rest => if fields.any (·.isEmpty) then some .form else afterSpan? rest
    | _ => some .form
  | _ => some .form

/-- A target begins with this character: a letter or a digit, of which ASCII has a few only, or one
    of three signs. -/
def opensTarget (c : Char) : Bool :=
  c.isAlphanum || c.toNat ≥ 128 || c == '-' || c == ':' || c == '_'

/-- The fault of a directive: a level alone, or a target, a span or both, with a level after an
    equals sign if there is one. -/
def directiveFault? (directive : List Char) : Option FilterFault :=
  match directive with
  | [] => some .form
  | '[' :: rest => spanFault? rest
  | c :: _ =>
    if !opensTarget c then some .form
    else
      match directive.dropWhile fun c => c != '=' && c != '[' with
      | '=' :: level => levelFault? level
      | '[' :: rest => spanFault? rest
      | _ => none

/-- The text without the white space at its ends. -/
def trimmed (cs : List Char) : List Char :=
  ((cs.dropWhile Text.isBlankChar).reverse.dropWhile Text.isBlankChar).reverse

/-- The fault of a filter, if it has one. Empty directives do not count. -/
def filterFault? (filter : String) : Option FilterFault :=
  ((pieces false filter.toList).filter (!·.isEmpty)).findSome? fun directive =>
    directiveFault? (trimmed directive)

namespace LoggingConfig

/-- Plain text from the level of information on. -/
def standard : LoggingConfig := ⟨"info", .text, false, false⟩

/-- Everything that helps to find a fault. -/
def development : LoggingConfig := ⟨"debug", .text, true, true⟩

/-- Lines for other programs, with the time that each phase takes. -/
def production : LoggingConfig := ⟨"info", .json, true, false⟩

/-- The configuration with another filter. -/
def withFilter (filter : String) (c : LoggingConfig) : LoggingConfig := { c with filter }

/-- The configuration with another form. -/
def withOutput (output : LogOutput) (c : LoggingConfig) : LoggingConfig := { c with output }

/-- The description of a configuration. -/
def describe (c : LoggingConfig) : String :=
  Text.record "LoggingConfig"
    [("filter", Text.quote c.filter), ("output", c.output.name),
      ("phase_timings", Text.flag c.phaseTimings),
      ("source_location", Text.flag c.sourceLocation)]

/-- Puts a configuration into force (`LoggingConfig.init`). A faulty filter is reported first; only
    one configuration can be in force at a time. -/
def install (inForce : Bool) (c : LoggingConfig) : Except StartupError Unit :=
  match filterFault? c.filter with
  | some fault =>
    .error (.loggingFailed ("无效的日志过滤指令 `" ++ c.filter ++ "`: " ++ fault.message))
  | none =>
    if inForce then .error (.loggingFailed "a global default trace dispatcher has already been set")
    else .ok ()

end LoggingConfig

end BootEngine.Startup
