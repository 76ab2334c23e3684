import CampusRules.Server.Address

/-!
# Settings of the server

The server is set up by four named settings, each of which has a default. They are
looked at in a fixed order, and the first that cannot be understood is reported.
-/

namespace CampusRules

/-- How a server is set up. -/
structure Settings where
  dataFolder : String
  tickSeconds : UInt64
  address : SocketAddress
  defaultRules : Bool
  deriving DecidableEq

/-- A setting that could not be understood. -/
inductive SettingsError where
  | tickSeconds (text : String)
  | address
  | defaultRules (text : String)
  deriving DecidableEq, Repr

/-- The text of a settings error. -/
def SettingsError.message : SettingsError → String
  | tickSeconds text => "AUTOMATION_TICK_SECS is not a number: " ++ text
  | address => "AUTOMATION_BIND is not a socket address"
  | defaultRules text => "AUTOMATION_DEFAULT_RULES must be a boolean, got " ++ text

namespace Settings

/-- A whole number below `2 ^ 64`, with an optional plus sign. -/
def word? (text : List Char) : Option UInt64 :=
  let digits := match text with
    | '+' :: rest => rest
    | other => other
  if digits ≠ [] ∧ digits.all isDigit ∧ numeral digits < UInt64.size then
    some (UInt64.ofNat (numeral digits))
  else none

/-- A truth value in words or as a digit. -/
def truth? (text : String) : Option Bool :=
  if text ∈ ["1", "true", "yes"] then some true
  else if text ∈ ["0", "false", "no"] then some false
  else none

/-- The seconds between two ticks: at least one, and sixty by default. -/
def readTickSeconds : Option String → Except SettingsError UInt64
  | none => .ok 60
  | some text =>
    match word? text.toList with
    | some seconds => .ok (max seconds 1)
    | none => .error (.tickSeconds text)

/-- The address to listen on. -/
def readAddress (text : Option String) : Except SettingsError SocketAddress :=
  match SocketAddress.parse? (text.getD "0.0.0.0:3000") with
  | some address => .ok address
  | none => .error .address

/-- Whether the default rules are installed; they are unless it says otherwise. -/
def readDefaultRules : Option String → Except SettingsError Bool
  | none => .ok true
  | some text =>
    match truth? text with
    | some install => .ok install
    | none => .error (.defaultRules text)

/-- Reads the settings out of named values. -/
def read (lookup : String → Option String) : Except SettingsError Settings := do
  let dataFolder := (lookup "AUTOMATION_DATA_DIR").getD "data"
  let tickSeconds ← readTickSeconds (lookup "AUTOMATION_TICK_SECS")
  let address ← readAddress (lookup "AUTOMATION_BIND")
  let defaultRules ← readDefaultRules (lookup "AUTOMATION_DEFAULT_RULES")
  .ok { dataFolder, tickSeconds, address, defaultRules }

/-- Settings as JSON. -/
def toJson (settings : Settings) : Json :=
  .object
    [("data_dir", .string settings.dataFolder),
      ("tick_secs", .number (.ofUInt64 settings.tickSeconds)),
      ("bind_addr", .string settings.address.text),
      ("default_rules", .bool settings.defaultRules)]

end Settings
end CampusRules
