import WordMachine.Json
import WordMachine.Settings.Basic

/-!
# Reading settings

A settings text is a JSON object with fields by name, or an array with fields by position.  A field
may be left out, but not be given twice; members with other names are passed over.
-/

namespace WordMachine

/-- Why settings cannot be read. -/
inductive SettingsFault
  /-- The text could not be had, for the given reason. -/
  | unavailable (reason : String)
  | malformed
  deriving DecidableEq

def SettingsFault.message : SettingsFault → String
  | unavailable reason => "I/O error: " ++ reason
  | malformed => "invalid configuration: malformed settings"

namespace Overrides

def read? (overrides : Overrides) (field : SettingField) : Json → Option Overrides
  | .natural value => overrides.set? field value
  | _ => none

/-- Takes in the members of an object. -/
def ofMembers? (overrides : Overrides) : List (Option String × Json) → Option Overrides
  | [] => some overrides
  | (none, _) :: _ => none
  | (some name, value) :: rest =>
    match SettingField.ofName? name with
    | none => overrides.ofMembers? rest
    | some field => do (← overrides.read? field value).ofMembers? rest

/-- Takes in the elements of an array for the given fields. -/
def ofElements? (overrides : Overrides) : List SettingField → List Json → Option Overrides
  | _, [] => some overrides
  | [], _ :: _ => none
  | field :: fields, value :: rest => do (← overrides.read? field value).ofElements? fields rest

/-- The fields that a JSON value gives. -/
def ofJson? : Json → Option Overrides
  | .object members => ofMembers? {} members
  | .array elements => ofElements? {} SettingField.all elements
  | _ => none

end Overrides

/-- Reads settings; fields that the text leaves out have their defaults. -/
def Settings.ofString (text : String) : Except SettingsFault Settings :=
  match (Json.ofChars? text.toList).bind Overrides.ofJson? with
  | some overrides => .ok ({ : Settings }.override overrides)
  | none => .error .malformed

end WordMachine
