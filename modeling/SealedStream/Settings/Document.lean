import SealedStream.Dict
import SealedStream.Settings.Error
import SealedStream.Text.Json.Reader

/-!
# The document of the settings

A JSON object from keys to values. Nothing but its own form tells the type of a
value: a whole number is one, and a text in quotes is a text whatever it looks
like.
-/

namespace SealedStream

open Text (Json)

inductive SettingValue where
  | int (value : Int64)
  | string (text : String)
  deriving DecidableEq

namespace SettingValue

def type : SettingValue → SettingType
  | int _ => .int
  | string _ => .string

def toJson : SettingValue → Json
  | int value => .integer value.toInt
  | string text => .string text

def ofJson? : Json → Option SettingValue
  | .integer value =>
    if Int64.minValue.toInt ≤ value ∧ value ≤ Int64.maxValue.toInt then
      some (.int (Int64.ofInt value))
    else none
  | .string text => some (.string text)
  | _ => none

theorem ofJson?_toJson (value : SettingValue) : ofJson? value.toJson = some value := by
  cases value with
  | int value =>
    have lower : Int64.minValue.toInt ≤ value.toInt := Int64.le_iff_toInt_le.mp (Int64.minValue_le value)
    have upper : value.toInt ≤ Int64.maxValue.toInt := Int64.le_iff_toInt_le.mp (Int64.le_maxValue value)
    simp only [toJson, ofJson?]
    rw [if_pos ⟨lower, upper⟩, Int64.ofInt_toInt]
  | string text => rfl

end SettingValue

namespace Settings

/-- The document of the values. -/
def encode (values : Dict SettingValue) : Bytes :=
  Bytes.ofString (Json.object (values.entries.map fun (key, value) => (key, value.toJson))).written

/-- The values of a document; of values under one key the last one counts. -/
def decode (document : Bytes) : Except SettingsError (Dict SettingValue) :=
  if document.isEmpty then .ok .empty
  else match Json.read? document with
    | some (.object members) =>
      match members.mapM fun (m : String × Json) => (SettingValue.ofJson? m.2).map (m.1, ·) with
      | some values => .ok (Dict.ofList values)
      | none => .error .malformed
    | _ => .error .malformed

end Settings

end SealedStream
