import SealedStream.Text.Json

/-!
# Looking into JSON values

Each function gives what a value is, if it is that. A member whose value is
null is treated as one that is not there.
-/

namespace SealedStream.Text.Json

def int? : Json → Option Int
  | .integer value => some value
  | _ => none

def nat? (json : Json) : Option Nat :=
  match json with
  | .integer value => if 0 ≤ value then some value.toNat else none
  | _ => none

def text? : Json → Option String
  | .string value => some value
  | _ => none

def bool? : Json → Option Bool
  | .bool value => some value
  | _ => none

def items? : Json → Option (List Json)
  | .array items => some items
  | _ => none

def members? : Json → Option (List (String × Json))
  | .object members => some members
  | _ => none

/-- The member of a name; of several the last one. -/
def member? (json : Json) (name : String) : Option Json :=
  match json with
  | .object members =>
    match members.reverse.lookup name with
    | some .null => none
    | other => other
  | _ => none

/-- A member that has to be there and to be read. -/
def need? {α : Type} (json : Json) (name : String) (read : Json → Option α) : Option α :=
  json.member? name >>= read

/-- A member that may be missing, and must be readable if it is there. -/
def orDefault? {α : Type} (json : Json) (name : String) (read : Json → Option α) (default : α) :
    Option α :=
  match json.member? name with
  | some value => read value
  | none => some default

end SealedStream.Text.Json
