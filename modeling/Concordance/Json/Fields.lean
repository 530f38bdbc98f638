import Concordance.Json.Value

/-!
# Records in JSON

A record with fixed fields is written as an object, whose members may stand in
any order and next to members of other names, or as an array of the fields' values
in their order. A field that is given twice, or not at all, is an error.
-/

namespace Concordance

namespace JsonValue

/-- The member of an object with this name, if there is exactly one. -/
def member? (members : List (String × JsonValue)) (name : String) : Option JsonValue :=
  match members.filter fun entry => entry.1 == name with
  | [(_, value)] => some value
  | _ => none

/-- Whether no member of an object has this name. -/
def lacks (members : List (String × JsonValue)) (name : String) : Bool :=
  !members.any fun entry => entry.1 == name

/-- The values of the fields of a record, in their order. -/
def fields? (names : List String) : JsonValue → Option (List JsonValue)
  | object members => names.mapM (member? members)
  | array items => if items.length = names.length then some items else none
  | _ => none

/-- A whole number below `limit`. -/
def toNat? (limit : Nat) : JsonValue → Option Nat
  | number value => value.toNat? limit
  | _ => none

/-- A floating-point number. -/
def toFloat? : JsonValue → Option Float
  | number value => value.toFloat?
  | _ => none

/-- A truth value. -/
def toBool? : JsonValue → Option Bool
  | bool value => some value
  | _ => none

/-- A text. -/
def toText? : JsonValue → Option String
  | text value => some value
  | _ => none

/-- A list of texts. -/
def toTexts? : JsonValue → Option (List String)
  | array items => items.mapM toText?
  | _ => none

end JsonValue

end Concordance
