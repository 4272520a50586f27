/-!
# JSON values

`src/contracts/json.ts`.  An object keeps its fields in insertion order, as `JSON.stringify`
does.  A JSON number is a finite double and therefore a rational number.
-/

namespace EphemeralAgent

/-- `JsonValue`. -/
inductive Json where
  | null
  | bool (value : Bool)
  | num (value : Rat)
  | str (value : String)
  | arr (items : List Json)
  | obj (fields : List (String × Json))

/-- `JsonObject`. -/
abbrev JsonObject := List (String × Json)

namespace Json

/-- `candidate[key]` on an object; `none` is `undefined`. -/
def field (object : JsonObject) (key : String) : Option Json :=
  object.lookup key

/-- `typeof value === "string"`. -/
def asString : Json → Option String
  | .str value => some value
  | _ => none

/-- `typeof value === "number"`. -/
def asNumber : Json → Option Rat
  | .num value => some value
  | _ => none

/-- A value that is an object, neither `null` nor an array. -/
def asObject : Json → Option JsonObject
  | .obj fields => some fields
  | _ => none

/-- The string under `key`, when there is one. -/
def stringField (object : JsonObject) (key : String) : Option String :=
  (field object key).bind asString

end Json

end EphemeralAgent
