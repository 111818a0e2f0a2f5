import Mathlib

/-!
# JSON values

The values that cross the wire between the Swift client and the Rails server, with
the casts the client applies to them. Numbers are exact rationals: a JSON integer
is an integral `num`, and `created_at.to_i` and ids are all the server emits.
-/

namespace ReactiveDemo

/-- A parsed JSON value. -/
inductive Json where
  | null
  | bool (b : Bool)
  | num (q : ℚ)
  | str (s : String)
  | arr (elems : List Json)
  | obj (fields : List (String × Json))
deriving Inhabited

namespace Json

/-- `value as? String`. -/
def asString? : Json → Option String
  | .str s => some s
  | _ => none

/-- `value as? Int`: an integral `NSNumber` in the range of a 64-bit `Int`. A JSON
    boolean is an `NSNumber` too and casts to 0 or 1. -/
def asInt? : Json → Option Int
  | .num q => if q.den = 1 ∧ -2 ^ 63 ≤ q.num ∧ q.num < 2 ^ 63 then some q.num else none
  | .bool b => some (if b then 1 else 0)
  | _ => none

/-- `value as? TimeInterval`. -/
def asTimeInterval? : Json → Option ℚ
  | .num q => some q
  | .bool b => some (if b then 1 else 0)
  | _ => none

/-- `value as? [String: Any]`. -/
def asDict? : Json → Option (List (String × Json))
  | .obj fields => some fields
  | _ => none

/-- Siesta's `entity.jsonDict`: the content as a dictionary, `[:]` when it is none. -/
def jsonDict (body : Json) : List (String × Json) := body.asDict?.getD []

/-- Siesta's `entity.jsonArray`: the content as an array, `[]` when it is none. -/
def jsonArray : Json → List Json
  | .arr elems => elems
  | _ => []

/-- `json[key] as? String`. -/
def stringField (json : List (String × Json)) (key : String) : Option String :=
  (json.lookup key).bind asString?

/-- `json[key] as? Int`. -/
def intField (json : List (String × Json)) (key : String) : Option Int :=
  (json.lookup key).bind asInt?

/-- `json[key] as? TimeInterval`. -/
def timeIntervalField (json : List (String × Json)) (key : String) : Option ℚ :=
  (json.lookup key).bind asTimeInterval?

end Json

end ReactiveDemo
