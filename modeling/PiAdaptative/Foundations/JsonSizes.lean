import PiAdaptative.Foundations.JsonBytes

/-!
# Sizes of JSON values

The UTF-8 bytes of the text of any value, given the bytes of the text of a number.  What a value
adds by itself is kept apart from its parts, so a traversal in any order adds up to the size.
-/

namespace PiAdaptative.Json

variable (numberBytes : Rat → Nat)

mutual
/-- The bytes of the JSON text of a value. -/
def size : Json → Nat
  | .null => 4
  | .bool value => if value then 4 else 5
  | .num value => numberBytes value
  | .str value => textBytes value
  | .arr elements => 2 + (elements.length - 1) + elementsSize elements
  | .obj fields => 2 + (fields.length - 1) + fieldsSize fields

def elementsSize : List Json → Nat
  | [] => 0
  | element :: elements => size element + elementsSize elements

/-- The bytes of the fields of an object, each with its name and colon. -/
def fieldsSize : List (String × Json) → Nat
  | [] => 0
  | (name, value) :: fields => textBytes name + 1 + size value + fieldsSize fields
end

/-- The parts of a value, the values of an object from the last to the first. -/
def parts : Json → List Json
  | .arr elements => elements
  | .obj fields => (fields.map Prod.snd).reverse
  | _ => []

end PiAdaptative.Json
