import PiAdaptative.Foundations.Json
import Mathlib.Algebra.Order.BigOperators.Group.List
import Mathlib.Algebra.Order.Ring.Nat

/-!
# The size of JSON texts

The bytes of the text that `JSON.stringify` gives for a value, in UTF-8.  A value that gains a field
or an element grows.
-/

namespace PiAdaptative

/-- The bytes of a character inside a JSON string. -/
def escapedBytes (unit : Char) : Nat :=
  if [8, 9, 10, 12, 13, 34, 92].contains unit.toNat then 2
  else if unit.toNat < 32 then 6
  else unit.utf8Size

namespace Json

def textBytes (text : String) : Nat := 2 + (text.toList.map escapedBytes).sum

mutual
/-- The bytes of the JSON text of a value whose numbers are integers. -/
def bytes : Json → Nat
  | .null => 4
  | .bool value => if value then 4 else 5
  | .num value => (toString value.num).length
  | .str value => textBytes value
  | .arr elements => 1 + max 1 (elementsBytes elements)
  | .obj fields => 1 + max 1 (fieldsBytes fields)

/-- The bytes of elements, each with the comma or bracket that follows it. -/
def elementsBytes : List Json → Nat
  | [] => 0
  | element :: elements => bytes element + 1 + elementsBytes elements

/-- The bytes of fields, each with its name, its colon and the comma or brace that follows it. -/
def fieldsBytes : List (String × Json) → Nat
  | [] => 0
  | (name, value) :: fields => textBytes name + 1 + bytes value + 1 + fieldsBytes fields
end

@[simp]
theorem fieldsBytes_append (first second : List (String × Json)) :
    fieldsBytes (first ++ second) = fieldsBytes first + fieldsBytes second := by
  induction first with
  | nil => simp [fieldsBytes]
  | cons field first ih =>
      rw [List.cons_append, fieldsBytes, fieldsBytes, ih]
      omega

end Json

end PiAdaptative
