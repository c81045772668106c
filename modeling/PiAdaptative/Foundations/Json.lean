import Mathlib.Algebra.GroupWithZero.Nat

/-!
# JSON values and JavaScript text

JSON values as JavaScript code reads them, with the parts of the string, number and comparison
rules of the language that durable codecs use.  Numbers are exact rationals, text is measured in
UTF-16 code units, and object fields keep their order.
-/

namespace PiAdaptative

/-- A JSON value; the fields of an object are listed in property order. -/
inductive Json where
  | null
  | bool (value : Bool)
  | num (value : Rat)
  | str (value : String)
  | arr (elements : List Json)
  | obj (fields : List (String × Json))
  deriving Inhabited

namespace Json

/-- Property read; `none` is `undefined`, also on a value that is not an object. -/
def field : Json → String → Option Json
  | .obj fields, name => fields.lookup name
  | _, _ => none

/-- `Object.keys` of a value. -/
def keys : Json → List String
  | .obj fields => fields.map Prod.fst
  | _ => []

/-- A present optional field, spread into an object as `...(x === undefined ? {} : { name: x })`. -/
def optionalField (name : String) (value : Option Json) : List (String × Json) :=
  match value with
  | none => []
  | some present => [(name, present)]

def strings (texts : List String) : Json := .arr (texts.map .str)

mutual
/-- `isDeepStrictEqual` on JSON values: the field order of objects does not count. -/
def isDeepStrictEqual : Json → Json → Bool
  | .null, .null => true
  | .bool left, .bool right => left == right
  | .num left, .num right => left == right
  | .str left, .str right => left == right
  | .arr left, .arr right => elementsEqual left right
  | .obj left, .obj right => left.length == right.length && fieldsEqual left right
  | _, _ => false

/-- Position by position comparison of two arrays. -/
def elementsEqual : List Json → List Json → Bool
  | [], [] => true
  | left :: lefts, right :: rights => isDeepStrictEqual left right && elementsEqual lefts rights
  | _, _ => false

/-- Every listed field occurs in the other object with an equal value. -/
def fieldsEqual : List (String × Json) → List (String × Json) → Bool
  | [], _ => true
  | (name, left) :: lefts, rights =>
      (match rights.lookup name with
        | some right => isDeepStrictEqual left right
        | none => false) && fieldsEqual lefts rights
end

mutual
/-- `JSON.stringify` of a value whose numbers are integers and whose texts need no escapes. -/
def plainText : Json → String
  | .null => "null"
  | .bool value => toString value
  | .num value => toString value.num
  | .str value => "\"" ++ value ++ "\""
  | .arr elements => "[" ++ ",".intercalate (elementTexts elements) ++ "]"
  | .obj fields => "\x7b" ++ ",".intercalate (fieldTexts fields) ++ "\x7d"

def elementTexts : List Json → List String
  | [] => []
  | element :: elements => plainText element :: elementTexts elements

def fieldTexts : List (String × Json) → List String
  | [] => []
  | (name, value) :: fields =>
      ("\"" ++ name ++ "\":" ++ plainText value) :: fieldTexts fields
end

end Json

/-- `Number.isSafeInteger` on an exact number. -/
def isSafeInteger (value : Rat) : Bool :=
  value.den == 1 && value.num.natAbs ≤ 9007199254740991

/-- `text.length`: the number of UTF-16 code units. -/
def utf16Length (text : String) : Nat :=
  (text.toList.map fun unit => if unit.val < 0x10000 then 1 else 2).sum

/-- `Buffer.byteLength(text, "utf8")`. -/
def utf8Length (text : String) : Nat := text.utf8ByteSize

/-- Lower-case hexadecimal digits. -/
def isLowerHex (unit : Char) : Bool :=
  unit.isDigit || (97 ≤ unit.toNat && unit.toNat ≤ 102)

/-- White space and line terminators, as `String.prototype.trim` removes them. -/
def isTrimmed (unit : Char) : Bool :=
  [9, 10, 11, 12, 13, 32, 160, 5760, 8232, 8233, 8239, 8287, 12288, 65279].contains unit.toNat ||
    (8192 ≤ unit.toNat && unit.toNat ≤ 8202)

/-- `text.trim()`. -/
def trim (text : String) : String :=
  String.ofList
    (((text.toList.dropWhile isTrimmed).reverse.dropWhile isTrimmed).reverse)

/-- An optional string that is truthy: present and not empty. -/
def truthy (text : Option String) : Option String :=
  text.filter (· ≠ "")

@[simp]
theorem truthy_none : truthy none = none := rfl

theorem truthy_eq_some {text : Option String} {value : String} :
    truthy text = some value ↔ text = some value ∧ value ≠ "" := by
  simp [truthy, Option.filter_eq_some_iff]

/-- What a property read finds of an optional field. -/
theorem lookup_optionalField {name key : String} {value : Option Json} :
    (Json.optionalField name value).lookup key = if key = name then value else none := by
  cases value with
  | none => simp [Json.optionalField]
  | some present =>
      by_cases same : key = name
      · simp [Json.optionalField, same]
      · simp [Json.optionalField, List.lookup_cons, beq_false_of_ne same, same]

end PiAdaptative
