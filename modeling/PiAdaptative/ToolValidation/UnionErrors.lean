import PiAdaptative.Session.ActiveTask
import Mathlib.Logic.Function.Basic

/-!
# Errors of failed unions

A validator reports a failed union with the errors of every branch.  Before a call is bounced these
are consolidated: each union error decides which of its branch errors, and of itself, are reported,
and the decisions share one map in which a later union overrules an earlier one.
-/

namespace PiAdaptative.ToolValidation

/-- `TLocalizedValidationError`. -/
structure ValidationError where
  keyword : String
  schemaPath : String
  instancePath : String
  params : Json
  message : String

/-- An error with its place in the validator's list, which is its identity. -/
abbrev Listed := ValidationError × Nat

/-- The names that every object inherits. -/
def inheritedNames : List String :=
  ["constructor", "__defineGetter__", "__defineSetter__", "hasOwnProperty", "__lookupGetter__",
    "__lookupSetter__", "isPrototypeOf", "propertyIsEnumerable", "toString", "valueOf",
    "__proto__", "toLocaleString"]

def asRecord (value : Json) : Option (List (String × Json)) :=
  match value with
  | .obj fields => some fields
  | _ => none

/-- `name in record`. -/
def inRecord (name : String) (record : List (String × Json)) : Bool :=
  (record.lookup name).isSome || inheritedNames.contains name

def arrayField (record : List (String × Json)) (name : String) : Option (List Json) :=
  match record.lookup name with
  | some (.arr elements) => some elements
  | _ => none

/-- The texts between the occurrences of a separator. -/
def splitAt (separator : Char) : List Char → List (List Char)
  | [] => [[]]
  | char :: rest =>
      if char = separator then [] :: splitAt separator rest
      else match splitAt separator rest with
        | [] => [[char]]
        | first :: more => (char :: first) :: more

/-- An index of an array that a segment of a path names. -/
def indexOf (segment : List Char) : Option Nat :=
  if segment.all Char.isDigit then some (Nat.ofDigitChars 10 segment 0) else none

/-- One step of `receivedValueAtPath`, and of `schemaAtPointer` on a decoded segment. -/
def valueAtSegment (value : Json) (segment : List Char) : Option Json :=
  match value with
  | .obj fields => fields.lookup (String.ofList segment)
  | .arr elements => (indexOf segment).bind fun index => elements[index]?
  | _ => none

/-- `receivedValueAtPath`; `none` is the missing value. -/
def receivedValueAtPath (args : Json) (segments : List (List Char)) : Option Json :=
  segments.foldlM valueAtSegment args

/-- A segment of a pointer with its escapes undone. -/
def decodeSegment : List Char → List Char
  | '~' :: '1' :: rest => '/' :: decodeSegment rest
  | '~' :: '0' :: rest => '~' :: decodeSegment rest
  | char :: rest => char :: decodeSegment rest
  | [] => []

/-- `schemaAtPointer`; `none` is the missing target. -/
def schemaAtPointer (schema : Json) (pointer : String) : Option Json :=
  ((splitAt '/' (pointer.toList.drop 2)).map decodeSegment).foldlM valueAtSegment schema

def instancePathBase (error : ValidationError) : List Char :=
  let base := match error.instancePath.toList with
    | '/' :: rest => rest
    | path => path
  base.map fun char => if char = '/' then '.' else char

def pathSegments (error : ValidationError) : List (List Char) :=
  if instancePathBase error = [] then [] else splitAt '.' (instancePathBase error)

def schemaAlternatives (schema : List (String × Json)) : List Json :=
  ((arrayField schema "anyOf").or (arrayField schema "oneOf")).getD []

/-- The literal of a schema that is constant. -/
def constOf (option : Json) : Option Json :=
  (asRecord option).bind fun record => record.lookup "const"

def literalValues (schema : Json) : Option (List Json) :=
  (asRecord schema).bind fun record =>
    match arrayField record "enum", record.lookup "const" with
    | some values, _ => some values
    | none, some value => some [value]
    | none, none =>
        ((arrayField record "anyOf").or (arrayField record "oneOf")).bind fun options =>
          options.mapM constOf

/-- `UnionDiscriminator`, with the literal of each alternative. -/
structure UnionDiscriminator where
  key : String
  values : List Json

/-- The properties of an alternative that are a single literal. -/
def literalKeys (alternative : List (String × Json)) : List (String × Json) :=
  match alternative.lookup "properties" with
  | some (.obj properties) => properties.filterMap fun property =>
      match literalValues property.2 with
      | some [value] => some (property.1, value)
      | _ => none
  | _ => []

def unionDiscriminators (schema : List (String × Json)) : Option (List UnionDiscriminator) :=
  let alternatives := schemaAlternatives schema
  if alternatives.length < 2 then none
  else (alternatives.mapM asRecord).map fun records =>
    let keys := records.map literalKeys
    let shared := (keys.head?.getD []).filter fun key =>
      keys.all fun literals => (literals.lookup key.1).isSome
    shared.map fun key => {
      key := key.1
      values := keys.filterMap fun literals => literals.lookup key.1 }

def requiredMissingProperties (error : ValidationError) : List String :=
  if error.keyword ≠ "required" then []
  else match error.params.field "requiredProperties" with
    | some (.arr names) => names.filterMap fun
        | .str name => some name
        | _ => none
    | _ => []

def isUnionError (error : ValidationError) : Bool :=
  error.keyword == "anyOf" || error.keyword == "oneOf"

def unionErrors (errors : List ValidationError) : List Listed :=
  errors.zipIdx.filter fun error => isUnionError error.1

/-- The schema path of a union's branches. -/
def branchPath (union : ValidationError) : String := union.schemaPath ++ "/" ++ union.keyword

/-- Whether an error is one of a union's branches. -/
def isBranchError (union error : ValidationError) : Bool :=
  ((branchPath union).toList ++ ['/']).isPrefixOf error.schemaPath.toList

/-- The errors of a union's branches. -/
def branchErrors (errors : List ValidationError) (union : ValidationError) : List Listed :=
  errors.zipIdx.filter fun error => isBranchError union error.1

/-- The object that a union was checked against. -/
def receivedAt (args : Json) (union : ValidationError) : Option (List (String × Json)) :=
  (receivedValueAtPath args (pathSegments union)).bind asRecord

/-- The discriminator that a union error is reported through. -/
def discriminatorOf (schema : Json) (union : ValidationError) : Option UnionDiscriminator :=
  let unionSchema :=
    if union.schemaPath = "#" then asRecord schema
    else (schemaAtPointer schema union.schemaPath).bind asRecord
  (unionSchema.bind unionDiscriminators).bind List.head?

/-- The instance path of a union's discriminator. -/
def keyPath (union : ValidationError) (discriminator : UnionDiscriminator) : String :=
  union.instancePath ++ "/" ++ discriminator.key

/-- Whether an error says that the discriminator is no literal of a branch. -/
def isLiteralError (union : ValidationError) (discriminator : UnionDiscriminator)
    (error : ValidationError) : Bool :=
  isBranchError union error && error.instancePath == keyPath union discriminator &&
    (error.keyword == "const" || error.keyword == "enum")

/-- A required error that is narrowed to the discriminator. -/
def narrowedToKey (discriminator : UnionDiscriminator) (error : ValidationError) :
    ValidationError :=
  { error with params := .obj [("requiredProperties", .arr [.str discriminator.key])] }

def dedupeSchemas (stringify : Json → String) (schemas : List Json) : List Json :=
  (schemas.foldl (fun kept schema =>
    if stringify schema ∈ kept.map stringify then kept else kept ++ [schema]) [])

/-- `formatCompactJson` up to the length of a received value. -/
def formatCompactJson (stringify : Json → String) (value : Json) : String :=
  if 200 < utf16Length (stringify value) then
    Session.clampText (stringify value) 200 ++ "...[truncated]"
  else stringify value

/-- A literal error that lists the literals of all branches. -/
def narrowedToLiterals (stringify : Json → String) (union : ValidationError)
    (discriminator : UnionDiscriminator) (error : ValidationError) : ValidationError :=
  let allowedValues := dedupeSchemas stringify discriminator.values
  { error with
    keyword := "enum"
    schemaPath := branchPath union
    params := .obj [("allowedValues", .arr allowedValues)]
    message := "must be one of " ++
      ", ".intercalate (allowedValues.map (formatCompactJson stringify)) }

/-- What the errors are rewritten to, by their places in the list. -/
abbrev Rewrite := Nat → Option (List ValidationError)

/-- `rewrite.set(error, reported)`. -/
def Rewrite.set (rewrite : Rewrite) (error : Listed) (reported : List ValidationError) : Rewrite :=
  Function.update rewrite error.2 (some reported)

/-- The errors of a list set to what a function gives for each. -/
def Rewrite.setAll (rewrite : Rewrite) (errors : List Listed)
    (reported : ValidationError → List ValidationError) : Rewrite :=
  errors.foldl (fun rewrite error => rewrite.set error (reported error.1)) rewrite

/-- What is reported of a branch error when the discriminator is missing. -/
def reportedMissing (discriminator : UnionDiscriminator) (error : ValidationError) :
    List ValidationError :=
  if error.keyword = "required" ∧ discriminator.key ∈ requiredMissingProperties error then
    [narrowedToKey discriminator error]
  else []

/-- What one union error makes of the rewriting. -/
def consolidateUnion (stringify : Json → String) (errors : List ValidationError) (schema args : Json)
    (rewrite : Rewrite) (union : Listed) : Rewrite :=
  let children := branchErrors errors union.1
  if children = [] then rewrite
  else match receivedAt args union.1 with
    | none => rewrite.setAll (children.filter fun child =>
        child.1.instancePath == union.1.instancePath && child.1.keyword == "type") fun _ => []
    | some received =>
        let dropped := rewrite.set union []
        match discriminatorOf schema union.1 with
        | none => dropped
        | some discriminator =>
            if inRecord discriminator.key received = false then
              dropped.setAll children (reportedMissing discriminator)
            else match children.filter fun child => isLiteralError union.1 discriminator child.1 with
              | [] => dropped
              | first :: _ => (dropped.setAll children fun _ => []).set first
                  [narrowedToLiterals stringify union.1 discriminator first.1]

/-- The rewriting after every union error. -/
def rewritten (stringify : Json → String) (errors : List ValidationError) (schema args : Json) :
    Rewrite :=
  (unionErrors errors).foldl (consolidateUnion stringify errors schema args) fun _ => none

end PiAdaptative.ToolValidation
