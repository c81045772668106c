import PiAdaptative.Foundations.JsonEdits
import PiAdaptative.Foundations.OrderedMap
import PiAdaptative.Foundations.Texts
import PiAdaptative.ToolValidation.UnionErrors

/-!
# Analysis of argument errors

The errors of a failed call are turned into issues.  An issue names a path of the arguments, the
schema that is declared there and the modes of repair that may apply.
-/

namespace PiAdaptative.ToolRepair

open JsonEdits ToolValidation

/-- The text functions of the language. -/
structure Host where
  /-- `Number(text)`; `none` is a result that is not finite. -/
  number : String → Option Rat
  /-- `text.toLowerCase()`. -/
  toLowerCase : String → String
  /-- `JSON.parse(text)`; `none` is a failure. -/
  parse : String → Option Json

inductive ToolRepairModeName where
  | nullOptionalDrop
  | nullRequiredBounce
  | jsonStringParse
  | jsonObjectPropertySalvage
  | singleObjectWrap
  | bareScalarWrap
  | emptyObjectPlaceholder
  | numberFromString
  | boolFromString
  | enumCaseNormalize
  | propertyCaseNormalize
  | propertyAliasNormalize
  | singleElementUnwrap
  | stringifiedNumberInArray
  | bashCommandArgvJoin
  | bashCommandUnwrap
  deriving DecidableEq

/-- `ValidationErrorLike` without its message. -/
structure ValidationErrorLike where
  instancePath : String
  keyword : String

/-- `ToolRepairIssue`; `none` as its value is a missing one. -/
structure ToolRepairIssue where
  path : List String
  value : Option Json
  schema : Json
  required : Bool
  modes : List ToolRepairModeName

def parseInstancePath (instancePath : String) : List String :=
  let segments := match instancePath.toList with
    | '/' :: rest => splitAt '/' rest
    | path => splitAt '/' path
  (segments.filter fun segment => segment ≠ []).map fun segment =>
    String.ofList (decodeSegment segment)

def formatRepairPath (path : List String) : String :=
  if path = [] then "root" else ".".intercalate path

variable (host : Host)

def arrayIndex (segment : String) : Option Nat :=
  (host.number segment).bind fun number =>
    if number.den = 1 ∧ 0 ≤ number then some number.num.toNat else none

/-- The step that a segment of a path takes from a value. -/
def stepOf (value : Json) (segment : String) : Option Step :=
  match value with
  | .arr _ => (arrayIndex host segment).map .index
  | .obj _ => some (.key segment)
  | _ => none

def getValueAtPath (value : Json) : List String → Option Json
  | [] => some value
  | segment :: rest =>
      ((stepOf host value segment).bind (child value)).bind fun inner => getValueAtPath inner rest

/-- The elements of a property that is an array. -/
def elementsOf (schema : Json) (name : String) : List Json :=
  match schema.field name with
  | some (.arr elements) => elements
  | _ => []

/-- The text of a value that is a string. -/
def asText : Json → Option String
  | .str text => some text
  | _ => none

/-- The types that a schema states itself. -/
def ownTypes (schema : Json) : List String :=
  (match schema.field "type" with
    | some (.str type) => [type]
    | some (.arr types) => types.filterMap asText
    | _ => []) ++
  (match schema.field "enum" with
    | some (.arr values) => if values.all fun value => (asText value).isSome then ["string"] else []
    | _ => []) ++
  (match schema.field "const" with
    | some (.str _) => ["string"]
    | _ => [])

/-- `getSchemaTypes`, as a list in which a type may occur again. -/
def getSchemaTypes (schema : Json) : List String :=
  ownTypes schema ++
    (elementsOf schema "anyOf" ++ elementsOf schema "oneOf" ++ elementsOf schema "allOf").flatMap
      ownTypes

/-- The enumerated texts that a schema states itself. -/
def ownEnumValues (schema : Json) : List String :=
  (elementsOf schema "enum").filterMap asText ++ ((schema.field "const").bind asText).toList

def getEnumValues (schema : Json) : List String :=
  ownEnumValues schema ++
    (elementsOf schema "anyOf" ++ elementsOf schema "oneOf").flatMap ownEnumValues

/-- Whether a value counts as true. -/
def isTruthy : Json → Bool
  | .null => false
  | .bool value => value
  | .num value => value ≠ 0
  | .str text => text ≠ ""
  | _ => true

/-- `schema.properties?.[segment]` where it counts as true; a member that every object inherits
states nothing. -/
def declaredProperty (schema : Json) (segment : String) : Option Json :=
  match schema.field "properties" with
  | some (.obj properties) =>
      match properties.lookup segment with
      | some property => if isTruthy property then some property else none
      | none => if inheritedNames.contains segment then some (.obj []) else none
  | _ => none

/-- `branch.properties?.[segment]` where it is a record. -/
def branchProperty (branch : Json) (segment : String) : Option Json :=
  match branch.field "properties" with
  | some (.obj properties) =>
      match properties.lookup segment with
      | some (.obj fields) => some (.obj fields)
      | some _ => none
      | none => if segment = "__proto__" then some (.obj []) else none
  | _ => none

/-- The value of a property that is a record. -/
def recordField (schema : Json) (name : String) : Option Json :=
  match schema.field name with
  | some (.obj fields) => some (.obj fields)
  | _ => none

def schemaAtSegment (schema : Json) (segment : String) : Option Json :=
  let branches :=
    elementsOf schema "anyOf" ++ elementsOf schema "oneOf" ++ elementsOf schema "allOf"
  (declaredProperty schema segment).or <|
    (branches.findSome? fun branch => branchProperty branch segment).or <|
      match schema.field "items" with
      | some (.arr items) =>
          (arrayIndex host segment).bind fun index => items[index]?.filter isTruthy
      | _ => (recordField schema "items").or (recordField schema "additionalProperties")

/-- What `resolveSchemaAtPath` finds. -/
structure SchemaLookup where
  schema : Option Json
  parentSchema : Option Json
  propertyKey : Option String

/-- `resolveSchemaAtPath` from what was found so far. -/
def resolveSchemaFrom (found : SchemaLookup) : List String → SchemaLookup
  | [] => found
  | segment :: rest =>
      match found.schema with
      | none => found
      | some cursor =>
          resolveSchemaFrom {
            schema := schemaAtSegment host cursor segment
            parentSchema := some cursor
            propertyKey := some segment } rest

def resolveSchemaAtPath (schema : Json) (path : List String) : SchemaLookup :=
  resolveSchemaFrom host { schema := some schema, parentSchema := none, propertyKey := none } path

def isRequired (found : SchemaLookup) : Bool :=
  match found.propertyKey, found.parentSchema with
  | some key, some parent =>
      key ≠ "" && ((elementsOf parent "required").filterMap asText).contains key
  | _, _ => false

def isScalarSchema (schema : Json) : Bool :=
  (getSchemaTypes schema).any ["string", "number", "integer", "boolean"].contains

def isArraySchema (schema : Json) : Bool := (getSchemaTypes schema).contains "array"

def isObjectSchema (schema : Json) : Bool := (getSchemaTypes schema).contains "object"

/-- Whether a schema has a type of numbers. -/
def isNumberSchema (schema : Json) : Bool :=
  (getSchemaTypes schema).any ["number", "integer"].contains

def normalizeEnumValue (value : String) : String :=
  host.toLowerCase (String.ofList (collapseSpaces (trim value).toList))

/-- The enumerated texts that a text may be a spelling of. -/
def enumMatches (schema : Json) (value : String) : List String :=
  (getEnumValues schema).filter fun candidate =>
    normalizeEnumValue host candidate == normalizeEnumValue host value

def textElements : Option Json → Option (List String)
  | some (.arr elements) => elements.mapM asText
  | _ => none

def isRecord : Option Json → Bool
  | some (.obj _) => true
  | _ => false

def isEmptyObject : Option Json → Bool
  | some (.obj []) => true
  | _ => false

def isScalarValue : Option Json → Bool
  | some (.str _) | some (.num _) | some (.bool _) => true
  | _ => false

/-- The issue of an array of strings whose elements should be numbers, at the parent of a path. -/
def isNumericArrayParentIssue (args rootSchema : Json) (path : List String) :
    Option ToolRepairIssue :=
  if path = [] then none
  else
    let parentPath := path.dropLast
    let parentLookup := resolveSchemaAtPath host rootSchema parentPath
    parentLookup.schema.bind fun parentSchema =>
      if isArraySchema parentSchema = false then none
      else (recordField parentSchema "items").bind fun items =>
        if isNumberSchema items = false then none
        else (textElements (getValueAtPath host args parentPath)).map fun _ => {
          path := parentPath
          value := getValueAtPath host args parentPath
          schema := parentSchema
          required := isRequired parentLookup
          modes := [.stringifiedNumberInArray] }

def modesIf (condition : Bool) (modes : List ToolRepairModeName) : List ToolRepairModeName :=
  if condition then modes else []

def classifyModes (toolName : String) (path : List String) (value : Option Json) (schema : Json)
    (required : Bool) : List ToolRepairModeName :=
  let text := value.bind asText
  let isCommand :=
    (toolName == "bash" || toolName == "powershell") && formatRepairPath path == "command"
  modesIf (isCommand && (textElements value).isSome) [.bashCommandArgvJoin] ++
  modesIf (isCommand && isRecord value) [.bashCommandUnwrap] ++
  modesIf (text.isSome && (isArraySchema schema || isObjectSchema schema))
    (.jsonStringParse :: modesIf (isObjectSchema schema) [.jsonObjectPropertySalvage]) ++
  modesIf (isArraySchema schema && isRecord value) [.singleObjectWrap, .emptyObjectPlaceholder] ++
  modesIf (isArraySchema schema && isScalarValue value) [.bareScalarWrap] ++
  modesIf (text.isSome && isNumberSchema schema) [.numberFromString] ++
  modesIf (text.isSome && (getSchemaTypes schema).contains "boolean") [.boolFromString] ++
  modesIf (text.any fun text => (enumMatches host schema text).length == 1) [.enumCaseNormalize] ++
  (match value with
    | some (.arr [_]) => modesIf (isScalarSchema schema) [.singleElementUnwrap]
    | _ => []) ++
  modesIf (!required && isEmptyObject value && isScalarSchema schema) [.emptyObjectPlaceholder] ++
  (match value with
    | some .null => [if required then .nullRequiredBounce else .nullOptionalDrop]
    | _ => [])

def issueOf (toolName : String) (rootSchema args : Json) (error : ValidationErrorLike) :
    Option ToolRepairIssue :=
  if error.keyword = "required" then none
  else
    let path := parseInstancePath error.instancePath
    (isNumericArrayParentIssue host args rootSchema path).or <|
      let found := resolveSchemaAtPath host rootSchema path
      found.schema.bind fun schema =>
        let value := getValueAtPath host args path
        let modes := classifyModes host toolName path value schema (isRequired found)
        if modes = [] then none
        else some { path, value, schema, required := isRequired found, modes }

def comparePaths : List String → List String → Int
  | left :: lefts, right :: rights =>
      let differ := if left = right then comparePaths lefts rights
        else if codeUnits left < codeUnits right then -1 else 1
      match (host.number left).filter (·.den = 1), (host.number right).filter (·.den = 1) with
      | some leftNumber, some rightNumber =>
          if leftNumber ≠ rightNumber then (leftNumber - rightNumber).num else differ
      | _, _ => differ
  | lefts, rights => lefts.length - rights.length

def analyzeToolArgumentErrors (toolName : String) (schema args : Json)
    (errors : List ValidationErrorLike) : List ToolRepairIssue :=
  let issues : OrderedMap String ToolRepairIssue :=
    (errors.filterMap (issueOf host toolName schema args)).foldl
      (fun issues issue => issues.set (formatRepairPath issue.path) issue) .empty
  issues.values.insertionSort fun left right => comparePaths host left.path right.path ≤ 0

end PiAdaptative.ToolRepair
