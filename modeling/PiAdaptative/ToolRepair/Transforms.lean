import PiAdaptative.ToolRepair.Analysis

/-!
# Transforms of one value

Each mode of repair makes another value of the value at an issue's path, or drops it.  A mode reads
the value that is found at the path when it is applied and the schema of the issue.
-/

namespace PiAdaptative.ToolRepair

open JsonEdits

variable (host : Host)

/-- The letters that a name in JSON with drifted quotes may begin with. -/
def isNameStart (unit : Char) : Bool := unit.isAlpha || unit == '_'

def isNameUnit (unit : Char) : Bool := unit.isAlphanum || unit == '_' || unit == '-'

/-- The rest of a text after `\s*:\s*`. -/
def afterColon (text : List Char) : Option (List Char) :=
  match text.dropWhile isTrimmed with
  | ':' :: rest => some (rest.dropWhile isTrimmed)
  | _ => none

/-- A quote and a name at the beginning of a text, with what follows their colon and a quote. -/
def quotedName (text : List Char) : Option (List Char × List Char) :=
  match text with
  | '"' :: first :: rest =>
      if isNameStart first then
        (afterColon (rest.dropWhile isNameUnit)).bind fun after =>
          match after with
          | '"' :: following => some (first :: rest.takeWhile isNameUnit, following)
          | _ => none
      else none
  | _ => none

/-- The names of a text closed by a quote before their colons, with the characters still to skip. -/
def closeUpNames : Nat → List Char → List Char
  | _, [] => []
  | skipped + 1, _ :: rest => closeUpNames skipped rest
  | 0, unit :: rest =>
      match quotedName (unit :: rest) with
      | some (name, following) =>
          '"' :: name ++ ['"', ':', '"'] ++ closeUpNames (rest.length - following.length) rest
      | none => unit :: closeUpNames 0 rest

def normalizeJsonQuoteDrift (value : String) : Option String :=
  let isDrifted (unit : Char) : Bool := unit.toNat == 0x201C || unit.toNat == 0x201D
  if value.toList.any isDrifted then
    some (String.ofList (closeUpNames 0
      (value.toList.map fun unit => if isDrifted unit then '"' else unit)))
  else none

def parsedContainerMatchesSchemaType (parsed schema : Json) : Bool :=
  (!isArraySchema schema || match parsed with
    | .arr _ => true
    | _ => false) &&
  (!isObjectSchema schema || isRecord (some parsed))

/-- Whether a text begins with one of some characters. -/
def beginsWith (units : List Char) (text : String) : Bool :=
  text.toList.head?.any units.contains

def parseJsonContainer (value : String) (schema : Json) : Option Json :=
  let trimmed := trim value
  if beginsWith ['[', '\x7b'] trimmed then
    (some trimmed :: [normalizeJsonQuoteDrift trimmed]).reduceOption.findSome? fun candidate =>
      (host.parse candidate).filter fun parsed => parsedContainerMatchesSchemaType parsed schema
  else none

/-- The rest of a text after the digits that it begins with, which are at least one. -/
def afterDigits (text : List Char) : Option (List Char) :=
  if text.head?.any Char.isDigit then some (text.dropWhile Char.isDigit) else none

/-- The rest of a text after a fraction, if it begins with one. -/
def afterFraction (text : List Char) : List Char :=
  match text with
  | '.' :: rest => (afterDigits rest).getD text
  | _ => text

/-- The rest of a text after an exponent, if it begins with one. -/
def afterExponent (text : List Char) : List Char :=
  match text with
  | mark :: rest =>
      if mark = 'e' ∨ mark = 'E' then
        let digits := match rest with
          | '+' :: more | '-' :: more => more
          | more => more
        (afterDigits digits).getD text
      else text
  | [] => []

def afterNumber (text : List Char) : Option (List Char) :=
  let unsigned := match text with
    | '-' :: rest => rest
    | rest => rest
  (afterDigits unsigned).map fun rest => afterExponent (afterFraction rest)

/-- The rest of a text after the end of a string. -/
def afterString : List Char → Option (List Char)
  | '"' :: rest => some rest
  | '\\' :: unit :: rest =>
      if [10, 13, 0x2028, 0x2029].contains unit.toNat then none else afterString rest
  | '\\' :: [] => none
  | _ :: rest => afterString rest
  | [] => none

def afterLiteral (text : List Char) : Option (List Char) :=
  match text with
  | '"' :: rest => afterString rest
  | _ =>
      (afterNumber text).or <| ["true", "false", "null"].findSome? fun word =>
        if word.toList.isPrefixOf text then some (text.drop word.toList.length) else none

/-- A matcher of `getSalvageMatchers` at the beginning of a text: the literal and what follows. -/
def salvageMatcher (propertyKey : String) (text : List Char) : Option (String × List Char) :=
  let quoted := '"' :: propertyKey.toList ++ ['"']
  if quoted.isPrefixOf text then
    (afterColon (text.drop quoted.length)).bind fun token =>
      (afterLiteral token).map fun rest =>
        (String.ofList (token.take (token.length - rest.length)), rest)
  else none

/-- The literals of a property in a text, with the characters still to skip. -/
def salvageTokens (propertyKey : String) : Nat → List Char → List String
  | _, [] => []
  | skipped + 1, _ :: rest => salvageTokens propertyKey skipped rest
  | 0, unit :: rest =>
      match salvageMatcher propertyKey (unit :: rest) with
      | some (token, following) =>
          token :: salvageTokens propertyKey (rest.length - following.length) rest
      | none => salvageTokens propertyKey 0 rest

def salvageDeclaredObjectProperties (value : String) (schema : Json) : Option Json :=
  (recordField schema "properties").bind fun properties =>
    let trimmed := trim value
    if beginsWith ['\x7b'] trimmed && trimmed.toList.getLast? == some '\x7d' then
      let normalized := (normalizeJsonQuoteDrift trimmed).getD trimmed
      let salvaged := properties.keys.mapM fun key =>
        match salvageTokens key 0 normalized.toList with
        | [] => some []
        | [token] => (host.parse token).map fun parsed => [(key, parsed)]
        | _ => none
      salvaged.bind fun fields => if fields.flatten = [] then none else some (.obj fields.flatten)
    else none

def parseNumber (value : String) (schema : Json) : Option Rat :=
  if trim value = "" then none
  else (host.number value).filter fun number =>
    !((getSchemaTypes schema).contains "integer") || number.den == 1

def coerceStringifiedNumberArray (value : Option Json) (schema : Json) : Option Json :=
  (recordField schema "items").bind fun items =>
    if isNumberSchema items then
      (textElements value).bind fun texts =>
        (texts.mapM fun text => parseNumber host text items).map fun numbers =>
          .arr (numbers.map .num)
    else none

def bashCommandWrapperKeys : List String := ["cmd", "command", "script"]

def unwrapBashCommand : Option Json → Option String
  | some (.obj [(key, .str command)]) =>
      if bashCommandWrapperKeys.contains key then some command else none
  | _ => none

def findNormalizedEnumValue (schema : Json) (value : String) : Option String :=
  match enumMatches host schema value with
  | [candidate] => some candidate
  | _ => none

/-- What a mode makes of a value; `none` as the new value is a missing one. -/
inductive Transform where
  | set (value : Option Json)
  | delete

def transformValue (issue : ToolRepairIssue) (mode : ToolRepairModeName) : Option Transform :=
  let text := issue.value.bind asText
  match mode with
  | .jsonStringParse => text.map fun text => .set (parseJsonContainer host text issue.schema)
  | .jsonObjectPropertySalvage =>
      text.map fun text => .set (salvageDeclaredObjectProperties host text issue.schema)
  | .singleObjectWrap =>
      (issue.value.filter fun value => isRecord (some value)).map fun value =>
        .set (some (.arr [value]))
  | .bareScalarWrap =>
      (issue.value.filter fun value => isScalarValue (some value)).map fun value =>
        .set (some (.arr [value]))
  | .emptyObjectPlaceholder =>
      if !issue.required && isEmptyObject issue.value then some .delete else none
  | .numberFromString =>
      text.bind fun text => (parseNumber host text issue.schema).map fun number =>
        .set (some (.num number))
  | .boolFromString =>
      text.bind fun text =>
        if host.toLowerCase (trim text) = "true" then some (.set (some (.bool true)))
        else if host.toLowerCase (trim text) = "false" then some (.set (some (.bool false)))
        else none
  | .enumCaseNormalize =>
      text.bind fun text => (findNormalizedEnumValue host issue.schema text).map fun candidate =>
        .set (some (.str candidate))
  | .singleElementUnwrap =>
      match issue.value with
      | some (.arr [element]) => some (.set (some element))
      | _ => none
  | .stringifiedNumberInArray =>
      (coerceStringifiedNumberArray host issue.value issue.schema).map fun numbers =>
        .set (some numbers)
  | .nullOptionalDrop =>
      match issue.value with
      | some .null => if issue.required then none else some .delete
      | _ => none
  | .bashCommandArgvJoin =>
      (textElements issue.value).map fun texts => .set (some (.str (" ".intercalate texts)))
  | .bashCommandUnwrap =>
      (unwrapBashCommand issue.value).map fun command => .set (some (.str command))
  | .nullRequiredBounce | .propertyCaseNormalize | .propertyAliasNormalize => none

/-- A missing value is not transformed. -/
theorem transformValue_missing {issue : ToolRepairIssue} (missing : issue.value = none)
    (mode : ToolRepairModeName) : transformValue host issue mode = none := by
  cases mode <;>
    simp [transformValue, missing, isEmptyObject, coerceStringifiedNumberArray, textElements,
      unwrapBashCommand]

end PiAdaptative.ToolRepair
