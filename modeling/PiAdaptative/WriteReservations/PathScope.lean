import PiAdaptative.Foundations.Texts

/-!
# Path scopes

Lexical containment of paths.  A path with a drive or a share name is compared by the rules of the
Windows dialect and without regard to case, every other path by the POSIX rules.
-/

namespace PiAdaptative.WriteReservations

/-- The lexical functions of one path dialect. -/
structure PathApi where
  /-- `resolve(value)`. -/
  resolve : String → String
  /-- `relative(from, to)`. -/
  relative : String → String → String
  /-- `isAbsolute(value)`. -/
  isAbsolute : String → Bool
  sep : String

structure PathRules where
  /-- `path.posix`. -/
  posix : PathApi
  /-- `path.win32`. -/
  win32 : PathApi
  /-- `value.toLowerCase()`. -/
  toLowerCase : String → String

inductive PathDialect where
  | posix
  | win32
  deriving DecidableEq, Repr

/-- Whether a text starts with another one. -/
def startsWith (value start : String) : Bool := start.toList.isPrefixOf value.toList

/-- A path that names a drive or a share. -/
def usesWindowsPath (value : String) : Bool :=
  (match value.toList with
    | [drive, ':'] => drive.isAlpha
    | drive :: ':' :: next :: _ => drive.isAlpha && (next == '\\' || next == '/')
    | _ => false) ||
    startsWith value "\\\\" || startsWith value "//"

def lexicalPathApi (paths : List String) : PathDialect :=
  if paths.any usesWindowsPath then .win32 else .posix

namespace PathRules

variable (rules : PathRules)

def api : PathDialect → PathApi
  | .posix => rules.posix
  | .win32 => rules.win32

def canonicalPathScopeIdentityWithApi (value : String) (dialect : PathDialect) : String :=
  let resolved := (rules.api dialect).resolve value
  if dialect = .win32 then rules.toLowerCase resolved else resolved

def canonicalPathScopeIdentity (value : String) : String :=
  rules.canonicalPathScopeIdentityWithApi value (lexicalPathApi [value])

/-- Whether a relative path stays below its start. -/
def isRelativeContained (relativePath : String) (dialect : PathDialect) : Bool :=
  relativePath = "" ∨
    (startsWith relativePath (".." ++ (rules.api dialect).sep) = false ∧ relativePath ≠ ".." ∧
      (rules.api dialect).isAbsolute relativePath = false)

/-- Whether a path is a scope or lies below it. -/
def isPathWithinScope (targetPath scopeRoot : String) : Bool :=
  let dialect := lexicalPathApi [targetPath, scopeRoot]
  let target := rules.canonicalPathScopeIdentityWithApi targetPath dialect
  let root := rules.canonicalPathScopeIdentityWithApi scopeRoot dialect
  rules.isRelativeContained ((rules.api dialect).relative root target) dialect

/-- Whether one of two scopes contains the other. -/
def pathScopesOverlap (firstScope secondScope : String) : Bool :=
  rules.isPathWithinScope firstScope secondScope || rules.isPathWithinScope secondScope firstScope

/-- Overlap does not depend on the order of the scopes. -/
theorem pathScopesOverlap_comm (firstScope secondScope : String) :
    rules.pathScopesOverlap firstScope secondScope =
      rules.pathScopesOverlap secondScope firstScope :=
  Bool.or_comm _ _

end PathRules

end PiAdaptative.WriteReservations
