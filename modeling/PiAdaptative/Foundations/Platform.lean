import PiAdaptative.Foundations.Json
import PiAdaptative.Foundations.Outcome

/-!
# Platform services

Functions of the JavaScript platform that durable records go through and whose results are texts
or instants: the date, hash, serialisation and URL functions.  Everything proved over a platform
holds whatever these functions return.
-/

namespace PiAdaptative

/-- The parts of a parsed URL that admission reads. -/
structure UrlParts where
  protocol : String
  hostname : String
  /-- The user name, empty when there is none. -/
  username : String
  /-- The password, empty when there is none. -/
  password : String

/-- Date, hash, serialisation and URL functions of the platform. -/
structure Platform where
  /-- `Date.parse`; `none` is `NaN`. -/
  dateParse : String → Option Int
  /-- `new Date(epochMs).toISOString()` of a time value in range. -/
  toISOString : Int → String
  sha256 : String → String
  /-- `JSON.stringify`. -/
  stringify : Json → String
  /-- `new URL(text)`; `none` where it throws. -/
  parseUrl : String → Option UrlParts

/-- The largest time value of a `Date`. -/
def MAX_DATE_EPOCH_MS : Int := 8640000000000000

namespace Platform

/-- Whether a text is the canonical ISO form of its instant. -/
def isCanonicalDate (platform : Platform) (date : String) : Bool :=
  match platform.dateParse date with
  | none => false
  | some epochMs => epochMs.natAbs ≤ MAX_DATE_EPOCH_MS.toNat ∧ platform.toISOString epochMs = date

/-- `Date.parse(left) <= Date.parse(right)`, false when either is `NaN`. -/
def notAfter (platform : Platform) (left right : String) : Bool :=
  match platform.dateParse left, platform.dateParse right with
  | some before, some after => before ≤ after
  | _, _ => false

/-- `Date.parse(left) < Date.parse(right)`, false when either is `NaN`. -/
def isBefore (platform : Platform) (left right : String) : Bool :=
  match platform.dateParse left, platform.dateParse right with
  | some before, some after => before < after
  | _, _ => false

/-- `new Date(epochMs).toISOString()`, which throws outside the time range and on `NaN`. -/
def isoString (platform : Platform) (epochMs : Option Int) : Outcome String :=
  match epochMs with
  | none => .error (.plain "Invalid time value")
  | some instant =>
      if instant.natAbs ≤ MAX_DATE_EPOCH_MS.toNat then .ok (platform.toISOString instant)
      else .error (.plain "Invalid time value")

end Platform

end PiAdaptative
