import Mathlib.Data.Int.Notation
import Halro.Framework.Text

/-!
# Work Units, Runs and their validity (`internal/domain/run_governance.go`)

A Work Unit groups Runs of one project; a Run carries a lifetime budget and an expiry.  The
ledger builds both from its lifecycle records and checks each with `validate` before it keeps
it.

An instant is a count in `ℤ` of nanoseconds from the zero time, so `time.Time.IsZero` is equality
with `0` and `Before`, `After` are the order of `ℤ`.  Amounts are micro-USD in `ℤ`; where the
source adds two of them it does so through `checkedAdd`, which refuses a sum outside the 64-bit
range.
-/

namespace Halro

open Framework

/-- The largest 64-bit signed integer. -/
def maxInt64 : ℤ := 9223372036854775807

/-- The smallest 64-bit signed integer. -/
def minInt64 : ℤ := -9223372036854775808

/-! ## Identifiers -/

def maxGovernanceIDLength : ℕ := 64

def validGovernanceID (value lead : String) : Bool :=
  !(decide (Text.byteLength value ≤ Text.byteLength lead) ||
    decide (maxGovernanceIDLength < Text.byteLength value) || !Text.startsWith value lead) &&
  (Text.afterFirst value lead.length).all Text.isLowerOrDigit

def validRunID (value : String) : Bool := validGovernanceID value "run_"

def validWorkUnitID (value : String) : Bool := validGovernanceID value "wku_"

def validOutcomeDefinitionID (value : String) : Bool := validGovernanceID value "odef_"

/-- `sha256:` followed by 64 hexadecimal digits. -/
def validSHA256Label (value : String) : Bool :=
  Text.startsWith value "sha256:" && decide (Text.byteLength value = 7 + 64) &&
    (Text.afterFirst value 7).all Text.isHexDigit

/-! ## Work Units -/

def maxRunsPerWorkUnit : ℕ := 32

def maxDefinitionsPerWorkUnit : ℕ := 8

structure OutcomeDefinitionRef where
  id : String
  version : ℕ
  deriving DecidableEq

inductive WorkUnitStatus
  | open
  | closed
  deriving DecidableEq

structure WorkUnit where
  id : String
  projectID : String
  status : WorkUnitStatus
  createdByKeyID : String
  createdAt : ℤ
  closedAt : Option ℤ := none
  periodID : String
  periodTimezoneVersion : ℕ
  outcomeDefinitions : List OutcomeDefinitionRef := []
  deriving DecidableEq

/-- Why a Work Unit or a Run is refused. -/
inductive GovernanceError
  | workUnitIdentity
  | openWorkUnitClosedAt
  | closedWorkUnitClosedAt
  | definitionLimit
  | definitionInvalid
  | definitionsNotUnique
  | runIdentityOrBounds
  | activeRunCloseFields
  | closedRunCloseReason
  | runStatus
  deriving DecidableEq

def GovernanceError.message : GovernanceError → String
  | .workUnitIdentity => "work unit identity is invalid"
  | .openWorkUnitClosedAt => "open work unit cannot have closed_at"
  | .closedWorkUnitClosedAt => "closed work unit requires closed_at"
  | .definitionLimit => "work unit outcome definition limit exceeded"
  | .definitionInvalid => "work unit outcome definition is invalid"
  | .definitionsNotUnique => "work unit outcome definitions must be unique"
  | .runIdentityOrBounds => "run identity or bounds are invalid"
  | .activeRunCloseFields => "active run cannot carry close fields"
  | .closedRunCloseReason => "closed run requires a bounded close reason"
  | .runStatus => "run status is invalid"

/-- The loop over a Work Unit's definitions, with the identifiers seen so far. -/
def validateDefinitions : List OutcomeDefinitionRef → List String → Except GovernanceError Unit
  | [], _ => .ok ()
  | reference :: rest, seen =>
    if !validOutcomeDefinitionID reference.id || reference.version = 0 then
      .error .definitionInvalid
    else if reference.id ∈ seen then .error .definitionsNotUnique
    else validateDefinitions rest (reference.id :: seen)

def WorkUnit.validate (w : WorkUnit) : Except GovernanceError Unit :=
  if !validWorkUnitID w.id || w.projectID = "" || w.createdByKeyID = "" ||
      w.createdAt = 0 || w.periodID = "" then
    .error .workUnitIdentity
  else
    match w.status, w.closedAt with
    | .open, some _ => .error .openWorkUnitClosedAt
    | .closed, none => .error .closedWorkUnitClosedAt
    | .closed, some 0 => .error .closedWorkUnitClosedAt
    | _, _ =>
      if maxDefinitionsPerWorkUnit < w.outcomeDefinitions.length then .error .definitionLimit
      else validateDefinitions w.outcomeDefinitions []

/-! ## Runs -/

inductive RunStatus
  | active
  | closed
  | expired
  deriving DecidableEq

structure Run where
  id : String
  projectID : String
  workUnitID : String
  budgetMicrosUSD : ℤ
  committedMicrosUSD : ℤ := 0
  reservedMicrosUSD : ℤ := 0
  unknownAttempts : ℤ := 0
  status : RunStatus
  createdByKeyID : String
  createdAt : ℤ
  expiresAt : ℤ
  closedAt : Option ℤ := none
  closeReason : String := ""
  deriving DecidableEq

/-- The zero value a read of an absent Run yields.  Its status is no valid one; `expired` stands
for it, since a Run the ledger holds is never in that status. -/
def Run.zero : Run where
  id := ""
  projectID := ""
  workUnitID := ""
  budgetMicrosUSD := 0
  status := .expired
  createdByKeyID := ""
  createdAt := 0
  expiresAt := 0

def Run.validate (r : Run) : Except GovernanceError Unit :=
  if !validRunID r.id || r.projectID = "" || !validWorkUnitID r.workUnitID ||
      r.budgetMicrosUSD ≤ 0 || r.committedMicrosUSD < 0 || r.reservedMicrosUSD < 0 ||
      r.unknownAttempts < 0 || r.createdByKeyID = "" || r.createdAt = 0 ||
      r.expiresAt = 0 || r.expiresAt ≤ r.createdAt then
    .error .runIdentityOrBounds
  else
    match r.status with
    | .active =>
      if r.closedAt ≠ none || r.closeReason ≠ "" then .error .activeRunCloseFields else .ok ()
    | .closed =>
      if r.closedAt = none || r.closedAt = some 0 || Text.trimSpace r.closeReason = "" ||
          64 < Text.byteLength r.closeReason then
        .error .closedRunCloseReason
      else .ok ()
    | .expired => .error .runStatus

end Halro
