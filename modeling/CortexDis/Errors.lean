import CortexDis.PyText

/-!
Exceptions, stages and failure codes.

An exception keeps the data some handler reads: the field a contract violation names, the
number of positions a hot merge missed. Every class outside the failure-code registry is
`other`, with its class name.
-/

namespace CortexDis.Errors

open CortexDis.PyText

inductive Exn
  | eventPathMismatch (field : Option String)
  | eventContract (field tenantId traceId : Option PyStr)
  | mappingConfig (column : Option String)
  | mappingInput (column : Option String)
  | suiteDefinition
  | hotPositionMissing (missCount : ℕ)
  | piiBackendNotConfigured
  | other (exceptionClass : String)
  deriving DecidableEq, Repr

/-- What pydantic raises -/
def validationError : Exn := .other "ValidationError"

/-- `type(exc).__name__` -/
def Exn.className : Exn → String
  | .eventPathMismatch _ => "EventPathMismatchError"
  | .eventContract .. => "EventContractError"
  | .mappingConfig _ => "MappingConfigError"
  | .mappingInput _ => "MappingInputError"
  | .suiteDefinition => "SuiteDefinitionError"
  | .hotPositionMissing _ => "HotPositionMissingError"
  | .piiBackendNotConfigured => "PiiBackendNotConfiguredError"
  | .other cls => cls

/-- `getattr(exc, "field", None)` -/
def Exn.field? : Exn → Option PyStr
  | .eventPathMismatch field => field.map pyStr
  | .eventContract field _ _ => field
  | _ => none

/-- The failure codes the modelled services emit. -/
inductive FailureCode
  | pathMismatch | preflightNotCsv | preflightNoColumns | preflightNoHeader
  | preflightNoDataRows | piiBackendNotConfigured
  | contractViolation | mappingConfigInvalid | suiteRefUnsupported
  | preValidationFailed | mappingExecutionFailed | postValidationFailed
  | validationRowFailed | hotPositionMissing
  | infraFailure
  deriving DecidableEq, Repr

/-- `failure_code_for`: the registry of exception types, or the fallback. -/
def failureCodeFor : Exn → FailureCode
  | .eventPathMismatch _ => .pathMismatch
  | .eventContract .. => .contractViolation
  | .mappingConfig _ => .mappingConfigInvalid
  | .suiteDefinition => .suiteRefUnsupported
  | .hotPositionMissing _ => .hotPositionMissing
  | .piiBackendNotConfigured => .piiBackendNotConfigured
  | .mappingInput _ => .infraFailure
  | .other _ => .infraFailure

/-- The pipeline stage an audit event records. -/
inductive Stage
  | received | piiTokenized | bronzeWritten | ingressPublished
  | mappingLookedUp | identityValidated | preMappingValidated | mappingExecuted
  | postMappingValidated | canonicalWritten | quarantined | signalComputed
  deriving DecidableEq, Repr

/-- An exception class no registry entry maps. -/
def Exn.Unmapped (e : Exn) : Prop := failureCodeFor e = .infraFailure

instance (e : Exn) : Decidable e.Unmapped := inferInstanceAs (Decidable (_ = _))

end CortexDis.Errors
