import Psop.Json

/-!
The exceptions of the skills domain: a class with its status and error code, a message and details.
-/
namespace Psop.Skills

inductive ErrorClass where
  | skillsError
  | skillNotFoundError
  | skillConflictError
  | skillSourceConflictError
  | skillValidationError
  | payloadTooLargeError
  | skillsConfigurationError
  | skillsGatewayError
  | skillsGatewayTimeoutError
deriving DecidableEq, Repr

/-- `exc.__class__.__name__` -/
def ErrorClass.name : ErrorClass → String
  | skillsError => "SkillsError"
  | skillNotFoundError => "SkillNotFoundError"
  | skillConflictError => "SkillConflictError"
  | skillSourceConflictError => "SkillSourceConflictError"
  | skillValidationError => "SkillValidationError"
  | payloadTooLargeError => "PayloadTooLargeError"
  | skillsConfigurationError => "SkillsConfigurationError"
  | skillsGatewayError => "SkillsGatewayError"
  | skillsGatewayTimeoutError => "SkillsGatewayTimeoutError"

def ErrorClass.statusCode : ErrorClass → Int
  | skillsError => 400
  | skillNotFoundError => 404
  | skillConflictError => 409
  | skillSourceConflictError => 409
  | skillValidationError => 422
  | payloadTooLargeError => 413
  | skillsConfigurationError => 503
  | skillsGatewayError => 502
  | skillsGatewayTimeoutError => 504

def ErrorClass.errorCode : ErrorClass → String
  | skillsError => "skills_error"
  | skillNotFoundError => "skill_not_found"
  | skillConflictError => "skill_conflict"
  | skillSourceConflictError => "skill_source_conflict"
  | skillValidationError => "skill_validation_error"
  | payloadTooLargeError => "payload_too_large"
  | skillsConfigurationError => "skills_configuration_error"
  | skillsGatewayError => "skills_gateway_error"
  | skillsGatewayTimeoutError => "skills_gateway_timeout"

structure SkillsError where
  cls : ErrorClass
  message : String
  details : Json
deriving Repr

def SkillValidationError (message : String) (details : Json.Fields) : SkillsError :=
  ⟨.skillValidationError, message, .obj details⟩

def SkillNotFoundError (message : String) (details : Json.Fields) : SkillsError :=
  ⟨.skillNotFoundError, message, .obj details⟩

def PayloadTooLargeError (message : String) (details : Json.Fields) : SkillsError :=
  ⟨.payloadTooLargeError, message, .obj details⟩

end Psop.Skills
