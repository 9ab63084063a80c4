import Mathlib.Logic.Basic

/-!
# Errors that the application answers a request with
-/
namespace Shared

structure FieldError where
  field : String
  code : String
  message : String
  deriving DecidableEq

structure AppError where
  code : String
  title : String
  status : Nat
  detail : String
  fieldErrors : List FieldError
  deriving DecidableEq

end Shared
