import OrderOfGrowth.Files.Tree
import OrderOfGrowth.Json.Signals

/-!
The errors of the library, and how each is worded.
-/

set_option autoImplicit false

namespace OrderOfGrowth

inductive Error where
  | access (reason : Text)
  | sourceMissing (path : Text)
  | settings (reason : Text)
  | signals (reason : Text)
  | writing (reason : Text)
  | page (reason : Text)
  deriving DecidableEq, Repr

namespace Error

def templateMissing (name : Text) : Error :=
  .page ("template not found: ".toList ++ name)

def refused (refusal : Files.Refusal) : Error :=
  .access refusal.message

def message : Error → Text
  | .access reason => "I/O error: ".toList ++ reason
  | .sourceMissing path => "File not found: ".toList ++ path
  | .settings reason => "Configuration error: ".toList ++ reason
  | .signals reason => "Serialization error: ".toList ++ reason
  | .writing reason => "TOML error: ".toList ++ reason
  | .page reason => "Template error: ".toList ++ reason

-- The error in words, with what is known about its cause: a refusal is worded twice, once by the
-- library and once by the system.
def fullMessage : Error → Text
  | .access reason => message (.access reason) ++ ": ".toList ++ reason
  | error => error.message

end Error

end OrderOfGrowth
