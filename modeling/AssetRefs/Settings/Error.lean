/-! # Errors of settings

What can be wrong with a settings file.
-/

namespace AssetRefs

/-- What is wrong with a settings file. -/
inductive SettingsProblem where
  /-- The file may not be read. -/
  | unreadable
  | invalidYaml
  /-- A number or a date in the file does not exist. -/
  | outOfRange
  | notMapping
  | namespaceShape
  | includeTestsShape
  | moduleShape
  | excludeShape
  /-- The file is not UTF-8. -/
  | notText
  /-- Among the unknown keys is one that is not a text, so they cannot be listed in order. -/
  | unorderedKeys
deriving DecidableEq, Repr

/-- The wording of a problem. -/
def SettingsProblem.message : SettingsProblem → String
  | unreadable => "permission denied"
  | invalidYaml => "invalid YAML"
  | outOfRange => "value out of range"
  | notMapping => "expected a mapping at the top level"
  | namespaceShape => "'namespace' must be an identifier"
  | includeTestsShape => "'include_tests' must be true or false"
  | moduleShape => "'module' must be a non-empty string"
  | excludeShape => "'exclude' must be a list of glob patterns"
  | notText => "invalid UTF-8"
  | unorderedKeys => "unknown keys cannot be ordered"

/-- A problem with the settings file at a path. -/
structure SettingsError where
  path : String
  problem : SettingsProblem
deriving DecidableEq, Repr

/-- The wording of a settings error. -/
def SettingsError.message (error : SettingsError) : String :=
  error.path ++ ": " ++ error.problem.message

end AssetRefs
