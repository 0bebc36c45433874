import TypedSql.Connection
import TypedSql.Duration
import TypedSql.Exclusion
import TypedSql.FileTree

/-!
# Settings

What can be set for a run: the namespace of placeholders, the deadline of requests to the
catalog, the connection to it, and the query files to leave out. Settings are valid when the
namespace is an identifier and the deadline is positive; a namespace that is not valid is
reported first.
-/

namespace TypedSql

/-- The settings of a run. -/
structure Settings where
  /-- The namespace of placeholders. -/
  ns : String
  /-- The deadline of each request to the catalog. -/
  catalogTimeout : Duration
  connection : Option ConnectionSettings
  /-- The patterns of files that are left out. -/
  exclude : List String
  /-- The directory that the settings belong to. -/
  root : Path
  deriving DecidableEq

/-- Why there are no settings. -/
inductive SettingsError where
  | unreadable (cause : FileError)
  | unwritable (cause : FileError)
  /-- The text is not TOML, or a value is not of its kind. Where it goes wrong is not kept. -/
  | malformed
  | invalidNamespace (ns : String)
  | invalidTimeout
  deriving DecidableEq

namespace SettingsError

def message : SettingsError → String
  | .unreadable cause | .unwritable cause => "IO error: " ++ cause.message
  | .malformed => "Parse error"
  | .invalidNamespace ns => s!"Invalid value: namespace '{ns}' must be a non-empty identifier"
  | .invalidTimeout => "Invalid value: catalog_timeout_ms must be positive"

end SettingsError

namespace Settings

/-- The settings of a run without any of its own. -/
def default : Settings :=
  { ns := "querygen"
    catalogTimeout := ⟨5000⟩
    connection := none
    exclude := []
    root := ⟨""⟩ }

/-- A character of a namespace. -/
def isNamespaceChar (c : Char) : Bool :=
  c.isAlphanum || c == '_'

/-- Settings that can be used. -/
def IsValid (s : Settings) : Prop :=
  s.ns.toList ≠ [] ∧ (∀ c ∈ s.ns.toList, isNamespaceChar c) ∧ 0 < s.catalogTimeout.milliseconds

/-- The settings themselves if they are valid. -/
def validated (s : Settings) : Except SettingsError Settings :=
  if s.ns.toList.isEmpty || !s.ns.toList.all isNamespaceChar then .error (.invalidNamespace s.ns)
  else if s.catalogTimeout.milliseconds = 0 then .error .invalidTimeout
  else .ok s

theorem validated_eq_ok_iff (s t : Settings) : s.validated = .ok t ↔ s = t ∧ s.IsValid := by
  simp only [validated, IsValid]
  split
  · simp_all
    grind
  · split
    · simp_all
    · simp_all
      grind

/-- Whether a file is left out. -/
def isExcluded (s : Settings) (path : String) : Bool :=
  s.exclude.any fun pattern => (Exclusion.ofText pattern).covers path.toList

end Settings

end TypedSql
