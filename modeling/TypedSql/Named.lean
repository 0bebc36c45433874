/-!
# Finite types whose values have names

A few small types of the library are written by name in reports: severities, codes, kinds. For
such a type it is enough to list the values with their names; reading a name back is a search
in that list, and the law of the class says that the search finds the value that was written.
-/

namespace TypedSql

/-- A finite type whose values are told apart by their names. -/
class Named (α : Type) where
  /-- Every value, in the order of declaration. -/
  all : List α
  /-- The written form of a value. -/
  name : α → String
  /-- The search by name finds each value, so names are distinct and the list is complete. -/
  find_name : ∀ a, all.find? (fun b => name b == name a) = some a

namespace Named

variable {α : Type} [Named α]

/-- The value of a name. -/
def ofName? (text : String) : Option α :=
  (all : List α).find? fun a => name a == text

@[simp] theorem ofName?_name (a : α) : ofName? (name a) = some a :=
  find_name a

end Named

end TypedSql
