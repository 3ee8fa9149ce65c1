/-!
Sets and maps of names as lists in the order of the names, each name once. Names are ordered by code points.
-/

namespace IsaForge

/-- A set of names, in order. -/
abbrev NameSet := List String

namespace NameSet

/-- Add a name at its place, if it is not there yet. -/
def insert (name : String) : NameSet → NameSet
  | [] => [name]
  | first :: rest =>
    if name < first then name :: first :: rest
    else if name = first then first :: rest
    else first :: insert name rest

/-- Add names one after the other. -/
def insertAll (names : List String) (set : NameSet) : NameSet :=
  names.foldl (fun set name => insert name set) set

/-- The set of the given names. -/
def ofList (names : List String) : NameSet :=
  insertAll names []

end NameSet

/-- A map from names, in the order of the names. -/
abbrev NameMap (α : Type) := List (String × α)

namespace NameMap

variable {α : Type}

/-- What a name is mapped to. -/
def find? (name : String) : NameMap α → Option α
  | [] => none
  | (first, value) :: rest => if first = name then some value else find? name rest

/-- Map a name to a value, in place of what it was mapped to. -/
def insert (name : String) (value : α) : NameMap α → NameMap α
  | [] => [(name, value)]
  | (first, old) :: rest =>
    if name < first then (name, value) :: (first, old) :: rest
    else if name = first then (name, value) :: rest
    else (first, old) :: insert name value rest

end NameMap

end IsaForge
