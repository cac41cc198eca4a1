namespace ClaimTree.Files

/-- A place of a file: the names that lead to it from the root. -/
structure Place where
  names : List String
deriving DecidableEq

namespace Place

def root : Place := ⟨[]⟩

def child (place : Place) (name : String) : Place := ⟨place.names ++ [name]⟩

/-- The directory around a place; around the root there is none but itself. -/
def parent (place : Place) : Place := ⟨place.names.dropLast⟩

end Place

end ClaimTree.Files
