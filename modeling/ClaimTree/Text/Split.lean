namespace ClaimTree.Text

/-- The pieces of a text between the separators; there is always at least one. -/
def split (separator : Char) : List Char → List (List Char)
  | [] => [[]]
  | c :: s =>
    if c = separator then [] :: split separator s
    else
      match split separator s with
      | [] => [[c]]
      | piece :: pieces => (c :: piece) :: pieces

end ClaimTree.Text
