/-! # Files: paths

A path is a root and the names below it. Empty names and single dots are dropped when a path is
read; two dots stay, for they mean a step up from wherever the names before them lead. -/

namespace PocketCalculator

/-- A path: a root mark, empty for a relative path, and names. -/
structure Path where
  root : String
  names : List String
  deriving DecidableEq, Repr

namespace Path

/-- The names of a text between its slashes, without empty names and single dots. -/
def namesOf (text : List Char) : List String :=
  (text.splitOn '/').filterMap fun name =>
    if name = [] ∨ name = ['.'] then none else some (String.ofList name)

/-- The path that a text spells. Two slashes at the front are a root of their own. -/
def ofString (text : String) : Path :=
  let root := match text.toList with
    | '/' :: '/' :: '/' :: _ => "/"
    | '/' :: '/' :: _ => "//"
    | '/' :: _ => "/"
    | _ => ""
  ⟨root, namesOf text.toList⟩

/-- The text of a path; the empty relative path is a single dot. -/
def text (p : Path) : String :=
  if p.root = "" ∧ p.names = [] then "." else p.root ++ "/".intercalate p.names

/-- The path of a name below a path. -/
def child (p : Path) (name : String) : Path := { p with names := p.names ++ [name] }

/-- The path without its last name. -/
def parent (p : Path) : Path := { p with names := p.names.dropLast }

end Path

end PocketCalculator
