/-
  Paths: components with slashes between them.
-/

namespace LetScript.Path

/-- The components of a path, empty ones included. -/
def components (path : String) : List String := path.splitOn "/"

/-- Whether a component leaves the place as it is. -/
def isIdle (part : String) : Bool := part = "" || part = "."

/-- The root that a path starts from: none, the root, or the root with exactly two slashes. -/
def root (path : String) : String :=
  match (path.toList.takeWhile (· = '/')).length with
  | 0 => ""
  | 2 => "//"
  | _ => "/"

/-- The path without idle components and trailing slashes. Steps up are kept, and a path with no
    component is the current folder. -/
def normal (path : String) : String :=
  let text := root path ++ "/".intercalate ((components path).filter fun part => !isIdle part)
  if text = "" then "." else text

end LetScript.Path
