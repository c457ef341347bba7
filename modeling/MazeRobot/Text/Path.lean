/-! # Paths

`Text.tidyPath` gives a path its shortest spelling.  Parts that are empty or a single
dot are left out; two dots stay, because what is above a link is not the part before
it. -/

namespace MazeRobot

namespace Text

/-- What a path starts with: nothing, a slash, or two slashes, which are kept apart from
one.  Three and more count as one. -/
def pathRoot (cs : List Char) : String :=
  match (cs.takeWhile (· == '/')).length with
  | 0 => ""
  | 2 => "//"
  | _ => "/"

/-- The shortest spelling of a path; the empty path is a dot. -/
def tidyPath (path : String) : String :=
  let parts := (path.splitOn "/").filter fun part => part != "" && part != "."
  let tidied := pathRoot path.toList ++ "/".intercalate parts
  if tidied == "" then "." else tidied

end Text

end MazeRobot
