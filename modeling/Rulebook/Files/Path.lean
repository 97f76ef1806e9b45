import Rulebook.Text.Split

/-!
# Paths

A path is a text whose components stand between slashes. Empty components do not count, and
neither does a point that is not the first component. A path is kept as it was written, because
messages show it so; what is derived from it is derived from its components.

A path that is too long is not followed at all, wherever it would lead (`Path.fits`). What counts is
the text: the same place may be reached by a shorter one.
-/

namespace Rulebook.Path

/-- Whether a path starts at the root. -/
def isAbsolute (path : String) : Bool := path.toList.head? == some '/'

/-- **The components of a path** that are not empty. -/
def components (path : String) : List String :=
  ((Text.split '/' path.toList).filter (!·.isEmpty)).map String.ofList

/-- The components as the operating system follows them: a slash at the end asks for a directory,
as a point does. -/
def steps (path : String) : List String :=
  components path ++ (if path.toList.getLast? == some '/' then ["."] else [])

/-- The greatest number of bytes of a path. -/
def maxSize : Nat := 4095

/-- **Whether a path is short enough to be followed.** -/
def fits (path : String) : Bool := path.utf8ByteSize ≤ maxSize

/-- **The path of something in a directory.** -/
def join (directory name : String) : String :=
  if isAbsolute name || directory.isEmpty then name
  else if directory.toList.getLast? == some '/' then directory ++ name
  else directory ++ "/" ++ name

/-- **The name of what a path leads to**; none when the last component leads upwards or there is
none. -/
def fileName? (path : String) : Option String :=
  let named := match components path with
    | "." :: rest => (if isAbsolute path then [] else ["."]) ++ rest.filter (· != ".")
    | all => all.filter (· != ".")
  match named.getLast? with
  | none | some ".." | some "." => none
  | some name => some name

/-- **The extension of a name**: what follows its last point, if something precedes the point. -/
def extension? (path : String) : Option String := do
  let name := (← fileName? path).toList
  let reversed := name.reverse
  let extension := reversed.takeWhile (· != '.')
  let before := reversed.drop (extension.length + 1)
  if extension.length == reversed.length || before.isEmpty then none
  else some (String.ofList extension.reverse)

end Rulebook.Path
