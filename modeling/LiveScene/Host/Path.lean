/-!
# Paths

Paths are texts whose parts are separated by slashes. A path that begins with a slash is absolute;
any other one is relative to some directory.
-/

namespace LiveScene.Path

/-- Whether a path starts at the root. -/
def isAbsolute (path : String) : Bool := path.toList.head? == some '/'

/-- A path as seen from the directory `base`. An absolute path stands alone; otherwise the two are
joined by a slash, unless `base` is empty or ends in one. -/
def join (base path : String) : String :=
  if isAbsolute path then path
  else match base.toList.getLast? with
    | none | some '/' => base ++ path
    | some _ => base ++ "/" ++ path

/-- The parts of a path between its slashes. -/
def parts (path : String) : List String := (path.toList.splitOn '/').map String.ofList

end LiveScene.Path
