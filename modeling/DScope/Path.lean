namespace DScope.Path

/-!
# Dotted paths

Module and package names are sequences of segments with dots between them. A
path without dots is a single segment, so no path is without segments.
-/

/-- The runs of characters between the dots. -/
def splitDots : List Char → List (List Char)
  | [] => [[]]
  | character :: rest =>
    if character = '.' then
      [] :: splitDots rest
    else
      match splitDots rest with
      | [] => [[character]]
      | first :: others => (character :: first) :: others

def segments (path : String) : List String :=
  (splitDots path.toList).map String.ofList

def ofSegments (segments : List String) : String :=
  String.intercalate "." segments

/-- The path without its last segment; empty when there is only one. -/
def enclosing (path : String) : String :=
  ofSegments (segments path).dropLast

/-- The path one segment further down; the empty path is left out. -/
def child (path segment : String) : String :=
  if path.isEmpty then segment else path ++ "." ++ segment

end DScope.Path
