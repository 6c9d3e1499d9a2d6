namespace DScope.Table

/-!
# Tables in insertion order

A table is a list of keys with their values in the order in which the keys
first came. Putting a value under a key that is already there keeps its place.
-/

variable {κ ν : Type} [DecidableEq κ]

def find? (key : κ) : List (κ × ν) → Option ν
  | [] => none
  | (other, value) :: rest => if other = key then some value else find? key rest

/-- The table with a value put under a key. -/
def put (key : κ) (value : ν) : List (κ × ν) → List (κ × ν)
  | [] => [(key, value)]
  | (other, old) :: rest =>
    if other = key then (key, value) :: rest else (other, old) :: put key value rest

def erase (key : κ) : List (κ × ν) → List (κ × ν)
  | [] => []
  | (other, value) :: rest =>
    if other = key then rest else (other, value) :: erase key rest

end DScope.Table
