/-!
# StaticSite.Fields

Named values in ascending order of their names: the shape of every record that a page is made
from. Names are compared character by character, which is also the order of their UTF-8 bytes.

* `set` keeps the order and gives each name one value: the last one set.
* `get?` finds the value of a name, `erase` forgets it.
-/

set_option autoImplicit false

namespace StaticSite

/-- Named values, in ascending order of the names. -/
abbrev Fields (α : Type) := List (String × α)

namespace Fields

variable {α β : Type}

/-- The value of `name`, if it has one. -/
def get? (fields : Fields α) (name : String) : Option α :=
  match fields with
  | [] => none
  | (key, value) :: rest => if key = name then some value else get? rest name

/-- Gives `name` the value `value`, in place of an earlier one. -/
def set (fields : Fields α) (name : String) (value : α) : Fields α :=
  match fields with
  | [] => [(name, value)]
  | (key, old) :: rest =>
    if key = name then (name, value) :: rest
    else if name < key then (name, value) :: (key, old) :: rest
    else (key, old) :: set rest name value

/-- Forgets the value of `name`. -/
def erase (fields : Fields α) (name : String) : Fields α :=
  fields.filter fun field => field.1 ≠ name

/-- Sets every pair in turn, so that of two pairs with one name the later counts. -/
def ofList (pairs : List (String × α)) : Fields α :=
  pairs.foldl (fun fields pair => fields.set pair.1 pair.2) []

/-- The names that have a value. -/
def names (fields : Fields α) : List String := fields.map Prod.fst

end Fields

end StaticSite
