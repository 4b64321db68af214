/-!
Named values in the order of their names, each name once.

Names are ordered by code points. A sorted list is what a reader gets from a map whose order says
nothing, and what it is written back as.
-/

namespace NetplanEditor

abbrev Named (α : Type) := List (String × α)

namespace Named

variable {α : Type}

/-- Gives a name a value, at its place in the order; a value it had before is replaced. -/
def put (name : String) (value : α) : Named α → Named α
  | [] => [(name, value)]
  | (other, current) :: rest =>
    if name < other then (name, value) :: (other, current) :: rest
    else if name = other then (name, value) :: rest
    else (other, current) :: put name value rest

def names (entries : Named α) : List String := entries.map (·.1)

end Named

end NetplanEditor
