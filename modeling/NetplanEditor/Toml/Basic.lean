/-!
Settings files in the TOML format: their values, and the lines that give them.

Settings are texts, flags, and lists and tables of these. Numbers and dates are no settings, so they
have no place here.
-/

namespace NetplanEditor.Toml

inductive Value
  | text (value : String)
  | flag (value : Bool)
  | array (items : List Value)
  /-- A table within a line; each entry has the path of its key. -/
  | table (entries : List (List String × Value))
  deriving Repr

inductive Line
  /-- The lines below belong to the table with this path. -/
  | header (path : List String)
  /-- The lines below belong to another item of the list with this path. -/
  | itemHeader (path : List String)
  /-- The value at a path in the current table. -/
  | entry (path : List String) (value : Value)
  deriving Repr

end NetplanEditor.Toml
