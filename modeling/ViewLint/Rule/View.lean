/-!
# Dictionary views

A dictionary offers two views of its entries, the keys and the values. Each corresponds to one
component of an entry; the names of the two components can be configured.

## Main definitions

* `View`: the two views, with the member that gives each.
* `Components`: the names of the components of an entry.
* `Components.viewOf`: the view that a component corresponds to.
-/

namespace ViewLint

/-- A built-in view of a dictionary. -/
inductive View where
  | keys
  | values
deriving DecidableEq, Repr, Inhabited

namespace View

/-- The member of a dictionary that gives the view. -/
def member : View → String
  | .keys => "Keys"
  | .values => "Values"

/-- The view with the given member. -/
def ofMember? (member : String) : Option View :=
  if member = "Keys" then some .keys else if member = "Values" then some .values else none

/-- The message for a text that is the member of no view. -/
def unknownMessage (text : String) : String :=
  "unknown dictionary view `" ++ text ++ "`"

end View

/-- The names of the key and the value component of an entry. -/
structure Components where
  key : String
  value : String
deriving DecidableEq, Repr

namespace Components

/-- The component names that an entry has if nothing else is configured. -/
def standard : Components :=
  ⟨"Key", "Value"⟩

instance : Inhabited Components := ⟨standard⟩

/-- The components with the given names. Equal names would leave the view open, so they give the
standard ones. -/
def ofNames (key value : String) : Components :=
  if key = value then standard else ⟨key, value⟩

/-- The view that a member of an entry corresponds to. -/
def viewOf (c : Components) (member : String) : Option View :=
  if member = c.key then some .keys else if member = c.value then some .values else none

/-- The component that corresponds to a view. -/
def component (c : Components) : View → String
  | .keys => c.key
  | .values => c.value

end Components

end ViewLint
