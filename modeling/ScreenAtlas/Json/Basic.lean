import ScreenAtlas.Entries
import ScreenAtlas.Number.Double

/-!
# Data values

Manifests, stored records and settings are trees of plain data. Whole numbers
are kept exactly and apart from double-precision numbers; the members of an
object keep the order in which their names first appeared, and a name occurs
once.
-/
namespace ScreenAtlas

/-- A data value. -/
inductive Json where
  | null
  | bool (value : Bool)
  | int (value : Int)
  | double (value : Double)
  | text (value : String)
  | list (items : List Json)
  | object (members : List (String × Json))
  deriving Repr

/-- Named values in the order in which the names first appeared. -/
abbrev Members := List (String × Json)

namespace Members

/-- The value under a name. -/
def get? (members : Members) (name : String) : Option Json := members.lookup name

end Members

mutual

/-- Two data values are the same tree. -/
def Json.same : Json → Json → Bool
  | .null, .null => true
  | .bool a, .bool b => a == b
  | .int a, .int b => a == b
  | .double a, .double b => a == b
  | .text a, .text b => a == b
  | .list a, .list b => Json.sameItems a b
  | .object a, .object b => Json.sameMembers a b
  | _, _ => false

/-- Two lists of data values agree item by item. -/
def Json.sameItems : List Json → List Json → Bool
  | [], [] => true
  | a :: as, b :: bs => Json.same a b && Json.sameItems as bs
  | _, _ => false

/-- Two objects agree member by member, in order. -/
def Json.sameMembers : List (String × Json) → List (String × Json) → Bool
  | [], [] => true
  | (n, a) :: as, (m, b) :: bs => n == m && Json.same a b && Json.sameMembers as bs
  | _, _ => false

end

instance : BEq Json := ⟨Json.same⟩

namespace Json

/-- The value stands for nothing: null, false, zero, or an empty text, list or
object. -/
def isEmpty : Json → Bool
  | .null => true
  | .bool value => !value
  | .int value => value == 0
  | .double value => value.isZero
  | .text value => value.isEmpty
  | .list items => items.isEmpty
  | .object members => members.isEmpty

end Json

end ScreenAtlas
