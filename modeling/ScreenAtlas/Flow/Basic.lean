/-!
# Flows

A flow is a unit of behaviour found in a source: an event of the user interface, a
handler function, a request or a query. It belongs to one line of one file, and
its identifier is made of the file, the line and what tells flows of a line apart.
-/
namespace ScreenAtlas

/-- A unit of behaviour of a source file. -/
structure Flow where
  id : String
  kind : String
  name : String
  file : String
  line : Int
  code : String
  calls : List String := []
  deriving DecidableEq, Repr

namespace Flow

/-- The kind of events of the user interface. -/
def uiEvent : String := "ui-event"

/-- The kind of handler functions. -/
def functionCall : String := "function-call"

/-- The kind of requests. -/
def apiCall : String := "api-call"

/-- The kind of queries. -/
def dbQuery : String := "db-query"

/-- The identifier of a flow: its file, its line and a text that tells it from
the other flows of the line. -/
def identifier (file : String) (line : Int) (discriminator : String) : String :=
  file ++ ":" ++ toString line ++ ":" ++ discriminator

/-- A flow on a line of a file. -/
def onLine (file : String) (line : Int) (code discriminator kind name : String) : Flow :=
  { id := identifier file line discriminator, kind, name, file, line, code }

/-- Appends a flow unless one with its identifier is listed already. -/
def addNew (flows : List Flow) (flow : Flow) : List Flow :=
  if flows.any fun present => present.id == flow.id then flows else flows ++ [flow]

/-- The first flow of every identifier, in order. -/
def unique (flows : List Flow) : List Flow := flows.foldl addNew []

/-- Flows in the order of their lines; flows of one line keep their order. -/
def byLine (flows : List Flow) : List Flow :=
  flows.mergeSort fun left right => left.line ≤ right.line

/-- The attributes that handle an event of the user interface. -/
def eventAttributes : List String :=
  ["onClick", "onSubmit", "onChange", "onKeyPress", "onKeyDown", "onFocus", "onBlur", "onPress",
    "onTouchStart"]

end Flow

end ScreenAtlas
