import ScreenAtlas.Number.Double

/-!
# Routing frameworks

The routing frameworks that were found in a repository, in the order in which they
were found, and how certain the finding is.
-/
namespace ScreenAtlas

/-- The frameworks of a repository. -/
structure Framework where
  detected : List String := []
  primary : Option String := none
  confidence : Double := .zero

namespace Framework

/-- The label of file-system routing below an `app` folder. -/
def appRouter : String := "nextjs-app-router"

/-- The label of file-system routing below a `pages` folder. -/
def pagesRouter : String := "nextjs-pages-router"

/-- The label of declared routes. -/
def router : String := "react-router"

/-- The label of routing by single-file components. -/
def nuxt : String := "nuxt"

/-- A label is found or primary. -/
def includes (framework : Framework) (label : String) : Bool :=
  framework.detected.contains label || framework.primary == some label

end Framework

end ScreenAtlas
