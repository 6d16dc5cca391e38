import ScreenAtlas.Yaml.Schema
import ScreenAtlas.Yaml.Token

/-!
# Nodes

The tokens of a document form a tree of scalars, lists and maps, each with a tag
that says how it is understood. A node can be given a name and be used again under
this name; a node that is used inside itself is written out once more there, with a
mark where it would have to be written out again.
-/
namespace ScreenAtlas.Yaml

/-- A node of a document. -/
inductive Node where
  | scalar (tag text : String)
  | list (tag : String) (items : List Node)
  | map (tag : String) (pairs : List (Node × Node))
  /-- The collection of a name inside itself. -/
  | cycle (name : String)
  deriving Inhabited

mutual

/-- The node with another one in place of the marks for a name. -/
def Node.filled (name : String) (whole : Node) : Node → Node
  | .scalar tag text => .scalar tag text
  | .list tag items => .list tag (Node.filledItems name whole items)
  | .map tag pairs => .map tag (Node.filledPairs name whole pairs)
  | .cycle other => if other == name then whole else .cycle other

/-- The same for the items of a list. -/
def Node.filledItems (name : String) (whole : Node) : List Node → List Node
  | [] => []
  | item :: rest => Node.filled name whole item :: Node.filledItems name whole rest

/-- The same for the pairs of a map. -/
def Node.filledPairs (name : String) (whole : Node) : List (Node × Node) → List (Node × Node)
  | [] => []
  | (key, value) :: rest =>
    (Node.filled name whole key, Node.filled name whole value) :: Node.filledPairs name whole rest

end

/-- The state of building nodes: the tokens to come, the named nodes, of which
those that are still being built are not known, and the short forms of tags. -/
structure Builder where
  tokens : List Token
  anchors : List (String × Option Node) := []
  tagForms : List (String × String) := []

/-- A step of building nodes. -/
abbrev Build (α : Type) := StateT Builder (Except ReadError) α

namespace Builder

/-- The next token. -/
def peek : Build (Option Token) := do return (← get).tokens.head?

/-- Passes over the next token. -/
def pass : Build Unit := modify fun builder => { builder with tokens := builder.tokens.drop 1 }

/-- Passes over the next token if it is the given one. -/
def passIf (token : Token) : Build Bool := do
  if (← peek) == some token then
    pass
    return true
  else return false

/-- The next token is one of those given. -/
def isNext (tokens : List Token) : Build Bool := do
  match ← peek with
  | none => return false
  | some token => return tokens.contains token

/-- The document is malformed here. -/
def malformed {α : Type} : Build α := throw .malformed

/-- A scalar that is not there. -/
def missing : Node := .scalar (plainTag []) ""

/-- The full form of a tag. -/
def fullTag (handle : Option String) (name : String) : Build String := do
  match handle with
  | none => return name
  | some handle =>
    match (← get).tagForms.lookup handle with
    | none => malformed
    | some start => return start ++ name

/-- The name and the tag in front of a node, in either order. -/
def properties : Build (Option String × Option String) := do
  match ← peek with
  | some (.anchor name) =>
    pass
    match ← peek with
    | some (.tag handle tag) =>
      pass
      return (some name, some (← fullTag handle tag))
    | _ => return (some name, none)
  | some (.tag handle tag) =>
    pass
    match ← peek with
    | some (.anchor name) =>
      pass
      return (some name, some (← fullTag handle tag))
    | _ => return (none, some (← fullTag handle tag))
  | _ => return (none, none)

/-- Remembers a name for a node that is going to be built. A name is given once. -/
def introduce (name : Option String) : Build Unit := do
  match name with
  | none => return ()
  | some name =>
    if ((← get).anchors.lookup name).isSome then malformed
    modify fun builder => { builder with anchors := (name, none) :: builder.anchors }

/-- Remembers the node under its name. -/
def conclude (name : Option String) (node : Node) : Build Node := do
  match name with
  | none => return node
  | some name =>
    let whole := Node.filled name node node
    modify fun builder => { builder with anchors := (name, some whole) :: builder.anchors }
    return whole

/-- The node under a name. -/
def aliased (name : String) : Build Node := do
  match (← get).anchors.lookup name with
  | none => malformed
  | some none => return .cycle name
  | some (some node) => return node

/-- The tag of a scalar: the given one, or the one that its text suggests when it is
plain. -/
def scalarTag (tag : Option String) (text : String) (plain : Bool) : String :=
  match tag with
  | none => if plain then plainTag text.toList else textTag
  | some tag => if tag == "!" then plainTag text.toList else tag

/-- The tag of a collection. -/
def collectionTag (tag : Option String) (usual : String) : String :=
  match tag with
  | none => usual
  | some tag => if tag == "!" then usual else tag

mutual

/-- A node. Only in a block may a block collection follow, and only as a value in a
map a list that is not indented. -/
def node (block dashes : Bool) : Nat → Build Node
  | 0 => malformed
  | limit + 1 => do
    match ← peek with
    | some (.alias name) =>
      pass
      aliased name
    | _ =>
      let (name, tag) ← properties
      introduce name
      match ← peek with
      | some .blockEntry =>
        if dashes then
          conclude name (.list (collectionTag tag listTag) (← dashedItems limit))
        else if name.isSome || tag.isSome then
          conclude name (.scalar (scalarTag tag "" true) "")
        else malformed
      | some (.scalar text plain) =>
        pass
        conclude name (.scalar (scalarTag tag text plain) text)
      | some .flowListStart =>
        pass
        conclude name (.list (collectionTag tag listTag) (← flowItems true limit))
      | some .flowMapStart =>
        pass
        conclude name (.map (collectionTag tag mapTag) (← flowPairs true limit))
      | next =>
        if block && next == some .blockListStart then
          pass
          conclude name (.list (collectionTag tag listTag) (← blockItems limit))
        else if block && next == some .blockMapStart then
          pass
          conclude name (.map (collectionTag tag mapTag) (← blockPairs limit))
        else if name.isSome || tag.isSome then
          conclude name (.scalar (scalarTag tag "" true) "")
        else malformed

/-- A node unless one of the given tokens, which can follow a missing one, comes
next. -/
def nodeUnless (followers : List Token) (block dashes : Bool) : Nat → Build Node
  | 0 => malformed
  | limit + 1 => do
    if ← isNext followers then return missing
    node block dashes limit

/-- The items of a block list. -/
def blockItems : Nat → Build (List Node)
  | 0 => malformed
  | limit + 1 => do
    if ← passIf .blockEntry then
      let item ← nodeUnless [.blockEntry, .blockEnd] true false limit
      return item :: (← blockItems limit)
    else if ← passIf .blockEnd then return []
    else malformed

/-- The items of a list that is not indented. -/
def dashedItems : Nat → Build (List Node)
  | 0 => malformed
  | limit + 1 => do
    if ← passIf .blockEntry then
      let item ← nodeUnless [.blockEntry, .key, .value, .blockEnd] true false limit
      return item :: (← dashedItems limit)
    else return []

/-- The pairs of a block map. -/
def blockPairs : Nat → Build (List (Node × Node))
  | 0 => malformed
  | limit + 1 => do
    if ← passIf .key then
      let key ← nodeUnless [.key, .value, .blockEnd] true true limit
      let value ←
        if ← passIf .value then nodeUnless [.key, .value, .blockEnd] true true limit
        else pure missing
      return (key, value) :: (← blockPairs limit)
    else if ← passIf .blockEnd then return []
    else malformed

/-- The items of a list in brackets. A single pair may stand for a map. -/
def flowItems (first : Bool) : Nat → Build (List Node)
  | 0 => malformed
  | limit + 1 => do
    if ← passIf .flowListEnd then return []
    if !first && !(← passIf .flowEntry) then malformed
    if ← passIf .key then
      let key ← nodeUnless [.value, .flowEntry, .flowListEnd] false false limit
      let value ←
        if ← passIf .value then nodeUnless [.flowEntry, .flowListEnd] false false limit
        else pure missing
      return .map mapTag [(key, value)] :: (← flowItems false limit)
    else if ← passIf .flowListEnd then return []
    else
      let item ← node false false limit
      return item :: (← flowItems false limit)

/-- The pairs of a map in braces. -/
def flowPairs (first : Bool) : Nat → Build (List (Node × Node))
  | 0 => malformed
  | limit + 1 => do
    if ← passIf .flowMapEnd then return []
    if !first && !(← passIf .flowEntry) then malformed
    if ← passIf .key then
      let key ← nodeUnless [.value, .flowEntry, .flowMapEnd] false false limit
      let value ←
        if ← passIf .value then nodeUnless [.flowEntry, .flowMapEnd] false false limit
        else pure missing
      return (key, value) :: (← flowPairs false limit)
    else if ← passIf .flowMapEnd then return []
    else
      let key ← node false false limit
      return (key, missing) :: (← flowPairs false limit)

end

/-- The short forms of tags that hold in every document. -/
def usualForms : List (String × String) := [("!", "!"), ("!!", tagStart)]

/-- The directives of a document. -/
def directives (versioned : Bool) (forms : List (String × String)) : Nat → Build Unit
  | 0 => malformed
  | limit + 1 => do
    match ← peek with
    | some (.version major) =>
      if versioned || major != 1 then malformed
      pass
      directives true forms limit
    | some (.tagForm handle start) =>
      if (forms.lookup handle).isSome then malformed
      pass
      directives versioned ((handle, start) :: forms) limit
    | some .otherDirective =>
      pass
      directives versioned forms limit
    | _ => modify fun builder => { builder with tagForms := forms ++ usualForms }

/-- Passes over marks for the end of a document. -/
def documentEnds : Nat → Build Unit
  | 0 => return ()
  | limit + 1 => do
    if ← passIf .documentEnd then documentEnds limit

/-- The next token is a directive or the start of a document. -/
def startsExplicitly : Build Bool := do
  match ← peek with
  | some (.version _) | some (.tagForm _ _) | some .otherDirective | some .documentStart =>
    return true
  | _ => return false

/-- The content of a single document; none when there is no document. -/
def document (limit : Nat) : Build (Option Node) := do
  if (← peek).isNone then return none
  let content ←
    if ← startsExplicitly then do
      directives false [] limit
      if !(← passIf .documentStart) then malformed
      let next ← peek
      if next.isNone || next == some .documentEnd || (← startsExplicitly) then pure missing
      else node true false limit
    else do
      modify fun builder => { builder with tagForms := usualForms }
      node true false limit
  documentEnds limit
  if (← peek).isSome then malformed
  return some content

end Builder

/-- The content of the only document of a text; none when the text is empty. -/
def Node.ofText (text : List Char) : Except ReadError (Option Node) := do
  let tokens ← tokens text
  match (Builder.document (4 * tokens.length + 8)).run { tokens } with
  | .ok (content, _) => .ok content
  | .error cause => .error cause

end ScreenAtlas.Yaml
