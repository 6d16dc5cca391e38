import ScreenAtlas.Proofs.RouteAgreement
import ScreenAtlas.Proofs.SyntaxWalk

/-!
# How route objects nest

A route can be written as an element or as an object, and both can hold further
routes: an element inside its tags, an object in the array under `children`. Paths
are joined along such nesting, from the nearest rooted path down.

The two ways of writing differ in one point. An element is a parent by its path
alone. An object counts only when it also renders something, and an object with
nothing but a path and children is passed through: its path is missing from the
paths of everything inside it.
-/
namespace ScreenAtlas.Route

open ScreenAtlas.Script ScreenAtlas.Text

namespace Forest

variable {α : Type} (entry : α → Option Entry)

/-- What the outermost nodes with a path contribute. -/
def outermost : Forest α → List Entry
  | empty => []
  | node label children siblings =>
    (match entry label with
      | some found => [found]
      | none => outermost children) ++ outermost siblings

/-- A host that the walk can have behind nodes with the given contributions, when they
are outermost: the one before them, or the full path of one of them that is rooted. -/
def Meets (passed : List Entry) (start host : Option String) : Prop :=
  host = start ∨ ∃ found ∈ passed, isRooted found.rawPath = true ∧
    host = some (join none found.rawPath)

/-- The full path of the last of some nodes, each inside the one before it. -/
def ancestorOf (host ancestor : Option String) (paths : List String) : Option String :=
  paths.foldl (fun above path => some (fullPath above host path)) ancestor

/-- The full path of a node below others, each inside the one before it. -/
def along (host : Option String) (above : List String) (path : String) : String :=
  fullPath (ancestorOf host none above) host path

/-- Below an ancestor the host does not matter for the nodes further down, because only an
outermost node is ever joined to it. -/
theorem ancestorOf_some (above : String) (paths : List String) :
    ∃ given, ∀ host, ancestorOf host (some above) paths = some given := by
  induction paths generalizing above with
  | nil => exact ⟨above, fun _ => rfl⟩
  | cons path rest inductionHypothesis =>
    obtain ⟨given, same⟩ := inductionHypothesis (join (some above) path)
    exact ⟨given, same⟩

/-- A rooted path depends on nothing above it: neither on an ancestor nor on a host. -/
theorem fullPath_rooted (ancestor host : Option String) {path : String}
    (rooted : isRooted path = true) : fullPath ancestor host path = join none path := by
  simp [fullPath, join_rooted _ _ rooted]

/-- Only the paths from the nearest rooted one down matter for the path of a node, since a rooted
path starts anew. -/
theorem along_of_rooted (host : Option String) (front back : List String) {path : String}
    (rooted : isRooted path = true) (last : String) :
    along host (front ++ path :: back) last = along none (path :: back) last := by
  obtain ⟨given, same⟩ := ancestorOf_some (join none path) back
  have left : ancestorOf host none (front ++ path :: back) = some given := by
    rw [ancestorOf, List.foldl_append, List.foldl_cons, fullPath_rooted _ host rooted]
    exact same host
  have right : ancestorOf none none (path :: back) = some given := by
    rw [ancestorOf, List.foldl_cons, fullPath_rooted _ none rooted]
    exact same none
  simp [along, left, right, fullPath]

namespace Meets

variable {left right : List Entry} {start middle host : Option String}

/-- Behind further nodes the host is an earlier one or one of theirs, so the accounts of two parts
of a walk can be put together. -/
theorem trans (first : Meets left start middle) (second : Meets right middle host) :
    Meets (left ++ right) start host := by
  rcases second with rfl | ⟨found, member, rooted, given⟩
  · rcases first with same | ⟨found, member, rooted, given⟩
    · exact Or.inl same
    · exact Or.inr ⟨found, List.mem_append_left right member, rooted, given⟩
  · exact Or.inr ⟨found, List.mem_append_right left member, rooted, given⟩

/-- A host that some nodes account for is accounted for by more nodes as well, as more of them can
only add hosts. -/
theorem mono (meets : Meets left start host) (more : left ⊆ right) : Meets right start host := by
  rcases meets with same | ⟨found, member, rest⟩
  · exact Or.inl same
  · exact Or.inr ⟨found, more member, rest⟩

end Meets

/-- Below an ancestor the walk leaves the host as it is: no node there is an outermost one. -/
theorem host_walk_some (forest : Forest α) (above : String) (host : Option String) :
    (forest.walk entry (some above) host).2 = host := by
  induction forest generalizing above host with
  | empty => rfl
  | node label children siblings below beside =>
    cases found : entry label with
    | none => simp [walk, found, below, beside]
    | some present => simp [walk, found, below, beside, nextHost]

/-- The host behind an outermost node is the host before it, or the full path of this node if that
is rooted. -/
theorem meets_nextHost (found : Entry) (host : Option String) :
    Meets [found] host (nextHost none host found.rawPath) := by
  by_cases rooted : isRooted found.rawPath = true
  · refine Or.inr ⟨found, List.mem_singleton_self found, rooted, ?_⟩
    simp [nextHost, rooted, fullPath_rooted none host rooted]
  · exact Or.inl (by simp [nextHost, rooted])

/-- The walk of a forest leaves a host that its outermost nodes account for. The induction is on
the forest and carries any host before it. -/
theorem meets_walk (forest : Forest α) (host : Option String) :
    Meets (forest.outermost entry) host (forest.walk entry none host).2 := by
  induction forest generalizing host with
  | empty => exact Or.inl rfl
  | node label children siblings below beside =>
    cases found : entry label with
    | none =>
      simp only [walk, outermost, found]
      exact (below host).trans (beside _)
    | some present =>
      simp only [walk, outermost, found, host_walk_some]
      exact (meets_nextHost present host).trans (beside _)

end Forest

/-- A line leads from a tree to a node in it: the nodes around it, from the root of the
tree inwards. -/
inductive Line : Node → List Node → Node → Prop
  | here (node : Node) : Line node [] node
  | inside {outer child found : Node} {line : List Node} (member : child ∈ outer.children)
      (rest : Line child line found) : Line outer (outer :: line) found

/-- A line can be followed to a child of the node that it leads to, which puts this node at the
end of the line. -/
theorem Line.child {root outer inner : Node} {line : List Node} (leads : Line root line outer)
    (member : inner ∈ outer.children) : Line root (line ++ [outer]) inner := by
  induction leads with
  | here node => exact .inside member (.here inner)
  | inside within rest inductionHypothesis => exact .inside within (inductionHypothesis member)

section Walk

variable (entry : Node → Option Forest.Entry)

/-- The paths that some nodes contribute. -/
def pathsOn (nodes : List Node) : List String := (nodes.filterMap entry).map (·.rawPath)

/-- The walk of some trees is the walk of the first and then that of the others. -/
theorem walk_cons (node : Node) (rest : List Node) (ancestor host : Option String) :
    (forestOf (node :: rest)).walk entry ancestor host =
      (((forestOf [node]).walk entry ancestor host).1 ++
          ((forestOf rest).walk entry ancestor ((forestOf [node]).walk entry ancestor host).2).1,
        ((forestOf rest).walk entry ancestor
          ((forestOf [node]).walk entry ancestor host).2).2) := by
  cases found : entry node <;> simp [forestOf, Forest.walk, found]

/-- The outermost nodes of some trees are those of the first and then those of the others. -/
theorem outermost_cons (node : Node) (rest : List Node) :
    (forestOf (node :: rest)).outermost entry =
      (forestOf [node]).outermost entry ++ (forestOf rest).outermost entry := by
  simp [forestOf, Forest.outermost]

/-- The outermost nodes of one of some trees are outermost among all of them, since no tree is
inside another one. -/
theorem outermost_subset {root : Node} {nodes : List Node} (member : root ∈ nodes) :
    (forestOf [root]).outermost entry ⊆ (forestOf nodes).outermost entry := by
  induction nodes with
  | nil => cases member
  | cons node rest inductionHypothesis =>
    rw [outermost_cons entry node rest]
    rcases List.mem_cons.mp member with rfl | behind
    · exact List.subset_append_left _ _
    · exact List.subset_append_of_subset_right _ (inductionHypothesis behind)

/-- The walk of some trees visits each of them below the same ancestor, with a host that
the trees account for. -/
theorem exists_walk_of_mem {root : Node} {nodes : List Node} (member : root ∈ nodes)
    (ancestor start : Option String) :
    ∃ host, (ancestor = none → Forest.Meets ((forestOf nodes).outermost entry) start host) ∧
      ((forestOf [root]).walk entry ancestor host).1 ⊆
        ((forestOf nodes).walk entry ancestor start).1 := by
  induction nodes generalizing start with
  | nil => cases member
  | cons node rest inductionHypothesis =>
    rw [walk_cons entry node rest, outermost_cons entry node rest]
    rcases List.mem_cons.mp member with rfl | behind
    · exact ⟨start, fun _ => Or.inl rfl, List.subset_append_left _ _⟩
    · obtain ⟨host, meets, visited⟩ :=
        inductionHypothesis behind ((forestOf [node]).walk entry ancestor start).2
      refine ⟨host, ?_, List.subset_append_of_subset_right _ visited⟩
      rintro rfl
      exact (Forest.meets_walk entry (forestOf [node]) start).trans (meets rfl)

/-- The walk visits every node with a path, and its full path is joined along the paths
of the nodes around it.

Proof: induction over the line that leads to the node. A node on the line without a
path hands its ancestor on. A node with a path is the ancestor of the rest of the line,
and from there on the host does not matter. -/
theorem exists_visit_of_line {root found : Node} {line : List Node} (leads : Line root line found)
    {contribution : Forest.Entry} (contributed : entry found = some contribution)
    {nodes : List Node} (member : root ∈ nodes) (ancestor start : Option String) :
    ∃ host, (ancestor = none → Forest.Meets ((forestOf nodes).outermost entry) start host) ∧
      ⟨Forest.fullPath (Forest.ancestorOf host ancestor (pathsOn entry line)) host
          contribution.rawPath, contribution.component,
        contribution.skip || contribution.rawPath == wildcard⟩ ∈
          ((forestOf nodes).walk entry ancestor start).1 := by
  induction leads generalizing nodes ancestor start with
  | here node =>
    obtain ⟨host, meets, visited⟩ := exists_walk_of_mem entry member ancestor start
    refine ⟨host, meets, visited ?_⟩
    simp [forestOf, Forest.walk, contributed, pathsOn, Forest.ancestorOf]
  | @inside outer child found line within rest inductionHypothesis =>
    obtain ⟨host, meets, visited⟩ := exists_walk_of_mem entry member ancestor start
    cases given : entry outer with
    | none =>
      obtain ⟨later, behind, visit⟩ := inductionHypothesis contributed within ancestor host
      refine ⟨later, ?_, visited ?_⟩
      · intro outermost
        refine ((meets outermost).trans (behind outermost)).mono ?_
        have inner : (forestOf [outer]).outermost entry =
            (forestOf outer.children).outermost entry := by
          simp [forestOf, Forest.outermost, given, forestInside_eq]
        exact List.append_subset.mpr ⟨List.Subset.refl _, inner ▸ outermost_subset entry member⟩
      · simpa [forestOf, Forest.walk, given, pathsOn, forestInside_eq] using visit
    | some parent =>
      obtain ⟨later, _, visit⟩ := inductionHypothesis contributed within
        (some (Forest.fullPath ancestor host parent.rawPath))
        (Forest.nextHost ancestor host parent.rawPath)
      obtain ⟨above, same⟩ := Forest.ancestorOf_some
        (Forest.fullPath ancestor host parent.rawPath) (pathsOn entry line)
      refine ⟨host, meets, visited ?_⟩
      have paths : pathsOn entry (outer :: line) = parent.rawPath :: pathsOn entry line := by
        simp [pathsOn, given]
      have ancestors : Forest.ancestorOf host ancestor (pathsOn entry (outer :: line)) =
          some above := by
        rw [paths]
        exact same host
      rw [same later] at visit
      rw [ancestors]
      simpa [forestOf, Forest.walk, given, forestInside_eq, Forest.fullPath] using Or.inr visit

end Walk

/-- The path that is written on a route element or on a route object. -/
def writtenPath? (parsed : Parsed) (node : Node) : Option (Option Node) :=
  if node.isElement && parsed.elementName node == "Route".toList then
    (parsed.attributes node).lookup "path"
  else if node.kind == "object" then ((objectMembers parsed node).lookup "path").map some
  else none

/-- The literal path on a route element or on a route object, whether or not the node
renders anything. -/
def routePath? (parsed : Parsed) (node : Node) : Option String :=
  ((writtenPath? parsed node).bind parsed.literal?).map trimmed

/-- The node can be a parent and a route: an element always, and an object when it
renders something. -/
def isRendered (parsed : Parsed) (node : Node) : Bool :=
  node.isElement || (((objectMembers parsed node).lookup "element").or
    ((objectMembers parsed node).lookup "Component")).isSome

/-- A node declares the path that is written on it exactly when it is rendered. -/
theorem path_declared? (parsed : Parsed) (node : Node) :
    (declared? parsed node).map (·.1) =
      if isRendered parsed node then writtenPath? parsed node else none := by
  unfold declared? writtenPath? isRendered
  by_cases route : (node.isElement && parsed.elementName node == "Route".toList) = true
  · obtain ⟨element, named⟩ := Bool.and_eq_true_iff.mp route
    simp only [element, named, Bool.true_and, ↓reduceIte, Bool.true_or]
    cases (parsed.attributes node).lookup "path" <;> rfl
  · by_cases object : (node.kind == "object") = true
    · have other : node.isElement = false := by
        simp [Node.isElement, beq_iff_eq.mp object]
      simp only [other, object, Bool.false_and, Bool.false_eq_true, ↓reduceIte, Bool.false_or]
      cases (objectMembers parsed node).lookup "path" <;>
        cases ((objectMembers parsed node).lookup "element").or
          ((objectMembers parsed node).lookup "Component") <;> rfl
    · simp only [route, object, Bool.false_eq_true, ↓reduceIte, Option.map_none, ite_self]

/-- A node contributes the literal path that is written on it to the walk exactly when it is
rendered, and otherwise nothing. -/
theorem rawPath_nodeEntry (layouts : List String) (parsed : Parsed) (node : Node) :
    (nodeEntry layouts parsed node).map (·.rawPath) =
      if isRendered parsed node then routePath? parsed node else none := by
  have raw : (nodeEntry layouts parsed node).map (·.rawPath) =
      (((declared? parsed node).map (·.1)).bind parsed.literal?).map trimmed := by
    unfold nodeEntry declarationOf?
    rcases declared? parsed node with _ | ⟨path, rendered⟩
    · rfl
    · cases found : parsed.literal? path <;> simp [found]
  rw [raw, path_declared?, routePath?]
  cases isRendered parsed node <;> rfl

/-- What a node contributes when every route counts: a route object that renders nothing
makes no route of its own, but is a parent of the routes inside it. -/
def writtenEntry (layouts : List String) (parsed : Parsed) (node : Node) : Option Forest.Entry :=
  (nodeEntry layouts parsed node).or
    ((routePath? parsed node).map fun path => { rawPath := path, component := none, skip := true })

/-- An object is listed under the name `children` in another. -/
def ListsChild (parsed : Parsed) (outer inner : Node) : Prop :=
  ∃ listing, (objectMembers parsed outer).lookup "children" = some listing ∧
    listing.kind = "array" ∧ inner ∈ listing.namedChildren

/-- A node is nested below others, from the outermost inwards: as an object in the
children of another, or as an element directly inside another. -/
inductive Nested (parsed : Parsed) : List Node → Node → Prop
  | outermost {line : List Node} {node : Node} (leads : Line parsed.root line node)
      (alone : ∀ other ∈ line, routePath? parsed other = none) : Nested parsed [] node
  | object {above : List Node} {outer inner : Node} (nested : Nested parsed above outer)
      (listed : ListsChild parsed outer inner) : Nested parsed (above ++ [outer]) inner
  | element {above : List Node} {outer inner : Node} (nested : Nested parsed above outer)
      (inside : inner ∈ outer.childElements) : Nested parsed (above ++ [outer]) inner

/-- The value of a member stands in a pair of the object, so that the line to the value leads
through this pair. -/
theorem exists_pair_of_lookup {parsed : Parsed} {node value : Node} {name : String}
    (found : (objectMembers parsed node).lookup name = some value) :
    ∃ pair ∈ node.children, pair.kind = "pair" ∧ value ∈ pair.children := by
  obtain ⟨before, behind, split, _⟩ := List.lookup_eq_some_iff.mp found
  have member : (name, value) ∈ objectMembers parsed node := by simp [split]
  have listed := gathersBy_addFirst.gathers.foldl_subset _ member
  obtain ⟨pair, inside, shown⟩ := List.mem_filterMap.mp listed
  by_cases kind : (pair.kind == "pair") = true
  · simp only [kind, ↓reduceIte, Option.bind_eq_bind, Option.bind_eq_some_iff] at shown
    obtain ⟨key, _, content, given, same⟩ := shown
    obtain ⟨_, rfl⟩ := Prod.mk.inj (Option.some.inj same)
    exact ⟨pair, (List.mem_filter.mp inside).1, beq_iff_eq.mp kind, List.mem_of_find?_eq_some given⟩
  · simp [kind] at shown

/-- Along the nesting the paths of the nodes around a node are those of the nodes that
it is nested below: all others on its line contribute nothing. -/
theorem Nested.exists_line {parsed : Parsed} {above : List Node} {node : Node}
    (nested : Nested parsed above node) (layouts : List String) :
    ∃ line, Line parsed.root line node ∧
      line.filterMap (nodeEntry layouts parsed) = above.filterMap (nodeEntry layouts parsed) := by
  have silent : ∀ other, isSite other = false → nodeEntry layouts parsed other = none := by
    intro other plain
    rw [nodeEntry, declarationOf?_of_not_site layouts parsed plain, Option.map_none]
  induction nested with
  | @outermost line node leads alone =>
    refine ⟨line, leads, List.filterMap_eq_nil_iff.mpr fun other member => ?_⟩
    have path := rawPath_nodeEntry layouts parsed other
    rw [alone other member, ite_self] at path
    exact Option.map_eq_none_iff.mp path
  | @object above outer inner nested listed inductionHypothesis =>
    obtain ⟨line, leads, same⟩ := inductionHypothesis
    obtain ⟨listing, found, array, inside⟩ := listed
    obtain ⟨pair, within, kind, value⟩ := exists_pair_of_lookup found
    have plainPair : nodeEntry layouts parsed pair = none :=
      silent pair (by simp [isSite, Node.isElement, kind])
    have plainListing : nodeEntry layouts parsed listing = none :=
      silent listing (by simp [isSite, Node.isElement, array])
    refine ⟨_, ((leads.child within).child value).child (List.mem_filter.mp inside).1, ?_⟩
    simp only [List.filterMap_append, same, List.append_assoc, List.filterMap_cons, plainPair,
      plainListing, List.filterMap_nil, List.append_nil]
  | @element above outer inner nested inside inductionHypothesis =>
    obtain ⟨line, leads, same⟩ := inductionHypothesis
    have member : inner ∈ outer.children := by
      unfold Node.childElements at inside
      split at inside
      · exact (List.mem_filter.mp (List.mem_filter.mp inside).1).1
      · cases inside
    exact ⟨_, leads.child member, by simp [same]⟩

/-- The paths of the rendered among some nodes. -/
def renderedPaths (parsed : Parsed) (nodes : List Node) : List String :=
  (nodes.filter (isRendered parsed)).filterMap (routePath? parsed)

/-- The paths that some nodes contribute to the walk are those of the rendered ones among them. -/
theorem pathsOn_nodeEntry (layouts : List String) (parsed : Parsed) (nodes : List Node) :
    pathsOn (nodeEntry layouts parsed) nodes = renderedPaths parsed nodes := by
  rw [pathsOn, List.map_filterMap, renderedPaths, List.filterMap_filter]
  exact List.filterMap_congr fun node _ => rawPath_nodeEntry layouts parsed node

/-- The routes of a source are those of the walk of its tree, in which objects that render
nothing are passed through. A rendered route object or a route element, at any depth,
gets the path that is joined along the paths of those rendered routes it is nested
below, from the nearest rooted one down. A relative outermost path is joined to a host,
if there is one: the path of an outermost rooted route. Where every route object
renders something, all paths around a route count.

Proof: the walk visits every node below the nodes of its line. What the nodes between
two nested routes contribute is nothing, so the paths on the line are those of the
nesting. -/
theorem objects_nest_where_rendered (layouts : List String) (parsed : Parsed) (content : String)
    (bracketed : IsBracketed parsed) :
    recover (some parsed) layouts content =
        (forestOf [parsed.root]).routes (nodeEntry layouts parsed) (findBasename content.toList) ∧
      (∀ above node path, Nested parsed above node → routePath? parsed node = some path →
        isRendered parsed node = true →
        ∃ entry host, nodeEntry layouts parsed node = some entry ∧ entry.rawPath = path ∧
          Forest.Meets ((forestOf [parsed.root]).outermost (nodeEntry layouts parsed)) none host ∧
          (isRooted path = true →
            Forest.along host (renderedPaths parsed above) path = join none path) ∧
          (∀ front given back, renderedPaths parsed above = front ++ given :: back →
            isRooted given = true →
            Forest.along host (renderedPaths parsed above) path =
              Forest.along none (given :: back) path) ∧
          (entry.skip = false → path ≠ wildcard →
            ⟨underBasename (findBasename content.toList)
              (Forest.along host (renderedPaths parsed above) path), entry.component⟩ ∈
                recover (some parsed) layouts content)) ∧
      ((∀ node ∈ parsed.nodes, routePath? parsed node ≠ none → isRendered parsed node = true) →
        recover (some parsed) layouts content =
          (forestOf [parsed.root]).routes (writtenEntry layouts parsed)
            (findBasename content.toList)) := by
  have walked := recover_eq_walk layouts bracketed content
  refine ⟨walked, ?_, ?_⟩
  · intro above node path nested written rendered
    have contributed := rawPath_nodeEntry layouts parsed node
    rw [if_pos rendered, written] at contributed
    obtain ⟨entry, shown, rfl⟩ := Option.map_eq_some_iff.mp contributed
    obtain ⟨line, leads, same⟩ := nested.exists_line layouts
    obtain ⟨host, meets, visited⟩ := exists_visit_of_line (nodeEntry layouts parsed) leads shown
      (List.mem_singleton_self parsed.root) none none
    have paths : pathsOn (nodeEntry layouts parsed) line = renderedPaths parsed above := by
      rw [← pathsOn_nodeEntry layouts, pathsOn, same, pathsOn]
    rw [paths] at visited
    refine ⟨entry, host, shown, rfl, meets rfl, Forest.fullPath_rooted _ host, ?_, ?_⟩
    · intro front given back split rooted
      rw [split]
      exact Forest.along_of_rooted host front back rooted entry.rawPath
    · intro kept ordinary
      rw [walked, Forest.routes]
      simp only [distinct, mem_foldl_addNew, List.not_mem_nil, false_or, List.mem_map]
      refine ⟨_, List.mem_filter.mpr ⟨visited, ?_⟩, rfl⟩
      simp [kept, ordinary]
  · intro all
    rw [walked]
    apply Forest.routes_congr
    intro node member
    rw [labels_forestOf, ← Node.visit_eq_preorders] at member
    have contributed := rawPath_nodeEntry layouts parsed node
    cases shown : nodeEntry layouts parsed node with
    | some entry => simp [writtenEntry, shown]
    | none =>
      have unwritten : routePath? parsed node = none := by
        by_contra written
        rw [shown, if_pos (all node member written)] at contributed
        exact written contributed.symm
      simp [writtenEntry, shown, unwritten]

namespace Markup

/-- A member of an object, with its name and its value. -/
def pairPiece (name : String) (value : Piece) : Piece :=
  ((Piece.leaf "property_identifier" name.toList).inRole "key" ++ .mark ":" ++ .gap [' '] ++
    value.inRole "value").under "pair"

/-- Pieces with commas between them, as in arrays and objects. -/
def listPiece : List Piece → Piece
  | [] => .gap []
  | [piece] => piece
  | piece :: rest => piece ++ .mark "," ++ .gap [' '] ++ listPiece rest

/-- An array with some pieces as its items. -/
def arrayPiece (items : List Piece) : Piece :=
  (.mark "[" ++ listPiece items ++ .mark "]").under "array"

/-- A route object with its path, what it renders and the objects among its children. -/
def routeObject (path : String) (rendered : Option Name) (children : List Piece) : Piece :=
  let members := pairPiece "path" (Spelling.literalPiece oneFragment .double path.toList) ::
    ((rendered.toList.map fun name => pairPiece "element" (Element.plain name).piece) ++
      if children.isEmpty then [] else [pairPiece "children" (arrayPiece children)])
  (.mark "\x7b" ++ .gap [' '] ++ listPiece members ++ .gap [' '] ++ .mark "\x7d").under "object"

/-- A source that consists of a piece, with its text as bytes. -/
def Piece.parsed (piece : Piece) : Parsed where
  root := (piece.under "expression_statement").node "program" 0
  bytes := encode piece.text

/-- The name with these characters, where they make an identifier. -/
def Name.single? (first : Char) (rest : String) : Option Name :=
  if proper : first.isDigit = false ∧ (first :: rest.toList).all isIdentifierChar = true then
    some (.single first rest proper.1 proper.2)
  else none

/-- A route object that renders a component. -/
def usersObject : Piece := routeObject "users" (Name.single? 'U' "sers") []

/-- A rendered route object with another one among its children. -/
def renderedParent : Piece := arrayPiece [routeObject "/app" (Name.single? 'A' "pp") [usersObject]]

/-- A route object that renders nothing, with a rendered one among its children. -/
def bareParent : Piece := arrayPiece [routeObject "/admin" none [usersObject]]

/-- Below a rendered object the path of a child is joined to that of its parent, as it would be
below an element. -/
theorem renderedParent_joins :
    IsBracketed renderedParent.parsed ∧
      (∃ outer inner, Nested renderedParent.parsed [outer] inner ∧
        routePath? renderedParent.parsed inner = some "users" ∧
        isRendered renderedParent.parsed inner = true) ∧
      ⟨"/app/users", some "Users"⟩ ∈ recover (some renderedParent.parsed) layoutWrappers
        (String.ofList renderedParent.text) := by
  have bracketed : IsBracketed renderedParent.parsed := by decide +kernel
  -- The way down the tree: a statement, an array, the outer object and its children.
  have tree : (renderedParent.parsed.root.children.any fun statement =>
      statement.children.any fun array => array.children.any fun outer =>
        ([renderedParent.parsed.root, statement, array].all fun other =>
          routePath? renderedParent.parsed other == none) &&
        renderedPaths renderedParent.parsed [outer] == ["/app"] &&
        ((objectMembers renderedParent.parsed outer).lookup "children").any fun listing =>
          listing.kind == "array" && listing.namedChildren.any fun inner =>
            routePath? renderedParent.parsed inner == some "users" &&
            isRendered renderedParent.parsed inner &&
            (nodeEntry layoutWrappers renderedParent.parsed inner).all fun entry =>
              entry.component == some "Users" && !entry.skip) = true := by decide +kernel
  simp only [List.any_eq_true, List.all_eq_true, Option.any_eq_true, Option.all_eq_true,
    Bool.and_eq_true, beq_iff_eq, Bool.not_eq_true'] at tree
  obtain ⟨statement, inRoot, array, inStatement, outer, inArray, ⟨alone, paths⟩, listing, found,
    kind, inner, listed, ⟨written, rendered⟩, shows⟩ := tree
  have nested : Nested renderedParent.parsed [outer] inner :=
    .object (.outermost (.inside inRoot (.inside inStatement (.inside inArray (.here outer))))
      alone) ⟨listing, found, kind, listed⟩
  obtain ⟨_, joins, _⟩ := objects_nest_where_rendered layoutWrappers renderedParent.parsed
    (String.ofList renderedParent.text) bracketed
  obtain ⟨entry, host, contributed, _, _, _, nearest, route⟩ :=
    joins [outer] inner "users" nested written rendered
  obtain ⟨component, kept⟩ := shows entry contributed
  have path := nearest [] "/app" [] paths (by decide)
  have listedRoute := route kept (by decide)
  rw [path, component] at listedRoute
  have whole : underBasename (findBasename (String.ofList renderedParent.text).toList)
      (Forest.along none ["/app"] "users") = "/app/users" := by decide +kernel
  rw [whole] at listedRoute
  exact ⟨bracketed, ⟨outer, inner, nested, written, rendered⟩, listedRoute⟩

/-- Below an object that renders nothing, the path of a child is not joined to that of its
parent, although the walk of all written routes joins them. -/
theorem bareParent_is_passed_through :
    String.ofList bareParent.text =
        "[\x7b path: \"/admin\", children: [\x7b path: \"users\", element: <Users /> \x7d] \x7d]" ∧
      recover (some bareParent.parsed) layoutWrappers (String.ofList bareParent.text) =
        [⟨"/users", some "Users"⟩] ∧
      (forestOf [bareParent.parsed.root]).routes (writtenEntry layoutWrappers bareParent.parsed)
          (findBasename bareParent.text) = [⟨"/admin/users", some "Users"⟩] := by
  have bracketed : IsBracketed bareParent.parsed := by decide +kernel
  rw [recover_eq_walk layoutWrappers bracketed]
  decide +kernel

end Markup

end ScreenAtlas.Route
