import ScreenAtlas.Proofs.ParsedRoutes

/-!
# Resolving a syntax tree is walking it

The tree pass reduces a syntax tree to a list of spans, and resolution finds the
nesting again by comparing them. In a tree whose sites, the elements and objects
that can declare routes, lie like brackets, nothing is lost on the way: the routes
of the source are those of the recursive walk of the tree itself, in which every
node that declares a route is the parent of what is inside it and all other nodes
are passed through.

The tree is arbitrary otherwise. Routes may be written as elements or as objects,
side by side or inside each other, with any other code around and between them.
-/
namespace ScreenAtlas.Route

open ScreenAtlas.Script ScreenAtlas.Text

/-- A node of a kind that can declare a route. -/
def isSite (node : Node) : Bool := node.isElement || node.kind == "object"

/-- Nodes that are no sites declare nothing, since only elements and objects are looked at. -/
theorem declarationOf?_of_not_site (layouts : List String) (parsed : Parsed) {node : Node}
    (other : isSite node = false) : declarationOf? layouts parsed node = none := by
  obtain ⟨kind, span, role, named, children⟩ := node
  apply Markup.declarationOf?_inert
  simpa [isSite, Node.isElement, Node.kind, Markup.isInert, and_assoc] using other

/-- A declaration starts and stops where its node does. -/
theorem span_of_declarationOf? {layouts : List String} {parsed : Parsed} {node : Node}
    {declaration : Declaration} (made : declarationOf? layouts parsed node = some declaration) :
    declaration.start = node.span.start ∧ declaration.stop = node.span.stop := by
  simp only [declarationOf?, Option.bind_eq_bind, Option.bind_eq_some_iff] at made
  obtain ⟨⟨path, rendered⟩, _, raw, _, shown⟩ := made
  obtain rfl := Option.some.inj shown
  exact ⟨rfl, rfl⟩

mutual

/-- The forest inside a node, which is that of its children. -/
def forestInside : Node → Forest Node
  | .mk _ _ _ _ children => forestOf children

/-- Trees as a forest whose labels are their nodes. -/
def forestOf : List Node → Forest Node
  | [] => .empty
  | node :: rest => .node node (forestInside node) (forestOf rest)

end

mutual

/-- A node and the labels of the forest inside it are the nodes of its tree in source order. -/
theorem labels_forestInside (node : Node) :
    node :: (forestInside node).labels = Node.preorder node := by
  cases node with
  | mk kind span role named children =>
    rw [forestInside, Node.preorder, labels_forestOf children]

/-- The labels of trees are their nodes in source order, each node before what is inside it. -/
theorem labels_forestOf (nodes : List Node) : (forestOf nodes).labels = Node.preorders nodes := by
  cases nodes with
  | nil => rfl
  | cons node rest =>
    rw [forestOf, Forest.labels, labels_forestInside node, labels_forestOf rest, Node.preorders]

end

/-- The forest inside a node holds exactly the trees of its children. -/
theorem forestInside_eq (node : Node) : forestInside node = forestOf node.children := by
  cases node
  rfl

/-- The sites of a forest lie like brackets between two positions: every site covers
something, what is inside it lies strictly between its ends, and what follows a
node at the same level starts where the node stops or later. -/
def Forest.isBracketed (low high : Nat) : Forest Node → Bool
  | .empty => true
  | .node label children siblings =>
    (if isSite label then
      low ≤ label.span.start && label.span.start < label.span.stop && label.span.stop ≤ high &&
        children.isBracketed (label.span.start + 1) (label.span.stop - 1)
    else children.isBracketed (max low label.span.start) (min high label.span.stop)) &&
      siblings.isBracketed (max low label.span.stop) high

/-- The sites of a parsed source lie like brackets. Every tree that a parser makes of a
text is like that, because elements and objects begin and end with marks of their
own. -/
def IsBracketed (parsed : Parsed) : Prop :=
  (forestOf [parsed.root]).isBracketed parsed.root.span.start parsed.root.span.stop = true

instance (parsed : Parsed) : Decidable (IsBracketed parsed) :=
  inferInstanceAs (Decidable (_ = true))

/-- What a node contributes to the walk: the declaration of a route without its span. -/
def nodeEntry (layouts : List String) (parsed : Parsed) (node : Node) : Option Forest.Entry :=
  (declarationOf? layouts parsed node).map fun declaration =>
    { rawPath := declaration.rawPath
      component := declaration.component
      skip := declaration.skip }

namespace Forest

variable (layouts : List String) (parsed : Parsed)

/-- The declarations of the nodes of a forest, in source order. -/
def declared (forest : Forest Node) : List Declaration :=
  forest.labels.filterMap (declarationOf? layouts parsed)

/-- The declarations of a forest are that of its first node, if there is one, those of what is
inside it and those of what follows. -/
theorem declared_node (label : Node) (children siblings : Forest Node) :
    (node label children siblings).declared layouts parsed =
      (declarationOf? layouts parsed label).toList ++ children.declared layouts parsed ++
        siblings.declared layouts parsed := by
  cases made : declarationOf? layouts parsed label <;> simp [declared, labels, made]

/-- What lies inside a node of a bracketed forest has a region of its own, within that of
the forest and before the end of the node. The region of a site is cut off strictly
inside the site. -/
theorem isBracketed_node {label : Node} {children siblings : Forest Node} {low high : Nat}
    (bracketed : (node label children siblings).isBracketed low high = true) :
    siblings.isBracketed (max low label.span.stop) high = true ∧
      ∃ inner outer, children.isBracketed inner outer = true ∧ low ≤ inner ∧
        outer ≤ min high label.span.stop ∧
        (isSite label = true → low ≤ label.span.start ∧ label.span.start < label.span.stop ∧
          label.span.stop ≤ high ∧ label.span.start < inner ∧ outer < label.span.stop) := by
  rw [isBracketed, Bool.and_eq_true] at bracketed
  obtain ⟨inside, behind⟩ := bracketed
  refine ⟨behind, ?_⟩
  cases site : isSite label with
  | true =>
    simp only [site, ↓reduceIte, Bool.and_eq_true, decide_eq_true_eq] at inside
    obtain ⟨⟨⟨lower, proper⟩, upper⟩, within⟩ := inside
    exact ⟨_, _, within, by omega, by omega, fun _ => by omega⟩
  | false =>
    simp only [site, Bool.false_eq_true, ↓reduceIte] at inside
    exact ⟨_, _, inside, by omega, by omega, by simp⟩

/-- A node that declares a route is a site, so the brackets say where it lies. -/
theorem isSite_of_declares {layouts : List String} {parsed : Parsed} {label : Node}
    {declaration : Declaration} (made : declarationOf? layouts parsed label = some declaration) :
    isSite label = true := by
  by_contra other
  rw [declarationOf?_of_not_site layouts parsed (by simpa using other)] at made
  cases made

/-- A bracketed forest lays out the declarations of its nodes.

Proof: induction over the forest. A node that declares a route is a site, so that what is
inside it lies strictly inside its span. -/
theorem laysOut_declared (forest : Forest Node) (low high : Nat)
    (bracketed : forest.isBracketed low high = true) :
    LaysOut (nodeEntry layouts parsed) low high forest (forest.declared layouts parsed) := by
  induction forest generalizing low high with
  | empty => exact .empty low high
  | node label children siblings below beside =>
    obtain ⟨behind, inner, outer, within, lower, upper, region⟩ := isBracketed_node bracketed
    have inside := below inner outer within
    have following := beside (max low label.span.stop) high behind
    rw [declared_node, List.append_assoc]
    cases made : declarationOf? layouts parsed label with
    | none =>
      have silent : nodeEntry layouts parsed label = none := by simp [nodeEntry, made]
      rw [Option.toList_none, List.nil_append]
      exact .silent silent inside following lower (by omega) (by omega) (Nat.le_max_left _ _)
    | some declaration =>
      have visited : nodeEntry layouts parsed label = some ⟨declaration.rawPath,
          declaration.component, declaration.skip⟩ := by simp [nodeEntry, made]
      obtain ⟨first, proper, last, opened, closed⟩ := region (isSite_of_declares made)
      have spanned : declaration = Entry.declaration ⟨declaration.rawPath, declaration.component,
          declaration.skip⟩ label.span.start label.span.stop := by
        obtain ⟨starts, stops⟩ := span_of_declarationOf? made
        simp only [Entry.declaration, ← starts, ← stops]
      rw [Option.toList_some, List.singleton_append, spanned]
      exact .declared _ _ _ visited inside following first opened closed proper
        (Nat.le_max_right _ _) last

end Forest

/-- The routes of a parsed source whose sites lie like brackets are those of the walk of its tree,
because the tree lays out what its nodes declare. -/
theorem recover_eq_walk (layouts : List String) {parsed : Parsed} (bracketed : IsBracketed parsed)
    (content : String) :
    recover (some parsed) layouts content =
      (forestOf [parsed.root]).routes (nodeEntry layouts parsed) (findBasename content.toList) := by
  have listed : treeDeclarations layouts parsed =
      (forestOf [parsed.root]).declared layouts parsed := by
    rw [Markup.treeDeclarations_eq, Markup.declares, Forest.declared, labels_forestOf]
  rw [recover, listed]
  exact (Forest.laysOut_declared layouts parsed _ _ _ bracketed).resolve_eq _

end ScreenAtlas.Route
