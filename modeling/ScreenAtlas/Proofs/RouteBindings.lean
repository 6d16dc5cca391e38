import ScreenAtlas.Proofs.Placement
import ScreenAtlas.Route.Tree

/-!
# The bindings of a source and its routes

Whatever way a source is read, a route is bound to a path and to the names of the element
it renders and of the first element inside. In a tree the nodes bind routes, in a text the
tags and the flat route objects. The routes of a source are exactly those that stem from
its bindings, without the wildcards and without what is left out for what it renders.
-/
namespace ScreenAtlas.Route

open ScreenAtlas.Script ScreenAtlas.Text

/-- What a source binds to a route: its path, the name of what it renders and the
name of the first element inside that. -/
structure Binding where
  path : String
  top : Option String
  inner : Option String

namespace Binding

/-- The declaration of a binding that covers a span. -/
def declaration (layouts : List String) (start stop : Int) (binding : Binding) : Declaration :=
  let (component, skip) := classify binding.top binding.inner layouts
  { rawPath := binding.path, start, stop, component, skip }

/-- The binding makes a route with the given component: its path is no wildcard, and it is not
left out for what it renders. -/
def Makes (layouts : List String) (component : Option String) (binding : Binding) : Prop :=
  binding.path ≠ wildcard ∧ classify binding.top binding.inner layouts = (component, false)

end Binding

/-- The binding of a node that declares a route with a literal path. -/
def bindingOf? (parsed : Parsed) (node : Node) : Option Binding := do
  let (path, rendered) ← declared? parsed node
  let rawPath ← parsed.literal? path
  let (top, inner) := renderedNames parsed (unwrap rendered)
  return { path := trimmed rawPath, top, inner }

/-- The binding of the route whose tag opens at a place, if its path is a literal. -/
def bindingAt? (content : List Char) (start : Nat) : Option Binding := do
  let (stop, _) := Tag.scan content start
  let text := content.drop start
  let value ← Tag.attributeValue? "path" (text.take (stop - start))
  let path ← Tag.attributeText? value
  let (top, inner) := elementNames text (stop - start)
  return { path := String.ofList (trim path), top, inner }

/-- The binding of a flat route object, where the element inside is only looked for behind a
deferring wrapper. -/
def FlatObject.binding (flat : FlatObject) : Binding :=
  { path := String.ofList (trim flat.path)
    top := some (String.ofList flat.element)
    inner := if deferredWrappers.contains (String.ofList flat.element) then
      firstInside flat.behind else none }

/-- The bindings of a source, from its tree when there is one and from its text
otherwise. -/
def bindings (reading : Option Parsed) (content : String) : List Binding :=
  match reading with
  | some parsed => parsed.nodes.filterMap (bindingOf? parsed)
  | none =>
    ((hits routeOpening? content.toList).filterMap fun hit =>
      bindingAt? content.toList hit.start) ++
    (hits flatObject? content.toList).map fun hit => hit.value.binding

/-- The tree pass declares at a node what the node binds, over the span of the node. It declares
nothing where nothing is bound. -/
theorem declarationOf?_eq (layouts : List String) (parsed : Parsed) (node : Node) :
    declarationOf? layouts parsed node =
      (bindingOf? parsed node).map
        (Binding.declaration layouts node.span.start node.span.stop) := by
  unfold declarationOf? bindingOf?
  rcases declared? parsed node with _ | ⟨path, rendered⟩
  · rfl
  · cases found : parsed.literal? path with
    | none => simp [found]
    | some rawPath => simp [found, Binding.declaration]

/-- The text pass declares at a tag what the tag binds, from its start to the end of its element.
-/
theorem declarationAt?_eq (layouts : List String) (content : List Char) (start : Nat) :
    declarationAt? layouts content start =
      (bindingAt? content start).map
        (Binding.declaration layouts start (declarationEnd content start)) := by
  unfold declarationAt? bindingAt?
  dsimp only
  rcases Tag.attributeValue? "path" _ with _ | value
  · rfl
  · cases found : Tag.attributeText? value with
    | none => simp [found]
    | some path => simp [found, Binding.declaration]

/-- A declaration is visible as a route with a component exactly when its binding makes one,
whatever span it covers. -/
theorem Binding.makes_iff {layouts : List String} {start stop : Int} {binding : Binding}
    {component : Option String} :
    binding.Makes layouts component ↔
      (binding.declaration layouts start stop).skip = false ∧
      (binding.declaration layouts start stop).rawPath ≠ wildcard ∧
      (binding.declaration layouts start stop).component = component := by
  unfold Binding.Makes Binding.declaration
  rcases classify binding.top binding.inner layouts with ⟨_, _⟩
  simp only [Prod.mk.injEq]
  tauto

/-- The route of a placement below a basename, whether it is left out or not. -/
def Placement.route (basename : Option String) (placement : Placement) : Target :=
  { path := underBasename basename placement.fullPath
    component := placement.declaration.component }

/-- The route of a flat route object below a basename, whether it is left out or not. -/
def FlatObject.route (layouts : List String) (basename : Option String) (flat : FlatObject) :
    Target :=
  { path := underBasename basename (withoutSplat (String.ofList (normalizeChars flat.path)))
    component := (classify flat.binding.top flat.binding.inner layouts).1 }

/-- A route stems from a binding of a source: from that of a node in its tree or, without a
tree, from that of a tag or of a flat route object in its text. Nodes and tags have their
routes from the placement of what they declare. -/
inductive Stems (layouts : List String) (content : String) :
    Option Parsed → Binding → Target → Prop where
  | node {parsed : Parsed} {node : Node} {binding : Binding} {placement : Placement}
      (present : node ∈ parsed.nodes) (bound : bindingOf? parsed node = some binding)
      (placed : placement ∈ placeAll (treeDeclarations layouts parsed))
      (declared : placement.declaration =
        binding.declaration layouts node.span.start node.span.stop) :
      Stems layouts content (some parsed) binding (placement.route (findBasename content.toList))
  | tag {hit : Hit Unit} {binding : Binding} {placement : Placement}
      (present : hit ∈ hits routeOpening? content.toList)
      (bound : bindingAt? content.toList hit.start = some binding)
      (placed : placement ∈ placeAll (scanDeclarations layouts content.toList))
      (declared : placement.declaration = binding.declaration layouts hit.start
        (declarationEnd content.toList hit.start)) :
      Stems layouts content none binding (placement.route (findBasename content.toList))
  | flat {hit : Hit FlatObject} (present : hit ∈ hits flatObject? content.toList) :
      Stems layouts content none hit.value.binding
        (hit.value.route layouts (findBasename content.toList))

variable {layouts : List String} {basename : Option String} {target : Target}

/-- The routes that are declared at some places are those of the placements whose bindings
make a route. -/
theorem mem_resolve_bound {α : Type} {places : List α} {declare : α → Option Declaration}
    {bound : α → Option Binding} {start stop : α → Int}
    (declares : ∀ place, declare place =
      (bound place).map (Binding.declaration layouts (start place) (stop place))) :
    target ∈ resolve (places.filterMap declare) basename ↔
      ∃ place ∈ places, ∃ binding, bound place = some binding ∧
        ∃ placement ∈ placeAll (places.filterMap declare),
          placement.declaration = binding.declaration layouts (start place) (stop place) ∧
          binding.Makes layouts target.component ∧ placement.route basename = target := by
  rw [mem_resolve]
  constructor
  · rintro ⟨placement, placed, kept, rfl⟩
    have listed := exists_mem_placeAll.mp ⟨placement, placed, rfl⟩
    obtain ⟨place, present, found⟩ := List.mem_filterMap.mp listed
    rw [declares] at found
    obtain ⟨binding, given, declared⟩ := Option.map_eq_some_iff.mp found
    refine ⟨place, present, binding, given, placement, placed, declared.symm, ?_, rfl⟩
    rw [Binding.makes_iff, declared]
    rw [skip_of_mem_placeAll placed] at kept
    simpa using kept
  · rintro ⟨place, present, binding, given, placement, placed, declared, makes, rfl⟩
    refine ⟨placement, placed, ?_, rfl⟩
    obtain ⟨shown, path, _⟩ := Binding.makes_iff.mp makes
    rw [skip_of_mem_placeAll placed, declared, shown]
    simpa using path

/-- A flat route object gives its route exactly when its binding makes one. It is not placed below
another route. -/
theorem flatTarget?_eq_some_iff {flat : FlatObject} :
    flatTarget? layouts basename flat = some target ↔
      flat.binding.Makes layouts target.component ∧ flat.route layouts basename = target := by
  have path : flat.binding.path = wildcard ↔ trim flat.path = ['*'] := String.ofList_inj
  rw [Binding.Makes, Ne, path]
  by_cases star : trim flat.path = ['*']
  · simp [flatTarget?, star]
  · unfold flatTarget? FlatObject.route FlatObject.binding
    simp only [star, beq_iff_eq, ↓reduceIte, not_false_eq_true, true_and]
    rcases classify _ _ layouts with ⟨shown, _ | _⟩
    · simp only [Bool.false_eq_true, ↓reduceIte, Option.some.injEq, Prod.mk.injEq, and_true]
      constructor
      · rintro rfl
        exact ⟨rfl, rfl⟩
      · exact And.right
    · simp

/-- The routes of the flat route objects in a text are those whose bindings make one; making them
distinct loses none. -/
theorem mem_flatTargets_iff {content : List Char} :
    target ∈ flatTargets layouts basename content ↔
      ∃ hit ∈ hits flatObject? content, hit.value.binding.Makes layouts target.component ∧
        hit.value.route layouts basename = target := by
  simp only [flatTargets, distinct, mem_foldl_addNew, List.not_mem_nil, false_or,
    List.mem_filterMap, flatTarget?_eq_some_iff]

/-- The routes of a source are exactly those that stem from the bindings which make a route, both
with a tree and without one. -/
theorem mem_recover_iff {reading : Option Parsed} {content : String} :
    target ∈ recover reading layouts content ↔
      ∃ binding, Stems layouts content reading binding target ∧
        binding.Makes layouts target.component := by
  cases reading with
  | some parsed =>
    rw [recover, treeDeclarations, mem_resolve_bound (declarationOf?_eq layouts parsed)]
    constructor
    · rintro ⟨node, present, binding, bound, placement, placed, declared, makes, rfl⟩
      exact ⟨binding, .node present bound placed declared, makes⟩
    · rintro ⟨binding, ⟨present, bound, placed, declared⟩, makes⟩
      exact ⟨_, present, binding, bound, _, placed, declared, makes, rfl⟩
  | none =>
    have tags := fun hit : Hit Unit => declarationAt?_eq layouts content.toList hit.start
    rw [recover, scanTargets, mem_foldl_addNew, scanDeclarations, mem_resolve_bound tags,
      mem_flatTargets_iff]
    constructor
    · rintro (⟨hit, present, binding, bound, placement, placed, declared, makes, rfl⟩ |
        ⟨hit, present, makes, rfl⟩)
      · exact ⟨binding, .tag present bound placed declared, makes⟩
      · exact ⟨hit.value.binding, .flat present, makes⟩
    · rintro ⟨binding, stems, makes⟩
      cases stems with
      | tag present bound placed declared =>
        exact Or.inl ⟨_, present, binding, bound, _, placed, declared, makes, rfl⟩
      | flat present => exact Or.inr ⟨_, present, makes, rfl⟩

/-- What a route stems from is one of the bindings of its source, for nodes, tags and flat route
objects alike. -/
theorem Stems.bound {reading : Option Parsed} {content : String} {binding : Binding}
    (stems : Stems layouts content reading binding target) :
    binding ∈ bindings reading content := by
  cases stems with
  | node present bound => exact List.mem_filterMap.mpr ⟨_, present, bound⟩
  | tag present bound =>
    exact List.mem_append_left _ (List.mem_filterMap.mpr ⟨_, present, bound⟩)
  | flat present => exact List.mem_append_right _ (List.mem_map_of_mem present)

/-- The component of a binding's declaration is the one that its two names give, and the span does
not matter. -/
theorem Binding.component_declaration (binding : Binding) (layouts : List String)
    (start stop : Int) : (binding.declaration layouts start stop).component =
      (classify binding.top binding.inner layouts).1 := rfl

/-- A route stems from every binding of a source, with the component that the names of the binding
give, because everything declared is placed. -/
theorem exists_stems (layouts : List String) {reading : Option Parsed} {content : String}
    {binding : Binding} (bound : binding ∈ bindings reading content) :
    ∃ target, Stems layouts content reading binding target ∧
      target.component = (classify binding.top binding.inner layouts).1 := by
  cases reading with
  | some parsed =>
    obtain ⟨node, present, given⟩ := List.mem_filterMap.mp bound
    have declared := declarationOf?_eq layouts parsed node
    rw [given] at declared
    have listed : _ ∈ treeDeclarations layouts parsed :=
      List.mem_filterMap.mpr ⟨node, present, declared⟩
    obtain ⟨placement, placed, same⟩ := exists_mem_placeAll.mpr listed
    refine ⟨_, .node present given placed same, ?_⟩
    rw [Placement.route, same, Binding.component_declaration]
  | none =>
    rcases List.mem_append.mp bound with tag | flat
    · obtain ⟨hit, present, given⟩ := List.mem_filterMap.mp tag
      have declared := declarationAt?_eq layouts content.toList hit.start
      rw [given] at declared
      have listed : _ ∈ scanDeclarations layouts content.toList :=
        List.mem_filterMap.mpr ⟨hit, present, declared⟩
      obtain ⟨placement, placed, same⟩ := exists_mem_placeAll.mpr listed
      refine ⟨_, .tag present given placed same, ?_⟩
      rw [Placement.route, same, Binding.component_declaration]
    · obtain ⟨hit, present, rfl⟩ := List.mem_map.mp flat
      exact ⟨_, .flat present, rfl⟩

/-- The components of the routes of a source are those that its bindings make,
whatever way the source is read. -/
theorem exists_mem_recover {reading : Option Parsed} {content : String}
    {component : Option String} :
    (∃ target ∈ recover reading layouts content, target.component = component) ↔
      ∃ binding ∈ bindings reading content, binding.Makes layouts component := by
  constructor
  · rintro ⟨target, member, rfl⟩
    obtain ⟨binding, stems, makes⟩ := mem_recover_iff.mp member
    exact ⟨binding, stems.bound, makes⟩
  · rintro ⟨binding, bound, makes⟩
    obtain ⟨target, stems, shown⟩ := exists_stems layouts bound
    rw [makes.2] at shown
    exact ⟨target, mem_recover_iff.mpr ⟨binding, stems, shown ▸ makes⟩, shown⟩

end ScreenAtlas.Route
