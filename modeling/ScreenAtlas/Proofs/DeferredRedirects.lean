import ScreenAtlas.Proofs.RouteAgreement
import ScreenAtlas.Proofs.RouteBindings

/-!
# Redirects among the routes of a source

A route that renders a redirect is left out, but of its binding only the rendered element
itself is looked at: behind a wrapper that postpones its rendering, a redirect is listed
like any other component. The routes with a redirect for a component are exactly these.
-/
namespace ScreenAtlas.Route

open ScreenAtlas.Script ScreenAtlas.Text

namespace Binding

/-- The route renders a redirect itself, not behind a wrapper. -/
def IsRedirect (binding : Binding) : Prop := ∃ name ∈ redirects, binding.top = some name

/-- The route postpones the rendering of what is inside. -/
def IsDeferred (binding : Binding) : Prop := ∃ name ∈ deferredWrappers, binding.top = some name

/-- The name of what is shown in the end, which is inside where a wrapper postpones it. -/
def shown (binding : Binding) : Option String :=
  binding.top.bind fun name =>
    if name ∈ deferredWrappers then binding.inner else some name

/-- A binding that makes a route renders no redirect, and the component is what is
shown in the end. -/
theorem Makes.direct {binding : Binding} {layouts : List String} {component : Option String}
    (makes : binding.Makes layouts component) :
    ¬ binding.IsRedirect ∧ component = binding.shown := by
  obtain ⟨path, top, inner⟩ := binding
  obtain ⟨_, kept⟩ := makes
  cases top with
  | none =>
    obtain ⟨rfl, _⟩ := Prod.mk.inj kept
    exact ⟨by rintro ⟨_, _, ⟨⟩⟩, rfl⟩
  | some name =>
    by_cases redirect : name ∈ redirects
    · simp [classify, redirect] at kept
    · constructor
      · rintro ⟨other, listed, named⟩
        obtain rfl : name = other := Option.some.inj named
        exact redirect listed
      · simp only [classify, List.contains_iff_mem, redirect, ↓reduceIte] at kept
        -- The layout wrappers decide only whether the route is left out.
        generalize (layouts.contains name && _) = alone at kept
        cases alone with
        | true => simp at kept
        | false => exact (Prod.mk.inj kept).1.symm

/-- A redirect behind a wrapper that postpones it makes a route, whatever the layout wrappers are,
because what is inside is never compared with the redirects. -/
theorem makes_of_deferred {binding : Binding} {name : String} (path : binding.path ≠ wildcard)
    (deferred : binding.IsDeferred) (redirect : name ∈ redirects)
    (inside : binding.inner = some name) (layouts : List String) :
    binding.Makes layouts (some name) := by
  refine ⟨path, ?_⟩
  obtain ⟨wrapper, postponing, top⟩ := deferred
  have apart : ∀ other ∈ deferredWrappers, other ∉ redirects := by decide
  have direct := apart wrapper postponing
  have other : name ≠ wrapper := fun same => direct (same ▸ redirect)
  simp [classify, top, inside, direct, postponing, other]

/-- What shows a redirect in the end and renders none itself has it behind a wrapper, as otherwise
it would render what it shows. -/
theorem deferred_of_shown {binding : Binding} {name : String} (redirect : name ∈ redirects)
    (direct : ¬ binding.IsRedirect) (shown : binding.shown = some name) :
    binding.IsDeferred ∧ binding.inner = some name := by
  obtain ⟨top, named, held⟩ := Option.bind_eq_some_iff.mp shown
  split at held
  · next postponing => exact ⟨⟨top, postponing, named⟩, held⟩
  · exact absurd ⟨top, Option.some.inj held ▸ redirect, named⟩ direct

end Binding

/-- A route never renders a redirect itself, and its component is a redirect exactly
when a wrapper postpones that: for every source, every way to read it and all layout
wrappers.

Proof: all passes list what bindings make. A binding that renders a redirect makes
nothing. Of the others only one that looks through a wrapper can show a redirect,
and this one is not left out for what it shows. -/
theorem redirects_are_listed_when_deferred (reading : Option Parsed) (layouts : List String)
    (content : String) :
    (∀ target ∈ recover reading layouts content, ∃ binding ∈ bindings reading content,
      binding.path ≠ wildcard ∧ ¬ binding.IsRedirect ∧ target.component = binding.shown) ∧
    (∀ name ∈ redirects,
      (∃ target ∈ recover reading layouts content, target.component = some name) ↔
        ∃ binding ∈ bindings reading content,
          binding.path ≠ wildcard ∧ binding.IsDeferred ∧ binding.inner = some name) := by
  constructor
  · intro target member
    obtain ⟨binding, bound, makes⟩ := exists_mem_recover.mp ⟨target, member, rfl⟩
    obtain ⟨direct, shown⟩ := makes.direct
    exact ⟨binding, bound, makes.1, direct, shown⟩
  · intro name redirect
    rw [exists_mem_recover]
    constructor
    · rintro ⟨binding, bound, makes⟩
      obtain ⟨direct, shown⟩ := makes.direct
      exact ⟨binding, bound, makes.1, Binding.deferred_of_shown redirect direct shown.symm⟩
    · rintro ⟨binding, bound, path, deferred, inside⟩
      exact ⟨binding, bound, Binding.makes_of_deferred path deferred redirect inside layouts⟩

namespace Markup

/-- A source with one route, which renders a redirect behind a wrapper. -/
def deferredRedirect : Source :=
  .single
    { path := some (.ofString "/old" (by decide), .double)
      element := .wrapped suspense (.single 'N' "avigate" (by decide) (by decide))
      elementFirst := false }
    .empty

/-- The redirect of the route is listed as a component by both passes, and so is that of a flat
route object. -/
theorem deferred_redirects_are_listed :
    String.ofList deferredRedirect.text =
        "<Route path=\"/old\" element=\x7b<Suspense><Navigate /></Suspense>\x7d />" ∧
      recover (some ⟨deferredRedirect.tree oneFragment, encode deferredRedirect.text⟩)
          layoutWrappers (String.ofList deferredRedirect.text) =
        [⟨"/old", some "Navigate"⟩] ∧
      recover none layoutWrappers (String.ofList deferredRedirect.text) =
        [⟨"/old", some "Navigate"⟩] ∧
      recover none layoutWrappers
          "[\x7b path: \"/old\", element: <Suspense><Redirect to=\"/\" /></Suspense> \x7d]" =
        [⟨"/old", some "Redirect"⟩] := by
  rw [Source.recover_tree, Source.recover_text]
  decide +kernel

end Markup

end ScreenAtlas.Route
