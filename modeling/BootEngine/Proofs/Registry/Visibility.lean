import Mathlib.Data.List.Nodup
import BootEngine.Construction.Recipe

/-!
# What a component sees of the others

A component that is being built sees of a registry what its needs admit, and nothing else: two
registries that differ elsewhere only, in what they hold and in where it stands, give it the same
answers, also when an answer is a failure. What it does not need it does not get from any registry.
So it is built in the same way over both.

Contents:
* `Registry.visible`, `LooksAlike`: what needs admit, and registries that agree on it.
* `LooksAlike.get_named`, `LooksAlike.get_any`: looking up what is needed.
* `LooksAlike.resolve`, `LooksAlike.resolveAny`: the requests of a component.
* `Recipe.factory_eq_of_looksAlike`: how a component is built.
* `sees_only_needs`: requests of a component in two registries, and requests that it has no need
  for.
-/

namespace BootEngine

open Component (Kind Key Need Instance Descriptor)

/-- The components of a registry that some need admits. -/
def Registry.visible (needs : List Need) (r : Registry) : List (Key × Instance) :=
  r.entries.filter fun entry => needs.any (·.admits entry.1)

/-- Open registries that hold the same components, in the same order, under the keys that some need
    admits. Elsewhere they may differ as they like. -/
structure LooksAlike (needs : List Need) (r s : Registry) : Prop where
  left : r.closed = false
  right : s.closed = false
  visible : r.visible needs = s.visible needs

/-! ## Looking up -/

/-- Entries that are left out do not matter for a key that is not left out. -/
theorem lookup_filter {entries : List (Key × Instance)} {p : Key → Bool} {key : Key}
    (hp : p key = true) : (entries.filter fun entry => p entry.1).lookup key = entries.lookup key := by
  induction entries with
  | nil => rfl
  | cons entry rest ih =>
    obtain ⟨other, item⟩ := entry
    by_cases he : key = other
    · subst he
      simp [hp]
    · have hne : (key == other) = false := by simpa using he
      by_cases ho : p other = true
      · simp [ho, List.lookup_cons, hne, ih]
      · simp [ho, List.lookup_cons, hne, ih]

/-- A component under a key that some need admits is visible. -/
theorem Registry.find?_eq_visible (r : Registry) {needs : List Need} {key : Key}
    (hkey : needs.any (·.admits key) = true) : r.find? key = (r.visible needs).lookup key := by
  exact (lookup_filter (p := fun key => needs.any (·.admits key)) hkey).symm

/-- Where any component of a kind is needed, all of that kind are visible. -/
theorem Registry.ofKind_eq_visible (r : Registry) {needs : List Need} {kind : Kind}
    (hkind : Need.any kind ∈ needs) :
    r.ofKind kind = (r.visible needs).filter fun entry => entry.1.kind == kind := by
  rw [ofKind, visible, List.filter_filter]
  apply List.filter_congr
  intro entry _
  by_cases he : entry.1.kind = kind
  · have hadmits : needs.any (·.admits entry.1) = true :=
      List.any_eq_true.mpr ⟨_, hkind, (Need.admits_any kind entry.1).mpr he⟩
    simp [he, hadmits]
  · simp [he]

namespace LooksAlike

variable {needs : List Need} {r s : Registry}

/-- What is needed is found under its key in both or in neither. -/
theorem get_named (h : LooksAlike needs r s) {kind : Kind} {name : String}
    (hkey : needs.any (·.admits ⟨kind, name⟩) = true) :
    r.get kind (some name) = s.get kind (some name) := by
  have hfind : r.find? ⟨kind, name⟩ = s.find? ⟨kind, name⟩ := by
    rw [r.find?_eq_visible hkey, s.find?_eq_visible hkey, h.visible]
  simp only [Registry.get, h.left, h.right, hfind]

/-- Where any component of a kind is needed, both have the same ones to choose from. -/
theorem get_any (h : LooksAlike needs r s) {kind : Kind} (hkind : Need.any kind ∈ needs) :
    r.get kind none = s.get kind none := by
  have hof : r.ofKind kind = s.ofKind kind := by
    rw [r.ofKind_eq_visible hkind, s.ofKind_eq_visible hkind, h.visible]
  simp only [Registry.get, h.left, h.right, hof]

end LooksAlike

/-! ## Requests -/

namespace LooksAlike

variable {d : Descriptor} {r s : Registry} (v w : Option Value)

/-- A request by name has the same answer. -/
theorem resolve (h : LooksAlike d.needs r s) (kind : Kind) (name typeName : String) :
    (Injection.mk d r v).resolve kind name typeName =
      (Injection.mk d s w).resolve kind name typeName := by
  by_cases hkey : d.needs.any (·.admits ⟨kind, name⟩) = true
  · simp only [Injection.resolve, if_pos hkey, Registry.typed, h.get_named hkey]
  · simp only [Injection.resolve, if_neg hkey]
    rfl

/-- A request by kind has the same answer. -/
theorem resolveAny (h : LooksAlike d.needs r s) (kind : Kind) (typeName : String) :
    (Injection.mk d r v).resolveAny kind typeName =
      (Injection.mk d s w).resolveAny kind typeName := by
  simp only [Injection.resolveAny]
  cases hfind : d.needs.find? (·.kind == kind) with
  | none => rfl
  | some need =>
    have hin : need ∈ d.needs := List.mem_of_find?_eq_some hfind
    have hkind : need.kind = kind := by simpa using List.find?_some hfind
    have hget : r.get kind need.name = s.get kind need.name := by
      obtain ⟨other, name⟩ := need
      obtain rfl : other = kind := hkind
      cases name with
      | none => exact h.get_any hin
      | some name =>
        apply h.get_named
        exact List.any_eq_true.mpr ⟨_, hin, (Need.admits_named other name _).mpr rfl⟩
    simp only [Registry.typed, hget]

end LooksAlike

/-- A request by name that no need admits fails, whatever the registry holds. -/
theorem Injection.resolve_undeclared (i : Injection) {kind : Kind} {name : String}
    (hnone : ∀ need ∈ i.descriptor.needs, need.admits ⟨kind, name⟩ = false) (typeName : String) :
    i.resolve kind name typeName = .error (.undeclared i.descriptor.key.text
      (Component.requestText kind (some name))) := by
  have hno : ¬ i.descriptor.needs.any (·.admits ⟨kind, name⟩) = true := by
    simpa using hnone
  rw [resolve, if_neg hno, undeclared]

/-- A request by kind for which there is no need fails, whatever the registry holds. -/
theorem Injection.resolveAny_undeclared (i : Injection) {kind : Kind}
    (hnone : ∀ need ∈ i.descriptor.needs, need.kind ≠ kind) (typeName : String) :
    i.resolveAny kind typeName = .error (.undeclared i.descriptor.key.text
      (Component.requestText kind none)) := by
  have hno : i.descriptor.needs.find? (·.kind == kind) = none := by
    simpa using hnone
  simp only [resolveAny, hno, undeclared]

/-! ## Building -/

section Building

variable {d : Descriptor} {r s : Registry} {v : Option Value}

/-- A step of a recipe comes by the same. -/
theorem RecipeStep.take_eq_of_looksAlike (h : LooksAlike d.needs r s)
    (hsource : r.dataSource = s.dataSource) (hcoordinator : r.coordinator = s.coordinator)
    (step : RecipeStep) : step.take ⟨d, r, v⟩ = step.take ⟨d, s, v⟩ := by
  induction step with
  | resolve kind name typeName => simp only [take, h.resolve v v]
  | resolveAny kind typeName => simp only [take, h.resolveAny v v]
  | dataSource => simp only [take, Injection.dataSource, hsource]
  | coordinator => simp only [take, Injection.coordinator, hcoordinator]
  | attempt step ih => simp only [take, ih]
  | _ => rfl

/-- A component is built in the same way over registries that look alike to it. -/
theorem Recipe.factory_eq_of_looksAlike (h : LooksAlike d.needs r s)
    (hsource : r.dataSource = s.dataSource) (hcoordinator : r.coordinator = s.coordinator)
    (recipe : Recipe) : recipe.factory ⟨d, r, v⟩ = recipe.factory ⟨d, s, v⟩ := by
  have hfollow : ∀ steps, follow ⟨d, r, v⟩ steps = follow ⟨d, s, v⟩ steps := by
    intro steps
    induction steps with
    | nil => rfl
    | cons step rest ih =>
      simp only [follow, RecipeStep.take_eq_of_looksAlike h hsource hcoordinator, ih]
  simp only [Recipe.factory, hfollow]

end Building

/-! ## Two registries -/

/-- A component sees of the others what it needs: over open registries that hold the same components
    in the same order under the keys that its needs admit, every request has the same answer, a
    component or a failure; and a request that no need admits fails over every registry, with the
    component and the request named. -/
theorem sees_only_needs (d : Descriptor) :
    (∀ (r s : Registry) (v w : Option Value), LooksAlike d.needs r s →
      (∀ kind name typeName, (Injection.mk d r v).resolve kind name typeName =
        (Injection.mk d s w).resolve kind name typeName) ∧
      ∀ kind typeName, (Injection.mk d r v).resolveAny kind typeName =
        (Injection.mk d s w).resolveAny kind typeName) ∧
    ∀ (r : Registry) (v : Option Value),
      (∀ kind name typeName, (∀ need ∈ d.needs, need.admits ⟨kind, name⟩ = false) →
        (Injection.mk d r v).resolve kind name typeName = .error (.undeclared d.key.text
          (Component.requestText kind (some name)))) ∧
      ∀ kind typeName, (∀ need ∈ d.needs, need.kind ≠ kind) →
        (Injection.mk d r v).resolveAny kind typeName = .error (.undeclared d.key.text
          (Component.requestText kind none)) := by
  refine ⟨fun r s v w h => ⟨?_, ?_⟩, fun r v => ⟨?_, ?_⟩⟩
  · intro kind name typeName
    exact h.resolve v w kind name typeName
  · intro kind typeName
    exact h.resolveAny v w kind typeName
  · intro kind name typeName hnone
    exact (Injection.mk d r v).resolve_undeclared hnone typeName
  · intro kind typeName hnone
    exact (Injection.mk d r v).resolveAny_undeclared hnone typeName

/-- A handler that needs the prices by name and whatever service there is. -/
def checkout : Descriptor :=
  ⟨.httpHandler, "Checkout", none, [.named .repository "prices", .any .service], .feature "web"⟩

/-- A registry that has what the handler needs. -/
def smallShop : Registry :=
  ⟨[(⟨.repository, "prices"⟩, ⟨"app::PriceList", "p", none⟩),
    (⟨.service, "Cart"⟩, ⟨"app::Cart", "c", none⟩)], none, none, false⟩

/-- A registry that has more than that, also a repository that the handler did not ask for. -/
def largeShop : Registry :=
  ⟨[(⟨.validator, "Clock"⟩, ⟨"app::Clock", "k", none⟩),
    (⟨.repository, "prices"⟩, ⟨"app::PriceList", "p", none⟩),
    (⟨.repository, "orders"⟩, ⟨"app::OrderList", "o", none⟩),
    (⟨.service, "Cart"⟩, ⟨"app::Cart", "c", none⟩)], some "main", none, false⟩

theorem sees_only_needs_checkout :
    LooksAlike checkout.needs smallShop largeShop ∧ smallShop ≠ largeShop ∧
      (∀ typeName, (Injection.mk checkout smallShop none).resolve .repository "prices" typeName =
        (Injection.mk checkout largeShop none).resolve .repository "prices" typeName) ∧
      (∀ typeName, (Injection.mk checkout smallShop none).resolveAny .service typeName =
        (Injection.mk checkout largeShop none).resolveAny .service typeName) ∧
      (∀ typeName, (Injection.mk checkout largeShop none).resolve .repository "orders" typeName =
        .error (.undeclared "HttpHandler:Checkout" "Repository:orders")) ∧
      ∀ typeName, (Injection.mk checkout largeShop none).resolveAny .validator typeName =
        .error (.undeclared "HttpHandler:Checkout" "Validator:*") := by
  have halike : LooksAlike checkout.needs smallShop largeShop := ⟨rfl, rfl, by decide⟩
  have hsame := (sees_only_needs checkout).1 smallShop largeShop none none halike
  have hrefused := (sees_only_needs checkout).2 largeShop none
  refine ⟨halike, by decide, hsame.1 _ _, hsame.2 _, ?_, ?_⟩
  · intro typeName
    exact hrefused.1 .repository "orders" typeName (by decide)
  · intro typeName
    exact hrefused.2 .validator typeName (by decide)

end BootEngine
