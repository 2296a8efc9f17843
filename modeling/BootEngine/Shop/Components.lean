import BootEngine.Construction.Factory
import BootEngine.Discovery.Manifest
import BootEngine.Reading.Strict
import BootEngine.Startup.Builder

/-!
# The components of the shop

A web handler passes orders to a service, which checks them, stores them, and tells a notifier. The
articles that are out of stock stand in the configuration.

Contents:
* `Part`: the components, each with its kind and its type.
* `stockOptions`: how the section of the validator is read.
* `manifest`, `audit`: what the shop is made of.
* `pooled`: its source of transactions.
* `builder`: the parts of a shop that has not been started.
-/

namespace BootEngine.Shop

open Component (Kind Instance Disposer)
open Startup (Builder Feature)
open Transaction (Pool Source)

/-- A component of the shop. -/
inductive Part where
  | service
  | repository
  | validator
  | notifier
  | handler
  | auditTrail
  deriving DecidableEq, Repr

namespace Part

/-- The kind of a component. -/
def kind : Part → Kind
  | service => .service
  | repository => .repository
  | validator => .validator
  | notifier => .eventHandler
  | handler => .httpHandler
  | auditTrail => .initializer

/-- The short name of the type of a component. -/
def shortName : Part → String
  | service => "OrderService"
  | repository => "OrderRepository"
  | validator => "InventoryValidator"
  | notifier => "OrderNotifier"
  | handler => "OrderHandler"
  | auditTrail => "AuditTrail"

/-- The full name of the type of a component. -/
def typeName (p : Part) : String := "shop::" ++ p.shortName

/-- How a component gives back what it holds: only the repository has to be closed. -/
def disposer : Part → Option Disposer
  | repository => some ⟨none, none⟩
  | _ => none

/-- A definition of the component, given how it makes sure that it has what it works with. -/
def define (p : Part) (needs : List Component.Need)
    (prepare : Injection → Except DependencyError Unit) : Definition :=
  ⟨p.kind, p.typeName, none, needs, some fun i =>
    ([], (prepare i).map fun _ => ⟨p.typeName, i.descriptor.key.text, p.disposer⟩)⟩

end Part

/-- The section of the validator: the articles that are out of stock, none if it says nothing. -/
def stockOptions : Reading.Reader (List String) :=
  Reading.record "InventoryOptions" [("out_of_stock", Reading.check (Reading.listOf Reading.text))]
    fun fields => fields.orElse "out_of_stock" (Reading.listOf Reading.text) []

/-- The components that take orders. -/
def manifest : Manifest :=
  ⟨"shop.orders", [
    Part.service.define
      [⟨.repository, some "OrderRepository"⟩, ⟨.validator, none⟩,
        ⟨.eventHandler, some "OrderNotifier"⟩]
      fun i => do
        discard (i.resolve .repository "OrderRepository" Part.repository.typeName)
        discard (i.resolveAny .validator Part.validator.typeName)
        discard (i.resolve .eventHandler "OrderNotifier" Part.notifier.typeName)
        discard i.coordinator,
    Part.repository.define [] fun _ => .ok (),
    Part.validator.define [] fun i => discard (i.options stockOptions),
    Part.notifier.define [] fun _ => .ok (),
    Part.handler.define [⟨.service, some "OrderService"⟩] fun i =>
      discard (i.resolve .service "OrderService" Part.service.typeName)]⟩

/-- The feature that keeps an audit trail; it needs a coordinator. -/
def audit : Feature where
  id := "audit"
  provides := [Part.auditTrail.define [] fun _ => .ok ()]
  ready r := ([], if r.coordinator.isSome then .ok () else .error ⟨"事务协调器未注册"⟩)
  quiet := true

/-- The source of transactions of a shop: a pool of some size. -/
def pooled (size : Nat) : Source := .pool (Pool.ofSize "shop-db" size)

/-- The parts of a shop, given its source of transactions, its configuration, and whether it keeps
    an audit trail. -/
def builder (source : Source) (config : List ConfigSource) (audited : Bool) : Builder :=
  let b := (Builder.empty.scanRoot "shop").addManifest manifest
  let b := if audited then b.addFeature audit else b
  config.foldl (fun b document => b.addConfig document) (b.withSource source)

end BootEngine.Shop
