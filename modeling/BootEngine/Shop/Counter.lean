import BootEngine.Shop.Components
import BootEngine.Shop.Ledger
import BootEngine.Startup.Session

/-!
# The counter of the shop

A shop that has been started, and what can be asked of it. Every request looks the component up that
answers it; after the shop has been stopped it finds none.

Contents:
* `Counter`: a shop in use.
* `Counter.launch`: starts a shop.
* `Counter.order`, `Counter.orderAll`, `Counter.place`: placing orders.
* `Counter.check`, `Counter.count`, `Counter.sent`, `Counter.route`: questions.
* `Counter.armCommitFailure`, `Counter.close`: the rest.
-/

namespace BootEngine.Shop

open Startup (Session SessionEntry)
open Transaction (Source)
open Work (Step Outcome Verdict)

/-- A shop in use. -/
abbrev Counter := Session host

namespace Counter

/-- The ledger of a shop. -/
def ledger (c : Counter) : Ledger := c.world.host

/-- The articles that are out of stock by the settings. -/
def outOfStock (settings : Settings) : List String :=
  match (settings.component? Part.validator.shortName).map stockOptions with
  | some (.ok articles) => articles
  | _ => []

/-- Starts a shop, given its source of transactions, its configuration, and whether it keeps an
    audit trail. -/
def launch (source : Source) (config : List ConfigSource) (audited : Bool) :
    List Alert × Except StartupError Counter :=
  match (builder source config audited).executor true .still with
  | .error e => ([], .error e)
  | .ok executor =>
    let (trace, outcome, executor) := executor.execute
    (trace.filterMap Startup.Entry.alert?, outcome.map fun app =>
      .start app executor source (.opened (outOfStock app.settings)))

/-- Looks a component up before it is used. -/
def find (c : Counter) (p : Part) : Except DependencyError Unit :=
  (c.application.registry.typed p.kind none p.typeName).map fun _ => ()

/-- How a request ends: the component is not found, or it answers. -/
abbrev Reply (α : Type) := List Alert × Except DependencyError α × Counter

/-- Runs work after a component has been found, and picks an answer from what has been noted and
    from how the work has ended. -/
def run {α : Type} (p : Part) (steps : List (Step host))
    (pick : List (SessionEntry host) → Verdict host → α) (c : Counter) : Reply α :=
  match c.find p with
  | .error e => ([], .error e, c)
  | .ok () =>
    let (entries, verdict, c) := c.work steps
    (entries.filterMap SessionEntry.alert?, .ok (pick entries verdict), c)

/-- The service places an order. -/
def place (sku : String) (quantity : Nat) (c : Counter) : Reply (Verdict host) :=
  c.run .service (placing sku quantity) fun _ verdict => verdict

/-- The handler takes an order of one piece. -/
def order (sku : String) (c : Counter) : Reply (Verdict host) :=
  c.run .handler (placing sku 1) fun _ verdict => verdict

/-- The outcome of a branch. -/
def branchOutcome? (index : Nat) : SessionEntry host → Option (Outcome host)
  | .work (.branch i outcome) => if i = index then some outcome else none
  | _ => none

/-- The handler takes orders of one piece side by side; the outcomes stand in the order of the
    orders. -/
def orderAll (skus : List String) (c : Counter) : Reply (List (Outcome host)) :=
  c.run .handler [.join (skus.map fun sku => placing sku 1)] fun entries _ =>
    (List.range skus.length).filterMap fun index => entries.findSome? (branchOutcome? index)

/-- Asks a component. -/
def ask {α : Type} (p : Part) (answer : Ledger → α) (c : Counter) : Except DependencyError α :=
  (c.find p).map fun _ => answer c.ledger

/-- The validator checks an article. -/
def check (sku : String) (c : Counter) : Except DependencyError (Except Fault Unit) :=
  c.ask .validator (·.check sku)

/-- The number of orders in the repository. -/
def count (c : Counter) : Except DependencyError Nat := c.ask .repository (·.orders.length)

/-- The number of events that the notifier has sent. -/
def sent (c : Counter) : Except DependencyError Nat := c.ask .notifier (·.sent)

/-- The route of the handler. -/
def route (c : Counter) : Except DependencyError String := c.ask .handler fun _ => "POST /orders"

/-- Makes the next commit fail. -/
def armCommitFailure (c : Counter) : Counter :=
  { c with world := { c.world with source := c.world.source.armCommitFailure } }

/-- Stops the shop. -/
def close (c : Counter) : List Alert × Except StartupError Unit × Counter :=
  let (entries, outcome, c) := c.stop
  (entries.filterMap SessionEntry.alert?, outcome, c)

end Counter

end BootEngine.Shop
