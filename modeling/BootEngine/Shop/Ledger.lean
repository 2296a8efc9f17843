import BootEngine.Work.Step

/-!
# The ledger of the shop

What the components of the shop hold together: the orders, the articles that are out of stock, and
the number of events that have been sent. Orders are numbered from one as they are inserted, and are
not taken out again, whatever becomes of the transaction around them.

Contents:
* `Order`, `Ledger`: an order, and the ledger.
* `Action`, `Fault`, `host`: the ledger as an application that work acts on.
* `placing`: the work that places an order.
-/

namespace BootEngine.Shop

open Work (Host Step)

/-- An order of some pieces of an article. -/
structure Order where
  id : Nat
  sku : String
  quantity : Nat
  deriving DecidableEq, Repr, Inhabited

/-- What the components of the shop hold; the newest order stands last. -/
structure Ledger where
  outOfStock : List String
  orders : List Order
  sent : Nat
  deriving DecidableEq, Repr, Inhabited

/-- What an order asks of the components. -/
inductive Action where
  | check (sku : String)
  | insert (sku : String) (quantity : Nat)
  /-- Sends the event that an order has been placed. -/
  | send
  deriving DecidableEq, Repr

/-- The shop turns an order down only because the article is out of stock. -/
inductive Fault where
  | outOfStock (sku : String)
  deriving DecidableEq, Repr

/-- The message of a fault. -/
def Fault.message : Fault → String
  | outOfStock sku => "商品 " ++ sku ++ " 库存不足"

namespace Ledger

/-- A ledger without orders. -/
def opened (outOfStock : List String) : Ledger := ⟨outOfStock, [], 0⟩

/-- The article is not out of stock (`InventoryValidator.check`). -/
def check (l : Ledger) (sku : String) : Except Fault Unit :=
  if l.outOfStock.contains sku then .error (.outOfStock sku) else .ok ()

/-- The number of the next order. -/
def nextId (l : Ledger) : Nat := l.orders.length + 1

/-- Inserts an order under the next number (`OrderRepository.insert`). -/
def insert (sku : String) (quantity : Nat) (l : Ledger) : Ledger :=
  { l with orders := l.orders ++ [⟨l.nextId, sku, quantity⟩] }

/-- The numbers of orders go up by one. -/
@[simp] theorem nextId_insert (sku : String) (quantity : Nat) (l : Ledger) :
    (l.insert sku quantity).nextId = l.nextId + 1 := by simp [nextId, insert]

/-- Sends one more event. -/
def send (l : Ledger) : Ledger := { l with sent := l.sent + 1 }

/-- Acts on the ledger; an insertion answers with the number of the order. -/
def act : Action → Ledger → Except Fault Value × Ledger
  | .check sku, l => ((l.check sku).map fun _ => .null, l)
  | .insert sku quantity, l => (.ok (.int l.nextId), l.insert sku quantity)
  | .send, l => (.ok .null, l.send)

end Ledger

/-- The shop as an application that work acts on. -/
def host : Host where
  Action := Action
  State := Ledger
  Fault := Fault
  perform := Ledger.act
  faultMessage := Fault.message

/-- Places an order in a transaction of its own; the event is sent after the commit
    (`OrderService.place`). The value of the work is the number of the order. -/
def placing (sku : String) (quantity : Nat) : List (Step host) :=
  [.within .fresh
    [.perform (.check sku), .perform (.insert sku quantity), .defer true [.perform .send]]]

end BootEngine.Shop
