import BootEngine.Failure
import BootEngine.Transaction.Source
import BootEngine.Value

/-!
# Work programs

What a unit of work does, as data: actions on the application, waiting, cancelling, scopes of
transactions inside one another, effects put off until the commit, time limits, and branches that
run side by side. The application itself is a parameter; a program is data over its actions, so that
every statement about programs can go by recursion on them.

Contents:
* `Host`: an application that work acts on.
* `Failure`, `Outcome`: how a piece of work ends.
* `Step`: one step of a work program.
* `Step.cost`: a bound on what a step can still do.
-/

namespace BootEngine.Work

open Transaction (Terminal)

/-- An application that work programs act on: its actions, its state, and the faults that an action
    can end with. An action answers with a value. -/
structure Host where
  Action : Type
  State : Type
  Fault : Type
  perform : Action → State → Except Fault Value × State
  faultMessage : Fault → String

/-- A piece of work fails by a fault of the application, or because of its transaction. -/
inductive Failure (Fault : Type) where
  | fault (f : Fault)
  | transaction (e : TransactionError)
  deriving Repr

/-- How a piece of work ends that neither panics nor is dropped. -/
abbrev Outcome (H : Host) := Except (Failure H.Fault) Value

/-- The message of a failure. -/
def Failure.message (H : Host) : Failure H.Fault → String
  | .fault f => H.faultMessage f
  | .transaction e => e.message

/-- What a step writes down about its unit of work or its source. -/
inductive Probe where
  | state
  | describe
  | transaction
  | token
  | source
  deriving DecidableEq, Repr

/-- The unit of work of a scope: the one that runs the step, or a fresh one. -/
inductive Place where
  | here
  | fresh
  deriving DecidableEq, Repr

/-- How the outcome of an inner program is written down, and whether its failure ends the program
    around it. A `strict` scope passes failures on and writes down successes, a `passing` program
    passes failures on and writes nothing down; all others go on after any outcome. -/
inductive Report where
  | strict
  | lenient
  | coordinator
  | unit (name : String)
  | passing
  deriving DecidableEq, Repr

/-- One step of a work program. -/
inductive Step (H : Host) where
  /-- Acts on the application; a fault ends the program, and an answer becomes its value. -/
  | perform (action : H.Action)
  /-- Writes down a value. -/
  | note (value : Value)
  /-- Writes down that an effect runs. -/
  | announce (id : Value)
  /-- Writes down what can be seen of the unit of work or its source. -/
  | probe (what : Probe)
  /-- Ends the program with a value. -/
  | give (value : Value)
  /-- Ends the program with a fault. -/
  | fail (fault : H.Fault)
  /-- Panics. -/
  | panic
  /-- Waits for a span of time; no time at all is no wait. -/
  | sleep (ms : Nat)
  /-- Lets everything else run once. -/
  | yield
  /-- Cancels this unit of work, or the one with a name. -/
  | cancel (unit : Option String)
  /-- Makes the next commit of a pooled source fail. -/
  | armCommitFailure
  /-- Ends the physical transaction directly. -/
  | finish (terminal : Terminal)
  /-- Runs a program inside a transaction scope. -/
  | scope (place : Place) (report : Report) (body : List (Step H))
  /-- Runs a program inside a transaction scope and ends with the scope's outcome. -/
  | within (place : Place) (body : List (Step H))
  /-- Runs a program inside a transaction scope that is dropped when a time limit is over. -/
  | timeout (ms : Nat) (body : List (Step H))
  /-- Runs a program inside a transaction scope whose panic does not go further. -/
  | catchPanic (body : List (Step H))
  /-- Puts an effect off until the commit; outside a scope a strict one fails. -/
  | defer (strict : Bool) (effect : List (Step H))
  /-- Runs a program on the unit of work with a name. -/
  | onUnit (name : String) (body : List (Step H))
  /-- Runs a program a number of times. -/
  | iterate (count : Nat) (body : List (Step H))
  /-- Runs programs side by side. -/
  | join (branches : List (List (Step H)))

mutual

/-- A bound on the number of things that a step can still do. -/
def Step.cost {H : Host} : Step H → Nat
  | .scope _ _ body => 8 + Step.costAll body
  | .within _ body => 8 + Step.costAll body
  | .timeout _ body => 9 + Step.costAll body
  | .catchPanic body => 9 + Step.costAll body
  | .defer _ effect => 4 + Step.costAll effect
  | .onUnit _ body => 4 + Step.costAll body
  | .iterate count body => 4 + count * (4 + Step.costAll body)
  | .join branches => 4 + Step.costBranches branches
  | _ => 4

/-- The bound for a program. -/
def Step.costAll {H : Host} : List (Step H) → Nat
  | [] => 4
  | step :: rest => step.cost + Step.costAll rest

/-- The bound for programs side by side. -/
def Step.costBranches {H : Host} : List (List (Step H)) → Nat
  | [] => 4
  | branch :: rest => 4 + Step.costAll branch + Step.costBranches rest

end

end BootEngine.Work
