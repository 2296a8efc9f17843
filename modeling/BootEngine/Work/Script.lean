import BootEngine.Work.Run

/-!
# Scripts

Work programs of no particular application: the only fault is a failure with a text.

Contents:
* `scriptHost`: the application without actions.
-/

namespace BootEngine.Work

/-- An application without actions; its faults are texts. -/
def scriptHost : Host where
  Action := Empty
  State := Unit
  Fault := String
  perform := fun action _ => nomatch action
  faultMessage := id

end BootEngine.Work
