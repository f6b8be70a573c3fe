import WindowSurvey.Remote.Script
/-!
# Navigation

A region remembers the round in which it was first seen. To bring its window to the front from the
window that a run began with, the windows are switched as many times.

## Main definitions

* `Navigation.cycles` — how many switches lead to a selected region
* `Navigation.script` — the plan of that many switches
-/

namespace WindowSurvey.Navigation

/-- The switches that lead to the selected region with a given index. -/
def cycles (selected : List Region) (index : Nat) : Except Failure Nat :=
  match selected[index]? with
  | some region => .ok region.cycle
  | none => .error (.navigation ("window " ++ toString index ++ " is out of range ("
      ++ toString selected.length ++ " selected)"))

/-- The plan of a number of switches, each followed by a wait. -/
def script (settle : Nat) : Nat → Script (Except Failure Unit)
  | 0 => .done (.ok ())
  | count + 1 => .advance fun
    | .error failure => .done (.error failure.duringNavigation)
    | .ok () => .wait settle (script settle count)

end WindowSurvey.Navigation
