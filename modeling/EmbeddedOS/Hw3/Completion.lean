import EmbeddedOS.Hw3.RoundSteps

namespace EmbeddedOS.Hw3.Rounds

open CText Runs Receiving

variable {b : Boot} {p : Script}

def Thread.work : Thread → ℕ
  | .ended => 0
  | .reading => 1
  | .writing pending => 2 + 2 * pending.length

def Line.work (l : Line) : ℕ :=
  200 * (l.commands.length + if l.connected then 1 else 0) + (if l.up = [] then 0 else 10) +
    (if l.down = [] then 0 else 1) + l.thread.work

/-- The visits that are left of the round. A round whose first loop has nothing more to do is paid in advance. -/
def World.ahead (w : World) : ℕ :=
  match w.phase with
  | .sending i => 31 + (30 - i) + if ∃ j : Fin 30, i ≤ j ∧ (w.lines j).connected = true then 0 else 100
  | .receiving i => 100 + (30 - i)
  | .purchasing i => 100 + (30 - i)
  | .finished => 0

def World.work (w : World) : ℕ := ∑ k, (w.lines k).work + w.ahead

end EmbeddedOS.Hw3.Rounds
