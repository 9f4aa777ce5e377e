import MatchTape.Bytes.Binary32

/-!
# Walkers

A walker belongs to a player, stands somewhere on a plane and may have a target
toward which it walks two units of length a frame.
-/

namespace MatchTape.World

structure Point where
  x : Binary32
  y : Binary32
  deriving DecidableEq, Repr, Inhabited

structure Walker where
  owner : UInt8
  position : Point
  target : Option Point := none
  deriving DecidableEq, Repr, Inhabited

namespace Walker

def speed : Float32 := 2

/-- One frame of walking from a place toward another: the new place and whether
the other has been reached.  A target within reach is taken over bit for bit. -/
def stride (here goal : Point) : Point × Bool :=
  let dx := goal.x.value - here.x.value
  let dy := goal.y.value - here.y.value
  let distance := (dx * dx + dy * dy).sqrt
  if distance ≤ speed then
    (goal, true)
  else
    let scale := speed / distance
    (⟨.ofValue (here.x.value + dx * scale), .ofValue (here.y.value + dy * scale)⟩, false)

def step (walker : Walker) : Walker :=
  match walker.target with
  | none => walker
  | some goal =>
      let (position, reached) := stride walker.position goal
      { walker with position, target := if reached then none else some goal }

end Walker

end MatchTape.World
