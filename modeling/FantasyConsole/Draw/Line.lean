import FantasyConsole.Draw.Segment

/-!
# Walking a line

The pixels of a line are found by stepping from one end to the other. An error term says on which
side of the ideal line the walk stands; at each step it decides whether the walk moves along the
first axis, along the second, or along both.
-/

namespace FantasyConsole

namespace Segment

/-- The larger of the two extents: the number of steps from one end to the other. -/
def steps (s : Segment) : Nat :=
  max (s.stop.x - s.start.x).natAbs (s.stop.y - s.start.y).natAbs

/-- Where the walk stands, and its error term. -/
structure Walk where
  place : Point
  error : Int
deriving DecidableEq, Repr

/-- The walk before its first step. -/
def walkStart (s : Segment) : Walk where
  place := s.start
  error := (s.stop.x - s.start.x).natAbs - (s.stop.y - s.start.y).natAbs

/-- One step of the walk. -/
def walkNext (s : Segment) (w : Walk) : Walk :=
  let dx : Int := (s.stop.x - s.start.x).natAbs
  let dy : Int := -(s.stop.y - s.start.y).natAbs
  let alongX := dy ≤ 2 * w.error
  let alongY := 2 * w.error ≤ dx
  { place :=
      { x := if alongX then w.place.x + (s.stop.x - s.start.x).sign else w.place.x
        y := if alongY then w.place.y + (s.stop.y - s.start.y).sign else w.place.y }
    error := w.error + (if alongX then dy else 0) + (if alongY then dx else 0) }

/-- The pixels from where the walk stands until it reaches the end of the segment, after at most
`bound` more steps. -/
def walkFrom (s : Segment) (bound : Nat) (w : Walk) : List Point :=
  match bound with
  | 0 => [w.place]
  | bound + 1 =>
    if w.place = s.stop then [w.place] else w.place :: s.walkFrom bound (s.walkNext w)

/-- The pixels of a line, from its start to its end. -/
def points (s : Segment) : List Point := s.walkFrom s.steps s.walkStart

end Segment

end FantasyConsole
