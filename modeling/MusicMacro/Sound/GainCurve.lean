import MusicMacro.Scalar

/-!
# Gain curves

The loudness of a tone over time is a curve through a few points: constant before the first and after the last, and
linear in between.

* `GainCurve` : at most eight points, kept in the order of their times;
* `GainCurve.insert?` : one more point, after those of the same time, if there is room;
* `GainCurve.valueAt?` : the gain at a time, by the points on both sides of it;
* `bisect` : the search that finds those points.
-/

namespace MusicMacro

/-! ## Searching an ordered list -/

/-- The number of elements at the start of a list that satisfy a condition, found by halving: `base` elements are known
to satisfy it, and the first of the next `size` that does not is looked for. -/
def bisectFrom {α : Type} (p : α → Bool) (xs : List α) (base size : Nat) : Nat :=
  if size ≤ 1 then
    if (xs[base]?).any p then base + 1 else base
  else
    let half := size / 2
    if (xs[base + half]?).any p then bisectFrom p xs (base + half) (size - half)
    else bisectFrom p xs base (size - half)
termination_by size

/-- The place in a list before which a condition holds and after which it does not. -/
def bisect {α : Type} (p : α → Bool) (xs : List α) : Nat := bisectFrom p xs 0 xs.length

/-! ## Curves -/

/-- A gain to reach at a time. -/
structure GainPoint (R : Type) where
  time : R
  value : R
  deriving DecidableEq, Repr

/-- A gain that changes over time. -/
structure GainCurve (R : Type) where
  points : List (GainPoint R)
  length_le : points.length ≤ 8

namespace GainCurve
variable {R : Type}

def empty : GainCurve R := ⟨[], by simp⟩

variable [Scalar R]

/-- The number of points at the start of a curve that are not after a time. -/
def countUpTo (points : List (GainPoint R)) (time : R) : Nat := bisect (fun p => decide (p.time ≤ time)) points

/-- A list of points with one more, after those that are not later. -/
def insertPoint (points : List (GainPoint R)) (p : GainPoint R) : List (GainPoint R) :=
  let place := countUpTo points p.time
  points.take place ++ p :: points.drop place

omit [Scalar R] in
theorem length_take_append_drop (points : List (GainPoint R)) (p : GainPoint R) (place : Nat) :
    (points.take place ++ p :: points.drop place).length = points.length + 1 := by
  simp only [List.length_append, List.length_cons, List.length_take, List.length_drop]
  omega

theorem length_insertPoint (points : List (GainPoint R)) (p : GainPoint R) :
    (insertPoint points p).length = points.length + 1 := length_take_append_drop ..

/-- The curve with one more point, if there is room for it. -/
def insert? (c : GainCurve R) (p : GainPoint R) : Option (GainCurve R) :=
  if h : c.points.length < 8 then
    some ⟨insertPoint c.points p, by rw [length_insertPoint]; omega⟩
  else none

/-- The gain on the straight line through two points. -/
def interpolate (p q : GainPoint R) (time : R) : R :=
  p.value + (q.value - p.value) * (time - p.time) / (q.time - p.time)

/-- The gain at a time: full without any points, the first gain up to the first point, the last gain from the last
point on, and on a straight line in between. A time that is after no point and yet not before the first has none. -/
def valueAt? (c : GainCurve R) (time : R) : Option R :=
  match c.points with
  | [] => some ((1 : Nat) : R)
  | first :: _ =>
    if time ≤ first.time then some first.value
    else
      let next := countUpTo c.points time
      match c.points[next]? with
      | none => c.points.getLast?.map GainPoint.value
      | some after =>
        if next = 0 then none
        else (c.points[next - 1]?).map fun before => interpolate before after time

end GainCurve

end MusicMacro
