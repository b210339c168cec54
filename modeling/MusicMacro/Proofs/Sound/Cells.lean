import MusicMacro.Proofs.Scalar.Gradual
import MusicMacro.Proofs.Sound.Curve

/-!
# Curves in cells

A gain curve is stored in eight cells, and it is read and changed by index. Here every index is checked, and so is every
divisor: an operation has no result if one of them is not what it should be.

* `slice?`, `writeAt?`, `setAt?`, `minus?`, `divide?`, `clockSum?`, `quotient?` : reading, writing and reckoning that
  can go wrong;
* `CurveCells` : the eight cells of a curve; `CurveCells.insert?` and `CurveCells.valueAt?` : the operations on them;
* `GainCurve.insert?_cells` : a point is inserted without harm into any curve in order;
* `GainCurve.valueAt?_cells_eq_none` : a value cannot be found at a time that cannot be compared with the points;
* `GainCurve.Timely` : points in order, at finite times; `Timely.insert?` : a new point does not harm the order;
* `GainCurve.Timely.valueAt?_cells` : at every time that is a number a timely curve has a value, which is found.
-/

namespace MusicMacro

/-! ## What can go wrong -/

section Checked
variable {α : Type}

def slice? (xs : List α) (first last : Nat) : Option (List α) :=
  if first ≤ last ∧ last ≤ xs.length then some ((xs.take last).drop first) else none

def writeAt? (xs : List α) (first : Nat) (ys : List α) : Option (List α) :=
  if first + ys.length ≤ xs.length then some (xs.take first ++ ys ++ xs.drop (first + ys.length)) else none

def setAt? (xs : List α) (i : Nat) (x : α) : Option (List α) := if i < xs.length then some (xs.set i x) else none

def minus? (m n : Nat) : Option Nat := if n ≤ m then some (m - n) else none

def divide? (m n : Nat) : Option Nat := if n = 0 then none else some (m / n)

/-- A sum of counts of frames, which are held in 64 bits. -/
def clockSum? (m n : Nat) : Option Nat := if m + n < 2 ^ 64 then some (m + n) else none

def quotient? {R : Type} [Scalar R] (x y : R) : Option R := if Scalar.IsZero y then none else some (x / y)

theorem slice?_append (front middle back : List α) :
    slice? (front ++ middle ++ back) front.length (front.length + middle.length) = some middle := by
  have hroom : front.length + middle.length ≤ (front ++ middle ++ back).length := by simp
  rw [slice?, if_pos ⟨Nat.le_add_right _ _, hroom⟩, ← List.length_append, List.take_left, List.drop_left]

theorem slice?_front (front back : List α) : slice? (front ++ back) 0 front.length = some front := by
  have hslice := slice?_append [] front back
  rwa [List.nil_append, List.length_nil, Nat.zero_add] at hslice

theorem writeAt?_append (front middle back : List α) {ys : List α} (h : ys.length = middle.length) :
    writeAt? (front ++ middle ++ back) front.length ys = some (front ++ ys ++ back) := by
  have hroom : front.length + ys.length ≤ (front ++ middle ++ back).length := by simp [h]
  rw [writeAt?, if_pos hroom, h, ← List.length_append, List.drop_left, List.append_assoc front middle, List.take_left]

theorem setAt?_append (front back : List α) (x y : α) :
    setAt? (front ++ x :: back) front.length y = some (front ++ y :: back) := by
  rw [setAt?, if_pos (by simp), List.set_append_right _ _ (Nat.le_refl _), Nat.sub_self, List.set_cons_zero]

end Checked

/-! ## Eight cells -/

/-- A curve as it is stored: eight cells, the first of which hold points. -/
structure CurveCells (R : Type) where
  cells : List (GainPoint R)
  used : Nat

namespace CurveCells
variable {R : Type} [Scalar R]

def points? (c : CurveCells R) : Option (List (GainPoint R)) := slice? c.cells 0 c.used

def curve? (c : CurveCells R) : Option (GainCurve R) := do
  let points ← c.points?
  if h : points.length ≤ 8 then some ⟨points, h⟩ else none

/-- Adds a point, if a cell is left, and says whether there was one. -/
def insert? (c : CurveCells R) (p : GainPoint R) : Option (Bool × CurveCells R) := do
  if c.used = 8 then
    return (false, c)
  let points ← c.points?
  let place := GainCurve.countUpTo points p.time
  let later ← slice? c.cells place c.used
  let moved ← writeAt? c.cells (place + 1) later
  let cells ← setAt? moved place p
  return (true, ⟨cells, c.used + 1⟩)

def valueAt? (c : CurveCells R) (time : R) : Option R := do
  let points ← c.points?
  match points.head? with
  | none => return ((1 : Nat) : R)
  | some first =>
    if time ≤ first.time then
      return first.value
    let next := GainCurve.countUpTo points time
    if points.length ≤ next then
      let final ← minus? points.length 1
      let last ← points[final]?
      return last.value
    let previous ← minus? next 1
    let before ← points[previous]?
    let after ← points[next]?
    let rise ← quotient? ((after.value - before.value) * (time - before.time)) (after.time - before.time)
    return before.value + rise

end CurveCells

namespace GainCurve
variable {R : Type} [Scalar R]

/-- A cell that is not in use. -/
def blank : GainPoint R := ⟨((0 : Nat) : R), ((0 : Nat) : R)⟩

/-- The cells of a curve. -/
def cells (c : GainCurve R) : CurveCells R :=
  ⟨c.points ++ List.replicate (8 - c.points.length) blank, c.points.length⟩

theorem points?_cells (c : GainCurve R) : c.cells.points? = some c.points := slice?_front _ _

theorem curve?_cells (c : GainCurve R) : c.cells.curve? = some c := by
  simp only [CurveCells.curve?, points?_cells, Option.bind_eq_bind, Option.bind_some, dif_pos c.length_le]

/-- The points behind a place move by one cell, the last of them into a cell that is not in use. -/
theorem insert?_mk {front back rest : List (GainPoint R)} {p z : GainPoint R} (hroom : (front ++ back).length < 8)
    (hplace : countUpTo (front ++ back) p.time = front.length) :
    (CurveCells.mk (front ++ back ++ z :: rest) (front ++ back).length).insert? p =
      some (true, ⟨front ++ p :: back ++ rest, (front ++ back).length + 1⟩) := by
  -- one more cell than `back` fills, from the place on: the first is set and `back` goes into the others
  have hmore : back ++ [z] ≠ [] := List.append_ne_nil_of_right_ne_nil back (List.cons_ne_nil z [])
  obtain ⟨x, middle, hcut⟩ := List.exists_cons_of_ne_nil hmore
  have hlength : back.length = middle.length := by
    have := congrArg List.length hcut
    simpa using this
  have hcells : front ++ back ++ z :: rest = front ++ [x] ++ middle ++ rest := by
    rw [List.append_cons, List.append_assoc front, hcut]
    simp
  have hlater : slice? (front ++ back ++ z :: rest) front.length (front ++ back).length = some back := by
    rw [List.length_append]
    exact slice?_append front back (z :: rest)
  have hmoved : writeAt? (front ++ back ++ z :: rest) (front.length + 1) back =
      some (front ++ x :: (back ++ rest)) := by
    rw [hcells, show front.length + 1 = (front ++ [x]).length by simp, writeAt?_append _ _ _ hlength]
    simp
  have hset : setAt? (front ++ x :: (back ++ rest)) front.length p = some (front ++ p :: back ++ rest) := by
    rw [setAt?_append]
    simp
  rw [CurveCells.insert?, if_neg (Nat.ne_of_lt hroom), CurveCells.points?, slice?_front]
  simp only [Option.bind_eq_bind, Option.bind_some, hplace, hlater, hmoved, hset]
  rfl

/-- Inserting a point goes well, and it comes to its place. A full curve stays as it is. -/
theorem insert?_cells [IsTrans R (· ≤ ·)] {c : GainCurve R} (h : Sorted c.points) (p : GainPoint R) :
    c.cells.insert? p = some (((c.insert? p).map fun d => (true, d.cells)).getD (false, c.cells)) := by
  rcases c with ⟨points, hle⟩
  by_cases hfull : points.length = 8
  · have hnone : (GainCurve.mk points hle).insert? p = none := dif_neg (by simp [hfull])
    rw [hnone]
    exact if_pos hfull
  · have hroom : points.length < 8 := by omega
    have hsome : (GainCurve.mk points hle).insert? p = some _ := dif_pos hroom
    have hparts := List.takeWhile_append_dropWhile (p := fun q : GainPoint R => decide (q.time ≤ p.time)) (l := points)
    have hplace : countUpTo points p.time = _ := countUpTo_eq h p.time
    have hinsert : insertPoint points p = _ := insertPoint_eq h p
    have hblank : List.replicate (8 - points.length) (blank : GainPoint R) =
        blank :: List.replicate (8 - (points.length + 1)) blank := by
      rw [show 8 - points.length = 8 - (points.length + 1) + 1 by omega, List.replicate_succ]
    rw [hsome, cells, hblank]
    simp only [Option.map_some, Option.getD_some, cells, hinsert]
    generalize (points.takeWhile fun q => decide (q.time ≤ p.time)) = front at hparts hplace
    generalize (points.dropWhile fun q => decide (q.time ≤ p.time)) = back at hparts
    subst hparts
    have hmore : (front ++ p :: back).length = (front ++ back).length + 1 := by simp [Nat.add_assoc]
    rw [hmore]
    exact insert?_mk hroom hplace

/-! ## Curves that are in order -/

/-- Points in order, all of them at finite times. -/
structure Timely (c : GainCurve R) : Prop where
  sorted : Sorted c.points
  finite : ∀ p ∈ c.points, Scalar.isFinite p.time = true

theorem Timely.empty : Timely (empty : GainCurve R) := ⟨.nil, fun _ h => absurd h List.not_mem_nil⟩

/-- At a time that cannot be compared with the points there is no point before the time either: the search for a value
goes wrong there. -/
theorem valueAt?_cells_eq_none {c : GainCurve R} (hsome : c.points ≠ []) {time : R}
    (htime : ∀ p ∈ c.points, ¬ time ≤ p.time ∧ ¬ p.time ≤ time) : c.cells.valueAt? time = none := by
  have hcount : countUpTo c.points time = 0 := by
    refine bisectFrom_eq (fun i => ?_) (Nat.zero_le _) (Nat.zero_le _)
    rw [decide_eq_false (Nat.not_lt_zero i), Option.any_eq_false]
    intro p hp
    exact decide_eq_false (htime p (List.mem_of_getElem? hp)).2
  rcases c with ⟨_ | ⟨first, rest⟩, hle⟩
  · exact absurd rfl hsome
  · rw [CurveCells.valueAt?, points?_cells]
    simp only [Option.bind_eq_bind, Option.bind_some, List.head?_cons] at hcount ⊢
    rw [if_neg (htime first List.mem_cons_self).1, hcount]
    rfl

variable [GradualScalar R]

theorem Timely.insert? {c d : GainCurve R} (h : c.Timely) {p : GainPoint R} (hp : Scalar.isFinite p.time = true)
    (hd : c.insert? p = some d) : d.Timely := by
  unfold GainCurve.insert? at hd
  split at hd
  · cases hd
    refine ⟨sorted_insertPoint h.sorted fun q hq hlate => ?_, fun q hq => ?_⟩
    · have hq' := GradualScalar.le_self (h.finite q hq)
      exact (GradualScalar.le_total hq' (GradualScalar.le_self hp)).resolve_left hlate
    · rcases mem_insertPoint hq with rfl | hq
      · exact hp
      · exact h.finite q hq
  · cases hd

theorem quotient?_of_between {p q : GainPoint R} (hp : Scalar.isFinite p.time = true)
    (hq : Scalar.isFinite q.time = true) {time : R} (hbefore : p.time ≤ time) (hafter : ¬ q.time ≤ time) (x : R) :
    quotient? x (q.time - p.time) = some (x / (q.time - p.time)) :=
  if_neg (GradualScalar.sub_ne_zero hp hq fun hle => hafter (GradualScalar.le_trans hle hbefore))

/-- A timely curve has a value at every time that is a number, and it is found without harm: once the time is not before
the first point some point is not after it, and two points with a time in between are apart. -/
theorem Timely.valueAt?_cells {c : GainCurve R} (h : c.Timely) {time : R} (htime : time ≤ time) :
    c.cells.valueAt? time = some ((c.valueAt? time).getD ((0 : Nat) : R)) := by
  have hpoints := c.points?_cells
  have hplace := (h.sorted.firstPart time).any_getElem?
  rw [← countUpTo_eq h.sorted] at hplace
  have hfinite := h.finite
  rcases c with ⟨_ | ⟨first, rest⟩, hle⟩
  · rw [CurveCells.valueAt?, hpoints]
    rfl
  · rw [CurveCells.valueAt?, hpoints]
    simp only [Option.bind_eq_bind, Option.bind_some, List.head?_cons]
    by_cases hearly : time ≤ first.time
    · rw [if_pos hearly, show (GainCurve.mk (first :: rest) hle).valueAt? time = some first.value from if_pos hearly]
      rfl
    · have hreached : first.time ≤ time :=
        (GradualScalar.le_total htime (GradualScalar.le_self (hfinite first List.mem_cons_self))).resolve_left hearly
      have hvalue : (GainCurve.mk (first :: rest) hle).valueAt? time = _ := if_neg hearly
      rw [if_neg hearly, hvalue]
      simp only at hplace ⊢
      have hsome := countUpTo_pos hreached rest
      generalize countUpTo (first :: rest) time = next at hplace hsome
      by_cases hlast : (first :: rest).length ≤ next
      · have hnone : (first :: rest)[next]? = none := List.getElem?_eq_none hlast
        have hfinal : minus? (first :: rest).length 1 = some ((first :: rest).length - 1) :=
          if_pos (Nat.succ_le_succ (Nat.zero_le _))
        rw [if_pos hlast, hnone, hfinal, Option.bind_some, ← List.getLast?_eq_getElem?,
          List.getLast?_eq_some_getLast (List.cons_ne_nil _ _)]
        rfl
      · have hafter : (first :: rest)[next]? = some (first :: rest)[next] := List.getElem?_eq_getElem (not_le.1 hlast)
        have hlate := hplace next
        rw [hafter, decide_eq_false (Nat.lt_irrefl next)] at hlate
        have hbefore := hplace (next - 1)
        rw [decide_eq_true (Nat.sub_one_lt hsome.ne'), Option.any_eq_true] at hbefore
        obtain ⟨before, hget, hnot⟩ := hbefore
        have hslope := quotient?_of_between (hfinite before (List.mem_of_getElem? hget))
          (hfinite _ (List.mem_of_getElem? hafter)) (of_decide_eq_true hnot) (of_decide_eq_false hlate)
        have hprevious : minus? next 1 = some (next - 1) := if_pos hsome
        rw [if_neg hlast, hprevious, hafter]
        simp only [Option.bind_some, hget, hslope, if_neg hsome.ne']
        rfl

end GainCurve

end MusicMacro
