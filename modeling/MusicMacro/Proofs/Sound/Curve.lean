import Mathlib.Data.List.TakeWhile
import MusicMacro.Proofs.Scalar.Exact
import MusicMacro.Sound.GainCurve

/-!
# Curves in order

A gain curve is searched by halving, which finds the right place only as long as the points are in order.

* `bisect_eq` : where a condition holds for a first part of a list, halving finds the end of that part;
* `GainCurve.exists_valueAt?` : there is a gain at every time;
* `GainCurve.Sorted` : points in the order of their times; `sorted_insertPoint` : a new point is put in its place;
* `valueAt?_cases` : the gain at a time is that of one point, or it lies between two points on both sides of the time;
  `valueAt?_between` and `valueAt?_last` say which points those are.
-/

namespace MusicMacro

/-! ## Halving -/

section Bisect
variable {α : Type} {p : α → Bool} {xs : List α}

theorem bisectFrom_eq {place base size : Nat} (h : ∀ i, (xs[i]?).any p = decide (i < place)) (hbase : base ≤ place)
    (hsize : place ≤ base + size) : bisectFrom p xs base size = place := by
  -- the place lies between `base` and `base + size` all the time
  induction base, size using bisectFrom.induct p xs with
  | case1 base size hsmall hhere =>
    rw [bisectFrom, if_pos hsmall, if_pos hhere]
    have hlt := of_decide_eq_true ((h base).symm.trans hhere)
    omega
  | case2 base size hsmall hnot =>
    rw [bisectFrom, if_pos hsmall, if_neg hnot]
    rw [h base, decide_eq_true_eq] at hnot
    omega
  | case3 base size hlarge half hhere ih =>
    rw [bisectFrom, if_neg hlarge]
    have hlt := of_decide_eq_true ((h (base + half)).symm.trans hhere)
    show (if (xs[base + half]?).any p = true then _ else _) = place
    rw [if_pos hhere]
    exact ih (by omega) (by omega)
  | case4 base size hlarge half hnot ih =>
    rw [bisectFrom, if_neg hlarge]
    show (if (xs[base + half]?).any p = true then _ else _) = place
    rw [if_neg hnot]
    rw [h (base + half), decide_eq_true_eq] at hnot
    exact ih hbase (by omega)

theorem lt_bisectFrom {base : Nat} (h : (xs[base]?).any p = true) (size : Nat) : base < bisectFrom p xs base size := by
  induction base, size using bisectFrom.induct p xs with
  | case1 base size hsmall hhere =>
    rw [bisectFrom, if_pos hsmall, if_pos hhere]
    exact Nat.lt_succ_self base
  | case2 base size hsmall hnot => exact absurd h hnot
  | case3 base size hlarge half hhere ih =>
    rw [bisectFrom, if_neg hlarge]
    show base < if (xs[base + half]?).any p = true then _ else _
    rw [if_pos hhere]
    exact (Nat.le_add_right base half).trans_lt (ih hhere)
  | case4 base size hlarge half hnot ih =>
    rw [bisectFrom, if_neg hlarge]
    show base < if (xs[base + half]?).any p = true then _ else _
    rw [if_neg hnot]
    exact ih h

/-- The condition holds for every element that stands before one for which it holds. -/
def FirstPart (p : α → Bool) (xs : List α) : Prop := xs.Pairwise fun a b => p b = true → p a = true

theorem FirstPart.any_getElem? (h : FirstPart p xs) (i : Nat) :
    (xs[i]?).any p = decide (i < (xs.takeWhile p).length) := by
  induction xs generalizing i with
  | nil => rfl
  | cons x rest ih =>
    obtain ⟨hx, hrest⟩ := List.pairwise_cons.1 h
    cases hp : p x with
    | true =>
      rw [List.takeWhile_cons_of_pos hp]
      cases i with
      | zero => simp [hp]
      | succ i => simpa using ih hrest i
    | false =>
      have hnone : ∀ y ∈ rest, p y = false := fun y hy => by
        cases hy' : p y with
        | false => rfl
        | true => exact absurd ((hx y hy hy').symm.trans hp) (by decide)
      rw [List.takeWhile_cons_of_neg (by rw [hp]; decide)]
      cases i with
      | zero => simp [hp]
      | succ i =>
        simp only [List.getElem?_cons_succ, List.length_nil, Nat.not_lt_zero, decide_false]
        rw [Option.any_eq_false]
        intro y hy
        exact hnone y (List.mem_of_getElem? hy)

theorem FirstPart.of_mem_dropWhile (h : FirstPart p xs) {x : α} (hx : x ∈ xs.dropWhile p) : p x = false := by
  induction xs with
  | nil => cases hx
  | cons y rest ih =>
    obtain ⟨hy, hrest⟩ := List.pairwise_cons.1 h
    cases hp : p y with
    | true =>
      rw [List.dropWhile_cons_of_pos hp] at hx
      exact ih hrest hx
    | false =>
      rw [List.dropWhile_cons_of_neg (by rw [hp]; decide)] at hx
      rcases List.mem_cons.1 hx with rfl | hx
      · exact hp
      · cases hpx : p x with
        | false => rfl
        | true => exact absurd ((hy x hx hpx).symm.trans hp) (by decide)

theorem bisect_eq (h : FirstPart p xs) : bisect p xs = (xs.takeWhile p).length :=
  bisectFrom_eq h.any_getElem? (Nat.zero_le _) (by rw [Nat.zero_add]; exact (List.takeWhile_prefix p).length_le)

end Bisect

/-! ## Points in order -/

namespace GainCurve
variable {R : Type} [Scalar R]

theorem countUpTo_pos {first : GainPoint R} {time : R} (h : first.time ≤ time) (rest : List (GainPoint R)) :
    0 < countUpTo (first :: rest) time := by
  have hreached : ((first :: rest)[0]?).any (fun p => decide (p.time ≤ time)) = true := decide_eq_true h
  exact lt_bisectFrom hreached _

theorem exists_valueAt? {c : GainCurve R} {time : R} (htotal : ∀ p ∈ c.points, ¬ time ≤ p.time → p.time ≤ time) :
    ∃ gain, c.valueAt? time = some gain := by
  rcases c with ⟨_ | ⟨first, rest⟩, hle⟩
  · exact ⟨_, rfl⟩
  · by_cases hearly : time ≤ first.time
    · exact ⟨first.value, if_pos hearly⟩
    · have hsome := countUpTo_pos (htotal first List.mem_cons_self hearly) rest
      have hvalue : (GainCurve.mk (first :: rest) hle).valueAt? time = _ := if_neg hearly
      rw [hvalue]
      generalize countUpTo (first :: rest) time = next at hsome
      cases hafter : (first :: rest)[next]? with
      | none => exact ⟨_, congrArg (Option.map _) (List.getLast?_eq_some_getLast (List.cons_ne_nil _ _))⟩
      | some after =>
        obtain ⟨hlt, -⟩ := List.getElem?_eq_some_iff.1 hafter
        have hbefore : (first :: rest)[next - 1]? = some (first :: rest)[next - 1] :=
          List.getElem?_eq_getElem ((Nat.sub_le next 1).trans_lt hlt)
        refine ⟨interpolate (first :: rest)[next - 1] after time, ?_⟩
        show (if next = 0 then none else _) = _
        rw [if_neg hsome.ne', hbefore]
        rfl

/-- Points in the order of their times. -/
def Sorted (points : List (GainPoint R)) : Prop := points.Pairwise fun p q => p.time ≤ q.time

variable [IsTrans R (· ≤ ·)] {points : List (GainPoint R)}

theorem Sorted.firstPart (h : Sorted points) (time : R) : FirstPart (fun p => decide (p.time ≤ time)) points := by
  refine List.Pairwise.imp (fun {p q} hpq hq => ?_) h
  exact decide_eq_true (IsTrans.trans _ _ _ hpq (of_decide_eq_true hq))

theorem countUpTo_eq (h : Sorted points) (time : R) :
    countUpTo points time = (points.takeWhile fun p => decide (p.time ≤ time)).length := bisect_eq (h.firstPart time)

theorem insertPoint_eq (h : Sorted points) (p : GainPoint R) :
    insertPoint points p =
      (points.takeWhile fun q => decide (q.time ≤ p.time)) ++
        p :: points.dropWhile fun q => decide (q.time ≤ p.time) := by
  have hparts := List.takeWhile_append_dropWhile (p := fun q : GainPoint R => decide (q.time ≤ p.time)) (l := points)
  unfold insertPoint
  rw [countUpTo_eq h]
  generalize (points.takeWhile fun q => decide (q.time ≤ p.time)) = front at hparts ⊢
  generalize (points.dropWhile fun q => decide (q.time ≤ p.time)) = back at hparts ⊢
  show points.take front.length ++ p :: points.drop front.length = _
  rw [← hparts, List.take_left, List.drop_left]

/-- A new point is put in its place, if its time can be compared. -/
theorem sorted_insertPoint (h : Sorted points) {p : GainPoint R}
    (htotal : ∀ q ∈ points, ¬ q.time ≤ p.time → p.time ≤ q.time) : Sorted (insertPoint points p) := by
  have hparts := List.takeWhile_append_dropWhile (p := fun q : GainPoint R => decide (q.time ≤ p.time)) (l := points)
  have hfront : ∀ q ∈ points.takeWhile fun q => decide (q.time ≤ p.time), q.time ≤ p.time := fun q hq =>
    of_decide_eq_true (List.all_eq_true.1 List.all_takeWhile q hq)
  have hback : ∀ q ∈ points.dropWhile fun q => decide (q.time ≤ p.time), p.time ≤ q.time := by
    intro q hq
    have hlater : decide (q.time ≤ p.time) = false := (h.firstPart p.time).of_mem_dropWhile hq
    exact htotal q ((List.dropWhile_suffix _).subset hq) (of_decide_eq_false hlater)
  rw [insertPoint_eq h]
  unfold Sorted at h ⊢
  rw [← hparts] at h
  obtain ⟨hfirst, hsecond, hacross⟩ := List.pairwise_append.1 h
  refine List.pairwise_append.2 ⟨hfirst, List.pairwise_cons.2 ⟨hback, hsecond⟩, fun a ha b hb => ?_⟩
  rcases List.mem_cons.1 hb with rfl | hb
  · exact hfront a ha
  · exact hacross a ha b hb

omit [IsTrans R (· ≤ ·)] in
theorem mem_insertPoint {p q : GainPoint R} (h : q ∈ insertPoint points p) : q = p ∨ q ∈ points := by
  unfold insertPoint at h
  rcases List.mem_append.1 h with h | h
  · exact .inr (List.mem_of_mem_take h)
  · rcases List.mem_cons.1 h with rfl | h
    · exact .inl rfl
    · exact .inr (List.mem_of_mem_drop h)

/-- A gain is that of a point, or it lies on the line through a point that is not after the time and one that is. -/
theorem valueAt?_cases {c : GainCurve R} (h : Sorted c.points) {time : R}
    (htotal : ∀ q ∈ c.points, ¬ time ≤ q.time → q.time ≤ time) :
    c.points = [] ∧ c.valueAt? time = some ((1 : Nat) : R) ∨ (∃ p ∈ c.points, c.valueAt? time = some p.value) ∨
      ∃ p ∈ c.points, ∃ q ∈ c.points, p.time ≤ time ∧ ¬ q.time ≤ time ∧
        c.valueAt? time = some (interpolate p q time) := by
  have hcount := countUpTo_eq h time
  have hplace := (h.firstPart time).any_getElem?
  rw [← hcount] at hplace
  rcases c with ⟨_ | ⟨first, rest⟩, hle⟩
  · exact .inl ⟨rfl, rfl⟩
  · by_cases hearly : time ≤ first.time
    · exact .inr (.inl ⟨first, List.mem_cons_self, if_pos hearly⟩)
    · have hsome := countUpTo_pos (htotal first List.mem_cons_self hearly) rest
      have hvalue : (GainCurve.mk (first :: rest) hle).valueAt? time = _ := if_neg hearly
      rw [hvalue]
      generalize countUpTo (first :: rest) time = next at hplace hsome
      cases hafter : (first :: rest)[next]? with
      | none =>
        refine .inr (.inl ⟨(first :: rest).getLast (List.cons_ne_nil _ _), List.getLast_mem _, ?_⟩)
        rw [List.getLast?_eq_some_getLast (List.cons_ne_nil _ _)]
        rfl
      | some after =>
        have hlate := hplace next
        rw [hafter] at hlate
        simp only [Option.any_some, Nat.lt_irrefl, decide_false, decide_eq_false_iff_not] at hlate
        have hbefore := hplace (next - 1)
        rw [decide_eq_true (show next - 1 < next by omega), Option.any_eq_true] at hbefore
        obtain ⟨before, hget, hnot⟩ := hbefore
        refine .inr (.inr ⟨before, List.mem_of_getElem? hget, after, List.mem_of_getElem? hafter,
          of_decide_eq_true hnot, hlate, ?_⟩)
        show (if next = 0 then none else _) = _
        rw [if_neg (by omega), hget]
        rfl

theorem insertPoint_eq_append (h : Sorted points) {p : GainPoint R} (hlast : ∀ q ∈ points, q.time ≤ p.time) :
    insertPoint points p = points ++ [p] := by
  have hall : ∀ q ∈ points, decide (q.time ≤ p.time) = true := fun q hq => decide_eq_true (hlast q hq)
  rw [insertPoint_eq h, List.takeWhile_eq_self_iff.2 hall, List.dropWhile_eq_nil_iff.2 hall]

/-- Between two neighbours the gain lies on the line through them. -/
theorem valueAt?_between {c : GainCurve R} (h : Sorted c.points) {front back : List (GainPoint R)} {p q : GainPoint R}
    (hpoints : c.points = front ++ p :: q :: back) {time : R} (hp : p.time ≤ time) (hq : ¬ q.time ≤ time)
    (hbegun : ∀ first ∈ c.points.head?, ¬ time ≤ first.time) : c.valueAt? time = some (interpolate p q time) := by
  have hcount : countUpTo c.points time = front.length + 1 := by
    have hsorted := h
    unfold Sorted at hsorted
    rw [hpoints] at hsorted
    have hfront : ∀ a ∈ front ++ [p], decide (a.time ≤ time) = true := by
      intro a ha
      rcases List.mem_append.1 ha with ha | ha
      · have hap := (List.pairwise_append.1 hsorted).2.2 a ha p List.mem_cons_self
        exact decide_eq_true (IsTrans.trans _ _ _ hap hp)
      · rw [List.mem_singleton.1 ha]
        exact decide_eq_true hp
    have hcut : front ++ p :: q :: back = (front ++ [p]) ++ q :: back := by simp
    rw [countUpTo_eq h, hpoints, hcut, List.takeWhile_append_of_pos hfront,
      List.takeWhile_cons_of_neg (by simpa using hq)]
    simp
  have hafter : c.points[front.length + 1]? = some q := by simp [hpoints]
  have hbefore : c.points[front.length]? = some p := by simp [hpoints]
  rcases c with ⟨_ | ⟨first, rest⟩, hle⟩
  · exact absurd hpoints (List.append_ne_nil_of_right_ne_nil _ (List.cons_ne_nil _ _)).symm
  · have hvalue : (GainCurve.mk (first :: rest) hle).valueAt? time = _ := if_neg (hbegun first rfl)
    rw [hvalue]
    simp only at hcount hafter hbefore
    simp only [hcount, hafter, Nat.add_one_ne_zero, if_false, Nat.add_sub_cancel, hbefore, Option.map_some]

/-- From the last point on the gain stays what it is there. -/
theorem valueAt?_last {c : GainCurve R} (h : Sorted c.points) {last : GainPoint R}
    (hlast : c.points.getLast? = some last) {time : R} (hreached : ∀ p ∈ c.points, p.time ≤ time)
    (hbegun : ∀ first ∈ c.points.head?, ¬ time ≤ first.time) :
    c.valueAt? time = some last.value := by
  have hcount : countUpTo c.points time = c.points.length := by
    rw [countUpTo_eq h, List.takeWhile_eq_self_iff.2 fun p hp => decide_eq_true (hreached p hp)]
  rcases c with ⟨_ | ⟨first, rest⟩, hle⟩
  · cases hlast
  · have hvalue : (GainCurve.mk (first :: rest) hle).valueAt? time = _ := if_neg (hbegun first rfl)
    rw [hvalue]
    simp only at hcount hlast
    simp only [hcount, List.getElem?_length, hlast, Option.map_some]

end GainCurve

end MusicMacro
