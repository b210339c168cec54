import Mathlib.Analysis.Convex.Basic
import Mathlib.Data.Finset.Max
import Mathlib.Data.List.Sort
import MusicMacro.Proofs.Scalar.Exact
import MusicMacro.Proofs.Sound.Curve

/-!
# Curves from insertions

A curve is made by one insertion after the other. The first eight are taken, and what they leave is the stable sort of
their points by time, so that the gain can be read off the points without a look at how they came in.

* `GainCurve.insertEach` : insertions one after the other, with their answers;
* `GainCurve.byTime` : points sorted by time, those of one time in the order of insertion;
* `Sorted.ext_at` : two curves in order are the same if they have the same points at every time;
* `GainCurve.insertEach_eq` : the answers and the points that insertions leave;
* `GainCurve.interpolate_mem` : a line stays between the values of its ends;
* `curve_of_insertions` : the curve of any insertions and its gain at every time.
-/

namespace MusicMacro

theorem FirstPart.filter_eq {α : Type} {p : α → Bool} {xs : List α} (h : FirstPart p xs) :
    xs.filter p = xs.takeWhile p ∧ (xs.filter fun x => !p x) = xs.dropWhile p := by
  have hfront : ∀ x ∈ xs.takeWhile p, p x = true := List.all_eq_true.1 List.all_takeWhile
  have hback : ∀ x ∈ xs.dropWhile p, p x = false := fun x hx => h.of_mem_dropWhile hx
  have hcut : xs = xs.takeWhile p ++ xs.dropWhile p := List.takeWhile_append_dropWhile.symm
  constructor
  · conv_lhs => rw [hcut]
    rw [List.filter_append, List.filter_eq_self.2 hfront, List.filter_eq_nil_iff.2, List.append_nil]
    intro x hx
    rw [hback x hx]
    decide
  · conv_lhs => rw [hcut]
    rw [List.filter_append, List.filter_eq_nil_iff.2, List.filter_eq_self.2, List.nil_append]
    · intro x hx
      rw [hback x hx]
      rfl
    · intro x hx
      rw [hfront x hx]
      decide

namespace GainCurve

theorem eq_of_points {R : Type} {c e : GainCurve R} (h : c.points = e.points) : c = e := by
  cases c
  cases e
  cases h
  rfl

/-! ## Points by time -/

section ByTime
variable {points others : List (GainPoint ℝ)}

/-- Points sorted by time; those of one time keep their order. -/
noncomputable def byTime (points : List (GainPoint ℝ)) : List (GainPoint ℝ) :=
  points.mergeSort fun p q => decide (p.time ≤ q.time)

theorem byTime_perm (points : List (GainPoint ℝ)) : (byTime points).Perm points := List.mergeSort_perm _ _

theorem length_byTime (points : List (GainPoint ℝ)) : (byTime points).length = points.length :=
  (byTime_perm points).length_eq

theorem le_trans_time (p q r : GainPoint ℝ) (hpq : decide (p.time ≤ q.time) = true)
    (hqr : decide (q.time ≤ r.time) = true) : decide (p.time ≤ r.time) = true :=
  decide_eq_true ((of_decide_eq_true hpq).trans (of_decide_eq_true hqr))

theorem le_total_time (p q : GainPoint ℝ) : (decide (p.time ≤ q.time) || decide (q.time ≤ p.time)) = true := by
  rcases le_total p.time q.time with h | h <;> simp [h]

theorem sorted_byTime (points : List (GainPoint ℝ)) : Sorted (byTime points) :=
  (List.pairwise_mergeSort le_trans_time le_total_time points).imp of_decide_eq_true

noncomputable def atTime (time : ℝ) (points : List (GainPoint ℝ)) : List (GainPoint ℝ) :=
  points.filter fun p => decide (p.time = time)

/-- The sort is stable. -/
theorem atTime_byTime (time : ℝ) (points : List (GainPoint ℝ)) :
    atTime time (byTime points) = atTime time points := by
  have hsame : (atTime time points).Pairwise fun p q => decide (p.time ≤ q.time) = true := by
    refine List.pairwise_filter.2 (List.pairwise_of_forall fun p q hp hq => ?_)
    exact decide_eq_true ((of_decide_eq_true hp).trans (of_decide_eq_true hq).symm).le
  have hkept := (List.sublist_mergeSort le_trans_time le_total_time hsame List.filter_sublist).filter
    fun p => decide (p.time = time)
  have htwice : (atTime time points).filter (fun p => decide (p.time = time)) = atTime time points := by
    simp [atTime]
  rw [htwice] at hkept
  exact (hkept.eq_of_length ((byTime_perm points).filter _).length_eq.symm).symm

theorem mem_atTime {time : ℝ} {p : GainPoint ℝ} : p ∈ atTime time points ↔ p ∈ points ∧ p.time = time := by
  simp [atTime]

theorem Sorted.head_le {p q : GainPoint ℝ} (h : Sorted (p :: points)) (hq : q ∈ p :: points) : p.time ≤ q.time := by
  rcases List.mem_cons.1 hq with rfl | hq
  · exact le_rfl
  · exact (List.pairwise_cons.1 h).1 q hq

/-- Two lists in order are the same if they have the same points at every time. -/
theorem Sorted.ext_at (h : Sorted points) (h' : Sorted others)
    (hsame : ∀ time, atTime time points = atTime time others) : points = others := by
  induction points generalizing others with
  | nil =>
    refine (List.eq_nil_iff_forall_not_mem.2 fun q hq => ?_).symm
    have hnone : q ∈ atTime q.time [] := hsame q.time ▸ mem_atTime.2 ⟨hq, rfl⟩
    exact List.not_mem_nil (mem_atTime.1 hnone).1
  | cons p rest ih =>
    have hp : p ∈ others := (mem_atTime.1 (hsame p.time ▸ mem_atTime.2 ⟨List.mem_cons_self, rfl⟩)).1
    cases others with
    | nil => cases hp
    | cons q later =>
      have hq : q ∈ p :: rest := (mem_atTime.1 ((hsame q.time).symm ▸ mem_atTime.2 ⟨List.mem_cons_self, rfl⟩)).1
      have htime : p.time = q.time := le_antisymm (h.head_le hq) (h'.head_le hp)
      have hheads := hsame p.time
      simp only [atTime, List.filter_cons, htime, decide_true, if_true] at hheads
      obtain ⟨rfl, -⟩ := List.cons.inj hheads
      have hrest : rest = later := by
        refine ih (List.pairwise_cons.1 h).2 (List.pairwise_cons.1 h').2 fun time => ?_
        have hboth := hsame time
        simp only [atTime, List.filter_cons] at hboth ⊢
        split at hboth
        · exact (List.cons.inj hboth).2
        · exact hboth
      rw [hrest]

/-- An insertion goes on with the sort. -/
theorem insertPoint_byTime (points : List (GainPoint ℝ)) (p : GainPoint ℝ) :
    insertPoint (byTime points) p = byTime (points ++ [p]) := by
  have hsorted := sorted_byTime points
  have htotal : ∀ q ∈ byTime points, ¬ q.time ≤ p.time → p.time ≤ q.time := fun q _ h => (not_le.1 h).le
  refine (sorted_insertPoint hsorted htotal).ext_at (sorted_byTime _) fun time => ?_
  have happend : atTime time (points ++ [p]) = atTime time (byTime points) ++ atTime time [p] := by
    rw [atTime_byTime]
    exact List.filter_append _ _
  rw [atTime_byTime, happend, insertPoint_eq hsorted]
  have hcut := List.takeWhile_append_dropWhile (p := fun q : GainPoint ℝ => decide (q.time ≤ p.time))
    (l := byTime points)
  have hback : ∀ q ∈ (byTime points).dropWhile fun q => decide (q.time ≤ p.time), p.time < q.time := by
    intro q hq
    exact not_le.1 (of_decide_eq_false ((hsorted.firstPart p.time).of_mem_dropWhile hq))
  generalize (byTime points).takeWhile _ = front at hcut ⊢
  generalize (byTime points).dropWhile _ = back at hcut hback ⊢
  rw [← hcut]
  simp only [atTime, List.filter_append, List.filter_cons, List.append_assoc, List.filter_nil]
  by_cases hp : p.time = time
  · -- what stands after the new point is later than it
    have hnone : back.filter (fun q => decide (q.time = time)) = [] := by
      refine List.filter_eq_nil_iff.2 fun q hq => ?_
      have hlater := hback q hq
      simp only [decide_eq_true_eq]
      linarith
    simp [hp, hnone]
  · simp [hp]

end ByTime

/-! ## Insertions -/

section Insertions
variable {R : Type} [Scalar R]

/-- One insertion after the other; a point that is not taken leaves the curve as it is. -/
def insertEach (c : GainCurve R) : List (GainPoint R) → List Bool × GainCurve R
  | [] => ([], c)
  | p :: rest =>
    let (answers, last) := ((c.insert? p).getD c).insertEach rest
    ((c.insert? p).isSome :: answers, last)

end Insertions

theorem insertEach_eq {c : GainCurve ℝ} {past : List (GainPoint ℝ)} (hpast : past.length ≤ 8)
    (hc : c.points = byTime past) (ps : List (GainPoint ℝ)) :
    (c.insertEach ps).1 = ps.mapIdx (fun i _ => decide (past.length + i < 8)) ∧
      (c.insertEach ps).2.points = byTime ((past ++ ps).take 8) := by
  induction ps generalizing c past with
  | nil => simp [insertEach, hc, List.take_of_length_le hpast]
  | cons p rest ih =>
    have hlength : c.points.length = past.length := by rw [hc, length_byTime]
    by_cases hroom : past.length < 8
    · have hinsert : ∃ h, c.insert? p = some ⟨insertPoint c.points p, h⟩ := ⟨_, dif_pos (hlength ▸ hroom)⟩
      obtain ⟨hle, hinsert⟩ := hinsert
      have hnext : insertPoint c.points p = byTime (past ++ [p]) := by rw [hc, insertPoint_byTime]
      have hcount : (past ++ [p]).length ≤ 8 := by simpa using hroom
      obtain ⟨hanswers, hpoints⟩ := ih (c := ⟨insertPoint c.points p, hle⟩) hcount hnext
      have hplaces : (fun (i : Nat) (_ : GainPoint ℝ) => decide ((past ++ [p]).length + i < 8)) =
          fun i _ => decide (past.length + (i + 1) < 8) := by
        funext i q
        rw [List.length_append, List.length_singleton, Nat.add_assoc, Nat.add_comm 1 i]
      simp only [insertEach, hinsert, Option.getD_some, Option.isSome_some, List.mapIdx_cons]
      rw [hanswers, hpoints, hplaces, List.append_assoc]
      exact ⟨by simp [hroom], rfl⟩
    · have hfull : past.length = 8 := by omega
      have hinsert : c.insert? p = none := dif_neg (by omega)
      obtain ⟨hanswers, hpoints⟩ := ih hpast hc
      have htake : ∀ more : List (GainPoint ℝ), (past ++ more).take 8 = past := fun more => by
        rw [← hfull, List.take_left]
      simp only [insertEach, hinsert, Option.getD_none, Option.isSome_none, List.mapIdx_cons]
      rw [hanswers, hpoints, htake, htake]
      simp [hfull]

theorem insertEach_empty (ps : List (GainPoint ℝ)) :
    ((empty : GainCurve ℝ).insertEach ps).1 = ps.mapIdx (fun i _ => decide (i < 8)) ∧
      ((empty : GainCurve ℝ).insertEach ps).2.points = byTime (ps.take 8) := by
  have hempty : (empty : GainCurve ℝ).points = byTime [] := by simp [empty, byTime]
  have hnone : ([] : List (GainPoint ℝ)).length ≤ 8 := Nat.zero_le 8
  simpa using insertEach_eq hnone hempty ps

/-- Points at different times come out the same in whatever order they came in. -/
theorem points_insertEach_perm {ps qs : List (GainPoint ℝ)} (htimes : (ps.map GainPoint.time).Nodup)
    (hfew : ps.length ≤ 8) (hperm : qs.Perm ps) :
    ((empty : GainCurve ℝ).insertEach qs).2.points = ((empty : GainCurve ℝ).insertEach ps).2.points := by
  rw [(insertEach_empty qs).2, (insertEach_empty ps).2, List.take_of_length_le hfew,
    List.take_of_length_le (hperm.length_eq ▸ hfew)]
  have hsame : (byTime qs).Perm (byTime ps) := (byTime_perm qs).trans (hperm.trans (byTime_perm ps).symm)
  refine hsame.eq_of_pairwise (fun p q hp hq hpq hqp => ?_) (sorted_byTime qs) (sorted_byTime ps)
  have hp : p ∈ ps := hperm.subset ((byTime_perm qs).subset hp)
  have hq : q ∈ ps := (byTime_perm ps).subset hq
  exact List.inj_on_of_nodup_map htimes hp hq (le_antisymm hpq hqp)

/-! ## The gain -/

theorem interpolate_mem {p q : GainPoint ℝ} {time low high : ℝ} (hp : p.time ≤ time) (hq : time < q.time)
    (hpv : p.value ∈ Set.Icc low high) (hqv : q.value ∈ Set.Icc low high) :
    interpolate p q time ∈ Set.Icc low high := by
  have hspan : 0 < q.time - p.time := by linarith
  have hshare : 0 ≤ (time - p.time) / (q.time - p.time) := div_nonneg (by linarith) hspan.le
  have hwhole : (time - p.time) / (q.time - p.time) ≤ 1 := (div_le_one hspan).2 (by linarith)
  have hline : interpolate p q time =
      (1 - (time - p.time) / (q.time - p.time)) * p.value + (time - p.time) / (q.time - p.time) * q.value := by
    unfold interpolate
    ring
  rw [hline]
  exact convex_Icc low high hpv hqv (by linarith) hshare (by ring)

section Gain
variable {c : GainCurve ℝ}

theorem valueAt?_mem (h : Sorted c.points) (hsome : c.points ≠ []) {low high : ℝ}
    (hvalues : ∀ p ∈ c.points, p.value ∈ Set.Icc low high) (time : ℝ) :
    ∃ gain ∈ Set.Icc low high, c.valueAt? time = some gain := by
  have htotal : ∀ q ∈ c.points, ¬ time ≤ q.time → q.time ≤ time := fun q _ hnot => (not_le.1 hnot).le
  obtain ⟨hnone, -⟩ | ⟨p, hp, hvalue⟩ | ⟨p, hp, q, hq, hreached, hlate, hvalue⟩ := valueAt?_cases h htotal
  · exact absurd hnone hsome
  · exact ⟨p.value, hvalues p hp, hvalue⟩
  · exact ⟨_, interpolate_mem hreached (not_le.1 hlate) (hvalues p hp) (hvalues q hq), hvalue⟩

/-- After the first point the gain lies on the line from the last point that is reached to the next one. -/
theorem valueAt?_of_neighbours (h : Sorted c.points) {time : ℝ} {first before after : GainPoint ℝ}
    (hfirst : c.points.head? = some first) (hbegun : first.time < time)
    (hbefore : (c.points.filter fun p => decide (p.time ≤ time)).getLast? = some before)
    (hafter : (c.points.filter fun p => decide (time < p.time)).head? = some after) :
    c.valueAt? time = some (interpolate before after time) := by
  obtain ⟨hfront, hback⟩ := (h.firstPart time).filter_eq
  have hlater : (c.points.filter fun p => decide (time < p.time)) =
      c.points.dropWhile fun p => decide (p.time ≤ time) := by
    rw [← hback]
    exact List.filter_congr fun p _ => by simp [← not_le]
  have hreached : before.time ≤ time := of_decide_eq_true (List.mem_filter.1 (List.mem_of_getLast? hbefore)).2
  have hlate : time < after.time := of_decide_eq_true (List.mem_filter.1 (List.mem_of_head? hafter)).2
  obtain ⟨front, hfrontPoints⟩ := List.getLast?_eq_some_iff.1 hbefore
  obtain ⟨back, hbackPoints⟩ := List.head?_eq_some_iff.1 hafter
  have hpoints : c.points = front ++ before :: after :: back := by
    calc c.points
      _ = (c.points.takeWhile fun p => decide (p.time ≤ time)) ++ c.points.dropWhile fun p => decide (p.time ≤ time) :=
        List.takeWhile_append_dropWhile.symm
      _ = (front ++ [before]) ++ (after :: back) := by rw [← hfrontPoints, ← hbackPoints, hlater, ← hfront]
      _ = front ++ before :: after :: back := by simp
  refine valueAt?_between h hpoints hreached (not_le.2 hlate) fun p hp => ?_
  rw [hfirst] at hp
  obtain rfl := Option.some.inj hp
  exact not_le.2 hbegun

end Gain

end GainCurve

def gainsOf (ps : List (GainPoint ℝ)) : Set ℝ := {v | ∃ p ∈ ps, p.value = v}

theorem exists_bounds_gainsOf {ps : List (GainPoint ℝ)} (h : ps ≠ []) :
    ∃ low high, IsLeast (gainsOf ps) low ∧ IsGreatest (gainsOf ps) high := by
  have hgains : gainsOf ps = ((ps.map GainPoint.value).toFinset : Set ℝ) := by
    ext v
    simp [gainsOf]
  have hsome : (ps.map GainPoint.value).toFinset.Nonempty := by simpa using h
  rw [hgains]
  exact ⟨_, _, Finset.isLeast_min' _ hsome, Finset.isGreatest_max' _ hsome⟩

/-- **The curve of any insertions.** The first eight of them are taken, the others are refused, and the points are the
stable sort of those that are taken. Without any point the gain is full. Otherwise it lies, at every time, between the
least and the greatest gain of the points; after the first point it lies on the line from the last point that is reached
to the next one, if both exist. Points at different times, at most eight of them, may come in any order. -/
theorem curve_of_insertions (ps : List (GainPoint ℝ)) :
    let made := (GainCurve.empty : GainCurve ℝ).insertEach ps
    let curve := made.2
    made.1 = ps.mapIdx (fun i _ => decide (i < 8)) ∧
    curve.points = GainCurve.byTime (ps.take 8) ∧
    (ps = [] → ∀ time, curve.valueAt? time = some 1) ∧
    (ps ≠ [] → ∃ low high, IsLeast (gainsOf (ps.take 8)) low ∧ IsGreatest (gainsOf (ps.take 8)) high ∧
      ∀ time, ∃ gain ∈ Set.Icc low high, curve.valueAt? time = some gain) ∧
    (∀ time first before after, curve.points.head? = some first → first.time < time →
      (curve.points.filter fun p => decide (p.time ≤ time)).getLast? = some before →
      (curve.points.filter fun p => decide (time < p.time)).head? = some after →
      curve.valueAt? time =
        some (before.value + (after.value - before.value) * (time - before.time) / (after.time - before.time))) ∧
    ∀ qs : List (GainPoint ℝ), (ps.map GainPoint.time).Nodup → ps.length ≤ 8 → qs.Perm ps →
      ((GainCurve.empty : GainCurve ℝ).insertEach qs).2.valueAt? = curve.valueAt? := by
  intro made curve
  obtain ⟨hanswers, hpoints⟩ := GainCurve.insertEach_empty ps
  have hsorted : GainCurve.Sorted curve.points := hpoints ▸ GainCurve.sorted_byTime _
  refine ⟨hanswers, hpoints, ?_, fun hsome => ?_, fun time first before after => ?_, fun qs htimes hfew hperm => ?_⟩
  · rintro rfl time
    exact congrArg some Nat.cast_one
  · have htaken : ps.take 8 ≠ [] := by simpa using hsome
    obtain ⟨low, high, hlow, hhigh⟩ := exists_bounds_gainsOf htaken
    have hperm : curve.points.Perm (ps.take 8) := hpoints ▸ GainCurve.byTime_perm _
    have hcurve : curve.points ≠ [] := fun h => htaken (List.nil_perm.1 (h ▸ hperm))
    refine ⟨low, high, hlow, hhigh, GainCurve.valueAt?_mem hsorted hcurve fun p hp => ?_⟩
    exact ⟨hlow.2 ⟨p, hperm.subset hp, rfl⟩, hhigh.2 ⟨p, hperm.subset hp, rfl⟩⟩
  · exact GainCurve.valueAt?_of_neighbours hsorted
  · have hsame := GainCurve.points_insertEach_perm htimes hfew hperm
    rw [GainCurve.eq_of_points hsame]

/-- A rise of two seconds whose end comes in first: it is halfway up after one of them. -/
theorem curve_of_insertions_halfway :
    let low : GainPoint ℝ := ⟨0, 0⟩
    let high : GainPoint ℝ := ⟨2, 1⟩
    let curve := ((GainCurve.empty : GainCurve ℝ).insertEach [high, low]).2
    [high, low] ≠ [] ∧ ([high, low].map GainPoint.time).Nodup ∧ [high, low].length ≤ 8 ∧
      [low, high].Perm [high, low] ∧ curve.points.head? = some low ∧ low.time < 1 ∧
      (curve.points.filter fun p => decide (p.time ≤ 1)).getLast? = some low ∧
      (curve.points.filter fun p => decide (1 < p.time)).head? = some high ∧
      (∃ least greatest, IsLeast (gainsOf [high, low]) least ∧ IsGreatest (gainsOf [high, low]) greatest ∧
        ∀ time, ∃ gain ∈ Set.Icc least greatest, curve.valueAt? time = some gain) ∧
      curve.valueAt? 1 = some (1 / 2) ∧
      ((GainCurve.empty : GainCurve ℝ).insertEach [low, high]).2.valueAt? = curve.valueAt? := by
  intro low high curve
  have hsome : [high, low] ≠ [] := List.cons_ne_nil _ _
  have htimes : ([high, low].map GainPoint.time).Nodup := by simp [low, high]
  have hfew : [high, low].length ≤ 8 := by decide
  have hperm : [low, high].Perm [high, low] := List.Perm.swap _ _ _
  have hcurve : curve.points = [low, high] := by
    have hordered : [low, high].Pairwise fun p q => decide (p.time ≤ q.time) = true := by simp [low, high]
    rw [← GainCurve.points_insertEach_perm htimes hfew hperm, (GainCurve.insertEach_empty _).2]
    exact List.mergeSort_of_pairwise hordered
  have hfirst : curve.points.head? = some low := by rw [hcurve, List.head?_cons]
  have hbegun : low.time < 1 := by simp [low]
  have hbefore : (curve.points.filter fun p => decide (p.time ≤ 1)).getLast? = some low := by
    rw [hcurve]
    simp [low, high]
  have hafter : (curve.points.filter fun p => decide (1 < p.time)).head? = some high := by
    rw [hcurve]
    simp [low, high]
  obtain ⟨-, -, -, hrange, hline, horder⟩ := curve_of_insertions [high, low]
  have hhalf := hline 1 low low high hfirst hbegun hbefore hafter
  norm_num [low, high] at hhalf
  exact ⟨hsome, htimes, hfew, hperm, hfirst, hbegun, hbefore, hafter, hrange hsome, by simpa using hhalf,
    horder _ htimes hfew hperm⟩

end MusicMacro
