import MusicMacro.Proofs.Timeline.Found

/-!
# Parallel octaves

One track is scheduled twice, from two starting octaves. The second run stays above the first by whole octaves: the gap
between them never grows, it shrinks where one of them stops at an end of the range and the other does not, and it is
closed by a setting of the octave.

* `moveOctave_between` : one token keeps the order of two octaves and takes them no further apart;
* `TrackState.steps_sameTime` : over any scalars, two runs with one clock do the same at the same times;
* `History.gap`, `History.gaps` : how far apart the two runs are after a past, and at every note (`pairwise_gaps`);
* `gap_of_unrefused`, `gap_of_set` : the gap stays as long as no step is refused, and a setting closes it;
* `parallel_octaves` : the notes of the second run are those of the first, raised by the gaps.
-/

namespace MusicMacro

/-- Whether a token leads to an octave whatever the octave before it is. -/
def Token.setsOctave : Token → Bool
  | .set .octave value => value.toNat ≤ 10
  | _ => false

/-- The octaves by which a token goes up from where the track is. -/
def Token.delta : Token → Int
  | .step s => s.delta
  | _ => 0

def Event.isStepRefused {R : Type} : Event R → Bool
  | .stepRefused .. => true
  | _ => false

/-- Whether the journal of a track notes that a step was refused. -/
def Schedule.refusesStep {R : Type} [Scalar R] (d : Defaults) (tokens : List Token) (origin : R) : Bool :=
  (run d tokens origin).events.any Event.isStepRefused

namespace Instruction

/-- The frequency and the loudness of a tone. -/
def tone? {R : Type} : Instruction R → Option (R × UInt32)
  | play frequency _ _ volume => some (frequency, volume)
  | rest .. => none

def SameTime {R : Type} (i j : Instruction R) : Prop := i.start = j.start ∧ i.duration = j.duration

end Instruction

def Schedule.tones {R : Type} [Scalar R] (d : Defaults) (tokens : List Token) (origin : R) : List (R × UInt32) :=
  (run d tokens origin).value.filterMap Instruction.tone?

/-- A tone a number of octaves higher. -/
noncomputable def Schedule.raised (k : ℤ) (tone : ℝ × UInt32) : ℝ × UInt32 := (((2 : ℕ) : ℝ) ^ k * tone.1, tone.2)

/-! ## Octaves under one token -/

namespace History

theorem moveOctave_of_setsOctave {t : Token} (ht : t.setsOctave = true) (o p : Octave) :
    moveOctave o t = moveOctave p t := by
  cases t with
  | set s value =>
    cases s with
    | octave =>
      have hvalue : value.toNat ≤ 10 := of_decide_eq_true ht
      simp only [moveOctave, dif_pos hvalue]
    | _ => cases ht
  | _ => cases ht

theorem moveOctave_of_not_setsOctave {s : Setting} {value : UInt32} (h : (Token.set s value).setsOctave = false)
    (o : Octave) : moveOctave o (.set s value) = o := by
  cases s with
  | octave =>
    have hvalue : ¬ value.toNat ≤ 10 := of_decide_eq_false h
    simp only [moveOctave, dif_neg hvalue]
  | _ => rfl

/-- A step out of the range is passed over, which is to stop at the end of the range. -/
theorem moveOctave_eq_clamp (o : Octave) (s : OctaveStep) :
    moveOctave o (.step s) = Octave.clamp (o.number + s.delta) := by
  have hdelta : s.delta = 1 ∨ s.delta = -1 := by
    cases s
    · exact .inl rfl
    · exact .inr rfl
  obtain ⟨number, hlower, hupper⟩ := o
  by_cases h : 0 ≤ number + s.delta ∧ number + s.delta ≤ 10
  · simp only [moveOctave, dif_pos h, Octave.clamp, Octave.mk.injEq]
    omega
  · simp only [moveOctave, dif_neg h, Octave.clamp, Octave.mk.injEq]
    omega

/-- **One token** keeps the order of two octaves and takes them no further apart, even where only one of them is stopped
at an end of the range. -/
theorem moveOctave_between {o p : Octave} (h : o.number ≤ p.number) (t : Token) :
    0 ≤ (moveOctave p t).number - (moveOctave o t).number ∧
      (moveOctave p t).number - (moveOctave o t).number ≤ p.number - o.number := by
  cases t with
  | step s =>
    simp only [moveOctave_eq_clamp, Octave.clamp]
    omega
  | set s value =>
    cases hset : (Token.set s value).setsOctave with
    | true =>
      rw [moveOctave_of_setsOctave hset p o]
      omega
    | false =>
      rw [moveOctave_of_not_setsOctave hset, moveOctave_of_not_setsOctave hset]
      omega
  | note | rest => exact ⟨sub_nonneg.2 h, le_refl _⟩

end History

theorem Octave.frequency_raised (o p : Octave) (pitch : Pitch) :
    (p.frequency pitch : ℝ) = 2 ^ (p.number - o.number) * o.frequency pitch := by
  have hscale : (p.scale : ℝ) = 2 ^ (p.number - o.number) * o.scale := by
    show (2 : ℝ) ^ (p.number - reference.number) = 2 ^ (p.number - o.number) * 2 ^ (o.number - reference.number)
    rw [← zpow_add₀ two_ne_zero, sub_add_sub_cancel]
  unfold frequency
  rw [hscale]
  ring

/-! ## Two runs with one clock -/

namespace TrackState

section AnyScalars
variable {R : Type} [Scalar R] {s s' : TrackState R}

theorem start_sound (s : TrackState R) (token : Token) (pitch : Pitch) (seconds : R) :
    (s.sound token pitch seconds).value.start = s.clock.cursor ∧
      (s.sound token pitch seconds).value.duration = seconds := by
  unfold sound
  dsimp only
  split
  · exact ⟨rfl, rfl⟩
  · exact ⟨rfl, rfl⟩

theorem measure_congr (h : s.clock = s'.clock) (token : Token) (d : Duration) :
    (s.measure token d).value = (s'.measure token d).value := by
  unfold measure
  simp only [Noted.value_bind, h]

theorem value_step_direction (s : TrackState R) (direction : OctaveStep) :
    (s.step (.step direction)).value = (none, { s with octave := History.moveOctave s.octave (.step direction) }) := by
  rw [History.moveOctave_step]
  unfold step
  dsimp only
  cases s.octave.shift? direction.delta <;> rfl

omit [Scalar R] in
theorem assign_congr (h : s.clock = s'.clock) (setting : Setting) (value : UInt32) :
    (s.assign setting value).value.clock = (s'.assign setting value).value.clock := by
  unfold assign
  cases setting with
  | octave => cases Octave.ofInt? value.toNat <;> exact h
  | length =>
    rw [h]
    cases s'.clock.setLength? value with
    | none => exact h
    | some clock => rfl
  | tempo =>
    rw [h]
    cases s'.clock.setTempo? value with
    | none => exact h
    | some clock => rfl
  | volume => exact congrArg (Clockwork.setVolume · value) h

theorem step_sameTime (h : s.clock = s'.clock) (token : Token) :
    List.Forall₂ Instruction.SameTime (s.step token).value.1.toList (s'.step token).value.1.toList ∧
      (s.step token).value.2.clock = (s'.step token).value.2.clock := by
  have hcursor : s.clock.cursor = s'.clock.cursor := by rw [h]
  have hlater : ∀ seconds, (s.advance seconds).clock = (s'.advance seconds).clock :=
    fun seconds => congrArg (Clockwork.advance · seconds) h
  cases token with
  | note pitch d =>
    simp only [step, Noted.value_bind, measure_congr h]
    cases (s'.measure (.note pitch d) d).value with
    | none => exact ⟨.nil, h⟩
    | some seconds =>
      obtain ⟨hstart, hduration⟩ := s.start_sound (.note pitch d) pitch seconds
      obtain ⟨hstart', hduration'⟩ := s'.start_sound (.note pitch d) pitch seconds
      refine ⟨.cons ⟨?_, ?_⟩ .nil, hlater seconds⟩
      · exact hstart.trans (hcursor.trans hstart'.symm)
      · exact hduration.trans hduration'.symm
  | rest d =>
    simp only [step, Noted.value_bind, measure_congr h]
    cases (s'.measure (.rest d) d).value with
    | none => exact ⟨.nil, h⟩
    | some seconds => exact ⟨.cons ⟨hcursor, rfl⟩ .nil, hlater seconds⟩
  | step direction =>
    rw [value_step_direction, value_step_direction]
    exact ⟨.nil, h⟩
  | set setting value => exact ⟨.nil, assign_congr h setting value⟩

theorem steps_sameTime (h : s.clock = s'.clock) (tokens : List Token) :
    List.Forall₂ Instruction.SameTime (s.steps tokens).value.1 (s'.steps tokens).value.1 := by
  induction tokens generalizing s s' with
  | nil => exact .nil
  | cons t rest ih =>
    obtain ⟨hfirst, hclock⟩ := step_sameTime h t
    exact List.rel_append hfirst (ih hclock)

theorem events_steps_snoc (s : TrackState R) (tokens : List Token) (token : Token) :
    (s.steps (tokens ++ [token])).events =
      (s.steps tokens).events ++ ((s.steps tokens).value.2.step token).events := by
  induction tokens generalizing s with
  | nil => simp [steps]
  | cons t rest ih => simp [steps, ih]

theorem number_of_unrefused {t : Token} (h : (s.step t).events.any Event.isStepRefused = false)
    (hset : t.setsOctave = false) : (History.moveOctave s.octave t).number = s.octave.number + t.delta := by
  cases t with
  | step direction =>
    rw [History.moveOctave_step]
    cases hshift : s.octave.shift? direction.delta with
    | none =>
      unfold step at h
      simp only [hshift] at h
      cases h
    | some octave =>
      unfold Octave.shift? Octave.ofInt? at hshift
      split at hshift
      · cases hshift
        rfl
      · cases hshift
  | set s value =>
    rw [History.moveOctave_of_not_setsOctave hset]
    exact (Int.add_zero _).symm
  | note | rest => exact (Int.add_zero _).symm

end AnyScalars

end TrackState

/-! ## Refused steps -/

namespace Schedule
variable (d : Defaults) (origin : ℝ)

/-- The state of a track after some of its tokens. -/
noncomputable def after (past : List Token) : TrackState ℝ := ((initial d origin .reference).value.steps past).value.2

theorem follows_after (past : List Token) : Follows d origin past (after d origin past) :=
  ((Follows.initial d origin).steps past).2

theorem refusesStep_eq (tokens : List Token) :
    refusesStep d tokens origin =
      ((initial d origin .reference).value.steps tokens).events.any Event.isStepRefused := by
  have hinitial : (initial d origin .reference).events.any Event.isStepRefused = false := by
    unfold initial
    cases Octave.ofInt? d.octave <;> rfl
  simp [refusesStep, run, runFrom, Noted.note, hinitial, Event.isStepRefused]

theorem refusesStep_snoc (past : List Token) (t : Token) :
    refusesStep d (past ++ [t]) origin =
      (refusesStep d past origin || ((after d origin past).step t).events.any Event.isStepRefused) := by
  rw [refusesStep_eq, refusesStep_eq, TrackState.events_steps_snoc, List.any_append]
  rfl

end Schedule

/-! ## The gap -/

namespace History
variable (d : Defaults) (lower upper : Int)

/-- How many octaves lie between what the past leads to from two starting octaves. -/
def gap (past : List Token) : ℤ :=
  (octave { d with octave := upper } past).number - (octave { d with octave := lower } past).number

def gaps (tokens : List Token) : List ℤ :=
  ((withPast tokens).filter fun p => p.2.isNote).map fun p => gap d lower upper p.1

theorem gaps_snoc (past : List Token) (t : Token) :
    gaps d lower upper (past ++ [t]) =
      gaps d lower upper past ++ if t.isNote then [gap d lower upper past] else [] := by
  unfold gaps
  rw [withPast_snoc, List.filter_append, List.map_append]
  cases h : t.isNote <;> simp [h]

theorem length_gaps (tokens : List Token) : (gaps d lower upper tokens).length = tokens.countP Token.isNote := by
  induction tokens using List.reverseRecOn with
  | nil => rfl
  | append_singleton tokens t ih =>
    rw [gaps_snoc, List.length_append, ih, List.countP_append]
    cases h : t.isNote <;> simp [h]

/-- The note after a past finds the gap that the past has left. -/
theorem gaps_getElem? (past : List Token) {t : Token} (ht : t.isNote = true) (later : List Token) :
    (gaps d lower upper (past ++ t :: later))[past.countP Token.isNote]? = some (gap d lower upper past) := by
  -- later tokens add their gaps behind, so that this one keeps its place
  induction later using List.reverseRecOn with
  | nil =>
    rw [gaps_snoc, if_pos ht, ← length_gaps d lower upper past]
    simp
  | append_singleton later u ih =>
    rw [← List.cons_append, ← List.append_assoc, gaps_snoc]
    exact List.getElem?_append_left (List.getElem?_eq_some_iff.1 ih).1 ▸ ih

variable {d lower upper}

theorem octave_nil {o : Int} (hlower : 0 ≤ o) (hupper : o ≤ 10) : (octave { d with octave := o } []).number = o := by
  simp [octave, firstOctave, hlower, hupper]

/-- Where no step is refused, the last token moves the octave by what it says. -/
theorem octave_of_unrefused {origin : ℝ} {past : List Token} {t : Token}
    (h : Schedule.refusesStep d (past ++ [t]) origin = false) (hset : t.setsOctave = false) :
    Schedule.refusesStep d past origin = false ∧
      (octave d (past ++ [t])).number = (octave d past).number + t.delta := by
  rw [Schedule.refusesStep_snoc, Bool.or_eq_false_iff] at h
  have hoctave := (Schedule.follows_after d origin past).octave
  have hmove := TrackState.number_of_unrefused h.2 hset
  rw [hoctave, ← octave_snoc] at hmove
  exact ⟨h.1, hmove⟩

section Order
variable (hlower : 0 ≤ lower) (hle : lower ≤ upper) (hupper : upper ≤ 10)
include hlower hle hupper

theorem gap_nil : gap d lower upper [] = upper - lower := by
  unfold gap
  rw [octave_nil (hlower.trans hle) hupper, octave_nil hlower (hle.trans hupper)]

theorem gap_nonneg (past : List Token) : 0 ≤ gap d lower upper past := by
  induction past using List.reverseRecOn with
  | nil =>
    rw [gap_nil hlower hle hupper]
    omega
  | append_singleton past t ih =>
    unfold gap at ih ⊢
    rw [octave_snoc, octave_snoc]
    exact (moveOctave_between (sub_nonneg.1 ih) t).1

theorem gap_snoc_le (past : List Token) (t : Token) : gap d lower upper (past ++ [t]) ≤ gap d lower upper past := by
  have hgap := gap_nonneg (d := d) hlower hle hupper past
  unfold gap at hgap ⊢
  rw [octave_snoc, octave_snoc]
  exact (moveOctave_between (sub_nonneg.1 hgap) t).2

/-- **The gaps never grow**, and the gap after a track is none of the smaller ones before it. -/
theorem pairwise_gaps (tokens : List Token) :
    ((upper - lower) :: gaps d lower upper tokens).Pairwise (· ≥ ·) ∧
      ∀ k ∈ (upper - lower) :: gaps d lower upper tokens, gap d lower upper tokens ≤ k := by
  induction tokens using List.reverseRecOn with
  | nil =>
    rw [gap_nil hlower hle hupper]
    simp [gaps, withPast]
  | append_singleton tokens t ih =>
    obtain ⟨hpairwise, hleast⟩ := ih
    have hnext := gap_snoc_le (d := d) hlower hle hupper tokens t
    rw [gaps_snoc, ← List.cons_append]
    cases ht : t.isNote with
    | false =>
      rw [if_neg Bool.false_ne_true, List.append_nil]
      exact ⟨hpairwise, fun k hk => hnext.trans (hleast k hk)⟩
    | true =>
      rw [if_pos rfl]
      refine ⟨List.pairwise_append.2 ⟨hpairwise, List.pairwise_singleton _ _, ?_⟩, ?_⟩
      · intro k hk l hl
        rw [List.mem_singleton.1 hl]
        exact hleast k hk
      · intro k hk
        rcases List.mem_append.1 hk with hk | hk
        · exact hnext.trans (hleast k hk)
        · rw [List.mem_singleton.1 hk]
          exact hnext

/-- A setting of the octave closes the gap for good. -/
theorem gap_of_set {past : List Token} (h : past.any Token.setsOctave = true) : gap d lower upper past = 0 := by
  induction past using List.reverseRecOn with
  | nil => cases h
  | append_singleton past t ih =>
    cases ht : t.setsOctave with
    | true =>
      unfold gap
      rw [octave_snoc, octave_snoc, moveOctave_of_setsOctave ht, sub_self]
    | false =>
      -- closed before, the gap can neither open again nor turn round
      have hpast : past.any Token.setsOctave = true := by simpa [ht] using h
      have hnext := gap_snoc_le (d := d) hlower hle hupper past t
      have hnonneg := gap_nonneg (d := d) hlower hle hupper (past ++ [t])
      rw [ih hpast] at hnext
      omega

/-- As long as no step is refused in either run, and the octave is not set, the gap stays. -/
theorem gap_of_unrefused (origin : ℝ) {past : List Token}
    (hfirst : Schedule.refusesStep { d with octave := lower } past origin = false)
    (hsecond : Schedule.refusesStep { d with octave := upper } past origin = false)
    (hset : past.any Token.setsOctave = false) : gap d lower upper past = upper - lower := by
  induction past using List.reverseRecOn with
  | nil => exact gap_nil hlower hle hupper
  | append_singleton past t ih =>
    obtain ⟨hpast, ht⟩ : past.any Token.setsOctave = false ∧ t.setsOctave = false := by simpa using hset
    obtain ⟨hfirst, hmove⟩ := octave_of_unrefused hfirst ht
    obtain ⟨hsecond, hmove'⟩ := octave_of_unrefused hsecond ht
    have hgap := ih hfirst hsecond hpast
    unfold gap at hgap ⊢
    omega

end Order

end History

/-! ## The notes of both runs -/

theorem tones_instructions_snoc (d : Defaults) (origin : ℝ) (past : List Token) (t : Token) :
    (History.instructions d origin (past ++ [t])).filterMap Instruction.tone? =
      (History.instructions d origin past).filterMap Instruction.tone? ++
        ((History.instruction? d origin past t).bind Instruction.tone?).toList := by
  rw [History.instructions_snoc, List.filterMap_append]
  cases History.instruction? d origin past t with
  | none => rfl
  | some i => cases h : i.tone? <;> simp [h]

theorem length_tones (d : Defaults) (origin : ℝ) (tokens : List Token) :
    ((History.instructions d origin tokens).filterMap Instruction.tone?).length = tokens.countP Token.isNote := by
  induction tokens using List.reverseRecOn with
  | nil => rfl
  | append_singleton past t ih =>
    rw [tones_instructions_snoc, List.length_append, List.countP_append, ih]
    cases t <;> rfl

theorem tones_raised (d : Defaults) (lower upper : Int) (origin : ℝ) (tokens : List Token) :
    (History.instructions { d with octave := upper } origin tokens).filterMap Instruction.tone? =
      List.zipWith Schedule.raised (History.gaps d lower upper tokens)
        ((History.instructions { d with octave := lower } origin tokens).filterMap Instruction.tone?) := by
  induction tokens using List.reverseRecOn with
  | nil => rfl
  | append_singleton past t ih =>
    have hlength : (History.gaps d lower upper past).length =
        ((History.instructions { d with octave := lower } origin past).filterMap Instruction.tone?).length := by
      rw [History.length_gaps, length_tones]
    -- the clock of both runs is the same, so that only the frequency of a last note is left to compare
    rw [tones_instructions_snoc, tones_instructions_snoc, History.gaps_snoc, List.zipWith_append hlength, ih]
    congr 1
    cases t with
    | note pitch duration =>
      have hfrequency := Octave.frequency_raised (History.octave { d with octave := lower } past)
        (History.octave { d with octave := upper } past) pitch
      simp only [History.instruction?, Option.bind_some, Instruction.tone?, Option.toList_some, Token.isNote, if_true,
        List.zipWith_cons_cons, List.zipWith_nil_left, Schedule.raised, Nat.cast_ofNat]
      rw [hfrequency]
      rfl
    | _ => rfl

/-- **A track from two starting octaves.** Over any scalars, both runs do the same at the same times. Over exact numbers
every note of the second run is the note of the first one, raised by whole octaves: never by more than the note before
it, by the distance of the starting octaves as long as no step is refused and the octave is not set, and by nothing from
the first setting of the octave on. -/
theorem parallel_octaves (d : Defaults) {lower upper : Int} (hlower : 0 ≤ lower) (hle : lower ≤ upper)
    (hupper : upper ≤ 10) (tokens : List Token) :
    (∀ {R : Type} [Scalar R] (origin : R),
      List.Forall₂ Instruction.SameTime (Schedule.run { d with octave := lower } tokens origin).value
        (Schedule.run { d with octave := upper } tokens origin).value) ∧
      ∃ gaps : List ℤ, gaps.length = tokens.countP Token.isNote ∧
        ((upper - lower) :: gaps).Pairwise (· ≥ ·) ∧ (∀ k ∈ gaps, 0 ≤ k) ∧
        ∀ origin : ℝ,
          (Schedule.tones { d with octave := lower } tokens origin).length = gaps.length ∧
          Schedule.tones { d with octave := upper } tokens origin =
            List.zipWith Schedule.raised gaps (Schedule.tones { d with octave := lower } tokens origin) ∧
          ∀ past pitch duration later, tokens = past ++ .note pitch duration :: later →
            ∃ k, gaps[past.countP Token.isNote]? = some k ∧
              (Schedule.refusesStep { d with octave := lower } past origin = false →
                Schedule.refusesStep { d with octave := upper } past origin = false →
                past.any Token.setsOctave = false → k = upper - lower) ∧
              (past.any Token.setsOctave = true → k = 0) := by
  obtain ⟨hpairwise, hleast⟩ := History.pairwise_gaps (d := d) hlower hle hupper tokens
  refine ⟨fun origin => ?_, History.gaps d lower upper tokens, History.length_gaps d lower upper tokens, hpairwise,
    fun k hk => ?_, fun origin => ⟨?_, ?_, ?_⟩⟩
  · apply TrackState.steps_sameTime
    rw [Schedule.value_initial, Schedule.value_initial]
    rfl
  · exact (History.gap_nonneg hlower hle hupper tokens).trans (hleast k (List.mem_cons_of_mem _ hk))
  · rw [Schedule.tones, Schedule.value_run, length_tones, History.length_gaps]
  · rw [Schedule.tones, Schedule.tones, Schedule.value_run, Schedule.value_run]
    exact tones_raised d lower upper origin tokens
  · rintro past pitch duration later rfl
    refine ⟨_, History.gaps_getElem? d lower upper past rfl later, ?_, ?_⟩
    · exact History.gap_of_unrefused hlower hle hupper origin
    · exact History.gap_of_set hlower hle hupper

/-- The track `c>>do4e`. -/
def climb : List Token :=
  [.note ⟨.c, .natural⟩ .empty, .step .up, .step .up, .note ⟨.d, .natural⟩ .empty, .set .octave 4,
    .note ⟨.e, .natural⟩ .empty]

/-- From the octaves 1 and 9 the steps lead to 3 and 10, and in the end both runs are in octave 4. -/
theorem parallel_octaves_climb :
    (0 : Int) ≤ 1 ∧ (1 : Int) ≤ 9 ∧ (9 : Int) ≤ 10 ∧ ∃ k : ℤ, 8 ≥ k ∧ k ≥ 0 ∧
      Schedule.tones { octave := 9 } climb (0 : ℝ) =
        List.zipWith Schedule.raised [8, k, 0] (Schedule.tones { octave := 1 } climb 0) := by
  obtain ⟨-, gaps, hlength, hpairwise, hnonneg, hrun⟩ :=
    parallel_octaves {} (by decide : (0 : Int) ≤ 1) (by decide : (1 : Int) ≤ 9) (by decide) climb
  obtain ⟨-, htones, hgap⟩ := hrun 0
  obtain ⟨first, hfirst, hstays, -⟩ := hgap [] _ _ _ rfl
  obtain ⟨last, hlast, -, hclosed⟩ := hgap [_, _, _, _, _] _ _ [] rfl
  have hquiet : ∀ o : Int, Schedule.refusesStep { octave := o } [] (0 : ℝ) = false := fun o => by
    rw [Schedule.refusesStep_eq]
    rfl
  obtain ⟨a, k, b, rfl⟩ : ∃ a k b, gaps = [a, k, b] := List.length_eq_three.1 hlength
  obtain rfl : a = 8 := by
    rw [Option.some.inj hfirst, hstays (hquiet 1) (hquiet 9) rfl]
    rfl
  obtain rfl : b = 0 := by
    rw [Option.some.inj hlast, hclosed rfl]
  refine ⟨by decide, by decide, by decide, k, ?_, hnonneg k (by simp), htones⟩
  exact (List.pairwise_cons.1 hpairwise).1 k (by simp)

end MusicMacro
