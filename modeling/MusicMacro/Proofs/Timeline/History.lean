import Mathlib.Data.List.Infix
import MusicMacro.Proofs.Score.Lasting
import MusicMacro.Timeline.Schedule

/-!
# A track by its history

What a token becomes is determined by the tokens before it. This is said here without a state that is carried along.

* `History.tempo`, `length`, `volume`, `octave` : the values that the past of a token leaves it;
* `History.seconds`, `History.start` : how long it lasts and when it begins;
* `History.instruction?` : the instruction of a token;
* `Follows` : a track state that is what the past says; `Follows.step` : one token keeps it so;
* `run_eq_history` : a track is scheduled by its history, with one instruction for every note and rest and without
  gaps.
-/

namespace MusicMacro

def Token.isTimed : Token → Bool
  | .note .. | .rest _ => true
  | _ => false

def Token.valueOf? (s : Setting) : Token → Option UInt32
  | .set t value => if t = s then some value else none
  | _ => none

/-! ## What the past says -/

namespace History

def values (s : Setting) (past : List Token) : List UInt32 := past.filterMap (Token.valueOf? s)

/-- The last value of a setting that is not zero; before any, its default, and the usual value if that is zero. -/
def lastNonzero (s : Setting) (default usual : UInt32) (past : List Token) : UInt32 :=
  ((values s past).filter (· ≠ 0)).getLastD (if default = 0 then usual else default)

/-- The tempo that the past leaves; the usual one is 100. -/
def tempo (d : Defaults) (past : List Token) : UInt32 := lastNonzero .tempo d.tempo 100 past

/-- The length that the past leaves; the usual one is 1. -/
def length (d : Defaults) (past : List Token) : UInt32 := lastNonzero .length d.length 1 past

/-- The last volume, or else the default, cut to 100. -/
def volume (d : Defaults) (past : List Token) : UInt32 := min ((values .volume past).getLastD d.volume) 100

/-- The octave after a token: steps and settings that lead out of the range from 0 to 10 are passed over. -/
def moveOctave (o : Octave) : Token → Octave
  | .step s => if h : 0 ≤ o.number + s.delta ∧ o.number + s.delta ≤ 10 then ⟨o.number + s.delta, h.1, h.2⟩ else o
  | .set .octave value => if h : value.toNat ≤ 10 then ⟨value.toNat, by omega, by omega⟩ else o
  | _ => o

/-- The octave that a track starts in: the default if it lies in the range, and otherwise the reference octave, 4. -/
def firstOctave (d : Defaults) : Octave :=
  if h : 0 ≤ d.octave ∧ d.octave ≤ 10 then ⟨d.octave, h.1, h.2⟩ else .reference

def octave (d : Defaults) (past : List Token) : Octave := past.foldl moveOctave (firstOctave d)

/-- The seconds of a written duration. -/
noncomputable def seconds (d : Defaults) (past : List Token) (duration : Duration) : ℝ :=
  duration.wholeNotes (length d past) * 240 / ((tempo d past).toNat : ℝ)

noncomputable def span (d : Defaults) (past : List Token) : Token → ℝ
  | .note _ duration => seconds d past duration
  | .rest duration => seconds d past duration
  | _ => 0

/-- Every token with the tokens before it. -/
def withPast (tokens : List Token) : List (List Token × Token) := tokens.inits.zip tokens

/-- The time at which the next note or rest begins. -/
noncomputable def start (d : Defaults) (origin : ℝ) (past : List Token) : ℝ :=
  origin + ((withPast past).map fun p => span d p.1 p.2).sum

noncomputable def instruction? (d : Defaults) (origin : ℝ) (past : List Token) : Token → Option (Instruction ℝ)
  | .note pitch duration =>
    some (.play ((octave d past).frequency pitch) (start d origin past) (seconds d past duration) (volume d past))
  | .rest duration => some (.rest (start d origin past) (seconds d past duration))
  | _ => none

noncomputable def instructions (d : Defaults) (origin : ℝ) (tokens : List Token) : List (Instruction ℝ) :=
  (withPast tokens).filterMap fun p => instruction? d origin p.1 p.2

/-! ## One more token -/

theorem moveOctave_step (o : Octave) (s : OctaveStep) : moveOctave o (.step s) = (o.shift? s.delta).getD o := by
  simp only [moveOctave, Octave.shift?, Octave.ofInt?]
  split <;> rfl

theorem moveOctave_set (o : Octave) (value : UInt32) :
    moveOctave o (.set .octave value) = (Octave.ofInt? value.toNat).getD o := by
  have hnat : 0 ≤ (value.toNat : Int) ∧ (value.toNat : Int) ≤ 10 ↔ value.toNat ≤ 10 := by omega
  simp only [moveOctave, Octave.ofInt?]
  by_cases h : value.toNat ≤ 10
  · simp only [dif_pos h, dif_pos (hnat.2 h), Option.getD_some]
  · simp only [dif_neg h, dif_neg (fun hr => h (hnat.1 hr)), Option.getD_none]

theorem firstOctave_eq (d : Defaults) : firstOctave d = (Octave.ofInt? d.octave).getD .reference := by
  unfold firstOctave Octave.ofInt?
  split <;> rfl

theorem zip_inits_snoc (before tokens : List Token) (token : Token) :
    ((tokens ++ [token]).inits.map (before ++ ·)).zip (tokens ++ [token]) =
      (tokens.inits.map (before ++ ·)).zip tokens ++ [(before ++ tokens, token)] := by
  induction tokens generalizing before with
  | nil => simp
  | cons t rest ih =>
    have h := ih (before ++ [t])
    simp only [List.append_assoc, List.singleton_append] at h
    simpa [List.map_map, Function.comp_def] using h

theorem withPast_snoc (past : List Token) (token : Token) :
    withPast (past ++ [token]) = withPast past ++ [(past, token)] := by
  have h := zip_inits_snoc [] past token
  simpa [withPast] using h

theorem values_snoc (s : Setting) (past : List Token) (token : Token) :
    values s (past ++ [token]) = values s past ++ (token.valueOf? s).toList := by
  unfold values
  cases h : token.valueOf? s <;> simp [h]

theorem lastNonzero_snoc (s : Setting) (default usual : UInt32) (past : List Token) (token : Token) :
    lastNonzero s default usual (past ++ [token]) =
      (token.valueOf? s).elim (lastNonzero s default usual past)
        fun value => if value = 0 then lastNonzero s default usual past else value := by
  unfold lastNonzero
  rw [values_snoc, List.filter_append]
  cases h : token.valueOf? s with
  | none => simp
  | some value => by_cases hv : value = 0 <;> simp [hv]

theorem volume_snoc (d : Defaults) (past : List Token) (token : Token) :
    volume d (past ++ [token]) = (token.valueOf? .volume).elim (volume d past) (min · 100) := by
  unfold volume
  rw [values_snoc]
  cases h : token.valueOf? .volume <;> simp

theorem octave_snoc (d : Defaults) (past : List Token) (token : Token) :
    octave d (past ++ [token]) = moveOctave (octave d past) token := by
  unfold octave
  rw [List.foldl_append, List.foldl_cons, List.foldl_nil]

theorem start_snoc (d : Defaults) (origin : ℝ) (past : List Token) (token : Token) :
    start d origin (past ++ [token]) = start d origin past + span d past token := by
  unfold start
  rw [withPast_snoc, List.map_append, List.sum_append, List.map_singleton, List.sum_singleton, add_assoc]

theorem instructions_snoc (d : Defaults) (origin : ℝ) (past : List Token) (token : Token) :
    instructions d origin (past ++ [token]) =
      instructions d origin past ++ (instruction? d origin past token).toList := by
  unfold instructions
  rw [withPast_snoc, List.filterMap_append]
  cases h : instruction? d origin past token <;> simp [h]

end History

/-! ## Steps of a track -/

theorem Clockwork.seconds_pos (c : Clockwork ℝ) (d : Duration) : 0 < c.seconds d := by
  have htempo : (0 : ℝ) < (c.tempo.toNat : ℝ) := by
    have : c.tempo.toNat ≠ 0 := fun h => c.tempo_ne (UInt32.toNat_inj.1 h)
    exact Nat.cast_pos.2 (Nat.pos_of_ne_zero this)
  have hwhole : (0 : ℝ) < c.wholeNote := by
    unfold wholeNote
    positivity
  exact mul_pos (d.wholeNotes_pos c.length) hwhole

namespace TrackState

theorem value_measure (s : TrackState ℝ) (token : Token) (d : Duration) :
    (s.measure token d).value = some (s.clock.seconds d) := by
  have hpos : Scalar.isPositive (s.clock.seconds d) = true := (isPositive_iff _).2 (s.clock.seconds_pos d)
  unfold measure
  rw [if_pos hpos]
  rfl

theorem value_sound (s : TrackState ℝ) (token : Token) (pitch : Pitch) (seconds : ℝ) :
    (s.sound token pitch seconds).value =
      .play (s.octave.frequency pitch) s.clock.cursor seconds s.clock.volume := by
  have hpos : Scalar.isPositive (s.octave.frequency pitch : ℝ) = true := by
    rw [isPositive_iff]
    unfold Octave.frequency Octave.scale concertA
    have := halfSteps_pos pitch.halfStepsFromA
    have := octaves_pos (s.octave.number - Octave.reference.number)
    positivity
  simp [sound, hpos]

theorem value_steps_snoc (s : TrackState ℝ) (tokens : List Token) (token : Token) :
    (s.steps (tokens ++ [token])).value =
      ((s.steps tokens).value.1 ++ ((s.steps tokens).value.2.step token).value.1.toList,
        ((s.steps tokens).value.2.step token).value.2) := by
  induction tokens generalizing s with
  | nil => simp [steps]
  | cons t rest ih => simp [steps, ih]

end TrackState

/-- `Follows d origin past s` : the state `s` is what the past says. -/
structure Follows (d : Defaults) (origin : ℝ) (past : List Token) (s : TrackState ℝ) : Prop where
  tempo : s.clock.tempo = History.tempo d past
  length : s.clock.length = History.length d past
  volume : s.clock.volume = History.volume d past
  cursor : s.clock.cursor = History.start d origin past
  octave : s.octave = History.octave d past

namespace Follows
variable {d : Defaults} {origin : ℝ} {past : List Token} {s : TrackState ℝ}

theorem initial (d : Defaults) (origin : ℝ) :
    Follows d origin [] (Schedule.initial d origin .reference).value := by
  have hvolume : Clockwork.cutVolume d.volume = min d.volume 100 := rfl
  have hstart : origin = History.start d origin [] := by simp [History.start, History.withPast]
  have hoctave : History.octave d [] = (Octave.ofInt? d.octave).getD .reference := History.firstOctave_eq d
  unfold Schedule.initial
  cases h : Octave.ofInt? d.octave with
  | none => exact ⟨rfl, rfl, hvolume, hstart, by rw [hoctave, h]; rfl⟩
  | some octave => exact ⟨rfl, rfl, hvolume, hstart, by rw [hoctave, h]; rfl⟩

theorem seconds_eq (h : Follows d origin past s) (duration : Duration) :
    s.clock.seconds duration = History.seconds d past duration := by
  unfold Clockwork.seconds Clockwork.wholeNote History.seconds
  rw [h.tempo, h.length, mul_div_assoc]
  norm_num

theorem snoc (h : Follows d origin past s) {token : Token} {t : TrackState ℝ}
    (htempo : t.clock.tempo =
      (token.valueOf? .tempo).elim s.clock.tempo fun value => if value = 0 then s.clock.tempo else value)
    (hlength : t.clock.length =
      (token.valueOf? .length).elim s.clock.length fun value => if value = 0 then s.clock.length else value)
    (hvolume : t.clock.volume = (token.valueOf? .volume).elim s.clock.volume (min · 100))
    (hcursor : t.clock.cursor = s.clock.cursor + History.span d past token)
    (hoctave : t.octave = History.moveOctave s.octave token) : Follows d origin (past ++ [token]) t where
  tempo := by
    rw [History.tempo, History.lastNonzero_snoc, htempo, h.tempo]
    rfl
  length := by
    rw [History.length, History.lastNonzero_snoc, hlength, h.length]
    rfl
  volume := by rw [History.volume_snoc, hvolume, h.volume]
  cursor := by rw [History.start_snoc, hcursor, h.cursor]
  octave := by rw [History.octave_snoc, hoctave, h.octave]

theorem step_octave (h : Follows d origin past s) (direction : OctaveStep) :
    (s.step (.step direction)).value.1 = none ∧
      Follows d origin (past ++ [.step direction]) (s.step (.step direction)).value.2 := by
  have hspan : s.clock.cursor = s.clock.cursor + History.span d past (.step direction) := (add_zero _).symm
  have hoctave := History.moveOctave_step s.octave direction
  cases hshift : s.octave.shift? direction.delta with
  | none =>
    rw [hshift] at hoctave
    simp only [TrackState.step, hshift]
    exact ⟨trivial, h.snoc rfl rfl rfl hspan hoctave.symm⟩
  | some octave =>
    rw [hshift] at hoctave
    simp only [TrackState.step, hshift]
    exact ⟨rfl, h.snoc rfl rfl rfl hspan hoctave.symm⟩

theorem assign (h : Follows d origin past s) (setting : Setting) (value : UInt32) :
    Follows d origin (past ++ [.set setting value]) (s.assign setting value).value := by
  have hspan : s.clock.cursor = s.clock.cursor + History.span d past (.set setting value) := (add_zero _).symm
  unfold TrackState.assign
  cases setting with
  | octave =>
    have hoctave := History.moveOctave_set s.octave value
    cases hoctave? : Octave.ofInt? value.toNat with
    | none =>
      rw [hoctave?] at hoctave
      exact h.snoc rfl rfl rfl hspan hoctave.symm
    | some octave =>
      rw [hoctave?] at hoctave
      exact h.snoc rfl rfl rfl hspan hoctave.symm
  | length =>
    unfold Clockwork.setLength?
    by_cases hzero : value = 0
    · simp only [hzero, ne_eq, not_true_eq_false, dite_false]
      exact h.snoc rfl rfl rfl hspan rfl
    · simp only [hzero, ne_eq, not_false_eq_true, dite_true]
      exact h.snoc rfl (if_neg hzero).symm rfl hspan rfl
  | tempo =>
    unfold Clockwork.setTempo?
    by_cases hzero : value = 0
    · simp only [hzero, ne_eq, not_true_eq_false, dite_false]
      exact h.snoc rfl rfl rfl hspan rfl
    · simp only [hzero, ne_eq, not_false_eq_true, dite_true]
      exact h.snoc (if_neg hzero).symm rfl rfl hspan rfl
  | volume => exact h.snoc rfl rfl rfl hspan rfl

/-- **One token** becomes the instruction that its past determines, and the state goes on with the past. -/
theorem step (h : Follows d origin past s) (token : Token) :
    (s.step token).value.1 = History.instruction? d origin past token ∧
      Follows d origin (past ++ [token]) (s.step token).value.2 := by
  cases token with
  | note pitch duration =>
    unfold TrackState.step
    simp only [Noted.value_bind, TrackState.value_measure, TrackState.value_sound, Noted.value_pure]
    rw [h.seconds_eq, h.octave, h.cursor, h.volume]
    exact ⟨rfl, h.snoc rfl rfl rfl rfl rfl⟩
  | rest duration =>
    unfold TrackState.step
    simp only [Noted.value_bind, TrackState.value_measure, Noted.value_pure]
    rw [h.seconds_eq, h.cursor]
    exact ⟨rfl, h.snoc rfl rfl rfl rfl rfl⟩
  | step direction => exact h.step_octave direction
  | set setting value => exact ⟨rfl, h.assign setting value⟩

theorem steps (h : Follows d origin [] s) (tokens : List Token) :
    (s.steps tokens).value.1 = History.instructions d origin tokens ∧
      Follows d origin tokens (s.steps tokens).value.2 := by
  induction tokens using List.reverseRecOn with
  | nil => exact ⟨rfl, h⟩
  | append_singleton tokens token ih =>
    obtain ⟨hinstructions, hfollows⟩ := ih
    obtain ⟨hinstruction, hnext⟩ := hfollows.step token
    rw [TrackState.value_steps_snoc]
    refine ⟨?_, hnext⟩
    rw [hinstructions, hinstruction, History.instructions_snoc]

end Follows

/-! ## The whole track -/

namespace History

theorem duration_instruction? (d : Defaults) (origin : ℝ) (past : List Token) (token : Token) :
    (((instruction? d origin past token).toList).map Instruction.duration).sum = span d past token := by
  cases token with
  | note => simp [instruction?, span, Instruction.duration]
  | rest => simp [instruction?, span, Instruction.duration]
  | _ => rfl

theorem start_instruction? {d : Defaults} {origin : ℝ} {past : List Token} {token : Token} {i : Instruction ℝ}
    (h : i ∈ (instruction? d origin past token).toList) : i.start = start d origin past := by
  rw [Option.mem_toList] at h
  cases token with
  | note => cases h; rfl
  | rest => cases h; rfl
  | _ => cases h

/-- The next note begins when all earlier ones are over. -/
theorem start_eq_sum (d : Defaults) (origin : ℝ) (tokens : List Token) :
    start d origin tokens = origin + ((instructions d origin tokens).map Instruction.duration).sum := by
  induction tokens using List.reverseRecOn with
  | nil => rfl
  | append_singleton tokens token ih =>
    rw [start_snoc, instructions_snoc, List.map_append, List.sum_append, duration_instruction?, ih, add_assoc]

theorem length_instructions (d : Defaults) (origin : ℝ) (tokens : List Token) :
    (instructions d origin tokens).length = tokens.countP Token.isTimed := by
  induction tokens using List.reverseRecOn with
  | nil => rfl
  | append_singleton tokens token ih =>
    rw [instructions_snoc, List.length_append, ih, List.countP_append]
    cases token <;> rfl

theorem start_getElem (d : Defaults) (origin : ℝ) (tokens : List Token) (n : Nat)
    (hn : n < (instructions d origin tokens).length) :
    (instructions d origin tokens)[n].start =
      origin + (((instructions d origin tokens).take n).map Instruction.duration).sum := by
  induction tokens using List.reverseRecOn with
  | nil => exact absurd hn (Nat.not_lt_zero n)
  | append_singleton tokens token ih =>
    rw [instructions_snoc, List.length_append] at hn
    simp only [instructions_snoc]
    by_cases hold : n < (instructions d origin tokens).length
    · rw [List.getElem_append_left hold, List.take_append_of_le_length hold.le]
      exact ih hold
    · have hone : ((instruction? d origin tokens token).toList).length ≤ 1 := by
        cases instruction? d origin tokens token <;> simp
      have hlast : n = (instructions d origin tokens).length := by omega
      subst hlast
      rw [List.getElem_append_right (Nat.le_refl _), List.take_left,
        start_instruction? (List.getElem_mem _), start_eq_sum]

theorem start_succ (d : Defaults) (origin : ℝ) (tokens : List Token) (n : Nat)
    (hn : n + 1 < (instructions d origin tokens).length) :
    (instructions d origin tokens)[n + 1].start = (instructions d origin tokens)[n].finish := by
  have htake := List.take_concat_get' (instructions d origin tokens) n (by omega)
  rw [start_getElem, ← htake, List.map_append, List.sum_append, ← add_assoc,
    ← start_getElem d origin tokens n (by omega)]
  simp [Instruction.finish]

end History

/-- **A track is scheduled by its history**: there is one instruction for every note and rest, in their order, each is
what the tokens before it say, and each begins when the durations of all earlier ones are over. -/
theorem run_eq_history (d : Defaults) (tokens : List Token) (origin : ℝ) :
    (Schedule.run d tokens origin).value = History.instructions d origin tokens ∧
      (History.instructions d origin tokens).length = tokens.countP Token.isTimed ∧
      (∀ n (hn : n < (History.instructions d origin tokens).length),
        (History.instructions d origin tokens)[n].start =
          origin + (((History.instructions d origin tokens).take n).map Instruction.duration).sum) ∧
      (∀ first ∈ (History.instructions d origin tokens).head?, first.start = origin) ∧
      ∀ n (hn : n + 1 < (History.instructions d origin tokens).length),
        (History.instructions d origin tokens)[n + 1].start = (History.instructions d origin tokens)[n].finish := by
  have hrun : (Schedule.run d tokens origin).value = History.instructions d origin tokens := by
    simp only [Schedule.run, Schedule.runFrom, Noted.value_bind, Noted.value_pure]
    exact ((Follows.initial d origin).steps tokens).1
  refine ⟨hrun, History.length_instructions d origin tokens, History.start_getElem d origin tokens, fun first h => ?_,
    History.start_succ d origin tokens⟩
  obtain ⟨rest, hrest⟩ := List.head?_eq_some_iff.1 h
  have hzero := History.start_getElem d origin tokens 0 (by simp [hrest])
  simpa [hrest] using hzero

end MusicMacro
