import MusicMacro.Proofs.Scalar.Wide
import MusicMacro.Proofs.Sound.Asleep
import MusicMacro.Proofs.Sound.Curve
import MusicMacro.Proofs.Sound.Overdub

/-!
# What every tone adds to the sound

The phase of a voice is carried from frame to frame, and it stands still while the voice is silent. Here the sound of a
frame is said without what came before it: it is a sum over the tones, each of which depends on the number of the frame
and on nothing else.

* `ToneBank.heardAfter` : what the voices add to a later frame; `mix_eq_mapIdx` : every frame is mixed from that;
* `Voice.onset?` : the frame at which a voice begins; `phase_ticks` : its phase by the frames since then;
* `Voice.contribution` : what a tone adds to a frame; `getD_tick_ticks` : it adds just that;
* `overdub_eq_sum` : buffers, filled one after the other, get the sum of all contributions.
-/

namespace MusicMacro

/-! ## Frame by frame -/

section Frames
variable {R S : Type} [Scalar R] [Sampling R S]

theorem Voice.ticks_succ (w : Waveform) (rate n frames : Nat) (v : Voice R) :
    v.ticks (S := S) w rate n (frames + 1) =
      ((v.ticks (S := S) w rate n frames).tick w rate (n + frames) : Option S × Voice R).2 := by
  induction frames generalizing n v with
  | zero => rfl
  | succ frames ih =>
    rw [ticks, ih, show n + 1 + frames = n + (frames + 1) by omega]
    rfl

/-- Whether a voice is heard in frame `n`; its phase has no part in that. -/
def Voice.heard (rate n : Nat) (v : Voice R) : Bool :=
  Scalar.isPositive (v.turnsPerFrame rate) && v.soundsAt (Scalar.frameTime rate n)

theorem Voice.tick_phase (w : Waveform) (rate n : Nat) (v : Voice R) (phase : R) :
    ({ v with phase }.tick w rate n : Option S × Voice R) =
      if v.heard rate n = true then
        (some ({ v with phase }.sampleAt w (Scalar.frameTime rate n)), { v with phase }.turn rate)
      else (none, { v with phase }) := rfl

namespace ToneBank

/-- What the voices add to the frame that comes some frames after frame `n`. -/
def heardAfter (b : ToneBank R) (rate n frames : Nat) : List S :=
  b.voices.entries.filterMap fun e =>
    ((e.2.ticks (S := S) b.waveform rate n frames).tick b.waveform rate (n + frames)).1

theorem heardAfter_frame (b : ToneBank R) (rate n frames : Nat) :
    (b.frame rate n : List S × ToneBank R).2.heardAfter rate (n + 1) frames =
      (b.heardAfter rate n (frames + 1) : List S) := by
  rw [heardAfter, entries_frame, List.filterMap_map, show n + 1 + frames = n + (frames + 1) by omega]
  rfl

theorem mix_eq_mapIdx [Amplitude S] (b : ToneBank R) {channels : Nat} (hchannels : 0 < channels) (rate n : Nat)
    {frames : Nat} {buffer : List S} (hbuffer : buffer.length = frames * channels) :
    (b.mix channels rate n frames buffer).1 =
      buffer.mapIdx fun i s => (b.heardAfter rate n (i / channels)).foldl (· + ·) s := by
  induction frames generalizing b n buffer with
  | zero =>
    obtain rfl := List.length_eq_zero_iff.1 (hbuffer.trans (Nat.zero_mul _))
    rfl
  | succ frames ih =>
    have hroom : channels ≤ buffer.length := by
      rw [hbuffer, Nat.succ_mul]
      exact Nat.le_add_left _ _
    have hrest : (buffer.drop channels).length = frames * channels := by
      rw [List.length_drop, hbuffer, Nat.succ_mul, Nat.add_sub_cancel]
    have hparts : buffer = buffer.take channels ++ buffer.drop channels := (List.take_append_drop _ _).symm
    have hfirst : (buffer.take channels).map (fun s => (b.frame rate n).1.foldl (· + ·) s) =
        (buffer.take channels).mapIdx fun i s => (b.heardAfter rate n (i / channels)).foldl (· + ·) s := by
      refine List.ext_getElem (by simp) fun i hi _ => ?_
      have hlt : i < channels := by
        rw [List.length_map, List.length_take] at hi
        omega
      rw [List.getElem_map, List.getElem_mapIdx, Nat.div_eq_of_lt hlt]
      exact congrArg (List.foldl (· + ·) _) (b.heard_frame rate n)
    have hlater : (fun i s => ((b.frame rate n : List S × ToneBank R).2.heardAfter rate (n + 1) (i / channels)).foldl
        (· + ·) s) = fun i s => (b.heardAfter rate n ((i + channels) / channels)).foldl (· + ·) s := by
      funext i s
      rw [heardAfter_frame, Nat.add_div_right i hchannels]
    rw [mix_succ, ih _ _ hrest, hfirst, hlater]
    conv_rhs => rw [hparts, List.mapIdx_append, List.length_take, Nat.min_eq_left hroom]

/-- The samples of many buffers are those of all voices at every frame, wherever the buffers are cut. -/
theorem overdub_samples [Amplitude S] [SteadyClock R] (b : ToneBank R) {channels rate : Nat} (hchannels : 0 < channels)
    (hrate : 0 < rate) (first : Nat) {buffers : List (List S)} (hwhole : ∀ buffer ∈ buffers, channels ∣ buffer.length) :
    (b.overdub channels rate first [] buffers).1 =
      buffers.flatten.mapIdx fun i s => (b.heardAfter rate first (i / channels)).foldl (· + ·) s := by
  by_cases hsome : buffers = []
  · rw [hsome]
    rfl
  · have hmax : max channels 1 = channels := by omega
    have hdvd : channels ∣ buffers.flatten.length := by
      rw [List.length_flatten]
      exact List.dvd_sum fun length hlength => by
        obtain ⟨buffer, hbuffer, rfl⟩ := List.mem_map.1 hlength
        exact hwhole buffer hbuffer
    rw [(b.overdub_agree hchannels hrate first hsome hwhole).samples]
    show (b.mix (max channels 1) rate first (buffers.flatten.length / max channels 1) buffers.flatten).1 = _
    rw [hmax]
    exact b.mix_eq_mapIdx hchannels rate first (Nat.div_mul_cancel hdvd).symm

end ToneBank
end Frames

/-! ## One tone -/

namespace Voice
variable {rate first : Nat} {v : Voice Wide}

/-- The first frame, from a given one on, that is not before the start of a voice; there is none if it never starts. -/
noncomputable def onset? (rate first : Nat) (v : Voice Wide) : Option Nat :=
  match v.start? with
  | some (.finite start) => some (max first ⌈start * rate⌉₊)
  | some (.infinite true) => some first
  | some (.infinite false) | some .undefined | none => none

theorem le_onset {onset : Nat} (h : v.onset? rate first = some onset) : first ≤ onset := by
  unfold onset? at h
  split at h
  · cases h
    exact le_max_left _ _
  · cases h
    exact le_rfl
  all_goals cases h

/-- A voice has begun at a frame if its start is not after the time of the frame. -/
theorem onset_le_iff (hrate : 0 < rate) {n : Nat} (hfirst : first ≤ n) :
    (∃ onset ∈ v.onset? rate first, onset ≤ n) ↔ ∃ start ∈ v.start?, start ≤ Scalar.frameTime rate n := by
  have hpos : (0 : ℝ) < rate := Nat.cast_pos.2 hrate
  rw [Wide.frameTime_eq hrate]
  unfold onset?
  rcases v.start? with _ | start | negative | _
  · simp
  · simp only [Option.mem_some_iff, exists_eq_left', max_le_iff, hfirst, true_and, Nat.ceil_le, Wide.finite_le,
      le_div_iff₀ hpos]
  · cases negative with
    | true => simpa using iff_of_true hfirst (show Wide.infinite true ≤ Wide.finite _ from rfl)
    | false => simpa using show ¬ Wide.infinite false ≤ Wide.finite _ from nofun
  · simpa using show ¬ Wide.undefined ≤ Wide.finite _ from nofun

theorem onset?_of_le (hrate : 0 < rate) {start : Wide} (hstart : v.start? = some start)
    (hle : start ≤ Scalar.frameTime rate first) : v.onset? rate first = some first := by
  obtain ⟨onset, honset, hreached⟩ := (onset_le_iff hrate le_rfl).2 ⟨start, hstart, hle⟩
  rw [show onset = first from le_antisymm hreached (le_onset honset)] at honset
  exact honset

open Classical in
/-- What a tone adds to frame `n` if its phase is zero at another frame: nothing unless it has a positive frequency, has
begun, and has not stopped, and else its wave after as many frames as have passed since it began, times its gain. -/
noncomputable def contribution (w : Waveform) (rate first n : Nat) (v : Voice Wide) : Wide :=
  match v.frequency, v.onset? rate first with
  | .finite f, some onset =>
    if 0 < f ∧ onset ≤ n ∧ ∀ stop ∈ v.stop?, Scalar.frameTime rate n < stop then
      w.sample (.finite (Int.fract (((n - onset : Nat) : ℝ) * f / rate))) *
        (v.gain.valueAt? (Scalar.frameTime rate n)).getD 0
    else 0
  | _, _ => 0

theorem fract_fract_add (x y : ℝ) : Int.fract (Int.fract x + y) = Int.fract (x + y) := by
  have hwhole : Int.fract x + y - (x + y) = ((-⌊x⌋ : ℤ) : ℝ) := by
    rw [Int.fract, Int.cast_neg]
    ring
  exact Int.fract_eq_fract.2 ⟨_, hwhole⟩

theorem heard_iff (hrate : 0 < rate) (n : Nat) (v : Voice Wide) :
    v.heard rate n = true ↔
      (∃ f, v.frequency = .finite f ∧ 0 < f) ∧ (∃ start ∈ v.start?, start ≤ Scalar.frameTime rate n) ∧
        ∀ stop ∈ v.stop?, Scalar.frameTime rate n < stop := by
  rw [heard, Bool.and_eq_true, turnsPerFrame, Wide.isPositive_div_iff hrate]
  simp only [soundsAt, Bool.and_eq_true, Option.any_eq_true, Option.all_eq_true, decide_eq_true_eq, Option.mem_def]

/-- **The phase** of a voice is what the frames since it began make of it, until it stops. -/
theorem phase_ticks (w : Waveform) (hrate : 0 < rate) {f : ℝ} (hfrequency : v.frequency = .finite f) (hf : 0 < f)
    {onset : Nat} (honset : v.onset? rate first = some onset) (hphase : v.phase = 0) {frames : Nat}
    (hopen : ∀ stop ∈ v.stop?, Scalar.frameTime rate (first + frames) < stop) :
    (v.ticks (S := Wide) w rate first frames).phase =
      .finite (Int.fract (((first + frames - onset : Nat) : ℝ) * f / rate)) := by
  have hbegins := le_onset honset
  induction frames with
  | zero =>
    rw [show first + 0 - onset = 0 by omega, Nat.cast_zero, zero_mul, zero_div, Int.fract_zero]
    exact hphase
  | succ frames ih =>
    have hearlier : ∀ stop ∈ v.stop?, Scalar.frameTime rate (first + frames) < stop := by
      intro stop hstop
      have hle : (Scalar.frameTime rate (first + frames) : Wide) ≤ Scalar.frameTime rate (first + (frames + 1)) :=
        SteadyClock.frameTime_mono hrate (Nat.le_succ _)
      have hlater := hopen stop hstop
      rw [Wide.frameTime_eq hrate] at hle ⊢
      rw [Wide.frameTime_eq hrate] at hle hlater
      exact Wide.finite_lt_of_le (Wide.finite_le.1 hle) hlater
    have hnow := ih hearlier
    obtain ⟨phase, hticks⟩ := v.ticks_eq (S := Wide) w rate first frames
    rw [hticks] at hnow
    obtain rfl : phase = _ := hnow
    rw [ticks_succ, hticks, tick_phase]
    by_cases hreached : onset ≤ first + frames
    · -- the voice is heard, and it turns
      have hstarted := (onset_le_iff hrate (Nat.le_add_right first frames)).1 ⟨onset, honset, hreached⟩
      have hheard := (heard_iff hrate (first + frames) v).2 ⟨⟨f, hfrequency, hf⟩, hstarted, hearlier⟩
      have hturns : v.turnsPerFrame rate = .finite (f / rate) := by
        rw [turnsPerFrame, hfrequency]
        exact if_pos (Nat.cast_ne_zero.2 hrate.ne')
      have hcount : first + (frames + 1) - onset = first + frames - onset + 1 := by omega
      rw [if_pos hheard]
      show Scalar.fract (Wide.finite _ + v.turnsPerFrame rate) = _
      rw [hturns]
      show Wide.finite (Int.fract (Int.fract _ + f / rate)) = _
      rw [hcount, Nat.cast_add_one, add_one_mul, add_div, fract_fract_add]
    · -- it has not begun
      have hsilent : ¬ v.heard rate (first + frames) = true := by
        rw [heard_iff hrate, ← onset_le_iff hrate (Nat.le_add_right first frames)]
        rintro ⟨-, ⟨onset', honset', hle⟩, -⟩
        obtain rfl : onset' = onset := Option.some.inj (honset'.symm.trans honset)
        exact hreached hle
      rw [if_neg hsilent, show first + frames - onset = 0 by omega, show first + (frames + 1) - onset = 0 by omega]

/-- **A tone adds its contribution**, whatever happens to the others. -/
theorem getD_tick_ticks (w : Waveform) (hrate : 0 < rate) (hphase : v.phase = 0) (frames : Nat) :
    ((v.ticks (S := Wide) w rate first frames).tick w rate (first + frames) : Option Wide × Voice Wide).1.getD 0 =
      v.contribution w rate first (first + frames) := by
  have hlater := Nat.le_add_right first frames
  obtain ⟨phase, hticks⟩ := v.ticks_eq (S := Wide) w rate first frames
  rw [hticks, tick_phase]
  by_cases hheard : v.heard rate (first + frames) = true
  · obtain ⟨⟨f, hfrequency, hf⟩, hstarted, hopen⟩ := (heard_iff hrate (first + frames) v).1 hheard
    obtain ⟨onset, honset, hreached⟩ := (onset_le_iff hrate hlater).2 hstarted
    have hturned := v.phase_ticks w hrate hfrequency hf honset hphase hopen
    rw [hticks] at hturned
    obtain rfl : phase = _ := hturned
    rw [if_pos hheard, contribution, hfrequency, honset]
    simp only [if_pos (show 0 < f ∧ onset ≤ first + frames ∧ _ from ⟨hf, hreached, hopen⟩)]
    rw [Option.getD_some, sampleAt, Wide.natCast_zero]
    rfl
  · rw [if_neg hheard, contribution]
    split
    · rename_i f onset hfrequency honset
      rw [if_neg]
      · rfl
      rintro ⟨hf, hreached, hopen⟩
      exact hheard ((heard_iff hrate (first + frames) v).2
        ⟨⟨f, hfrequency, hf⟩, (onset_le_iff hrate hlater).1 ⟨onset, honset, hreached⟩, hopen⟩)
    · rfl

end Voice

/-! ## All tones -/

theorem foldl_filterMap_add {α M : Type} [AddCommMonoid M] (f : α → Option M) (xs : List α) (s : M) :
    (xs.filterMap f).foldl (· + ·) s = s + (xs.map fun x => (f x).getD 0).sum := by
  induction xs generalizing s with
  | nil => simp
  | cons x rest ih =>
    cases h : f x with
    | none => rw [List.filterMap_cons_none h, ih, List.map_cons, List.sum_cons, h, Option.getD_none, zero_add]
    | some a =>
      rw [List.filterMap_cons_some h, List.foldl_cons, ih, List.map_cons, List.sum_cons, h, Option.getD_some, add_assoc]

namespace ToneBank

theorem foldl_heardAfter (b : ToneBank Wide) {rate : Nat} (hrate : 0 < rate) (first frames : Nat)
    (hphase : ∀ e ∈ b.voices.entries, e.2.phase = 0) (s : Wide) :
    (b.heardAfter rate first frames).foldl (· + ·) s =
      s + (b.voices.entries.map fun e => e.2.contribution b.waveform rate first (first + frames)).sum := by
  rw [heardAfter, foldl_filterMap_add]
  congr 2
  exact List.map_congr_left fun e he => Voice.getD_tick_ticks b.waveform hrate (hphase e he) frames

/-- **The sound is a sum over the tones.** Buffers of whole frames are filled one after the other by tones whose phase
is zero before. Every sample of a frame gets the sum of what the tones contribute to the frame, in any order. A tone has
begun at just the frames that are not before its start, at the first of all frames if it starts before, and its gain is
known at all of them. -/
theorem overdub_eq_sum (b : ToneBank Wide) {channels rate : Nat} (hchannels : 1 ≤ channels) (hrate : 1 ≤ rate)
    (first : Nat) (ended : List ToneId) {buffers : List (List Wide)}
    (hwhole : ∀ buffer ∈ buffers, channels ∣ buffer.length) (hphase : ∀ e ∈ b.voices.entries, e.2.phase = 0)
    {order : List (ToneId × Voice Wide)} (horder : order.Perm b.voices.entries) :
    ((b.overdub channels rate first ended buffers).1 = buffers.flatten.mapIdx fun i s =>
      s + (order.map fun e => e.2.contribution b.waveform rate first (first + i / channels)).sum) ∧
    ∀ e ∈ order,
      (∀ n, first ≤ n → ((∃ onset ∈ e.2.onset? rate first, onset ≤ n) ↔
        ∃ start ∈ e.2.start?, start ≤ Scalar.frameTime rate n)) ∧
      (∀ start ∈ e.2.start?, start ≤ Scalar.frameTime rate first → e.2.onset? rate first = some first) ∧
      ((∀ p ∈ e.2.gain.points, p.time.IsNumber) →
        ∀ n, ∃ gain, e.2.gain.valueAt? (Scalar.frameTime rate n) = some gain) := by
  have hsum : ∀ frames, (order.map fun e => e.2.contribution b.waveform rate first (first + frames)).sum =
      (b.voices.entries.map fun e => e.2.contribution b.waveform rate first (first + frames)).sum :=
    fun frames => (horder.map _).sum_eq
  refine ⟨?_, fun e _ => ⟨fun n hn => Voice.onset_le_iff hrate hn, fun start hstart hle =>
    Voice.onset?_of_le hrate hstart hle, fun hpoints n => GainCurve.exists_valueAt? fun p hp hlate => ?_⟩⟩
  · rw [overdub_eq, b.overdub_samples hchannels hrate first hwhole]
    simp only [b.foldl_heardAfter hrate first _ hphase, hsum]
  · exact Wide.IsNumber.le_of_not_le ⟨_, Wide.frameTime_eq hrate n⟩ (hpoints p hp) hlate

/-- Two tones that are added the other way round, one of which has no finite frequency. -/
theorem overdub_eq_sum_duo :
    let low : Voice Wide := { Voice.silent (.finite 1) with start? := some (.finite (-1)), stop? := some (.finite 2) }
    let endless : Voice Wide := { Voice.silent (.infinite false) with start? := some (.finite 0) }
    let duo : ToneBank Wide := ⟨.sine, (Roster.empty.insert 0 low).insert 1 endless⟩
    (duo.overdub 2 4 3 [] [[0, 0], [0, 0, 0, 0]]).1 = [0, 0, 0, 0, 0, 0].mapIdx fun i s =>
      s + (endless.contribution .sine 4 3 (3 + i / 2) + low.contribution .sine 4 3 (3 + i / 2)) := by
  intro low endless duo
  have hphase : ∀ e ∈ duo.voices.entries, e.2.phase = 0 := by
    intro e he
    have hentries : duo.voices.entries = [(0, low), (1, endless)] := rfl
    rw [hentries] at he
    rcases List.mem_pair.1 he with rfl | rfl <;> exact Wide.natCast_zero
  have hwhole : ∀ buffer ∈ ([[0, 0], [0, 0, 0, 0]] : List (List Wide)), 2 ∣ buffer.length := by simp
  have hsum := (duo.overdub_eq_sum (by decide : 1 ≤ 2) (by decide : 1 ≤ 4) 3 [] hwhole hphase
    (List.reverse_perm _)).1
  rw [hsum]
  show List.mapIdx (fun i s => s + (List.map _ [(1, endless), (0, low)]).sum) _ = _
  simp only [List.map_cons, List.map_nil, List.sum_cons, List.sum_nil, add_zero]
  rfl

end ToneBank
end MusicMacro
