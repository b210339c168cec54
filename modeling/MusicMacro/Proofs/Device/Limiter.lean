import MusicMacro.Proofs.Device.Settled
import MusicMacro.Proofs.Scalar.Wide
import MusicMacro.Proofs.Sound.Asleep
import MusicMacro.Proofs.Sound.Curve
import MusicMacro.Scalar.Binary

/-!
# What the limiter lets pass

Anything can be sent to the audio thread, infinities and undefined numbers included. No frequency, time or gain gets
such a value as far as a sample. The volume does: what is undefined is not cut to its range, and neither is a sample
that is multiplied by it.

* `Voice.Tame` : a voice whose samples are numbers; `ToneBank.Tame` : a bank of such voices, whatever is asked of it;
* `ToneBank.samples_render` : its sound is made of numbers;
* `ThreadAction`, `AudioThread.run` : what happens to a thread; `AudioThread.lastVolume` : the last volume that it was
  sent;
* `samples_of_lastVolume` : the samples of every buffer lie within the ceiling, or all of them are undefined if that
  volume is.
-/

namespace MusicMacro
open Wide (IsNumber finite undefined)

/-! ## One voice -/

/-- A curve on which every gain is a number. -/
structure GainCurve.Tame (c : GainCurve Wide) : Prop where
  sorted : GainCurve.Sorted c.points
  times : ∀ p ∈ c.points, IsNumber p.time
  values : ∀ p ∈ c.points, IsNumber p.value

namespace GainCurve.Tame
variable {c : GainCurve Wide}

/-- The gain at any time is a number: what a line is divided by is the time between two points. -/
theorem valueAt? (h : c.Tame) {time : Wide} (htime : IsNumber time) :
    IsNumber ((c.valueAt? time).getD ((0 : Nat) : Wide)) := by
  have htotal : ∀ q ∈ c.points, ¬ time ≤ q.time → q.time ≤ time := fun q hq hnot =>
    htime.le_of_not_le (h.times q hq) hnot
  obtain ⟨-, hvalue⟩ | ⟨p, hp, hvalue⟩ | ⟨p, hp, q, hq, hreached, hlate, hvalue⟩ := valueAt?_cases h.sorted htotal
  · rw [hvalue]
    exact Wide.isNumber_natCast 1
  · rw [hvalue]
    exact h.values p hp
  · rw [hvalue]
    obtain ⟨t, rfl⟩ := htime
    obtain ⟨early, hearly⟩ := h.times p hp
    obtain ⟨late, hlate'⟩ := h.times q hq
    rw [hearly] at hreached
    rw [hlate'] at hlate
    have hspan : late - early ≠ 0 := by
      have hbefore : early ≤ t := hreached
      have hafter : ¬ late ≤ t := hlate
      intro hsame
      linarith
    have hline : IsNumber ((q.value - p.value) * (finite t - p.time)) :=
      ((h.values q hq).sub (h.values p hp)).mul (IsNumber.sub ⟨t, rfl⟩ (h.times p hp))
    have hdivisor : q.time - p.time = finite (late - early) := by
      rw [hearly, hlate']
      exact congrArg finite (sub_eq_add_neg late early).symm
    show IsNumber (p.value + (q.value - p.value) * (finite t - p.time) / (q.time - p.time))
    rw [hdivisor]
    exact (h.values p hp).add (hline.div hspan)

theorem insert? (h : c.Tame) {p : GainPoint Wide} (htime : IsNumber p.time) (hvalue : IsNumber p.value) :
    ((c.insert? p).getD c).Tame := by
  unfold GainCurve.insert?
  split
  · refine ⟨sorted_insertPoint h.sorted fun q hq hnot => (h.times q hq).le_of_not_le htime hnot, fun q hq => ?_,
      fun q hq => ?_⟩
    · obtain rfl | hq := mem_insertPoint hq
      · exact htime
      · exact h.times q hq
    · obtain rfl | hq := mem_insertPoint hq
      · exact hvalue
      · exact h.values q hq
  · exact h

end GainCurve.Tame

theorem Waveform.isNumber_sample (w : Waveform) {phase : Wide} (h : IsNumber phase) :
    IsNumber (w.sample phase : Wide) := by
  have hcast : ∀ n : Nat, IsNumber ((n : Nat) : Wide) := Wide.isNumber_natCast
  unfold Waveform.sample
  cases w with
  | sine => exact h.ofReal _
  | square =>
    dsimp only
    split
    · exact hcast 1
    · exact (hcast 1).neg
  | saw => exact ((hcast 2).mul h).sub (hcast 1)
  | triangle =>
    dsimp only
    split
    · exact (hcast 4).mul h
    · split
      · exact (hcast 2).sub ((hcast 4).mul h)
      · exact ((hcast 4).mul h).sub (hcast 4)

namespace Voice

/-- A voice that can be heard as numbers only. -/
structure Tame (v : Voice Wide) : Prop where
  phase : IsNumber v.phase
  gain : v.gain.Tame

theorem tame_silent (frequency : Wide) : (Voice.silent frequency).Tame :=
  ⟨⟨0, congrArg finite Nat.cast_zero⟩, .nil, nofun, nofun⟩

theorem Tame.addPoint {v : Voice Wide} (h : v.Tame) (time value : Wide) : (v.addPoint time value).Tame := by
  unfold Voice.addPoint
  split
  · rename_i hfinite
    obtain ⟨htime, hvalue⟩ := Bool.and_eq_true_iff.1 hfinite
    have hcut : IsNumber (Scalar.clamp ((0 : Nat) : Wide) ((1 : Nat) : Wide) value) := by
      unfold Scalar.clamp
      split
      · exact Wide.isNumber_natCast 0
      · split
        · exact Wide.isNumber_natCast 1
        · exact Wide.isNumber_iff.1 hvalue
    exact ⟨h.phase, h.gain.insert? (Wide.isNumber_iff.1 htime) hcut⟩
  · exact h

/-- What a voice adds to a frame is a number, and the voice stays so. -/
theorem Tame.tick {v : Voice Wide} (h : v.Tame) (w : Waveform) (rate n : Nat) :
    (∀ s ∈ (v.tick w rate n : Option Wide × Voice Wide).1, IsNumber s) ∧
      (v.tick w rate n : Option Wide × Voice Wide).2.Tame := by
  unfold Voice.tick
  dsimp only
  split
  · rename_i hheard
    obtain ⟨hpositive, -⟩ := Bool.and_eq_true_iff.1 hheard
    have hturns : IsNumber (v.turnsPerFrame rate) := Wide.isNumber_iff.1 (Bool.and_eq_true_iff.1 hpositive).1
    -- without a sample rate no frequency is a number
    have hrate : (rate : ℝ) ≠ 0 := by
      intro hzero
      have hquotient : IsNumber (v.frequency / finite (rate : ℝ)) := hturns
      rw [hzero] at hquotient
      exact Wide.not_isNumber_div_zero _ hquotient
    have htime : IsNumber (Scalar.frameTime rate n : Wide) := (Wide.isNumber_natCast n).div hrate
    refine ⟨fun s hs => ?_, (h.phase.add hturns).ofReal _, h.gain⟩
    obtain rfl := Option.some.inj hs
    exact (w.isNumber_sample h.phase).mul (h.gain.valueAt? htime)
  · exact ⟨nofun, h⟩

end Voice

/-! ## A bank -/

namespace ToneBank

/-- All voices can be heard as numbers only. -/
def Tame (b : ToneBank Wide) : Prop := ∀ id, ∀ v ∈ b.voices.get? id, v.Tame

variable {b : ToneBank Wide}

theorem Tame.apply (h : b.Tame) (tone : ToneId) (request : ToneRequest Wide) : (b.apply tone request).Tame := by
  intro id v hv
  rw [get?_apply] at hv
  split at hv
  · cases request with
    | create frequency =>
      cases hv
      exact Voice.tame_silent frequency
    | release => cases hv
    | gain time value =>
      obtain ⟨u, hu, rfl⟩ := Option.map_eq_some_iff.1 hv
      exact (h id u hu).addPoint time value
    | start time =>
      obtain ⟨u, hu, rfl⟩ := Option.map_eq_some_iff.1 hv
      exact ⟨(h id u hu).phase, (h id u hu).gain⟩
    | stop time =>
      obtain ⟨u, hu, rfl⟩ := Option.map_eq_some_iff.1 hv
      exact ⟨(h id u hu).phase, (h id u hu).gain⟩
  · exact h id v hv

theorem Tame.frame (h : b.Tame) (rate n : Nat) :
    (∀ s ∈ (b.frame rate n : List Wide × ToneBank Wide).1, IsNumber s) ∧
      (b.frame rate n : List Wide × ToneBank Wide).2.Tame := by
  constructor
  · intro s hs
    rw [heard_frame] at hs
    obtain ⟨e, he, hs⟩ := List.mem_filterMap.1 hs
    exact ((h e.1 e.2 (Roster.get?_eq_some_iff.2 he)).tick b.waveform rate n).1 s hs
  · intro id v hv
    rw [get?_frame] at hv
    obtain ⟨u, hu, rfl⟩ := Option.map_eq_some_iff.1 hv
    exact ((h id u hu).tick b.waveform rate n).2

theorem Tame.mix (h : b.Tame) (channels rate n frames : Nat) {buffer : List Wide} (hbuffer : ∀ s ∈ buffer, IsNumber s) :
    (∀ s ∈ (b.mix channels rate n frames buffer).1, IsNumber s) ∧ (b.mix channels rate n frames buffer).2.Tame := by
  induction frames generalizing b n buffer with
  | zero => exact ⟨hbuffer, h⟩
  | succ frames ih =>
    obtain ⟨hheard, hnext⟩ := h.frame rate n
    obtain ⟨hrest, hlast⟩ := ih hnext (n + 1) fun s hs => hbuffer s (List.mem_of_mem_drop hs)
    have hsum : ∀ (heard : List Wide) (s : Wide), (∀ t ∈ heard, IsNumber t) → IsNumber s →
        IsNumber (heard.foldl (· + ·) s) := by
      intro heard
      induction heard with
      | nil => exact fun _ _ hs => hs
      | cons t rest ih =>
        intro s hall hs
        obtain ⟨ht, hrest⟩ := List.forall_mem_cons.1 hall
        exact ih (s + t) hrest (hs.add ht)
    rw [mix_succ]
    refine ⟨fun s hs => ?_, hlast⟩
    rcases List.mem_append.1 hs with hs | hs
    · obtain ⟨t, ht, rfl⟩ := List.mem_map.1 hs
      exact hsum _ t hheard (hbuffer t (List.mem_of_mem_take ht))
    · exact hrest s hs

theorem Tame.retire (h : b.Tame) (time : Wide) : (b.retire time).2.Tame := by
  intro id v hv
  simp only [ToneBank.retire, Roster.get?_filter] at hv
  exact h id v (Option.mem_filter_iff.1 hv).1

/-- **One block** of sound is made of numbers. -/
theorem Tame.render (h : b.Tame) {buffer : List Wide} (hbuffer : ∀ s ∈ buffer, IsNumber s) (channels first rate : Nat) :
    (∀ s ∈ (b.render buffer channels first rate).1, IsNumber s) ∧ (b.render buffer channels first rate).2.2.Tame := by
  obtain ⟨hsamples, hbank⟩ := h.mix (max channels 1) rate first (buffer.length / max channels 1) hbuffer
  exact ⟨hsamples, hbank.retire _⟩

end ToneBank

/-! ## The thread -/

/-- Something that happens to an audio thread. -/
inductive ThreadAction (R S : Type) where
  /-- A command is sent; it is lost if the queue is full. -/
  | send (command : AudioCommand R S)
  | fill (buffer : List S)
  | takeEnded (most : Nat)

namespace AudioThread

section Run
variable {R S : Type} [Scalar R] [Amplitude S] [Sampling R S]

def step (t : AudioThread R S) : ThreadAction R S → AudioThread R S
  | .send command => (t.push? command).getD t
  | .fill buffer => (t.fill buffer).2
  | .takeEnded most => (t.takeEnded most).2

def run (t : AudioThread R S) (actions : List (ThreadAction R S)) : AudioThread R S := actions.foldl step t

omit [Scalar R] [Amplitude S] [Sampling R S] in
def volumeAfter (t : AudioThread R S) (volume : S) : ThreadAction R S → S
  | .send (.volume value) => if (t.push? (.volume value)).isSome then value else volume
  | _ => volume

/-- The volume that was sent last, or the one at the start; what the queue has refused was not sent. -/
def lastVolume (t : AudioThread R S) (volume : S) : List (ThreadAction R S) → S
  | [] => volume
  | action :: rest => (t.step action).lastVolume (t.volumeAfter volume action) rest

theorem settledMaster_fill (t : AudioThread R S) (buffer : List S) :
    (t.fill buffer).2.settledMaster = t.settledMaster := by
  rw [← t.master_drain]
  unfold settledMaster
  rw [commands_fill]
  rfl

end Run

/-- A thread with a ceiling and a volume, whose voices can be heard as numbers only. -/
structure Limited (ceiling : ℝ) (volume : Wide) (t : AudioThread Wide Wide) : Prop where
  ceiling_eq : t.settledMaster.ceiling = finite ceiling
  volume_eq : t.settledMaster.volume = MasterBus.cutVolume volume
  bank : t.settled.Tame

theorem isNumber_silenced (buffer : List Wide) : ∀ s ∈ silenced buffer, IsNumber s := by
  intro s hs
  obtain ⟨_, -, rfl⟩ := List.mem_map.1 hs
  exact Wide.isNumber_natCast 0

namespace Limited
variable {ceiling : ℝ} {volume : Wide} {t : AudioThread Wide Wide}

theorem step (h : Limited ceiling volume t) (action : ThreadAction Wide Wide) :
    Limited ceiling (t.volumeAfter volume action) (t.step action) := by
  cases action with
  | send command =>
    cases hpush : t.push? command with
    | none =>
      have hsame : t.volumeAfter volume (.send command) = volume := by
        cases command with
        | tone id request => rfl
        | volume value => simp [volumeAfter, hpush]
      have hstep : t.step (.send command) = t := by rw [AudioThread.step, hpush]; rfl
      rw [hsame, hstep]
      exact h
    | some next =>
      have hstep : t.step (.send command) = next := by rw [AudioThread.step, hpush]; rfl
      have hmaster := settledMaster_of_push? hpush
      have hbank := settled_of_push? hpush
      rw [hstep]
      cases command with
      | tone id request =>
        refine ⟨?_, ?_, ?_⟩
        · rw [hmaster]
          exact h.ceiling_eq
        · rw [hmaster]
          exact h.volume_eq
        · rw [hbank]
          exact h.bank.apply id request
      | volume value =>
        have hsent : t.volumeAfter volume (.send (.volume value)) = value := by simp [volumeAfter, hpush]
        refine ⟨?_, ?_, ?_⟩
        · rw [hmaster]
          exact h.ceiling_eq
        · rw [hmaster, hsent]
          rfl
        · rw [hbank]
          exact h.bank
  | fill buffer =>
    refine ⟨?_, ?_, ?_⟩
    · show (t.fill buffer).2.settledMaster.ceiling = _
      rw [settledMaster_fill]
      exact h.ceiling_eq
    · show (t.fill buffer).2.settledMaster.volume = _
      rw [settledMaster_fill]
      exact h.volume_eq
    · show (t.fill buffer).2.settled.Tame
      rw [settled_fill]
      exact (h.bank.render (isNumber_silenced buffer) _ _ _).2
  | takeEnded most => exact ⟨h.ceiling_eq, h.volume_eq, h.bank⟩

theorem run (h : Limited ceiling volume t) (actions : List (ThreadAction Wide Wide)) :
    Limited ceiling (t.lastVolume volume actions) (t.run actions) := by
  induction actions generalizing t volume with
  | nil => exact h
  | cons action rest ih => exact ih (h.step action)

theorem process (h : Limited ceiling volume t) (hceiling : 0 < ceiling) (x : ℝ) :
    ((t.settledMaster.process (finite x)).Within ceiling ↔ volume ≠ undefined) ∧
      (t.settledMaster.process (finite x) = undefined ↔ volume = undefined) := by
  have hprocess : t.settledMaster.process (finite x) =
      Amplitude.clamp (finite (-ceiling)) (finite ceiling) (finite x * MasterBus.cutVolume volume) := by
    rw [MasterBus.process, h.ceiling_eq, h.volume_eq]
    rfl
  rw [hprocess]
  by_cases hvolume : volume = undefined
  · have hcut : MasterBus.cutVolume volume = undefined := by
      rw [hvolume]
      exact Wide.clamp_undefined _ _
    have hproduct : finite x * undefined = undefined := rfl
    rw [hcut, hproduct, Wide.clamp_undefined]
    have hnot : ¬ undefined.Within ceiling := fun ⟨y, hy, _⟩ => by cases hy
    exact ⟨iff_of_false hnot (not_not.2 hvolume), iff_of_true rfl hvolume⟩
  · have hunit : ((0 : Nat) : ℝ) ≤ ((1 : Nat) : ℝ) := by norm_num
    have hrange : -ceiling ≤ ceiling := by linarith
    obtain ⟨v, hcut, -⟩ := Wide.clamp_number hunit hvolume
    have hcut' : MasterBus.cutVolume volume = finite v := hcut
    have hproduct : finite x * finite v = finite (x * v) := rfl
    obtain ⟨y, hy, hlow, hhigh⟩ := Wide.clamp_number hrange (show finite (x * v) ≠ undefined by simp)
    rw [hcut', hproduct, hy]
    exact ⟨iff_of_true ⟨y, rfl, hlow, hhigh⟩ hvolume, iff_of_false (by simp) hvolume⟩

/-- **One buffer** lies within the ceiling, unless the volume is undefined, and then so is every sample. -/
theorem samples (h : Limited ceiling volume t) (hceiling : 0 < ceiling) (buffer : List Wide) :
    ∀ s ∈ (t.fill buffer).1,
      (s.Within ceiling ↔ volume ≠ undefined) ∧ (s = undefined ↔ volume = undefined) := by
  have hsound := (h.bank.render (isNumber_silenced buffer) t.drain.channels t.drain.clock t.drain.sampleRate).1
  have hsamples : (t.fill buffer).1 =
      (t.settled.render (silenced buffer) t.drain.channels t.drain.clock t.drain.sampleRate).1.map
        t.settledMaster.process := by
    rw [← bank_drain, ← master_drain]
    rfl
  intro s hs
  rw [hsamples] at hs
  obtain ⟨mixed, hmixed, rfl⟩ := List.mem_map.1 hs
  obtain ⟨x, rfl⟩ := hsound mixed hmixed
  exact h.process hceiling x

end Limited

/-- **What the limiter lets pass.** A thread is sent anything, and it fills buffers of any lengths, whatever they hold.
If the last volume that it was sent is defined, every sample of the next buffer is a number within the ceiling. If it is
not, then no sample is. Numbers are exact here and may be infinite or undefined; nothing is rounded. -/
theorem samples_of_lastVolume (w : Waveform) (volume : Wide) {ceiling : ℝ} (hceiling : 0 < ceiling)
    (channels rate commands ended clock : Nat) (actions : List (ThreadAction Wide Wide)) (buffer : List Wide) :
    let t := fresh w (.ofVolume volume (finite ceiling)) channels rate commands ended clock
    ((t.run actions).fill buffer).1.length = buffer.length ∧ ∀ s ∈ ((t.run actions).fill buffer).1,
      (s.Within ceiling ↔ t.lastVolume volume actions ≠ undefined) ∧
        (s = undefined ↔ t.lastVolume volume actions = undefined) := by
  intro t
  have hstart : Limited ceiling volume t := ⟨rfl, rfl, fun id v hv => by cases hv⟩
  exact ⟨length_fill _ buffer, (hstart.run actions).samples hceiling buffer⟩

/-- A volume that is out of range is cut, and so is an infinite one; an undefined one is not. -/
theorem samples_of_infinite_volume :
    let t := fresh .sine (.ofVolume (finite 1) (finite (1 / 2))) 2 0 4 1 0
    let loud : ThreadAction Wide Wide := .send (.volume (.infinite false))
    let stale : List Wide := [undefined, finite 2]
    (0 : ℝ) < 1 / 2 ∧
      (((t.run [loud, .fill stale]).fill stale).1.length = 2 ∧ ∀ s ∈ ((t.run [loud, .fill stale]).fill stale).1,
        (s.Within (1 / 2) ↔ t.lastVolume (finite 1) [loud, .fill stale] ≠ undefined) ∧
          (s = undefined ↔ t.lastVolume (finite 1) [loud, .fill stale] = undefined)) := by
  intro t loud stale
  have hceiling : (0 : ℝ) < 1 / 2 := by norm_num
  exact ⟨hceiling, samples_of_lastVolume .sine (finite 1) hceiling 2 0 4 1 0 [loud, .fill stale] stale⟩

/-- With binary numbers: silence at an undefined volume is not a number. -/
theorem samples_of_undefined_volume :
    (((fresh .sine .usual 1 1000 1 1 0 : AudioThread Float Float32).run [.send (.volume (0 / 0))]).fill [0, 0]).1.map
      Float32.isNaN = [true, true] := by
  decide +kernel

end AudioThread

end MusicMacro
