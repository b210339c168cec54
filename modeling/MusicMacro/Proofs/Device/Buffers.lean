import MusicMacro.Proofs.Sound.Blocks
import MusicMacro.Device.Offline
import MusicMacro.Device.Synth

/-!
# What the devices play is rendered in blocks

The audio thread fills the buffers that a sound card hands over, and the offline device renders up to given times.
Both come down to `ToneBank.renderBlocks`: the thread with the sizes of the buffers, the offline device with the
sizes that it chooses.

* `AudioThread.drain_of_push?` : a command that was sent is done last;
* `AudioThread.fill_congr` : what a buffer held before it was filled makes no difference;
* `AudioThread.playBuffers` : buffers filled one after the other; `AudioThread.reported_playBuffers` : all tones
  that end in them get into the queue of ended tones, or wait for room in it;
* `OfflineDevice.playTimes` : sound rendered up to one time after the other; `OfflineDevice.plan` : the blocks of it;
* `OfflineDevice.frameAt_le_iff` : the frame at a time is the first that does not come before it.
-/

namespace MusicMacro
variable {R S : Type}

/-! ## Queues -/

namespace Queue

theorem drain_fst {α : Type} (q : Queue α) : q.drain.1 = q.toList :=
  List.take_of_length_le (by rw [toList, List.length_reverse, q.size_eq])

theorem drain_snd {α : Type} (q : Queue α) : q.drain.2 = .empty q.capacity := by
  simp [drain, take, drop, empty]

theorem capacity_of_push? {α : Type} {q next : Queue α} {a : α} (h : q.push? a = some next) :
    next.capacity = q.capacity := by
  unfold push? at h
  split at h
  · cases h
    rfl
  · cases h

/-- How many can be pushed before the queue is full. -/
def room {α : Type} (q : Queue α) : Nat := q.capacity - q.size

theorem exists_push? {α : Type} {q : Queue α} (h : 0 < q.room) (a : α) :
    ∃ next, q.push? a = some next ∧ next.room + 1 = q.room := by
  unfold room at h
  have hfree : q.size < q.capacity := by omega
  refine ⟨_, dif_pos hfree, ?_⟩
  show q.capacity - (q.size + 1) + 1 = q.capacity - q.size
  omega

end Queue

/-! ## Commands -/

namespace AudioThread
variable [Scalar R] [Amplitude S]

theorem drain_eq (t : AudioThread R S) :
    t.drain = t.commands.toList.foldl obey { t with commands := .empty t.commands.capacity } := by
  rw [← t.commands.drain_fst, ← t.commands.drain_snd]
  rfl

/-- Commands change the voices and the master bus, and nothing else. -/
theorem foldl_obey_cases (commands : List (AudioCommand R S)) (t : AudioThread R S) :
    ∃ bank master, commands.foldl obey t = { t with bank, master } := by
  induction commands generalizing t with
  | nil => exact ⟨t.bank, t.master, rfl⟩
  | cons command rest ih =>
    obtain ⟨bank, master, h⟩ := ih (t.obey command)
    refine ⟨bank, master, ?_⟩
    rw [List.foldl_cons, h]
    cases command <;> rfl

theorem drain_cases (t : AudioThread R S) :
    ∃ bank master, t.drain = { t with commands := .empty t.commands.capacity, bank, master } := by
  rw [drain_eq]
  exact foldl_obey_cases _ _

theorem drain_of_idle {t : AudioThread R S} (h : t.commands = .empty t.commands.capacity) : t.drain = t := by
  have hnone : t.commands.toList = [] := by
    rw [h]
    rfl
  rw [drain_eq, hnone, List.foldl_nil, ← h]

theorem drain_of_push? {t next : AudioThread R S} {command : AudioCommand R S} (h : t.push? command = some next) :
    next.drain = t.drain.obey command := by
  obtain ⟨commands, hpush, rfl⟩ := Option.map_eq_some_iff.1 h
  rw [drain_eq, drain_eq]
  show commands.toList.foldl obey { t with commands := .empty commands.capacity } = _
  rw [Queue.toList_of_push? hpush, Queue.capacity_of_push? hpush, List.foldl_append]
  rfl

/-! ## Buffers -/

theorem length_silenced (buffer : List S) : (silenced buffer).length = buffer.length := List.length_map _

theorem silenced_eq_quiet {buffer : List S} {channels frames : Nat} (h : buffer.length = frames * channels) :
    silenced buffer = ToneBank.quiet channels frames := by
  rw [silenced, List.map_const', h]
  rfl

variable [Sampling R S]

/-- What a buffer held before it was filled makes no difference. -/
theorem fill_congr (t : AudioThread R S) {buffer other : List S} (h : buffer.length = other.length) :
    t.fill buffer = t.fill other := by
  simp only [fill, play, silenced, List.map_const', h]

/-- The tones that end in a buffer. -/
def endings (t : AudioThread R S) (buffer : List S) : List ToneId :=
  (t.drain.bank.render (silenced buffer) t.drain.channels t.drain.clock t.drain.sampleRate).2.1

omit [Scalar R] [Amplitude S] [Sampling R S] in
/-- The ended tones that nobody has asked for yet. -/
def reported (t : AudioThread R S) : List ToneId := t.ended.toList ++ t.unreported

theorem reported_fill (t : AudioThread R S) (buffer : List S) :
    (t.fill buffer).2.reported = t.reported ++ t.endings buffer := by
  obtain ⟨bank, master, hdrain⟩ := t.drain_cases
  simp only [fill, endings, hdrain, play, report, reported]
  rw [Queue.toList_pushAll, List.append_assoc]

/-- Fills buffers one after the other: their samples, and the tones that end in them. A buffer is given as what it
holds before it is filled. -/
def playBuffers (t : AudioThread R S) : List (List S) → (List S × List ToneId) × AudioThread R S
  | [] => (([], []), t)
  | buffer :: rest =>
    let (samples, next) := t.fill buffer
    let (later, last) := next.playBuffers rest
    ((samples ++ later.1, t.endings buffer ++ later.2), last)

theorem reported_playBuffers (t : AudioThread R S) (buffers : List (List S)) :
    (t.playBuffers buffers).2.reported = t.reported ++ (t.playBuffers buffers).1.2 := by
  induction buffers generalizing t with
  | nil => exact (List.append_nil _).symm
  | cons buffer rest ih =>
    show ((t.fill buffer).2.playBuffers rest).2.reported = _
    rw [ih, reported_fill, List.append_assoc]
    rfl

theorem length_fill (t : AudioThread R S) (buffer : List S) : (t.fill buffer).1.length = buffer.length := by
  show (List.map _ (ToneBank.mix _ _ _ _ _ _).1).length = buffer.length
  rw [List.length_map, ToneBank.length_mix, length_silenced]

theorem commands_fill (t : AudioThread R S) (buffer : List S) :
    (t.fill buffer).2.commands = .empty t.commands.capacity := by
  obtain ⟨bank, master, hdrain⟩ := t.drain_cases
  simp only [fill, hdrain, play, report]

theorem endings_of_idle {t : AudioThread R S} (hidle : t.commands = .empty t.commands.capacity) {buffer : List S}
    {frames : Nat} (hframes : buffer.length = frames * t.channels) :
    t.endings buffer =
      (t.bank.render (ToneBank.quiet t.channels frames : List S) t.channels t.clock t.sampleRate).2.1 := by
  unfold endings
  rw [drain_of_idle hidle, silenced_eq_quiet hframes]

theorem fill_of_idle {t : AudioThread R S} (hidle : t.commands = .empty t.commands.capacity)
    (hchannels : 0 < t.channels) {buffer : List S} {frames : Nat} (hlength : buffer.length = frames * t.channels) :
    ∃ ended unreported,
      t.fill buffer =
        (t.master.processBlock
            (t.bank.render (ToneBank.quiet t.channels frames : List S) t.channels t.clock t.sampleRate).1,
          { t with
            bank := (t.bank.render (ToneBank.quiet t.channels frames : List S) t.channels t.clock t.sampleRate).2.2
            clock := t.clock + frames
            ended
            unreported }) := by
  have hframes : buffer.length / max t.channels 1 = frames := by
    rw [hlength, show max t.channels 1 = t.channels by omega, Nat.mul_div_cancel frames hchannels]
  simp only [fill, drain_of_idle hidle, play, report, silenced_eq_quiet hlength, hframes]
  exact ⟨_, _, rfl⟩

/-- The sizes of buffers in frames. -/
def frameCounts (channels : Nat) (buffers : List (List S)) : List Nat := buffers.map fun b => b.length / channels

/-- A thread that has nothing to do but play fills buffers of whole frames in blocks of their sizes. -/
theorem playBuffers_of_idle {t : AudioThread R S} (hidle : t.commands = .empty t.commands.capacity)
    (hchannels : 0 < t.channels) {buffers : List (List S)} (hwhole : ∀ b ∈ buffers, t.channels ∣ b.length) :
    ∃ ended unreported,
      let sound : List S × List ToneId × ToneBank R :=
        t.bank.renderBlocks t.channels t.sampleRate t.clock (frameCounts t.channels buffers)
      t.playBuffers buffers =
        ((t.master.processBlock sound.1, sound.2.1),
          { t with
            bank := sound.2.2
            clock := t.clock + (frameCounts t.channels buffers).sum
            ended
            unreported }) := by
  induction buffers generalizing t with
  | nil => exact ⟨t.ended, t.unreported, rfl⟩
  | cons buffer rest ih =>
    obtain ⟨frames, hframes⟩ := hwhole buffer List.mem_cons_self
    rw [Nat.mul_comm] at hframes
    have hsizes : frameCounts t.channels (buffer :: rest) = frames :: frameCounts t.channels rest := by
      rw [frameCounts, List.map_cons, hframes, Nat.mul_div_cancel frames hchannels]
      rfl
    obtain ⟨ended, unreported, hnow⟩ := fill_of_idle hidle hchannels hframes
    obtain ⟨lastEnded, lastUnreported, hlater⟩ :=
      @ih (t.fill buffer).2 (by rw [hnow]; exact hidle) (by rw [hnow]; exact hchannels)
        (by rw [hnow]; exact fun b hb => hwhole b (List.mem_cons_of_mem _ hb))
    refine ⟨lastEnded, lastUnreported, ?_⟩
    rw [playBuffers, hsizes]
    rw [hnow] at hlater
    simp only [hnow, hlater, endings_of_idle hidle hframes, ToneBank.renderBlocks, ToneBank.join, List.sum_cons,
      Nat.add_assoc, MasterBus.processBlock, List.map_append]

theorem room_fill (t : AudioThread R S) (buffer : List S) :
    t.commands.room ≤ (t.fill buffer).2.commands.room := by
  rw [commands_fill]
  exact Nat.sub_le_sub_left (Nat.zero_le _) _

theorem room_playBuffers (t : AudioThread R S) (buffers : List (List S)) :
    t.commands.room ≤ (t.playBuffers buffers).2.commands.room := by
  induction buffers generalizing t with
  | nil => exact Nat.le_refl _
  | cons buffer rest ih => exact (t.room_fill buffer).trans (ih _)

theorem playBuffers_drain (t : AudioThread R S) {buffers : List (List S)} (hsome : buffers ≠ []) :
    t.drain.playBuffers buffers = t.playBuffers buffers := by
  cases buffers with
  | nil => exact absurd rfl hsome
  | cons buffer rest =>
    obtain ⟨bank, master, hdrain⟩ := t.drain_cases
    have htwice : t.drain.drain = t.drain := drain_of_idle (by rw [hdrain]; rfl)
    unfold playBuffers endings fill
    rw [htwice]

end AudioThread

/-! ## Times -/

namespace OfflineDevice
variable [Scalar R] [Amplitude S] [Sampling R S]

def endings (d : OfflineDevice R S) : List Nat → List ToneId
  | [] => []
  | frames :: rest =>
    (d.bank.render (List.replicate (frames * d.channels) Amplitude.silence : List S) d.channels d.frame
      d.sampleRate).2.1 ++ (d.block frames).2.endings rest

theorem reports_block (d : OfflineDevice R S) (frames : Nat) :
    (d.block frames).1.reports = (d.endings [frames]).filterMap d.reports.get? := by
  rw [endings, endings, List.append_nil]
  rfl

/-- The first frame that is not rendered when sound is rendered up to a time. -/
def frameAt (rate : Nat) (time : R) : Nat :=
  Scalar.ceilNat (Scalar.maxOf time ((0 : Nat) : R) * ((rate : Nat) : R))

/-- Renders sound up to one time after the other: the samples, and the tones that end. -/
def playTimes (d : OfflineDevice R S) : List R → (List S × List ToneId) × OfflineDevice R S
  | [] => (([], []), d)
  | time :: rest =>
    let (now, next) := (d.renderUntil time).value
    let (later, last) := next.playTimes rest
    ((now.samples ++ later.1, d.endings (blockSizes (frameAt d.sampleRate time - d.frame)) ++ later.2), last)

/-- The frame that has been reached when sound was rendered from a frame on up to some times. -/
def reach (rate first : Nat) (times : List R) : Nat :=
  times.foldl (fun frame time => max frame (frameAt rate time)) first

/-- The sizes of the blocks in which sound is rendered up to some times. -/
def plan (rate : Nat) : Nat → List R → List Nat
  | _, [] => []
  | frame, time :: rest =>
    blockSizes (frameAt rate time - frame) ++ plan rate (max frame (frameAt rate time)) rest

theorem value_renderUntil (d : OfflineDevice R S) (time : R) :
    (d.renderUntil time).value = d.blocks (blockSizes (frameAt d.sampleRate time - d.frame)) := rfl

theorem sum_blockSizes (frames : Nat) : (blockSizes frames).sum = frames := by
  have hdiv := Nat.div_add_mod frames blockFrames
  unfold blockSizes
  rw [List.sum_append, List.sum_replicate, Nat.nsmul_eq_mul, Nat.mul_comm]
  split
  · rw [List.sum_nil]
    omega
  · rw [List.sum_singleton]
    omega

theorem sum_plan (rate frame : Nat) (times : List R) :
    frame + (plan rate frame times).sum = reach rate frame times := by
  induction times generalizing frame with
  | nil => rfl
  | cons time rest ih =>
    have hnow : frame + (frameAt rate time - frame) = max frame (frameAt rate time) := by omega
    rw [plan, List.sum_append, sum_blockSizes, ← Nat.add_assoc, hnow, ih]
    rfl

theorem endings_eq (d : OfflineDevice R S) (sizes : List Nat) :
    d.endings sizes =
      (d.bank.renderBlocks d.channels d.sampleRate d.frame sizes : List S × List ToneId × ToneBank R).2.1 := by
  induction sizes generalizing d with
  | nil => rfl
  | cons frames rest ih =>
    rw [endings, ih]
    rfl

theorem blocks_eq (d : OfflineDevice R S) (sizes : List Nat) :
    ∃ reported reports,
      let sound : List S × List ToneId × ToneBank R := d.bank.renderBlocks d.channels d.sampleRate d.frame sizes
      d.blocks sizes =
        (⟨d.master.processBlock sound.1, reported⟩,
          { d with bank := sound.2.2, frame := d.frame + sizes.sum, reports }) := by
  induction sizes generalizing d with
  | nil => exact ⟨[], d.reports, rfl⟩
  | cons frames rest ih =>
    obtain ⟨reported, reports, hlater⟩ := ih (d.block frames).2
    refine ⟨(d.block frames).1.reports ++ reported, reports, ?_⟩
    simp only [blocks, hlater]
    simp only [block, ToneBank.renderBlocks, ToneBank.join, ToneBank.quiet, List.sum_cons, Nat.add_assoc,
      MasterBus.processBlock, List.map_append]

theorem playTimes_eq (d : OfflineDevice R S) (times : List R) :
    ∃ reports,
      let sound : List S × List ToneId × ToneBank R :=
        d.bank.renderBlocks d.channels d.sampleRate d.frame (plan d.sampleRate d.frame times)
      d.playTimes times =
        ((d.master.processBlock sound.1, sound.2.1),
          { d with bank := sound.2.2, frame := reach d.sampleRate d.frame times, reports }) := by
  induction times generalizing d with
  | nil => exact ⟨d.reports, rfl⟩
  | cons time rest ih =>
    have hframe : d.frame + (frameAt d.sampleRate time - d.frame) = max d.frame (frameAt d.sampleRate time) := by omega
    obtain ⟨reported, reports, hnow⟩ := d.blocks_eq (blockSizes (frameAt d.sampleRate time - d.frame))
    obtain ⟨lastReports, hlater⟩ := ih (d.renderUntil time).value.2
    refine ⟨lastReports, ?_⟩
    rw [sum_blockSizes, hframe] at hnow
    rw [value_renderUntil, hnow] at hlater
    rw [playTimes, value_renderUntil, hnow]
    simp only [hlater, endings_eq, plan, ToneBank.renderBlocks_append, ToneBank.join, sum_blockSizes, hframe,
      MasterBus.processBlock, List.map_append]
    rfl

/-- Rendering goes on to the first frame that is not before a time. -/
theorem frameAt_le_iff {rate : Nat} (hrate : 0 < rate) (time : ℝ) (n : Nat) :
    frameAt rate time ≤ n ↔ time ≤ Scalar.frameTime rate n := by
  have hpos : (0 : ℝ) < (rate : ℝ) := Nat.cast_pos.2 hrate
  have hnonneg : (0 : ℝ) ≤ (n : ℝ) / (rate : ℝ) := by positivity
  have hceil : frameAt rate time = ⌈max time 0 * (rate : ℝ)⌉₊ := by
    rw [frameAt, maxOf_eq, Nat.cast_zero]
    rfl
  rw [hceil, Nat.ceil_le, ← le_div_iff₀ hpos, max_le_iff]
  exact and_iff_left hnonneg

theorem frameAt_frameTime {rate : Nat} (hrate : 0 < rate) (n : Nat) :
    frameAt rate (Scalar.frameTime rate n : ℝ) = n := by
  have hpos : (0 : ℝ) < (rate : ℝ) := Nat.cast_pos.2 hrate
  have htime : (Scalar.frameTime rate n : ℝ) = (n : ℝ) / (rate : ℝ) := rfl
  have hmax : Scalar.maxOf ((n : ℝ) / (rate : ℝ)) ((0 : Nat) : ℝ) = (n : ℝ) / (rate : ℝ) := by
    have hnonneg : (0 : ℝ) ≤ (n : ℝ) / (rate : ℝ) := by positivity
    rw [maxOf_eq, Nat.cast_zero, max_eq_left hnonneg]
  have hcount : (n : ℝ) / (rate : ℝ) * (rate : ℝ) = (n : ℝ) := div_mul_cancel₀ _ (ne_of_gt hpos)
  unfold frameAt
  rw [htime, hmax, hcount]
  exact Nat.ceil_natCast n

end OfflineDevice

end MusicMacro
