import MusicMacro.Proofs.Sound.Blocks

/-!
# Voices that are asleep

A voice that is not heard before some time, and has not stopped by then, passes a block up to that time unchanged. Two
banks that differ in such voices only cannot be told apart in that block.

* `Roster.ext_get?` : a roster is known by its view;
* `ToneRequest.act`, `ToneBank.get?_apply` : what a request makes of the voice of its tone;
* `ToneBank.get?_render` : what a block makes of the voice of a tone;
* `Voice.AsleepUntil` : a voice that is not heard up to a time and does not stop by then;
* `ToneBank.AlikeUntil` : two banks that differ in sleeping voices only; `AlikeUntil.render_eq` : a block sounds the
  same and ends the same tones in both.
-/

namespace MusicMacro
variable {R S : Type} [Scalar R]

theorem Roster.ext_get? {α : Type} {r s : Roster α} (h : ∀ id, r.get? id = s.get? id) : r = s := by
  have hmem : ∀ e : ToneId × α, e ∈ r.entries ↔ e ∈ s.entries := by
    intro e
    have hview : ∀ t : Roster α, e ∈ t.entries ↔ t.get? e.1 = some e.2 := fun _ => get?_eq_some_iff.symm
    rw [hview, hview, h e.1]
  have hr : r.entries.Nodup := r.nodup_ids.of_map
  have hs : s.entries.Nodup := s.nodup_ids.of_map
  have hperm : r.entries.Perm s.entries := (List.perm_ext_iff_of_nodup hr hs).2 hmem
  refine eq_of_entries (hperm.eq_of_pairwise (fun a b _ _ hab hba => ?_) r.ascending s.ascending)
  exact absurd hab (Nat.lt_asymm hba)

/-! ## One voice -/

def ToneRequest.act (request : ToneRequest R) (v? : Option (Voice R)) : Option (Voice R) :=
  match request with
  | .create frequency => some (.silent frequency)
  | .gain time value => v?.map fun v => v.addPoint time value
  | .start time => v?.map fun v => { v with start? := some time }
  | .stop time => v?.map fun v => { v with stop? := some time }
  | .release => none

theorem ToneBank.get?_apply (b : ToneBank R) (tone id : ToneId) (request : ToneRequest R) :
    (b.apply tone request).voices.get? id =
      if id = tone then request.act (b.voices.get? id) else b.voices.get? id := by
  cases request with
  | create frequency => simp only [apply, Roster.get?_insert, ToneRequest.act]
  | release => simp only [apply, Roster.get?_erase, ToneRequest.act]
  | _ => simp only [apply, Roster.get?_modify, ToneRequest.act]

namespace Voice

/-- Not heard up to a time, and not stopped by then. -/
def AsleepUntil (time : R) (v : Voice R) : Prop :=
  (∀ t, t ≤ time → v.soundsAt t = false) ∧ v.stoppedBy time = false

variable [Sampling R S]

theorem AsleepUntil.tick {v : Voice R} {time : R} (h : v.AsleepUntil time) (w : Waveform) {rate m : Nat}
    (hle : Scalar.frameTime rate m ≤ time) : (v.tick w rate m : Option S × Voice R) = (none, v) := by
  have hsilent := h.1 _ hle
  simp [Voice.tick, hsilent]

def ticks (w : Waveform) (rate : Nat) : Nat → Nat → Voice R → Voice R
  | _, 0, v => v
  | n, frames + 1, v => ticks w rate (n + 1) frames (v.tick w rate n : Option S × Voice R).2

theorem tick_eq (w : Waveform) (rate n : Nat) (v : Voice R) :
    ∃ phase, (v.tick w rate n : Option S × Voice R).2 = { v with phase } := by
  unfold tick
  dsimp only
  split
  · exact ⟨_, rfl⟩
  · exact ⟨v.phase, rfl⟩

theorem ticks_eq (w : Waveform) (rate n frames : Nat) (v : Voice R) :
    ∃ phase, v.ticks (S := S) w rate n frames = { v with phase } := by
  induction frames generalizing n v with
  | zero => exact ⟨v.phase, rfl⟩
  | succ frames ih =>
    obtain ⟨phase, htick⟩ := v.tick_eq (S := S) w rate n
    obtain ⟨last, hticks⟩ := ih (n + 1) (v.tick w rate n : Option S × Voice R).2
    refine ⟨last, ?_⟩
    rw [ticks, hticks, htick]

theorem stoppedBy_ticks (w : Waveform) (rate n frames : Nat) (v : Voice R) (time : R) :
    (v.ticks (S := S) w rate n frames).stoppedBy time = v.stoppedBy time := by
  obtain ⟨phase, hticks⟩ := v.ticks_eq (S := S) w rate n frames
  rw [hticks]
  rfl

theorem ticks_of_asleep [SteadyClock R] {v : Voice R} (w : Waveform) {rate n frames : Nat} (hrate : 0 < rate)
    (h : v.AsleepUntil (Scalar.frameTime rate (n + frames))) : v.ticks (S := S) w rate n frames = v := by
  induction frames generalizing n with
  | zero => rfl
  | succ frames ih =>
    have hnow := h.tick (S := S) w (SteadyClock.frameTime_mono hrate (Nat.le_add_right n (frames + 1)))
    have hlater : v.AsleepUntil (Scalar.frameTime rate (n + 1 + frames)) := by
      rw [show n + 1 + frames = n + (frames + 1) by omega]
      exact h
    rw [Voice.ticks, hnow]
    exact ih hlater

end Voice

namespace ToneBank
variable [Sampling R S]

/-- A voice after a block, unless it is dropped. -/
def afterBlock (w : Waveform) (rate n frames : Nat) (v : Voice R) : Option (Voice R) :=
  let next := v.ticks (S := S) w rate n frames
  if next.stoppedBy (Scalar.frameTime rate (n + frames)) then none else some next

variable [Amplitude S]

theorem get?_mix (b : ToneBank R) (channels rate n frames : Nat) (buffer : List S) (id : ToneId) :
    (b.mix channels rate n frames buffer).2.voices.get? id =
      (b.voices.get? id).map (Voice.ticks (S := S) b.waveform rate n frames) := by
  induction frames generalizing b n buffer with
  | zero =>
    show b.voices.get? id = (b.voices.get? id).map fun v => v
    rw [Option.map_id']
  | succ frames ih =>
    rw [mix_succ, ih, get?_frame, Option.map_map]
    rfl

theorem get?_render (b : ToneBank R) (buffer : List S) (channels n rate : Nat) (id : ToneId) :
    (b.render buffer channels n rate).2.2.voices.get? id =
      (b.voices.get? id).bind (afterBlock (S := S) b.waveform rate n (buffer.length / max channels 1)) := by
  simp only [render, retire, Roster.get?_filter, get?_mix]
  cases b.voices.get? id with
  | none => rfl
  | some v =>
    simp only [Option.map_some, Option.filter_some, Option.bind_some, afterBlock]
    cases (v.ticks (S := S) b.waveform rate n (buffer.length / max channels 1)).stoppedBy _ <;> rfl

/-- A sleeping voice passes a block unchanged. -/
theorem get?_render_of_asleep [SteadyClock R] {b : ToneBank R} {buffer : List S} {channels n rate : Nat}
    (hrate : 0 < rate) {id : ToneId}
    (h : ∀ v ∈ b.voices.get? id, v.AsleepUntil (Scalar.frameTime rate (n + buffer.length / max channels 1))) :
    (b.render buffer channels n rate).2.2.voices.get? id = b.voices.get? id := by
  rw [get?_render]
  cases hv : b.voices.get? id with
  | none => rfl
  | some v =>
    have hasleep := h v hv
    simp [afterBlock, Voice.ticks_of_asleep b.waveform hrate hasleep, hasleep.2]

/-! ## Banks with sleeping voices -/

/-- Every tone has the same voice in both banks, or its voices are asleep. -/
structure AlikeUntil (time : R) (a b : ToneBank R) : Prop where
  waveform : a.waveform = b.waveform
  voices : ∀ id, a.voices.get? id = b.voices.get? id ∨
    (∀ v ∈ a.voices.get? id, v.AsleepUntil time) ∧ ∀ v ∈ b.voices.get? id, v.AsleepUntil time

namespace AlikeUntil
variable {channels rate n : Nat} {buffer : List S} {a b : ToneBank R}

omit [Sampling R S] [Amplitude S] in
/-- Who sleeps has not stopped: the same tones have stopped in both banks. -/
theorem ended_eq {time : R} (h : AlikeUntil time a b) : (a.retire time).1 = (b.retire time).1 := by
  have hstopped : (a.voices.filter fun _ v => v.stoppedBy time) = b.voices.filter fun _ v => v.stoppedBy time := by
    refine Roster.ext_get? fun id => ?_
    rw [Roster.get?_filter, Roster.get?_filter]
    obtain hsame | ⟨ha, hb⟩ := h.voices id
    · rw [hsame]
    · have hnone : ∀ v? : Option (Voice R), (∀ v ∈ v?, v.AsleepUntil time) →
          v?.filter (fun v => v.stoppedBy time) = none := by
        rintro (_ | v) hv
        · rfl
        · rw [Option.filter_some, (hv v rfl).2]
          rfl
      rw [hnone _ ha, hnone _ hb]
  exact congrArg Roster.ids hstopped

variable [SteadyClock R]

/-- The voices that both banks share make up the whole sound. -/
theorem mix_fst (hrate : 0 < rate) {frames : Nat}
    (h : AlikeUntil (Scalar.frameTime rate (n + frames)) a b) :
    (a.mix channels rate n frames buffer).1 = (b.mix channels rate n frames buffer).1 := by
  classical
  let shared : ToneId → Voice R → Bool := fun id _ => decide (a.voices.get? id = b.voices.get? id)
  have hquiet : ∀ c : ToneBank R, (∀ id, ¬ a.voices.get? id = b.voices.get? id →
      ∀ v ∈ c.voices.get? id, v.AsleepUntil (Scalar.frameTime rate (n + frames))) →
      (c.keep shared).mix channels rate n frames buffer =
        ((c.mix channels rate n frames buffer).1, (c.mix channels rate n frames buffer).2.keep shared) := by
    intro c hc
    refine c.mix_keep channels (fun _ _ _ => rfl) (fun m _ hlt e he hp => ?_) buffer
    have hasleep := hc e.1 (of_decide_eq_false hp) e.2 (Roster.get?_eq_some_iff.2 he)
    exact hasleep.tick c.waveform (SteadyClock.frameTime_mono hrate (Nat.le_of_lt hlt))
  have hkept : a.keep shared = b.keep shared := by
    have hvoices : a.voices.filter shared = b.voices.filter shared := by
      refine Roster.ext_get? fun id => ?_
      rw [Roster.get?_filter, Roster.get?_filter]
      by_cases hsame : a.voices.get? id = b.voices.get? id
      · rw [hsame]
      · simp [shared, hsame]
    show ToneBank.mk a.waveform _ = ToneBank.mk b.waveform _
    rw [h.waveform, hvoices]
  have ha := hquiet a fun id hne => ((h.voices id).resolve_left hne).1
  have hb := hquiet b fun id hne => ((h.voices id).resolve_left hne).2
  rw [hkept, hb] at ha
  exact (congrArg Prod.fst ha).symm

/-- A block sounds the same in both banks, and the same tones end in it. -/
theorem render_eq (hrate : 0 < rate)
    (h : AlikeUntil (Scalar.frameTime rate (n + buffer.length / max channels 1)) a b) :
    (a.render buffer channels n rate).1 = (b.render buffer channels n rate).1 ∧
      (a.render buffer channels n rate).2.1 = (b.render buffer channels n rate).2.1 := by
  refine ⟨h.mix_fst hrate, ?_⟩
  show ((a.mix _ rate n _ buffer).2.retire _).1 = ((b.mix _ rate n _ buffer).2.retire _).1
  rw [ended_mix, ended_mix]
  exact h.ended_eq

end AlikeUntil

end ToneBank

end MusicMacro
