import MusicMacro.Proofs.Sound.Asleep
import MusicMacro.Proofs.Sound.Cells

/-!
# Sound within bounds

The voices of a bank are turned one after the other, each of them through all the frames of a block, and what they add
is written into the buffer by index. Here every index, every sum of frames and every slope is checked, and no check ever
fails: whatever is asked of the tones, at times and gains that may be infinite or undefined, and whatever the buffers
are like, the same sound comes out as without the checks.

* `Voice.sound?`, `ToneBank.render?`, `ToneBank.change?` : the operations of a bank with their checks;
* `BankAction` : what is done with a bank; `ToneBank.run` and `ToneBank.run?` : one thing done after the other;
* `Voice.sweep` : what a voice adds to a block; `ToneBank.mix_fst_eq_foldl` : the voices can be mixed one by one;
* `Voice.soundFrom?_succ` and `Voice.sound?_eq` : one frame and one block of a voice with a timely curve go well;
* `ToneBank.Timely` : all curves are timely; `Timely.act` : they stay so, and `Timely.act?_eq` : as long as they are so
  all goes well;
* `ToneBank.run?_silent` : nothing ever goes wrong.
-/

namespace MusicMacro

/-! ## The checked operations -/

/-- The entries under the same numbers, in the place of the old ones. -/
def Roster.refill {α β : Type} (r : Roster α) (entries : List β) : Roster β where
  entries := r.ids.zip entries
  ascending := by
    have hids : r.ids.Pairwise (· < ·) := List.pairwise_map.2 r.ascending
    refine List.pairwise_iff_getElem.2 fun i j hi hj hlt => ?_
    rw [List.getElem_zip, List.getElem_zip]
    exact List.pairwise_iff_getElem.1 hids i j _ _ hlt

theorem Roster.modify_of_get?_none {α : Type} {r : Roster α} {id : ToneId} (h : r.get? id = none) (f : α → α) :
    r.modify id f = r := by
  refine Roster.ext_get? fun i => ?_
  rw [Roster.get?_modify]
  split
  · rename_i hid
    rw [hid, h]
    rfl
  · rfl

theorem Roster.modify_of_get?_some {α : Type} {r : Roster α} {id : ToneId} {a : α} (h : r.get? id = some a)
    (f : α → α) : (r.modify id fun _ => f a) = r.modify id f := by
  refine Roster.ext_get? fun i => ?_
  rw [Roster.get?_modify, Roster.get?_modify]
  split
  · rename_i hid
    rw [hid, h]
    rfl
  · rfl

def addFrame? {S : Type} [Amplitude S] (channels frame : Nat) (s : S) (buffer : List S) : Option (List S) := do
  let part ← slice? buffer (frame * channels) ((frame + 1) * channels)
  writeAt? buffer (frame * channels) (part.map (· + s))

/-- Puts the tones that have stopped behind those of a list, and then them in order. -/
def appendSorted? (ended stopped : List ToneId) : Option (List ToneId) := do
  let named := ended ++ stopped
  let fresh ← slice? named ended.length named.length
  writeAt? named ended.length (fresh.mergeSort fun a b => decide (a ≤ b))

variable {R S : Type} [Scalar R] [Amplitude S] [Sampling R S]

namespace Voice

def addPoint? (v : Voice R) (time value : R) : Option (Voice R) := do
  if Scalar.isFinite time && Scalar.isFinite value then
    let cut := Scalar.clamp ((0 : Nat) : R) ((1 : Nat) : R) value
    let (_, cells) ← v.gain.cells.insert? ⟨time, cut⟩
    let gain ← cells.curve?
    return { v with gain }
  else return v

/-- Adds a voice to some frames of a buffer, from frame `frame` of the block on. -/
def soundFrom? (w : Waveform) (channels first rate : Nat) : Nat → Nat → Voice R → List S → Option (Voice R × List S)
  | _, 0, v, buffer => some (v, buffer)
  | frame, frames + 1, v, buffer => do
    let n ← clockSum? first frame
    let time : R := Scalar.frameTime rate n
    if v.soundsAt time then
      let gain ← v.gain.cells.valueAt? time
      let louder ← addFrame? channels frame (Sampling.store (w.sample v.phase * gain)) buffer
      soundFrom? w channels first rate (frame + 1) frames (v.turn rate) louder
    else soundFrom? w channels first rate (frame + 1) frames v buffer

/-- Adds a voice to a block, unless it has no positive finite frequency. -/
def sound? (w : Waveform) (channels first rate frames : Nat) (v : Voice R) (buffer : List S) :
    Option (Voice R × List S) :=
  if Scalar.isPositive (v.turnsPerFrame rate) then v.soundFrom? w channels first rate 0 frames buffer
  else some (v, buffer)

end Voice

namespace ToneBank

def soundEach? (w : Waveform) (channels first rate frames : Nat) :
    List (Voice R) → List S → Option (List (Voice R) × List S)
  | [], buffer => some ([], buffer)
  | v :: rest, buffer => do
    let (turned, louder) ← v.sound? w channels first rate frames buffer
    let (others, loudest) ← soundEach? w channels first rate frames rest louder
    return (turned :: others, loudest)

/-- Mixes a block into a buffer, and puts the tones that end in it behind those of a list, in order. -/
def render? (b : ToneBank R) (buffer : List S) (channels first rate : Nat) (ended : List ToneId) :
    Option ((List S × List ToneId) × ToneBank R) := do
  let channels := max channels 1
  let frames ← divide? buffer.length channels
  let (voices, mixed) ← soundEach? b.waveform channels first rate frames (b.voices.entries.map Prod.snd) buffer
  let last ← clockSum? first frames
  let (stopped, kept) := { b with voices := b.voices.refill voices : ToneBank R }.retire (Scalar.frameTime rate last)
  let named ← appendSorted? ended stopped
  return ((mixed, named), kept)

def change? (b : ToneBank R) (tone : ToneId) : ToneRequest R → Option (ToneBank R)
  | .gain time value =>
    match b.voices.get? tone with
    | none => some b
    | some v => do
      let changed ← v.addPoint? time value
      return { b with voices := b.voices.modify tone fun _ => changed }
  | request => some (b.apply tone request)

end ToneBank

/-! ## Actions -/

/-- What is done with a bank. -/
inductive BankAction (R S : Type) where
  | request (tone : ToneId) (request : ToneRequest R)
  | render (buffer : List S) (channels first rate : Nat) (ended : List ToneId)

/-- The last frame of a block can still be counted in 64 bits. -/
def BankAction.InTime : BankAction R S → Prop
  | .request _ _ => True
  | .render buffer channels first _ _ => first + buffer.length / max channels 1 < 2 ^ 64

namespace ToneBank

/-- Does something with a bank. A block has samples and the tones that have ended. -/
def act (b : ToneBank R) : BankAction R S → List (List S × List ToneId) × ToneBank R
  | .request tone request => ([], b.apply tone request)
  | .render buffer channels first rate ended =>
    let (mixed, stopped, kept) := b.render buffer channels first rate
    ([(mixed, ended ++ stopped)], kept)

def run (b : ToneBank R) : List (BankAction R S) → List (List S × List ToneId) × ToneBank R
  | [] => ([], b)
  | action :: rest =>
    let (now, next) := b.act action
    let (later, last) := next.run rest
    (now ++ later, last)

/-- Does something with a bank, with all checks. -/
def act? (b : ToneBank R) : BankAction R S → Option (List (List S × List ToneId) × ToneBank R)
  | .request tone request => do
    let next ← b.change? tone request
    return ([], next)
  | .render buffer channels first rate ended => do
    let (out, kept) ← b.render? buffer channels first rate ended
    return ([out], kept)

def run? (b : ToneBank R) : List (BankAction R S) → Option (List (List S × List ToneId) × ToneBank R)
  | [] => some ([], b)
  | action :: rest => do
    let (now, next) ← b.act? action
    let (later, last) ← next.run? rest
    return (now ++ later, last)

end ToneBank

/-! ## One voice after the other -/

namespace Voice

/-- What a voice adds to some frames at the front of a buffer, the first of which is frame `n`. -/
def sweep (w : Waveform) (channels rate : Nat) : Nat → Nat → Voice R → List S → List S
  | _, 0, _, buffer => buffer
  | n, frames + 1, v, buffer =>
    let (heard, next) := v.tick w rate n
    (buffer.take channels).map (fun s => heard.elim s (s + ·)) ++
      sweep w channels rate (n + 1) frames next (buffer.drop channels)

theorem length_sweep (w : Waveform) (channels rate n frames : Nat) (v : Voice R) (buffer : List S) :
    (v.sweep w channels rate n frames buffer).length = buffer.length := by
  induction frames generalizing n v buffer with
  | zero => rfl
  | succ frames ih =>
    rw [sweep, List.length_append, List.length_map, ih, List.length_take, List.length_drop]
    omega

omit [Amplitude S] in
theorem tick_of_not_isPositive {rate : Nat} {v : Voice R} (h : ¬ Scalar.isPositive (v.turnsPerFrame rate) = true)
    (w : Waveform) (n : Nat) : (v.tick w rate n : Option S × Voice R) = (none, v) := by
  simp [tick, h]

omit [Amplitude S] in
theorem ticks_of_not_isPositive {rate : Nat} {v : Voice R} (h : ¬ Scalar.isPositive (v.turnsPerFrame rate) = true)
    (w : Waveform) (n frames : Nat) : v.ticks (S := S) w rate n frames = v := by
  induction frames generalizing n with
  | zero => rfl
  | succ frames ih => rw [ticks, tick_of_not_isPositive h, ih]

theorem sweep_of_not_isPositive {rate : Nat} {v : Voice R} (h : ¬ Scalar.isPositive (v.turnsPerFrame rate) = true)
    (w : Waveform) (channels n frames : Nat) (buffer : List S) : v.sweep w channels rate n frames buffer = buffer := by
  induction frames generalizing n buffer with
  | zero => rfl
  | succ frames ih =>
    rw [sweep, tick_of_not_isPositive h]
    show (buffer.take channels).map (fun s => s) ++ sweep _ _ _ _ _ v _ = _
    rw [ih, List.map_id', List.take_append_drop]

end Voice

namespace ToneBank

/-- Some voices add to a frame, and then to the frames behind it. -/
theorem foldl_sweep_succ (w : Waveform) (channels rate n frames : Nat) (vs : List (Voice R)) {buffer : List S}
    (hroom : channels ≤ buffer.length) :
    vs.foldl (fun mixed v => v.sweep w channels rate n (frames + 1) mixed) buffer =
      (buffer.take channels).map (fun s =>
          (vs.filterMap fun v => (v.tick w rate n : Option S × Voice R).1).foldl (· + ·) s) ++
        (vs.map fun v => (v.tick w rate n : Option S × Voice R).2).foldl
          (fun mixed v => v.sweep w channels rate (n + 1) frames mixed) (buffer.drop channels) := by
  induction vs generalizing buffer with
  | nil =>
    show buffer = (buffer.take channels).map (fun s => s) ++ buffer.drop channels
    rw [List.map_id', List.take_append_drop]
  | cons v rest ih =>
    rw [List.foldl_cons, Voice.sweep]
    generalize htick : (v.tick w rate n : Option S × Voice R) = out
    have hlength : ((buffer.take channels).map fun s => out.1.elim s (s + ·)).length = channels := by
      rw [List.length_map, List.length_take, Nat.min_eq_left hroom]
    rw [ih (by rw [List.length_append, hlength]; exact Nat.le_add_right _ _), List.take_left' hlength,
      List.drop_left' hlength, List.map_map, List.map_cons, List.foldl_cons, htick]
    congr 1
    refine List.map_congr_left fun s _ => ?_
    cases hheard : out.1 with
    | none => rw [List.filterMap_cons_none (by rw [htick, hheard])]; simp
    | some a => rw [List.filterMap_cons_some (by rw [htick, hheard])]; simp

/-- The voices can be mixed one by one. -/
theorem mix_fst_eq_foldl (b : ToneBank R) {channels rate n frames : Nat} {buffer : List S}
    (hroom : frames * channels ≤ buffer.length) :
    (b.mix channels rate n frames buffer).1 = (b.voices.entries.map Prod.snd).foldl
      (fun mixed v => v.sweep b.waveform channels rate n frames mixed) buffer := by
  induction frames generalizing b n buffer with
  | zero =>
    show buffer = (b.voices.entries.map Prod.snd).foldl (fun mixed _ => mixed) buffer
    exact (List.foldl_fixed _).symm
  | succ frames ih =>
    rw [Nat.succ_mul] at hroom
    have hlater : frames * channels ≤ (buffer.drop channels).length := by
      rw [List.length_drop]
      omega
    rw [mix_succ, foldl_sweep_succ _ _ _ _ _ _ (by omega), ih _ hlater, heard_frame, entries_frame, List.map_map,
      List.map_map, List.filterMap_map]
    rfl

omit [Scalar R] [Amplitude S] [Sampling R S] in
theorem refill_map {α β : Type} (r : Roster α) (f : α → β) :
    r.refill ((r.entries.map Prod.snd).map f) = r.map fun _ a => f a := by
  refine Roster.eq_of_entries ?_
  rw [List.map_map]
  exact List.zip_map'

/-- The voices turn one by one. -/
theorem mix_snd (b : ToneBank R) (channels rate n frames : Nat) (buffer : List S) :
    (b.mix channels rate n frames buffer).2 = ⟨b.waveform, b.voices.refill
      ((b.voices.entries.map Prod.snd).map fun v => v.ticks (S := S) b.waveform rate n frames)⟩ := by
  have hvoices : (b.mix channels rate n frames buffer).2.voices =
      b.voices.map fun _ v => v.ticks (S := S) b.waveform rate n frames := by
    refine Roster.ext_get? fun id => ?_
    rw [get?_mix, Roster.get?_map]
  rw [refill_map, ← hvoices, ← waveform_mix b channels rate n frames buffer]

end ToneBank

/-! ## Nothing goes wrong -/

section Gradual
variable [GradualScalar R]

theorem addFrame?_append {channels frame : Nat} {front middle : List S} (hfront : front.length = frame * channels)
    (hmiddle : middle.length = channels) (back : List S) (s : S) :
    addFrame? channels frame s (front ++ middle ++ back) = some (front ++ middle.map (· + s) ++ back) := by
  have hlast : (frame + 1) * channels = front.length + middle.length := by rw [hfront, hmiddle, Nat.succ_mul]
  rw [addFrame?, hlast, ← hfront, slice?_append]
  exact writeAt?_append front middle back (List.length_map _)

namespace Voice

/-- One frame goes well: the sample of the voice is added to it. -/
theorem soundFrom?_succ (w : Waveform) {channels first rate frame : Nat} (frames : Nat) {v : Voice R}
    (hv : v.gain.Timely) (hpos : Scalar.isPositive (v.turnsPerFrame rate) = true) {front middle : List S}
    (hfront : front.length = frame * channels) (hmiddle : middle.length = channels)
    (hclock : first + frame < 2 ^ 64) (rest : List S) :
    v.soundFrom? w channels first rate frame (frames + 1) (front ++ middle ++ rest) =
      (v.tick w rate (first + frame) : Option S × Voice R).2.soundFrom? w channels first rate (frame + 1) frames
        (front ++ (middle.map fun s =>
          (v.tick w rate (first + frame) : Option S × Voice R).1.elim s (s + ·)) ++ rest) := by
  have hn : clockSum? first frame = some (first + frame) := if_pos hclock
  rw [soundFrom?, hn]
  simp only [Option.bind_eq_bind, Option.bind_some]
  by_cases hsounds : v.soundsAt (Scalar.frameTime rate (first + frame)) = true
  · have htick : (v.tick w rate (first + frame) : Option S × Voice R) =
        (some (v.sampleAt w (Scalar.frameTime rate (first + frame))), v.turn rate) := by
      simp [tick, hpos, hsounds]
    have hsample : Sampling.store (w.sample v.phase *
        (v.gain.valueAt? (Scalar.frameTime rate (first + frame))).getD ((0 : Nat) : R)) =
          (v.sampleAt w (Scalar.frameTime rate (first + frame)) : S) := rfl
    rw [if_pos hsounds, hv.valueAt?_cells (GradualScalar.frameTime_le hpos _), Option.bind_some, hsample,
      addFrame?_append hfront hmiddle, htick]
    rfl
  · have htick : (v.tick w rate (first + frame) : Option S × Voice R) = (none, v) := by
      simp [tick, hsounds]
    rw [if_neg hsounds, htick]
    show _ = soundFrom? _ _ _ _ _ _ v (front ++ (middle.map fun s => s) ++ rest)
    rw [List.map_id']

theorem soundFrom?_eq (w : Waveform) {channels first rate frame frames : Nat} {v : Voice R} (hv : v.gain.Timely)
    (hpos : Scalar.isPositive (v.turnsPerFrame rate) = true) {front back : List S}
    (hfront : front.length = frame * channels) (hroom : frames * channels ≤ back.length)
    (hclock : first + (frame + frames) < 2 ^ 64) :
    v.soundFrom? w channels first rate frame frames (front ++ back) =
      some (v.ticks (S := S) w rate (first + frame) frames,
        front ++ v.sweep w channels rate (first + frame) frames back) := by
  -- `front` holds the frames that are done; the voice is the same in the next frame but for its phase
  induction frames generalizing frame v front back with
  | zero => rfl
  | succ frames ih =>
    rw [Nat.succ_mul] at hroom
    have hmiddle : (back.take channels).length = channels := by
      rw [List.length_take]
      omega
    have hfront' : (front ++ (back.take channels).map fun s =>
        (v.tick w rate (first + frame) : Option S × Voice R).1.elim s (s + ·)).length = (frame + 1) * channels := by
      rw [List.length_append, List.length_map, hfront, hmiddle, Nat.succ_mul]
    have hroom' : frames * channels ≤ (back.drop channels).length := by
      rw [List.length_drop]
      omega
    have hnow : first + frame < 2 ^ 64 := by omega
    have hstep := soundFrom?_succ w frames hv hpos hfront hmiddle hnow (back.drop channels)
    rw [List.append_assoc, List.take_append_drop] at hstep
    obtain ⟨phase, htick⟩ := v.tick_eq (S := S) w rate (first + frame)
    rw [hstep, ih (by rw [htick]; exact hv) (by rw [htick]; exact hpos) hfront' hroom' (by omega), sweep, ticks,
      List.append_assoc, Nat.add_assoc]

theorem sound?_eq (w : Waveform) {channels first rate frames : Nat} {v : Voice R} (hv : v.gain.Timely)
    {buffer : List S} (hroom : frames * channels ≤ buffer.length) (hclock : first + frames < 2 ^ 64) :
    v.sound? w channels first rate frames buffer =
      some (v.ticks (S := S) w rate first frames, v.sweep w channels rate first frames buffer) := by
  unfold sound?
  split
  · rename_i hpos
    have hfront : ([] : List S).length = 0 * channels := (Nat.zero_mul channels).symm
    have hclock' : first + (0 + frames) < 2 ^ 64 := by omega
    exact soundFrom?_eq w hv hpos hfront hroom hclock'
  · rename_i hpos
    rw [ticks_of_not_isPositive hpos, sweep_of_not_isPositive hpos]

omit [Amplitude S] [Sampling R S] in
theorem addPoint?_eq {v : Voice R} (hv : v.gain.Timely) (time value : R) :
    v.addPoint? time value = some (v.addPoint time value) := by
  unfold addPoint? addPoint
  split
  · dsimp only
    rw [GainCurve.insert?_cells hv.sorted]
    cases v.gain.insert? ⟨time, Scalar.clamp ((0 : Nat) : R) ((1 : Nat) : R) value⟩ with
    | none => exact congrArg (Option.bind · fun gain => some { v with gain }) v.gain.curve?_cells
    | some d => exact congrArg (Option.bind · fun gain => some { v with gain }) d.curve?_cells
  · rfl

omit [Amplitude S] [Sampling R S] in
theorem timely_addPoint {v : Voice R} (hv : v.gain.Timely) (time value : R) : (v.addPoint time value).gain.Timely := by
  unfold addPoint
  split
  · rename_i hfinite
    cases hd : v.gain.insert? ⟨time, Scalar.clamp ((0 : Nat) : R) ((1 : Nat) : R) value⟩ with
    | none => simpa [hd] using hv
    | some d => simpa [hd] using hv.insert? (Bool.and_eq_true_iff.1 hfinite).1 hd
  · exact hv

end Voice

namespace ToneBank

theorem soundEach?_eq (w : Waveform) {channels first frames : Nat} (rate : Nat) {vs : List (Voice R)}
    (hvs : ∀ v ∈ vs, v.gain.Timely) {buffer : List S} (hroom : frames * channels ≤ buffer.length)
    (hclock : first + frames < 2 ^ 64) :
    soundEach? w channels first rate frames vs buffer =
      some (vs.map fun v => v.ticks (S := S) w rate first frames,
        vs.foldl (fun mixed v => v.sweep w channels rate first frames mixed) buffer) := by
  induction vs generalizing buffer with
  | nil => rfl
  | cons v rest ih =>
    obtain ⟨hv, hrest⟩ := List.forall_mem_cons.1 hvs
    have hroom' : frames * channels ≤ (v.sweep w channels rate first frames buffer).length := by
      rwa [Voice.length_sweep]
    rw [soundEach?, Voice.sound?_eq w hv hroom hclock]
    simp only [Option.bind_eq_bind, Option.bind_some]
    rw [ih hrest hroom']
    rfl

def Timely (b : ToneBank R) : Prop := ∀ id, ∀ v ∈ b.voices.get? id, v.gain.Timely

omit [GradualScalar R] in
theorem Timely.of_mem {b : ToneBank R} (h : b.Timely) {v : Voice R} (hv : v ∈ b.voices.entries.map Prod.snd) :
    v.gain.Timely := by
  obtain ⟨⟨id, v⟩, hmem, rfl⟩ := List.mem_map.1 hv
  exact h id v (Roster.get?_eq_some_iff.2 hmem)

theorem appendSorted?_eq (ended : List ToneId) {stopped : List ToneId} (h : stopped.Pairwise (· < ·)) :
    appendSorted? ended stopped = some (ended ++ stopped) := by
  have hsorted : (stopped.mergeSort fun a b => decide (a ≤ b)) = stopped :=
    List.mergeSort_of_pairwise (h.imp fun hlt => decide_eq_true (Nat.le_of_lt hlt))
  have hslice := slice?_append ended stopped []
  have hwrite := writeAt?_append ended stopped [] (Eq.refl stopped.length)
  rw [List.append_nil, ← List.length_append] at hslice
  rw [List.append_nil] at hwrite
  simp only [appendSorted?, hslice, Option.bind_eq_bind, Option.bind_some, hsorted, hwrite]

/-- Filling a buffer goes well. -/
theorem Timely.render?_eq {b : ToneBank R} (h : b.Timely) {buffer : List S} {channels first : Nat}
    (hclock : first + buffer.length / max channels 1 < 2 ^ 64) (rate : Nat) (ended : List ToneId) :
    b.render? buffer channels first rate ended = some
      (((b.render buffer channels first rate).1, ended ++ (b.render buffer channels first rate).2.1),
        (b.render buffer channels first rate).2.2) := by
  have hframes : divide? buffer.length (max channels 1) = some (buffer.length / max channels 1) := if_neg (by omega)
  have hlast : clockSum? first (buffer.length / max channels 1) = some (first + buffer.length / max channels 1) :=
    if_pos hclock
  have hroom := Nat.div_mul_le_self buffer.length (max channels 1)
  have hsound := soundEach?_eq b.waveform rate (fun v hv => h.of_mem hv) hroom hclock
  have hstopped := appendSorted?_eq ended (List.pairwise_map.2 (Roster.ascending
    ((b.mix (max channels 1) rate first (buffer.length / max channels 1) buffer).2.voices.filter fun _ v =>
      v.stoppedBy (Scalar.frameTime rate (first + buffer.length / max channels 1)))))
  rw [← mix_fst_eq_foldl b hroom] at hsound
  simp only [render?, hframes, Option.bind_eq_bind, Option.bind_some, hsound, hlast]
  rw [← mix_snd b (max channels 1) rate first (buffer.length / max channels 1) buffer]
  exact congrArg (Option.bind · _) hstopped

omit [Amplitude S] [Sampling R S] in
theorem Timely.change?_eq {b : ToneBank R} (h : b.Timely) (tone : ToneId) (request : ToneRequest R) :
    b.change? tone request = some (b.apply tone request) := by
  cases request with
  | gain time value =>
    rw [change?]
    cases hget : b.voices.get? tone with
    | none =>
      exact congrArg (fun voices => some (ToneBank.mk b.waveform voices)) (Roster.modify_of_get?_none hget _).symm
    | some v =>
      simp only [Voice.addPoint?_eq (h tone v hget), Option.bind_eq_bind, Option.bind_some]
      rw [Roster.modify_of_get?_some hget fun v => v.addPoint time value]
      rfl
  | _ => rfl

/-! ## Nothing ever goes wrong -/

omit [GradualScalar R] in
theorem timely_silent (w : Waveform) : (silent w : ToneBank R).Timely := fun _ _ h => nomatch h

/-- The curves stay timely, whatever is done. -/
theorem Timely.act {b : ToneBank R} (h : b.Timely) (action : BankAction R S) : (b.act action).2.Timely := by
  intro id v hv
  cases action with
  | request tone request =>
    change v ∈ (b.apply tone request).voices.get? id at hv
    rw [get?_apply] at hv
    split at hv
    · cases request with
      | create frequency =>
        cases hv
        exact .empty
      | release => cases hv
      | gain time value =>
        obtain ⟨u, hu, rfl⟩ := Option.map_eq_some_iff.1 hv
        exact Voice.timely_addPoint (h id u hu) time value
      | start time | stop time =>
        obtain ⟨u, hu, rfl⟩ := Option.map_eq_some_iff.1 hv
        exact h id u hu
    · exact h id v hv
  | render buffer channels first rate ended =>
    change v ∈ (b.render buffer channels first rate).2.2.voices.get? id at hv
    rw [get?_render] at hv
    obtain ⟨u, hu, hafter⟩ := Option.bind_eq_some_iff.1 hv
    unfold afterBlock at hafter
    dsimp only at hafter
    split at hafter
    · cases hafter
    · obtain ⟨phase, hticks⟩ := u.ticks_eq (S := S) b.waveform rate first (buffer.length / max channels 1)
      rw [hticks] at hafter
      cases hafter
      exact h id u hu

theorem Timely.act?_eq {b : ToneBank R} (h : b.Timely) {action : BankAction R S} (hclock : action.InTime) :
    b.act? action = some (b.act action) := by
  cases action with
  | request tone request =>
    rw [act?, h.change?_eq]
    rfl
  | render buffer channels first rate ended =>
    rw [act?, h.render?_eq hclock]
    rfl

theorem Timely.run?_eq {b : ToneBank R} (h : b.Timely) {actions : List (BankAction R S)}
    (hclock : ∀ action ∈ actions, action.InTime) : b.run? actions = some (b.run actions) := by
  induction actions generalizing b with
  | nil => rfl
  | cons action rest ih =>
    obtain ⟨hnow, hlater⟩ := List.forall_mem_cons.1 hclock
    rw [run?, h.act?_eq hnow]
    simp only [Option.bind_eq_bind, Option.bind_some]
    rw [ih (h.act action) hlater]
    rfl

end ToneBank
end Gradual

/-- **Nothing goes wrong** in a bank of binary numbers, from its first voice on. Whatever is asked of the tones, with
times, frequencies and gains that may be infinite or undefined, and whatever buffers are filled, with any number of
channels, any rate and any first frame, as long as the frames can be counted in 64 bits: every index is in range, some
point comes before a time that is looked for between two points, and no slope is divided by zero. What comes out is what
comes out without the checks. -/
theorem ToneBank.run?_silent (w : Waveform) {actions : List (BankAction Float Float32)}
    (hclock : ∀ action ∈ actions, action.InTime) :
    (silent w : ToneBank Float).run? actions = some ((silent w).run actions) :=
  (timely_silent w).run?_eq hclock

/-- Points at undefined and infinite times, no channels, no frames in a second, the last frames that can be counted. -/
theorem ToneBank.run?_silent_wild :
    let undefined : Float := 0 / 0
    let endless : Float := 1 / 0
    let actions : List (BankAction Float Float32) :=
      [.request 1 (.create 440), .request 1 (.gain undefined 1), .request 1 (.gain endless undefined),
        .request 1 (.gain 0.5 2), .request 1 (.gain 0.5 0), .request 1 (.start (-endless)),
        .request 2 (.create undefined), .request 2 (.stop undefined), .render [0, 0, 0] 0 5 0 [],
        .render [0, 0, 0] 2 (2 ^ 64 - 2) 44100 [7], .request 1 .release, .render [] 1 0 8 []]
    (∀ action ∈ actions, action.InTime) ∧
      (silent .saw : ToneBank Float).run? actions = some ((silent .saw).run actions) := by
  intro undefined endless actions
  have hclock : ∀ action ∈ actions, action.InTime := by
    simp [actions, BankAction.InTime]
  exact ⟨hclock, run?_silent .saw hclock⟩

end MusicMacro
