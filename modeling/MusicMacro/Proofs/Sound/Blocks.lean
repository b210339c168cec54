import MusicMacro.Proofs.Scalar.Exact
import MusicMacro.Sound.ToneBank

/-!
# Sound does not depend on the size of the blocks

A voice that has stopped is dropped at the end of a block, and the blocks of one device are not those of another.
Until it is dropped such a voice is silent and stands still, so that it makes no difference when this is done.

* `Voice.tick_of_stoppedBy` : a voice that has stopped is silent and stands still;
* `ToneBank.mix_keep` : voices that are silent and stand still can be left out before a mix or after it, and so can
  those that have stopped (`ToneBank.mix_retire`);
* `ToneBank.mix_append` : what is mixed in two parts is mixed in one;
* `ToneBank.renderBlocks` : silent blocks filled one after the other; `ToneBank.Agree` : two ways to render agree on
  the samples, on the voices that are left and on the tones that have ended;
* `ToneBank.renderBlocks_agree` : blocks of any sizes agree with one block for all their frames.
-/

namespace MusicMacro
variable {R S : Type} [Scalar R]

theorem Roster.eq_of_entries {α : Type} {r s : Roster α} (h : r.entries = s.entries) : r = s := by
  cases r
  cases s
  cases h
  rfl

theorem Roster.nodup_ids {α : Type} (r : Roster α) : r.ids.Nodup :=
  List.pairwise_map.2 (r.ascending.imp Nat.ne_of_lt)

theorem Roster.ids_modify {α : Type} (r : Roster α) (id : ToneId) (f : α → α) : (r.modify id f).ids = r.ids := by
  simp [ids, modify, map, Function.comp_def]

/-! ## One voice -/

namespace Voice

theorem stop?_tick [Sampling R S] (w : Waveform) (rate n : Nat) (v : Voice R) :
    (v.tick w rate n : Option S × Voice R).2.stop? = v.stop? := by
  unfold tick
  dsimp only
  split <;> rfl

theorem stoppedBy_tick [Sampling R S] (w : Waveform) (rate n : Nat) (v : Voice R) (time : R) :
    (v.tick w rate n : Option S × Voice R).2.stoppedBy time = v.stoppedBy time := by
  unfold stoppedBy
  rw [stop?_tick]

variable [SteadyClock R]

theorem stoppedBy_mono {v : Voice R} {time later : R} (hle : time ≤ later) (h : v.stoppedBy time = true) :
    v.stoppedBy later = true := by
  unfold stoppedBy at h ⊢
  rw [Option.any_eq_true] at h ⊢
  obtain ⟨stop, hstop, hbefore⟩ := h
  exact ⟨stop, hstop, decide_eq_true (SteadyClock.le_trans (of_decide_eq_true hbefore) hle)⟩

theorem soundsAt_of_stoppedBy {v : Voice R} {time : R} (h : v.stoppedBy time = true) : v.soundsAt time = false := by
  unfold stoppedBy at h
  rw [Option.any_eq_true] at h
  obtain ⟨stop, hstop, hbefore⟩ := h
  have hover : ¬ time < stop := SteadyClock.not_lt_of_le (of_decide_eq_true hbefore)
  simp [soundsAt, hstop, hover]

theorem tick_of_stoppedBy [Sampling R S] (w : Waveform) {rate n : Nat} {v : Voice R} {time : R}
    (h : v.stoppedBy time = true) (hle : time ≤ Scalar.frameTime rate n) :
    (v.tick w rate n : Option S × Voice R) = (none, v) := by
  have hsilent := soundsAt_of_stoppedBy (stoppedBy_mono hle h)
  simp [tick, hsilent]

end Voice

namespace ToneBank

/-! ## Voices that are left out -/

omit [Scalar R] in
def keep (b : ToneBank R) (p : ToneId → Voice R → Bool) : ToneBank R := { b with voices := b.voices.filter p }

omit [Scalar R] in
theorem entries_keep (b : ToneBank R) (p : ToneId → Voice R → Bool) :
    (b.keep p).voices.entries = b.voices.entries.filter fun e => p e.1 e.2 := rfl

/-! ## Voices that have stopped -/

theorem entries_retire (b : ToneBank R) (time : R) :
    (b.retire time).2.voices.entries = b.voices.entries.filter fun e => !e.2.stoppedBy time := rfl

theorem retire_retire [SteadyClock R] (b : ToneBank R) {time later : R} (hle : time ≤ later) :
    ((b.retire time).2.retire later).2 = (b.retire later).2 := by
  have hboth : ∀ e : ToneId × Voice R,
      (!e.2.stoppedBy later && !e.2.stoppedBy time) = !e.2.stoppedBy later := by
    intro e
    cases hearly : e.2.stoppedBy time with
    | false => rw [Bool.not_false, Bool.and_true]
    | true => rw [Voice.stoppedBy_mono hle hearly, Bool.not_true, Bool.false_and]
  have hentries : ((b.retire time).2.retire later).2.voices.entries = (b.retire later).2.voices.entries := by
    simp only [entries_retire, List.filter_filter, hboth]
  exact congrArg (ToneBank.mk b.waveform) (Roster.eq_of_entries hentries)

/-- Who has stopped is found early or late, but only once. -/
theorem ended_retire_retire [SteadyClock R] (b : ToneBank R) {time later : R} (hle : time ≤ later) :
    ((b.retire time).1 ++ ((b.retire time).2.retire later).1).Perm (b.retire later).1 := by
  let stopped (t : R) (e : ToneId × Voice R) : Bool := e.2.stoppedBy t
  have hearly : b.voices.entries.filter (stopped time) =
      (b.voices.entries.filter (stopped later)).filter (stopped time) := by
    rw [List.filter_filter]
    refine List.filter_congr fun e _ => ?_
    cases h : stopped time e with
    | false => rw [Bool.false_and]
    | true => rw [show stopped later e = true from Voice.stoppedBy_mono hle h, Bool.true_and]
  have hlate : (b.voices.entries.filter fun e => !stopped time e).filter (stopped later) =
      (b.voices.entries.filter (stopped later)).filter fun e => !stopped time e := by
    rw [List.filter_filter, List.filter_filter]
    exact List.filter_congr fun e _ => Bool.and_comm _ _
  show (((b.voices.entries.filter (stopped time)).map Prod.fst) ++
    (((b.voices.entries.filter fun e => !stopped time e).filter (stopped later)).map Prod.fst)).Perm
    ((b.voices.entries.filter (stopped later)).map Prod.fst)
  rw [hearly, hlate, ← List.map_append]
  exact (List.filter_append_perm _ _).map Prod.fst

/-- Every voice either has stopped or is kept. -/
theorem ids_retire_perm (b : ToneBank R) (time : R) :
    ((b.retire time).1 ++ (b.retire time).2.voices.ids).Perm b.voices.ids := by
  show ((b.voices.entries.filter _).map Prod.fst ++ (b.voices.entries.filter _).map Prod.fst).Perm _
  rw [← List.map_append]
  exact (List.filter_append_perm _ _).map Prod.fst

theorem mem_ids_apply {b : ToneBank R} {tone id : ToneId} {request : ToneRequest R}
    (h : id ∈ (b.apply tone request).voices.ids) :
    id ∈ b.voices.ids ∨ id = tone ∧ ∃ frequency, request = .create frequency := by
  cases request with
  | create frequency =>
    by_cases hid : id = tone
    · exact .inr ⟨hid, frequency, rfl⟩
    · rw [Roster.mem_ids_iff] at h ⊢
      simp only [apply, Roster.get?_insert, if_neg hid] at h
      exact .inl h
  | release =>
    rw [Roster.mem_ids_iff] at h ⊢
    simp only [apply, Roster.get?_erase] at h
    obtain ⟨v, hv⟩ := h
    split at hv
    · cases hv
    · exact .inl ⟨v, hv⟩
  | gain time value => exact .inl (Roster.ids_modify .. ▸ h)
  | start time => exact .inl (Roster.ids_modify .. ▸ h)
  | stop time => exact .inl (Roster.ids_modify .. ▸ h)

/-! ## One frame -/

variable [Sampling R S]

theorem heard_frame (b : ToneBank R) (rate n : Nat) :
    (b.frame rate n : List S × ToneBank R).1 = b.voices.entries.filterMap fun e => (e.2.tick b.waveform rate n).1 := by
  simp [frame, Roster.mapOut, Roster.map, List.filterMap_map, Function.comp_def]

theorem entries_frame (b : ToneBank R) (rate n : Nat) :
    (b.frame rate n : List S × ToneBank R).2.voices.entries =
      b.voices.entries.map fun e => (e.1, (e.2.tick b.waveform rate n : Option S × Voice R).2) := by
  simp [frame, Roster.mapOut, Roster.map]

theorem ended_frame (b : ToneBank R) (rate n : Nat) (time : R) :
    ((b.frame rate n : List S × ToneBank R).2.retire time).1 = (b.retire time).1 := by
  simp only [retire, Roster.filter, Roster.ids, entries_frame, List.filter_map, Function.comp_def,
    Voice.stoppedBy_tick, List.map_map]

theorem ids_frame (b : ToneBank R) (rate n : Nat) :
    (b.frame rate n : List S × ToneBank R).2.voices.ids = b.voices.ids := by
  simp [Roster.ids, entries_frame, Function.comp_def]

theorem get?_frame (b : ToneBank R) (rate n : Nat) (id : ToneId) :
    (b.frame rate n : List S × ToneBank R).2.voices.get? id =
      (b.voices.get? id).map fun v => (v.tick b.waveform rate n : Option S × Voice R).2 := by
  simp only [frame, Roster.mapOut, Roster.get?_map, Option.map_map, Function.comp_def]

theorem frame_keep (b : ToneBank R) {rate n : Nat} {p : ToneId → Voice R → Bool}
    (hsteady : ∀ id v, p id (Voice.tick b.waveform rate n v : Option S × Voice R).2 = p id v)
    (hquiet : ∀ e ∈ b.voices.entries, p e.1 e.2 = false →
      (e.2.tick b.waveform rate n : Option S × Voice R).1 = none) :
    ((b.keep p).frame rate n : List S × ToneBank R) =
      ((b.frame rate n).1, (b.frame rate n : List S × ToneBank R).2.keep p) := by
  have hheard : ((b.keep p).frame rate n : List S × ToneBank R).1 = (b.frame rate n).1 := by
    rw [heard_frame, heard_frame, entries_keep, List.filterMap_filter]
    refine List.filterMap_congr fun e he => ?_
    cases hp : p e.1 e.2 with
    | true => rfl
    | false => exact (hquiet e he hp).symm
  have hentries : ((b.keep p).frame rate n : List S × ToneBank R).2.voices.entries =
      ((b.frame rate n : List S × ToneBank R).2.keep p).voices.entries := by
    simp only [entries_frame, entries_keep, List.filter_map, Function.comp_def, hsteady]
    rfl
  exact Prod.ext hheard (congrArg (ToneBank.mk b.waveform) (Roster.eq_of_entries hentries))

/-! ## Many frames -/

variable [Amplitude S]

theorem mix_succ (b : ToneBank R) (channels rate n frames : Nat) (buffer : List S) :
    b.mix channels rate n (frames + 1) buffer =
      ((buffer.take channels).map (fun s => (b.frame rate n).1.foldl (· + ·) s) ++
          ((b.frame rate n : List S × ToneBank R).2.mix channels rate (n + 1) frames (buffer.drop channels)).1,
        ((b.frame rate n : List S × ToneBank R).2.mix channels rate (n + 1) frames (buffer.drop channels)).2) := rfl

theorem ended_mix (b : ToneBank R) (channels rate n frames : Nat) (buffer : List S) (time : R) :
    ((b.mix channels rate n frames buffer).2.retire time).1 = (b.retire time).1 := by
  induction frames generalizing b n buffer with
  | zero => rfl
  | succ frames ih => rw [mix_succ, ih, ended_frame]

theorem ids_mix (b : ToneBank R) (channels rate n frames : Nat) (buffer : List S) :
    (b.mix channels rate n frames buffer).2.voices.ids = b.voices.ids := by
  induction frames generalizing b n buffer with
  | zero => rfl
  | succ frames ih => rw [mix_succ, ih, ids_frame]

theorem length_mix (b : ToneBank R) (channels rate n frames : Nat) (buffer : List S) :
    (b.mix channels rate n frames buffer).1.length = buffer.length := by
  induction frames generalizing b n buffer with
  | zero => rfl
  | succ frames ih =>
    rw [mix_succ, List.length_append, List.length_map, ih, List.length_take, List.length_drop]
    omega

theorem waveform_mix (b : ToneBank R) (channels rate n frames : Nat) (buffer : List S) :
    (b.mix channels rate n frames buffer).2.waveform = b.waveform := by
  induction frames generalizing b n buffer with
  | zero => rfl
  | succ frames ih =>
    rw [mix_succ, ih]
    rfl

/-- Voices that are silent and stand still can be left out before a mix or after it. -/
theorem mix_keep (b : ToneBank R) (channels : Nat) {rate n frames : Nat} {p : ToneId → Voice R → Bool}
    (hsteady : ∀ m id v, p id (Voice.tick b.waveform rate m v : Option S × Voice R).2 = p id v)
    (hquiet : ∀ m, n ≤ m → m < n + frames → ∀ e ∈ b.voices.entries, p e.1 e.2 = false →
      (e.2.tick b.waveform rate m : Option S × Voice R) = (none, e.2)) (buffer : List S) :
    (b.keep p).mix channels rate n frames buffer =
      ((b.mix channels rate n frames buffer).1, (b.mix channels rate n frames buffer).2.keep p) := by
  induction frames generalizing b n buffer with
  | zero => rfl
  | succ frames ih =>
    have hnow : ∀ e ∈ b.voices.entries, p e.1 e.2 = false →
        (e.2.tick b.waveform rate n : Option S × Voice R) = (none, e.2) :=
      fun e he hp => hquiet n (Nat.le_refl n) (by omega) e he hp
    -- a voice that is left out is the same in the next frame, and so it stays quiet
    have hlater : ∀ m, n + 1 ≤ m → m < n + 1 + frames →
        ∀ e ∈ (b.frame rate n : List S × ToneBank R).2.voices.entries, p e.1 e.2 = false →
          (e.2.tick b.waveform rate m : Option S × Voice R) = (none, e.2) := by
      intro m hle hlt e he hp
      rw [entries_frame] at he
      obtain ⟨e', he', rfl⟩ := List.mem_map.1 he
      have hp' : p e'.1 e'.2 = false := (hsteady n e'.1 e'.2).symm.trans hp
      have hsame := hnow e' he' hp'
      have htick := hquiet m (by omega) (by omega) e' he' hp'
      simp only [hsame, htick]
    rw [mix_succ, mix_succ, b.frame_keep (hsteady n) (fun e he hp => congrArg Prod.fst (hnow e he hp)),
      ih (b.frame rate n : List S × ToneBank R).2 hsteady hlater]

theorem mix_retire [SteadyClock R] (b : ToneBank R) (channels : Nat) {rate n : Nat} (hrate : 0 < rate) (frames : Nat)
    (buffer : List S) {time : R} (hle : time ≤ Scalar.frameTime rate n) :
    (b.retire time).2.mix channels rate n frames buffer =
      ((b.mix channels rate n frames buffer).1, ((b.mix channels rate n frames buffer).2.retire time).2) := by
  refine b.mix_keep channels (p := fun _ v => !v.stoppedBy time) (fun m id v => ?_) (fun m hm _ e _ hp => ?_) buffer
  · rw [Voice.stoppedBy_tick]
  · have hstopped : e.2.stoppedBy time = true := by simpa using hp
    exact Voice.tick_of_stoppedBy b.waveform hstopped (SteadyClock.le_trans hle (SteadyClock.frameTime_mono hrate hm))

theorem mix_append (b : ToneBank R) (channels rate n first second : Nat) {front : List S} (back : List S)
    (hfront : front.length = first * channels) :
    b.mix channels rate n (first + second) (front ++ back) =
      ((b.mix channels rate n first front).1 ++
          ((b.mix channels rate n first front).2.mix channels rate (n + first) second back).1,
        ((b.mix channels rate n first front).2.mix channels rate (n + first) second back).2) := by
  induction first generalizing b n front with
  | zero =>
    have hnil : front = [] := List.length_eq_zero_iff.1 (by omega)
    rw [hnil, Nat.zero_add]
    rfl
  | succ first ih =>
    have hroom : channels ≤ front.length := by
      rw [hfront, Nat.succ_mul]
      exact Nat.le_add_left _ _
    have hrest : (front.drop channels).length = first * channels := by
      rw [List.length_drop, hfront, Nat.succ_mul, Nat.add_sub_cancel]
    rw [show first + 1 + second = first + second + 1 by omega, mix_succ, mix_succ,
      List.take_append_of_le_length hroom, List.drop_append_of_le_length hroom, ih _ _ hrest,
      show n + 1 + first = n + (first + 1) by omega, List.append_assoc]

/-! ## Blocks -/

/-- The samples of some frames of silence. -/
def quiet (channels frames : Nat) : List S := List.replicate (frames * channels) Amplitude.silence

theorem length_quiet (channels frames : Nat) : (quiet channels frames : List S).length = frames * channels :=
  List.length_replicate

theorem quiet_add (channels first second : Nat) :
    (quiet channels (first + second) : List S) = quiet channels first ++ quiet channels second := by
  unfold quiet
  rw [Nat.add_mul, List.replicate_add]

/-- Two ways to render agree: on the samples, on the tones that have ended, and on the voices that are left. -/
structure Agree (a b : List S × List ToneId × ToneBank R) : Prop where
  samples : a.1 = b.1
  ended : a.2.1.Perm b.2.1
  bank : a.2.2 = b.2.2

omit [Scalar R] [Sampling R S] [Amplitude S] in
theorem Agree.symm {a b : List S × List ToneId × ToneBank R} (h : Agree a b) : Agree b a :=
  ⟨h.samples.symm, h.ended.symm, h.bank.symm⟩

omit [Scalar R] [Sampling R S] [Amplitude S] in
theorem Agree.trans {a b c : List S × List ToneId × ToneBank R} (h : Agree a b) (h' : Agree b c) : Agree a c :=
  ⟨h.samples.trans h'.samples, h.ended.trans h'.ended, h.bank.trans h'.bank⟩

/-- A rendering and what is rendered after it. -/
def join (now later : List S × List ToneId × ToneBank R) : List S × List ToneId × ToneBank R :=
  (now.1 ++ later.1, now.2.1 ++ later.2.1, later.2.2)

omit [Scalar R] [Sampling R S] [Amplitude S] in
theorem Agree.join {now later other : List S × List ToneId × ToneBank R} (h : Agree later other) :
    Agree (join now later) (join now other) :=
  ⟨congrArg (now.1 ++ ·) h.samples, h.ended.append_left now.2.1, h.bank⟩

/-- Fills silent blocks one after the other, each with as many frames as the list says. -/
def renderBlocks (b : ToneBank R) (channels rate n : Nat) : List Nat → List S × List ToneId × ToneBank R
  | [] => ([], [], b)
  | frames :: rest =>
    let now := b.render (quiet channels frames : List S) channels n rate
    join now (now.2.2.renderBlocks channels rate (n + frames) rest)

theorem renderBlocks_append (b : ToneBank R) (channels rate n : Nat) (sizes more : List Nat) :
    (b.renderBlocks channels rate n (sizes ++ more) : List S × List ToneId × ToneBank R) =
      join (b.renderBlocks channels rate n sizes)
        ((b.renderBlocks channels rate n sizes : List S × List ToneId × ToneBank R).2.2.renderBlocks channels rate
          (n + sizes.sum) more) := by
  induction sizes generalizing b n with
  | nil => rfl
  | cons frames rest ih =>
    rw [List.cons_append, renderBlocks, ih, renderBlocks]
    simp only [join, List.append_assoc, List.sum_cons, Nat.add_assoc]

/-- Every voice either has ended in a block or is still held. -/
theorem ids_render_perm (b : ToneBank R) (buffer : List S) (channels n rate : Nat) :
    ((b.render buffer channels n rate).2.1 ++ (b.render buffer channels n rate).2.2.voices.ids).Perm b.voices.ids := by
  rw [← b.ids_mix (max channels 1) rate n (buffer.length / max channels 1) buffer]
  exact ids_retire_perm _ _

theorem ids_renderBlocks_perm (b : ToneBank R) (channels rate n : Nat) (sizes : List Nat) :
    let sound : List S × List ToneId × ToneBank R := b.renderBlocks channels rate n sizes
    (sound.2.1 ++ sound.2.2.voices.ids).Perm b.voices.ids := by
  induction sizes generalizing b n with
  | nil => exact .refl _
  | cons frames rest ih =>
    let now : List S × List ToneId × ToneBank R := b.render (quiet channels frames) channels n rate
    have hnow : (now.2.1 ++ now.2.2.voices.ids).Perm b.voices.ids := b.ids_render_perm _ _ _ _
    show (now.2.1 ++ _ ++ _).Perm _
    rw [List.append_assoc]
    exact ((ih now.2.2 (n + frames)).append_left _).trans hnow

/-- What is rendered into two buffers agrees with what is rendered into both of them at once. -/
theorem render_append_agree [SteadyClock R] (b : ToneBank R) {channels rate : Nat} (hchannels : 0 < channels)
    (hrate : 0 < rate) (n : Nat) {front : List S} (back : List S) (hfront : channels ∣ front.length) :
    Agree
      (join (b.render front channels n rate)
        ((b.render front channels n rate).2.2.render back channels (n + front.length / channels) rate))
      (b.render (front ++ back) channels n rate) := by
  obtain ⟨first, hfirst⟩ := hfront
  rw [Nat.mul_comm] at hfirst
  have hmax : max channels 1 = channels := by omega
  have hcount : front.length / channels = first := by rw [hfirst, Nat.mul_div_cancel first hchannels]
  have hboth : (front ++ back).length / channels = first + back.length / channels := by
    rw [List.length_append, hfirst, Nat.mul_comm, Nat.mul_add_div hchannels]
  have hlater : (Scalar.frameTime rate (n + first) : R) ≤ Scalar.frameTime rate (n + first + back.length / channels) :=
    SteadyClock.frameTime_mono hrate (Nat.le_add_right _ _)
  have hself : (Scalar.frameTime rate (n + first) : R) ≤ Scalar.frameTime rate (n + first) :=
    SteadyClock.frameTime_mono hrate (Nat.le_refl _)
  simp only [render, hmax, hcount, hboth, mix_retire _ channels hrate _ _ hself, ← Nat.add_assoc,
    mix_append b channels rate n first _ back hfirst]
  refine ⟨rfl, ?_, retire_retire _ hlater⟩
  show (((b.mix channels rate n first _).2.retire _).1 ++ _).Perm _
  rw [← ended_mix (b.mix channels rate n first front).2 channels rate (n + first) (back.length / channels) back]
  exact ended_retire_retire _ hlater

theorem render_render_agree [SteadyClock R] (b : ToneBank R) {channels rate : Nat} (hchannels : 0 < channels)
    (hrate : 0 < rate) (n first second : Nat) :
    Agree
      (join (b.render (quiet channels first : List S) channels n rate)
        ((b.render (quiet channels first : List S) channels n rate).2.2.render (quiet channels second : List S) channels
          (n + first) rate))
      (b.render (quiet channels (first + second) : List S) channels n rate) := by
  have hwhole : channels ∣ (quiet channels first : List S).length := ⟨first, by rw [length_quiet, Nat.mul_comm]⟩
  have hagree := b.render_append_agree hchannels hrate n (quiet channels second : List S) hwhole
  rwa [length_quiet, Nat.mul_div_cancel first hchannels, ← quiet_add] at hagree

/-- **Blocks of any sizes sound like one block.** -/
theorem renderBlocks_agree [SteadyClock R] (b : ToneBank R) {channels rate : Nat} (hchannels : 0 < channels)
    (hrate : 0 < rate) (n : Nat) {sizes : List Nat} (hsizes : sizes ≠ []) :
    Agree (b.renderBlocks channels rate n sizes)
      (b.render (quiet channels sizes.sum : List S) channels n rate) := by
  induction sizes generalizing b n with
  | nil => exact absurd rfl hsizes
  | cons frames rest ih =>
    rw [renderBlocks, List.sum_cons]
    cases hrest : rest with
    | nil => exact ⟨List.append_nil _, .of_eq (List.append_nil _), rfl⟩
    | cons next more =>
      rw [← hrest]
      have hlater := ih (b.render (quiet channels frames : List S) channels n rate).2.2 (n + frames) (by simp [hrest])
      exact hlater.join.trans (b.render_render_agree hchannels hrate n frames rest.sum)

theorem renderBlocks_agree_of_sum_eq [SteadyClock R] (b : ToneBank R) {channels rate : Nat} (hchannels : 0 < channels)
    (hrate : 0 < rate) (n : Nat) {sizes others : List Nat} (hsizes : sizes ≠ []) (hothers : others ≠ [])
    (hsum : sizes.sum = others.sum) :
    Agree (b.renderBlocks channels rate n sizes : List S × List ToneId × ToneBank R)
      (b.renderBlocks channels rate n others) := by
  have hone := b.renderBlocks_agree (S := S) hchannels hrate n hsizes
  have hother := b.renderBlocks_agree (S := S) hchannels hrate n hothers
  rw [hsum] at hone
  exact hone.trans hother.symm

end ToneBank

end MusicMacro
