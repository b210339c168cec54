import MusicMacro.Proofs.Device.Buffers
import MusicMacro.Proofs.Sound.Asleep

/-!
# Tones that wait for their end

On a device that renders into memory, every tone that was handed over in full is reported once, at its end.

* `Voice.WaitsAt` : a voice with its whole schedule, which has not stopped by a time;
* `OfflineDevice.Holds` : the tones that a device holds have such voices, and they are the tones with a report;
* `Holds.scheduled`, `Holds.release` : a tone that is handed over is held, and one that is released is not;
* `OfflineDevice.Passes` : what sound leaves of the tones, for one block (`Holds.block`) and for many (`Holds.blocks`);
* `Holds.finishTime?` : the last stop of all tones that are held.
-/

namespace MusicMacro

theorem exists_mapM_eq {α β : Type} {f : α → Option β} {as : List α} (h : ∀ a ∈ as, ∃ b, f a = some b) :
    ∃ bs, as.mapM f = some bs ∧ ∀ b, b ∈ bs ↔ ∃ a ∈ as, f a = some b := by
  induction as with
  | nil => exact ⟨[], rfl, fun b => by simp⟩
  | cons a rest ih =>
    obtain ⟨b, hb⟩ := h a List.mem_cons_self
    obtain ⟨bs, hbs, hmem⟩ := ih fun a ha => h a (List.mem_cons_of_mem _ ha)
    refine ⟨b :: bs, by rw [List.mapM_cons, hb, hbs]; rfl, fun b' => ?_⟩
    simp [hmem, hb, eq_comm]

/-! ## One voice -/

namespace Voice

/-- A voice that was given its four gains, a start and a later stop, which lies ahead. -/
def WaitsAt (time : ℝ) (v : Voice ℝ) : Prop :=
  v.gain.points.length = 4 ∧ ∃ start stop, v.start? = some start ∧ v.stop? = some stop ∧ start < stop ∧ time < stop

theorem length_addPoint {v : Voice ℝ} (time value : ℝ) (h : v.gain.points.length < 8) :
    (v.addPoint time value).gain.points.length = v.gain.points.length + 1 := by
  have hfinite : (Scalar.isFinite time && Scalar.isFinite value) = true := rfl
  have hroom : ∀ p, v.gain.insert? p = some ⟨GainCurve.insertPoint v.gain.points p, _⟩ := fun p => dif_pos h
  rw [addPoint, if_pos hfinite]
  simp only [hroom, Option.getD_some]
  exact GainCurve.length_insertPoint _ _

theorem length_foldl_addPoint (gains : List (GainPoint ℝ)) {v : Voice ℝ}
    (hroom : v.gain.points.length + gains.length ≤ 8) :
    (gains.foldl (fun v p => v.addPoint p.time p.value) v).gain.points.length =
      v.gain.points.length + gains.length := by
  induction gains generalizing v with
  | nil => rfl
  | cons p rest ih =>
    rw [List.length_cons] at hroom ⊢
    have hone := v.length_addPoint p.time p.value (by omega)
    rw [List.foldl_cons, ih (by omega), hone]
    omega

/-- A voice that was given its gains and nothing else. -/
def shaped {R : Type} [Scalar R] (frequency : R) (gains : List (GainPoint R)) : Voice R :=
  gains.foldl (fun v p => v.addPoint p.time p.value) (.silent frequency)

theorem length_shaped (frequency : ℝ) {gains : List (GainPoint ℝ)} (hroom : gains.length ≤ 8) :
    (shaped frequency gains).gain.points.length = gains.length := by
  have hnone : (silent frequency : Voice ℝ).gain.points.length = 0 := rfl
  rw [shaped, length_foldl_addPoint gains (by omega), hnone, Nat.zero_add]

/-- A voice that waits is dropped at the end of a block, or it waits on. -/
theorem WaitsAt.afterBlock {S : Type} [Sampling ℝ S] {v next : Voice ℝ} {time : ℝ} (h : v.WaitsAt time) {w : Waveform}
    {rate n frames : Nat} (hnext : ToneBank.afterBlock (S := S) w rate n frames v = some next) :
    next.WaitsAt (Scalar.frameTime rate (n + frames)) ∧ next.stop? = v.stop? := by
  obtain ⟨hgain, start, stop, hstart, hstop, hlt, -⟩ := h
  obtain ⟨phase, hticks⟩ := v.ticks_eq (S := S) w rate n frames
  unfold ToneBank.afterBlock at hnext
  dsimp only at hnext
  rw [hticks] at hnext
  split at hnext
  · cases hnext
  · rename_i hahead
    cases hnext
    have hlater : ¬ stop ≤ Scalar.frameTime rate (n + frames) := by
      simpa [stoppedBy, hstop] using hahead
    exact ⟨⟨hgain, start, stop, hstart, hstop, hlt, not_le.1 hlater⟩, rfl⟩

end Voice

/-! ## The device -/

namespace OfflineDevice
variable {S : Type}

/-- The tones that a device holds: they wait for their ends, and each of them is to be reported. -/
structure Holds (d : OfflineDevice ℝ S) (tones : List ToneId) : Prop where
  mem_ids : ∀ id, id ∈ d.bank.voices.ids ↔ id ∈ tones
  reports : ∀ id, d.reports.get? id = if id ∈ tones then some id else none
  waits : ∀ id, ∀ v ∈ d.bank.voices.get? id, v.WaitsAt d.time
  issued : ∀ id ∈ tones, id < d.nextId

def stops (d : OfflineDevice ℝ S) : Set ℝ := {stop | ∃ id, ∃ v ∈ d.bank.voices.get? id, v.stop? = some stop}

/-- Where all tones have a stop, the last of the stops is found. -/
theorem finishTime?_of_known {d : OfflineDevice ℝ S}
    (hknown : ∀ e ∈ d.bank.voices.entries, ∃ stop, e.2.stop? = some stop) (hsome : d.bank.voices.entries ≠ []) :
    ∃ latest, d.bank.finishTime? = some latest ∧ IsGreatest d.stops latest := by
  obtain ⟨stops, hstops, hmem⟩ := exists_mapM_eq hknown
  have hvoices : ∀ stop, stop ∈ stops ↔ stop ∈ d.stops := by
    intro stop
    rw [hmem]
    constructor
    · rintro ⟨e, he, hstop⟩
      exact ⟨e.1, e.2, Roster.get?_eq_some_iff.2 he, hstop⟩
    · rintro ⟨id, v, hv, hstop⟩
      exact ⟨(id, v), Roster.get?_eq_some_iff.1 hv, hstop⟩
  obtain ⟨e, he⟩ := List.exists_mem_of_ne_nil _ hsome
  obtain ⟨stop, hstop⟩ := hknown e he
  cases stops with
  | nil => exact absurd ((hmem stop).2 ⟨e, he, hstop⟩) List.not_mem_nil
  | cons first rest =>
    have hmax : (first :: rest).max? = some (rest.foldl max first) := List.max?_cons'
    have hfold : rest.foldl Scalar.maxOf first = rest.foldl max first := by
      simp only [show (Scalar.maxOf : ℝ → ℝ → ℝ) = max from funext₂ maxOf_eq]
    obtain ⟨hin, hle⟩ := List.max?_eq_some_iff.1 hmax
    refine ⟨rest.foldl max first, ?_, (hvoices _).1 hin, fun other hother => hle other ((hvoices other).2 hother)⟩
    rw [ToneBank.finishTime?, hstops, ← hfold]
    rfl

theorem holds_fresh [Amplitude S] (w : Waveform) (rate channels : Nat) (master : MasterBus S) :
    (fresh w rate channels master : OfflineDevice ℝ S).Holds [] :=
  ⟨fun _ => Iff.rfl, fun _ => rfl, nofun, nofun⟩

namespace Holds
variable {d : OfflineDevice ℝ S} {tones : List ToneId}

theorem congr (h : d.Holds tones) {others : List ToneId} (hsame : ∀ id, id ∈ others ↔ id ∈ tones) : d.Holds others :=
  ⟨fun id => (h.mem_ids id).trans (hsame id).symm, fun id => by rw [h.reports, if_congr (hsame id) rfl rfl], h.waits,
    fun id hid => h.issued id ((hsame id).1 hid)⟩

theorem notMem_nextId (h : d.Holds tones) : d.nextId ∉ tones := fun hmem => Nat.lt_irrefl _ (h.issued _ hmem)

theorem ids_reports (h : d.Holds tones) : d.reports.ids = d.bank.voices.ids := by
  have hsame : (d.reports.map fun _ _ => ()) = d.bank.voices.map fun _ _ => () := by
    refine Roster.ext_get? fun id => ?_
    have hvoice := (h.mem_ids id).symm.trans Roster.mem_ids_iff
    rw [Roster.get?_map, Roster.get?_map, h.reports]
    by_cases hid : id ∈ tones
    · obtain ⟨v, hv⟩ := hvoice.1 hid
      rw [if_pos hid, hv]
      rfl
    · rw [if_neg hid, Option.eq_none_iff_forall_ne_some.2 fun v hv => hid (hvoice.2 ⟨v, hv⟩)]
      rfl
  have hids : ∀ {α : Type} (r : Roster α), (r.map fun _ _ => ()).ids = r.ids := fun r => by
    simp [Roster.map, Roster.ids, Function.comp_def]
  rw [← hids d.reports, hsame, hids]

end Holds

/-! ## Requests -/

theorem submitAll_eq [Amplitude S] [Sampling ℝ S] (d : OfflineDevice ℝ S) (requests : List (Request ℝ ToneId)) :
    ToneDevice.submitAll d requests = (.ok (), requests.foldl submit d) := by
  induction requests generalizing d with
  | nil => rfl
  | cons request rest ih => exact ih (d.submit request)

theorem foldl_gain (d : OfflineDevice ℝ S) (tone : ToneId) (gains : List (GainPoint ℝ)) :
    ∃ bank calls, (gains.map fun p => .gain tone p.time p.value).foldl submit d = { d with bank, lastCalls := calls } ∧
      ∀ id, bank.voices.get? id =
        if id = tone then (d.bank.voices.get? id).map fun v => gains.foldl (fun v p => v.addPoint p.time p.value) v
        else d.bank.voices.get? id := by
  induction gains generalizing d with
  | nil => exact ⟨d.bank, d.lastCalls, rfl, fun id => by simp⟩
  | cons p rest ih =>
    obtain ⟨bank, calls, hrest, hvoices⟩ := ih (d.submit (.gain tone p.time p.value))
    refine ⟨bank, calls, hrest, fun id => ?_⟩
    have hfirst : (d.submit (.gain tone p.time p.value)).bank.voices.get? id = _ :=
      d.bank.get?_apply tone id (.gain p.time p.value)
    rw [hvoices, hfirst]
    by_cases hid : id = tone
    · simp only [if_pos hid, ToneRequest.act, Option.map_map, List.foldl_cons]
      rfl
    · simp only [if_neg hid]

/-- The device after a tone was made and handed over: its gains, its start, its stop and the report of its end. -/
def scheduled {R : Type} [Scalar R] (d : OfflineDevice R S) (frequency : R) (gains : List (GainPoint R))
    (start stop : R) : OfflineDevice R S :=
  let requests := (gains.map fun p => .gain d.nextId p.time p.value) ++ [.start d.nextId start, .stop d.nextId stop]
  (requests.foldl submit (d.create frequency).2).submit (.onEnded d.nextId d.nextId)

section Scheduled
variable (d : OfflineDevice ℝ S) (frequency : ℝ) (gains : List (GainPoint ℝ)) (start stop : ℝ)

/-- What the gains make of the device comes before the start and the stop. -/
theorem scheduled_eq :
    ∃ bank calls,
      d.scheduled frequency gains start stop = (((({ (d.create frequency).2 with bank, lastCalls := calls } :
        OfflineDevice ℝ S).submit (.start d.nextId start)).submit (.stop d.nextId stop)).submit
          (.onEnded d.nextId d.nextId)) ∧
      ∀ id, bank.voices.get? id =
        if id = d.nextId then some (.shaped frequency gains)
        else d.bank.voices.get? id := by
  obtain ⟨bank, calls, hgains, hvoices⟩ := (d.create frequency).2.foldl_gain d.nextId gains
  refine ⟨bank, calls, ?_, fun id => ?_⟩
  · unfold scheduled
    simp only [List.foldl_append, hgains]
    rfl
  · have hfirst : (d.create frequency).2.bank.voices.get? id = _ :=
      d.bank.get?_apply d.nextId id (.create frequency)
    rw [hvoices, hfirst]
    by_cases hid : id = d.nextId
    · simp only [if_pos hid]
      rfl
    · simp only [if_neg hid]

theorem get?_voices_scheduled (id : ToneId) :
    (d.scheduled frequency gains start stop).bank.voices.get? id =
      if id = d.nextId then
        some { Voice.shaped frequency gains with start? := some start, stop? := some stop }
      else d.bank.voices.get? id := by
  obtain ⟨bank, calls, hscheduled, hvoices⟩ := d.scheduled_eq frequency gains start stop
  rw [hscheduled]
  show ((bank.apply d.nextId (.start start)).apply d.nextId (.stop stop)).voices.get? id = _
  rw [ToneBank.get?_apply, ToneBank.get?_apply, hvoices]
  by_cases hid : id = d.nextId
  · simp only [if_pos hid]
    rfl
  · simp only [if_neg hid]

theorem get?_reports_scheduled (id : ToneId) :
    (d.scheduled frequency gains start stop).reports.get? id =
      if id = d.nextId then some d.nextId else d.reports.get? id := by
  obtain ⟨bank, calls, hscheduled, -⟩ := d.scheduled_eq frequency gains start stop
  rw [hscheduled]
  exact Roster.get?_insert d.reports d.nextId id d.nextId

theorem nextId_scheduled : (d.scheduled frequency gains start stop).nextId = d.nextId + 1 := by
  obtain ⟨bank, calls, hscheduled, -⟩ := d.scheduled_eq frequency gains start stop
  rw [hscheduled]
  rfl

theorem time_scheduled : (d.scheduled frequency gains start stop).time = d.time := by
  obtain ⟨bank, calls, hscheduled, -⟩ := d.scheduled_eq frequency gains start stop
  rw [hscheduled]
  rfl

end Scheduled

namespace Holds
variable {d : OfflineDevice ℝ S} {tones : List ToneId}

/-- **A tone that is handed over** is held. -/
theorem scheduled (h : d.Holds tones) (frequency : ℝ) {gains : List (GainPoint ℝ)} (hfour : gains.length = 4)
    {start stop : ℝ} (hahead : d.time ≤ start) (hlasts : start < stop) :
    (d.scheduled frequency gains start stop).Holds (tones ++ [d.nextId]) := by
  have hgains : (Voice.shaped frequency gains).gain.points.length = 4 := by
    rw [Voice.length_shaped frequency (by omega), hfour]
  refine ⟨fun id => ?_, fun id => ?_, fun id v hv => ?_, fun id hmem => ?_⟩
  · rw [Roster.mem_ids_iff, get?_voices_scheduled, List.mem_append, List.mem_singleton, ← h.mem_ids id,
      Roster.mem_ids_iff]
    by_cases hnew : id = d.nextId <;> simp [hnew]
  · rw [get?_reports_scheduled, h.reports]
    by_cases hnew : id = d.nextId <;> simp [hnew]
  · rw [get?_voices_scheduled] at hv
    rw [time_scheduled]
    by_cases hnew : id = d.nextId
    · rw [if_pos hnew] at hv
      obtain rfl := Option.mem_some_iff.1 hv
      exact ⟨hgains, start, stop, rfl, rfl, hlasts, hahead.trans_lt hlasts⟩
    · rw [if_neg hnew] at hv
      exact h.waits id v hv
  · rw [nextId_scheduled]
    rcases List.mem_append.1 hmem with hold | hnew
    · exact Nat.lt_succ_of_lt (h.issued id hold)
    · rw [List.mem_singleton.1 hnew]
      exact Nat.lt_succ_self _

theorem release (h : d.Holds tones) (tone : ToneId) (now : ℝ) :
    ((d.submit (.stop tone now)).submit (.release tone)).Holds (tones.filter (· ≠ tone)) := by
  have hvoice : ∀ id, ((d.submit (.stop tone now)).submit (.release tone)).bank.voices.get? id =
      if id = tone then none else d.bank.voices.get? id := by
    intro id
    show ((d.bank.apply tone (.stop now)).apply tone .release).voices.get? id = _
    rw [ToneBank.get?_apply, ToneBank.get?_apply]
    by_cases hid : id = tone
    · simp only [if_pos hid]
      rfl
    · simp only [if_neg hid]
  have hreport : ∀ id, ((d.submit (.stop tone now)).submit (.release tone)).reports.get? id =
      if id = tone then none else d.reports.get? id := fun id => Roster.get?_erase d.reports tone id
  refine ⟨fun id => ?_, fun id => ?_, fun id v hv => ?_, fun id hmem => ?_⟩
  · rw [Roster.mem_ids_iff, hvoice, List.mem_filter, ← h.mem_ids id, Roster.mem_ids_iff]
    by_cases hid : id = tone <;> simp [hid]
  · rw [hreport, h.reports]
    by_cases hid : id = tone <;> simp [hid]
  · rw [hvoice] at hv
    by_cases hid : id = tone
    · rw [if_pos hid] at hv
      cases hv
    · rw [if_neg hid] at hv
      exact h.waits id v hv
  · exact h.issued id (List.mem_filter.1 hmem).1

end Holds

/-! ## Blocks -/

section Views
variable {R : Type} [Scalar R] [Amplitude S] [Sampling R S] (d : OfflineDevice R S) (frames : Nat)

theorem length_block : (d.block frames).1.samples.length = frames * d.channels := by
  show (List.map _ (ToneBank.mix _ _ _ _ _ _).1).length = _
  rw [List.length_map, ToneBank.length_mix, List.length_replicate]

theorem get?_voices_block (id : ToneId) :
    (d.block frames).2.bank.voices.get? id =
      (d.bank.voices.get? id).bind (ToneBank.afterBlock (S := S) d.bank.waveform d.sampleRate d.frame frames) := by
  have hchannels : max d.channels 1 = d.channels := max_eq_left d.channels_pos
  have hview := d.bank.get?_render (List.replicate (frames * d.channels) (Amplitude.silence : S)) d.channels d.frame
    d.sampleRate id
  rw [List.length_replicate, hchannels, Nat.mul_div_cancel _ d.channels_pos] at hview
  exact hview

theorem ids_block_perm : (d.endings [frames] ++ (d.block frames).2.bank.voices.ids).Perm d.bank.voices.ids := by
  rw [endings, endings, List.append_nil]
  exact d.bank.ids_render_perm ..

theorem get?_reports_block (id : ToneId) :
    (d.block frames).2.reports.get? id = (d.reports.get? id).filter fun _ => decide (id ∉ d.endings [frames]) := by
  have hview := d.reports.get?_filter (fun id _ => decide (id ∉ d.endings [frames])) id
  rw [← hview, endings, endings, List.append_nil]
  simp [block]

end Views

variable [Amplitude S] [Sampling ℝ S]

/-- What some frames of sound leave of the tones that a device holds: those that are reported on the way are gone, and
the others wait for the same stops. -/
structure Passes (d : OfflineDevice ℝ S) (tones : List ToneId) (frames : Nat) (sound : Rendering S)
    (next : OfflineDevice ℝ S) : Prop where
  samples : sound.samples.length = frames * d.channels
  frame : next.frame = d.frame + frames
  sampleRate : next.sampleRate = d.sampleRate
  channels : next.channels = d.channels
  nextId : next.nextId = d.nextId
  reports_sub : ∀ id ∈ sound.reports, id ∈ tones
  reports_nodup : sound.reports.Nodup
  holds : next.Holds (tones.filter (· ∉ sound.reports))
  stops : next.stops ⊆ d.stops

namespace Holds
variable {d : OfflineDevice ℝ S} {tones : List ToneId}

/-- What is still held after a block has waited, and waits for the same stop. -/
theorem waits_block (h : d.Holds tones) (frames : Nat) {id : ToneId} {v : Voice ℝ}
    (hv : v ∈ (d.block frames).2.bank.voices.get? id) :
    v.WaitsAt (d.block frames).2.time ∧ ∃ old ∈ d.bank.voices.get? id, v.stop? = old.stop? := by
  rw [get?_voices_block] at hv
  obtain ⟨old, hold, hafter⟩ := Option.bind_eq_some_iff.1 hv
  obtain ⟨hwaits, hstop⟩ := (h.waits id old hold).afterBlock hafter
  exact ⟨hwaits, old, hold, hstop⟩

/-- **One block**. -/
theorem block (h : d.Holds tones) (frames : Nat) : d.Passes tones frames (d.block frames).1 (d.block frames).2 := by
  -- a voice ends in the block or is held after it, so what ends was held, and ends once
  have hperm := d.ids_block_perm frames
  obtain ⟨hended, -, hapart⟩ := List.nodup_append.1 (hperm.nodup_iff.2 (Roster.nodup_ids _))
  have hsub : ∀ id ∈ d.endings [frames], id ∈ tones := fun id hid =>
    (h.mem_ids id).1 (hperm.mem_iff.1 (List.mem_append_left _ hid))
  have hreports : (d.block frames).1.reports = d.endings [frames] := by
    have hself : ∀ id ∈ d.endings [frames], d.reports.get? id = some id := fun id hid => by
      rw [h.reports, if_pos (hsub id hid)]
    rw [reports_block, List.filterMap_congr hself, List.filterMap_some]
  refine ⟨d.length_block frames, rfl, rfl, rfl, rfl, ?_, ?_, ?_, ?_⟩
  · rw [hreports]
    exact hsub
  · rw [hreports]
    exact hended
  · rw [hreports]
    refine ⟨fun id => ?_, fun id => ?_, fun id v hv => (h.waits_block frames hv).1, fun id hid =>
      h.issued id (List.mem_filter.1 hid).1⟩
    · rw [List.mem_filter, ← h.mem_ids id, ← hperm.mem_iff, List.mem_append, decide_eq_true_eq]
      constructor
      · exact fun hid => ⟨.inr hid, fun hend => hapart id hend id hid rfl⟩
      · exact fun hid => hid.1.resolve_left hid.2
    · rw [get?_reports_block, h.reports]
      by_cases hid : id ∈ tones <;> by_cases hend : id ∈ d.endings [frames] <;> simp [hid, hend]
  · rintro stop ⟨id, v, hv, hstop⟩
    obtain ⟨-, old, hold, hsame⟩ := h.waits_block frames hv
    exact ⟨id, old, hold, hsame.symm.trans hstop⟩

end Holds

omit [Amplitude S] [Sampling ℝ S] in
theorem Passes.trans {d mid last : OfflineDevice ℝ S} {tones : List ToneId} {frames more : Nat}
    {now later : Rendering S}
    (hnow : d.Passes tones frames now mid) (hlater : mid.Passes (tones.filter (· ∉ now.reports)) more later last) :
    d.Passes tones (frames + more) ⟨now.samples ++ later.samples, now.reports ++ later.reports⟩ last := by
  refine ⟨?_, ?_, hlater.sampleRate.trans hnow.sampleRate, hlater.channels.trans hnow.channels,
    hlater.nextId.trans hnow.nextId, fun id hid => ?_, ?_, hlater.holds.congr fun id => ?_,
    hlater.stops.trans hnow.stops⟩
  · rw [List.length_append, hnow.samples, hlater.samples, hnow.channels, Nat.add_mul]
  · rw [hlater.frame, hnow.frame, Nat.add_assoc]
  · rcases List.mem_append.1 hid with hfirst | hid
    · exact hnow.reports_sub id hfirst
    · exact (List.mem_filter.1 (hlater.reports_sub id hid)).1
  · refine List.nodup_append.2 ⟨hnow.reports_nodup, hlater.reports_nodup, ?_⟩
    rintro id hfirst _ hid rfl
    have hgone := (List.mem_filter.1 (hlater.reports_sub id hid)).2
    exact of_decide_eq_true hgone hfirst
  · simp only [List.mem_filter, List.mem_append, decide_eq_true_eq, not_or, and_assoc]

namespace Holds
variable {d : OfflineDevice ℝ S} {tones : List ToneId}

/-- **Many blocks**. -/
theorem blocks (h : d.Holds tones) (sizes : List Nat) :
    d.Passes tones sizes.sum (d.blocks sizes).1 (d.blocks sizes).2 := by
  induction sizes generalizing d tones with
  | nil =>
    refine ⟨(Nat.zero_mul _).symm, rfl, rfl, rfl, rfl, nofun, .nil, h.congr fun id => ?_, subset_rfl⟩
    simp [OfflineDevice.blocks]
  | cons frames rest ih =>
    have hnow := h.block frames
    rw [List.sum_cons]
    exact hnow.trans (ih hnow.holds)

/-- **Sound up to a time**: no block is rendered if the time has passed. -/
theorem renderUntil (h : d.Holds tones) (time : ℝ) :
    d.Passes tones (frameAt d.sampleRate time - d.frame) (d.renderUntil time).value.1 (d.renderUntil time).value.2 := by
  have hblocks := h.blocks (blockSizes (frameAt d.sampleRate time - d.frame))
  rw [sum_blockSizes] at hblocks
  exact hblocks

omit [Amplitude S] [Sampling ℝ S] in
theorem finishTime? (h : d.Holds tones) (hsome : tones ≠ []) :
    ∃ latest, d.bank.finishTime? = some latest ∧ IsGreatest d.stops latest := by
  have hknown : ∀ e ∈ d.bank.voices.entries, ∃ stop, e.2.stop? = some stop := by
    intro e he
    obtain ⟨-, start, stop, -, hstop, -⟩ := h.waits e.1 e.2 (Roster.get?_eq_some_iff.2 he)
    exact ⟨stop, hstop⟩
  obtain ⟨id, hid⟩ := List.exists_mem_of_ne_nil _ hsome
  have hvoices : d.bank.voices.ids ≠ [] := List.ne_nil_of_mem ((h.mem_ids id).2 hid)
  exact finishTime?_of_known hknown fun hnil => hvoices (congrArg (List.map Prod.fst) hnil)

omit [Amplitude S] [Sampling ℝ S] in
theorem finishTime?_nil (h : d.Holds []) : d.bank.finishTime? = none := by
  have hnone : d.bank.voices.entries = [] := by
    refine List.eq_nil_iff_forall_not_mem.2 fun e he => ?_
    have hid : e.1 ∈ d.bank.voices.ids := List.mem_map_of_mem he
    exact List.not_mem_nil ((h.mem_ids e.1).1 hid)
  rw [ToneBank.finishTime?, hnone]
  rfl

/-- **Rendering to the end** plays exactly up to the last stop. Every tone is reported on the way, and none is left. -/
theorem render (h : d.Holds tones) (hsome : tones ≠ []) :
    ∃ latest, IsGreatest d.stops latest ∧
      d.Passes tones (⌈latest * d.sampleRate⌉₊ - d.frame) d.render.value.1 d.render.value.2 ∧
      ∀ id ∈ tones, id ∈ d.render.value.1.reports := by
  obtain ⟨latest, hfinish, hgreatest⟩ := h.finishTime? hsome
  have hrender : d.render = d.renderUntil latest := by
    unfold OfflineDevice.render
    rw [hfinish]
  have htime : d.time < latest := by
    obtain ⟨⟨id, v, hv, hstop⟩, -⟩ := hgreatest
    obtain ⟨-, -, stop, -, hstop', -, hahead⟩ := h.waits id v hv
    obtain rfl : stop = latest := Option.some.inj (hstop'.symm.trans hstop)
    exact hahead
  have hrate : (0 : ℝ) < d.sampleRate := Nat.cast_pos.2 d.sampleRate_pos
  have hpast : (0 : ℝ) ≤ d.time := by
    show (0 : ℝ) ≤ (d.frame : ℝ) / (d.sampleRate : ℝ)
    positivity
  have hframe : frameAt d.sampleRate latest = ⌈latest * d.sampleRate⌉₊ := by
    unfold frameAt
    rw [maxOf_eq, Nat.cast_zero, max_eq_left (hpast.trans htime.le)]
    rfl
  have hpasses := h.renderUntil latest
  rw [hframe, ← hrender] at hpasses
  refine ⟨latest, hgreatest, hpasses, ?_⟩
  -- whatever is left has a stop before the time that was reached
  have hover : latest ≤ d.render.value.2.time := by
    have hreach : latest * d.sampleRate ≤ ((d.render.value.2.frame : Nat) : ℝ) := by
      refine (Nat.le_ceil _).trans (Nat.cast_le.2 ?_)
      rw [hpasses.frame]
      omega
    show latest ≤ (d.render.value.2.frame : ℝ) / (d.render.value.2.sampleRate : ℝ)
    rwa [hpasses.sampleRate, le_div_iff₀ hrate]
  intro id hid
  by_contra hreport
  have hleft : id ∈ tones.filter (· ∉ d.render.value.1.reports) := List.mem_filter.2 ⟨hid, decide_eq_true hreport⟩
  obtain ⟨v, hv⟩ := Roster.mem_ids_iff.1 ((hpasses.holds.mem_ids id).2 hleft)
  obtain ⟨-, -, stop, -, hstop, -, hahead⟩ := hpasses.holds.waits id v hv
  have hbefore : stop ≤ latest := hgreatest.2 (hpasses.stops ⟨id, v, hv, hstop⟩)
  exact absurd hbefore (not_le.2 (hover.trans_lt hahead))

end Holds

end OfflineDevice

end MusicMacro
