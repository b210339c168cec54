import MusicMacro.Proofs.Device.Waiting

/-!
# What rendering to the end leaves

Rendering to the end goes up to the last of all stops, and every tone ends on the way. That takes a stop for every tone
and some time up to the last of them. Otherwise not a single frame is rendered, and since tones end with the frames
only, even those stay that should have stopped long before.

* `OfflineDevice.reports_blocks`, `get?_reports_blocks` : blocks run the reports of the tones that end in them, once;
* `ids_blocks_eq_nil` : blocks leave no tone if all of them stop in time;
* `OfflineDevice.Finishes` : all tones have a stop, and the last lies ahead;
* `render_of_finishes`, `render_of_not_finishes` : rendering to the end, in both cases;
* `tones_left_iff` : when a tone with a stop is left.
-/

namespace MusicMacro

theorem mapM_eq_none {α β : Type} {f : α → Option β} {as : List α} {a : α} (ha : a ∈ as) (h : f a = none) :
    as.mapM f = none := by
  induction as with
  | nil => cases ha
  | cons x rest ih =>
    rw [List.mapM_cons]
    rcases List.mem_cons.1 ha with rfl | ha
    · rw [h]
      rfl
    · rw [ih ha]
      cases f x <;> rfl

namespace OfflineDevice

/-! ## Reports -/

section Reports
variable {R S : Type} [Scalar R] [Amplitude S] [Sampling R S] (d : OfflineDevice R S)

theorem endings_cons (frames : Nat) (rest : List Nat) :
    d.endings (frames :: rest) = d.endings [frames] ++ (d.block frames).2.endings rest := by
  simp only [endings, List.append_nil]

theorem ids_blocks_perm (sizes : List Nat) :
    (d.endings sizes ++ (d.blocks sizes).2.bank.voices.ids).Perm d.bank.voices.ids := by
  obtain ⟨reported, reports, hblocks⟩ := d.blocks_eq sizes
  rw [endings_eq, hblocks]
  exact d.bank.ids_renderBlocks_perm ..

/-- What was to be reported for the tones that end is forgotten, and the rest is kept. -/
theorem get?_reports_blocks (sizes : List Nat) (id : ToneId) :
    (d.blocks sizes).2.reports.get? id = (d.reports.get? id).filter fun _ => decide (id ∉ d.endings sizes) := by
  induction sizes generalizing d with
  | nil =>
    show d.reports.get? id = _
    cases d.reports.get? id <;> rfl
  | cons frames rest ih =>
    show ((d.block frames).2.blocks rest).2.reports.get? id = _
    rw [ih, get?_reports_block, d.endings_cons frames rest, Option.filter_filter]
    simp only [List.mem_append, not_or, Bool.decide_and]

/-- Some blocks leave of a voice what one block for all their frames would leave. -/
theorem get?_voices_blocks [SteadyClock R] {sizes : List Nat} (hsizes : sizes ≠ []) (id : ToneId) :
    (d.blocks sizes).2.bank.voices.get? id =
      (d.bank.voices.get? id).bind
        (ToneBank.afterBlock (S := S) d.bank.waveform d.sampleRate d.frame sizes.sum) := by
  have hone := (d.bank.renderBlocks_agree (S := S) d.channels_pos d.sampleRate_pos d.frame hsizes).bank
  have hview := d.bank.get?_render (ToneBank.quiet d.channels sizes.sum : List S) d.channels d.frame d.sampleRate id
  rw [ToneBank.length_quiet, max_eq_left d.channels_pos, Nat.mul_div_cancel _ d.channels_pos] at hview
  obtain ⟨reported, reports, hblocks⟩ := d.blocks_eq sizes
  rw [hblocks, ← hview, ← hone]

/-- Where every voice stops by the end of some blocks, none is left. -/
theorem ids_blocks_eq_nil [SteadyClock R] {sizes : List Nat} (hsizes : sizes ≠ [])
    (hover : ∀ id, ∀ v ∈ d.bank.voices.get? id,
      v.stoppedBy (Scalar.frameTime d.sampleRate (d.frame + sizes.sum)) = true) :
    (d.blocks sizes).2.bank.voices.ids = [] := by
  refine List.eq_nil_iff_forall_not_mem.2 fun id hid => ?_
  obtain ⟨v, hv⟩ := Roster.mem_ids_iff.1 hid
  rw [d.get?_voices_blocks hsizes] at hv
  obtain ⟨old, hold, hafter⟩ := Option.bind_eq_some_iff.1 hv
  rw [ToneBank.afterBlock, if_pos ((old.stoppedBy_ticks ..).trans (hover id old hold))] at hafter
  cases hafter

/-- The tones that end in some blocks are reported, in the order in which they end. -/
theorem reports_blocks (sizes : List Nat) :
    (d.blocks sizes).1.reports = (d.endings sizes).filterMap d.reports.get? := by
  induction sizes generalizing d with
  | nil => rfl
  | cons frames rest ih =>
    have hnodup : (d.endings (frames :: rest)).Nodup :=
      (List.nodup_append.1 ((d.ids_blocks_perm (frames :: rest)).nodup_iff.2 (Roster.nodup_ids _))).1
    rw [endings_cons] at hnodup ⊢
    -- who ends later has not ended in the first block, and so the report is still there
    have hlater : ∀ id ∈ (d.block frames).2.endings rest, (d.block frames).2.reports.get? id = d.reports.get? id := by
      intro id hid
      have hnot : id ∉ d.endings [frames] := fun hfirst => (List.nodup_append.1 hnodup).2.2 id hfirst id hid rfl
      rw [get?_reports_block, decide_eq_true hnot]
      cases d.reports.get? id <;> rfl
    show (d.block frames).1.reports ++ ((d.block frames).2.blocks rest).1.reports = _
    rw [reports_block, ih, List.filterMap_append, List.filterMap_congr hlater]

end Reports

/-! ## Rendering to the end -/

section Finish
variable {S : Type}

/-- Every tone has a stop, and the last of the stops lies ahead. -/
def Finishes (d : OfflineDevice ℝ S) : Prop :=
  (∀ id, ∀ v ∈ d.bank.voices.get? id, v.stop?.isSome = true) ∧ ∃ stop ∈ d.stops, d.time < stop

variable [Amplitude S] [Sampling ℝ S] {d : OfflineDevice ℝ S}

omit [Amplitude S] [Sampling ℝ S] in
/-- The last of the stops is found if every tone has one; nothing is found if there are no tones or one of them has
none. -/
theorem finishTime?_cases (d : OfflineDevice ℝ S) :
    (∃ latest, d.bank.finishTime? = some latest ∧ IsGreatest d.stops latest ∧
      ∀ id, ∀ v ∈ d.bank.voices.get? id, v.stop?.isSome = true) ∨
    d.bank.finishTime? = none ∧ ¬ d.Finishes := by
  by_cases hknown : ∀ e ∈ d.bank.voices.entries, ∃ stop, e.2.stop? = some stop
  · by_cases hsome : d.bank.voices.entries = []
    · refine .inr ⟨by rw [ToneBank.finishTime?, hsome]; rfl, ?_⟩
      rintro ⟨-, stop, ⟨id, v, hv, -⟩, -⟩
      have hmem : (id, v) ∈ d.bank.voices.entries := Roster.get?_eq_some_iff.1 hv
      rw [hsome] at hmem
      cases hmem
    · obtain ⟨latest, hfinish, hgreatest⟩ := finishTime?_of_known hknown hsome
      exact .inl ⟨latest, hfinish, hgreatest, fun id v hv =>
        Option.isSome_iff_exists.2 (hknown (id, v) (Roster.get?_eq_some_iff.1 hv))⟩
  · push Not at hknown
    obtain ⟨e, he, hnone⟩ := hknown
    have hstop : e.2.stop? = none := Option.eq_none_iff_forall_ne_some.2 hnone
    refine .inr ⟨by rw [ToneBank.finishTime?, mapM_eq_none he hstop], fun hfinishes => ?_⟩
    have hisSome := hfinishes.1 e.1 e.2 (Roster.get?_eq_some_iff.2 he)
    rw [hstop] at hisSome
    cases hisSome

/-- **Nothing is rendered** without a last stop that lies ahead. -/
theorem render_of_not_finishes (h : ¬ d.Finishes) : d.render.value = (⟨[], []⟩, d) := by
  obtain ⟨latest, hfinish, hgreatest, hknown⟩ | ⟨hnone, -⟩ := d.finishTime?_cases
  · have hpast : latest ≤ d.time := not_lt.1 fun hahead => h ⟨hknown, latest, hgreatest.1, hahead⟩
    have hframe : frameAt d.sampleRate latest ≤ d.frame := (frameAt_le_iff d.sampleRate_pos latest d.frame).2 hpast
    have hsizes : blockSizes (frameAt d.sampleRate latest - d.frame) = [] := by
      rw [Nat.sub_eq_zero_of_le hframe]
      rfl
    rw [render, hfinish]
    show (d.renderUntil latest).value = _
    rw [value_renderUntil, hsizes]
    rfl
  · rw [render, hnone]
    rfl

/-- **Every tone ends** on the way to a last stop that lies ahead, and its report is run. -/
theorem render_of_finishes (h : d.Finishes) :
    d.render.value.2.bank.voices.ids = [] ∧
      d.render.value.1.reports.Perm (d.bank.voices.ids.filterMap d.reports.get?) ∧
      ∀ id ∈ d.bank.voices.ids, d.render.value.2.reports.get? id = none := by
  obtain ⟨latest, hfinish, hgreatest, hknown⟩ | ⟨-, hnot⟩ := d.finishTime?_cases
  swap
  · exact absurd h hnot
  obtain ⟨-, stop, hstop, hahead⟩ := h
  have hframe : d.frame < frameAt d.sampleRate latest :=
    lt_of_not_ge fun hle => absurd ((frameAt_le_iff d.sampleRate_pos latest d.frame).1 hle)
      (not_le.2 (hahead.trans_le (hgreatest.2 hstop)))
  let sizes := blockSizes (frameAt d.sampleRate latest - d.frame)
  have hrender : d.render.value = d.blocks sizes := by
    rw [render, hfinish]
    rfl
  have hsum : sizes.sum = frameAt d.sampleRate latest - d.frame := sum_blockSizes _
  have hsizes : sizes ≠ [] := fun hnil => by
    rw [hnil, List.sum_nil] at hsum
    omega
  have hnone : (d.blocks sizes).2.bank.voices.ids = [] := by
    refine d.ids_blocks_eq_nil hsizes fun id v hv => ?_
    obtain ⟨last, hlast⟩ := Option.isSome_iff_exists.1 (hknown id v hv)
    have hover : last ≤ Scalar.frameTime d.sampleRate (d.frame + sizes.sum) :=
      (hgreatest.2 ⟨id, v, hv, hlast⟩).trans ((frameAt_le_iff d.sampleRate_pos latest _).1 (by omega))
    simpa [Voice.stoppedBy, hlast] using hover
  have hended : (d.endings sizes).Perm d.bank.voices.ids := by
    have hperm := d.ids_blocks_perm sizes
    rwa [hnone, List.append_nil] at hperm
  rw [hrender, reports_blocks]
  refine ⟨hnone, hended.filterMap _, fun id hid => ?_⟩
  have hmem : id ∈ d.endings sizes := hended.mem_iff.2 hid
  rw [get?_reports_blocks, decide_eq_false (not_not.2 hmem)]
  cases d.reports.get? id <;> rfl

omit [Amplitude S] [Sampling ℝ S] in
theorem stops_eq_empty_iff : d.stops = ∅ ↔ ∀ id, ∀ v ∈ d.bank.voices.get? id, v.stop? = none := by
  rw [Set.eq_empty_iff_forall_notMem]
  constructor
  · exact fun hempty id v hv => Option.eq_none_iff_forall_ne_some.2 fun stop hstop => hempty stop ⟨id, v, hv, hstop⟩
  · rintro hnone stop ⟨id, v, hv, hstop⟩
    rw [hnone id v hv] at hstop
    cases hstop

/-- **When a tone is left though it has a stop.** None is left by rendering to the end if and only if there was none to
begin with, or every tone has a stop and the last of the stops lies ahead. In that case all tones end, and what was to
be reported of each is reported once; otherwise nothing happens. Times are real numbers here, so nothing is rounded. -/
theorem tones_left_iff (d : OfflineDevice ℝ S) :
    ((∀ id, ∀ v ∈ d.render.value.2.bank.voices.get? id, v.stop? = none) ↔ d.stops = ∅ ∨ d.Finishes) ∧
    (d.Finishes →
      d.render.value.2.bank.voices.ids = [] ∧
        d.render.value.1.reports.Perm (d.bank.voices.ids.filterMap d.reports.get?) ∧
        ∀ id ∈ d.bank.voices.ids, d.render.value.2.reports.get? id = none) ∧
    (¬ d.Finishes → d.render.value = (⟨[], []⟩, d)) := by
  refine ⟨?_, render_of_finishes, render_of_not_finishes⟩
  by_cases h : d.Finishes
  · obtain ⟨hnone, -, -⟩ := render_of_finishes h
    refine iff_of_true (fun id v hv => ?_) (.inr h)
    have hid := Roster.mem_ids_iff.2 ⟨v, hv⟩
    rw [hnone] at hid
    cases hid
  · rw [render_of_not_finishes h, stops_eq_empty_iff]
    exact (or_iff_left h).symm

end Finish

/-- A tone that stops at the very frame that was reached stays, and so does a tone with a stop ahead beside one that has
none. Neither is reported. By itself the second one ends, and it is reported. -/
theorem tones_left_late :
    let started := ((fresh .square 1000 1 : OfflineDevice ℝ ℝ).create 100).2.submit (.start 0 0)
    let past := (started.submit (.stop 0 0)).submit (.onEnded 0 0)
    let alone := (started.submit (.stop 0 (1 / 100))).submit (.onEnded 0 0)
    let beside := (alone.create 100).2
    (0 ∈ past.render.value.2.bank.voices.ids ∧ past.render.value.1.reports = []) ∧
      (0 ∈ beside.render.value.2.bank.voices.ids ∧ beside.render.value.1.reports = []) ∧
      alone.render.value.2.bank.voices.ids = [] ∧ alone.render.value.1.reports = [0] := by
  intro started past alone beside
  -- no frame has passed, and there is just the one voice
  have hnow : (0 : ℝ) = ((0 : Nat) : ℝ) / ((1000 : Nat) : ℝ) := by rw [Nat.cast_zero, zero_div]
  have hone : ∀ {last : ℝ} {id : ToneId} {v : Voice ℝ},
      v ∈ (started.submit (.stop 0 last)).bank.voices.get? id → v.stop? = some last := by
    intro last id v hv
    have hmem : (id, v) ∈ [((0 : ToneId), { Voice.silent (100 : ℝ) with start? := some 0, stop? := some last })] :=
      Roster.get?_eq_some_iff.1 hv
    rw [List.mem_singleton] at hmem
    cases hmem
    rfl
  have hpast : ¬ past.Finishes := by
    rintro ⟨-, stop, ⟨id, v, hv, hstop⟩, hahead⟩
    obtain rfl : 0 = stop := Option.some.inj ((hone hv).symm.trans hstop)
    exact absurd hahead (not_lt.2 hnow.le)
  have hbeside : ¬ beside.Finishes := by
    rintro ⟨hknown, -⟩
    exact absurd (hknown 1 (.silent 100) rfl) nofun
  have halone : alone.Finishes := by
    refine ⟨fun id v hv => Option.isSome_iff_exists.2 ⟨_, hone hv⟩, 1 / 100, ⟨0, _, rfl, rfl⟩, ?_⟩
    exact hnow.ge.trans_lt (by norm_num)
  obtain ⟨hnone, hreports, -⟩ := render_of_finishes halone
  rw [render_of_not_finishes hpast, render_of_not_finishes hbeside]
  exact ⟨⟨by decide, rfl⟩, ⟨by decide, rfl⟩, hnone, List.perm_singleton.1 hreports⟩

end OfflineDevice
end MusicMacro
