import MusicMacro.Proofs.Device.Settled
import MusicMacro.Proofs.Sound.Asleep

/-!
# When commands are delivered

The commands for a tone reach the audio thread in parts, some before one buffer and some before another. Nobody hears
where they were cut, as long as a tone is complete by the first buffer that reaches its start.

* `TonePlan` : what is sent for a tone; `Realizes` : a stream that holds the commands of planned tones and no others;
* `AudioThread.serve` : buffers filled one after the other, with the commands that are delivered before each of them;
* `InTime` : every tone is complete before the first buffer that reaches its start is filled;
* `Abreast` : where two threads are that were served the same stream in different parts, and `Abreast.serve` for one
  buffer after the other;
* `serve_eq_of_inTime` : every buffer sounds the same, and the same tones end in it.
-/

namespace MusicMacro

/-! ## Streams of commands -/

/-- What is sent for a tone. -/
structure TonePlan where
  frequency : ℝ
  /-- Times and gains. -/
  gains : List (ℝ × ℝ)
  start : ℝ
  stop : ℝ
  start_lt_stop : start < stop

noncomputable def TonePlan.requests (p : TonePlan) : List (ToneRequest ℝ) :=
  .create p.frequency :: p.gains.map (fun g => .gain g.1 g.2) ++ [.start p.start, .stop p.stop]

/-- The requests that a plan has for a tone; there are none for a tone that is not planned. -/
noncomputable def planned (plans : ToneId → Option TonePlan) (id : ToneId) : List (ToneRequest ℝ) :=
  (plans id).elim [] TonePlan.requests

section Commands
variable {R S : Type}

def AudioCommand.requestFor? (id : ToneId) : AudioCommand R S → Option (ToneRequest R)
  | .tone other request => if other = id then some request else none
  | .volume _ => none

def requestsFor (id : ToneId) (commands : List (AudioCommand R S)) : List (ToneRequest R) :=
  commands.filterMap (AudioCommand.requestFor? id)

theorem requestsFor_append (id : ToneId) (first second : List (AudioCommand R S)) :
    requestsFor id (first ++ second) = requestsFor id first ++ requestsFor id second := List.filterMap_append

variable [Scalar R]

theorem get?_foldl_voice (commands : List (AudioCommand R S)) (b : ToneBank R) (id : ToneId) :
    (commands.foldl AudioCommand.voice b).voices.get? id =
      (requestsFor id commands).foldl (fun v? request => request.act v?) (b.voices.get? id) := by
  induction commands generalizing b with
  | nil => rfl
  | cons command rest ih =>
    rw [List.foldl_cons, ih]
    cases command with
    | volume value => rfl
    | tone tone request =>
      simp only [AudioCommand.voice, ToneBank.get?_apply, requestsFor, List.filterMap_cons, AudioCommand.requestFor?]
      by_cases h : tone = id
      · rw [if_pos h, if_pos h.symm]
        rfl
      · rw [if_neg h, if_neg (Ne.symm h)]

theorem waveform_foldl_voice (commands : List (AudioCommand R S)) (b : ToneBank R) :
    (commands.foldl AudioCommand.voice b).waveform = b.waveform := by
  induction commands generalizing b with
  | nil => rfl
  | cons command rest ih =>
    rw [List.foldl_cons, ih]
    cases command <;> rfl

end Commands

section Threads
variable {S : Type}

/-- A stream with the commands of planned tones, in any mixture, and no others. -/
structure Realizes (plans : ToneId → Option TonePlan) (stream : List (AudioCommand ℝ S)) : Prop where
  tones : ∀ command ∈ stream, command.tone?.isSome = true
  requests : ∀ id, requestsFor id stream = planned plans id

/-- All commands of the tones that start by a time were sent. -/
def DueBy (plans : ToneId → Option TonePlan) (time : ℝ) (sent : List (AudioCommand ℝ S)) : Prop :=
  ∀ id plan, plans id = some plan → plan.start ≤ time → requestsFor id sent = plan.requests

/-- Before any buffer is filled whose end reaches the start of a tone, all commands for that tone were sent. Given are
the frame at which the first buffer begins, the commands sent so far, those that come before each buffer, and the
buffers. -/
def InTime (plans : ToneId → Option TonePlan) (rate channels : Nat) :
    Nat → List (AudioCommand ℝ S) → List (List (AudioCommand ℝ S)) → List (List S) → Prop
  | _, _, _, [] => True
  | frame, sent, parts, buffer :: rest =>
    let reached := frame + buffer.length / max channels 1
    let sent := sent ++ parts.headD []
    DueBy plans (Scalar.frameTime rate reached) sent ∧ InTime plans rate channels reached sent parts.tail rest

namespace AudioThread
variable [Amplitude S] [Sampling ℝ S]

/-- Sends commands one after the other; none of them may be refused. -/
def pushEach? (t : AudioThread ℝ S) : List (AudioCommand ℝ S) → Option (AudioThread ℝ S)
  | [] => some t
  | command :: rest => (t.push? command).bind fun next => next.pushEach? rest

/-- Fills buffers one after the other, with the commands that are sent before each of them: the samples of every buffer,
and the tones that end in it. -/
noncomputable def serve (t : AudioThread ℝ S) :
    List (List (AudioCommand ℝ S)) → List (List S) → Option (List (List S × List ToneId))
  | _, [] => some []
  | parts, buffer :: rest => do
    let ready ← t.pushEach? (parts.headD [])
    let later ← (ready.fill buffer).2.serve parts.tail rest
    return ((ready.fill buffer).1, ready.endings buffer) :: later

/-! ## One buffer -/

omit [Amplitude S] [Sampling ℝ S] in
theorem exists_pushEach? (t : AudioThread ℝ S) {commands : List (AudioCommand ℝ S)}
    (h : commands.length ≤ t.commands.room) :
    ∃ queue, t.pushEach? commands = some { t with commands := queue } ∧
      queue.toList = t.commands.toList ++ commands ∧ queue.capacity = t.commands.capacity := by
  induction commands generalizing t with
  | nil => exact ⟨t.commands, rfl, (List.append_nil _).symm, rfl⟩
  | cons command rest ih =>
    rw [List.length_cons] at h
    obtain ⟨next, hpush, hroom⟩ := Queue.exists_push? (show 0 < t.commands.room by omega) command
    have hrest : rest.length ≤ next.room := by omega
    obtain ⟨queue, hqueue, hlist, hcapacity⟩ := ih { t with commands := next } hrest
    refine ⟨queue, ?_, ?_, hcapacity.trans (Queue.capacity_of_push? hpush)⟩
    · have hfirst : t.push? command = some { t with commands := next } := by rw [push?, hpush]; rfl
      rw [pushEach?, hfirst]
      exact hqueue
    · rw [hlist]
      show next.toList ++ rest = _
      rw [Queue.toList_of_push? hpush, List.append_assoc]
      rfl

omit [Sampling ℝ S] in
theorem foldl_onMaster_eq {commands : List (AudioCommand ℝ S)} (h : ∀ command ∈ commands, command.tone?.isSome = true)
    (m : MasterBus S) : commands.foldl AudioCommand.onMaster m = m := by
  induction commands with
  | nil => rfl
  | cons command rest ih =>
    obtain ⟨hfirst, hrest⟩ := List.forall_mem_cons.1 h
    cases command with
    | tone id request => exact ih hrest
    | volume value => cases hfirst

theorem fill_of_pushEach? {t : AudioThread ℝ S} (hidle : t.commands = .empty t.commands.capacity)
    {part : List (AudioCommand ℝ S)} (hfits : part.length ≤ t.commands.capacity)
    (htones : ∀ command ∈ part, command.tone?.isSome = true) (buffer : List S) :
    let sound := (part.foldl AudioCommand.voice t.bank).render (silenced buffer) t.channels t.clock t.sampleRate
    ∃ ready ended unreported, t.pushEach? part = some ready ∧ (ready.fill buffer).1 = t.master.processBlock sound.1 ∧
      ready.endings buffer = sound.2.1 ∧
      (ready.fill buffer).2 =
        { t with bank := sound.2.2, clock := t.clock + buffer.length / max t.channels 1, ended, unreported } := by
  intro sound
  have hroom : part.length ≤ t.commands.room := by
    rw [hidle]
    exact hfits
  obtain ⟨queue, hpush, hlist, hcapacity⟩ := t.exists_pushEach? hroom
  rw [show t.commands.toList = [] by rw [hidle]; rfl, List.nil_append] at hlist
  let ready : AudioThread ℝ S := { t with commands := queue }
  have hdrain : ready.drain = { t with bank := part.foldl AudioCommand.voice t.bank } := by
    obtain ⟨bank, master, hcases⟩ := ready.drain_cases
    have hbank : ready.drain.bank = part.foldl AudioCommand.voice t.bank := by
      rw [bank_drain, settled, hlist]
    have hmaster : ready.drain.master = t.master := by
      rw [master_drain, settledMaster, hlist]
      exact foldl_onMaster_eq htones t.master
    rw [hcases] at hbank hmaster ⊢
    obtain rfl : bank = part.foldl AudioCommand.voice t.bank := hbank
    obtain rfl : master = t.master := hmaster
    show { t with commands := .empty queue.capacity, bank := _ } = { t with bank := _ }
    rw [hcapacity, ← hidle]
  refine ⟨ready, (ready.fill buffer).2.ended, (ready.fill buffer).2.unreported, hpush, ?_, ?_, ?_⟩
  · show (ready.drain.play buffer).1 = _
    rw [hdrain]
    rfl
  · unfold endings
    rw [hdrain]
  · unfold fill
    rw [hdrain]
    rfl

end AudioThread

/-! ## Two threads -/

noncomputable def voiceBy (requests : List (ToneRequest ℝ)) : Option (Voice ℝ) :=
  requests.foldl (fun v? request => request.act v?) none

theorem start?_addPoint (v : Voice ℝ) (time value : ℝ) : (v.addPoint time value).start? = v.start? := by
  unfold Voice.addPoint
  split <;> rfl

namespace Voice
variable {plan : TonePlan}

/-- A voice that starts and stops when its plan says so, or does not know yet when. -/
def KeepsTo (plan : TonePlan) (v : Voice ℝ) : Prop :=
  (∀ t ∈ v.start?, t = plan.start) ∧ ∀ t ∈ v.stop?, t = plan.stop

theorem KeepsTo.act {v? : Option (Voice ℝ)} (h : ∀ v ∈ v?, v.KeepsTo plan) {request : ToneRequest ℝ}
    (hrequest : request ∈ plan.requests) : ∀ v ∈ request.act v?, v.KeepsTo plan := by
  intro v hact
  cases request with
  | create frequency =>
    cases hact
    exact ⟨nofun, nofun⟩
  | gain t value =>
    obtain ⟨u, hu, rfl⟩ := Option.map_eq_some_iff.1 hact
    rw [KeepsTo, start?_addPoint, ToneBank.stop?_addPoint]
    exact h u hu
  | start t =>
    obtain ⟨u, hu, rfl⟩ := Option.map_eq_some_iff.1 hact
    have ht : t = plan.start := by simpa [TonePlan.requests] using hrequest
    exact ⟨fun s hs => (Option.some.inj hs).symm.trans ht, (h u hu).2⟩
  | stop t =>
    obtain ⟨u, hu, rfl⟩ := Option.map_eq_some_iff.1 hact
    have ht : t = plan.stop := by simpa [TonePlan.requests] using hrequest
    exact ⟨(h u hu).1, fun s hs => (Option.some.inj hs).symm.trans ht⟩
  | release => cases hact

/-- Whatever part of its requests a voice has got, it keeps to the plan. -/
theorem keepsTo_voiceBy {requests : List (ToneRequest ℝ)} (h : ∀ r ∈ requests, r ∈ plan.requests) :
    ∀ v ∈ voiceBy requests, v.KeepsTo plan := by
  have hall : ∀ v? : Option (Voice ℝ), (∀ v ∈ v?, v.KeepsTo plan) →
      ∀ v ∈ requests.foldl (fun v? request => request.act v?) v?, v.KeepsTo plan := by
    induction requests with
    | nil => exact fun _ h => h
    | cons request rest ih =>
      obtain ⟨hfirst, hrest⟩ := List.forall_mem_cons.1 h
      exact fun v? hv => ih hrest (request.act v?) (KeepsTo.act hv hfirst)
  exact hall none nofun

theorem KeepsTo.asleep {v : Voice ℝ} (h : v.KeepsTo plan) {time : ℝ} (hlate : ¬ plan.start ≤ time) :
    v.AsleepUntil time := by
  obtain ⟨hstart, hstop⟩ := h
  constructor
  · intro t ht
    cases hs : v.start? with
    | none => simp [soundsAt, hs]
    | some s =>
      have hlater : ¬ s ≤ t := fun hle => hlate ((hstart s hs).symm.trans_le (hle.trans ht))
      simp [soundsAt, hs, hlater]
  · cases hs : v.stop? with
    | none => simp [stoppedBy, hs]
    | some s =>
      have hlater : ¬ s ≤ time := fun hle =>
        hlate (plan.start_lt_stop.le.trans ((hstop s hs).symm.trans_le hle))
      simp [stoppedBy, hs, hlater]

end Voice

/-- The banks of two threads that were sent parts of one stream: a tone has the same voice in both once it is complete,
and otherwise what its requests so far have made. -/
structure Matched (plans : ToneId → Option TonePlan) (sent sent' : List (AudioCommand ℝ S)) (a b : ToneBank ℝ) :
    Prop where
  waveform : a.waveform = b.waveform
  voices : ∀ id,
    (requestsFor id sent = planned plans id ∧ requestsFor id sent' = planned plans id ∧
      a.voices.get? id = b.voices.get? id) ∨
    (a.voices.get? id = voiceBy (requestsFor id sent) ∧ b.voices.get? id = voiceBy (requestsFor id sent'))

theorem Realizes.isPart {plans : ToneId → Option TonePlan} {sent later : List (AudioCommand ℝ S)}
    (h : Realizes plans (sent ++ later)) (id : ToneId) : requestsFor id sent <+: planned plans id :=
  ⟨requestsFor id later, by rw [← requestsFor_append, h.requests]⟩

namespace Matched
variable {plans : ToneId → Option TonePlan} {sent sent' : List (AudioCommand ℝ S)} {a b : ToneBank ℝ}

/-- A tone that is complete gets no more commands, and the others get what is sent to them. -/
theorem deliver (h : Matched plans sent sent' a b) {part part' later later' : List (AudioCommand ℝ S)}
    (hstream : Realizes plans (sent ++ part ++ later)) (hstream' : Realizes plans (sent' ++ part' ++ later')) :
    Matched plans (sent ++ part) (sent' ++ part') (part.foldl AudioCommand.voice a)
      (part'.foldl AudioCommand.voice b) := by
  have hcomplete : ∀ {sent part later : List (AudioCommand ℝ S)}, Realizes plans (sent ++ part ++ later) →
      ∀ {id}, requestsFor id sent = planned plans id → requestsFor id part = [] := by
    intro sent part later hstream id hsent
    have hle := (hstream.isPart id).length_le
    rw [requestsFor_append, hsent, List.length_append] at hle
    exact List.length_eq_zero_iff.1 (by omega)
  -- the voice of a complete tone may have been played already, so it is not told again what made it
  refine ⟨by rw [waveform_foldl_voice, waveform_foldl_voice, h.waveform], fun id => ?_⟩
  rw [get?_foldl_voice, get?_foldl_voice, requestsFor_append, requestsFor_append]
  obtain ⟨hsent, hsent', hsame⟩ | ⟨ha, hb⟩ := h.voices id
  · rw [hcomplete hstream hsent, hcomplete hstream' hsent', List.append_nil, List.append_nil]
    exact .inl ⟨hsent, hsent', hsame⟩
  · refine .inr ⟨?_, ?_⟩
    · rw [ha, voiceBy, voiceBy, List.foldl_append]
    · rw [hb, voiceBy, voiceBy, List.foldl_append]

theorem asleep_or_eq (h : Matched plans sent sent' a b) {later later' : List (AudioCommand ℝ S)}
    (hstream : Realizes plans (sent ++ later)) (hstream' : Realizes plans (sent' ++ later')) {time : ℝ}
    (hdue : DueBy plans time sent) (hdue' : DueBy plans time sent') (id : ToneId) :
    (requestsFor id sent = planned plans id ∧ requestsFor id sent' = planned plans id ∧
      a.voices.get? id = b.voices.get? id) ∨
    (a.voices.get? id = voiceBy (requestsFor id sent) ∧ b.voices.get? id = voiceBy (requestsFor id sent')) ∧
      (∀ v ∈ a.voices.get? id, v.AsleepUntil time) ∧ ∀ v ∈ b.voices.get? id, v.AsleepUntil time := by
  obtain hsame | ⟨ha, hb⟩ := h.voices id
  · exact .inl hsame
  · have hpart := hstream.isPart id
    have hpart' := hstream'.isPart id
    cases hplan : plans id with
    | none =>
      have hnone : planned plans id = [] := by rw [planned, hplan]; rfl
      rw [hnone] at hpart hpart'
      rw [List.prefix_nil.1 hpart, List.prefix_nil.1 hpart', hnone]
      exact .inl ⟨rfl, rfl, by rw [ha, hb, List.prefix_nil.1 hpart, List.prefix_nil.1 hpart']⟩
    | some plan =>
      have hsome : planned plans id = plan.requests := by rw [planned, hplan]; rfl
      rw [hsome] at hpart hpart' ⊢
      by_cases hstart : plan.start ≤ time
      · have hall := hdue id plan hplan hstart
        have hall' := hdue' id plan hplan hstart
        exact .inl ⟨hall, hall', by rw [ha, hb, hall, hall']⟩
      · refine .inr ⟨⟨ha, hb⟩, ?_, ?_⟩
        · rw [ha]
          exact fun v hv => (Voice.keepsTo_voiceBy (fun r hr => hpart.subset hr) v hv).asleep hstart
        · rw [hb]
          exact fun v hv => (Voice.keepsTo_voiceBy (fun r hr => hpart'.subset hr) v hv).asleep hstart

variable [Amplitude S] [Sampling ℝ S]

/-- **One block** sounds the same and ends the same tones, and the banks stay matched. -/
theorem render (h : Matched plans sent sent' a b) {later later' : List (AudioCommand ℝ S)}
    (hstream : Realizes plans (sent ++ later)) (hstream' : Realizes plans (sent' ++ later')) {buffer : List S}
    {channels n rate : Nat} (hrate : 0 < rate)
    (hdue : DueBy plans (Scalar.frameTime rate (n + buffer.length / max channels 1)) sent)
    (hdue' : DueBy plans (Scalar.frameTime rate (n + buffer.length / max channels 1)) sent') :
    (a.render buffer channels n rate).1 = (b.render buffer channels n rate).1 ∧
      (a.render buffer channels n rate).2.1 = (b.render buffer channels n rate).2.1 ∧
      Matched plans sent sent' (a.render buffer channels n rate).2.2 (b.render buffer channels n rate).2.2 := by
  have hcases := h.asleep_or_eq hstream hstream' hdue hdue'
  have halike : ToneBank.AlikeUntil (Scalar.frameTime rate (n + buffer.length / max channels 1)) a b :=
    ⟨h.waveform, fun id => (hcases id).imp (fun hsame => hsame.2.2) And.right⟩
  obtain ⟨hsamples, hended⟩ := halike.render_eq hrate
  have hwaveform : ∀ c : ToneBank ℝ, (c.render buffer channels n rate).2.2.waveform = c.waveform :=
    fun c => c.waveform_mix _ _ _ _ buffer
  refine ⟨hsamples, hended, by rw [hwaveform, hwaveform, h.waveform], fun id => ?_⟩
  obtain ⟨hsent, hsent', hsame⟩ | ⟨⟨ha, hb⟩, hasleep, hasleep'⟩ := hcases id
  · refine .inl ⟨hsent, hsent', ?_⟩
    rw [ToneBank.get?_render, ToneBank.get?_render, hsame, h.waveform]
  · rw [ToneBank.get?_render_of_asleep hrate hasleep, ToneBank.get?_render_of_asleep hrate hasleep']
    exact .inr ⟨ha, hb⟩

end Matched

/-! ## One buffer after the other -/

variable [Amplitude S] [Sampling ℝ S]

/-- Where two threads are that were served the same stream in different parts: they differ in the tones that are not
complete, and in what was reported. -/
structure Abreast (plans : ToneId → Option TonePlan) (sent sent' : List (AudioCommand ℝ S))
    (t t' : AudioThread ℝ S) : Prop where
  idle : t.commands = .empty t.commands.capacity
  alike : t' = { t with bank := t'.bank, ended := t'.ended, unreported := t'.unreported }
  banks : Matched plans sent sent' t.bank t'.bank

namespace Abreast
variable {plans : ToneId → Option TonePlan} {sent sent' : List (AudioCommand ℝ S)} {t t' : AudioThread ℝ S}

/-- **One buffer**, with the commands that come before it. -/
theorem buffer (h : Abreast plans sent sent' t t') (hrate : 0 < t.sampleRate)
    {part part' later later' : List (AudioCommand ℝ S)} (hstream : Realizes plans (sent ++ part ++ later))
    (hstream' : Realizes plans (sent' ++ part' ++ later')) (hfits : part.length ≤ t.commands.capacity)
    (hfits' : part'.length ≤ t.commands.capacity) {buffer : List S}
    (hdue : DueBy plans (Scalar.frameTime t.sampleRate (t.clock + buffer.length / max t.channels 1)) (sent ++ part))
    (hdue' : DueBy plans (Scalar.frameTime t.sampleRate (t.clock + buffer.length / max t.channels 1))
      (sent' ++ part')) :
    ∃ ready ready' bank ended unreported, t.pushEach? part = some ready ∧ t'.pushEach? part' = some ready' ∧
      (ready.fill buffer).1 = (ready'.fill buffer).1 ∧ ready.endings buffer = ready'.endings buffer ∧
      Abreast plans (sent ++ part) (sent' ++ part') (ready.fill buffer).2 (ready'.fill buffer).2 ∧
      (ready.fill buffer).2 =
        { t with bank, clock := t.clock + buffer.length / max t.channels 1, ended, unreported } := by
  have htones : ∀ command ∈ part, command.tone?.isSome = true := fun command hmem =>
    hstream.tones command (List.mem_append_left _ (List.mem_append_right _ hmem))
  have htones' : ∀ command ∈ part', command.tone?.isSome = true := fun command hmem =>
    hstream'.tones command (List.mem_append_left _ (List.mem_append_right _ hmem))
  obtain ⟨idle, alike, banks⟩ := h
  -- the second thread is the first one but for its bank and its reports
  generalize t'.bank = bank' at alike banks
  generalize t'.ended = ended' at alike
  generalize t'.unreported = unreported' at alike
  subst alike
  obtain ⟨ready, ended, unreported, hpush, hsamples, hendings, hnext⟩ :=
    t.fill_of_pushEach? idle hfits htones buffer
  obtain ⟨ready', ended', unreported', hpush', hsamples', hendings', hnext'⟩ :=
    AudioThread.fill_of_pushEach? (t := { t with bank := bank', ended := ended', unreported := unreported' })
      idle hfits' htones' buffer
  rw [← AudioThread.length_silenced buffer] at hdue hdue'
  obtain ⟨hmixed, hended, hmatched⟩ := (banks.deliver hstream hstream').render hstream hstream' hrate hdue hdue'
  refine ⟨ready, ready', _, ended, unreported, hpush, hpush', ?_, ?_, ?_, hnext⟩
  · rw [hsamples, hsamples', hmixed]
  · rw [hendings, hendings', hended]
  · rw [hnext, hnext']
    exact ⟨idle, rfl, hmatched⟩

/-- **All buffers**, one after the other. -/
theorem serve (h : Abreast plans sent sent' t t') (hrate : 0 < t.sampleRate)
    {parts parts' : List (List (AudioCommand ℝ S))} {buffers : List (List S)}
    (hstream : Realizes plans (sent ++ parts.flatten)) (hstream' : Realizes plans (sent' ++ parts'.flatten))
    (hfits : ∀ part ∈ parts, part.length ≤ t.commands.capacity)
    (hfits' : ∀ part ∈ parts', part.length ≤ t.commands.capacity)
    (htime : InTime plans t.sampleRate t.channels t.clock sent parts buffers)
    (htime' : InTime plans t.sampleRate t.channels t.clock sent' parts' buffers) :
    ∃ heard, t.serve parts buffers = some heard ∧ t'.serve parts' buffers = some heard := by
  induction buffers generalizing t t' sent sent' parts parts' with
  | nil => exact ⟨[], rfl, rfl⟩
  | cons buffer rest ih =>
    have hcut : ∀ parts : List (List (AudioCommand ℝ S)), parts.flatten = parts.headD [] ++ parts.tail.flatten := by
      rintro (_ | _) <;> rfl
    have hhead : ∀ {parts : List (List (AudioCommand ℝ S))}, (∀ part ∈ parts, part.length ≤ t.commands.capacity) →
        (parts.headD []).length ≤ t.commands.capacity := by
      rintro (_ | ⟨part, later⟩) hall
      · exact Nat.zero_le _
      · exact hall part List.mem_cons_self
    rw [hcut, ← List.append_assoc] at hstream hstream'
    obtain ⟨hdue, hlater⟩ := htime
    obtain ⟨hdue', hlater'⟩ := htime'
    obtain ⟨ready, ready', bank, ended, unreported, hpush, hpush', hsamples, hendings, hnext, hstate⟩ :=
      h.buffer hrate hstream hstream' (hhead hfits) (hhead hfits') hdue hdue'
    obtain ⟨heard, hheard, hheard'⟩ := ih hnext (by rw [hstate]; exact hrate) hstream hstream'
      (fun part hpart => by rw [hstate]; exact hfits part (List.mem_of_mem_tail hpart))
      (fun part hpart => by rw [hstate]; exact hfits' part (List.mem_of_mem_tail hpart))
      (by rw [hstate]; exact hlater) (by rw [hstate]; exact hlater')
    refine ⟨((ready.fill buffer).1, ready.endings buffer) :: heard, ?_, ?_⟩
    · rw [AudioThread.serve, hpush]
      simp only [Option.bind_eq_bind, Option.bind_some, hheard, Option.pure_def]
    · rw [AudioThread.serve, hpush']
      simp only [Option.bind_eq_bind, Option.bind_some, hheard', Option.pure_def, hsamples, hendings]

end Abreast

/-- **Where a stream is cut is not heard.** A thread is served a stream of planned tones in two ways. If every tone is
complete in both before the first buffer is filled that reaches its start, then every buffer has the same samples in
both, and the same tones end in it. -/
theorem serve_eq_of_inTime (w : Waveform) (master : MasterBus S) (channels commands ended clock : Nat) {rate : Nat}
    (hrate : 0 < rate) {plans : ToneId → Option TonePlan} {stream : List (AudioCommand ℝ S)}
    (hstream : Realizes plans stream) {parts parts' : List (List (AudioCommand ℝ S))} {buffers : List (List S)}
    (hparts : parts.flatten = stream) (hparts' : parts'.flatten = stream)
    (hfits : ∀ part ∈ parts, part.length ≤ commands) (hfits' : ∀ part ∈ parts', part.length ≤ commands)
    (htime : InTime plans rate channels clock [] parts buffers)
    (htime' : InTime plans rate channels clock [] parts' buffers) :
    ∃ heard, (AudioThread.fresh w master channels rate commands ended clock).serve parts buffers = some heard ∧
      (AudioThread.fresh w master channels rate commands ended clock).serve parts' buffers = some heard := by
  have hstart : Abreast plans ([] : List (AudioCommand ℝ S)) []
      (AudioThread.fresh w master channels rate commands ended clock)
      (AudioThread.fresh w master channels rate commands ended clock) :=
    ⟨rfl, rfl, rfl, fun _ => .inr ⟨rfl, rfl⟩⟩
  exact hstart.serve hrate (hparts.symm ▸ hstream) (hparts'.symm ▸ hstream) hfits hfits' htime htime'

end Threads

section Interleaved

/-- A tone that gets loud from its start to its stop. -/
noncomputable def swell (frequency start stop : Nat) (h : start < stop) : TonePlan :=
  ⟨frequency, [(start, 0), (stop, 1)], start, stop, Nat.cast_lt.2 h⟩

/-- Two tones of two seconds, the first from the second and the other from the third second on. -/
noncomputable def duet : ToneId → Option TonePlan
  | 0 => some (swell 1 2 4 (by decide))
  | 1 => some (swell 2 3 5 (by decide))
  | _ => none

theorem duet_cases {id : ToneId} {plan : TonePlan} (h : duet id = some plan) :
    id = 0 ∧ plan = swell 1 2 4 (by decide) ∨ id = 1 ∧ plan = swell 2 3 5 (by decide) := by
  unfold duet at h
  split at h
  · exact .inl ⟨rfl, (Option.some.inj h).symm⟩
  · exact .inr ⟨rfl, (Option.some.inj h).symm⟩
  · cases h

/-- The commands for both tones, as they leave the two players that make them at the same time. -/
def duetStream : List (AudioCommand ℝ ℝ) :=
  [.tone 0 (.create (1 : Nat)), .tone 1 (.create (2 : Nat)), .tone 0 (.gain (2 : Nat) 0), .tone 1 (.gain (3 : Nat) 0),
    .tone 0 (.gain (4 : Nat) 1), .tone 0 (.start (2 : Nat)), .tone 1 (.gain (5 : Nat) 1), .tone 0 (.stop (4 : Nat)),
    .tone 1 (.start (3 : Nat)), .tone 1 (.stop (5 : Nat))]

/-- The first tone is complete only before the second buffer, and the other before the third. -/
theorem serve_duet_late :
    ∃ heard, (AudioThread.fresh .square .usual 1 1 16 4 0).serve [duetStream] [[7], [7], [7], [7, 7]] = some heard ∧
      (AudioThread.fresh .square .usual 1 1 16 4 0).serve
        [duetStream.take 3, (duetStream.drop 3).take 5, duetStream.drop 8] [[7], [7], [7], [7, 7]] = some heard := by
  have hstream : Realizes duet duetStream := by
    refine ⟨by simp [duetStream, AudioCommand.tone?], fun id => ?_⟩
    rcases id with _ | _ | id
    · rfl
    · rfl
    · simp [duetStream, requestsFor, AudioCommand.requestFor?, planned, duet]
  have hcomplete : ∀ id plan, duet id = some plan → requestsFor id duetStream = plan.requests := by
    intro id plan hplan
    rw [hstream.requests, planned, hplan]
    rfl
  have hwhole : InTime duet 1 1 0 [] [duetStream] [[7], [7], [7], [7, 7]] := by
    refine ⟨?_, ?_, ?_, ?_, trivial⟩ <;> exact fun id plan hplan _ => hcomplete id plan hplan
  have hcut : InTime duet 1 1 0 [] [duetStream.take 3, (duetStream.drop 3).take 5, duetStream.drop 8]
      [[7], [7], [7], [7, 7]] := by
    refine ⟨fun id plan hplan hstart => ?_, fun id plan hplan hstart => ?_, ?_, ?_, trivial⟩
    · obtain ⟨rfl, rfl⟩ | ⟨rfl, rfl⟩ := duet_cases hplan <;> norm_num [swell, Scalar.frameTime] at hstart
    · obtain ⟨rfl, rfl⟩ | ⟨rfl, rfl⟩ := duet_cases hplan
      · rfl
      · norm_num [swell, Scalar.frameTime] at hstart
    all_goals exact fun id plan hplan _ => hcomplete id plan hplan
  exact serve_eq_of_inTime .square .usual 1 16 4 0 Nat.one_pos hstream (List.append_nil _) rfl (by simp [duetStream])
    (by simp [duetStream]) hwhole hcut

end Interleaved

end MusicMacro
