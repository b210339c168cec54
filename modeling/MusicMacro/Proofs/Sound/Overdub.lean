import MusicMacro.Proofs.Scalar.Exact
import MusicMacro.Proofs.Sound.Blocks

/-!
# Sound on top of sound

A bank adds to what its buffers hold. Whatever that is, it makes no difference whether the buffers are filled one after
the other or all at once, and each tone is reported with the first buffer whose end it does not outlast.

* `ToneBank.overdub` : buffers filled one after the other, with a list of the tones that have ended;
* `overdub_snoc` : what one more buffer adds to it;
* `overdub_agree` : buffers of any sizes agree with one buffer;
* `overdub_eq_render` : the samples and the voices are those of one buffer, and who ends in a buffer is said there.
-/

namespace MusicMacro
namespace ToneBank
variable {R S : Type} [Scalar R] [Amplitude S] [Sampling R S]

/-- Fills buffers one after the other, from frame `n` on. The tones that end are put behind those in a list. -/
def overdub (b : ToneBank R) (channels rate n : Nat) (ended : List ToneId) :
    List (List S) → List S × List ToneId × ToneBank R
  | [] => ([], ended, b)
  | buffer :: rest =>
    let now := b.render buffer channels n rate
    let later := now.2.2.overdub channels rate (n + buffer.length / channels) (ended ++ now.2.1) rest
    (now.1 ++ later.1, later.2)

/-- The number of frames in some buffers. -/
def frames (channels : Nat) (buffers : List (List S)) : Nat := (buffers.map fun b => b.length / channels).sum

theorem overdub_eq (b : ToneBank R) (channels rate n : Nat) (ended : List ToneId) (buffers : List (List S)) :
    b.overdub channels rate n ended buffers =
      let sound : List S × List ToneId × ToneBank R := b.overdub channels rate n [] buffers
      (sound.1, ended ++ sound.2.1, sound.2.2) := by
  induction buffers generalizing b n ended with
  | nil => simp [overdub]
  | cons buffer rest ih =>
    simp only [overdub, List.nil_append]
    rw [ih _ _ (ended ++ _), ih _ _ (b.render buffer channels n rate).2.1]
    simp only [List.append_assoc]

theorem overdub_snoc (b : ToneBank R) (channels rate n : Nat) (ended : List ToneId) (buffers : List (List S))
    (buffer : List S) :
    b.overdub channels rate n ended (buffers ++ [buffer]) =
      let past : List S × List ToneId × ToneBank R := b.overdub channels rate n ended buffers
      let now := past.2.2.render buffer channels (n + frames channels buffers) rate
      (past.1 ++ now.1, past.2.1 ++ now.2.1, now.2.2) := by
  induction buffers generalizing b n ended with
  | nil => simp [overdub, frames]
  | cons front rest ih =>
    simp only [List.cons_append, overdub, ih, List.append_assoc, frames, List.map_cons, List.sum_cons, Nat.add_assoc]

/-- The tones that end in a buffer, in ascending order: those that are held and do not outlast it. -/
theorem ended_render (b : ToneBank R) (buffer : List S) {channels : Nat} (hchannels : 0 < channels) (n rate : Nat) :
    let finish : R := Scalar.frameTime rate (n + buffer.length / channels)
    (b.render buffer channels n rate).2.1.Pairwise (· < ·) ∧
      ∀ id, id ∈ (b.render buffer channels n rate).2.1 ↔
        ∃ v, b.voices.get? id = some v ∧ v.stoppedBy finish = true := by
  have hmax : max channels 1 = channels := by omega
  have hended : (b.render buffer channels n rate).2.1 =
      (b.voices.filter fun _ v => v.stoppedBy (Scalar.frameTime rate (n + buffer.length / channels))).ids := by
    show ((b.mix _ rate n _ buffer).2.retire _).1 = _
    rw [ended_mix, hmax]
    rfl
  refine ⟨?_, fun id => ?_⟩
  · rw [hended]
    exact List.pairwise_map.2 (Roster.ascending _)
  · rw [hended, Roster.mem_ids_iff]
    simp only [Roster.get?_filter, Option.filter_eq_some_iff]

variable [SteadyClock R]

/-- **Buffers of any sizes agree with one buffer.** -/
theorem overdub_agree (b : ToneBank R) {channels rate : Nat} (hchannels : 0 < channels) (hrate : 0 < rate) (n : Nat)
    {buffers : List (List S)} (hsome : buffers ≠ []) (hwhole : ∀ buffer ∈ buffers, channels ∣ buffer.length) :
    Agree (b.overdub channels rate n [] buffers) (b.render buffers.flatten channels n rate) := by
  induction buffers generalizing b n with
  | nil => exact absurd rfl hsome
  | cons buffer rest ih =>
    obtain ⟨hbuffer, hrest⟩ := List.forall_mem_cons.1 hwhole
    have hcut : b.overdub channels rate n [] (buffer :: rest) =
        join (b.render buffer channels n rate)
          ((b.render buffer channels n rate).2.2.overdub channels rate (n + buffer.length / channels) [] rest) := by
      rw [overdub, List.nil_append, overdub_eq]
      rfl
    rw [hcut, List.flatten_cons]
    cases rest with
    | nil =>
      rw [List.flatten_nil, List.append_nil]
      exact ⟨List.append_nil _, .of_eq (List.append_nil _), rfl⟩
    | cons next more =>
      have hlater := ih (b.render buffer channels n rate).2.2 (n + buffer.length / channels) (by simp) hrest
      exact hlater.join.trans (b.render_append_agree hchannels hrate n _ hbuffer)

/-- **Where buffers are cut is not heard.** Buffers of whole frames are filled one after the other. The samples and the
voices that are left are those of one buffer that holds them all, and the same tones are reported, each once. With
every buffer those tones are reported that are still held and stop at its end or before, in ascending order and behind
what was reported before. -/
theorem overdub_eq_render (b : ToneBank R) {channels rate : Nat} (hchannels : 1 ≤ channels) (hrate : 1 ≤ rate)
    (first : Nat) (ended : List ToneId) {buffers : List (List S)} (hsome : buffers ≠ [])
    (hwhole : ∀ buffer ∈ buffers, channels ∣ buffer.length) :
    let whole : List S × List ToneId × ToneBank R := b.render buffers.flatten channels first rate
    (∃ new, b.overdub channels rate first ended buffers = (whole.1, ended ++ new, whole.2.2) ∧ new.Perm whole.2.1 ∧
      new.Nodup) ∧
    ∀ before buffer after, buffers = before ++ buffer :: after →
      let past : List S × List ToneId × ToneBank R := b.overdub channels rate first ended before
      let finish : R := Scalar.frameTime rate (first + frames channels (before ++ [buffer]))
      ∃ now, (b.overdub channels rate first ended (before ++ [buffer])).2.1 = past.2.1 ++ now ∧
        now.Pairwise (· < ·) ∧
        ∀ id, id ∈ now ↔ ∃ v, past.2.2.voices.get? id = some v ∧ v.stoppedBy finish = true := by
  intro whole
  have hagree := b.overdub_agree hchannels hrate first hsome hwhole
  have hnodup : whole.2.1.Nodup := (b.ended_render buffers.flatten hchannels first rate).1.imp Nat.ne_of_lt
  refine ⟨⟨_, ?_, hagree.ended, hagree.ended.nodup_iff.2 hnodup⟩, ?_⟩
  · rw [overdub_eq]
    exact Prod.ext hagree.samples (Prod.ext rfl hagree.bank)
  · rintro before buffer after - past finish
    have hfinish : frames channels (before ++ [buffer]) = frames channels before + buffer.length / channels := by
      simp only [frames, List.map_append, List.sum_append, List.map_singleton, List.sum_singleton]
    obtain ⟨hascending, hmem⟩ := past.2.2.ended_render buffer hchannels (first + frames channels before) rate
    rw [Nat.add_assoc, ← hfinish] at hmem
    exact ⟨_, by rw [overdub_snoc], hascending, hmem⟩

/-- Two tones, of which the later one is left, over three buffers, one of them empty. -/
theorem overdub_eq_render_duo :
    let low : ToneBank ℝ := (((silent .square).apply 0 (.create 1)).apply 0 (.start 0)).apply 0 (.stop (1 / 4))
    let duo := low.apply 1 (.create 2)
    let buffers : List (List ℝ) := [[7, 7], [], [7, 7, 7, 7]]
    let whole : List ℝ × List ToneId × ToneBank ℝ := duo.render [7, 7, 7, 7, 7, 7] 2 0 4
    ∃ new, duo.overdub 2 4 0 [9] buffers = (whole.1, 9 :: new, whole.2.2) ∧ new.Perm whole.2.1 ∧ new.Nodup :=
  (overdub_eq_render _ (by decide) (by decide) 0 [9] (by simp) (by simp)).1

end ToneBank
end MusicMacro
