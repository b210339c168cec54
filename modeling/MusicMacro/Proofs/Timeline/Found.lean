import MusicMacro.Proofs.Timeline.History

/-!
# Tracks that find an octave

Tracks can be scheduled one after the other in one place, and each of them finds the octave that is there. It leaves
the reference octave behind. A default octave within the range replaces what was found; one outside of it does not, and
then the found octave is heard.

* `Schedule.octaveFrom` : the octave that a track starts in;
* `value_runFrom` : a track that finds an octave is scheduled as if it had that one as its default;
* `instructions_eq_iff` : two starting octaves give the same track if they lead to the same octave at every note;
* `runFrom_eq_run_iff` : which tracks do not depend on the octave that they find.
-/

namespace MusicMacro

/-- Where two functions give something for the same elements, they give the same lists only if they give the same for
every element. -/
theorem filterMap_eq_iff {α β : Type} {f g : α → Option β} {xs : List α}
    (h : ∀ x ∈ xs, (f x).isSome = (g x).isSome) : xs.filterMap f = xs.filterMap g ↔ ∀ x ∈ xs, f x = g x := by
  induction xs with
  | nil => simp
  | cons x rest ih =>
    have hrest := ih fun y hy => h y (List.mem_cons_of_mem _ hy)
    have hx := h x List.mem_cons_self
    rw [List.forall_mem_cons, ← hrest]
    cases hf : f x with
    | none =>
      rw [hf] at hx
      have hg : g x = none := Option.isNone_iff_eq_none.1 (Option.isSome_eq_false_iff.1 hx.symm)
      simp [hf, hg]
    | some a =>
      rw [hf] at hx
      obtain ⟨b, hg⟩ := Option.isSome_iff_exists.1 hx.symm
      simp [hf, hg]

def Token.isNote : Token → Bool
  | .note .. => true
  | _ => false

theorem Octave.frequency_injective (pitch : Pitch) :
    Function.Injective fun o : Octave => (o.frequency pitch : ℝ) := by
  intro o p h
  have hpitch : (concertA ℝ * Scalar.halfSteps pitch.halfStepsFromA : ℝ) ≠ 0 := by
    have := halfSteps_pos pitch.halfStepsFromA
    unfold concertA
    positivity
  have hscale : (2 : ℝ) ^ (o.number - reference.number) = 2 ^ (p.number - reference.number) :=
    mul_left_cancel₀ hpitch h
  have hsteps := zpow_right_injective₀ (two_pos (α := ℝ)) (by norm_num) hscale
  have hnumber : o.number = p.number := by omega
  cases o
  cases p
  cases hnumber
  rfl

namespace Schedule

/-- The octave that a track starts in: the default, if there is such an octave, and else the one that it finds. -/
def octaveFrom (d : Defaults) (found : Octave) : Octave := (Octave.ofInt? d.octave).getD found

section Runs
variable {R : Type} (d : Defaults) (tokens : List Token) (origin : R) (found : Octave)

theorem value_initial : (initial d origin found).value = ⟨.ofDefaults d origin, octaveFrom d found⟩ := by
  unfold initial octaveFrom
  cases Octave.ofInt? d.octave <;> rfl

variable [Scalar R]

theorem value_runFrom :
    (runFrom d tokens origin found).value =
      ((run { d with octave := (octaveFrom d found).number } tokens origin).value, .reference) := by
  have hsettled : octaveFrom { d with octave := (octaveFrom d found).number } .reference = octaveFrom d found := by
    rw [octaveFrom, Octave.ofInt?_number]
    rfl
  simp only [runFrom, run, Noted.value_bind, Noted.value_pure, value_initial, hsettled]
  rfl

end Runs

end Schedule

namespace History

theorem instruction?_eq_iff (d : Defaults) (origin : ℝ) (first second : Int) (past : List Token) (token : Token) :
    instruction? { d with octave := first } origin past token =
        instruction? { d with octave := second } origin past token ↔
      (token.isNote = true → octave { d with octave := first } past = octave { d with octave := second } past) := by
  cases token with
  | note pitch duration =>
    have hstart : start { d with octave := first } origin past = start { d with octave := second } origin past := rfl
    have hseconds : seconds { d with octave := first } past duration =
        seconds { d with octave := second } past duration := rfl
    have hvolume : volume { d with octave := first } past = volume { d with octave := second } past := rfl
    rw [instruction?, instruction?, hstart, hseconds, hvolume, Option.some.injEq, Instruction.play.injEq]
    constructor
    · exact fun h _ => Octave.frequency_injective pitch h.1
    · exact fun h => ⟨congrArg (Octave.frequency · pitch) (h rfl), rfl, rfl, rfl⟩
  | rest duration => exact iff_of_true rfl fun h => absurd h Bool.false_ne_true
  | step direction => exact iff_of_true rfl fun h => absurd h Bool.false_ne_true
  | set setting value => exact iff_of_true rfl fun h => absurd h Bool.false_ne_true

/-- **Two starting octaves** give the same track if they lead to the same octave at every note. -/
theorem instructions_eq_iff (d : Defaults) (origin : ℝ) (first second : Int) (tokens : List Token) :
    instructions { d with octave := first } origin tokens = instructions { d with octave := second } origin tokens ↔
      ∀ p ∈ withPast tokens, p.2.isNote = true →
        octave { d with octave := first } p.1 = octave { d with octave := second } p.1 := by
  have hsome : ∀ p ∈ withPast tokens, (instruction? { d with octave := first } origin p.1 p.2).isSome =
      (instruction? { d with octave := second } origin p.1 p.2).isSome := by
    rintro ⟨past, token⟩ -
    cases token <;> rfl
  refine (filterMap_eq_iff hsome).trans (forall₂_congr fun p _ => ?_)
  exact instruction?_eq_iff d origin first second p.1 p.2

theorem octave_octaveFrom (d : Defaults) (found : Octave) (past : List Token) :
    octave { d with octave := (Schedule.octaveFrom d found).number } past =
      past.foldl moveOctave (Schedule.octaveFrom d found) := by
  rw [octave, firstOctave_eq, Octave.ofInt?_number]
  rfl

end History

namespace Schedule

theorem value_run (d : Defaults) (tokens : List Token) (origin : ℝ) :
    (run d tokens origin).value = History.instructions d origin tokens := by
  simp only [run, runFrom, Noted.value_bind, Noted.value_pure]
  exact ((Follows.initial d origin).steps tokens).1

/-- **What a track owes to the octave that it finds.** It is scheduled as if it had that octave as its default when its
own does not exist, and the reference octave is left behind. It is scheduled as with a place of its own if and only if
every note of it is reached in the same octave from there. -/
theorem runFrom_eq_run_iff (d : Defaults) (tokens : List Token) (found : Octave) :
    (∀ {R : Type} [Scalar R] (origin : R),
      (runFrom d tokens origin found).value =
        ((run { d with octave := (octaveFrom d found).number } tokens origin).value, .reference)) ∧
    ∀ origin : ℝ, (runFrom d tokens origin found).value.1 = (run d tokens origin).value ↔
      ∀ p ∈ History.withPast tokens, p.2.isNote = true →
        p.1.foldl History.moveOctave (octaveFrom d found) =
          p.1.foldl History.moveOctave (octaveFrom d .reference) := by
  refine ⟨fun origin => value_runFrom d tokens origin found, fun origin => ?_⟩
  have hown : (run d tokens origin).value = (runFrom d tokens origin .reference).value.1 := rfl
  rw [hown, value_runFrom, value_runFrom, value_run, value_run, History.instructions_eq_iff]
  simp only [History.octave_octaveFrom]

/-- The note `a` after a default octave that does not exist: it is heard an octave higher by who finds the octave 5. -/
theorem runFrom_found_five :
    (runFrom { octave := 99 } [.note ⟨.a, .natural⟩ ⟨[]⟩] (0 : ℝ) ⟨5, by decide, by decide⟩).value.1 ≠
      (run { octave := 99 } [.note ⟨.a, .natural⟩ ⟨[]⟩] (0 : ℝ)).value := by
  have hown : ∀ tokens, (run { octave := 99 } tokens (0 : ℝ)).value =
      (runFrom { octave := 99 } tokens (0 : ℝ) .reference).value.1 := fun _ => rfl
  rw [hown, value_runFrom, value_runFrom, value_run, value_run, ne_eq, History.instructions_eq_iff]
  intro h
  have hsame := h ([], .note ⟨.a, .natural⟩ ⟨[]⟩) (by simp [History.withPast]) rfl
  rw [History.octave_octaveFrom, History.octave_octaveFrom] at hsame
  exact absurd hsame (by decide)

end Schedule

end MusicMacro
