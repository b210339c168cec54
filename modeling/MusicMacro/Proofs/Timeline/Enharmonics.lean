import MusicMacro.Proofs.Scalar.Exact
import MusicMacro.Timeline.Octave

/-!
# Pitches that sound the same

A pitch is written as a letter with an accidental, and it sounds as a class some octaves up or down. Its frequency comes
from a count of half-steps that stops at the ends of the 32-bit range, its class from the accidental without whole
octaves. The two belong together as far as the count does not stop.

* `Pitch.height` : the half-steps above C that are written; `Pitch.semitone_pitchClass` : the class is what is left of
  them without whole octaves;
* `Pitch.halfStepsFromA_eq_iff` : class and octaves make up the count just in the range; `Octave.frequency_eq_iff` : and
  the frequency too;
* `InWord`, `held?`, `remainder?` : reckoning in 32 bits, which can go wrong; `Pitch.halfStepsFromA?` and the other
  checked operations never do;
* `enharmonic_pitches` : all of this together.
-/

namespace MusicMacro

/-! ## Reckoning in 32 bits -/

def InWord (n : Int) : Prop := -2147483648 ≤ n ∧ n ≤ 2147483647

instance InWord.decidable (n : Int) : Decidable (InWord n) :=
  inferInstanceAs (Decidable (-2147483648 ≤ n ∧ n ≤ 2147483647))

/-- A result of 32-bit arithmetic: none if there is an overflow. -/
def held? (n : Int) : Option Int := if InWord n then some n else none

/-- What a division leaves, from zero up: there is nothing by zero, nor where the quotient overflows. -/
def remainder? (m n : Int) : Option Int :=
  if n = 0 then none else (held? (m / n)).bind fun _ => held? (m % n)

theorem held?_eq_some {n : Int} (h : InWord n) : held? n = some n := if_pos h

theorem remainder?_twelve {m : Int} (h : InWord m) : remainder? m 12 = some (m % 12) := by
  obtain ⟨hlow, hhigh⟩ := h
  have hquotient : InWord (m / 12) := by unfold InWord; omega
  have hrest : InWord (m % 12) := by unfold InWord; omega
  rw [remainder?, if_neg (by decide), held?_eq_some hquotient, Option.bind_some, held?_eq_some hrest]

theorem Accidental.inWord (a : Accidental) : InWord a.steps := ⟨a.lower, a.upper⟩

/-- A count that has stopped is not what it would have been. -/
theorem Accidental.steps_saturate_eq_iff {n : Int} : (saturate n).steps = n ↔ InWord n := by
  constructor
  · intro h
    rw [← h]
    exact inWord _
  · exact fun ⟨hlow, hhigh⟩ => steps_saturate_of_mem hlow hhigh

theorem Letter.inWord (l : Letter) : InWord (l.semitone - Letter.a.semitone) := by
  cases l <;> exact ⟨by decide, by decide⟩

/-! ## Classes -/

namespace PitchClass

theorem semitone_bounds (pc : PitchClass) : 0 ≤ pc.semitone ∧ pc.semitone < 12 := by
  cases pc <;> exact ⟨by decide, by decide⟩

theorem ofSemitone_semitone (pc : PitchClass) : ofSemitone pc.semitone = pc := by cases pc <;> rfl

theorem semitone_injective {pc qc : PitchClass} (h : pc.semitone = qc.semitone) : pc = qc := by
  rw [← ofSemitone_semitone pc, h, ofSemitone_semitone]

theorem exists_getElem?_all (i : Fin 12) : ∃ pc, all[i.val]? = some pc ∧ pc.semitone = i := by
  revert i
  decide

theorem getElem?_all (n : Int) : all[(n % 12).toNat]? = some (ofSemitone n) ∧ (ofSemitone n).semitone = n % 12 := by
  have hplace : (n % 12).toNat < 12 := by omega
  obtain ⟨pc, hpc, hsemitone⟩ := exists_getElem?_all ⟨_, hplace⟩
  have hclass : ofSemitone n = pc := by rw [ofSemitone, List.getD_eq_getElem?_getD, hpc, Option.getD_some]
  rw [hclass]
  refine ⟨hpc, ?_⟩
  rw [hsemitone]
  exact Int.toNat_of_nonneg (by omega)

end PitchClass

/-! ## Counting half-steps -/

namespace Pitch

/-- Half-steps above C, as many as are written. -/
def height (p : Pitch) : Int := p.letter.semitone + p.accidental.steps

theorem halfStepsFromA_eq_saturate (p : Pitch) :
    p.halfStepsFromA = (Accidental.saturate (p.height - Letter.a.semitone)).steps := by
  unfold halfStepsFromA height
  congr 2
  omega

theorem semitone_pitchClass (p : Pitch) : p.pitchClass.semitone = p.height % 12 := by
  unfold pitchClass height
  rw [(PitchClass.getElem?_all _).2]
  -- the accidental has lost its whole octaves before the letter is added
  omega

theorem height_sub_eq (p : Pitch) :
    p.height - Letter.a.semitone = p.pitchClass.semitone - Letter.a.semitone + 12 * (p.height / 12) := by
  rw [semitone_pitchClass]
  omega

/-- The class and the octaves make up the count, unless it has stopped. -/
theorem halfStepsFromA_eq_iff (p : Pitch) :
    p.halfStepsFromA = p.pitchClass.semitone - Letter.a.semitone + 12 * (p.height / 12) ↔
      InWord (p.height - Letter.a.semitone) := by
  rw [← height_sub_eq, halfStepsFromA_eq_saturate, Accidental.steps_saturate_eq_iff]

theorem pitchClass_eq {p q : Pitch} (hp : InWord (p.height - Letter.a.semitone))
    (hq : InWord (q.height - Letter.a.semitone)) (h : p.halfStepsFromA = q.halfStepsFromA) :
    p.pitchClass = q.pitchClass := by
  rw [halfStepsFromA_eq_saturate, halfStepsFromA_eq_saturate, Accidental.steps_saturate_eq_iff.2 hp,
    Accidental.steps_saturate_eq_iff.2 hq] at h
  apply PitchClass.semitone_injective
  rw [semitone_pitchClass, semitone_pitchClass, (Int.sub_left_inj _).1 h]

theorem halfStepsFromA_of_above {p : Pitch} (h : 2147483647 < p.height - Letter.a.semitone) :
    p.halfStepsFromA = 2147483647 := by
  rw [halfStepsFromA_eq_saturate]
  simp only [Accidental.saturate]
  omega

theorem halfStepsFromA_of_below {p : Pitch} (h : p.height - Letter.a.semitone < -2147483648) :
    p.halfStepsFromA = -2147483648 := by
  rw [halfStepsFromA_eq_saturate]
  simp only [Accidental.saturate]
  omega

end Pitch

/-! ## Frequencies -/

theorem halfSteps_add_octaves (n k : Int) :
    (Scalar.halfSteps (n + 12 * k) : ℝ) = 2 ^ k * Scalar.halfSteps n := by
  have hexponent : ((n + 12 * k : Int) : ℝ) / 12 = k + (n : ℝ) / 12 := by
    push_cast
    ring
  show (2 : ℝ) ^ (((n + 12 * k : Int) : ℝ) / 12) = 2 ^ k * 2 ^ ((n : ℝ) / 12)
  rw [hexponent, Real.rpow_add two_pos, Real.rpow_intCast]

theorem halfSteps_injective {m n : Int} (h : (Scalar.halfSteps m : ℝ) = Scalar.halfSteps n) : m = n := by
  have hexponent : (m : ℝ) / 12 = (n : ℝ) / 12 := (Real.rpow_right_inj two_pos (by norm_num)).1 h
  exact Int.cast_injective ((div_left_inj' (by norm_num)).1 hexponent)

namespace Octave

theorem classFrequency_raised (o : Octave) (p : Pitch) :
    2 ^ (p.height / 12) * (o.classFrequency p.pitchClass : ℝ) =
      concertA ℝ * Scalar.halfSteps (p.height - Letter.a.semitone) * o.scale := by
  rw [p.height_sub_eq, halfSteps_add_octaves, classFrequency, PitchClass.baseFrequency]
  ring

/-- The frequency of a pitch is that of its class, moved by whole octaves, unless the count of half-steps has stopped.
-/
theorem frequency_eq_iff (o : Octave) (p : Pitch) :
    (o.frequency p : ℝ) = 2 ^ (p.height / 12) * o.classFrequency p.pitchClass ↔
      InWord (p.height - Letter.a.semitone) := by
  have hscale : (o.scale : ℝ) ≠ 0 := (octaves_pos _).ne'
  have hconcert : concertA ℝ ≠ 0 := by norm_num [concertA]
  -- the two frequencies differ in their half-steps only, and these differ where the count has stopped
  rw [classFrequency_raised, frequency, mul_left_inj' hscale, mul_right_inj' hconcert, p.halfStepsFromA_eq_saturate,
    ← Accidental.steps_saturate_eq_iff]
  exact ⟨halfSteps_injective, congrArg _⟩

end Octave

/-! ## Nothing overflows

The operations on pitches once more, with every result and every index checked: `f?` is `f` with its checks. -/

namespace PitchClass

def at? (place : Int) : Option PitchClass := if place < 0 then none else all[place.toNat]?

def ofSemitone? (n : Int) : Option PitchClass := (remainder? n 12).bind at?

theorem ofSemitone?_eq {n : Int} (h : InWord n) : ofSemitone? n = some (ofSemitone n) := by
  rw [ofSemitone?, remainder?_twelve h, Option.bind_some, at?, if_neg (by omega), (getElem?_all n).1]

end PitchClass

namespace Pitch

def halfStepsFromA? (p : Pitch) : Option Int := do
  let natural ← held? (p.letter.semitone - Letter.a.semitone)
  return (Accidental.saturate (natural + p.accidental.steps)).steps

def pitchClass? (p : Pitch) : Option PitchClass := do
  let raised ← remainder? p.accidental.steps 12
  let steps ← held? (raised + p.letter.semitone)
  PitchClass.ofSemitone? steps

theorem halfStepsFromA?_eq (p : Pitch) : p.halfStepsFromA? = some p.halfStepsFromA := by
  rw [halfStepsFromA?, held?_eq_some p.letter.inWord]
  rfl

theorem pitchClass?_eq (p : Pitch) : p.pitchClass? = some p.pitchClass := by
  have hlow := p.letter.semitone_nonneg
  have hhigh := p.letter.semitone_lt
  have hsteps : InWord (p.accidental.steps % 12 + p.letter.semitone) := by unfold InWord; omega
  rw [pitchClass?, remainder?_twelve p.accidental.inWord]
  simp only [Option.bind_eq_bind, Option.bind_some, held?_eq_some hsteps, PitchClass.ofSemitone?_eq hsteps]
  rfl

end Pitch

section Checked
variable {R : Type} [Scalar R]

def PitchClass.baseFrequency? (pc : PitchClass) : Option R := do
  let steps ← held? (pc.semitone - Letter.a.semitone)
  return concertA R * Scalar.halfSteps steps

theorem PitchClass.baseFrequency?_eq (pc : PitchClass) : pc.baseFrequency? = some (pc.baseFrequency : R) := by
  obtain ⟨hlow, hhigh⟩ := pc.semitone_bounds
  have hsteps : InWord (pc.semitone - Letter.a.semitone) := by
    show InWord (pc.semitone - 9)
    unfold InWord
    omega
  rw [baseFrequency?, held?_eq_some hsteps]
  rfl

namespace Octave

def scale? (o : Octave) : Option R := do
  let octaves ← held? (o.number - reference.number)
  return Scalar.octaves octaves

def classFrequency? (o : Octave) (pc : PitchClass) : Option R := do
  let base ← pc.baseFrequency?
  let scale ← o.scale?
  return base * scale

def frequency? (o : Octave) (p : Pitch) : Option R := do
  let steps ← p.halfStepsFromA?
  let scale ← o.scale?
  return concertA R * Scalar.halfSteps steps * scale

theorem scale?_eq (o : Octave) : o.scale? = some (o.scale : R) := by
  have hlow := o.lower
  have hhigh := o.upper
  have hoctaves : InWord (o.number - reference.number) := by
    show InWord (o.number - 4)
    unfold InWord
    omega
  rw [scale?, held?_eq_some hoctaves]
  rfl

theorem classFrequency?_eq (o : Octave) (pc : PitchClass) : o.classFrequency? pc = some (o.classFrequency pc : R) := by
  rw [classFrequency?, pc.baseFrequency?_eq, o.scale?_eq]
  rfl

theorem frequency?_eq (o : Octave) (p : Pitch) : o.frequency? p = some (o.frequency p : R) := by
  rw [frequency?, p.halfStepsFromA?_eq, o.scale?_eq]
  rfl

end Octave

end Checked

/-! ## The laws of written pitches -/

/-- **A written pitch is its class, some octaves up or down.** With the octaves in the half-steps above C that are
written, rounded down, the class makes up the count of half-steps, and over exact numbers the frequency in every octave,
just where the count fits into 32 bits; outside it stops at the end of the range. Pitches with one count in the range
have one class, and over any scalars one frequency in every octave. Whatever the letter and the accidental are, no
operation overflows, and no class is looked up that does not exist. -/
theorem enharmonic_pitches :
    (∀ p : Pitch,
      (p.halfStepsFromA = p.pitchClass.semitone - Letter.a.semitone + 12 * (p.height / 12) ↔
        InWord (p.height - Letter.a.semitone)) ∧
      (∀ o : Octave, (o.frequency p : ℝ) = 2 ^ (p.height / 12) * o.classFrequency p.pitchClass ↔
        InWord (p.height - Letter.a.semitone)) ∧
      (2147483647 < p.height - Letter.a.semitone → p.halfStepsFromA = 2147483647) ∧
      (p.height - Letter.a.semitone < -2147483648 → p.halfStepsFromA = -2147483648)) ∧
    (∀ p q : Pitch, InWord (p.height - Letter.a.semitone) → InWord (q.height - Letter.a.semitone) →
      p.halfStepsFromA = q.halfStepsFromA →
      p.pitchClass = q.pitchClass ∧ ∀ {R : Type} [Scalar R] (o : Octave), (o.frequency p : R) = o.frequency q) ∧
    (∀ n : Int, InWord n → PitchClass.ofSemitone? n = some (.ofSemitone n)) ∧
    (∀ p : Pitch, p.halfStepsFromA? = some p.halfStepsFromA ∧ p.pitchClass? = some p.pitchClass) ∧
    ∀ {R : Type} [Scalar R] (o : Octave) (pc : PitchClass) (p : Pitch),
      pc.baseFrequency? = some (pc.baseFrequency : R) ∧ o.scale? = some (o.scale : R) ∧
        o.classFrequency? pc = some (o.classFrequency pc : R) ∧ o.frequency? p = some (o.frequency p : R) := by
  refine ⟨fun p => ⟨p.halfStepsFromA_eq_iff, fun o => o.frequency_eq_iff p, ?_, ?_⟩, fun p q hp hq h => ⟨?_, ?_⟩,
    fun n => PitchClass.ofSemitone?_eq, fun p => ⟨p.halfStepsFromA?_eq, p.pitchClass?_eq⟩,
    fun o pc p => ⟨pc.baseFrequency?_eq, o.scale?_eq, o.classFrequency?_eq pc, o.frequency?_eq p⟩⟩
  · exact Pitch.halfStepsFromA_of_above
  · exact Pitch.halfStepsFromA_of_below
  · exact Pitch.pitchClass_eq hp hq h
  · intro R _ o
    rw [Octave.frequency, Octave.frequency, h]

/-- A C and a D, so flat that both have the lowest count; a C and a B beyond the two ends. -/
theorem enharmonic_pitches_extreme :
    let c : Pitch := ⟨.c, .saturate (-2147483639)⟩
    let d : Pitch := ⟨.d, .saturate (-2147483641)⟩
    let low : Pitch := ⟨.c, .saturate (-2147483648)⟩
    let high : Pitch := ⟨.b, .saturate 2147483647⟩
    InWord (c.height - Letter.a.semitone) ∧ InWord (d.height - Letter.a.semitone) ∧
      c.halfStepsFromA = d.halfStepsFromA ∧ c.pitchClass = d.pitchClass ∧
      low.height - Letter.a.semitone < -2147483648 ∧ low.halfStepsFromA = -2147483648 ∧
      2147483647 < high.height - Letter.a.semitone ∧ high.halfStepsFromA = 2147483647 ∧
      InWord (-2147483648) ∧ PitchClass.ofSemitone? (-2147483648) = some (.ofSemitone (-2147483648)) := by
  intro c d low high
  obtain ⟨hcount, hsame, hclass, -, -⟩ := enharmonic_pitches
  have hc : InWord (c.height - Letter.a.semitone) := by decide
  have hd : InWord (d.height - Letter.a.semitone) := by decide
  have heq : c.halfStepsFromA = d.halfStepsFromA := by decide
  have hlow : low.height - Letter.a.semitone < -2147483648 := by decide
  have hhigh : 2147483647 < high.height - Letter.a.semitone := by decide
  have hword : InWord (-2147483648) := by decide
  exact ⟨hc, hd, heq, (hsame c d hc hd heq).1, hlow, (hcount low).2.2.2 hlow, hhigh, (hcount high).2.2.1 hhigh, hword,
    hclass _ hword⟩

/-- Below the range the count no longer tells classes apart. -/
example :
    let c : Pitch := ⟨.c, .saturate (-2147483640)⟩
    let d : Pitch := ⟨.d, .saturate (-2147483641)⟩
    c.halfStepsFromA = d.halfStepsFromA ∧ c.pitchClass ≠ d.pitchClass := by
  decide

end MusicMacro
