import MusicMacro.Proofs.Score.Printing

/-!
# Names of pitches

The name of a pitch can be read on its own or as the text of a track. One reader takes nothing but a letter and signs,
the other one scans any text; where the first finds a pitch, the second finds the same one.

* `Pitch.IsName` : a letter with signs after it; `Pitch.readSigns_eq_some_iff` : signs are added up from left to right;
* `Scanner.tokens_within_signs` : a note that is open adds up signs as the reader of names does;
* `Score.tokenize_of_parse?` : a name is the text of its note; `Pitch.parse?_spelling` : every pitch has a name;
* `pitch_names` : all of this together.
-/

namespace MusicMacro

namespace Pitch

/-- A letter from `a` to `g`, and nothing but signs after it. -/
def IsName (name : List Char) : Prop :=
  ∃ (letter : Letter) (signs : List Char), name = letter.toChar :: signs ∧ ∀ ch ∈ signs, IsSign ch

/-! ## Signs -/

/-- Signs, and nothing else, are added up from left to right, and the sum stops at the ends of the 32-bit range. -/
theorem readSigns_eq_some_iff {a b : Accidental} {signs : List Char} :
    readSigns a signs = some b ↔
      (∀ ch ∈ signs, IsSign ch) ∧ (signs.filterMap Accidental.stepOf?).foldl Accidental.move a = b := by
  induction signs generalizing a with
  | nil => simp [readSigns]
  | cons ch signs ih =>
    cases hstep : Accidental.stepOf? ch with
    | none =>
      have hch : ¬ IsSign ch := by
        rw [← isSign_iff, hstep]
        exact Bool.false_ne_true
      simp [readSigns, hstep, hch]
    | some n =>
      have hch : IsSign ch := (isSign_iff ch).1 (by rw [hstep]; rfl)
      simp [readSigns, hstep, hch, ih]

theorem stepOf?_unit {ch : Char} {s : Int} (h : Accidental.stepOf? ch = some s) : s = 1 ∨ s = -1 := by
  unfold Accidental.stepOf? at h
  split at h
  · exact .inl (Option.some.inj h).symm
  · exact .inr (Option.some.inj h).symm
  · cases h

theorem readSigns_replicate {ch : Char} {s : Int} (h : Accidental.stepOf? ch = some s) (a : Accidental) (n : Nat) :
    readSigns a (List.replicate n ch) = some (.saturate (a.steps + n * s)) := by
  have hsign : IsSign ch := (isSign_iff ch).1 (by rw [h]; rfl)
  rw [readSigns_eq_some_iff, List.filterMap_replicate_of_some h, Accidental.foldl_move_replicate (stepOf?_unit h)]
  refine ⟨fun x hx => ?_, rfl⟩
  rwa [List.eq_of_mem_replicate hx]

theorem readSigns_signs (a : Accidental) : readSigns .natural a.signs = some a := by
  have hstep : Accidental.stepOf? (if 0 ≤ a.steps then '+' else '-') = some (if 0 ≤ a.steps then 1 else -1) := by
    split_ifs <;> rfl
  rw [Accidental.signs, readSigns_replicate hstep, a.saturate_natAbs]

/-! ## Names -/

theorem parse?_eq_some_iff {name : List Char} {p : Pitch} :
    parse? name = some p ↔
      ∃ signs, name = p.letter.toChar :: signs ∧ readSigns .natural signs = some p.accidental := by
  cases name with
  | nil => simp [parse?]
  | cons ch signs =>
    constructor
    · intro h
      obtain ⟨letter, hletter, h⟩ := Option.bind_eq_some_iff.1 h
      obtain ⟨accidental, hsigns, h⟩ := Option.bind_eq_some_iff.1 h
      obtain rfl := Option.some.inj h
      exact ⟨signs, by rw [Letter.toChar_of_ofChar? hletter], hsigns⟩
    · rintro ⟨signs', hname, hsigns⟩
      obtain ⟨rfl, rfl⟩ := List.cons.inj hname
      simp only [parse?, Letter.ofChar?_toChar, hsigns, Option.bind_eq_bind, Option.bind_some]
      rfl

theorem exists_parse?_iff (name : List Char) : (∃ p, parse? name = some p) ↔ IsName name := by
  constructor
  · rintro ⟨p, hp⟩
    obtain ⟨signs, hname, hsigns⟩ := parse?_eq_some_iff.1 hp
    exact ⟨p.letter, signs, hname, (readSigns_eq_some_iff.1 hsigns).1⟩
  · rintro ⟨letter, signs, hname, hsigns⟩
    exact ⟨⟨letter, _⟩, parse?_eq_some_iff.2 ⟨signs, hname, readSigns_eq_some_iff.2 ⟨hsigns, rfl⟩⟩⟩

theorem parse?_replicate (letter : Letter) {ch : Char} {s : Int} (h : Accidental.stepOf? ch = some s) (n : Nat) :
    parse? (letter.toChar :: List.replicate n ch) = some ⟨letter, .saturate (n * s)⟩ := by
  refine parse?_eq_some_iff.2 ⟨_, rfl, ?_⟩
  rw [readSigns_replicate h, show Accidental.natural.steps = 0 from rfl, Int.zero_add]

theorem parse?_spelling (p : Pitch) : parse? p.spelling = some p :=
  parse?_eq_some_iff.2 ⟨_, rfl, readSigns_signs p.accidental⟩

end Pitch

/-! ## Names as texts -/

/-- The signs that a reader of names adds up are those that an open command takes, whatever it has taken before and
whatever comes after them. -/
theorem Scanner.tokens_within_signs {d : Draft} {a : Accidental} {signs : List Char}
    (h : Pitch.readSigns d.accidental signs = some a) (rest : List Char) :
    (within d).tokens (signs ++ rest) = (within { d with accidental := a }).tokens rest := by
  induction signs generalizing d with
  | nil =>
    obtain rfl := Option.some.inj h
    rfl
  | cons ch signs ih =>
    obtain ⟨n, hn, hlater⟩ := Option.bind_eq_some_iff.1 h
    -- the sign changes the sum in both readers alike, and nothing else in the open command
    rw [List.cons_append, tokens_cons, feed, extend, hn]
    exact ih hlater

theorem Score.tokenize_of_parse? {name : List Char} {p : Pitch} (h : Pitch.parse? name = some p) :
    tokenize name = [.note p .empty] := by
  obtain ⟨signs, rfl, hsigns⟩ := Pitch.parse?_eq_some_iff.1 h
  have hopen : ∀ s, Command.note p.letter ≠ .step s := fun s => nofun
  have hread := Scanner.tokens_within_signs (d := { command := .note p.letter }) hsigns []
  rw [List.append_nil] at hread
  exact (Scanner.tokens_idle_command hopen signs).trans hread

/-- **The two readers of pitches agree.** A name is a letter and signs; as the text of a track it is the note of that
pitch, and nothing is written about how long it lasts. However many sharps or flats a name has, the accidental stops at
the end of its range, and every pitch can be read from its letter and as many signs as it has half-steps. -/
theorem pitch_names :
    (∀ name : List Char, (∃ p, Pitch.parse? name = some p) ↔ Pitch.IsName name) ∧
      (∀ (name : List Char) (p : Pitch), Pitch.parse? name = some p → Score.tokenize name = [.note p .empty]) ∧
      (∀ (letter : Letter) (n : Nat),
        Pitch.parse? (letter.toChar :: List.replicate n '+') = some ⟨letter, .saturate n⟩ ∧
          Pitch.parse? (letter.toChar :: List.replicate n '-') = some ⟨letter, .saturate (-n)⟩) ∧
      ∀ p : Pitch, Pitch.parse? p.spelling = some p := by
  refine ⟨Pitch.exists_parse?_iff, fun _ _ => Score.tokenize_of_parse?, fun letter n => ⟨?_, ?_⟩,
    Pitch.parse?_spelling⟩
  · rw [Pitch.parse?_replicate letter (show Accidental.stepOf? '+' = some 1 from rfl), Int.mul_one]
  · rw [Pitch.parse?_replicate letter (show Accidental.stepOf? '-' = some (-1) from rfl), Int.mul_neg_one]

/-- Signs up and down after one another, and more sharps than 32 bits can count. -/
theorem pitch_names_wavering :
    Pitch.parse? ['b', '+', '-', '-', '-'] = some ⟨.b, .saturate (-2)⟩ ∧
      Score.tokenize ['b', '+', '-', '-', '-'] = [.note ⟨.b, .saturate (-2)⟩ .empty] ∧
      Score.tokenize (Letter.c.toChar :: List.replicate 3000000000 '+') =
        [.note ⟨.c, .saturate 2147483647⟩ .empty] := by
  have hname : Pitch.parse? ['b', '+', '-', '-', '-'] = some ⟨.b, .saturate (-2)⟩ := by decide
  have hsharps := (pitch_names.2.2.1 .c 3000000000).1
  exact ⟨hname, pitch_names.2.1 _ _ hname, pitch_names.2.1 _ _ hsharps⟩

/-- A text may be one note and yet be no name. -/
example : Score.tokenize ['c', '+', '4'] = [.note ⟨.c, .saturate 1⟩ ⟨['4']⟩] ∧ Pitch.parse? ['c', '+', '4'] = none := by
  decide

end MusicMacro
