import MusicMacro.Score.Scan

/-!
# Lexemes

A score is cut into lexemes from left to right, and each lexeme is as long as it can be. This is said here without a
scanner.

* `Command.toChar` : the character that names a command;
* `Item`, `Item.Reads` : the parts that may follow the name, and which of them stands at the start of a text;
* `Item.LongestRun` : as many items as can be read one after the other (`LongestRun.unique`, `exists_longestRun`);
* `Piece`, `Munch` : the lexemes and the skipped characters of a text; `exists_munch`, `Munch.unique`;
* `Piece.token?` : the value of a piece; `Munch.flatMap_text` : the pieces make up the text.
-/

namespace MusicMacro

/-! ## Names of commands -/

def Command.toChar : Command → Char
  | .note letter => letter.toChar
  | .rest => 'r'
  | .step .up => '>'
  | .step .down => '<'
  | .set .octave => 'o'
  | .set .length => 'l'
  | .set .tempo => 't'
  | .set .volume => 'v'

theorem Command.ofChar?_toChar (c : Command) : Command.ofChar? c.toChar = some c := by
  rcases c with l | _ | s | s
  · cases l <;> rfl
  · rfl
  · cases s <;> rfl
  · cases s <;> rfl

theorem Command.toChar_of_ofChar? {ch : Char} {c : Command} (h : Command.ofChar? ch = some c) : c.toChar = ch := by
  unfold Command.ofChar? at h
  split at h
  case h_8 =>
    obtain ⟨l, hl, rfl⟩ := Option.map_eq_some_iff.1 h
    exact Letter.toChar_of_ofChar? hl
  all_goals
    cases h
    rfl

theorem Command.ofChar?_eq_none {ch : Char} (h : ∀ c : Command, c.toChar ≠ ch) : Command.ofChar? ch = none := by
  cases hc : Command.ofChar? ch with
  | none => rfl
  | some c => exact absurd (Command.toChar_of_ofChar? hc) (h c)

theorem Command.toChar_injective {c d : Command} (h : c.toChar = d.toChar) : c = d := by
  have hc := Command.ofChar?_toChar c
  rw [h, Command.ofChar?_toChar d] at hc
  exact (Option.some.inj hc).symm

/-! ## Items -/

def IsSign (ch : Char) : Prop := ch = '+' ∨ ch = '-'

/-- A part of what stands after the name of a command. -/
inductive Item where
  | sharp
  | flat
  | digit (d : Char)
  | dot
  /-- A tie, with the characters that it takes with it. -/
  | tie (taken : List Char)
  deriving DecidableEq, Repr

namespace Item

def text : Item → List Char
  | sharp => ['+']
  | flat => ['-']
  | digit d => [d]
  | dot => ['.']
  | tie taken => '&' :: taken

/-- What an item leaves in the text of a duration or of a number. -/
def written : Item → List Char
  | digit d => [d]
  | dot => ['.']
  | tie _ => ['&']
  | _ => []

/-- The half-steps of an item; a sign that a tie has taken does not count. -/
def step? : Item → Option Int
  | sharp => some 1
  | flat => some (-1)
  | _ => none

/-- `Reads i text rest` : the item `i` stands at the start of `text`, and `rest` comes after it. A tie takes the next
character, whatever it is, and one sign after that. -/
inductive Reads : Item → List Char → List Char → Prop where
  | sharp {rest : List Char} : Reads .sharp ('+' :: rest) rest
  | flat {rest : List Char} : Reads .flat ('-' :: rest) rest
  | digit {d : Char} {rest : List Char} (hd : d.isDigit = true) : Reads (.digit d) (d :: rest) rest
  | dot {rest : List Char} : Reads .dot ('.' :: rest) rest
  | tieAtEnd : Reads (.tie []) ['&'] []
  | tieName {name : Char} {rest : List Char} (hrest : ∀ ch ∈ rest.head?, ¬ IsSign ch) :
      Reads (.tie [name]) ('&' :: name :: rest) rest
  | tieSigned {name sign : Char} {rest : List Char} (hsign : IsSign sign) :
      Reads (.tie [name, sign]) ('&' :: name :: sign :: rest) rest

theorem Reads.text_append {i : Item} {text rest : List Char} (h : Reads i text rest) : i.text ++ rest = text := by
  cases h <;> rfl

theorem Reads.length_lt {i : Item} {text rest : List Char} (h : Reads i text rest) : rest.length < text.length := by
  have hsome : 0 < i.text.length := by cases i <;> simp [Item.text]
  rw [← h.text_append, List.length_append]
  omega

/-- A text starts with at most one item. -/
theorem Reads.unique {i j : Item} {text rest rest' : List Char} (h : Reads i text rest) (h' : Reads j text rest') :
    i = j ∧ rest = rest' := by
  cases h with
  | sharp =>
    cases h' with
    | sharp => exact ⟨rfl, rfl⟩
    | digit hd => exact absurd hd (by decide)
  | flat =>
    cases h' with
    | flat => exact ⟨rfl, rfl⟩
    | digit hd => exact absurd hd (by decide)
  | digit hd =>
    cases h' with
    | digit => exact ⟨rfl, rfl⟩
    | _ => exact absurd hd (by decide)
  | dot =>
    cases h' with
    | dot => exact ⟨rfl, rfl⟩
    | digit hd => exact absurd hd (by decide)
  | tieAtEnd =>
    cases h' with
    | tieAtEnd => exact ⟨rfl, rfl⟩
    | digit hd => exact absurd hd (by decide)
  | tieName hrest =>
    cases h' with
    | tieName => exact ⟨rfl, rfl⟩
    | tieSigned hsign => exact absurd hsign (hrest _ rfl)
    | digit hd => exact absurd hd (by decide)
  | tieSigned hsign =>
    cases h' with
    | tieSigned => exact ⟨rfl, rfl⟩
    | tieName hrest => exact absurd hsign (hrest _ rfl)
    | digit hd => exact absurd hd (by decide)

/-! ## Runs of items -/

/-- `Run items text rest` : the items stand one after the other at the start of `text`, and `rest` comes after them.
-/
inductive Run : List Item → List Char → List Char → Prop where
  | nil {rest : List Char} : Run [] rest rest
  | cons {i : Item} {items : List Item} {text mid rest : List Char} (first : Reads i text mid)
      (later : Run items mid rest) : Run (i :: items) text rest

/-- A run of items at the start of a text such that no other one there is longer. -/
def LongestRun (items : List Item) (text rest : List Char) : Prop :=
  Run items text rest ∧ ∀ items' rest', Run items' text rest' → items'.length ≤ items.length

/-- No item stands at the start of a text. -/
def NoneAt (text : List Char) : Prop := ∀ i rest, ¬ Reads i text rest

theorem Run.snoc {items : List Item} {i : Item} {text mid rest : List Char} (h : Run items text mid)
    (hi : Reads i mid rest) : Run (items ++ [i]) text rest := by
  induction h with
  | nil => exact .cons hi .nil
  | cons first _ ih => exact .cons first (ih hi)

theorem Run.text_append {items : List Item} {text rest : List Char} (h : Run items text rest) :
    items.flatMap Item.text ++ rest = text := by
  induction h with
  | nil => rfl
  | cons first _ ih => rw [List.flatMap_cons, List.append_assoc, ih, first.text_append]

theorem Run.length_le {items : List Item} {text rest : List Char} (h : Run items text rest) :
    rest.length ≤ text.length := by
  rw [← h.text_append, List.length_append]
  omega

/-- Where a run stops because no item follows, every other run has stopped before. -/
theorem Run.length_le_of_noneAt {items items' : List Item} {text rest rest' : List Char} (h : Run items text rest)
    (hend : NoneAt rest) (h' : Run items' text rest') : items'.length ≤ items.length := by
  induction h generalizing items' with
  | nil =>
    cases h' with
    | nil => exact Nat.le_refl _
    | cons first _ => exact absurd first (hend _ _)
  | cons first _ ih =>
    cases h' with
    | nil => exact Nat.zero_le _
    | cons first' later' =>
      obtain ⟨-, rfl⟩ := first.unique first'
      exact Nat.succ_le_succ (ih hend later')

theorem longestRun_iff {items : List Item} {text rest : List Char} :
    LongestRun items text rest ↔ Run items text rest ∧ NoneAt rest := by
  constructor
  · rintro ⟨hrun, hmax⟩
    refine ⟨hrun, fun i rest' hi => ?_⟩
    have := hmax _ _ (hrun.snoc hi)
    simp only [List.length_append, List.length_singleton] at this
    omega
  · rintro ⟨hrun, hend⟩
    exact ⟨hrun, fun items' rest' h' => hrun.length_le_of_noneAt hend h'⟩

theorem LongestRun.unique {items items' : List Item} {text rest rest' : List Char}
    (h : LongestRun items text rest) (h' : LongestRun items' text rest') : items = items' ∧ rest = rest' := by
  obtain ⟨hrun, hend⟩ := longestRun_iff.1 h
  obtain ⟨hrun', hend'⟩ := longestRun_iff.1 h'
  clear h h'
  induction hrun generalizing items' with
  | nil =>
    cases hrun' with
    | nil => exact ⟨rfl, rfl⟩
    | cons first _ => exact absurd first (hend _ _)
  | cons first _ ih =>
    cases hrun' with
    | nil => exact absurd first (hend' _ _)
    | cons first' later' =>
      obtain ⟨rfl, rfl⟩ := first.unique first'
      obtain ⟨rfl, rfl⟩ := ih hend later'
      exact ⟨rfl, rfl⟩

theorem exists_longestRun (text : List Char) : ∃ items rest, LongestRun items text rest := by
  induction text using WellFounded.induction (r := fun x y : List Char => x.length < y.length) with
  | hwf => exact (measure List.length).wf
  | h text ih =>
    by_cases hnone : NoneAt text
    · exact ⟨[], text, longestRun_iff.2 ⟨.nil, hnone⟩⟩
    · obtain ⟨i, mid, hi⟩ : ∃ i mid, Reads i text mid := by
        simpa [NoneAt] using hnone
      obtain ⟨items, rest, hlong⟩ := ih mid hi.length_lt
      obtain ⟨hrun, hend⟩ := longestRun_iff.1 hlong
      exact ⟨i :: items, rest, longestRun_iff.2 ⟨.cons hi hrun, hend⟩⟩

end Item

/-! ## Pieces -/

/-- A part of a score. -/
inductive Piece where
  | lexeme (command : Command) (items : List Item)
  | skipped (character : Char)
  deriving DecidableEq, Repr

def Piece.text : Piece → List Char
  | lexeme command items => command.toChar :: items.flatMap Item.text
  | skipped character => [character]

/-- `Munch pieces text` : reading from left to right, the pieces are those of `text`. The octave steps stand alone,
every other command takes the longest run of items, and a character that names no command is skipped. -/
inductive Munch : List Piece → List Char → Prop where
  | nil : Munch [] []
  | skip {ch : Char} {pieces : List Piece} {rest : List Char} (hch : ∀ c : Command, c.toChar ≠ ch)
      (later : Munch pieces rest) : Munch (.skipped ch :: pieces) (ch :: rest)
  | step {s : OctaveStep} {pieces : List Piece} {rest : List Char} (later : Munch pieces rest) :
      Munch (.lexeme (.step s) [] :: pieces) (Command.toChar (.step s) :: rest)
  | command {c : Command} {items : List Item} {pieces : List Piece} {text rest : List Char}
      (hc : ∀ s, c ≠ .step s) (run : Item.LongestRun items text rest) (later : Munch pieces rest) :
      Munch (.lexeme c items :: pieces) (c.toChar :: text)

/-- The number that the digits at the start of a text write, if there are any and it fits into 32 bits. -/
def leadingNumber? (text : List Char) : Option UInt32 :=
  let digits := text.takeWhile Char.isDigit
  if digits ≠ [] ∧ Digits.value digits < UInt32.size then some (UInt32.ofNat (Digits.value digits)) else none

/-- The half-steps of items, added up from left to right and stopped at the ends of the 32-bit range. -/
def Item.accidental (items : List Item) : Accidental := (items.filterMap Item.step?).foldl Accidental.move .natural

def Piece.token? : Piece → Option Token
  | lexeme (.note letter) items => some (.note ⟨letter, Item.accidental items⟩ ⟨items.flatMap Item.written⟩)
  | lexeme .rest items => some (.rest ⟨items.flatMap Item.written⟩)
  | lexeme (.step s) _ => some (.step s)
  | lexeme (.set s) items => (leadingNumber? (items.flatMap Item.written)).map (.set s)
  | skipped _ => none

theorem Munch.flatMap_text {pieces : List Piece} {text : List Char} (h : Munch pieces text) :
    pieces.flatMap Piece.text = text := by
  induction h with
  | nil => rfl
  | skip _ _ ih => rw [List.flatMap_cons, ih]; rfl
  | step _ ih => rw [List.flatMap_cons, ih]; rfl
  | command _ run _ ih => rw [List.flatMap_cons, ih, Piece.text, List.cons_append, run.1.text_append]

theorem Munch.unique {pieces pieces' : List Piece} {text : List Char} (h : Munch pieces text)
    (h' : Munch pieces' text) : pieces = pieces' := by
  induction h generalizing pieces' with
  | nil => cases h'; rfl
  | skip hch _ ih =>
    cases h' with
    | skip _ later' => rw [ih later']
    | step => exact absurd rfl (hch _)
    | command => exact absurd rfl (hch _)
  | @step s _ rest _ ih =>
    generalize hname : Command.toChar (.step s) = name at h'
    cases h' with
    | skip hch' => exact absurd hname (hch' _)
    | step later' =>
      cases Command.toChar_injective hname
      rw [ih later']
    | command hc' => exact absurd (Command.toChar_injective hname).symm (hc' s)
  | @command c _ _ text _ hc run _ ih =>
    generalize hname : c.toChar = name at h'
    cases h' with
    | skip hch' => exact absurd hname (hch' _)
    | step => exact absurd (Command.toChar_injective hname) (hc _)
    | command _ run' later' =>
      cases Command.toChar_injective hname
      obtain ⟨rfl, rfl⟩ := run.unique run'
      rw [ih later']

theorem exists_munch (text : List Char) : ∃ pieces, Munch pieces text := by
  induction text using WellFounded.induction (r := fun x y : List Char => x.length < y.length) with
  | hwf => exact (measure List.length).wf
  | h text ih =>
    cases text with
    | nil => exact ⟨[], .nil⟩
    | cons ch text =>
      by_cases hnamed : ∃ c : Command, c.toChar = ch
      · obtain ⟨c, rfl⟩ := hnamed
        by_cases hstep : ∃ s, c = .step s
        · obtain ⟨s, rfl⟩ := hstep
          obtain ⟨pieces, hpieces⟩ := ih text (Nat.lt_succ_self _)
          exact ⟨_, .step hpieces⟩
        · obtain ⟨items, rest, hrun⟩ := Item.exists_longestRun text
          obtain ⟨pieces, hpieces⟩ := ih rest (Nat.lt_succ_of_le hrun.1.length_le)
          exact ⟨_, .command (fun s hs => hstep ⟨s, hs⟩) hrun hpieces⟩
      · obtain ⟨pieces, hpieces⟩ := ih text (Nat.lt_succ_self _)
        exact ⟨_, .skip (fun c hc => hnamed ⟨c, hc⟩) hpieces⟩

end MusicMacro
