import Mathlib.Data.List.TakeWhile
import Mathlib.Tactic.SplitIfs
import MusicMacro.Proofs.Score.MaximalMunch

/-!
# Printed tokens are read back

Tokens are printed as a score that is read back as those tokens. A tie takes the next character with it, so that a
filler stands after every printed tie.

* `Token.print`, `Score.print` : tokens as a score;
* `Token.Printable` : what is written after a note or a rest is made of digits, dots and ties;
* `Item.run_print`, `Item.run_signs` : what is printed after the name of a command is read as a run of items;
* `munch_print` : the lexemes of a printed score are those of its tokens, one for each;
* `Munch.printable` : the tokens of any text can be printed;
* `tokenize_print` : both together, and what is printed for the tokens of a text has the same tokens.
-/

namespace MusicMacro

def IsWritten (ch : Char) : Prop := ch.isDigit = true ∨ ch = '.' ∨ ch = '&'

/-- A text of digits, dots and ties, in which a name follows every tie. -/
def Duration.print (d : Duration) : List Char := d.text.flatMap fun ch => if ch = '&' then ['&', 'c'] else [ch]

def Token.print : Token → List Char
  | .note pitch duration => pitch.spelling ++ duration.print
  | .rest duration => 'r' :: duration.print
  | .step s => [Command.toChar (.step s)]
  | .set s value => Command.toChar (.set s) :: Digits.ofNat value.toNat

def Score.print (tokens : List Token) : List Char := tokens.flatMap Token.print

def Token.Printable : Token → Prop
  | .note _ duration | .rest duration => ∀ ch ∈ duration.text, IsWritten ch
  | .step _ | .set _ _ => True

/-! ## Where a run of items stops -/

theorem Item.noneAt_of_head {text : List Char}
    (h : ∀ ch ∈ text.head?, ¬ IsSign ch ∧ ¬ IsWritten ch) : Item.NoneAt text := by
  intro i rest hreads
  cases hreads with
  | sharp => exact (h _ rfl).1 (.inl rfl)
  | flat => exact (h _ rfl).1 (.inr rfl)
  | digit hd => exact (h _ rfl).2 (.inl hd)
  | dot => exact (h _ rfl).2 (.inr (.inl rfl))
  | tieAtEnd | tieName | tieSigned => exact (h _ rfl).2 (.inr (.inr rfl))

theorem IsWritten.not_isSign {ch : Char} (h : IsWritten ch) : ¬ IsSign ch := by
  rintro (rfl | rfl)
  · revert h; unfold IsWritten; decide
  · revert h; unfold IsWritten; decide

theorem Command.toChar_not_item (c : Command) : ¬ IsSign c.toChar ∧ ¬ IsWritten c.toChar := by
  unfold IsSign IsWritten
  rcases c with l | _ | s | s
  · cases l <;> decide
  · decide
  · cases s <;> decide
  · cases s <;> decide

/-- The name of a command ends whatever stands before it. -/
theorem Score.head?_print {tokens : List Token} {ch : Char} (h : ch ∈ (Score.print tokens).head?) :
    ∃ c : Command, c.toChar = ch := by
  cases tokens with
  | nil => cases h
  | cons t rest =>
    rw [Score.print, List.flatMap_cons] at h
    cases t with
    | note pitch duration => exact ⟨.note pitch.letter, Option.some.inj h⟩
    | rest duration => exact ⟨.rest, Option.some.inj h⟩
    | step s => exact ⟨.step s, Option.some.inj h⟩
    | set s value => exact ⟨.set s, Option.some.inj h⟩

/-! ## Items of what is printed -/

namespace Item

def ofWritten (ch : Char) : Item :=
  if ch = '&' then .tie ['c'] else if ch = '.' then .dot else .digit ch

theorem step?_ofWritten (ch : Char) : (ofWritten ch).step? = none := by
  unfold ofWritten
  split_ifs <;> rfl

theorem written_ofWritten (ch : Char) : (ofWritten ch).written = [ch] := by
  unfold ofWritten
  split_ifs with htie hdot
  · rw [htie]; rfl
  · rw [hdot]; rfl
  · rfl

theorem Run.append {items more : List Item} {text mid rest : List Char} (h : Run items text mid)
    (h' : Run more mid rest) : Run (items ++ more) text rest := by
  induction h with
  | nil => exact h'
  | cons first _ ih => exact .cons first (ih h')

theorem run_replicate {i : Item} {ch : Char} (hi : ∀ rest, Reads i (ch :: rest) rest) (n : Nat) (rest : List Char) :
    Run (List.replicate n i) (List.replicate n ch ++ rest) rest := by
  induction n with
  | zero => exact .nil
  | succ n ih => exact .cons (hi _) ih

def signs (a : Accidental) : List Item := List.replicate a.steps.natAbs (if 0 ≤ a.steps then .sharp else .flat)

theorem run_signs (a : Accidental) (rest : List Char) : Run (signs a) (a.signs ++ rest) rest := by
  unfold signs Accidental.signs
  split_ifs
  · exact run_replicate (fun _ => .sharp) _ rest
  · exact run_replicate (fun _ => .flat) _ rest

theorem run_print {d : Duration} (h : ∀ ch ∈ d.text, IsWritten ch) {rest : List Char}
    (hrest : ∀ ch ∈ rest.head?, ¬ IsSign ch) : Run (d.text.map ofWritten) (d.print ++ rest) rest := by
  obtain ⟨text⟩ := d
  unfold Duration.print
  induction text with
  | nil => exact .nil
  | cons ch text ih =>
    have hch : IsWritten ch := h ch List.mem_cons_self
    have hlater : ∀ x ∈ text, IsWritten x := fun x hx => h x (List.mem_cons_of_mem _ hx)
    simp only [List.map_cons, List.flatMap_cons, List.append_assoc]
    refine .cons ?_ (ih hlater)
    -- no sign follows the filler, neither from the same duration nor from what comes after it
    have hnext : ∀ x ∈ ((text.flatMap fun ch => if ch = '&' then ['&', 'c'] else [ch]) ++ rest).head?, ¬ IsSign x := by
      intro x hx
      cases text with
      | nil => exact hrest x hx
      | cons y text =>
        have hy : IsWritten y := hlater y List.mem_cons_self
        have hxy : y = x := by
          by_cases htie : y = '&'
          · simpa [htie] using hx
          · simpa [htie] using hx
        exact hxy ▸ hy.not_isSign
    unfold ofWritten
    split_ifs with htie hdot
    · exact .tieName hnext
    · rw [hdot]
      exact .dot
    · refine .digit ?_
      rcases hch with hdigit | hdot' | htie'
      · exact hdigit
      · exact absurd hdot' hdot
      · exact absurd htie' htie

theorem print_of_digits {digits : List Char} (h : ∀ ch ∈ digits, ch.isDigit = true) :
    (Duration.mk digits).print = digits := by
  unfold Duration.print
  induction digits with
  | nil => rfl
  | cons ch digits ih =>
    have hch : ch ≠ '&' := (Scanner.isDigit_ne (h ch List.mem_cons_self)).2
    rw [List.flatMap_cons, if_neg hch, ih fun x hx => h x (List.mem_cons_of_mem _ hx)]
    rfl

end Item

/-! ## Values -/

/-- Equal steps, one half-step each, add up to an accidental that stops at the end of the range. -/
theorem Accidental.foldl_move_replicate {s : Int} (hs : s = 1 ∨ s = -1) (n : Nat) (a : Accidental) :
    (List.replicate n s).foldl move a = saturate (a.steps + n * s) := by
  induction n generalizing a with
  | zero => simp [a.saturate_steps]
  | succ n ih =>
    have hlower := a.lower
    have hupper := a.upper
    -- a step that is stopped at an end of the range is followed by steps of the same sign only
    rw [List.replicate_succ, List.foldl_cons, ih]
    simp only [move, saturate, mk.injEq]
    rcases hs with rfl | rfl <;> omega

theorem Accidental.saturate_natAbs (a : Accidental) :
    saturate (natural.steps + a.steps.natAbs * if 0 ≤ a.steps then 1 else -1) = a := by
  have hcount : natural.steps + (a.steps.natAbs * if 0 ≤ a.steps then 1 else -1) = a.steps := by
    show 0 + _ = _
    split_ifs <;> omega
  rw [hcount, a.saturate_steps]

theorem Item.accidental_signs (a : Accidental) (text : List Char) :
    Item.accidental (Item.signs a ++ text.map Item.ofWritten) = a := by
  have hnone : (text.map Item.ofWritten).filterMap Item.step? = [] := by
    simp [List.filterMap_map, Item.step?_ofWritten]
  have hsteps : (if 0 ≤ a.steps then Item.sharp else .flat).step? = some (if 0 ≤ a.steps then 1 else -1) := by
    split_ifs <;> rfl
  unfold Item.accidental Item.signs
  rw [List.filterMap_append, hnone, List.append_nil, List.filterMap_replicate_of_some hsteps,
    Accidental.foldl_move_replicate (ite_eq_or_eq _ _ _), a.saturate_natAbs]

theorem Item.written_signs (a : Accidental) (text : List Char) :
    (Item.signs a ++ text.map Item.ofWritten).flatMap Item.written = text := by
  have hsigns : (Item.signs a).flatMap Item.written = [] := by
    unfold Item.signs
    rw [List.flatMap_eq_nil_iff]
    intro i hi
    rw [List.eq_of_mem_replicate hi]
    split_ifs <;> rfl
  rw [List.flatMap_append, hsigns, List.nil_append, List.flatMap_map]
  simp only [Item.written_ofWritten]
  exact List.flatMap_singleton' text

theorem leadingNumber?_ofNat (w : UInt32) : leadingNumber? (Digits.ofNat w.toNat) = some w := by
  have hdigits : (Digits.ofNat w.toNat).takeWhile Char.isDigit = Digits.ofNat w.toNat :=
    List.takeWhile_eq_self_iff.2 fun ch hch => Digits.isDigit_of_mem_ofNat hch
  have hsome : Digits.ofNat w.toNat ≠ [] := Nat.toDigits_ne_nil
  simp only [leadingNumber?, hdigits]
  rw [Digits.value_ofNat, if_pos ⟨hsome, w.toNat_lt⟩, UInt32.ofNat_toNat]

/-! ## The lexemes of a printed score -/

def Token.piece : Token → Piece
  | .note pitch duration =>
    .lexeme (.note pitch.letter) (Item.signs pitch.accidental ++ duration.text.map Item.ofWritten)
  | .rest duration => .lexeme .rest (duration.text.map Item.ofWritten)
  | .step s => .lexeme (.step s) []
  | .set s value => .lexeme (.set s) ((Digits.ofNat value.toNat).map Item.ofWritten)

theorem Token.token?_piece (t : Token) : t.piece.token? = some t := by
  cases t with
  | note pitch duration => simp only [piece, Piece.token?, Item.accidental_signs, Item.written_signs]
  | rest duration =>
    have hwritten := Item.written_signs .natural duration.text
    simp only [piece, Piece.token?]
    exact congrArg (fun text => some (Token.rest ⟨text⟩)) hwritten
  | step s => rfl
  | set s value =>
    have hwritten := Item.written_signs .natural (Digits.ofNat value.toNat)
    simp only [piece, Piece.token?]
    rw [show (List.map Item.ofWritten (Digits.ofNat value.toNat)).flatMap Item.written = Digits.ofNat value.toNat
      from hwritten, leadingNumber?_ofNat]
    rfl

theorem munch_print {tokens : List Token} (h : ∀ t ∈ tokens, t.Printable) :
    Munch (tokens.map Token.piece) (Score.print tokens) := by
  induction tokens with
  | nil => exact .nil
  | cons t rest ih =>
    have ht : t.Printable := h t List.mem_cons_self
    have hlater := ih fun x hx => h x (List.mem_cons_of_mem _ hx)
    have hhead : ∀ ch ∈ (Score.print rest).head?, ¬ IsSign ch ∧ ¬ IsWritten ch := by
      intro ch hch
      obtain ⟨c, rfl⟩ := Score.head?_print hch
      exact c.toChar_not_item
    have hlong : ∀ {items text}, Item.Run items text (Score.print rest) →
        Item.LongestRun items text (Score.print rest) :=
      fun hrun => Item.longestRun_iff.2 ⟨hrun, Item.noneAt_of_head hhead⟩
    have hsign : ∀ ch ∈ (Score.print rest).head?, ¬ IsSign ch := fun ch hch => (hhead ch hch).1
    rw [List.map_cons, Score.print, List.flatMap_cons]
    cases t with
    | note pitch duration =>
      have hrun := (Item.run_signs pitch.accidental _).append (Item.run_print ht hsign)
      rw [← List.append_assoc] at hrun
      exact .command (fun s => nofun) (hlong hrun) hlater
    | rest duration => exact .command (fun s => nofun) (hlong (Item.run_print ht hsign)) hlater
    | step s => exact .step hlater
    | set s value =>
      have hdigits : ∀ ch ∈ Digits.ofNat value.toNat, ch.isDigit = true := fun ch hch =>
        Digits.isDigit_of_mem_ofNat hch
      have hrun := Item.run_print (d := ⟨Digits.ofNat value.toNat⟩) (fun ch hch => .inl (hdigits ch hch)) hsign
      rw [Item.print_of_digits hdigits] at hrun
      exact .command (fun s => nofun) (hlong hrun) hlater

theorem tokens_print {tokens : List Token} (h : ∀ t ∈ tokens, t.Printable) :
    Score.tokenize (Score.print tokens) = tokens := by
  have hscan : Score.tokenize (Score.print tokens) = (tokens.map Token.piece).filterMap Piece.token? :=
    tokens_of_munch (munch_print h)
  rw [hscan, List.filterMap_map, Function.comp_def]
  simp only [Token.token?_piece, List.filterMap_some]

/-! ## The tokens of a text -/

theorem Item.Run.written {items : List Item} {text rest : List Char} (h : Item.Run items text rest) :
    ∀ ch ∈ items.flatMap Item.written, IsWritten ch := by
  induction h with
  | nil => simp
  | cons first _ ih =>
    intro ch hch
    rw [List.flatMap_cons, List.mem_append] at hch
    rcases hch with hfirst | hlater
    · cases first with
      | sharp | flat => cases hfirst
      | digit hd => exact .inl (List.mem_singleton.1 hfirst ▸ hd)
      | dot => exact .inr (.inl (List.mem_singleton.1 hfirst))
      | tieAtEnd | tieName | tieSigned => exact .inr (.inr (List.mem_singleton.1 hfirst))
    · exact ih ch hlater

theorem Munch.printable {pieces : List Piece} {text : List Char} (h : Munch pieces text) :
    ∀ t ∈ pieces.filterMap Piece.token?, t.Printable := by
  induction h with
  | nil => simp
  | skip _ _ ih => exact ih
  | step _ ih =>
    intro t ht
    rcases List.mem_cons.1 ht with rfl | ht
    · trivial
    · exact ih t ht
  | @command c items _ _ _ _ run _ ih =>
    intro t ht
    rw [List.filterMap_cons] at ht
    have hwritten := run.1.written
    cases c with
    | note letter =>
      rcases List.mem_cons.1 ht with rfl | ht
      · exact hwritten
      · exact ih t ht
    | rest =>
      rcases List.mem_cons.1 ht with rfl | ht
      · exact hwritten
      · exact ih t ht
    | step s =>
      rcases List.mem_cons.1 ht with rfl | ht
      · trivial
      · exact ih t ht
    | set s =>
      simp only [Piece.token?] at ht
      cases hvalue : leadingNumber? (items.flatMap Item.written) with
      | none =>
        rw [hvalue] at ht
        exact ih t ht
      | some value =>
        rw [hvalue] at ht
        rcases List.mem_cons.1 ht with rfl | ht
        · trivial
        · exact ih t ht

theorem printable_tokenize (text : List Char) : ∀ t ∈ Score.tokenize text, t.Printable := by
  obtain ⟨pieces, h⟩ := exists_munch text
  have hscan : Score.tokenize text = pieces.filterMap Piece.token? := tokens_of_munch h
  rw [hscan]
  exact h.printable

/-- **Printed tokens are read back**, whatever the accidentals and the numbers in them are, and every text has tokens
that can be printed: the score that is printed for them has the same tokens as the text. -/
theorem tokenize_print :
    (∀ tokens : List Token, (∀ t ∈ tokens, t.Printable) → Score.tokenize (Score.print tokens) = tokens) ∧
      ∀ text : List Char, (∀ t ∈ Score.tokenize text, t.Printable) ∧
        Score.tokenize (Score.print (Score.tokenize text)) = Score.tokenize text :=
  ⟨fun _ h => tokens_print h, fun text => ⟨printable_tokenize text, tokens_print (printable_tokenize text)⟩⟩

example : Score.print [.note ⟨.c, .saturate 2⟩ ⟨['4', '&', '8', '&']⟩, .step .up, .set .tempo 120] =
    "c++4&c8&c>t120".toList := by decide

end MusicMacro
