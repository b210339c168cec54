import MusicMacro.Proofs.Score.Lexeme

/-!
# The scanner takes the longest lexemes

* `Scanner.tokens` : the tokens that a scanner finds in the rest of a text, wherever that rest stands (`tokens_run`);
* `Draft.take` : a draft with one more item; a command that is open takes an item as a whole (`tokens_within_reads`)
  and ends where none follows (`tokens_within_noneAt`);
* `tokens_of_munch` : the scan of a text finds the values of its pieces;
* `tokenize_maximalMunch` : the tokens of a text are the values of its only decomposition into longest lexemes.
-/

namespace MusicMacro

/-! ## Tokens without their places -/

/-- The tokens in the rest of a text. -/
def Scanner.tokens (s : Scanner) (text : List Char) : List Token := (s.run 0 text).filterMap Finding.token?

namespace Scanner

theorem begin_position (p q : Nat) (ch : Char) :
    (begin p ch).1.filterMap Finding.token? = (begin q ch).1.filterMap Finding.token? ∧
      (begin p ch).2 = (begin q ch).2 := by
  unfold begin
  split
  · exact ⟨rfl, rfl⟩
  · exact ⟨rfl, rfl⟩

theorem extend_position (d : Draft) (p q : Nat) (ch : Char) :
    (extend d p ch).1.filterMap Finding.token? = (extend d q ch).1.filterMap Finding.token? ∧
      (extend d p ch).2 = (extend d q ch).2 := by
  obtain ⟨hfound, hnext⟩ := begin_position p q ch
  unfold extend
  split
  · exact ⟨rfl, rfl⟩
  · split
    · exact ⟨rfl, rfl⟩
    · split
      · exact ⟨rfl, rfl⟩
      · refine ⟨?_, hnext⟩
        simp only [List.filterMap_cons]
        rw [hfound]

theorem feed_position (s : Scanner) (p q : Nat) (ch : Char) :
    (s.feed p ch).1.filterMap Finding.token? = (s.feed q ch).1.filterMap Finding.token? ∧
      (s.feed p ch).2 = (s.feed q ch).2 := by
  cases s with
  | idle => exact begin_position p q ch
  | within d => exact extend_position d p q ch
  | tied d => exact ⟨rfl, rfl⟩
  | named d =>
    by_cases hsign : (Accidental.stepOf? ch).isSome
    · rw [feed, feed, if_pos hsign, if_pos hsign]
      exact ⟨rfl, rfl⟩
    · rw [feed, feed, if_neg hsign, if_neg hsign]
      exact extend_position d p q ch

/-- The tokens of a text do not depend on where it stands. -/
theorem tokens_run (s : Scanner) (p : Nat) (text : List Char) :
    (s.run p text).filterMap Finding.token? = s.tokens text := by
  unfold tokens
  generalize 0 = q
  induction text generalizing s p q with
  | nil => rfl
  | cons ch rest ih =>
    obtain ⟨hfound, hnext⟩ := feed_position s p q ch
    simp only [run, List.filterMap_append]
    rw [hfound, hnext, ih _ (p + 1) (q + 1)]

theorem tokens_nil (s : Scanner) : s.tokens [] = (s.draft?.toList.map Draft.finish).filterMap Finding.token? := rfl

theorem tokens_cons (s : Scanner) (ch : Char) (rest : List Char) :
    s.tokens (ch :: rest) = (s.feed 0 ch).1.filterMap Finding.token? ++ (s.feed 0 ch).2.tokens rest := by
  rw [tokens, run, List.filterMap_append, tokens_run]

/-! ## Between commands -/

theorem tokens_idle_skip {ch : Char} (hch : ∀ c : Command, c.toChar ≠ ch) (rest : List Char) :
    idle.tokens (ch :: rest) = idle.tokens rest := by
  rw [tokens_cons, feed, begin, Command.ofChar?_eq_none hch]
  rfl

theorem tokens_idle_step (s : OctaveStep) (rest : List Char) :
    idle.tokens (Command.toChar (.step s) :: rest) = .step s :: idle.tokens rest := by
  rw [tokens_cons, feed, begin, Command.ofChar?_toChar]
  rfl

theorem accumulates_of_not_step {c : Command} (hc : ∀ s, c ≠ .step s) : c.accumulates = true := by
  cases c with
  | step s => exact absurd rfl (hc s)
  | _ => rfl

theorem tokens_idle_command {c : Command} (hc : ∀ s, c ≠ .step s) (rest : List Char) :
    idle.tokens (c.toChar :: rest) = (within { command := c }).tokens rest := by
  rw [tokens_cons, feed, begin, Command.ofChar?_toChar]
  simp only [accumulates_of_not_step hc, if_true, List.filterMap_nil, List.nil_append]

end Scanner

/-! ## Within a command -/

def Draft.take (d : Draft) (i : Item) : Draft :=
  { d with
    accidental := i.step?.elim d.accidental d.accidental.move
    written := i.written.reverse ++ d.written }

theorem isSign_iff (ch : Char) : (Accidental.stepOf? ch).isSome = true ↔ IsSign ch := by
  unfold Accidental.stepOf? IsSign
  split <;> simp_all

theorem stepOf?_eq_none {ch : Char} (h : ¬ IsSign ch) : Accidental.stepOf? ch = none := by
  rwa [← isSign_iff, Option.not_isSome_iff_eq_none] at h

theorem Item.NoneAt.not_extends {ch : Char} {rest : List Char} (h : Item.NoneAt (ch :: rest)) :
    ¬ IsSign ch ∧ ch ≠ '&' ∧ ch ≠ '.' ∧ ch.isDigit = false := by
  refine ⟨?_, ?_, ?_, ?_⟩
  · rintro (rfl | rfl)
    · exact h _ _ .sharp
    · exact h _ _ .flat
  · rintro rfl
    cases rest with
    | nil => exact h _ _ .tieAtEnd
    | cons name rest =>
      by_cases hsign : ∃ sign mid, rest = sign :: mid ∧ IsSign sign
      · obtain ⟨sign, mid, rfl, hsign⟩ := hsign
        exact h _ _ (.tieSigned hsign)
      · refine h _ _ (.tieName fun ch hch hsigned => hsign ?_)
        obtain ⟨mid, rfl⟩ := List.head?_eq_some_iff.1 hch
        exact ⟨ch, mid, rfl, hsigned⟩
  · rintro rfl
    exact h _ _ .dot
  · rw [← Bool.not_eq_true]
    exact fun hd => h _ _ (.digit hd)

namespace Scanner

theorem isDigit_ne {d : Char} (hd : d.isDigit = true) : ¬ IsSign d ∧ d ≠ '&' := by
  refine ⟨?_, ?_⟩
  · rintro (rfl | rfl) <;> exact absurd hd (by decide)
  · rintro rfl
    exact absurd hd (by decide)

/-- The name of a tied note is passed over, and so is the end of a text in its place. -/
theorem tokens_tied (d : Draft) (name : Char) (rest : List Char) :
    (tied d).tokens (name :: rest) = (named d).tokens rest := by
  rw [tokens_cons]
  rfl

theorem tokens_named_sign (d : Draft) {sign : Char} (hsign : IsSign sign) (rest : List Char) :
    (named d).tokens (sign :: rest) = (within d).tokens rest := by
  rw [tokens_cons, feed, if_pos ((isSign_iff sign).2 hsign)]
  rfl

theorem tokens_named (d : Draft) {rest : List Char} (hrest : ∀ ch ∈ rest.head?, ¬ IsSign ch) :
    (named d).tokens rest = (within d).tokens rest := by
  cases rest with
  | nil => rfl
  | cons ch rest =>
    rw [tokens_cons, tokens_cons, feed, feed, if_neg (fun h => hrest ch rfl ((isSign_iff ch).1 h))]

theorem tokens_within_reads (d : Draft) {i : Item} {text rest : List Char} (h : Item.Reads i text rest) :
    (within d).tokens text = (within (d.take i)).tokens rest := by
  have htie : ∀ rest taken, (within d).tokens ('&' :: rest) = (tied (d.take (.tie taken))).tokens rest := by
    intro rest taken
    rw [tokens_cons]
    rfl
  cases h with
  | sharp => rw [tokens_cons]; rfl
  | flat => rw [tokens_cons]; rfl
  | dot => rw [tokens_cons]; rfl
  | digit hd =>
    obtain ⟨hsign, htie⟩ := isDigit_ne hd
    rw [tokens_cons, feed, extend, stepOf?_eq_none hsign]
    simp only [if_neg htie, hd, or_true, if_true]
    rfl
  | tieAtEnd => rw [htie [] []]; rfl
  | @tieName name _ hrest => rw [htie _ [name], tokens_tied, tokens_named _ hrest]
  | @tieSigned name sign _ hsign => rw [htie _ [name, sign], tokens_tied, tokens_named_sign _ hsign]

theorem tokens_within_run (d : Draft) {items : List Item} {text rest : List Char} (h : Item.Run items text rest) :
    (within d).tokens text = (within (items.foldl Draft.take d)).tokens rest := by
  induction h generalizing d with
  | nil => rfl
  | cons first _ ih => rw [tokens_within_reads d first, ih, List.foldl_cons]

/-- Where no item follows, an open command ends, and the text goes on between commands. -/
theorem tokens_within_noneAt (d : Draft) {text : List Char} (h : Item.NoneAt text) :
    (within d).tokens text = d.finish.token?.toList ++ idle.tokens text := by
  cases text with
  | nil =>
    rw [tokens_nil, tokens_nil]
    cases hd : d.finish.token? <;> simp [draft?, hd]
  | cons ch rest =>
    obtain ⟨hsign, htie, hdot, hdigit⟩ := h.not_extends
    rw [tokens_cons, tokens_cons, feed, feed, extend, stepOf?_eq_none hsign]
    simp only [if_neg htie, hdot, hdigit, Bool.false_eq_true, or_self, if_false]
    cases hd : d.finish.token? <;> simp [hd]

end Scanner

/-! ## Values -/

theorem Draft.foldl_take (d : Draft) (items : List Item) :
    (items.foldl Draft.take d).command = d.command ∧
      (items.foldl Draft.take d).accidental = (items.filterMap Item.step?).foldl Accidental.move d.accidental ∧
      (items.foldl Draft.take d).text = d.text ++ items.flatMap Item.written := by
  induction items generalizing d with
  | nil => exact ⟨rfl, rfl, (List.append_nil _).symm⟩
  | cons i items ih =>
    obtain ⟨hcommand, haccidental, htext⟩ := ih (d.take i)
    rw [List.foldl_cons]
    refine ⟨hcommand, ?_, ?_⟩
    · rw [haccidental]
      cases hi : i.step? <;> simp [Draft.take, hi]
    · rw [htext, List.flatMap_cons, ← List.append_assoc]
      congr 1
      simp [Draft.take, Draft.text]

theorem Draft.finishSetting_token? (d : Draft) (s : Setting) :
    (d.finishSetting s).token? = (leadingNumber? d.text).map (.set s) := by
  unfold Draft.finishSetting leadingNumber? Digits.word?
  generalize d.text.takeWhile Char.isDigit = digits
  cases digits with
  | nil => rfl
  | cons ch digits =>
    simp only [List.isEmpty_cons, Bool.false_eq_true, if_false, ne_eq, reduceCtorEq, not_false_eq_true, true_and]
    split <;> rename_i h
    · split at h
      · rename_i hlt
        cases h
        rw [if_pos hlt]
        rfl
      · cases h
    · split at h
      · cases h
      · rename_i hlt
        rw [if_neg hlt]
        rfl

theorem finish_foldl_take {c : Command} (hc : ∀ s, c ≠ .step s) (items : List Item) :
    (items.foldl Draft.take { command := c }).finish.token? = (Piece.lexeme c items).token? := by
  obtain ⟨hcommand, haccidental, htext⟩ := Draft.foldl_take { command := c } items
  unfold Draft.finish
  rw [hcommand]
  cases c with
  | note letter =>
    simp only [Finding.token?, Piece.token?, Item.accidental]
    rw [haccidental, htext]
    rfl
  | rest =>
    simp only [Finding.token?, Piece.token?]
    rw [htext]
    rfl
  | step s => exact absurd rfl (hc s)
  | set s =>
    simp only [Piece.token?]
    rw [Draft.finishSetting_token?, htext]
    rfl

/-! ## The whole text -/

theorem tokens_of_munch {pieces : List Piece} {text : List Char} (h : Munch pieces text) :
    Scanner.idle.tokens text = pieces.filterMap Piece.token? := by
  induction h with
  | nil => rfl
  | skip hch _ ih => rw [Scanner.tokens_idle_skip hch, ih]; rfl
  | step _ ih => rw [Scanner.tokens_idle_step, ih]; rfl
  | @command c items _ _ _ hc run _ ih =>
    obtain ⟨hrun, hend⟩ := Item.longestRun_iff.1 run
    rw [Scanner.tokens_idle_command hc, Scanner.tokens_within_run _ hrun, Scanner.tokens_within_noneAt _ hend,
      finish_foldl_take hc, ih]
    cases hv : (Piece.lexeme c items).token? <;> simp [hv]

/-- **The tokens of a text are the values of its longest lexemes**: the text has exactly one decomposition, its pieces
make up the text, and their values are the tokens. -/
theorem tokenize_maximalMunch (text : List Char) :
    ∃ pieces, Munch pieces text ∧ (∀ others, Munch others text → others = pieces) ∧
      pieces.flatMap Piece.text = text ∧ Score.tokenize text = pieces.filterMap Piece.token? := by
  obtain ⟨pieces, h⟩ := exists_munch text
  exact ⟨pieces, h, fun others h' => h'.unique h, h.flatMap_text, tokens_of_munch h⟩

end MusicMacro
