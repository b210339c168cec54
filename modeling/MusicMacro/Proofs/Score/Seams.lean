import MusicMacro.Proofs.Score.Pieces
import MusicMacro.Proofs.Score.Printing
import MusicMacro.Timeline.Song

/-!
# Texts are scanned part by part

A text can be cut where no item of a command stands, and its parts be scanned apart. What must not be cut is a tie from
the character that it takes with it.

* `Scanner.after`, `Scanner.completed` : what a text leaves of a scanner, and the tokens that are complete before the
  end of the text (`tokens_append`);
* `Scanner.tokens_seam` : the end of a text and a character that no command takes complete the same token;
* `Scanner.after_comma` : a comma ends every command;
* `tokenize_seams` : a text in two parts, and a score in its tracks.
-/

namespace MusicMacro

namespace Scanner

/-- What a text leaves of a scanner. -/
def after (s : Scanner) (text : List Char) : Scanner := text.foldl (fun s ch => (s.feed 0 ch).2) s

/-- The tokens that are complete before the end of a text. -/
def completed (s : Scanner) : List Char → List Token
  | [] => []
  | ch :: rest => (s.feed 0 ch).1.filterMap Finding.token? ++ (s.feed 0 ch).2.completed rest

/-- Whether the last character was a tie that a command has taken. -/
def isTied : Scanner → Bool
  | tied _ => true
  | _ => false

theorem after_append (s : Scanner) (text more : List Char) : s.after (text ++ more) = (s.after text).after more :=
  List.foldl_append

theorem tokens_append (s : Scanner) (text more : List Char) :
    s.tokens (text ++ more) = s.completed text ++ (s.after text).tokens more := by
  induction text generalizing s with
  | nil => rfl
  | cons ch rest ih =>
    rw [List.cons_append, tokens_cons, ih, completed, List.append_assoc]
    rfl

/-- **At a seam** the open command ends, as it does at the end of the text. -/
theorem tokens_seam {s : Scanner} (hs : s.isTied = false) {text : List Char}
    (h : ∀ ch ∈ text.head?, ¬ IsSign ch ∧ ¬ IsWritten ch) : s.tokens text = s.tokens [] ++ idle.tokens text := by
  have hwithin : ∀ d, (within d).tokens text = (within d).tokens [] ++ idle.tokens text := by
    intro d
    rw [tokens_within_noneAt d (Item.noneAt_of_head h), tokens_within_noneAt d (Item.noneAt_of_head (by simp))]
    simp [tokens_nil, draft?]
  cases s with
  | idle => rfl
  | within d => exact hwithin d
  | tied d => cases hs
  | named d =>
    rw [tokens_named d fun ch hch => (h ch hch).1]
    exact hwithin d

theorem comma_not_item : ¬ IsSign ',' ∧ ¬ IsWritten ',' := by
  unfold IsSign IsWritten
  decide

theorem comma_not_command (c : Command) : c.toChar ≠ ',' := by
  intro h
  have hcommand := Command.ofChar?_toChar c
  rw [h] at hcommand
  cases hcommand

theorem after_comma {s : Scanner} (hs : s.isTied = false) : s.after [','] = idle := by
  cases s with
  | tied d => cases hs
  | _ => rfl

end Scanner

namespace Score

theorem tokenize_append {first second : List Char} (hfirst : (Scanner.idle.after first).isTied = false)
    (hsecond : ∀ ch ∈ second.head?, ¬ IsSign ch ∧ ¬ IsWritten ch) :
    tokenize (first ++ second) = tokenize first ++ tokenize second := by
  have hend := Scanner.tokens_append .idle first []
  rw [List.append_nil] at hend
  show Scanner.idle.tokens (first ++ second) = Scanner.idle.tokens first ++ Scanner.idle.tokens second
  rw [Scanner.tokens_append, Scanner.tokens_seam hfirst hsecond, hend, List.append_assoc]

theorem tokenize_comma (text : List Char) : tokenize (',' :: text) = tokenize text :=
  Scanner.tokens_idle_skip Scanner.comma_not_command text

/-- No comma of a text stands right after a tie that a command has taken. -/
def CommasFree (text : List Char) : Prop :=
  ∀ before later, text = before ++ ',' :: later → (Scanner.idle.after before).isTied = false

theorem CommasFree.later {piece text : List Char} (h : CommasFree (piece ++ ',' :: text)) : CommasFree text := by
  rintro before later rfl
  have hall := h (piece ++ ',' :: before) later (by simp)
  have hpiece := Scanner.after_comma (h piece _ rfl)
  rwa [← List.singleton_append, Scanner.after_append, Scanner.after_append, hpiece] at hall

theorem flatten_tokenize {text : List Char} {tracks : List (List Char)} (hcut : Separated ',' text tracks)
    (h : CommasFree text) : (tracks.map tokenize).flatten = tokenize text := by
  induction hcut with
  | last _ => simp
  | @next piece text tracks _ _ ih =>
    have hseam : tokenize (piece ++ ',' :: text) = tokenize piece ++ tokenize (',' :: text) :=
      tokenize_append (h piece text rfl) (by simpa using Scanner.comma_not_item)
    rw [List.map_cons, List.flatten_cons, ih h.later, hseam, tokenize_comma]

end Score

/-- **Texts are scanned part by part.** A text whose scan does not end right after a tie is scanned apart from what
follows it, if that does not begin with a sign, a digit, a dot or a tie. Where no comma stands right after a tie, the
tracks of a score have together the tokens of the whole text. -/
theorem tokenize_seams :
    (∀ first second : List Char, (Scanner.idle.after first).isTied = false →
      (∀ ch ∈ second.head?, ¬ IsSign ch ∧ ¬ IsWritten ch) →
      Score.tokenize (first ++ second) = Score.tokenize first ++ Score.tokenize second) ∧
    ∀ text : List Char, Score.CommasFree text → (Song.tokenize text).flatten = Score.tokenize text :=
  ⟨fun _ _ hfirst hsecond => Score.tokenize_append hfirst hsecond,
    fun _ h => Score.flatten_tokenize (separated_iff.2 rfl) h⟩

/-- The first text ends between the name of a tied note and its sign, and a comma follows. -/
theorem tokenize_seams_named :
    (Scanner.idle.after ['c', '&', 'd']).isTied = false ∧
      (∀ ch ∈ [',', 'e'].head?, ¬ IsSign ch ∧ ¬ IsWritten ch) ∧ Score.CommasFree ['c', '&', 'd', ',', 'e'] ∧
      Score.tokenize ['c', '&', 'd', ',', 'e'] = Score.tokenize ['c', '&', 'd'] ++ Score.tokenize [',', 'e'] ∧
      (Song.tokenize ['c', '&', 'd', ',', 'e']).flatten = Score.tokenize ['c', '&', 'd', ',', 'e'] := by
  have hhead : ∀ ch ∈ [',', 'e'].head?, ¬ IsSign ch ∧ ¬ IsWritten ch := by
    intro ch hch
    cases hch
    exact Scanner.comma_not_item
  have hcommas : Score.CommasFree ['c', '&', 'd', ',', 'e'] := by
    intro before later h
    match before with
    | [] | [_] | [_, _] => simp at h
    | [_, _, _] =>
      cases h
      rfl
    | [_, _, _, _] => simp at h
    | _ :: _ :: _ :: _ :: _ :: before => simp at h
  exact ⟨rfl, hhead, hcommas, tokenize_seams.1 ['c', '&', 'd'] _ rfl hhead, tokenize_seams.2 _ hcommas⟩

/-- A tie takes even the comma. -/
example : Score.tokenize ['c', '&', ',', '8'] ≠ (Song.tokenize ['c', '&', ',', '8']).flatten := by decide

end MusicMacro
