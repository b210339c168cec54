import MusicMacro.Timeline.Song

/-!
# Tracks do not interfere

The tracks of a score share nothing but the defaults and the origin. What is written in one of them, a tie at its very
end or a text without a single command included, is not heard in another.

* `Score.join` : the score of some tracks, with commas between them; `Score.tracks_join` : it is cut into these again;
* `Song.trackAt` : a track of its own, at a place among the tracks;
* `Song.tracks_compile` : the tracks of a song are made one by one;
* `tracks_apart` : each of them is what it would be alone, whatever stands in the others.
-/

namespace MusicMacro

def Score.join (sources : List (List Char)) : List Char := [','].intercalate sources

theorem Score.tracks_join {sources : List (List Char)} (hsome : sources ≠ [])
    (hcommas : ∀ source ∈ sources, ',' ∉ source) : Score.tracks (Score.join sources) = sources :=
  List.splitOn_intercalate ',' hcommas hsome

theorem Score.tracks_of_notMem {source : List Char} (h : ',' ∉ source) : Score.tracks source = [source] :=
  List.splitOn_eq_singleton h

namespace Song
variable {R : Type} [Scalar R] (d : Defaults) (origin : R)

/-- What is written in one track, scheduled at a place among the tracks. -/
def trackAt (place : Nat) (source : List Char) : Track R :=
  ⟨place % UInt32.size, Score.tokenize source, (Schedule.run d (Score.tokenize source) origin).value⟩

theorem value_scheduleFrom (place : Nat) (sources : List (List Char)) :
    (scheduleFrom d origin place (sources.map Score.tokenize)).value =
      sources.mapIdx fun i source => trackAt d origin (place + i) source := by
  induction sources generalizing place with
  | nil => rfl
  | cons source rest ih =>
    have hrest : (fun i : Nat => trackAt d origin (place + 1 + i)) = fun i => trackAt d origin (place + (i + 1)) := by
      funext i
      rw [Nat.add_right_comm, Nat.add_assoc]
    rw [List.map_cons, List.mapIdx_cons]
    simp only [scheduleFrom, Noted.value_bind, Noted.value_pure, ih, hrest]
    rfl

theorem tracks_compile (text : List Char) :
    (compile text d origin).value.tracks = (Score.tracks text).mapIdx (trackAt d origin) := by
  have htracks := value_scheduleFrom d origin 0 (Score.tracks text)
  simp only [Nat.zero_add] at htracks
  exact htracks

theorem tracks_compile_join {sources : List (List Char)} (hsome : sources ≠ [])
    (hcommas : ∀ source ∈ sources, ',' ∉ source) :
    (compile (Score.join sources) d origin).value.tracks = sources.mapIdx (trackAt d origin) := by
  rw [tracks_compile, Score.tracks_join hsome hcommas]

theorem tracks_compile_alone {source : List Char} (h : ',' ∉ source) :
    (compile source d origin).value.tracks = [trackAt d origin 0 source] := by
  rw [tracks_compile, Score.tracks_of_notMem h]
  rfl

end Song

/-- **Tracks do not interfere.** A score of some tracks has just these. Each of them is the only track of the song of
its own text, put at its place, and it stays so whatever is written in all other tracks and however many there are. -/
theorem tracks_apart {R : Type} [Scalar R] (d : Defaults) (origin : R) {sources : List (List Char)}
    (hsome : sources ≠ []) (hcount : sources.length < UInt32.size) (hcommas : ∀ source ∈ sources, ',' ∉ source) :
    let song := (Song.compile (Score.join sources) d origin).value
    song.tracks.length = sources.length ∧ ∀ i (hi : i < sources.length),
      (∃ alone, (Song.compile sources[i] d origin).value.tracks = [alone] ∧
        song.tracks[i]? = some { alone with index := i }) ∧
      ∀ others : List (List Char), (∀ source ∈ others, ',' ∉ source) → others[i]? = some sources[i] →
        (Song.compile (Score.join others) d origin).value.tracks[i]? = song.tracks[i]? := by
  intro song
  have htracks : song.tracks = sources.mapIdx (Song.trackAt d origin) := Song.tracks_compile_join d origin hsome hcommas
  have htrack : ∀ i (hi : i < sources.length), song.tracks[i]? = some (Song.trackAt d origin i sources[i]) := by
    intro i hi
    rw [htracks, List.getElem?_mapIdx, List.getElem?_eq_getElem hi, Option.map_some]
  refine ⟨by rw [htracks, List.length_mapIdx], fun i hi => ⟨?_, fun others hothers hsame => ?_⟩⟩
  · have hplace : i % UInt32.size = i := Nat.mod_eq_of_lt (Nat.lt_trans hi hcount)
    have halone := Song.tracks_compile_alone d origin (hcommas _ (List.getElem_mem hi))
    refine ⟨_, halone, ?_⟩
    rw [htrack i hi]
    simp only [Song.trackAt, hplace]
  · have hnonempty : others ≠ [] := by
      rintro rfl
      cases hsame
    rw [Song.tracks_compile_join d origin hnonempty hothers, htrack i hi, List.getElem?_mapIdx, hsame, Option.map_some]

/-- The last of three tracks, with the others changed and one more added: a tie that stands open at the end of a track
does not take the comma, and an empty track counts. -/
theorem tracks_apart_tied :
    let sources := [['c', '&'], [], ['d', '8']]
    let others := [['@', '&', '&'], ['o', '9', '>'], ['d', '8'], ['e']]
    sources ≠ [] ∧ sources.length < UInt32.size ∧ (∀ source ∈ sources, ',' ∉ source) ∧
      (∀ source ∈ others, ',' ∉ source) ∧ others[2]? = some sources[2] ∧
      let song := (Song.compile (Score.join sources) {} (0 : Float)).value
      song.tracks.length = 3 ∧
        (∃ alone, (Song.compile sources[2] {} (0 : Float)).value.tracks = [alone] ∧
          song.tracks[2]? = some { alone with index := 2 }) ∧
        (Song.compile (Score.join others) {} (0 : Float)).value.tracks[2]? = song.tracks[2]? := by
  intro sources others
  have hsome : sources ≠ [] := by decide
  have hcount : sources.length < UInt32.size := by decide
  have hcommas : ∀ source ∈ sources, ',' ∉ source := by decide
  have hothers : ∀ source ∈ others, ',' ∉ source := by decide
  obtain ⟨hlength, htracks⟩ := tracks_apart {} (0 : Float) hsome hcount hcommas
  obtain ⟨halone, hapart⟩ := htracks 2 (by decide)
  exact ⟨hsome, hcount, hcommas, hothers, rfl, hlength, halone, hapart others hothers rfl⟩

end MusicMacro
