import FantasyConsole.Proofs.Sound.CheckedFrames
import FantasyConsole.Proofs.Sound.StartRow

/-!
# Frames of sound are safe

A frame of sound looks nothing up that is not there and divides by no zero, whatever memory holds: a
frame whose lookups and divisions are checked is the frame itself. One thing is left that memory can
bring about. A track whose speed is negative runs through rows that are negative too, and no pattern
has such a row.

## Main result

`Sound.beginFrame_safe`: what can go wrong in a frame of sound, and when nothing can.
-/

namespace FantasyConsole

open Ram

namespace Ram

def checkedClearRegisters (r : Ram) : Checked Ram := do
  let registers ← Layout.registers.address 0 Layout.registers.size
  let stereo ← Layout.stereo.address 0 Layout.stereo.size
  return (r.fillBlock registers Layout.registers.size 0).setWord stereo 0xFFFFFFFF

theorem checkedClearRegisters_eq (r : Ram) : r.checkedClearRegisters = pure r.clearRegisters := by
  rw [checkedClearRegisters,
    Layout.registers.address_eq (by decide) (by decide) (by decide), pure_bind,
    Layout.stereo.address_eq (by decide) (by decide) (by decide), pure_bind]
  rfl

end Ram

namespace Sequencer

/-! ### Where the row of a frame comes from -/

/-- The row that the music comes to is never past a pattern, and is the row of the tick where it is
negative. The row that was played last is still the one that memory names. -/
theorem row_of_arrival {s : Sequencer} {r : Ram} {a : Arrival} (arrived : s.arrival? r = some a) :
    a.position.row = (MusicPosition.load r).row ∧ a.row < patternRows ∧
      (a.row < 0 → a.row = s.rowOfTick a.track s.ticks) := by
  obtain ⟨index, u, p, row, -, -, -, jumped, turned⟩ := arrival?_eq_some arrived
  have length : a.track.patternLength ≤ 64 := by
    simp only [Track.patternLength, patternRows]
    omega
  -- where the position comes from no longer matters
  generalize MusicPosition.load r = before at *
  have reached : p.row = before.row ∧ (row < 0 → row = s.rowOfTick a.track s.ticks) := by
    -- a jump leads to a beat, and beats are not negative
    rcases s.takeJump_cases a.track before with same | ⟨jump, -, -, taken⟩
    · rw [same] at jumped
      cases jumped
      exact ⟨rfl, fun _ => rfl⟩
    · rw [taken] at jumped
      cases jumped
      refine ⟨rfl, fun negative => ?_⟩
      simp only [rowsPerBeat] at negative
      omega
  -- no track plays more than 64 rows of a pattern, and a frame that turns begins at row 0
  rcases turnFrame_cases turned with ⟨inside, -, position, next⟩ | ⟨-, -, frame, -, position, next⟩
  · rw [position, next]
    exact ⟨reached.1, by simp only [patternRows]; omega, reached.2⟩
  · rw [position, next]
    exact ⟨reached.1, by decide, fun negative => absurd negative (by decide)⟩

theorem exists_tick_of_arrival {s : Sequencer} {r : Ram} {a : Arrival}
    (arrived : s.arrival? r = some a) (safe : a.row = a.position.row ∨ 0 ≤ a.row) :
    ∃ moved, s.tick r = .ok moved := by
  have upper := (row_of_arrival arrived).2.1
  rcases safe with same | lower
  · rw [tick_of_arrival arrived, playRow, if_pos same]
    exact ⟨_, rfl⟩
  · exact ⟨_, tick_of_lt arrived lower upper⟩

/-- The quotients of a product that is not negative are not negative. -/
theorem rowOfTick_nonneg {s : Sequencer} {t : Track} (ticks : 0 ≤ s.ticks)
    (tempo : 0 ≤ s.tempoOf t) (speed : 0 ≤ s.speedOf t) (countable : s.Countable t s.ticks) :
    0 ≤ s.rowOfTick t s.ticks := by
  have product : 0 ≤ s.product t s.ticks :=
    Int.mul_nonneg (Int.mul_nonneg ticks tempo) (by decide)
  rw [rowOfTick, wrap32_product countable]
  split
  · exact Int.le_refl 0
  · exact Int.tdiv_nonneg (Int.tdiv_nonneg product speed) (by decide)

end Sequencer

namespace Sound

def checkedTickEffect (x : Sound × Ram) (c : Fin channelCount) : Checked (Sound × Ram) :=
  let ch := x.1.effects.get c
  if ch.isActive then do
    let (ch, r) ← ch.checkedPlay c x.2 ch.note 0
    return ({ x.1 with effects := x.1.effects.replace c ch }, ← ch.checkedStorePositions c r)
  else
    return x

theorem checkedTickEffect_eq (x : Sound × Ram) (c : Fin channelCount) :
    checkedTickEffect x c = pure (x.1.tickEffect x.2 c) := by
  unfold checkedTickEffect tickEffect
  simp only [Channel.checkedPlay_eq, Channel.checkedStorePositions_eq, pure_bind]
  split <;> rfl

/-- A frame of sound in which everything is checked that is looked up or divided. -/
def checkedBeginFrame (s : Sound) (r : Ram) : Checked (Sound × Ram) := do
  let (music, r) ← s.music.checkedTick (← r.checkedClearRegisters)
  allChannels.foldlM checkedTickEffect ({ s with music := music }, r)

theorem checkedBeginFrame_eq (s : Sound) (r : Ram) :
    s.checkedBeginFrame r = (s.music.checkedTick r.clearRegisters).map fun (music, m) =>
      allChannels.foldl (fun (s, r) c => tickEffect s r c) ({ s with music := music }, m) := by
  have turn : checkedTickEffect = fun x c => pure (x.1.tickEffect x.2 c) := by
    funext x c
    exact checkedTickEffect_eq x c
  rw [checkedBeginFrame, r.checkedClearRegisters_eq, pure_bind, turn]
  simp only [List.foldlM_pure]
  cases s.music.checkedTick r.clearRegisters <;> rfl

/-- The frame with the checks has the result of the frame without, unless its row overflows. -/
theorem checkedBeginFrame_cases (s : Sound) (r : Ram) :
    (s.checkedBeginFrame r).toOption = (s.beginFrame r).toOption ∨
      (s.checkedBeginFrame r = throw .overflow ∧ s.music.RowOverflows r) := by
  rw [checkedBeginFrame_eq, beginFrame_eq]
  rcases s.music.checkedTick_cases r.clearRegisters with same | ⟨fails, row⟩
  · left
    rw [toOption_map, toOption_map, same]
  · right
    rw [fails]
    exact ⟨rfl, (Sequencer.rowOverflows_congr r.sameOn_clearRegisters s.music).mp row⟩

/-- A frame that comes to no row, to the row that was played last, or to one that is not negative,
has a result. -/
theorem exists_beginFrame {s : Sound} {r : Ram}
    (safe : ∀ a, s.music.arrival? r = some a → a.row = a.position.row ∨ 0 ≤ a.row) :
    ∃ x, s.beginFrame r = .ok x := by
  cases arrived : s.music.arrival? r with
  | none =>
    obtain ⟨x, begun, -⟩ := beginFrame_of_no_arrival arrived
    exact ⟨x, begun⟩
  | some a =>
    have there := arrived
    rw [← Sequencer.arrival?_congr r.sameOn_clearRegisters] at there
    obtain ⟨moved, ticked⟩ := Sequencer.exists_tick_of_arrival there (safe a arrived)
    obtain ⟨x, begun, -⟩ := s.beginFrame_of_tick ticked
    exact ⟨x, begun⟩

/-! ### What can go wrong -/

/-- Whether a frame passes all checks, and so is the frame without them. -/
def Completes (s : Sound) (r : Ram) : Prop :=
  ∃ x, s.checkedBeginFrame r = .ok x ∧ s.beginFrame r = .ok x

theorem completes_or_slips (s : Sound) (r : Ram) :
    s.Completes r ∨ ∃ slip, s.checkedBeginFrame r = .error slip ∧
      ((slip = .overflow ∧ s.music.RowOverflows r) ∨
        ∃ a, s.music.arrival? r = some a ∧ a.row < 0 ∧ a.row ≠ a.position.row) := by
  cases checked : s.checkedBeginFrame r with
  | ok x =>
    left
    refine ⟨x, checked, ?_⟩
    rcases s.checkedBeginFrame_cases r with same | ⟨fails, -⟩
    · rw [checked] at same
      cases begun : s.beginFrame r with
      | error cause =>
        rw [begun] at same
        cases same
      | ok y =>
        rw [begun] at same
        exact congrArg Except.ok (Option.some.inj same).symm
    · rw [checked] at fails
      cases fails
  | error slip =>
    right
    refine ⟨slip, rfl, ?_⟩
    rcases s.checkedBeginFrame_cases r with same | ⟨fails, row⟩
    · right
      rw [checked] at same
      by_contra none
      -- every frame that comes to another row would have a result
      obtain ⟨x, begun⟩ := exists_beginFrame (s := s) (r := r) fun a arrived => by
        by_contra wrong
        exact none ⟨a, arrived, by omega, fun same => wrong (.inl same)⟩
      rw [begun] at same
      cases same
    · left
      rw [checked] at fails
      cases fails
      exact ⟨rfl, row⟩

/-- A frame in which the music does not arrive passes all checks. -/
theorem completes_of_idle {s : Sound} {r : Ram}
    (idle : (MusicPosition.load r).status = .stopped ∨
      Track.index? (MusicPosition.load r).track = none) : s.Completes r := by
  rcases s.completes_or_slips r with completes | ⟨-, -, ⟨-, playing, index, found, -⟩ |
    ⟨a, arrived, -⟩⟩
  · exact completes
  · rcases idle with stopped | unknown
    · exact absurd stopped playing
    · rw [found] at unknown
      cases unknown
  · obtain ⟨index, -, -, -, playing, found, -⟩ := Sequencer.arrival?_eq_some arrived
    rcases idle with stopped | unknown
    · exact absurd stopped playing
    · rw [found] at unknown
      cases unknown

/-- A frame passes all checks if its row is computed and is not negative, be it the row of the tick
or the one that the music comes to in the end. -/
theorem completes_of_row {s : Sound} {r : Ram} {index : Fin trackCount}
    (found : Track.index? (MusicPosition.load r).track = some index) {row : Int}
    (computed : s.music.checkedRowOfTick (Track.load r index) s.music.ticks = .ok row)
    (lower : 0 ≤ row ∨ ∃ a, s.music.arrival? r = some a ∧ 0 ≤ a.row) : s.Completes r := by
  rcases s.completes_or_slips r with completes | ⟨-, -, ⟨-, -, other, same, fails⟩ |
    ⟨a, arrived, negative, -⟩⟩
  · exact completes
  · rw [found] at same
    cases same
    rw [computed] at fails
    cases fails
  · rcases lower with lower | ⟨b, also, lower⟩
    · have ofTick := (Sequencer.row_of_arrival arrived).2.2 negative
      obtain ⟨other, -, -, -, -, same, track, -⟩ := Sequencer.arrival?_eq_some arrived
      rw [found] at same
      cases same
      rw [track] at ofTick
      rcases s.music.checkedRowOfTick_cases (Track.load r index) s.music.ticks with own | ⟨fails, -⟩
      · rw [computed] at own
        have rowIs : row = s.music.rowOfTick (Track.load r index) s.music.ticks :=
          Except.ok.inj own
        omega
      · rw [computed] at fails
        cases fails
    · rw [arrived] at also
      cases also
      omega

/-- A frame of sound looks nothing up that is not there and divides by no zero, whatever the state
and the memory are, unless the row that the music comes to is negative and another one than the row
that memory names. The only other check that can fail is that the row is a number of 32 bits, and it
is one if the product is that the row is computed from. So a frame has a result when no music plays,
when its row is not negative, and when the tick, the tempo and the speed are not negative. -/
theorem beginFrame_safe (s : Sound) (r : Ram) :
    (∀ slip, s.checkedBeginFrame r = .error slip →
      (slip = .overflow ∧ ∃ index, Track.index? (MusicPosition.load r).track = some index ∧
        ¬ s.music.Countable (Track.load r index) s.music.ticks) ∨
      ∃ a, s.music.arrival? r = some a ∧ a.row = s.music.rowOfTick a.track s.music.ticks ∧
        a.row < 0 ∧ a.row ≠ (MusicPosition.load r).row) ∧
    ((MusicPosition.load r).status = .stopped ∨
      Track.index? (MusicPosition.load r).track = none → s.Completes r) ∧
    ∀ index, Track.index? (MusicPosition.load r).track = some index →
      (∀ row, s.music.checkedRowOfTick (Track.load r index) s.music.ticks = .ok row →
        (0 ≤ row ∨ ∃ a, s.music.arrival? r = some a ∧ 0 ≤ a.row) → s.Completes r) ∧
      (0 ≤ s.music.ticks → 0 ≤ s.music.tempoOf (Track.load r index) →
        0 ≤ s.music.speedOf (Track.load r index) →
        s.music.Countable (Track.load r index) s.music.ticks → s.Completes r) := by
  refine ⟨fun slip fails => ?_, completes_of_idle, fun index found => ⟨fun row computed lower => ?_,
    fun ticks tempo speed countable => ?_⟩⟩
  · rcases s.completes_or_slips r with ⟨x, passes, -⟩ | ⟨other, same, cause⟩
    · rw [fails] at passes
      cases passes
    rw [fails] at same
    cases same
    rcases cause with ⟨kind, -, index, found, row⟩ | ⟨a, arrived, negative, new⟩
    · left
      refine ⟨kind, index, found, ?_⟩
      rcases s.music.checkedRowOfTick_cases (Track.load r index) s.music.ticks with own | ⟨-, wraps⟩
      · rw [row] at own
        cases own
      · exact wraps
    · right
      obtain ⟨published, -, ofTick⟩ := Sequencer.row_of_arrival arrived
      exact ⟨a, arrived, ofTick negative, negative, published ▸ new⟩
  · exact completes_of_row found computed lower
  · have lower := Sequencer.rowOfTick_nonneg ticks tempo speed countable
    rcases s.music.checkedRowOfTick_cases (Track.load r index) s.music.ticks with own | ⟨-, wraps⟩
    · exact completes_of_row found own (.inl lower)
    · exact absurd countable wraps

/-- The first frame of a track that was started at its twelfth row has a result. -/
theorem first_frame_completes :
    ∃ start, fresh.playMusic? .blank (0 : Fin trackCount) (0 : Fin trackFrames) (12 : Nat) false
        false (150 : Nat) (-1) = some start ∧ start.1.Completes start.2 := by
  obtain ⟨start, started, tempoIs, speedIs, -⟩ := exists_started_blank 12 150
  obtain ⟨position, track⟩ := load_started started
  have found : Track.index? (MusicPosition.load start.2).track = some 0 := by
    rw [position]
    exact Track.index?_val 0
  have ticks : start.1.music.ticks = (72 : Nat) := by
    rw [(started_at_row started).2.1, Sequencer.tickOfRow_natCast tempoIs speedIs (by decide)
      (by decide)]
    rfl
  have completes := ((beginFrame_safe start.1 start.2).2.2 0 found).2
  rw [track, Sequencer.Countable, Sequencer.product, tempoIs, speedIs, ticks] at completes
  exact ⟨start, started, completes (by decide) (by decide) (by decide) (by decide)⟩

/-- A negative row does fail a check, where a channel plays a pattern. -/
theorem slips_of_negative {s : Sound} {r : Ram} {a : Sequencer.Arrival}
    (arrived : s.music.arrival? r = some a) (new : a.row ≠ a.position.row)
    (negative : a.published.row < 0) {c : Fin channelCount}
    (plays : a.track.PlaysAt a.published.frame c) :
    ∃ slip, s.checkedBeginFrame r = .error slip := by
  rcases s.completes_or_slips r with ⟨x, -, begun⟩ | ⟨slip, fails, -⟩
  · -- without the checks there would be a row to hand fails
    obtain ⟨moved, ticked, -⟩ := tick_of_beginFrame begun
    rw [← Sequencer.arrival?_congr r.sameOn_clearRegisters] at arrived
    obtain ⟨pattern, loaded, -⟩ := (Sequencer.tick_eq_moveOn arrived ticked).2 new c plays
    rw [PatternRow.load?] at loaded
    dsimp only at loaded
    split at loaded
    case isTrue inside => omega
    case isFalse => cases loaded
  · exact ⟨slip, fails⟩

end Sound

end FantasyConsole
