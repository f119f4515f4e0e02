import FantasyConsole.Proofs.Sound.MusicMemory
import FantasyConsole.Proofs.Sound.SequencerRange
import Mathlib.Tactic.SplitIfs

/-!
# Rows that are handed to the channels

A frame of music comes to a position, and if its row is not the one that was played last then each
channel with a pattern there is handed its row. This module lists the rows that are handed over,
says that every channel with a pattern is among them, and what a row changes in the sequencer: of
all that it does only a jump and a row that is held back tell where the music goes on.
-/

namespace FantasyConsole

theorem Track.index?_val (index : Fin trackCount) : Track.index? index.val = some index := by
  have bound := index.isLt
  rw [Track.index?, dif_pos ⟨by omega, by omega⟩]
  rfl

theorem mem_allChannels : ∀ c, c ∈ allChannels := by
  decide

/-- The pattern that a channel plays in a frame of the track; a number that is no frame stands for
the nearest one. -/
def Track.patternAt (t : Track) (frame : Int) (c : Fin channelCount) : Nat :=
  t.patternId (clampInt 0 (trackFrames - 1) frame).toNat c

/-- Whether a channel plays a pattern in a frame of the track. -/
def Track.PlaysAt (t : Track) (frame : Int) (c : Fin channelCount) : Prop :=
  1 ≤ t.patternAt frame c ∧ t.patternAt frame c ≤ patternCount

instance (t : Track) (frame : Int) (c : Fin channelCount) : Decidable (t.PlaysAt frame c) :=
  inferInstanceAs (Decidable (_ ∧ _))

/-- A row from 0 to 63 lies in its pattern. -/
theorem PatternRow.exists_load? (r : Ram) {id : Nat} (first : 1 ≤ id) (last : id ≤ patternCount)
    {row : Int} (lower : 0 ≤ row) (upper : row < patternRows) :
    ∃ pattern, load? r id row = some pattern := by
  simp only [patternCount, patternRows] at last upper
  have inside : 0 ≤ row ∧ ((id : Int) - 1) * (patternRows * rowBytes) + row * rowBytes + rowBytes ≤
      Layout.patterns.size := by
    simp only [patternRows, rowBytes, Layout.patterns]
    omega
  simp only [load?, if_pos inside, Option.some.injEq, exists_eq']

namespace Sequencer

/-! ### What a row changes -/

/-- The tick counter, and the tempo and the speed that a caller chose. -/
def timing (s : Sequencer) : Int × Option Nat × Option Nat := (s.ticks, s.tempo, s.speed)

theorem pace_congr {s u : Sequencer} (same : s.timing.2 = u.timing.2) (t : Track) :
    s.tempoOf t = u.tempoOf t ∧ s.speedOf t = u.speedOf t := by
  have tempo : s.tempo = u.tempo := congrArg Prod.fst same
  have speed : s.speed = u.speed := congrArg Prod.snd same
  rw [tempoOf, tempoOf, speedOf, speedOf, tempo, speed]
  exact ⟨rfl, rfl⟩

theorem rowOfTick_congr {s u : Sequencer} (same : s.timing = u.timing) (t : Track) :
    s.rowOfTick t s.ticks = u.rowOfTick t u.ticks := by
  have ticks : s.ticks = u.ticks := congrArg Prod.fst same
  obtain ⟨tempo, speed⟩ := pace_congr (congrArg Prod.snd same) t
  rw [rowOfTick, rowOfTick, ticks, tempo, speed]

/-- The row that a channel holds back. -/
def held (s : Sequencer) (c : Fin channelCount) : Option PatternRow := (s.effects.get c).delay.row

@[simp] theorem timing_setChannel (s : Sequencer) (c : Fin channelCount) (ch : Channel) :
    (s.setChannel c ch).timing = s.timing := rfl

@[simp] theorem jump_setChannel (s : Sequencer) (c : Fin channelCount) (ch : Channel) :
    (s.setChannel c ch).jump = s.jump := rfl

@[simp] theorem held_setChannel (s : Sequencer) (c : Fin channelCount) (ch : Channel) :
    (s.setChannel c ch).held = s.held := rfl

@[simp] theorem timing_setEffects (s : Sequencer) (c : Fin channelCount) (e : Effects) :
    (s.setEffects c e).timing = s.timing := rfl

@[simp] theorem jump_setEffects (s : Sequencer) (c : Fin channelCount) (e : Effects) :
    (s.setEffects c e).jump = s.jump := rfl

theorem held_setEffects (s : Sequencer) (c : Fin channelCount) (e : Effects) :
    (s.setEffects c e).held = fun d => if d = c then e.delay.row else s.held d := by
  funext d
  by_cases same : d = c
  · rw [if_pos same, same]
    exact congrArg (fun e : Effects => e.delay.row) (s.effects.get_replace_self c e)
  · rw [if_neg same]
    exact congrArg (fun e : Effects => e.delay.row) (s.effects.get_replace_of_ne same e)

/-- Effects that hold back the same row as before. -/
theorem held_setEffects_of_eq {s : Sequencer} {c : Fin channelCount} {e : Effects}
    (same : e.delay.row = s.held c) : (s.setEffects c e).held = s.held := by
  rw [held_setEffects]
  funext d
  split
  case isTrue own => rw [own, same]
  case isFalse => rfl

@[simp] theorem timing_playNote (s : Sequencer) (r : Ram) (c : Fin channelCount)
    (row : PatternRow) : (s.playNote r c row).timing = s.timing := by
  unfold playNote
  dsimp only
  split_ifs <;> simp

@[simp] theorem jump_playNote (s : Sequencer) (r : Ram) (c : Fin channelCount) (row : PatternRow) :
    (s.playNote r c row).jump = s.jump := by
  unfold playNote
  dsimp only
  split_ifs <;> simp

@[simp] theorem held_playNote (s : Sequencer) (r : Ram) (c : Fin channelCount) (row : PatternRow) :
    (s.playNote r c row).held = s.held := by
  have slid : (s.setEffects c { s.effects.get c with
      slide.tick := 0, slide.note := (s.channels.get c).note }).held = s.held :=
    held_setEffects_of_eq rfl
  unfold playNote
  dsimp only
  split_ifs <;> simp [slid]

@[simp] theorem timing_runCommand (s : Sequencer) (c : Fin channelCount) (row : PatternRow) :
    (s.runCommand c row).timing = s.timing := by
  unfold runCommand
  cases row.command <;> rfl

theorem jump_runCommand {row : PatternRow} (other : row.command ≠ .jump) (s : Sequencer)
    (c : Fin channelCount) : (s.runCommand c row).jump = s.jump := by
  unfold runCommand
  cases command : row.command with
  | jump => exact absurd command other
  | _ => rfl

@[simp] theorem held_runCommand (s : Sequencer) (c : Fin channelCount) (row : PatternRow) :
    (s.runCommand c row).held = s.held := by
  unfold runCommand
  cases row.command with
  | volume | jump | empty | delay => rfl
  | chord | vibrato | slide | pitch => exact held_setEffects_of_eq rfl

/-- Whether all rows that are held back are rows that ask for it. -/
def HoldsDelays (s : Sequencer) : Prop := ∀ c row, s.held c = some row → row.command = .delay

/-- What is due is the row that was reached or one that was held back, and what is held back then
was held back before or asks for it. -/
theorem dueRow_cases (d : Delay) (row : PatternRow) :
    ((dueRow d row).1 = none ∨ (dueRow d row).1 = some row ∨ (dueRow d row).1 = d.row) ∧
    ((dueRow d row).2.row = none ∨ (dueRow d row).2.row = d.row ∨
      (row.command = .delay ∧ (dueRow d row).2.row = some row)) := by
  unfold dueRow
  by_cases delayed : row.command = .delay
  · simp only [if_pos delayed]
    split <;> simp [delayed]
  · simp only [if_neg delayed]
    split <;> simp

@[simp] theorem timing_applyRow (s : Sequencer) (r : Ram) (c : Fin channelCount)
    (row : PatternRow) : (s.applyRow r c row).timing = s.timing := by
  unfold applyRow
  dsimp only
  split <;> simp

theorem HoldsDelays.applyRow {s : Sequencer} (holds : s.HoldsDelays) (r : Ram)
    (c : Fin channelCount) (row : PatternRow) : (s.applyRow r c row).HoldsDelays := by
  obtain ⟨-, kept⟩ := dueRow_cases (s.effects.get c).delay row
  have waiting : (s.setEffects c { s.effects.get c with
      delay := (dueRow (s.effects.get c).delay row).2 }).HoldsDelays := by
    intro d later found
    rw [held_setEffects] at found
    dsimp only at found
    split at found
    case isFalse => exact holds d later found
    case isTrue =>
      rcases kept with none | before | ⟨delayed, own⟩
      · rw [none] at found
        cases found
      · exact holds c later (before.symm.trans found)
      · rw [own] at found
        exact Option.some.inj found ▸ delayed
  unfold Sequencer.applyRow
  dsimp only
  split
  · exact waiting
  · intro d later found
    rw [held_runCommand, held_playNote] at found
    exact waiting d later found

/-- A row that is no jump starts none, and neither does the one that it releases. -/
theorem jump_applyRow {s : Sequencer} (holds : s.HoldsDelays) {row : PatternRow}
    (other : row.command ≠ .jump) (r : Ram) (c : Fin channelCount) :
    (s.applyRow r c row).jump = s.jump := by
  obtain ⟨due, -⟩ := dueRow_cases (s.effects.get c).delay row
  unfold applyRow
  dsimp only
  split
  case h_1 => rw [jump_setEffects]
  case h_2 reached found =>
    -- what is due is this row or one that was held back, which is a delayed one
    have harmless : reached.command ≠ .jump := by
      rw [found] at due
      rcases due with none | own | released
      · cases none
      · exact Option.some.inj own ▸ other
      · rw [holds c reached released.symm]
        decide
    rw [jump_runCommand harmless, jump_playNote, jump_setEffects]

/-- A row that asks for a jump makes it wait, unless another row is due on its channel. -/
theorem jump_applyRow_of_jump {s : Sequencer} {c : Fin channelCount} (free : s.held c = none)
    {row : PatternRow} (asks : row.command = .jump) (r : Ram) :
    (s.applyRow r c row).jump = some ⟨row.param1, row.param2⟩ := by
  have due : (dueRow (s.effects.get c).delay row).1 = some row := by
    have idle : (s.effects.get c).delay.row = none := free
    simp [dueRow, asks, idle]
  unfold applyRow
  dsimp only
  rw [due]
  dsimp only
  rw [runCommand, asks]

/-! ### Handing over rows -/

/-- The rows at a position, each with the channel that plays it. -/
def rowsAt (r : Ram) (t : Track) (frame row : Int) : List (Fin channelCount × PatternRow) :=
  allChannels.filterMap fun c =>
    if t.PlaysAt frame c then (PatternRow.load? r (t.patternAt frame c) row).map (c, ·) else none

/-- Hands rows to their channels, one after the other. -/
def hand (s : Sequencer) (r : Ram) (rows : List (Fin channelCount × PatternRow)) : Sequencer :=
  rows.foldl (fun s (c, row) => s.applyRow r c row) s

theorem mem_rowsAt {r : Ram} {t : Track} {frame row : Int} {c : Fin channelCount}
    {pattern : PatternRow} : (c, pattern) ∈ rowsAt r t frame row ↔
      t.PlaysAt frame c ∧ PatternRow.load? r (t.patternAt frame c) row = some pattern := by
  have listed : c ∈ allChannels := mem_allChannels c
  simp only [rowsAt, List.mem_filterMap]
  constructor
  · rintro ⟨d, -, found⟩
    split at found
    case isTrue plays =>
      obtain ⟨loaded, own, pair⟩ := Option.map_eq_some_iff.mp found
      cases pair
      exact ⟨plays, own⟩
    case isFalse => cases found
  · rintro ⟨plays, loaded⟩
    refine ⟨c, listed, ?_⟩
    rw [if_pos plays, loaded, Option.map_some]

/-- Hands the row at a position to one channel. -/
def applyRowAt (s : Sequencer) (r : Ram) (t : Track) (frame row : Int) (c : Fin channelCount) :
    Except Fault Sequencer :=
  if t.PlaysAt frame c then
    match PatternRow.load? r (t.patternAt frame c) row with
    | none => .error (.rowOutOfRange (t.patternAt frame c) row)
    | some pattern => .ok (s.applyRow r c pattern)
  else
    .ok s

theorem applyRows_eq (s : Sequencer) (r : Ram) (t : Track) (frame row : Int) :
    s.applyRows r t frame row = allChannels.foldlM (fun s c => s.applyRowAt r t frame row c) s := by
  unfold applyRows
  congr 1
  funext s c
  change (if t.patternAt frame c = 0 ∨ patternCount < t.patternAt frame c then _ else _) = _
  unfold applyRowAt
  split
  case isTrue idle =>
    rw [if_neg]
    rintro ⟨first, last⟩
    omega
  case isFalse plays =>
    rw [if_pos ⟨by omega, by omega⟩]
    rfl

/-- Rows that are applied are the rows at the position. -/
theorem applyRows_eq_hand {s u : Sequencer} {r : Ram} {t : Track} {frame row : Int}
    (applied : s.applyRows r t frame row = .ok u) : u = s.hand r (rowsAt r t frame row) := by
  rw [applyRows_eq] at applied
  unfold rowsAt
  generalize allChannels = channels at applied ⊢
  induction channels generalizing s with
  | nil => exact (Except.ok.inj applied).symm
  | cons c channels ih =>
    rw [List.foldlM_cons, applyRowAt] at applied
    rw [List.filterMap_cons]
    split at applied
    case isFalse idle =>
      rw [if_neg idle]
      exact ih applied
    case isTrue plays =>
      rw [if_pos plays]
      split at applied
      case h_1 => cases applied
      case h_2 pattern loaded =>
        rw [loaded]
        exact ih applied

/-- Rows can only be applied where every channel with a pattern has one. -/
theorem exists_load?_of_applyRows {s u : Sequencer} {r : Ram} {t : Track} {frame row : Int}
    (applied : s.applyRows r t frame row = .ok u) {c : Fin channelCount}
    (plays : t.PlaysAt frame c) :
    ∃ pattern, PatternRow.load? r (t.patternAt frame c) row = some pattern := by
  have listed : c ∈ allChannels := mem_allChannels c
  rw [applyRows_eq] at applied
  -- on the channels that are still to come; the rows of the others have been applied
  generalize allChannels = channels at applied listed
  induction channels generalizing s with
  | nil => cases listed
  | cons d channels ih =>
    rw [List.foldlM_cons] at applied
    rcases List.mem_cons.mp listed with rfl | later
    · rw [applyRowAt, if_pos plays] at applied
      split at applied
      case h_1 => cases applied
      case h_2 pattern loaded => exact ⟨pattern, loaded⟩
    · cases own : s.applyRowAt r t frame row d with
      | error cause =>
        rw [own] at applied
        cases applied
      | ok moved =>
        rw [own] at applied
        exact ih applied later

/-- A row from 0 to 63 is in every pattern, so its rows can be applied. -/
theorem applyRows_of_lt (s : Sequencer) (r : Ram) (t : Track) (frame : Int) {row : Int}
    (lower : 0 ≤ row) (upper : row < patternRows) :
    s.applyRows r t frame row = .ok (s.hand r (rowsAt r t frame row)) := by
  suffices succeeds : ∃ u, s.applyRows r t frame row = .ok u by
    obtain ⟨u, applied⟩ := succeeds
    rw [applied, applyRows_eq_hand applied]
  rw [applyRows_eq]
  generalize allChannels = channels
  induction channels generalizing s with
  | nil => exact ⟨s, rfl⟩
  | cons c channels ih =>
    rw [List.foldlM_cons, applyRowAt]
    split
    case isFalse => exact ih s
    case isTrue plays =>
      obtain ⟨pattern, loaded⟩ := PatternRow.exists_load? r plays.1 plays.2 lower upper
      rw [loaded]
      exact ih (s.applyRow r c pattern)

@[simp] theorem timing_hand (s : Sequencer) (r : Ram)
    (rows : List (Fin channelCount × PatternRow)) : (s.hand r rows).timing = s.timing := by
  induction rows generalizing s with
  | nil => rfl
  | cons row rows ih => exact (ih _).trans (s.timing_applyRow r row.1 row.2)

theorem HoldsDelays.hand {s : Sequencer} (holds : s.HoldsDelays) (r : Ram)
    (rows : List (Fin channelCount × PatternRow)) : (s.hand r rows).HoldsDelays := by
  induction rows generalizing s with
  | nil => exact holds
  | cons row rows ih => exact ih (holds.applyRow r row.1 row.2)

theorem jump_hand {s : Sequencer} (holds : s.HoldsDelays) (r : Ram)
    {rows : List (Fin channelCount × PatternRow)} (others : ∀ row ∈ rows, row.2.command ≠ .jump) :
    (s.hand r rows).jump = s.jump := by
  induction rows generalizing s with
  | nil => rfl
  | cons row rows ih =>
    obtain ⟨own, rest⟩ := List.forall_mem_cons.mp others
    exact (ih (holds.applyRow r row.1 row.2) rest).trans (jump_applyRow holds own r row.1)

/-! ### Moving the channels on -/

/-- A sequencer in the same place: of its clock, its jump and the rows it holds back nothing has
changed. -/
structure Keeps (s u : Sequencer) : Prop where
  timing : u.timing = s.timing
  jump : u.jump = s.jump
  held : u.held = s.held

theorem held_tickOn {s u : Sequencer} (same : u.effects = s.effects) (c : Fin channelCount) :
    (u.setEffects c (s.effects.get c).tickOn).held = u.held := by
  apply held_setEffects_of_eq
  rw [← same]
  rfl

theorem playChannels_keeps (s : Sequencer) (r : Ram) : Keeps s (s.playChannels r).1 := by
  unfold playChannels
  refine List.foldlRecOn (motive := fun x : Sequencer × Ram => Keeps s x.1) allChannels _
    ⟨rfl, rfl, rfl⟩ ?_
  rintro ⟨u, m⟩ ⟨timing, jump, held⟩ c -
  dsimp only at timing jump held ⊢
  split
  all_goals exact ⟨timing, jump, (held_tickOn rfl c).trans held⟩

/-- A tick that ends counts on, and changes nothing else that tells where the music goes on. -/
theorem moveOn_keeps (s : Sequencer) (p : MusicPosition) (r : Ram) :
    (s.moveOn p r).1.timing = (wrap32 (s.ticks + 1), s.timing.2) ∧
      (s.moveOn p r).1.jump = s.jump ∧ (s.moveOn p r).1.held = s.held := by
  obtain ⟨timing, jump, held⟩ := s.playChannels_keeps (p.store r)
  unfold moveOn
  generalize s.playChannels (p.store r) = played at timing jump held ⊢
  have ticks : played.1.ticks = s.ticks := congrArg Prod.fst timing
  rw [← timing, ← ticks]
  exact ⟨rfl, jump, held⟩

end Sequencer

end FantasyConsole
