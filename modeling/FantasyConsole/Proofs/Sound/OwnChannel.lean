import FantasyConsole.Proofs.Sound.Arrival
import Mathlib.Data.List.Nodup

/-!
# Each channel by itself

A frame of sound goes through the channels one after the other: it hands them their rows, moves the
channels of the music on, and then those of the effects. A turn reads and writes what belongs to its
own channel. What comes of a channel is therefore what its own turn makes of it, whatever the other
channels do before and after.
-/

namespace FantasyConsole

/-! ### Turns -/

section Turns

variable {α β : Type} (step : β → α → β) (kept : β → β → Prop) {key : α → Fin channelCount}
  {c : Fin channelCount} (refl : ∀ x, kept x x)
  (trans : ∀ {x y z}, kept x y → kept y z → kept x z)
  (other : ∀ x a, key a ≠ c → kept x (step x a))
include refl trans other

theorem foldl_of_not_mem {items : List α} (apart : c ∉ items.map key) (x : β) :
    kept x (items.foldl step x) := by
  induction items generalizing x with
  | nil => exact refl x
  | cons a items ih =>
    rw [List.map_cons, List.mem_cons, not_or] at apart
    exact trans (other x a (Ne.symm apart.1)) (ih apart.2 (step x a))

/-- Where every channel has one turn at most, a turn begins with what its channel had in the
beginning, and what it leaves is there in the end. -/
theorem foldl_of_mem {items : List α} (once : (items.map key).Nodup) {a : α} (member : a ∈ items)
    (own : key a = c) (x : β) :
    ∃ y, kept x y ∧ kept (step y a) (items.foldl step x) := by
  induction items generalizing x with
  | nil => cases member
  | cons b items ih =>
    obtain ⟨apart, once⟩ := List.nodup_cons.mp once
    -- its turn comes first, or after a turn of another channel
    rcases List.mem_cons.mp member with rfl | later
    · exact ⟨x, refl x, foldl_of_not_mem step kept refl trans other (own ▸ apart) (step x a)⟩
    · have ne : key b ≠ c := by
        intro same
        exact apart (same.trans own.symm ▸ List.mem_map_of_mem later)
      obtain ⟨y, before, after⟩ := ih once later (step x b)
      exact ⟨y, trans (other x b ne) before, after⟩

end Turns

theorem nodup_turns : (allChannels.map fun c => c).Nodup := by
  decide

namespace Sequencer

/-! ### What belongs to a channel -/

/-- Whether a channel of the music and its commands are the same in two sequencers. -/
structure SameAt (c : Fin channelCount) (s u : Sequencer) : Prop where
  channel : u.channels.get c = s.channels.get c
  effects : u.effects.get c = s.effects.get c

namespace SameAt

variable {c d : Fin channelCount} {s u v : Sequencer}

theorem refl (c : Fin channelCount) (s : Sequencer) : SameAt c s s := ⟨rfl, rfl⟩

theorem symm (same : SameAt c s u) : SameAt c u s := ⟨same.channel.symm, same.effects.symm⟩

theorem trans (first : SameAt c s u) (second : SameAt c u v) : SameAt c s v :=
  ⟨second.channel.trans first.channel, second.effects.trans first.effects⟩

theorem setChannel (same : SameAt c s u) (ch : Channel) :
    SameAt c (s.setChannel c ch) (u.setChannel c ch) :=
  ⟨(PerChannel.get_replace_self ..).trans (PerChannel.get_replace_self ..).symm, same.effects⟩

theorem setEffects (same : SameAt c s u) (e : Effects) :
    SameAt c (s.setEffects c e) (u.setEffects c e) :=
  ⟨same.channel, (PerChannel.get_replace_self ..).trans (PerChannel.get_replace_self ..).symm⟩

theorem setChannel_of_ne (same : SameAt d s u) (ne : d ≠ c) (ch : Channel) :
    SameAt d s (u.setChannel c ch) :=
  ⟨(PerChannel.get_replace_of_ne _ ne _).trans same.channel, same.effects⟩

theorem setEffects_of_ne (same : SameAt d s u) (ne : d ≠ c) (e : Effects) :
    SameAt d s (u.setEffects c e) :=
  ⟨same.channel, (PerChannel.get_replace_of_ne _ ne _).trans same.effects⟩

/-! ### Rows -/

theorem playNote (same : SameAt c s u) (r : Ram) (row : PatternRow) :
    SameAt c (s.playNote r c row) (u.playNote r c row) := by
  unfold Sequencer.playNote
  dsimp only
  rw [same.channel, same.effects]
  split_ifs
  · exact same.setChannel _
  · exact (same.setEffects _).setChannel _
  · exact same.setChannel _
  · exact (same.setEffects _).setChannel _
  · exact same
  · exact same.setEffects _

theorem playNote_of_ne (same : SameAt d s u) (ne : d ≠ c) (r : Ram) (row : PatternRow) :
    SameAt d s (u.playNote r c row) := by
  unfold Sequencer.playNote
  dsimp only
  split_ifs
  · exact same.setChannel_of_ne ne _
  · exact (same.setEffects_of_ne ne _).setChannel_of_ne ne _
  · exact same.setChannel_of_ne ne _
  · exact (same.setEffects_of_ne ne _).setChannel_of_ne ne _
  · exact same
  · exact same.setEffects_of_ne ne _

theorem runCommand (same : SameAt c s u) (row : PatternRow) :
    SameAt c (s.runCommand c row) (u.runCommand c row) := by
  unfold Sequencer.runCommand
  dsimp only
  rw [same.channel, same.effects]
  cases row.command with
  | volume => exact same.setChannel _
  | chord | vibrato | slide | pitch => exact same.setEffects _
  | jump => exact ⟨same.channel, same.effects⟩
  | empty | delay => exact same

theorem runCommand_of_ne (same : SameAt d s u) (ne : d ≠ c) (row : PatternRow) :
    SameAt d s (u.runCommand c row) := by
  unfold Sequencer.runCommand
  cases row.command with
  | volume => exact same.setChannel_of_ne ne _
  | chord | vibrato | slide | pitch => exact same.setEffects_of_ne ne _
  | jump => exact ⟨same.channel, same.effects⟩
  | empty | delay => exact same

theorem applyRow (same : SameAt c s u) (r : Ram) (row : PatternRow) :
    SameAt c (s.applyRow r c row) (u.applyRow r c row) := by
  unfold Sequencer.applyRow
  dsimp only
  rw [same.effects]
  cases (dueRow (s.effects.get c).delay row).1 with
  | none => exact same.setEffects _
  | some due => exact ((same.setEffects _).playNote r due).runCommand due

theorem applyRow_of_ne (same : SameAt d s u) (ne : d ≠ c) (r : Ram) (row : PatternRow) :
    SameAt d s (u.applyRow r c row) := by
  unfold Sequencer.applyRow
  dsimp only
  have kept := same.setEffects_of_ne ne
  split
  · exact kept _
  · exact ((kept _).playNote_of_ne ne r _).runCommand_of_ne ne _

end SameAt

/-- A position has one row for each channel. -/
theorem nodup_rowsAt (r : Ram) (t : Track) (frame row : Int) :
    ((rowsAt r t frame row).map Prod.fst).Nodup := by
  have once : allChannels.Nodup := by decide
  rw [rowsAt, List.map_filterMap]
  refine List.Nodup.filterMap ?_ once
  intro c d b first second
  have own {e : Fin channelCount} (found : b ∈ Option.map Prod.fst
      (if t.PlaysAt frame e then (PatternRow.load? r (t.patternAt frame e) row).map (e, ·)
        else none)) : e = b := by
    split at found
    · rw [Option.map_map, Option.mem_def, Option.map_eq_some_iff] at found
      obtain ⟨pattern, -, same⟩ := found
      exact same
    · cases found
  exact (own first).trans (own second).symm

theorem Arrival.nodup_rows (a : Arrival) (r : Ram) : ((a.rows r).map Prod.fst).Nodup := by
  unfold Arrival.rows
  split
  · exact List.nodup_nil
  · exact nodup_rowsAt r _ _ _

/-- A channel that is handed a row is left as that row alone leaves it. -/
theorem sameAt_hand_of_mem (s : Sequencer) (r : Ram) {rows : List (Fin channelCount × PatternRow)}
    (once : (rows.map Prod.fst).Nodup) {c : Fin channelCount} {row : PatternRow}
    (member : (c, row) ∈ rows) : SameAt c (s.applyRow r c row) (s.hand r rows) := by
  obtain ⟨u, before, after⟩ := foldl_of_mem
    (fun s (x : Fin channelCount × PatternRow) => s.applyRow r x.1 x.2) (SameAt c)
    (SameAt.refl c) SameAt.trans
    (fun s x ne => (SameAt.refl c s).applyRow_of_ne (Ne.symm ne) r x.2) once member rfl s
  exact (before.applyRow r row).trans after

theorem sameAt_hand_of_not_mem (s : Sequencer) (r : Ram)
    {rows : List (Fin channelCount × PatternRow)} {c : Fin channelCount}
    (apart : c ∉ rows.map Prod.fst) : SameAt c s (s.hand r rows) := by
  have kept := foldl_of_not_mem
    (fun s (x : Fin channelCount × PatternRow) => s.applyRow r x.1 x.2) (SameAt c)
    (SameAt.refl c) SameAt.trans
    (fun s x ne => (SameAt.refl c s).applyRow_of_ne (Ne.symm ne) r x.2) apart s
  exact kept

/-- What a channel has after the rows are handed over depends on what it had before, and on no
other channel. -/
theorem SameAt.hand {c : Fin channelCount} {s u : Sequencer} (same : SameAt c s u) (r : Ram)
    {rows : List (Fin channelCount × PatternRow)} (once : (rows.map Prod.fst).Nodup) :
    SameAt c (s.hand r rows) (u.hand r rows) := by
  by_cases handed : c ∈ rows.map Prod.fst
  · obtain ⟨⟨d, row⟩, member, rfl⟩ := List.mem_map.mp handed
    have own := s.sameAt_hand_of_mem r once member
    exact own.symm.trans ((same.applyRow r row).trans (u.sameAt_hand_of_mem r once member))
  · have own := s.sameAt_hand_of_not_mem r handed
    exact own.symm.trans (same.trans (u.sameAt_hand_of_not_mem r handed))

/-! ### Moving the channels on -/

/-- The turn of one channel when the channels are moved on. -/
def moveChannel (x : Sequencer × Ram) (c : Fin channelCount) : Sequencer × Ram :=
  let e := x.1.effects.get c
  let ch := x.1.channels.get c
  if ch.isActive then
    let moved := ch.play c x.2 (e.apply ch.note).1 (e.apply ch.note).2
    ((x.1.setChannel c moved.1).setEffects c e.tickOn, moved.2)
  else
    (x.1.setEffects c e.tickOn, x.2)

theorem playChannels_eq (s : Sequencer) (r : Ram) :
    s.playChannels r = allChannels.foldl moveChannel (s, r) := by
  unfold playChannels
  congr 1
  funext x c
  unfold moveChannel
  dsimp only
  split <;> rfl

theorem sameOutside_moveChannel (x : Sequencer × Ram) (c : Fin channelCount) :
    Ram.SameOutside (Layout.heardOf c) x.2 (moveChannel x c).2 := by
  unfold moveChannel
  dsimp only
  split
  · exact Channel.sameOutside_play _ c x.2 _ _
  · exact .refl _ x.2

theorem sameAt_moveChannel (x : Sequencer × Ram) {c d : Fin channelCount} (ne : d ≠ c) :
    SameAt d x.1 (moveChannel x c).1 := by
  unfold moveChannel
  dsimp only
  split
  · exact ((SameAt.refl d x.1).setChannel_of_ne ne _).setEffects_of_ne ne _
  · exact (SameAt.refl d x.1).setEffects_of_ne ne _

theorem effects_moveChannel (x : Sequencer × Ram) (c : Fin channelCount) :
    (moveChannel x c).1.effects.get c = (x.1.effects.get c).tickOn := by
  unfold moveChannel
  dsimp only
  split <;> exact PerChannel.get_replace_self ..

/-- All commands count on when the channels are moved on. -/
theorem effects_moveOn (s : Sequencer) (p : MusicPosition) (r : Ram) (c : Fin channelCount) :
    ((s.moveOn p r).1.effects.get c) = (s.effects.get c).tickOn := by
  obtain ⟨y, before, after⟩ := foldl_of_mem moveChannel (fun x y => SameAt c x.1 y.1)
    (fun x => SameAt.refl c x.1) SameAt.trans (fun x d ne => sameAt_moveChannel x (Ne.symm ne))
    nodup_turns (mem_allChannels c) rfl (s, p.store r)
  unfold moveOn
  dsimp only
  rw [playChannels_eq, after.effects, effects_moveChannel, before.effects]

end Sequencer

end FantasyConsole
