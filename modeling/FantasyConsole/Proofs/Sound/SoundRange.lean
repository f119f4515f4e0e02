import FantasyConsole.Proofs.Sound.PlayQueue
import FantasyConsole.Proofs.Sound.SequencerRange
import FantasyConsole.Sound.State

/-!
# The range of the sound state

Effects are started with numbers that a program chooses, so they are limited when they are started.
With the sequencer and the ring they make up the sound state, which every operation on sound keeps in
its bounds.
-/

namespace FantasyConsole

namespace SoundRing

theorem pending_push_le {q : SoundRing} (bounded : q.pending ≤ 10) (entry : RegisterFrame) :
    (q.push entry).pending ≤ 10 := by
  by_cases full : q.pending = 10
  · rw [pending_push_full q entry full]
    exact bounded
  · -- the bound is strict here, so one more entry fits
    rw [pending_push q entry (by omega)]
    omega

theorem pending_advance_le (q : SoundRing) : q.advance.pending ≤ q.pending := by
  by_cases empty : q.pending = 0
  · exact Nat.le_of_eq (congrArg pending (advance_of_empty empty))
  · have moved := pending_advance empty
    omega

end SoundRing

namespace Sound

/-- How far the numbers of the sound state can go. -/
structure InRange (s : Sound) : Prop where
  effects : ∀ c, (s.effects.get c).InRange
  music : s.music.InRange
  slots : s.ring.head.val < 12 ∧ s.ring.tail.val < 12
  pending : s.ring.pending ≤ 10

theorem inRange_fresh : fresh.InRange where
  effects c := by
    rw [fresh, PerChannel.get_replicate]
    exact Channel.inRange_default
  music := Sequencer.inRange_fresh
  slots := by decide
  pending := by decide

theorem toNat_limitVolume (volume : UInt8) : (limitVolume volume).toNat ≤ 15 := by
  change (if volume ≤ 15 then volume else 15).toNat ≤ 15
  split
  case isTrue small => exact UInt8.le_iff_toNat_le.mp small
  case isFalse => decide

namespace InRange

variable {s : Sound} (inRange : s.InRange)
include inRange

theorem playEffect? {r : Ram} {index note octave duration channel : Int} {left right : UInt8}
    {speed : Int} {result : Sound × Ram}
    (played : s.playEffect? r index note octave duration channel left right speed = some result) :
    result.1.InRange := by
  unfold Sound.playEffect? at played
  split at played
  case isTrue =>
    cases played
    refine { inRange with effects := PerChannel.forall_replace inRange.effects ?_ _ }
    exact (inRange.effects _).start r _ _ _ _ (toNat_limitVolume left) (toNat_limitVolume right)
      fun _ => Channel.speed_mem_of_speed?
  case isFalse => cases played

theorem playMusic? {r : Ram} {track frame row : Int} {looped sustain : Bool} {tempo speed : Int}
    {result : Sound × Ram}
    (played : s.playMusic? r track frame row looped sustain tempo speed = some result) :
    result.1.InRange := by
  unfold Sound.playMusic? at played
  split at played
  case isTrue =>
    cases played
    exact { inRange with music := inRange.music.stop r }
  case isFalse =>
    split at played
    case h_1 =>
      cases played
      exact { inRange with music := inRange.music.start r _ _ _ _ _ _ _ }
    case h_2 => cases played

theorem reset (r : Ram) : (s.reset r).1.InRange :=
  { inRange_fresh with slots := inRange.slots, pending := inRange.pending }

theorem tickEffect (r : Ram) (c : Fin channelCount) : (s.tickEffect r c).1.InRange := by
  unfold Sound.tickEffect
  dsimp only
  split
  · have played := (inRange.effects c).play c r (s.effects.get c).note 0
    exact { inRange with effects := PerChannel.forall_replace inRange.effects played c }
  · exact inRange

theorem endFrame (r : Ram) : (s.endFrame r).InRange :=
  { inRange with
    slots := ⟨Fin.isLt _, Fin.isLt _⟩
    pending := SoundRing.pending_push_le inRange.pending _ }

theorem advance : { s with ring := s.ring.advance }.InRange :=
  { inRange with
    slots := ⟨Fin.isLt _, Fin.isLt _⟩
    pending := Nat.le_trans s.ring.pending_advance_le inRange.pending }

end InRange

theorem InRange.tickEffects {s : Sound} (inRange : s.InRange) (r : Ram)
    (channels : List (Fin channelCount)) :
    (channels.foldl (fun (s, r) c => Sound.tickEffect s r c) (s, r)).1.InRange := by
  induction channels generalizing s r with
  | nil => exact inRange
  | cons c channels ih => exact ih (inRange.tickEffect r c) _

theorem InRange.beginFrame {s : Sound} (inRange : s.InRange) {r : Ram} {result : Sound × Ram}
    (begun : s.beginFrame r = .ok result) : result.1.InRange := by
  unfold Sound.beginFrame at begun
  dsimp only at begun
  cases ticked : s.music.tick
      ((r.fillRegion Layout.registers 0).setWord Layout.stereo.offset 0xFFFFFFFF) with
  | error cause =>
    rw [ticked] at begun
    cases begun
  | ok moved =>
    rw [ticked] at begun
    -- the music moves on first, and the effects from where it leaves memory
    have music : { s with music := moved.1 }.InRange :=
      { inRange with music := inRange.music.tick ticked }
    simp only [bind, Except.bind, pure, Except.pure, Except.ok.injEq] at begun
    rw [← begun]
    exact music.tickEffects moved.2 allChannels

end Sound

end FantasyConsole
