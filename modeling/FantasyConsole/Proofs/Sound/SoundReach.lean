import FantasyConsole.Proofs.Sound.Arrival

/-!
# Reachable states of sound

Between two operations on sound a program can write anything into memory, so a state is reachable
by any sequence of operations, each on a memory of its own. Whatever memory held, the numbers of the
state stay in bounds, and the sequencer holds back no row that did not ask for it.
-/

namespace FantasyConsole

namespace Sequencer

/-! ### Rows that are held back -/

theorem HoldsDelays.of_held_eq {s u : Sequencer} (holds : s.HoldsDelays) (same : u.held = s.held) :
    u.HoldsDelays := by
  intro c row found
  rw [same] at found
  exact holds c row found

theorem holdsDelays_clear (s : Sequencer) : s.clear.HoldsDelays := by
  intro c row found
  rw [held, clear, PerChannel.get_replicate] at found
  cases found

theorem holdsDelays_fresh : fresh.HoldsDelays := by
  intro c row found
  rw [held, fresh, PerChannel.get_replicate] at found
  cases found

namespace HoldsDelays

variable {s : Sequencer} (holds : s.HoldsDelays)
include holds

theorem start (r : Ram) (track : Fin trackCount) (frame row : Int) (looped sustain : Bool)
    (tempo speed : Option Nat) :
    (s.start r track frame row looped sustain tempo speed).1.HoldsDelays :=
  holds.of_held_eq rfl

theorem moveOn (p : MusicPosition) (r : Ram) : (s.moveOn p r).1.HoldsDelays :=
  holds.of_held_eq (s.moveOn_keeps p r).2.2

theorem takeJump (t : Track) (p : MusicPosition) : (s.takeJump t p).1.HoldsDelays := by
  rcases s.takeJump_cases t p with same | ⟨jump, -, -, taken⟩
  · rw [same]
    exact holds
  · rw [taken]
    exact holds.of_held_eq rfl

theorem turnFrame {u : Sequencer} {t : Track} {p q : MusicPosition} {row next : Int}
    (turned : s.turnFrame t p row = some (u, q, next)) : u.HoldsDelays := by
  rcases turnFrame_cases turned with ⟨-, same, -⟩ | ⟨-, reset, -⟩
  · rw [same]
    exact holds
  · rw [reset]
    cases p.sustain
    · exact (holdsDelays_clear { s with ticks := 0 }).of_held_eq rfl
    · exact holds.of_held_eq rfl

theorem arrival? {r : Ram} {a : Arrival} (arrived : s.arrival? r = some a) :
    a.music.HoldsDelays := by
  obtain ⟨index, u, p, row, -, -, -, jumped, turned⟩ := arrival?_eq_some arrived
  have reached := holds.takeJump a.track (MusicPosition.load r)
  rw [jumped] at reached
  exact reached.turnFrame turned

theorem tick {r : Ram} {result : Sequencer × Ram} (ticked : s.tick r = .ok result) :
    result.1.HoldsDelays := by
  cases arrived : s.arrival? r with
  | some a =>
    rw [(tick_eq_moveOn arrived ticked).1]
    exact ((holds.arrival? arrived).hand r (a.rows r)).moveOn a.published r
  | none =>
    rcases tick_of_no_arrival arrived with ⟨-, same⟩ | ⟨u, stops⟩
    · rw [same] at ticked
      cases ticked
      exact holds
    · rw [stops] at ticked
      cases ticked
      exact u.holdsDelays_clear

end HoldsDelays

end Sequencer

namespace Sound

theorem playMusic?_of_neg (s : Sound) (r : Ram) {track : Int} (neg : track < 0) (frame row : Int)
    (looped sustain : Bool) (tempo speed : Int) :
    s.playMusic? r track frame row looped sustain tempo speed =
      some ({ s with music := s.music.clear }, (s.music.stop r).2) :=
  if_pos neg

theorem playMusic?_of_index (s : Sound) (r : Ram) {track : Int} {index : Fin trackCount}
    (found : Track.index? track = some index) (frame row : Int) (looped sustain : Bool)
    (tempo speed : Int) :
    s.playMusic? r track frame row looped sustain tempo speed =
      let begun := s.music.start r index frame row looped sustain tempo.toNat? speed.toNat?
      some ({ s with music := begun.1 }, begun.2) := by
  have named : 0 ≤ track := by
    unfold Track.index? at found
    split at found
    case isTrue bounds => exact bounds.1
    case isFalse => cases found
  rw [playMusic?, if_neg (by omega), found]

/-! ### Any sequence of operations -/

inductive Reachable : Sound → Prop
  | fresh : Reachable fresh
  | playEffect {s : Sound} {r : Ram} {index note octave duration channel : Int}
      {left right : UInt8} {speed : Int} {result : Sound × Ram} (reached : Reachable s)
      (played :
        s.playEffect? r index note octave duration channel left right speed = some result) :
      Reachable result.1
  | playMusic {s : Sound} {r : Ram} {track frame row : Int} {looped sustain : Bool}
      {tempo speed : Int} {result : Sound × Ram} (reached : Reachable s)
      (played : s.playMusic? r track frame row looped sustain tempo speed = some result) :
      Reachable result.1
  | reset {s : Sound} (reached : Reachable s) (r : Ram) : Reachable (s.reset r).1
  | beginFrame {s : Sound} {r : Ram} {result : Sound × Ram} (reached : Reachable s)
      (begun : s.beginFrame r = .ok result) : Reachable result.1
  | endFrame {s : Sound} (reached : Reachable s) (r : Ram) : Reachable (s.endFrame r)
  | advance {s : Sound} (reached : Reachable s) : Reachable { s with ring := s.ring.advance }

namespace Reachable

theorem inRange {s : Sound} (reached : s.Reachable) : s.InRange := by
  induction reached with
  | fresh => exact inRange_fresh
  | playEffect _ played ih => exact ih.playEffect? played
  | playMusic _ played ih => exact ih.playMusic? played
  | reset _ r ih => exact ih.reset r
  | beginFrame _ begun ih => exact ih.beginFrame begun
  | endFrame _ r ih => exact ih.endFrame r
  | advance _ ih => exact ih.advance

theorem holdsDelays {s : Sound} (reached : s.Reachable) : s.music.HoldsDelays := by
  induction reached with
  | fresh => exact Sequencer.holdsDelays_fresh
  | playEffect _ played ih =>
    unfold playEffect? at played
    split at played
    case isTrue =>
      cases played
      exact ih
    case isFalse => cases played
  | playMusic _ played ih =>
    unfold playMusic? at played
    split at played
    case isTrue =>
      cases played
      exact Sequencer.holdsDelays_clear _
    case isFalse =>
      split at played
      case h_1 =>
        cases played
        exact ih.start _ _ _ _ _ _ _ _
      case h_2 => cases played
  | reset _ r _ => exact Sequencer.holdsDelays_fresh
  | beginFrame _ begun ih =>
    obtain ⟨moved, ticked, music, -⟩ := tick_of_beginFrame begun
    rw [music]
    exact ih.tick ticked
  | endFrame _ _ ih => exact ih
  | advance _ ih => exact ih

end Reachable

end Sound

end FantasyConsole
