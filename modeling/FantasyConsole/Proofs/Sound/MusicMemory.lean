import FantasyConsole.Proofs.Memory.Agreement
import FantasyConsole.Sound.State

/-!
# What sound reads and writes in memory

A frame of sound writes the registers, the stereo volumes, the positions of the effects and the
position of the music. Tracks and patterns it only reads, so the music that plays is changed by what
a program writes there and by nothing else.
-/

namespace FantasyConsole

/-! ### What the channels write -/

namespace Layout

/-- What a channel that is heard writes into. -/
def heard : List Region := [registers, stereo]

/-- What a channel that plays an effect writes into. -/
def effectOutput : List Region := [registers, stereo, effectPositions]

/-- What decides where the music goes on. -/
def song : List Region := [musicState, tracks, patterns]

/-- The register of a channel. -/
def registerOf (c : Fin channelCount) : Region :=
  ⟨registers.offset + c * registerBytes, registerBytes⟩

/-- The volumes of both sides of a channel. -/
def stereoOf (c : Fin channelCount) : Region := ⟨stereo.offset + c, 1⟩

/-- The envelope positions of an effect channel. -/
def positionsOf (c : Fin channelCount) : Region := ⟨effectPositions.offset + 4 * c, 4⟩

/-- What a channel writes into when it is heard. -/
def heardOf (c : Fin channelCount) : List Region := [registerOf c, stereoOf c]

/-- What an effect channel writes into. -/
def effectOutputOf (c : Fin channelCount) : List Region := [registerOf c, stereoOf c, positionsOf c]

theorem heardOf_within (c : Fin channelCount) : ∀ g ∈ heardOf c, ∃ h ∈ heard, g.Within h := by
  decide +revert

theorem positionsOf_within (c : Fin channelCount) :
    ∀ g ∈ [positionsOf c], ∃ h ∈ [effectPositions], g.Within h := by
  decide +revert

theorem effectOutputOf_within (c : Fin channelCount) :
    ∀ g ∈ effectOutputOf c, ∃ h ∈ effectOutput, g.Within h := by
  decide +revert

theorem heardOf_disjoint (c : Fin channelCount) :
    ∀ g ∈ heardOf c, ∀ h ∈ [positionsOf c], g.Disjoint h := by
  decide +revert

theorem positionsOf_disjoint {c d : Fin channelCount} (ne : d ≠ c) :
    ∀ h ∈ [positionsOf d], ∀ g ∈ [positionsOf c], h.Disjoint g := by
  decide +revert

/-- What two effect channels write shares no byte. -/
theorem effectOutputOf_disjoint {c d : Fin channelCount} (ne : c ≠ d) :
    ∀ g ∈ effectOutputOf c, ∀ h ∈ effectOutputOf d, g.Disjoint h := by
  decide +revert

end Layout

open Ram

theorem Register.sameOutside_store (g : Register) (c : Fin channelCount) (r : Ram) :
    SameOutside (Layout.heardOf c) r (g.store c r) := by
  have register : Layout.registerOf c ∈ Layout.heardOf c := .head _
  have stereo : Layout.stereoOf c ∈ Layout.heardOf c := .tail _ (.head _)
  unfold Register.store
  refine ((((r.sameOutside_setByte register ?_ _).trans
    (sameOutside_setByte _ register ?_ _)).trans
    (sameOutside_setBlock _ register ?_ ?_ _)).trans
    (sameOutside_setPacked _ stereo ?_ _)).trans (sameOutside_setPacked _ stereo ?_ _)
  all_goals
    simp only [Region.Contains, Region.stop, Layout.registerOf, Layout.stereoOf, registerBytes,
      waveformBytes, Width.byteIndex, Width.perByte]
    omega

theorem Channel.sameOutside_play (ch : Channel) (c : Fin channelCount) (r : Ram)
    (note pitch : Int) : SameOutside (Layout.heardOf c) r (ch.play c r note pitch).2 := by
  unfold Channel.play
  split
  · exact Register.sameOutside_store _ c r
  · exact SameOutside.refl _ r

theorem Channel.sameOutside_storePositions (ch : Channel) (c : Fin channelCount) (r : Ram) :
    SameOutside [Layout.positionsOf c] r (ch.storePositions c r) :=
  r.sameOutside_setRegion (g := Layout.positionsOf c) (.head _) _

theorem Sequencer.sameOutside_playChannels (s : Sequencer) (r : Ram) :
    SameOutside Layout.heard r (s.playChannels r).2 := by
  unfold Sequencer.playChannels
  generalize allChannels = channels
  induction channels generalizing s r with
  | nil => exact SameOutside.refl _ r
  | cons c channels ih =>
    rw [List.foldl_cons]
    dsimp only
    split
    · exact ((Channel.sameOutside_play _ c r _ _).widen (Layout.heardOf_within c)).trans (ih _ _)
    · exact ih _ _

theorem Sound.sameOutside_tickEffect (s : Sound) (r : Ram) (c : Fin channelCount) :
    SameOutside (Layout.effectOutputOf c) r (s.tickEffect r c).2 := by
  unfold Sound.tickEffect
  dsimp only
  split
  · have played := (s.effects.get c).sameOutside_play c r (s.effects.get c).note 0
    exact (played.mono (by simp [Layout.heardOf, Layout.effectOutputOf])).trans
      ((Channel.sameOutside_storePositions _ c _).mono (by simp [Layout.effectOutputOf]))
  · exact SameOutside.refl _ r

/-! ### The position of the music -/

theorem signedByte_mem (b : UInt8) : -128 ≤ signedByte b ∧ signedByte b ≤ 127 := by
  have lower := le_two_mul_signExtend 8 b
  have upper := two_mul_signExtend_lt 8 b
  have values : (wordValues 8 : Int) = 256 := by decide
  unfold signedByte
  omega

theorem signedByte_byteOfInt {n : Int} (lower : -128 ≤ n) (upper : n ≤ 127) :
    signedByte (byteOfInt n) = n := by
  have value : ((byteOfInt n).toNat : Int) = n % 256 := by
    rw [byteOfInt, UInt8.toNat_ofNat']
    omega
  rw [signedByte, signExtend, value]
  exact (Int.emod_bmod n 256).trans (Int.bmod_eq_of_le (by omega) (by omega))

namespace MusicPosition

/-- Whether the numbers of a position fit into its bytes. -/
structure Fits (p : MusicPosition) : Prop where
  track : -128 ≤ p.track ∧ p.track ≤ 127
  frame : -128 ≤ p.frame ∧ p.frame ≤ 127
  row : -128 ≤ p.row ∧ p.row ≤ 127

theorem fits_load (r : Ram) : (load r).Fits := by
  constructor <;> simp only [load] <;> exact signedByte_mem _

theorem Fits.setFrame {p : MusicPosition} (fits : p.Fits) {frame : Int}
    (bound : -128 ≤ frame ∧ frame ≤ 127) : { p with frame := frame }.Fits :=
  { track := fits.track, frame := bound, row := fits.row }

theorem byte_store (p : MusicPosition) (r : Ram) (i : Nat) (h : i < 4) :
    (p.store r).byte (Layout.musicState.offset + i) =
      #v[byteOfInt p.track, byteOfInt p.frame, byteOfInt p.row, p.flags][i] := by
  have fits : Layout.musicState.stop ≤ Layout.memorySize := by decide
  have written := r.byte_setRegion_of_mem fits
    #v[byteOfInt p.track, byteOfInt p.frame, byteOfInt p.row, p.flags] i h
  exact written

/-- The flags are read as they were packed. -/
theorem flags_packed (p : MusicPosition) :
    (p.flags &&& 0x01 != 0) = p.looped ∧
    (match (p.flags >>> 1) &&& 0x03 with
      | 1 => MusicStatus.playFrame
      | 2 => .play
      | _ => .stopped) = p.status ∧
    (p.flags &&& 0x08 != 0) = p.sustain := by
  obtain ⟨track, frame, row, looped, status, sustain⟩ := p
  simp only [flags]
  cases looped <;> cases status <;> cases sustain <;> decide

/-- A position that fits is read as it was stored. -/
theorem load_store {p : MusicPosition} (fits : p.Fits) (r : Ram) : load (p.store r) = p := by
  have track : (p.store r).byte Layout.musicState.offset = byteOfInt p.track :=
    p.byte_store r 0 (by decide)
  have frame : (p.store r).byte (Layout.musicState.offset + 1) = byteOfInt p.frame :=
    p.byte_store r 1 (by decide)
  have row : (p.store r).byte (Layout.musicState.offset + 2) = byteOfInt p.row :=
    p.byte_store r 2 (by decide)
  have flags : (p.store r).byte (Layout.musicState.offset + 3) = p.flags :=
    p.byte_store r 3 (by decide)
  obtain ⟨looped, status, sustain⟩ := p.flags_packed
  simp only [load, track, frame, row, flags, signedByte_byteOfInt fits.track.1 fits.track.2,
    signedByte_byteOfInt fits.frame.1 fits.frame.2, signedByte_byteOfInt fits.row.1 fits.row.2,
    looped, sustain]
  exact congrArg (MusicPosition.mk p.track p.frame p.row p.looped · p.sustain) status

theorem sameOutside_store (p : MusicPosition) (r : Ram) :
    SameOutside [Layout.musicState] r (p.store r) :=
  r.sameOutside_setRegion (by decide) _

theorem load_congr {r s : Ram} (same : SameOn [Layout.musicState] r s) : load s = load r := by
  have byte (i : Nat) (h : i < 4) :
      s.byte (Layout.musicState.offset + i) = r.byte (Layout.musicState.offset + i) :=
    same Layout.musicState (by decide) _ ⟨Nat.le_add_right _ _, Nat.add_lt_add_left h _⟩
  have first := byte 0 (by decide)
  simp only [Nat.add_zero] at first
  simp only [load, first, byte 1 (by decide), byte 2 (by decide), byte 3 (by decide)]

end MusicPosition

/-! ### Tracks and patterns -/

theorem Track.decode_congr {a b : Nat → UInt8} (same : ∀ k < trackBytes, a k = b k) :
    decode a = decode b := by
  simp only [decode, Track.mk.injEq]
  refine ⟨?_, by rw [same 48 (by decide)], by rw [same 49 (by decide)], by rw [same 50 (by decide)]⟩
  refine Vector.ext fun i h => ?_
  have inside : i < 16 := h
  simp only [Vector.getElem_ofFn]
  rw [same (3 * i) (by simp only [trackBytes]; omega),
    same (3 * i + 1) (by simp only [trackBytes]; omega),
    same (3 * i + 2) (by simp only [trackBytes]; omega)]

theorem Track.load_congr {r s : Ram} (same : SameOn [Layout.tracks] r s) (i : Fin trackCount) :
    load s i = load r i := by
  apply decode_congr
  intro k below
  have track : i.val < 8 := i.isLt
  apply same Layout.tracks (by decide)
  simp only [Region.Contains, Region.stop, Layout.tracks, trackBytes] at below ⊢
  omega

theorem PatternRow.load?_congr {r s : Ram} (same : SameOn [Layout.patterns] r s) (id : Nat)
    (row : Int) : load? s id row = load? r id row := by
  simp only [load?]
  split
  case isTrue inside =>
    have byte (k : Nat) (h : k < 3) := by
      refine same Layout.patterns (by decide) (Layout.patterns.offset +
        (((id : Int) - 1) * (patternRows * rowBytes) + row * rowBytes).toNat + k) ?_
      simp only [Region.Contains, Region.stop, Layout.patterns, patternRows, rowBytes] at inside ⊢
      omega
    have first := byte 0 (by decide)
    simp only [Nat.add_zero] at first
    rw [first, byte 1 (by decide), byte 2 (by decide)]
  case isFalse => rfl

end FantasyConsole
