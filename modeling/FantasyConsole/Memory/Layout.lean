/-!
# Screen dimensions and the memory map

Guests address memory directly, so the place of every region is fixed. This module names the
regions and says how large the screen and the full frame are.
-/

namespace FantasyConsole

namespace Screen

/-- Visible width in pixels. -/
def width : Nat := 240

/-- Visible height in pixels. -/
def height : Nat := 136

/-- Width of the output frame, left and right border included. -/
def fullWidth : Nat := 256

/-- Height of the output frame, top and bottom border included. -/
def fullHeight : Nat := 144

/-- Border rows above the visible screen. -/
def top : Nat := (fullHeight - height) / 2

/-- Border columns to the left of the visible screen. -/
def left : Nat := (fullWidth - width) / 2

/-- Number of visible pixels. -/
def pixels : Nat := width * height

/-- Frames per second. -/
def frameRate : Nat := 60

end Screen

/-- A fixed range of bytes in memory. -/
structure Region where
  offset : Nat
  size : Nat
deriving DecidableEq, Repr

/-- One past the last byte. -/
def Region.stop (g : Region) : Nat := g.offset + g.size

/-- Whether byte `i` belongs to the region. -/
def Region.Contains (g : Region) (i : Nat) : Prop := g.offset ≤ i ∧ i < g.stop

instance (g : Region) (i : Nat) : Decidable (g.Contains i) :=
  inferInstanceAs (Decidable (_ ∧ _))

/-- Whether two regions share no byte. -/
def Region.Disjoint (g h : Region) : Prop := g.stop ≤ h.offset ∨ h.stop ≤ g.offset

instance (g h : Region) : Decidable (g.Disjoint h) :=
  inferInstanceAs (Decidable (_ ∨ _))

theorem Region.Disjoint.not_contains {g h : Region} (apart : g.Disjoint h) {i : Nat}
    (inside : g.Contains i) : ¬ h.Contains i := by
  simp only [Region.Disjoint, Region.Contains] at *
  omega

namespace Layout

/-- Number of bytes of memory. -/
def memorySize : Nat := 0x18000

/-- Number of persistent memory slots, 32 bits each. -/
def persistentSlots : Nat := 256

/-- The part of memory that is banked: it begins with the screen and ends before the tiles. -/
def video : Region := ⟨0x00000, 0x4000⟩
/-- The screen bitmap, four bits for each visible pixel. -/
def screen : Region := ⟨0x00000, 16320⟩
def palette : Region := ⟨0x03FC0, 48⟩
/-- Sixteen values of four bits: the colour that is stored when a colour is drawn. -/
def paletteMap : Region := ⟨0x03FF0, 8⟩
def border : Region := ⟨0x03FF8, 1⟩
/-- Signed scroll offset, `x` then `y`. -/
def scroll : Region := ⟨0x03FF9, 2⟩
def cursor : Region := ⟨0x03FFB, 1⟩
def blitSegment : Region := ⟨0x03FFC, 1⟩
def tiles : Region := ⟨0x04000, 8192⟩
def sprites : Region := ⟨0x06000, 8192⟩
def map : Region := ⟨0x08000, 32640⟩
def gamepads : Region := ⟨0x0FF80, 4⟩
def mouse : Region := ⟨0x0FF84, 4⟩
def keyboard : Region := ⟨0x0FF88, 4⟩
/-- Envelope positions of the effect channels, four bytes for each channel. -/
def effectPositions : Region := ⟨0x0FF8C, 16⟩
def registers : Region := ⟨0x0FF9C, 72⟩
def waveforms : Region := ⟨0x0FFE4, 256⟩
def samples : Region := ⟨0x100E4, 4224⟩
def patterns : Region := ⟨0x11164, 11520⟩
def tracks : Region := ⟨0x13E64, 408⟩
def musicState : Region := ⟨0x13FFC, 4⟩
def stereo : Region := ⟨0x14000, 4⟩
def persistent : Region := ⟨0x14004, 1024⟩
def flags : Region := ⟨0x14404, 512⟩

/-- The palette map that sends every colour to itself. -/
def identityPaletteMap : Vector UInt8 paletteMap.size :=
  #v[0x10, 0x32, 0x54, 0x76, 0x98, 0xBA, 0xDC, 0xFE]

end Layout

end FantasyConsole
