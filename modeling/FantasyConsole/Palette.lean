/-!
# Colours

A palette is sixteen colours stored as packed `r, g, b` bytes. Before rows are drawn it is turned
into host pixels of the requested format, and colour indices are then looked up directly.
-/

namespace FantasyConsole

/-- How a host pixel is laid out in memory, byte by byte. -/
inductive PixelFormat where
  /-- Bytes `r, g, b, a`. -/
  | rgba8888
  /-- Bytes `b, g, r, a`. -/
  | bgra8888
deriving DecidableEq, Repr

structure Rgb where
  r : UInt8
  g : UInt8
  b : UInt8
deriving DecidableEq, Repr

/-- An opaque host pixel, as the little-endian word of its four bytes. -/
def PixelFormat.pack (format : PixelFormat) (c : Rgb) : UInt32 :=
  match format with
  | .rgba8888 =>
    (0xFF000000 : UInt32) ||| (c.b.toUInt32 <<< 16) ||| (c.g.toUInt32 <<< 8) ||| c.r.toUInt32
  | .bgra8888 =>
    (0xFF000000 : UInt32) ||| (c.r.toUInt32 <<< 16) ||| (c.g.toUInt32 <<< 8) ||| c.b.toUInt32

def paletteColors : Nat := 16

def paletteBytes : Nat := 48

structure HostPalette where
  colors : Vector UInt32 paletteColors
deriving DecidableEq, Repr

namespace HostPalette

/-- Converts a packed palette. Bytes that are missing at the end read as 0. -/
def ofBytes (format : PixelFormat) (bytes : Array UInt8) : HostPalette where
  colors := Vector.ofFn fun i =>
    format.pack
      { r := bytes.getD (3 * i) 0, g := bytes.getD (3 * i + 1) 0, b := bytes.getD (3 * i + 2) 0 }

/-- The host pixel of a colour index; only the low four bits of the index count. -/
def color (p : HostPalette) (index : Nat) : UInt32 :=
  p.colors.get ⟨index % paletteColors, Nat.mod_lt _ (by decide)⟩

def size (_ : HostPalette) : Nat := paletteColors

/-- Whether there is no colour. -/
def isEmpty (p : HostPalette) : Bool := p.size == 0

end HostPalette

/-- The palette of a blank cart. -/
def defaultPalette : Vector UInt8 paletteBytes := #v[
  0x1a, 0x1c, 0x2c, 0x5d, 0x27, 0x5d, 0xb1, 0x3e, 0x53, 0xef, 0x7d, 0x57,
  0xff, 0xcd, 0x75, 0xa7, 0xf0, 0x70, 0x38, 0xb7, 0x64, 0x25, 0x71, 0x79,
  0x29, 0x36, 0x6f, 0x3b, 0x5d, 0xc9, 0x41, 0xa6, 0xf6, 0x73, 0xef, 0xf7,
  0xf4, 0xf4, 0xf4, 0x94, 0xb0, 0xc2, 0x56, 0x6c, 0x86, 0x33, 0x3c, 0x57]

end FantasyConsole
