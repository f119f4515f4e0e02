import FantasyConsole.Memory.Layout

/-!
# Cart sections

A cart bank is divided into sections. Each section maps onto one region of memory and has one bit
in a set of sections; the regions of different sections do not meet.
-/

namespace FantasyConsole

/-- A part of a cart bank that is copied as a whole. -/
inductive Section where
  | tiles
  | sprites
  | map
  | sfx
  | music
  | palette
  | flags
  | screen
deriving DecidableEq, Repr

namespace Section

/-- Every section, in the order of their bits. -/
def all : List Section := [tiles, sprites, map, sfx, music, palette, flags, screen]

def bit : Section → UInt8
  | tiles => 0x01
  | sprites => 0x02
  | map => 0x04
  | sfx => 0x08
  | music => 0x10
  | palette => 0x20
  | flags => 0x40
  | screen => 0x80

/-- The region of memory that the section maps onto. -/
def region : Section → Region
  | tiles => Layout.tiles
  | sprites => Layout.sprites
  | map => Layout.map
  | sfx => ⟨Layout.waveforms.offset, Layout.waveforms.size + Layout.samples.size⟩
  | music => ⟨Layout.patterns.offset, Layout.patterns.size + Layout.tracks.size⟩
  | palette => Layout.palette
  | flags => Layout.flags
  | screen => Layout.screen

/-- Number of bytes of the section. -/
def size (s : Section) : Nat := s.region.size

/-- The section's name in messages. -/
def name : Section → String
  | tiles => "Tiles"
  | sprites => "Sprites"
  | map => "Map"
  | sfx => "Sfx"
  | music => "Music"
  | palette => "Palette"
  | flags => "Flags"
  | screen => "Screen"

theorem mem_all (s : Section) : s ∈ all := by
  cases s <;> decide

theorem region_disjoint {s t : Section} (ne : s ≠ t) : s.region.Disjoint t.region := by
  cases s <;> cases t <;> first | exact absurd rfl ne | decide

theorem region_stop_le (s : Section) : s.region.stop ≤ Layout.memorySize := by
  cases s <;> decide

end Section

/-- A set of sections, one bit each. -/
structure SectionSet where
  bits : UInt8
deriving DecidableEq, Repr

namespace SectionSet

def empty : SectionSet := ⟨0⟩

def full : SectionSet := ⟨0xFF⟩

def singleton (s : Section) : SectionSet := ⟨s.bit⟩

/-- The set named by the low eight bits of a number. -/
def ofBits (n : Nat) : SectionSet := ⟨UInt8.ofNat n⟩

def isEmpty (a : SectionSet) : Bool := a.bits == 0

def includes (a b : SectionSet) : Bool := a.bits &&& b.bits == b.bits

def contains (a : SectionSet) (s : Section) : Bool := a.includes (singleton s)

def union (a b : SectionSet) : SectionSet := ⟨a.bits ||| b.bits⟩

def inter (a b : SectionSet) : SectionSet := ⟨a.bits &&& b.bits⟩

def without (a b : SectionSet) : SectionSet := ⟨a.bits &&& ~~~b.bits⟩

instance : Membership Section SectionSet := ⟨fun a s => a.contains s = true⟩

instance (s : Section) (a : SectionSet) : Decidable (s ∈ a) :=
  inferInstanceAs (Decidable (_ = true))

end SectionSet

end FantasyConsole
