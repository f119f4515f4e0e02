import FantasyConsole.Cart.Section
import FantasyConsole.Palette

/-!
# Carts

A cart is eight banks of assets and the text of a program. In a bank every section has exactly the
size of its region of memory, which its type states.
-/

namespace FantasyConsole

abbrev Cart.bankCount : Nat := 8

/-- One bank of assets: the sections, and the palette of the overlay pass. -/
structure Bank where
  tiles : Vector UInt8 Section.tiles.size
  sprites : Vector UInt8 Section.sprites.size
  map : Vector UInt8 Section.map.size
  /-- Waveforms followed by samples. -/
  sfx : Vector UInt8 Section.sfx.size
  /-- Patterns followed by tracks. -/
  music : Vector UInt8 Section.music.size
  palette : Vector UInt8 Section.palette.size
  flags : Vector UInt8 Section.flags.size
  screen : Vector UInt8 Section.screen.size
  overlayPalette : Vector UInt8 paletteBytes

namespace Bank

/-- A bank of zeros with the default palette. -/
def blank : Bank where
  tiles := Vector.replicate _ 0
  sprites := Vector.replicate _ 0
  map := Vector.replicate _ 0
  sfx := Vector.replicate _ 0
  music := Vector.replicate _ 0
  palette := defaultPalette
  flags := Vector.replicate _ 0
  screen := Vector.replicate _ 0
  overlayPalette := Vector.replicate _ 0

def get (b : Bank) : (s : Section) → Vector UInt8 s.size
  | .tiles => b.tiles
  | .sprites => b.sprites
  | .map => b.map
  | .sfx => b.sfx
  | .music => b.music
  | .palette => b.palette
  | .flags => b.flags
  | .screen => b.screen

def set (b : Bank) (s : Section) (data : Vector UInt8 s.size) : Bank :=
  match s with
  | .tiles => { b with tiles := data }
  | .sprites => { b with sprites := data }
  | .map => { b with map := data }
  | .sfx => { b with sfx := data }
  | .music => { b with music := data }
  | .palette => { b with palette := data }
  | .flags => { b with flags := data }
  | .screen => { b with screen := data }

@[simp] theorem get_set_self (b : Bank) (s : Section) (data : Vector UInt8 s.size) :
    (b.set s data).get s = data := by
  cases s <;> rfl

theorem get_set_of_ne (b : Bank) {s t : Section} (ne : t ≠ s) (data : Vector UInt8 s.size) :
    (b.set s data).get t = b.get t := by
  cases s <;> cases t <;> first | exact absurd rfl ne | rfl

@[simp] theorem overlayPalette_set (b : Bank) (s : Section) (data : Vector UInt8 s.size) :
    (b.set s data).overlayPalette = b.overlayPalette := by
  cases s <;> rfl

/-- Why a section was not replaced. -/
structure SizeMismatch where
  place : Section
  got : Nat
deriving DecidableEq, Repr

def SizeMismatch.message (e : SizeMismatch) : String :=
  s!"{e.place.name} section needs {e.place.size} bytes, got {e.got}"

/-- Replaces a whole section; the bytes must be exactly as many as the section has. -/
def replace? (b : Bank) (s : Section) (data : Array UInt8) : Except SizeMismatch Bank :=
  if h : data.size = s.size then .ok (b.set s ⟨data, h⟩) else .error ⟨s, data.size⟩

/-- Writes bytes over the part of a vector that begins at `start`. -/
def overwrite {n : Nat} (target : Vector UInt8 n) (start : Nat) (data : Array UInt8) :
    Vector UInt8 n :=
  data.size.fold (fun i h target => target.setIfInBounds (start + i) data[i]) target

/-- Replaces the part of a section that begins at `start`. -/
def patch (b : Bank) (s : Section) (start : Nat) (data : Array UInt8) : Bank :=
  b.set s (overwrite (b.get s) start data)

/-- Replaces the part of the overlay palette that begins at `start`. -/
def patchOverlay (b : Bank) (start : Nat) (data : Array UInt8) : Bank :=
  { b with overlayPalette := overwrite b.overlayPalette start data }

end Bank

/-- The banks and the program text of a cart. -/
structure Cart where
  banks : Vector Bank Cart.bankCount
  code : String

namespace Cart

/-- A cart of blank banks with the given program text. -/
def ofCode (code : String) : Cart := ⟨Vector.replicate _ Bank.blank, code⟩

/-- The cart that is in place when none is loaded. -/
def blank : Cart := ofCode ""

def bank (c : Cart) (i : Fin bankCount) : Bank := c.banks[i]

def setBank (c : Cart) (i : Fin bankCount) (b : Bank) : Cart :=
  { c with banks := c.banks.set i b }

/-- The bank that a number names, if there is one. -/
def bank? (n : Int) : Option (Fin bankCount) :=
  if h : 0 ≤ n ∧ n < bankCount then some ⟨n.toNat, by omega⟩ else none

@[simp] theorem bank_setBank_self (c : Cart) (i : Fin bankCount) (b : Bank) :
    (c.setBank i b).bank i = b := by
  simp [bank, setBank]

theorem bank_setBank_of_ne (c : Cart) {i j : Fin bankCount} (ne : j ≠ i) (b : Bank) :
    (c.setBank i b).bank j = c.bank j := by
  have : i.val ≠ j.val := fun h => ne (Fin.ext h.symm)
  simp [bank, setBank, Vector.getElem_set_ne, this]

/-- The bank that a program starts with. -/
def startBank : Fin bankCount := 0

/-- The sections that are loaded when the program starts: all of them, but the screen only when
the bank that it starts with has one that is not blank. -/
def startupSections (c : Cart) : SectionSet :=
  if (c.bank startBank).screen.all (· == 0) then
    SectionSet.full.without (.singleton .screen)
  else
    SectionSet.full

end Cart

end FantasyConsole
