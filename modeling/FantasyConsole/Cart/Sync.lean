import FantasyConsole.Cart.Basic
import FantasyConsole.Memory.Ram

/-!
# Copying sections between memory and a cart bank

A synchronisation copies whole sections between one bank and their regions of memory. Sections that
were already copied since the frame began are skipped. The palette section brings the overlay
palette with it.
-/

namespace FantasyConsole

/-- Which side a section is copied to. -/
inductive Direction where
  | toCart
  | toMemory
deriving DecidableEq, Repr

/-- The places between which sections are copied. -/
structure SyncStores where
  ram : Ram
  cart : Cart
  overlayPalette : Vector UInt8 paletteBytes

namespace SyncStores

/-- Copies one section, without the overlay palette. -/
def copySection (t : SyncStores) (bank : Fin Cart.bankCount) (d : Direction) (s : Section) :
    SyncStores :=
  match d with
  | .toCart =>
    { t with cart := t.cart.setBank bank ((t.cart.bank bank).set s (t.ram.region s.region)) }
  | .toMemory => { t with ram := t.ram.setRegion s.region ((t.cart.bank bank).get s) }

def copyOverlay (t : SyncStores) (bank : Fin Cart.bankCount) (d : Direction) : SyncStores :=
  match d with
  | .toCart =>
    let overlay := t.overlayPalette
    { t with cart := t.cart.setBank bank { t.cart.bank bank with overlayPalette := overlay } }
  | .toMemory => { t with overlayPalette := (t.cart.bank bank).overlayPalette }

/-- Copies one section with everything that belongs to it. -/
def transfer (t : SyncStores) (bank : Fin Cart.bankCount) (d : Direction) (s : Section) :
    SyncStores :=
  let t := t.copySection bank d s
  if s = .palette then t.copyOverlay bank d else t

/-- Copies every section of a set, in the order of their bits. -/
def transferAll (t : SyncStores) (bank : Fin Cart.bankCount) (d : Direction)
    (sections : SectionSet) : SyncStores :=
  (Section.all.filter (· ∈ sections)).foldl (·.transfer bank d ·) t

end SyncStores

/-- The sections that a request names: the empty request names all of them. -/
def SectionSet.requested (mask : SectionSet) : SectionSet :=
  if mask.isEmpty then .full else mask

end FantasyConsole
