import FantasyConsole.Console.Basic
import FantasyConsole.Proofs.Draw.Footprint
import FantasyConsole.Proofs.Memory.Regions

/-!
# Writes and marks

A program writes to memory in eight ways: packed values, copies, fills and the five drawing calls. A
write is described by the bits that it replaces and the values that it gives them; which pixels it
marks follows from the bits alone.

## Main result

`Console.marks_of_write`: after any write the marked pixels are those that were marked before and
the pixels of the screen that share a bit with the write. So a pixel that has changed is marked, and
a write beyond the screen marks nothing.
-/

namespace FantasyConsole

/-- A call that writes to memory. -/
inductive MemoryWrite where
  | poke (addr : Int) (v : UInt8) (w : Width)
  | copy (dst src n : Int)
  | fill (dst : Int) (v : UInt8) (n : Int)
  | clear (color : UInt8)
  | pixel (x y : Int) (color : UInt8)
  | rect (x y width height : Int) (color : UInt8)
  | outline (x y width height : Int) (color : UInt8)
  | line (s : Segment) (color : UInt8)

namespace MemoryWrite

/-- The console after the call. -/
def apply : MemoryWrite → Console → Console
  | poke addr v w, c => c.poke addr v w
  | copy dst src n, c => (c.copy dst src n).2
  | fill dst v n, c => (c.fill dst v n).2
  | clear color, c => c.draw (·.clear color)
  | pixel x y color, c => c.draw (·.setPixel x y color)
  | rect x y width height color, c => c.draw (·.rect x y width height color)
  | outline x y width height color, c => c.draw (·.outline x y width height color)
  | line s color, c => c.draw (·.line s color)

/-- The bits that the call replaces: those of the value, of the bytes or of the pixels inside the
clip; none if an address or a range lies outside memory. -/
def bits : MemoryWrite → Clip → Set Nat
  | poke addr _ w, _ => Ram.pokeBits addr w
  | copy dst src n, _ => Ram.copyBits dst src n
  | fill dst _ n, _ => Ram.fillBits dst n
  | clear _, clip => Canvas.clearBits clip
  | pixel x y _, clip => Canvas.putBits clip x y
  | rect x y width height _, clip => Canvas.areaBits clip x y width height
  | outline x y width height _, clip => Canvas.outlineBits clip x y width height
  | line s _, clip => Canvas.lineBits clip s

/-- The value that the call gives to bit `k`, if it replaces it. -/
def value : MemoryWrite → Ram → Nat → Bool
  | poke addr v w, _, k => byteBit v (k - addr.toNat * w.bits)
  | copy dst src _, r, k => r.bit (8 * src.toNat + (k - 8 * dst.toNat))
  | fill _ v _, _, k => byteBit v (k % 8)
  | clear color, r, k | pixel _ _ color, r, k | rect _ _ _ _ color, r, k
  | outline _ _ _ _ color, r, k | line _ color, r, k => byteBit (r.mapColor color) (k % 4)

end MemoryWrite

namespace Console

theorem ram_reportAccess (c : Console) (addr : Int) (w : Width) :
    (c.reportAccess addr w).ram = c.ram := by
  unfold reportAccess
  split <;> rfl

theorem ram_poke (c : Console) (addr : Int) (v : UInt8) (w : Width) :
    (c.poke addr v w).ram = c.ram.poke addr v w := by
  rw [← c.ram_reportAccess addr w]
  rfl

theorem stores_copy (c : Console) (dst src n : Int) :
    Ram.Stores (fun k => c.ram.bit (8 * src.toNat + (k - 8 * dst.toNat))) (Ram.copyBits dst src n)
      c.ram (c.copy dst src n).2.ram := by
  unfold copy
  split
  case h_1 ram copied => exact Ram.stores_copy? copied
  case h_2 refused =>
    have outside := (c.ram.copy?_eq_none_iff dst src n).mp refused
    exact Ram.Stores.nothing (fun k own => outside own.1) c.ram

theorem stores_fill (c : Console) (dst : Int) (v : UInt8) (n : Int) :
    Ram.Stores (fun k => byteBit v (k % 8)) (Ram.fillBits dst n) c.ram (c.fill dst v n).2.ram := by
  unfold fill
  split
  case h_1 ram filled => exact Ram.stores_fill? filled
  case h_2 refused =>
    have outside := (c.ram.fill?_eq_none_iff dst v n).mp refused
    exact Ram.Stores.nothing (fun k own => outside own.1) c.ram

end Console

/-- A call stores its values in its bits and leaves all others alone. -/
theorem MemoryWrite.stores_apply (w : MemoryWrite) (c : Console) :
    Ram.Stores (w.value c.ram) (w.bits c.state.clip) c.ram (w.apply c).ram := by
  cases w with
  | poke addr v w =>
    rw [apply, c.ram_poke]
    exact c.ram.stores_poke addr v w
  | copy dst src n => exact c.stores_copy dst src n
  | fill dst v n => exact c.stores_fill dst v n
  | clear color => exact (Canvas.colors_clear ⟨c.ram, c.state.clip⟩ color).stores
  | pixel x y color => exact (Canvas.colors_put ⟨c.ram, c.state.clip⟩ x y _).stores
  | rect x y width height color =>
    exact (Canvas.colors_fill ⟨c.ram, c.state.clip⟩ x y width height _).stores
  | outline x y width height color =>
    exact (Canvas.colors_outline ⟨c.ram, c.state.clip⟩ x y width height color).stores
  | line s color => exact (Canvas.colors_line ⟨c.ram, c.state.clip⟩ s color).stores

/-! ### What follows of the marks -/

namespace Ram

namespace Writes

variable {bits : Set Nat} {r s : Ram} (written : Writes bits r s)
include written

theorem marked_of_changed {p : Nat} (onScreen : p < Screen.pixels)
    (changed : s.pixel p ≠ r.pixel p) : s.dirty.contains p = true := by
  -- a pixel that the write does not touch has kept its four bits
  by_contra unmarked
  apply changed
  refine pixel_congr fun k own => written.outside k fun member => unmarked ?_
  exact (written.marks p).mpr (.inr ⟨onScreen, k, member, own⟩)

theorem dirty_of_beyond_screen (beyond : ∀ k ∈ bits, 8 * Layout.screen.size ≤ k) :
    s.dirty = r.dirty := by
  refine DirtyMask.ext_contains fun p => ?_
  rw [Bool.eq_iff_iff, written.marks]
  refine or_iff_left ?_
  rintro ⟨onScreen, k, member, own⟩
  have far := beyond k member
  simp only [Screen.pixels, Screen.width, Screen.height, Layout.screen] at onScreen far
  omega

end Writes

/-- A screen pixel is the packed value of four bits with the same index. -/
theorem setPixel_eq_poke (r : Ram) {p : Nat} (onScreen : p < Screen.pixels) (color : UInt8) :
    r.setPixel p color = r.poke p color .four := by
  have inside : Addressable .four p :=
    (addressable_iff .four p).mpr (byteIndex_lt_of_onScreen onScreen)
  -- the value marks the pixels from its first to its last bit, which is this one alone
  have first : p * Width.four.bits / 4 = p := Nat.mul_div_cancel p (by decide)
  have length : (p * Width.four.bits + Width.four.bits - 1) / 4 + 1 - p = 1 := by
    simp only [Width.bits]
    omega
  rw [setPixel, if_pos onScreen, poke, if_pos inside, Int.toNat_natCast, markPacked]
  simp only [first, length, DirtyMask.markRange_succ, DirtyMask.markRange_zero, Nat.add_zero]

end Ram

theorem Canvas.setPixel_eq_poke (r : Ram) {x y : Int} (column : 0 ≤ x ∧ x < 240)
    (row : 0 ≤ y ∧ y < 136) (color : UInt8) :
    (Canvas.setPixel ⟨r, .full⟩ x y color).ram = r.poke (240 * y + x) (r.mapColor color) .four := by
  have inside : Clip.full.Contains x y := by
    simp only [Clip.Contains, Clip.full, Screen.width, Screen.height]
    omega
  have index : ((pixelIndex x y : Nat) : Int) = 240 * y + x := by
    simp only [pixelIndex, Screen.width]
    omega
  have onScreen : pixelIndex x y < Screen.pixels := by
    simp only [Screen.pixels, Screen.width, Screen.height]
    omega
  rw [← index, ← r.setPixel_eq_poke onScreen]
  simp only [setPixel, put, if_pos inside]

namespace Console

/-- A write gives its bits their values and leaves every other bit of memory as it was. The marked
pixels afterwards are those that were marked before and exactly those pixels of the screen that
share a bit with the write. So a pixel of the screen that has changed is marked, and a write that
lies beyond the screen leaves the marks as they were. A pixel drawn under the full clip is the write
of the packed value with its index. -/
theorem marks_of_write (c : Console) (w : MemoryWrite) :
    (∀ k ∈ w.bits c.state.clip, (w.apply c).ram.bit k = w.value c.ram k) ∧
    (∀ k, k ∉ w.bits c.state.clip → (w.apply c).ram.bit k = c.ram.bit k) ∧
    (∀ p, (w.apply c).ram.dirty.contains p = true ↔
      c.ram.dirty.contains p = true ∨
        p < Screen.pixels ∧ ∃ k ∈ w.bits c.state.clip, k / 4 = p) ∧
    (∀ p < Screen.pixels, (w.apply c).ram.pixel p ≠ c.ram.pixel p →
      (w.apply c).ram.dirty.contains p = true) ∧
    ((∀ k ∈ w.bits c.state.clip, 8 * Layout.screen.size ≤ k) →
      (w.apply c).ram.dirty = c.ram.dirty) ∧
    (∀ x y color, c.state.clip = .full → 0 ≤ x ∧ x < 240 → 0 ≤ y ∧ y < 136 →
      ((MemoryWrite.pixel x y color).apply c).ram =
        ((MemoryWrite.poke (240 * y + x) (c.ram.mapColor color) .four).apply c).ram) := by
  have stored := w.stores_apply c
  refine ⟨stored.inside, stored.outside, stored.marks, fun p => stored.toWrites.marked_of_changed,
    stored.toWrites.dirty_of_beyond_screen, ?_⟩
  intro x y color whole column row
  simp only [MemoryWrite.apply, draw, whole, ram_poke]
  exact Canvas.setPixel_eq_poke c.ram column row color

/-- Pixel 5 of an empty memory, and a byte beyond the screen. -/
theorem marks_of_write_pixel_five :
    let c : Console := { new {} {} with ram := .blank }
    let w : MemoryWrite := .poke 5 9 .four
    (20 ∈ w.bits c.state.clip ∧ (w.apply c).ram.bit 20 = true) ∧
    (24 ∉ w.bits c.state.clip ∧ (w.apply c).ram.bit 24 = c.ram.bit 24) ∧
    ((w.apply c).ram.pixel 5 ≠ c.ram.pixel 5 ∧ (w.apply c).ram.dirty.contains 5 = true) ∧
    ((MemoryWrite.poke 16320 1 .eight).apply c).ram.dirty = c.ram.dirty ∧
    ((MemoryWrite.pixel 3 4 7).apply c).ram =
      ((MemoryWrite.poke 963 (c.ram.mapColor 7) .four).apply c).ram := by
  intro c w
  obtain ⟨inside, outside, -, changed, -, pixel⟩ := marks_of_write c w
  obtain ⟨-, -, -, -, beyond, -⟩ := marks_of_write c (.poke 16320 1 .eight)
  have own : 20 ∈ w.bits c.state.clip := ⟨by decide, by decide, by decide⟩
  have other : 24 ∉ w.bits c.state.clip := by
    rintro ⟨-, -, upper⟩
    exact absurd upper (by decide)
  have before : c.ram.bit 20 = false := by
    simp only [c, Ram.bit, Ram.byte_blank]
    rfl
  have stored : (w.apply c).ram.bit 20 = true := (inside 20 own).trans rfl
  have differs : (w.apply c).ram.pixel 5 ≠ c.ram.pixel 5 := by
    intro same
    have kept : (w.apply c).ram.bit 20 = c.ram.bit 20 := Ram.bit_congr same rfl
    rw [stored, before] at kept
    cases kept
  refine ⟨⟨own, stored⟩, ⟨other, outside 24 other⟩,
    ⟨differs, changed 5 (by decide) differs⟩, beyond ?_, ?_⟩
  · rintro k ⟨-, lower, -⟩
    exact lower
  · exact pixel 3 4 7 rfl (by decide) (by decide)

end Console

end FantasyConsole
