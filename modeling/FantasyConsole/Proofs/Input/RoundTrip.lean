import FantasyConsole.Proofs.Input.Visibility
import FantasyConsole.Proofs.Memory.Bits
import Mathlib.Algebra.Group.Nat.Defs

/-!
# Input that is stored and read back

The input of one frame is coded into twelve bytes of memory. The code keeps all of it, except that
a scroll value is known modulo 64 only. The other way round nothing is lost: any twelve bytes are
the code of some input, so that memory stays as it is when the input that it holds is stored there.

In the word of the mouse buttons, fields of different sizes lie side by side and across the boundary
between two bytes. The word is read as a number of mixed radix, which is put together by adding
multiples and taken apart by division with remainder.
-/

namespace FantasyConsole

/-! ### Words of 16 bits as numbers -/

/-- A field that is put above the bits of a word is added to it. -/
theorem toNat_or_shiftLeft {word field place : UInt16} {low high bit : Nat}
    (word_eq : word.toNat = low) (field_eq : field.toNat = high) (place_eq : place.toNat = bit)
    (small : bit < 16) (below : low < 2 ^ bit) (fits : 2 ^ bit * high < 2 ^ 16) :
    (word ||| (field <<< place)).toNat = low + 2 ^ bit * high := by
  rw [UInt16.toNat_or, UInt16.toNat_shiftLeft, word_eq, field_eq, place_eq, Nat.mod_eq_of_lt small,
    Nat.shiftLeft_eq, Nat.mul_comm, Nat.mod_eq_of_lt fits, Nat.or_comm,
    ← Nat.two_pow_add_eq_or_of_lt below, Nat.add_comm]

/-- A flag is a binary digit. -/
theorem and_two_pow_ne_zero {word flag : UInt16} {bit : Nat} (flag_eq : flag.toNat = 2 ^ bit) :
    (word &&& flag != 0) = decide (word.toNat / 2 ^ bit % 2 = 1) := by
  rw [← Nat.testBit_eq_decide_div_mod_eq, ← and_one_shiftLeft_bne_zero, Nat.one_shiftLeft,
    ← flag_eq, ← UInt16.toNat_and, Bool.eq_iff_iff, bne_iff_ne, bne_iff_ne, ne_eq,
    ← UInt16.toNat_inj]
  rfl

theorem bmod_congr {a b : Int} {n : Nat} (same : a % n = b % n) : a.bmod n = b.bmod n := by
  rw [Int.bmod, Int.bmod, same]

/-- Six digits that lie above `bit` others, as a signed number. -/
theorem signExtend_shiftRight {word place : UInt16} {n bit : Nat} (word_eq : word.toNat = n)
    (place_eq : place.toNat = bit) (small : bit < 16) :
    signExtend 6 (word >>> place).toUInt8 = Int.bmod (n / 2 ^ bit % 64 : Nat) 64 := by
  have value : (word >>> place).toUInt8.toNat = n / 2 ^ bit % 256 := by
    rw [UInt16.toNat_toUInt8, UInt16.toNat_shiftRight, word_eq, place_eq, Nat.mod_eq_of_lt small,
      Nat.shiftRight_eq_div_pow]
  have values : wordValues 6 = 64 := rfl
  rw [signExtend, value, values]
  exact bmod_congr (by omega)

theorem bytes_of_word (word : UInt16) :
    word.toUInt8.toNat + 256 * (word >>> 8).toUInt8.toNat = word.toNat := by
  have bound := word.toNat_lt
  have high : (word >>> 8).toUInt8.toNat = word.toNat / 256 % 256 := by
    rw [UInt16.toNat_toUInt8, UInt16.toNat_shiftRight, Nat.shiftRight_eq_div_pow]
    rfl
  rw [UInt16.toNat_toUInt8, high]
  omega

/-! ### The mouse -/

namespace Mouse

/-- What memory keeps of a mouse: of a scroll value the signed number in its low six bits. -/
def kept (m : Mouse) : Mouse :=
  { m with scrollX := Int.bmod m.scrollX 64, scrollY := Int.bmod m.scrollY 64 }

theorem kept_eq_self {m : Mouse} (horizontal : -32 ≤ m.scrollX ∧ m.scrollX ≤ 31)
    (vertical : -32 ≤ m.scrollY ∧ m.scrollY ≤ 31) : m.kept = m := by
  have same {n : Int} (range : -32 ≤ n ∧ n ≤ 31) : Int.bmod n 64 = n :=
    Int.bmod_eq_of_le (by omega) (by omega)
  rw [kept, same horizontal, same vertical]

/-- The mouse whose buttons, scroll values and mode are the digits of a number. -/
def ofDigits (x y : UInt8) (n : Nat) : Mouse where
  x := x
  y := y
  left := n % 2 = 1
  middle := n / 2 % 2 = 1
  right := n / 4 % 2 = 1
  scrollX := Int.bmod (n / 8 % 64 : Nat) 64
  scrollY := Int.bmod (n / 512 % 64 : Nat) 64
  relative := n / 32768 % 2 = 1

theorem toNat_scrollBits (n : Int) : (scrollBits n).toNat = (n % 64).toNat := by
  have mask : (0x3F : UInt16).toNat = 2 ^ 6 - 1 := rfl
  rw [scrollBits, UInt16.toNat_and, mask, Nat.and_two_pow_sub_one_eq_mod, UInt8.toNat_toUInt16,
    byteOfInt, UInt8.toNat_ofNat']
  omega

theorem toNat_buttonWord (m : Mouse) :
    m.buttonWord.toNat = m.left.toNat + 2 * m.middle.toNat + 4 * m.right.toNat +
      8 * (m.scrollX % 64).toNat + 512 * (m.scrollY % 64).toNat + 32768 * m.relative.toNat := by
  have flag (b : Bool) : b.toUInt16.toNat = b.toNat := by cases b <;> rfl
  have left := m.left.toNat_le
  have middle := m.middle.toNat_le
  have right := m.right.toNat_le
  have relative := m.relative.toNat_le
  -- the fields are put above one another, the lowest one first
  have two := toNat_or_shiftLeft (flag m.left) (flag m.middle) (show UInt16.toNat 1 = 1 from rfl)
    (by decide) (by omega) (by omega)
  have three := toNat_or_shiftLeft two (flag m.right) (show UInt16.toNat 2 = 2 from rfl)
    (by decide) (by omega) (by omega)
  have four := toNat_or_shiftLeft three (toNat_scrollBits m.scrollX)
    (show UInt16.toNat 3 = 3 from rfl) (by decide) (by omega) (by omega)
  have five := toNat_or_shiftLeft four (toNat_scrollBits m.scrollY)
    (show UInt16.toNat 9 = 9 from rfl) (by decide) (by omega) (by omega)
  exact toNat_or_shiftLeft five (flag m.relative) (show UInt16.toNat 15 = 15 from rfl)
    (by decide) (by omega) (by omega)

theorem ofBytes_eq_ofDigits (x y low high : UInt8) :
    ofBytes #v[x, y, low, high] = ofDigits x y (low.toNat + 256 * high.toNat) := by
  have lowBound := low.toNat_lt
  have highBound := high.toNat_lt
  have word := toNat_or_shiftLeft low.toNat_toUInt16 high.toNat_toUInt16
    (show UInt16.toNat 8 = 8 from rfl) (by decide) (by omega) (by omega)
  have third : #v[x, y, low, high][2] = low := rfl
  have fourth : #v[x, y, low, high][3] = high := rfl
  rw [ofBytes, third, fourth, ofDigits,
    and_two_pow_ne_zero (show UInt16.toNat 0x0001 = 2 ^ 0 from rfl),
    and_two_pow_ne_zero (show UInt16.toNat 0x0002 = 2 ^ 1 from rfl),
    and_two_pow_ne_zero (show UInt16.toNat 0x0004 = 2 ^ 2 from rfl),
    and_two_pow_ne_zero (show UInt16.toNat 0x8000 = 2 ^ 15 from rfl),
    signExtend_shiftRight word (show UInt16.toNat 3 = 3 from rfl) (by decide),
    signExtend_shiftRight word (show UInt16.toNat 9 = 9 from rfl) (by decide), word]
  simp only [Nat.reducePow, Nat.div_one]
  rfl

theorem ofDigits_buttonWord (m : Mouse) : ofDigits m.x m.y m.buttonWord.toNat = m.kept := by
  have left := m.left.toNat_le
  have middle := m.middle.toNat_le
  have right := m.right.toNat_le
  have relative := m.relative.toNat_le
  have digits := m.toNat_buttonWord
  have flag {n : Nat} {b : Bool} (digit : n = b.toNat) : decide (n = 1) = b := by
    subst digit
    cases b <;> rfl
  have scroll {n : Nat} {scrolled : Int} (digit : n = (scrolled % 64).toNat) :
      Int.bmod n 64 = Int.bmod scrolled 64 := bmod_congr (by omega)
  rw [ofDigits, kept]
  congr 1
  · exact flag (by omega)
  · exact flag (by omega)
  · exact flag (by omega)
  · exact scroll (by omega)
  · exact scroll (by omega)
  · exact flag (by omega)

theorem buttonWord_ofDigits (x y : UInt8) {n : Nat} (word : n < 65536) :
    (ofDigits x y n).buttonWord.toNat = n := by
  have flag (n : Nat) : (decide (n % 2 = 1)).toNat = n % 2 := by
    by_cases odd : n % 2 = 1
    · rw [decide_eq_true odd, odd, Bool.toNat_true]
    · rw [decide_eq_false odd, Bool.toNat_false]
      omega
  have scroll (n : Nat) : (Int.bmod (n % 64 : Nat) 64 % 64).toNat = n % 64 := by
    have residue : Int.bmod (n % 64 : Nat) 64 % (64 : Nat) = _ := Int.bmod_emod
    omega
  rw [toNat_buttonWord]
  simp only [ofDigits, flag, scroll]
  -- the digits make up the number again
  omega

theorem ofBytes_toBytes (m : Mouse) : ofBytes m.toBytes = m.kept := by
  rw [toBytes, ofBytes_eq_ofDigits, bytes_of_word]
  exact m.ofDigits_buttonWord

example : ofBytes (toBytes { x := 100, right := true, scrollX := -3, scrollY := 34 }) =
    { x := 100, right := true, scrollX := -3, scrollY := -30 } := by decide

theorem toBytes_ofBytes (bytes : Vector UInt8 4) : (ofBytes bytes).toBytes = bytes := by
  obtain ⟨x, y, low, high, rfl⟩ : ∃ x y low high, bytes = #v[x, y, low, high] :=
    ⟨bytes[0], bytes[1], bytes[2], bytes[3], Vector.ext fun
      | 0, _ | 1, _ | 2, _ | 3, _ => rfl⟩
  have lowBound := low.toNat_lt
  have highBound := high.toNat_lt
  obtain ⟨n, number⟩ : ∃ n, n = low.toNat + 256 * high.toNat := ⟨_, rfl⟩
  have word := buttonWord_ofDigits x y (show n < 65536 by omega)
  -- two numbers below 256 are determined by the number that they are the digits of
  have digits := bytes_of_word (ofDigits x y n).buttonWord
  have bound := (ofDigits x y n).buttonWord.toUInt8.toNat_lt
  have first : (ofDigits x y n).buttonWord.toUInt8 = low := UInt8.toNat_inj.mp (by omega)
  have second : ((ofDigits x y n).buttonWord >>> 8).toUInt8 = high := UInt8.toNat_inj.mp (by omega)
  rw [ofBytes_eq_ofDigits, ← number]
  show #v[x, y, _, _] = _
  rw [first, second]

end Mouse

/-! ### Memory -/

/-- A word that is written as it was read leaves memory as it is. -/
theorem Ram.setWord_word (r : Ram) {start : Nat} (fits : start + 4 ≤ Layout.memorySize) :
    r.setWord start (r.word start) = r := by
  have lowest := r.toUInt8_word_shiftRight start (show UInt32.toNat 0 = 8 * 0 from rfl) (by decide)
  rw [UInt32.shiftRight_zero] at lowest
  have bytes : #v[(r.word start).toUInt8, (r.word start >>> 8).toUInt8,
      (r.word start >>> 16).toUInt8, (r.word start >>> 24).toUInt8] = r.block start 4 := by
    refine Vector.ext fun i h => ?_
    rw [getElem_block]
    match i with
    | 0 => exact lowest
    | 1 | 2 | 3 => exact r.toUInt8_word_shiftRight start rfl (by decide)
  rw [setWord, bytes]
  exact r.setRegion_region (g := ⟨start, 4⟩) fits

namespace DeviceInput

/-- What memory keeps of the input of a frame. -/
def kept (d : DeviceInput) : DeviceInput := { d with mouse := d.mouse.kept }

theorem load_store (d : DeviceInput) (r : Ram) : load (d.store r) = d.kept := by
  have fields : load (d.store r) = ⟨(load (d.store r)).gamepads, (load (d.store r)).mouse,
    (load (d.store r)).keyboard⟩ := rfl
  have bytes : (d.store r).region Layout.mouse = d.mouse.toBytes :=
    (Ram.region_setRegion_of_disjoint _ (by decide) _).trans
      (Ram.region_setRegion_self _ (by decide) _)
  have mouse : (load (d.store r)).mouse = d.mouse.kept :=
    (congrArg Mouse.ofBytes bytes).trans d.mouse.ofBytes_toBytes
  have keyboard : (load (d.store r)).keyboard = d.keyboard :=
    Ram.region_setRegion_self _ (by decide) _
  rw [fields, gamepads_load_store, mouse, keyboard, kept]

theorem store_load (r : Ram) : (load r).store r = r := by
  have gamepads : r.setWord Layout.gamepads.offset (load r).gamepads = r :=
    r.setWord_word (by decide)
  have mouse : r.setRegion Layout.mouse (load r).mouse.toBytes = r :=
    (congrArg (r.setRegion Layout.mouse) (Mouse.toBytes_ofBytes (r.region Layout.mouse))).trans
      (r.setRegion_region (by decide))
  calc (load r).store r
      = ((r.setWord Layout.gamepads.offset (load r).gamepads).setRegion Layout.mouse
          (load r).mouse.toBytes).setRegion Layout.keyboard (load r).keyboard := rfl
    _ = (r.setRegion Layout.mouse (load r).mouse.toBytes).setRegion Layout.keyboard
          (load r).keyboard := by rw [gamepads]
    _ = r.setRegion Layout.keyboard (load r).keyboard :=
        congrArg (·.setRegion Layout.keyboard (load r).keyboard) mouse
    _ = r := r.setRegion_region (by decide)

/-- Input that is stored is read back, scroll values as the signed numbers in their low six bits.
Input that is read and stored again changes nothing, and input that is stored changes the memory of
the devices only. -/
theorem stored_input_exact (d : DeviceInput) (r : Ram) :
    load (d.store r) = d.kept ∧
      ((-32 ≤ d.mouse.scrollX ∧ d.mouse.scrollX ≤ 31) ∧
        (-32 ≤ d.mouse.scrollY ∧ d.mouse.scrollY ≤ 31) → load (d.store r) = d) ∧
      (load r).store r = r ∧
      Ram.SameOutside [Layout.gamepads, Layout.mouse, Layout.keyboard] r (d.store r) := by
  refine ⟨d.load_store r, fun ⟨horizontal, vertical⟩ => ?_, store_load r, d.sameOutside_store r⟩
  rw [load_store, kept, Mouse.kept_eq_self horizontal vertical]

end DeviceInput

end FantasyConsole
