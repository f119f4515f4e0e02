import FantasyConsole.Memory.DirtyMask
import FantasyConsole.Memory.Width
import FantasyConsole.Word

/-!
# Memory

Memory is a flat array of bytes together with the mask of screen pixels written since the mask was
last cleared. Engine-side copies (`setByte`, `setBlock`, `fillRegion`) write bytes and leave the
mask alone; everything a guest can do (`poke`, `copy?`, `fill?`, `setPixel`) also marks the pixels
it writes.

The view of memory is `byte`: one byte at an index, 0 outside memory. Each operation is described by
what it does to that view and to the mask.
-/

namespace FantasyConsole

structure Ram where
  bytes : Vector UInt8 Layout.memorySize
  dirty : DirtyMask

namespace Ram

/-- Memory full of zeros, nothing marked. -/
def blank : Ram := ⟨Vector.replicate Layout.memorySize 0, DirtyMask.empty⟩

/-- The byte at an index, 0 outside memory. -/
def byte (r : Ram) (i : Nat) : UInt8 :=
  if h : i < Layout.memorySize then r.bytes[i] else 0

/-- Replaces a byte without marking; an index outside memory is ignored. -/
def setByte (r : Ram) (i : Nat) (v : UInt8) : Ram :=
  { r with bytes := r.bytes.setIfInBounds i v }

/-! ### Blocks of bytes -/

/-- The `n` bytes from `start`. -/
def block (r : Ram) (start n : Nat) : Vector UInt8 n := Vector.ofFn fun i => r.byte (start + i)

/-- Writes a block of bytes from `start` without marking. -/
def setBlock {n : Nat} (r : Ram) (start : Nat) (data : Vector UInt8 n) : Ram :=
  { r with bytes := n.fold (fun i h bytes => bytes.setIfInBounds (start + i) data[i]) r.bytes }

/-- Writes `n` copies of a byte from `start` without marking. -/
def fillBlock (r : Ram) (start n : Nat) (v : UInt8) : Ram :=
  { r with bytes := n.fold (fun i _ bytes => bytes.setIfInBounds (start + i) v) r.bytes }

/-- The bytes of a region. -/
def region (r : Ram) (g : Region) : Vector UInt8 g.size := r.block g.offset g.size

/-- Replaces the bytes of a region without marking. -/
def setRegion (r : Ram) (g : Region) (data : Vector UInt8 g.size) : Ram :=
  r.setBlock g.offset data

/-- Fills a region with one byte without marking. -/
def fillRegion (r : Ram) (g : Region) (v : UInt8) : Ram := r.fillBlock g.offset g.size v

/-- Forgets which pixels were written. -/
def clearDirty (r : Ram) : Ram := { r with dirty := r.dirty.clear }

/-! ### Packed access -/

/-- Whether `addr` is the packed index, at width `w`, of a value inside memory. -/
def Addressable (w : Width) (addr : Int) : Prop := 0 ≤ addr ∧ addr < w.count Layout.memorySize

instance (w : Width) (addr : Int) : Decidable (Addressable w addr) :=
  inferInstanceAs (Decidable (_ ∧ _))

/-- The value with packed index `i`. -/
def packed (r : Ram) (w : Width) (i : Nat) : UInt8 := w.extract i (r.byte (w.byteIndex i))

/-- Replaces the value with packed index `i` without marking. -/
def setPacked (r : Ram) (w : Width) (i : Nat) (v : UInt8) : Ram :=
  r.setByte (w.byteIndex i) (w.replace i (r.byte (w.byteIndex i)) v)

/-- Marks the pixels that share a bit with the packed value `i`. -/
def markPacked (r : Ram) (w : Width) (i : Nat) : Ram :=
  let first := i * w.bits / 4
  let last := (i * w.bits + w.bits - 1) / 4
  { r with dirty := r.dirty.markRange first (last + 1 - first) }

/-- Reads a packed value; an address outside memory reads as 0. -/
def peek (r : Ram) (addr : Int) (w : Width) : UInt8 :=
  if Addressable w addr then r.packed w addr.toNat else 0

/-- Writes a packed value and marks its pixels; an address outside memory is ignored. -/
def poke (r : Ram) (addr : Int) (v : UInt8) (w : Width) : Ram :=
  if Addressable w addr then (r.setPacked w addr.toNat v).markPacked w addr.toNat else r

/-! ### Ranges -/

/-- Whether the range of `n` bytes from `start` lies in memory. -/
def InMemory (start n : Int) : Prop := 0 ≤ start ∧ 0 ≤ n ∧ start + n ≤ Layout.memorySize

instance (start n : Int) : Decidable (InMemory start n) :=
  inferInstanceAs (Decidable (_ ∧ _ ∧ _))

def markBytes (r : Ram) (start n : Nat) : Ram :=
  let stop := min (start + n) Layout.screen.stop
  { r with dirty := r.dirty.markRange (2 * start) (2 * (stop - start)) }

/-- Copies `n` bytes and marks the destination. Fails, with nothing copied, if either range leaves
memory. -/
def copy? (r : Ram) (dst src n : Int) : Option Ram :=
  if InMemory dst n ∧ InMemory src n then
    -- the source is read before anything is written, so the ranges may overlap
    some ((r.setBlock dst.toNat (r.block src.toNat n.toNat)).markBytes dst.toNat n.toNat)
  else
    none

/-- Fills `n` bytes and marks them. Fails, with nothing written, if the range leaves memory. -/
def fill? (r : Ram) (dst : Int) (v : UInt8) (n : Int) : Option Ram :=
  if InMemory dst n then
    some ((r.fillBlock dst.toNat n.toNat v).markBytes dst.toNat n.toNat)
  else
    none

/-! ### Words and persistent slots -/

/-- The little-endian word of four bytes from `start`. -/
def word (r : Ram) (start : Nat) : UInt32 :=
  (r.byte start).toUInt32 ||| ((r.byte (start + 1)).toUInt32 <<< 8)
    ||| ((r.byte (start + 2)).toUInt32 <<< 16) ||| ((r.byte (start + 3)).toUInt32 <<< 24)

/-- Writes a little-endian word without marking. -/
def setWord (r : Ram) (start : Nat) (v : UInt32) : Ram :=
  r.setBlock start #v[v.toUInt8, (v >>> 8).toUInt8, (v >>> 16).toUInt8, (v >>> 24).toUInt8]

/-- Whether `slot` names a persistent memory slot. -/
def IsSlot (slot : Int) : Prop := 0 ≤ slot ∧ slot < Layout.persistentSlots

instance (slot : Int) : Decidable (IsSlot slot) := inferInstanceAs (Decidable (_ ∧ _))

/-- Where a persistent slot begins. -/
def slotStart (slot : Nat) : Nat := Layout.persistent.offset + 4 * slot

/-- The value of a persistent slot; what is no slot reads as 0. -/
def slot (r : Ram) (slot : Int) : UInt32 :=
  if IsSlot slot then r.word (slotStart slot.toNat) else 0

/-- Replaces the value of a persistent slot; what is no slot is ignored. -/
def setSlot (r : Ram) (slot : Int) (v : UInt32) : Ram :=
  if IsSlot slot then r.setWord (slotStart slot.toNat) v else r

/-! ### The screen and its registers -/

/-- The colour index of a screen pixel. -/
def pixel (r : Ram) (p : Nat) : UInt8 := r.packed .four p

/-- Writes a screen pixel and marks it; an index beyond the screen is ignored. -/
def setPixel (r : Ram) (p : Nat) (color : UInt8) : Ram :=
  if p < Screen.pixels then
    let r := r.setPacked .four p color
    { r with dirty := r.dirty.mark p }
  else
    r

def borderColor (r : Ram) : UInt8 := r.byte Layout.border.offset &&& 0x0F

/-- The signed horizontal scroll offset. -/
def scrollX (r : Ram) : Int := signedByte (r.byte Layout.scroll.offset)

/-- The signed vertical scroll offset. -/
def scrollY (r : Ram) : Int := signedByte (r.byte (Layout.scroll.offset + 1))

/-- The colour that is stored when `color` is drawn. -/
def mapColor (r : Ram) (color : UInt8) : UInt8 :=
  r.packed .four (2 * Layout.paletteMap.offset + (color &&& 0x0F).toNat)

/-! ### The byte view -/

theorem ext_byte {r s : Ram} (bytes : ∀ i, r.byte i = s.byte i) (dirty : r.dirty = s.dirty) :
    r = s := by
  obtain ⟨rb, rd⟩ := r
  obtain ⟨sb, sd⟩ := s
  simp only at dirty
  subst dirty
  congr
  refine Vector.ext fun i h => ?_
  have same := bytes i
  simp only [byte, h, ↓reduceDIte] at same
  exact same

theorem byte_of_le (r : Ram) {i : Nat} (h : Layout.memorySize ≤ i) : r.byte i = 0 := by
  simp [byte, Nat.not_lt.mpr h]

theorem byte_setByte (r : Ram) (i j : Nat) (v : UInt8) :
    (r.setByte i v).byte j = if i = j ∧ j < Layout.memorySize then v else r.byte j := by
  simp only [byte, setByte, Vector.getElem_setIfInBounds]
  grind

@[simp] theorem dirty_setByte (r : Ram) (i : Nat) (v : UInt8) :
    (r.setByte i v).dirty = r.dirty := rfl

@[simp] theorem dirty_setBlock {n : Nat} (r : Ram) (start : Nat) (data : Vector UInt8 n) :
    (r.setBlock start data).dirty = r.dirty := rfl

@[simp] theorem dirty_fillBlock (r : Ram) (start n : Nat) (v : UInt8) :
    (r.fillBlock start n v).dirty = r.dirty := rfl

@[simp] theorem byte_markPacked (r : Ram) (w : Width) (i j : Nat) :
    (r.markPacked w i).byte j = r.byte j := rfl

@[simp] theorem byte_markBytes (r : Ram) (start n j : Nat) :
    (r.markBytes start n).byte j = r.byte j := rfl

private theorem getElem_fold_set {size n : Nat} (start : Nat) (value : (i : Nat) → i < n → UInt8)
    (bytes : Vector UInt8 size) (m : Nat) (le : m ≤ n) (j : Nat) (h : j < size) :
    (m.fold (fun i hi bytes => bytes.setIfInBounds (start + i) (value i (by omega))) bytes)[j] =
      if inside : start ≤ j ∧ j < start + m then value (j - start) (by omega) else bytes[j] := by
  induction m with
  | zero => rw [Nat.fold_zero, dif_neg (by omega)]
  | succ m ih =>
    rw [Nat.fold_succ, Vector.getElem_setIfInBounds]
    by_cases last : start + m = j
    · subst last
      simp
    · rw [if_neg last, ih (by omega)]
      by_cases inside : start ≤ j ∧ j < start + m
      · rw [dif_pos inside, dif_pos ⟨inside.1, by omega⟩]
      · rw [dif_neg inside, dif_neg (by omega)]

/-- A block write is seen inside the block and nowhere else. -/
theorem byte_setBlock {n : Nat} (r : Ram) (start : Nat) (data : Vector UInt8 n) (j : Nat)
    (h : j < Layout.memorySize) :
    (r.setBlock start data).byte j =
      if inside : start ≤ j ∧ j < start + n then data.get ⟨j - start, by omega⟩ else r.byte j := by
  simp only [byte, setBlock, h, ↓reduceDIte]
  exact getElem_fold_set start (fun i hi => data[i]) r.bytes n (Nat.le_refl n) j h

/-- A fill is seen inside the filled range and nowhere else. -/
theorem byte_fillBlock (r : Ram) (start n : Nat) (v : UInt8) (j : Nat)
    (h : j < Layout.memorySize) :
    (r.fillBlock start n v).byte j = if start ≤ j ∧ j < start + n then v else r.byte j := by
  simp only [byte, fillBlock, h, ↓reduceDIte]
  rw [getElem_fold_set start (fun _ _ => v) r.bytes n (Nat.le_refl n) j h]
  split <;> rfl

@[simp] theorem getElem_block (r : Ram) (start n i : Nat) (h : i < n) :
    (r.block start n)[i] = r.byte (start + i) := by
  simp [block]

theorem copy?_eq_none_iff (r : Ram) (dst src n : Int) :
    r.copy? dst src n = none ↔ ¬ (InMemory dst n ∧ InMemory src n) := by
  rw [copy?, ite_eq_right_iff]
  exact forall_congr' fun _ => iff_of_false (by simp) id

theorem fill?_eq_none_iff (r : Ram) (dst : Int) (v : UInt8) (n : Int) :
    r.fill? dst v n = none ↔ ¬ InMemory dst n := by
  rw [fill?, ite_eq_right_iff]
  exact forall_congr' fun _ => iff_of_false (by simp) id

/-- What is copied is what memory held before, also where the ranges overlap. -/
theorem byte_copy? {r s : Ram} {dst src n : Int} (copied : r.copy? dst src n = some s) (j : Nat) :
    s.byte j =
      if dst ≤ j ∧ j < dst + n then r.byte (src + (j - dst)).toNat else r.byte j := by
  unfold copy? at copied
  split at copied
  case isTrue inside =>
    cases copied
    obtain ⟨⟨lower, positive, upper⟩, ⟨lower', -, upper'⟩⟩ := inside
    by_cases fits : j < Layout.memorySize
    · rw [byte_markBytes, byte_setBlock _ _ _ _ fits]
      by_cases own : dst ≤ j ∧ j < dst + n
      · have place : src.toNat + (j - dst.toNat) = (src + (j - dst)).toNat := by omega
        rw [if_pos own, dif_pos (by omega), ← place]
        exact r.getElem_block _ _ _ (by omega)
      · rw [if_neg own, dif_neg (by omega)]
    · rw [byte_of_le _ (Nat.le_of_not_lt fits), if_neg (by omega),
        byte_of_le _ (Nat.le_of_not_lt fits)]
  case isFalse => cases copied

theorem byte_fill? {r s : Ram} {dst n : Int} {v : UInt8} (filled : r.fill? dst v n = some s)
    (j : Nat) : s.byte j = if dst ≤ j ∧ j < dst + n then v else r.byte j := by
  unfold fill? at filled
  split at filled
  case isTrue inside =>
    cases filled
    obtain ⟨lower, positive, upper⟩ := inside
    by_cases fits : j < Layout.memorySize
    · have range : dst.toNat ≤ j ∧ j < dst.toNat + n.toNat ↔ dst ≤ j ∧ j < dst + n := by omega
      simp only [byte_markBytes, byte_fillBlock _ _ _ _ _ fits, range]
    · rw [byte_of_le _ (Nat.le_of_not_lt fits), if_neg (by omega),
        byte_of_le _ (Nat.le_of_not_lt fits)]
  case isFalse => cases filled

end Ram

end FantasyConsole
