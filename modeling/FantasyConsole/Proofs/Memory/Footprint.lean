import FantasyConsole.Proofs.Memory.BitArray
import Mathlib.Data.Set.Basic

/-!
# What a write touches

A write has a footprint, the set of bits that it replaces. The relation `Writes` says of two
memories that one is the other after a write with a given footprint: no bit outside the footprint
has changed, and the pixels that are newly marked are exactly those that share a bit with it. Writes
in sequence have the union of their footprints, so the relation is carried through loops and programs
of any length. The relation `Stores` says in addition which value each bit of the footprint has got,
and that determines the memory after the write.
-/

namespace FantasyConsole

/-- Whether a set of bits overlaps the four bits of a pixel. -/
def Touches (bits : Set Nat) (p : Nat) : Prop := ∃ k ∈ bits, k / 4 = p

theorem touches_union (a b : Set Nat) (p : Nat) :
    Touches (a ∪ b) p ↔ Touches a p ∨ Touches b p := by
  constructor
  · rintro ⟨k, left | right, pixel⟩
    · exact .inl ⟨k, left, pixel⟩
    · exact .inr ⟨k, right, pixel⟩
  · rintro (⟨k, left, pixel⟩ | ⟨k, right, pixel⟩)
    · exact ⟨k, .inl left, pixel⟩
    · exact ⟨k, .inr right, pixel⟩

/-- The bits from `start` up to `stop`. -/
def bitRange (start stop : Nat) : Set Nat := {k | start ≤ k ∧ k < stop}

theorem touches_bitRange {start stop : Nat} (nonempty : start < stop) (p : Nat) :
    Touches (bitRange start stop) p ↔ start / 4 ≤ p ∧ p ≤ (stop - 1) / 4 := by
  constructor
  · rintro ⟨k, ⟨lower, upper⟩, pixel⟩
    omega
  · rintro ⟨lower, upper⟩
    -- the first bit of the pixel lies in the range, or the range begins within the pixel
    by_cases first : start ≤ 4 * p
    · exact ⟨4 * p, ⟨first, by omega⟩, by omega⟩
    · exact ⟨start, ⟨Nat.le_refl _, nonempty⟩, by omega⟩

namespace Ram

/-- `s` is `r` after a write to the given bits. -/
structure Writes (bits : Set Nat) (r s : Ram) : Prop where
  outside : ∀ k, k ∉ bits → s.bit k = r.bit k
  marks : ∀ p, s.dirty.contains p = true ↔
    r.dirty.contains p = true ∨ p < Screen.pixels ∧ Touches bits p

/-- A write without bits changes nothing. -/
theorem Writes.nothing {bits : Set Nat} (none : ∀ k, k ∉ bits) (r : Ram) : Writes bits r r where
  outside := fun _ _ => rfl
  marks := by
    intro p
    constructor
    · exact .inl
    · rintro (marked | ⟨_, k, member, _⟩)
      · exact marked
      · exact absurd member (none k)

theorem Writes.refl (r : Ram) : Writes ∅ r r := .nothing Set.notMem_empty r

theorem Writes.trans {a b : Set Nat} {r s t : Ram} (first : Writes a r s) (second : Writes b s t) :
    Writes (a ∪ b) r t where
  outside := by
    intro k out
    rw [second.outside k (fun h => out (.inr h)), first.outside k (fun h => out (.inl h))]
  marks := by
    intro p
    rw [second.marks, first.marks, touches_union]
    tauto

theorem Writes.congr {a b : Set Nat} {r s : Ram} (written : Writes a r s) (same : a = b) :
    Writes b r s := same ▸ written

/-- `s` is `r` after a write that gave the bits of a footprint these values. -/
structure Stores (value : Nat → Bool) (bits : Set Nat) (r s : Ram) : Prop extends
    Writes bits r s where
  inside : ∀ k ∈ bits, s.bit k = value k

theorem Stores.nothing {value : Nat → Bool} {bits : Set Nat} (none : ∀ k, k ∉ bits) (r : Ram) :
    Stores value bits r r :=
  ⟨.nothing none r, fun k member => absurd member (none k)⟩

/-- Where two writes overlap, the second one stores what the first one has stored. -/
theorem Stores.trans {value : Nat → Bool} {a b : Set Nat} {r s t : Ram} (first : Stores value a r s)
    (second : Stores value b s t) : Stores value (a ∪ b) r t where
  toWrites := first.toWrites.trans second.toWrites
  inside := by
    intro k member
    by_cases again : k ∈ b
    · exact second.inside k again
    · rw [second.outside k again, first.inside k (member.resolve_right again)]

theorem Stores.congr {value : Nat → Bool} {a b : Set Nat} {r s : Ram} (stored : Stores value a r s)
    (same : a = b) : Stores value b r s := same ▸ stored

/-- A loop writes what its rounds write. -/
theorem stores_fold {value : Nat → Bool} {n : Nat} {step : (i : Nat) → i < n → Ram → Ram}
    {bits : Nat → Set Nat} (round : ∀ i h r, Stores value (bits i) r (step i h r)) (r : Ram) :
    Stores value {k | ∃ i < n, k ∈ bits i} r (n.fold step r) := by
  -- the last round comes after the others, so its footprint joins on the right
  induction n with
  | zero =>
    refine Stores.nothing ?_ r
    rintro k ⟨i, bound, _⟩
    exact absurd bound (Nat.not_lt_zero i)
  | succ n ih =>
    have before := ih fun i h r => round i (Nat.lt_succ_of_lt h) r
    rw [Nat.fold_succ]
    refine (before.trans (round n (by omega) _)).congr (Set.ext fun k => ⟨?_, ?_⟩)
    · rintro (⟨i, bound, member⟩ | member)
      · exact ⟨i, Nat.lt_succ_of_lt bound, member⟩
      · exact ⟨n, Nat.lt_succ_self n, member⟩
    · rintro ⟨i, bound, member⟩
      by_cases last : i = n
      · exact .inr (last ▸ member)
      · exact .inl ⟨i, by omega, member⟩

/-- Memory after a write is determined by the footprint and the values stored in it. -/
theorem Stores.unique {v w : Nat → Bool} {bits : Set Nat} {r s t : Ram} (one : Stores v bits r s)
    (other : Stores w bits r t) (same : ∀ k ∈ bits, v k = w k) : s = t := by
  refine ext_bit (fun k => ?_) (DirtyMask.ext_contains fun p => ?_)
  · by_cases member : k ∈ bits
    · rw [one.inside k member, other.inside k member, same k member]
    · rw [one.outside k member, other.outside k member]
  · rw [Bool.eq_iff_iff, one.marks, other.marks]

/-! ### The footprint of each write to memory -/

/-- The bits of the packed value at an address. -/
def pokeBits (addr : Int) (w : Width) : Set Nat :=
  {k | Addressable w addr ∧ k ∈ bitRange (addr.toNat * w.bits) (addr.toNat * w.bits + w.bits)}

/-- The bits of `n` bytes from `start`. -/
def byteRangeBits (start n : Int) : Set Nat :=
  bitRange (start.toNat * 8) ((start.toNat + n.toNat) * 8)

/-- The bits of `n` bytes from `dst`, if they and those from `src` lie in memory. -/
def copyBits (dst src n : Int) : Set Nat :=
  {k | (InMemory dst n ∧ InMemory src n) ∧ k ∈ byteRangeBits dst n}

/-- The bits of `n` bytes from `start`, if they lie in memory. -/
def fillBits (start n : Int) : Set Nat := {k | InMemory start n ∧ k ∈ byteRangeBits start n}

/-- The bits of a persistent slot. -/
def slotBits (slot : Int) : Set Nat :=
  {k | IsSlot slot ∧ k ∈ bitRange (slotStart slot.toNat * 8) ((slotStart slot.toNat + 4) * 8)}

/-- The four bits of a screen pixel. -/
def pixelBits (p : Nat) : Set Nat := {k | p < Screen.pixels ∧ k ∈ bitRange (4 * p) (4 * p + 4)}

theorem writes_poke (r : Ram) (addr : Int) (v : UInt8) (w : Width) :
    Writes (pokeBits addr w) r (r.poke addr v w) := by
  by_cases inside : Addressable w addr
  · constructor
    · intro k out
      have apart : ¬ (addr.toNat * w.bits ≤ k ∧ k < addr.toNat * w.bits + w.bits) :=
        fun own => out ⟨inside, own⟩
      rw [bit_poke r inside, if_neg apart]
    · intro p
      have positive := w.bits_pos
      have touched : Touches (pokeBits addr w) p ↔
          Touches (bitRange (addr.toNat * w.bits) (addr.toNat * w.bits + w.bits)) p :=
        ⟨fun ⟨k, own, pixel⟩ => ⟨k, own.2, pixel⟩, fun ⟨k, own, pixel⟩ => ⟨k, ⟨inside, own⟩, pixel⟩⟩
      -- a value of at most eight bits marks the pixels of its first and of its last bit
      rw [touched, touches_bitRange (by omega), poke, if_pos inside]
      simp only [markPacked, setPacked, dirty_setByte, DirtyMask.contains_markRange, Bool.or_eq_true,
        Bool.and_eq_true, decide_eq_true_eq]
      rw [or_comm]
      exact or_congr_right (by omega)
  · rw [poke_outside r inside]
    exact Writes.nothing (fun k own => inside own.1) r

private theorem contains_markBytes (r : Ram) (start n p : Nat) :
    (r.markBytes start n).dirty.contains p = true ↔
      r.dirty.contains p = true ∨ p < Screen.pixels ∧ 2 * start ≤ p ∧ p < 2 * (start + n) := by
  have screen : Screen.pixels = 2 * Layout.screen.stop := rfl
  simp only [markBytes, DirtyMask.contains_markRange, Bool.or_eq_true, Bool.and_eq_true,
    decide_eq_true_eq]
  rw [or_comm]
  exact or_congr_right (by omega)

/-- A change to `n` bytes from `start`, marked as such, is a write to their bits. -/
private theorem writes_markBytes {r s : Ram} (start n : Nat) (unmarked : s.dirty = r.dirty)
    (kept : ∀ i < Layout.memorySize, ¬ (start ≤ i ∧ i < start + n) → s.byte i = r.byte i) :
    Writes (bitRange (start * 8) ((start + n) * 8)) r (s.markBytes start n) := by
  constructor
  · intro k out
    change s.bit k = r.bit k
    by_cases inside : k / 8 < Layout.memorySize
    · have apart : ¬ (start ≤ k / 8 ∧ k / 8 < start + n) := by
        intro own
        exact out ⟨by omega, by omega⟩
      rw [bit, bit, kept _ inside apart]
    · rw [bit, bit, byte_of_le s (Nat.le_of_not_lt inside), byte_of_le r (Nat.le_of_not_lt inside)]
  · intro p
    rw [contains_markBytes, unmarked]
    refine or_congr_right (and_congr_right fun _ => ?_)
    -- an empty range touches nothing; otherwise the bounds are the same in pixels and in bits
    by_cases some : 0 < n
    · rw [touches_bitRange (by omega)]
      omega
    · constructor
      · intro between
        omega
      · rintro ⟨k, ⟨lower, upper⟩, _⟩
        omega

theorem writes_copy? {r s : Ram} {dst src n : Int} (copied : r.copy? dst src n = some s) :
    Writes (copyBits dst src n) r s := by
  unfold copy? at copied
  split at copied
  case isTrue inside =>
    cases copied
    have written := writes_markBytes (r := r) dst.toNat n.toNat (dirty_setBlock r dst.toNat
      (r.block src.toNat n.toNat)) (fun i hi out => by rw [byte_setBlock _ _ _ _ hi, dif_neg out])
    refine written.congr (Set.ext fun k => ⟨fun own => ⟨inside, own⟩, fun own => own.2⟩)
  case isFalse => cases copied

theorem writes_fill? {r s : Ram} {dst n : Int} {v : UInt8} (filled : r.fill? dst v n = some s) :
    Writes (fillBits dst n) r s := by
  unfold fill? at filled
  split at filled
  case isTrue inside =>
    cases filled
    have written := writes_markBytes (r := r) dst.toNat n.toNat (dirty_fillBlock r dst.toNat
      n.toNat v) (fun i hi out => by rw [byte_fillBlock _ _ _ _ _ hi, if_neg out])
    refine written.congr (Set.ext fun k => ⟨fun own => ⟨inside, own⟩, fun own => own.2⟩)
  case isFalse => cases filled

/-- A persistent slot lies beyond the screen, so writing it marks nothing. -/
theorem writes_setSlot (r : Ram) (slot : Int) (v : UInt32) :
    Writes (slotBits slot) r (r.setSlot slot v) := by
  by_cases named : IsSlot slot
  · rw [setSlot, if_pos named]
    constructor
    · intro k out
      by_cases inside : k / 8 < Layout.memorySize
      · have apart : ¬ (slotStart slot.toNat ≤ k / 8 ∧ k / 8 < slotStart slot.toNat + 4) := by
          intro own
          exact out ⟨named, by omega, by omega⟩
        rw [bit, bit, setWord, byte_setBlock _ _ _ _ inside, dif_neg apart]
      · rw [bit, bit, byte_of_le _ (Nat.le_of_not_lt inside), byte_of_le r (Nat.le_of_not_lt inside)]
    · intro p
      have beyond : ¬ (p < Screen.pixels ∧ Touches (slotBits slot) p) := by
        rintro ⟨screen, k, ⟨_, lower, _⟩, pixel⟩
        simp only [slotStart, Layout.persistent, Screen.pixels, Screen.width, Screen.height]
          at lower screen
        omega
      simp only [setWord, dirty_setBlock, beyond, or_false]
  · rw [setSlot, if_neg named]
    exact Writes.nothing (fun k own => named own.1) r

/-- The pixels of the screen lie in memory. -/
theorem byteIndex_lt_of_onScreen {p : Nat} (onScreen : p < Screen.pixels) :
    Width.four.byteIndex p < Layout.memorySize := by
  simp only [Width.byteIndex, Width.perByte, Screen.pixels, Screen.width, Screen.height,
    Layout.memorySize] at onScreen ⊢
  omega

theorem writes_setPixel (r : Ram) (p : Nat) (color : UInt8) :
    Writes (pixelBits p) r (r.setPixel p color) := by
  by_cases onScreen : p < Screen.pixels
  · have inside := byteIndex_lt_of_onScreen onScreen
    rw [setPixel, if_pos onScreen]
    constructor
    · intro k out
      change (r.setPacked .four p color).bit k = r.bit k
      rw [bit_setPacked r .four inside, if_neg]
      intro own
      simp only [Width.bits] at own
      exact out ⟨onScreen, by omega, by omega⟩
    · intro q
      have touched : Touches (pixelBits p) q ↔ q = p := by
        constructor
        · rintro ⟨k, ⟨_, lower, upper⟩, pixel⟩
          omega
        · intro same
          exact ⟨4 * p, ⟨onScreen, Nat.le_refl _, by omega⟩, by omega⟩
      simp only [setPacked, dirty_setByte, DirtyMask.contains_mark, touched, Bool.or_eq_true,
        Bool.and_eq_true, decide_eq_true_eq]
      constructor
      · rintro (⟨same, _⟩ | marked)
        · exact .inr ⟨same ▸ onScreen, same⟩
        · exact .inl marked
      · rintro (marked | ⟨_, same⟩)
        · exact .inr marked
        · exact .inl ⟨same, onScreen⟩
  · rw [setPixel, if_neg onScreen]
    exact Writes.nothing (fun k own => onScreen own.1) r

/-! ### The values that each write stores -/

theorem stores_poke (r : Ram) (addr : Int) (v : UInt8) (w : Width) :
    Stores (fun k => byteBit v (k - addr.toNat * w.bits)) (pokeBits addr w) r (r.poke addr v w) where
  toWrites := r.writes_poke addr v w
  inside := by
    rintro k ⟨inside, first, last⟩
    rw [bit_poke r inside, if_pos ⟨first, last⟩]

theorem stores_copy? {r s : Ram} {dst src n : Int} (copied : r.copy? dst src n = some s) :
    Stores (fun k => r.bit (8 * src.toNat + (k - 8 * dst.toNat))) (copyBits dst src n) r s where
  toWrites := writes_copy? copied
  inside := by
    rintro k ⟨⟨⟨lower, -, -⟩, ⟨lower', -, -⟩⟩, first, last⟩
    have place : (src + ((k / 8 : Nat) - dst)).toNat =
        (8 * src.toNat + (k - 8 * dst.toNat)) / 8 := by omega
    have offset : k % 8 = (8 * src.toNat + (k - 8 * dst.toNat)) % 8 := by omega
    rw [bit, byte_copy? copied, if_pos (by omega), place, offset, bit]

theorem stores_fill? {r s : Ram} {dst n : Int} {v : UInt8} (filled : r.fill? dst v n = some s) :
    Stores (fun k => byteBit v (k % 8)) (fillBits dst n) r s where
  toWrites := writes_fill? filled
  inside := by
    rintro k ⟨⟨lower, -, -⟩, first, last⟩
    rw [bit, byte_fill? filled, if_pos (by omega)]

theorem stores_setPixel (r : Ram) (p : Nat) (color : UInt8) :
    Stores (fun k => byteBit color (k % 4)) (pixelBits p) r (r.setPixel p color) where
  toWrites := r.writes_setPixel p color
  inside := by
    rintro k ⟨onScreen, first, last⟩
    have inside := byteIndex_lt_of_onScreen onScreen
    have offset : k - p * 4 = k % 4 := by omega
    rw [setPixel, if_pos onScreen]
    change (r.setPacked .four p color).bit k = _
    rw [bit_setPacked r .four inside, Width.bits, if_pos (by omega), offset]

end Ram

end FantasyConsole
