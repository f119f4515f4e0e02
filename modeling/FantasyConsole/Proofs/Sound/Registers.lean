import FantasyConsole.Proofs.Memory.Bits
import FantasyConsole.Proofs.Sound.Arrival

/-!
# Reading what a channel has written

A channel that is heard packs its frequency, its volume and its waveform into a register, and the
volumes of its two sides into a byte. When the frame ends all registers are queued, and the
synthesiser takes them apart again. What it reads of a channel is what the channel has written.
-/

namespace FantasyConsole

open Ram

namespace Ram

/-- Half a byte of a word, counted from its lowest bits, is a packed value. -/
theorem toNat_packed_four (r : Ram) (start : Nat) {n : Nat} (below : n < 8) :
    (r.packed .four (2 * start + n)).toNat =
      ((r.word start >>> UInt32.ofNat (4 * n)) &&& 0x0F).toNat := by
  refine Nat.eq_of_testBit_eq fun j => ?_
  have shift : (UInt32.ofNat (4 * n)).toNat % 32 = 4 * n := by
    rw [UInt32.toNat_ofNat']
    omega
  have mask : (0x0F : UInt32).toNat.testBit j = decide (j < 4) := Nat.testBit_two_pow_sub_one 4 j
  have place : (2 * start + n) * Width.four.bits + j = 8 * start + (4 * n + j) := by
    simp only [Width.bits]
    omega
  rw [UInt32.toNat_and, UInt32.toNat_shiftRight, shift, Nat.testBit_and, mask,
    Nat.testBit_shiftRight, testBit_word, ← byteBit, byteBit_packed, place]
  by_cases inside : j < 4
  · have word : 4 * n + j < 32 := by omega
    rw [decide_eq_true inside, decide_eq_true word, Bool.and_true, Bool.true_and]
    exact Bool.and_eq_right_iff_imp.mpr fun _ => decide_eq_true inside
  · rw [decide_eq_false inside, Bool.and_false]
    exact Bool.and_eq_false_imp.mpr fun own => absurd (of_decide_eq_true own) inside

end Ram

namespace RegisterFrame

/-- Whether a channel is read as some register. -/
structure Reads (f : RegisterFrame) (c : Fin channelCount) (g : Register) : Prop where
  frequency : f.frequency c = g.frequency
  volume : f.volume c = g.volume
  waveform : f.waveform c = g.waveform.toList
  left : f.sideVolume c .left = g.left.toNat
  right : f.sideVolume c .right = g.right.toNat

theorem byte_load (r : Ram) (c : Fin channelCount) {k : Nat} (below : k < registerBytes) :
    (load r).byte c k = r.byte ((Layout.registerOf c).offset + k) := by
  have channel := c.isLt
  have inside : c * registerBytes + k < Layout.registers.size := by
    simp only [channelCount, registerBytes, Layout.registers] at *
    omega
  have own : (r.region Layout.registers)[c * registerBytes + k]? =
      some (r.byte (Layout.registers.offset + (c * registerBytes + k))) := by
    rw [Vector.getElem?_eq_getElem inside, region, getElem_block]
  rw [← Nat.add_assoc] at own
  exact congrArg (·.getD 0) own

theorem sideVolume_load_left (r : Ram) (c : Fin channelCount) :
    (load r).sideVolume c .left = (r.packed .four (2 * Layout.stereo.offset + 2 * c)).toNat := by
  have channel : c.val < 4 := c.isLt
  have shift : 8 * c.val + 0 = 4 * (2 * c) := by omega
  rw [r.toNat_packed_four _ (by omega), sideVolume, load, shift]

theorem sideVolume_load_right (r : Ram) (c : Fin channelCount) :
    (load r).sideVolume c .right =
      (r.packed .four (2 * Layout.stereo.offset + 2 * c + 1)).toNat := by
  have channel : c.val < 4 := c.isLt
  have shift : 8 * c.val + 4 = 4 * (2 * c + 1) := by omega
  rw [Nat.add_assoc, r.toNat_packed_four _ (by omega), sideVolume, load, shift]

/-- What is read of a channel lies in its register and in the byte of its sides. -/
theorem Reads.of_sameOn {r m : Ram} {c : Fin channelCount} {g : Register}
    (reads : (load r).Reads c g) (same : SameOn (Layout.heardOf c) r m) : (load m).Reads c g := by
  have bytes {k : Nat} (below : k < registerBytes) : (load m).byte c k = (load r).byte c k := by
    rw [byte_load _ _ below, byte_load _ _ below]
    exact same (Layout.registerOf c) (.head _) _
      ⟨Nat.le_add_right _ _, Nat.add_lt_add_left below _⟩
  have sides {i : Nat} (own : i / 2 = Layout.stereo.offset + c) :
      m.packed .four i = r.packed .four i := by
    have byte : m.byte (Layout.stereo.offset + c) = r.byte (Layout.stereo.offset + c) :=
      same (Layout.stereoOf c) (.tail _ (.head _)) _ ⟨Nat.le_refl _, Nat.lt_succ_self _⟩
    simp only [packed, Width.byteIndex, Width.perByte, own, byte]
  constructor
  · rw [← reads.frequency, RegisterFrame.frequency, RegisterFrame.frequency,
      bytes (k := 0) (by decide), bytes (k := 1) (by decide)]
  · rw [← reads.volume, RegisterFrame.volume, RegisterFrame.volume, bytes (k := 1) (by decide)]
  · rw [← reads.waveform, RegisterFrame.waveform, RegisterFrame.waveform]
    refine List.map_congr_left fun k member => bytes ?_
    have below := List.mem_range.mp member
    simp only [waveformBytes, registerBytes] at below ⊢
    omega
  · rw [← reads.left, sideVolume_load_left, sideVolume_load_left, sides (by omega)]
  · rw [← reads.right, sideVolume_load_right, sideVolume_load_right, sides (by omega)]

end RegisterFrame

namespace Register

/-- What is read of a channel that nothing was written for. -/
def silent : Register := ⟨0, 0, Vector.replicate _ 0, 15, 15⟩

/-- Whether the numbers of a register fit into its bits. -/
structure Fits (g : Register) : Prop where
  frequency : g.frequency < 4096
  volume : g.volume ≤ 15
  left : g.left.toNat ≤ 15
  right : g.right.toNat ≤ 15

/-- The bytes of a register that is written. -/
theorem byte_store (g : Register) (c : Fin channelCount) (r : Ram) :
    let start := (Layout.registerOf c).offset
    (g.store c r).byte start = UInt8.ofNat g.frequency ∧
      (g.store c r).byte (start + 1) = UInt8.ofNat (g.frequency / 256 % 16 + g.volume * 16) ∧
      ∀ k (h : k < waveformBytes), (g.store c r).byte (start + (2 + k)) = g.waveform[k] := by
  have registers : (Layout.registerOf c).offset + 18 ≤ Layout.stereo.offset := by
    have channel : c.val < 4 := c.isLt
    simp only [Layout.registerOf, Layout.registers, Layout.stereo, registerBytes]
    omega
  have memory : Layout.stereo.offset < Layout.memorySize := by decide
  -- the sides of all channels lie above their registers
  have below {m : Ram} {i n : Nat} (low : i < Layout.stereo.offset) (v : UInt8) :
      (m.setPacked .four (2 * Layout.stereo.offset + n) v).byte i = m.byte i := by
    rw [setPacked, byte_setByte, if_neg]
    simp only [Width.byteIndex, Width.perByte]
    omega
  have stored (i : Nat) (low : i < Layout.stereo.offset) : (g.store c r).byte i =
      (((r.setByte (Layout.registerOf c).offset (UInt8.ofNat g.frequency)).setByte
        ((Layout.registerOf c).offset + 1)
        (UInt8.ofNat (g.frequency / 256 % 16 + g.volume * 16))).setBlock
        ((Layout.registerOf c).offset + 2) g.waveform).byte i :=
    (below (n := 2 * c + 1) low g.right).trans (below (n := 2 * c) low g.left)
  dsimp only
  generalize (Layout.registerOf c).offset = start at *
  refine ⟨?_, ?_, fun k inside => ?_⟩
  · rw [stored _ (by omega), byte_setBlock _ _ _ _ (by omega), dif_neg (by omega), byte_setByte,
      if_neg (by omega), byte_setByte, if_pos ⟨rfl, by omega⟩]
  · rw [stored _ (by omega), byte_setBlock _ _ _ _ (by omega), dif_neg (by omega), byte_setByte,
      if_pos ⟨rfl, by omega⟩]
  · have place : start + (2 + k) - (start + 2) = k := by omega
    simp only [waveformBytes] at inside
    rw [stored _ (by omega), byte_setBlock _ _ _ _ (by omega),
      dif_pos ⟨by omega, by simp only [waveformBytes]; omega⟩]
    simp only [place]
    rfl

theorem packed_store (g : Register) (c : Fin channelCount) (r : Ram) :
    (g.store c r).packed .four (2 * Layout.stereo.offset + 2 * c) = g.left &&& 0x0F ∧
      (g.store c r).packed .four (2 * Layout.stereo.offset + 2 * c + 1) = g.right &&& 0x0F := by
  have inside {n : Nat} (low : n < 8) :
      Width.four.byteIndex (2 * Layout.stereo.offset + n) < Layout.memorySize := by
    simp only [Width.byteIndex, Width.perByte, Layout.stereo, Layout.memorySize]
    omega
  have channel : c.val < 4 := c.isLt
  constructor
  · have other : 2 * c.val + 1 < 8 := by omega
    refine (packed_setPacked_of_ne _ .four (inside other) (by omega) _).trans ?_
    exact packed_setPacked_self _ .four (inside (by omega)) g.left
  · exact packed_setPacked_self _ .four (inside (n := 2 * c + 1) (by omega)) g.right

theorem reads_store {g : Register} (fits : g.Fits) (c : Fin channelCount) (r : Ram) :
    (RegisterFrame.load (g.store c r)).Reads c g := by
  obtain ⟨first, second, rest⟩ := g.byte_store c r
  obtain ⟨left, right⟩ := g.packed_store c r
  obtain ⟨frequency, volume, leftBound, rightBound⟩ := fits
  have low (b : UInt8) : (b &&& 0x0F).toNat = b.toNat % 16 := by
    rw [UInt8.toNat_and]
    exact Nat.and_two_pow_sub_one_eq_mod b.toNat 4
  have high (b : UInt8) : (b >>> 4).toNat = b.toNat / 16 := by
    rw [UInt8.toNat_shiftRight]
    exact Nat.shiftRight_eq_div_pow b.toNat 4
  constructor
  · rw [RegisterFrame.frequency, RegisterFrame.byte_load _ _ (by decide),
      RegisterFrame.byte_load (k := 0) _ _ (by decide), second, low, Nat.add_zero, first]
    simp only [UInt8.toNat_ofNat']
    omega
  · rw [RegisterFrame.volume, RegisterFrame.byte_load _ _ (by decide), second, high]
    simp only [UInt8.toNat_ofNat']
    omega
  · rw [RegisterFrame.waveform]
    refine List.ext_getElem (by simp) fun k inside _ => ?_
    have below : k < waveformBytes := by simpa using inside
    have byte : 2 + k < registerBytes := by
      simp only [waveformBytes, registerBytes] at below ⊢
      omega
    rw [List.getElem_map, List.getElem_range, RegisterFrame.byte_load _ _ byte, rest k below]
    rfl
  · rw [RegisterFrame.sideVolume_load_left, left, low]
    omega
  · rw [RegisterFrame.sideVolume_load_right, right, low]
    omega

end Register

theorem RegisterFrame.reads_clearRegisters (r : Ram) (c : Fin channelCount) :
    (load r.clearRegisters).Reads c .silent := by
  have registers : r.clearRegisters.region Layout.registers = Vector.replicate _ 0 := by
    have apart : SameOutside [Layout.stereo] (r.fillRegion Layout.registers 0) r.clearRegisters :=
      sameOutside_setBlock _ (g := Layout.stereo) (by decide) (by decide) (by decide) _
    have kept : SameOn [Layout.registers] (r.fillRegion Layout.registers 0) r.clearRegisters :=
      apart.sameOn (by decide)
    rw [kept.region (by decide), region_fillRegion_self r (by decide)]
  have sides : r.clearRegisters.word Layout.stereo.offset = 0xFFFFFFFF :=
    word_setWord _ (by decide) _
  have cleared : load r.clearRegisters = ⟨Vector.replicate _ 0, 0xFFFFFFFF⟩ := by
    rw [load, registers, sides]
    rfl
  rw [cleared]
  constructor <;> revert c <;> decide

end FantasyConsole
