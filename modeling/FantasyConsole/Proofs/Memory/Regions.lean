import FantasyConsole.Memory.Ram

/-!
# Writing and reading regions

A region that is written holds what was written to it, and regions that share no byte with it hold
what they held before.
-/

namespace FantasyConsole

namespace Ram

theorem byte_blank (i : Nat) : blank.byte i = 0 := by
  simp only [byte, blank, Vector.getElem_replicate, dite_eq_ite, ite_self]

theorem byte_setRegion_of_mem (r : Ram) {g : Region} (fits : g.stop ≤ Layout.memorySize)
    (data : Vector UInt8 g.size) (i : Nat) (h : i < g.size) :
    (r.setRegion g data).byte (g.offset + i) = data[i] := by
  have inside : g.offset + i < Layout.memorySize := by
    simp only [Region.stop] at fits
    omega
  have start : g.offset + i - g.offset = i := by omega
  rw [setRegion, byte_setBlock _ _ _ _ inside, dif_pos ⟨by omega, by omega⟩]
  simp only [start]
  rfl

theorem byte_setRegion_of_not_mem (r : Ram) (g : Region) (data : Vector UInt8 g.size) {j : Nat}
    (outside : ¬ g.Contains j) : (r.setRegion g data).byte j = r.byte j := by
  have apart : ¬ (g.offset ≤ j ∧ j < g.offset + g.size) := outside
  by_cases inside : j < Layout.memorySize
  · rw [setRegion, byte_setBlock _ _ _ _ inside, dif_neg apart]
  · rw [byte_of_le _ (Nat.le_of_not_lt inside), byte_of_le _ (Nat.le_of_not_lt inside)]

/-- A region that is copied from other memory holds what it holds there. -/
theorem byte_setRegion_region (r s : Ram) {g : Region} (fits : g.stop ≤ Layout.memorySize) (j : Nat) :
    (r.setRegion g (s.region g)).byte j = if g.Contains j then s.byte j else r.byte j := by
  split
  case isTrue inside =>
    have start : g.offset + (j - g.offset) = j := Nat.add_sub_cancel' inside.1
    have bound : j - g.offset < g.size := Nat.sub_lt_left_of_lt_add inside.1 inside.2
    have copied := r.byte_setRegion_of_mem fits (s.region g) (j - g.offset) bound
    rw [start] at copied
    rw [copied, region, getElem_block, start]
  case isFalse outside => exact r.byte_setRegion_of_not_mem g _ outside

/-- A region that is written as it was read stays as it is. -/
theorem setRegion_region (r : Ram) {g : Region} (fits : g.stop ≤ Layout.memorySize) :
    r.setRegion g (r.region g) = r := by
  refine ext_byte (fun j => ?_) rfl
  rw [r.byte_setRegion_region r fits, ite_self]

theorem region_ext {r s : Ram} {g : Region} (bytes : ∀ j, g.Contains j → r.byte j = s.byte j) :
    r.region g = s.region g := by
  refine Vector.ext fun i h => ?_
  rw [region, region, getElem_block, getElem_block]
  exact bytes _ ⟨Nat.le_add_right _ _, Nat.add_lt_add_left h _⟩

theorem region_setRegion_self (r : Ram) {g : Region} (fits : g.stop ≤ Layout.memorySize)
    (data : Vector UInt8 g.size) : (r.setRegion g data).region g = data := by
  refine Vector.ext fun i h => ?_
  rw [region, getElem_block, r.byte_setRegion_of_mem fits data i h]

theorem region_setRegion_of_disjoint (r : Ram) {g h : Region} (apart : h.Disjoint g)
    (data : Vector UInt8 g.size) : (r.setRegion g data).region h = r.region h :=
  region_ext fun _ inside => r.byte_setRegion_of_not_mem g data (apart.not_contains inside)

theorem byte_fillRegion_of_not_mem (r : Ram) (g : Region) (v : UInt8) {j : Nat}
    (outside : ¬ g.Contains j) : (r.fillRegion g v).byte j = r.byte j := by
  have apart : ¬ (g.offset ≤ j ∧ j < g.offset + g.size) := outside
  by_cases inside : j < Layout.memorySize
  · rw [fillRegion, byte_fillBlock _ _ _ _ _ inside, if_neg apart]
  · rw [byte_of_le _ (Nat.le_of_not_lt inside), byte_of_le _ (Nat.le_of_not_lt inside)]

theorem region_fillRegion_self (r : Ram) {g : Region} (fits : g.stop ≤ Layout.memorySize)
    (v : UInt8) : (r.fillRegion g v).region g = Vector.replicate g.size v := by
  refine Vector.ext fun i h => ?_
  have inside : g.offset + i < Layout.memorySize := by
    simp only [Region.stop] at fits
    omega
  rw [region, getElem_block, fillRegion, byte_fillBlock _ _ _ _ _ inside,
    if_pos ⟨by omega, by omega⟩, Vector.getElem_replicate]

theorem region_fillRegion_of_disjoint (r : Ram) {g h : Region} (apart : h.Disjoint g) (v : UInt8) :
    (r.fillRegion g v).region h = r.region h :=
  region_ext fun _ inside => r.byte_fillRegion_of_not_mem g v (apart.not_contains inside)

theorem region_setByte_of_not_mem (r : Ram) {g : Region} {i : Nat} (outside : ¬ g.Contains i)
    (v : UInt8) : (r.setByte i v).region g = r.region g := by
  refine region_ext fun j inside => ?_
  rw [byte_setByte, if_neg]
  rintro ⟨rfl, -⟩
  exact outside inside

/-! ### Words -/

private theorem joinBytes_eq (v : UInt32) :
    v.toUInt8.toUInt32 ||| ((v >>> 8).toUInt8.toUInt32 <<< 8)
      ||| ((v >>> 16).toUInt8.toUInt32 <<< 16) ||| ((v >>> 24).toUInt8.toUInt32 <<< 24) = v := by
  have eight : (UInt32.toBitVec 8 % 32).toNat = 8 := rfl
  have sixteen : (UInt32.toBitVec 16 % 32).toNat = 16 := rfl
  have twentyFour : (UInt32.toBitVec 24 % 32).toNat = 24 := rfl
  apply UInt32.toBitVec_inj.mp
  refine BitVec.eq_of_getLsbD_eq fun i bound => ?_
  -- a byte that is moved to bit `n` holds the bits from `n` to `n + 7`
  have moved (n : Nat) : (!decide (i < n) && (decide (i - n < 32) && (decide (i - n < 8) &&
      v.toBitVec.getLsbD (n + (i - n))))) =
        (decide (n ≤ i ∧ i < n + 8) && v.toBitVec.getLsbD i) := by
    by_cases inside : n ≤ i
    · have offset : n + (i - n) = i := by omega
      rw [offset]
      rw [Bool.eq_iff_iff]
      simp only [Bool.and_eq_true, Bool.not_eq_true', decide_eq_false_iff_not, decide_eq_true_iff,
        ← and_assoc]
      exact and_congr_left fun _ => by omega
    · simp [inside, Nat.lt_of_not_le inside]
  simp only [UInt32.toBitVec_or, UInt32.toBitVec_shiftLeft, UInt8.toBitVec_toUInt32,
    UInt32.toBitVec_toUInt8, UInt32.toBitVec_shiftRight, BitVec.getLsbD_or, BitVec.getLsbD_setWidth,
    BitVec.shiftLeft_eq', BitVec.getLsbD_shiftLeft, BitVec.ushiftRight_eq',
    BitVec.getLsbD_ushiftRight, bound, decide_true, Bool.true_and, eight, sixteen, twentyFour,
    moved]
  -- what is left is one bit of `v`, masked by the four intervals, which cover all its places
  cases v.toBitVec.getLsbD i
  · simp
  · simp
    omega

theorem word_setWord (r : Ram) {start : Nat} (fits : start + 4 ≤ Layout.memorySize) (v : UInt32) :
    (r.setWord start v).word start = v := by
  have byte (k : Nat) (below : k < 4) : (r.setWord start v).byte (start + k) =
      #v[v.toUInt8, (v >>> 8).toUInt8, (v >>> 16).toUInt8, (v >>> 24).toUInt8][k] :=
    r.byte_setRegion_of_mem (g := ⟨start, 4⟩) fits _ k below
  have first : (r.setWord start v).byte start = v.toUInt8 := byte 0 (by decide)
  rw [word, first, byte 1 (by decide), byte 2 (by decide), byte 3 (by decide)]
  exact joinBytes_eq v

theorem word_fillBlock (r : Ram) {start : Nat} (fits : start + 4 ≤ Layout.memorySize) (v : UInt8) :
    (r.fillBlock start 4 v).word start = v.toUInt32 ||| (v.toUInt32 <<< 8) |||
      (v.toUInt32 <<< 16) ||| (v.toUInt32 <<< 24) := by
  have byte (k : Nat) (below : k < 4) : (r.fillBlock start 4 v).byte (start + k) = v := by
    rw [byte_fillBlock _ _ _ _ _ (by omega), if_pos ⟨by omega, by omega⟩]
  have first : (r.fillBlock start 4 v).byte start = v := byte 0 (by decide)
  rw [word, first, byte 1 (by decide), byte 2 (by decide), byte 3 (by decide)]

end Ram

end FantasyConsole
