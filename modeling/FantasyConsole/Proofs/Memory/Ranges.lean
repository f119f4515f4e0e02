import FantasyConsole.Console.Basic

/-!
# Copying and filling

A copy or a fill takes place as a whole or not at all. Its arguments are words of 64 bits; the sum
that ends a range may be no such word. Here the two operations are also made in words, with every
sum, every product and every range of bytes checked, and compared with those on unbounded integers.

## Main result

`Console.copy_and_fill_exact`: which arguments are accepted, what each byte of memory is afterwards,
that a refused call leaves memory and the marked pixels alone, and that no check ever fails.
-/

namespace FantasyConsole

/-! ### Words of 64 bits -/

/-- What ends a computation in words. -/
inductive WordFault where
  /-- A number that is no word. -/
  | overflow (n : Nat)
  /-- Bytes that do not all lie in memory. -/
  | outside (start stop : Nat)
deriving DecidableEq, Repr

/-- The number of unsigned words. -/
def wordCount : Nat := 18446744073709551616

/-- A number that has to be an unsigned word. -/
def checkedWord (n : Nat) : Except WordFault Nat :=
  if n < wordCount then pure n else throw (.overflow n)

/-- The length of a range, all of whose bytes have to lie in memory. -/
def checkedLength (start stop : Nat) : Except WordFault Nat :=
  if start ≤ stop ∧ stop ≤ Layout.memorySize then pure (stop - start)
  else throw (.outside start stop)

/-- The sum of two signed words, if it is one. -/
def addWords? (a b : Int64) : Option Int64 :=
  if (a + b).toInt = a.toInt + b.toInt then some (a + b) else none

theorem checkedWord_of_lt {n : Nat} (fits : n < wordCount) : checkedWord n = pure n := if_pos fits

theorem checkedLength_of_le {start stop : Nat} (ordered : start ≤ stop)
    (inside : stop ≤ Layout.memorySize) : checkedLength start stop = pure (stop - start) :=
  if_pos ⟨ordered, inside⟩

theorem addWords?_of_bounds {a b : Int64} (lower : -9223372036854775808 ≤ a.toInt + b.toInt)
    (upper : a.toInt + b.toInt < 9223372036854775808) : addWords? a b = some (a + b) := by
  refine if_pos ?_
  rw [Int64.toInt_add]
  exact Int.bmod_eq_of_le (by omega) (by omega)

theorem toInt_of_addWords? {a b sum : Int64} (added : addWords? a b = some sum) :
    sum.toInt = a.toInt + b.toInt := by
  unfold addWords? at added
  split at added
  case isTrue exact => cases added; exact exact
  case isFalse => cases added

/-! ### Ranges and marks in words -/

namespace Ram

/-- Where a range of bytes begins and where it ends, if it lies in memory. A range whose end is no
word does not. -/
def span? (start n : Int64) : Option (Nat × Nat) :=
  if start < 0 ∨ n < 0 then none
  else
    match addWords? start n with
    | some stop =>
      if stop.toInt ≤ Layout.memorySize then some (start.toInt.toNat, stop.toInt.toNat) else none
    | none => none

theorem span?_eq (start n : Int64) :
    span? start n =
      if InMemory start.toInt n.toInt then
        some (start.toInt.toNat, (start.toInt + n.toInt).toNat)
      else
        none := by
  have negative (a : Int64) : a < 0 ↔ a.toInt < 0 := Int64.lt_iff_toInt_lt
  have size : (Layout.memorySize : Int) < 9223372036854775808 := by decide
  simp only [span?, negative]
  by_cases below : start.toInt < 0 ∨ n.toInt < 0
  · have outside : ¬ InMemory start.toInt n.toInt := by
      rintro ⟨lower, positive, -⟩
      omega
    rw [if_pos below, if_neg outside]
  · rw [if_neg below]
    cases added : addWords? start n with
    | some stop =>
      have upper : start.toInt + n.toInt ≤ Layout.memorySize ↔ InMemory start.toInt n.toInt :=
        ⟨fun upper => ⟨by omega, by omega, upper⟩, fun inside => inside.2.2⟩
      simp only [toInt_of_addWords? added, upper]
    | none =>
      -- a sum that is no word lies far beyond memory
      have outside : ¬ InMemory start.toInt n.toInt := by
        rintro ⟨-, -, upper⟩
        rw [addWords?_of_bounds (by omega) (by omega)] at added
        cases added
      rw [if_neg outside]

/-- Marks the two pixels of a byte. -/
def markByte (m : DirtyMask) (byte : Nat) : DirtyMask := (m.mark (2 * byte)).mark (2 * byte + 1)

def checkedMarkByte (m : DirtyMask) (byte : Nat) : Except WordFault DirtyMask := do
  let even ← checkedWord (2 * byte)
  let odd ← checkedWord (2 * byte + 1)
  return (m.mark even).mark odd

/-- Marks the pixels of those bytes of a range that lie in the screen, byte by byte. -/
def checkedMarkBytes (m : DirtyMask) (start stop : Nat) : Except WordFault DirtyMask :=
  let stop := min stop Layout.screen.stop
  let start := min start stop
  (List.range' start (stop - start)).foldlM checkedMarkByte m

theorem foldl_markByte (m : DirtyMask) (start n : Nat) :
    (List.range' start n).foldl markByte m = m.markRange (2 * start) (2 * n) := by
  induction n with
  | zero => exact (m.markRange_zero _).symm
  | succ n ih =>
    have even : 2 * start + 2 * n = 2 * (start + 1 * n) := by omega
    rw [List.range'_concat, List.foldl_append, ih, Nat.mul_add_one, DirtyMask.markRange_succ,
      DirtyMask.markRange_succ, ← Nat.add_assoc, even]
    rfl

theorem foldlM_checkedMarkByte (m : DirtyMask) (start n : Nat)
    (fits : 2 * (start + n) < wordCount) :
    (List.range' start n).foldlM checkedMarkByte m =
      pure ((List.range' start n).foldl markByte m) := by
  induction n generalizing start m with
  | zero => rfl
  | succ n ih =>
    have marked : checkedMarkByte m start = pure (markByte m start) := by
      rw [checkedMarkByte, checkedWord_of_lt (by omega), pure_bind, checkedWord_of_lt (by omega),
        pure_bind]
      rfl
    rw [List.range'_succ, List.foldlM_cons, marked, pure_bind, ih _ _ (by omega), List.foldl_cons]

theorem checkedMarkBytes_eq (r : Ram) (start n : Nat) :
    checkedMarkBytes r.dirty start (start + n) = pure (r.markBytes start n).dirty := by
  have screen : 2 * Layout.screen.stop < wordCount := by decide
  rw [checkedMarkBytes, foldlM_checkedMarkByte _ _ _ (by omega), foldl_markByte]
  -- an empty range may begin beyond the screen, and then marks nothing wherever it begins
  by_cases begins : start ≤ min (start + n) Layout.screen.stop
  · rw [Nat.min_eq_left begins]
    rfl
  · have nothing : min (start + n) Layout.screen.stop - start = 0 := by omega
    simp only [markBytes, Nat.min_eq_right (Nat.le_of_not_le begins), Nat.sub_self, nothing,
      Nat.mul_zero, DirtyMask.markRange_zero]

/-! ### The operations in words -/

/-- Copies bytes and marks the destination, computing in words. -/
def checkedCopy (r : Ram) (dst src n : Int64) : Except WordFault (Option Ram) :=
  match span? dst n, span? src n with
  | some (place, placeStop), some (origin, originStop) => do
    let count ← checkedLength origin originStop
    -- the bytes that are moved have to fit where they go
    let _ ← checkedLength place (← checkedWord (place + count))
    let dirty ← checkedMarkBytes r.dirty place placeStop
    return some { r.setBlock place (r.block origin count) with dirty := dirty }
  | _, _ => return none

/-- Fills bytes and marks them, computing in words. -/
def checkedFill (r : Ram) (dst : Int64) (v : UInt8) (n : Int64) : Except WordFault (Option Ram) :=
  match span? dst n with
  | some (place, placeStop) => do
    let count ← checkedLength place placeStop
    let dirty ← checkedMarkBytes r.dirty place placeStop
    return some { r.fillBlock place count v with dirty := dirty }
  | none => return none

private theorem toNat_add {start n : Int} (inside : InMemory start n) :
    (start + n).toNat = start.toNat + n.toNat :=
  Int.toNat_add inside.1 inside.2.1

private theorem toNat_add_le {start n : Int} (inside : InMemory start n) :
    start.toNat + n.toNat ≤ Layout.memorySize := by
  obtain ⟨lower, positive, upper⟩ := inside
  omega

theorem checkedCopy_eq (r : Ram) (dst src n : Int64) :
    r.checkedCopy dst src n = .ok (r.copy? dst.toInt src.toInt n.toInt) := by
  simp only [checkedCopy, span?_eq]
  by_cases into : InMemory dst.toInt n.toInt
  · by_cases origin : InMemory src.toInt n.toInt
    · have here := toNat_add_le into
      have there := toNat_add_le origin
      have small : Layout.memorySize < wordCount := by decide
      rw [if_pos into, if_pos origin, copy?, if_pos ⟨into, origin⟩]
      simp only [toNat_add into, toNat_add origin]
      rw [checkedLength_of_le (Nat.le_add_right _ _) there, pure_bind, Nat.add_sub_cancel_left,
        checkedWord_of_lt (by omega), pure_bind, checkedLength_of_le (Nat.le_add_right _ _) here,
        pure_bind, checkedMarkBytes_eq, pure_bind]
      rfl
    · rw [if_pos into, if_neg origin, (r.copy?_eq_none_iff _ _ _).mpr (fun both => origin both.2)]
      rfl
  · rw [if_neg into, (r.copy?_eq_none_iff _ _ _).mpr (fun both => into both.1)]
    split
    case h_1 => contradiction
    case h_2 => rfl

theorem checkedFill_eq (r : Ram) (dst : Int64) (v : UInt8) (n : Int64) :
    r.checkedFill dst v n = .ok (r.fill? dst.toInt v n.toInt) := by
  simp only [checkedFill, span?_eq]
  by_cases inside : InMemory dst.toInt n.toInt
  · rw [if_pos inside, fill?, if_pos inside]
    simp only [toNat_add inside]
    rw [checkedLength_of_le (Nat.le_add_right _ _) (toNat_add_le inside), pure_bind,
      Nat.add_sub_cancel_left, checkedMarkBytes_eq, pure_bind]
    rfl
  · rw [if_neg inside, (r.fill?_eq_none_iff _ v _).mpr inside]
    rfl

end Ram

/-! ### The calls -/

namespace Console

theorem copy_of_inMemory (c : Console) {dst src n : Int}
    (inside : Ram.InMemory dst n ∧ Ram.InMemory src n) :
    (c.copy dst src n).1 = true ∧ ∀ j : Nat,
      (c.copy dst src n).2.ram.byte j =
        if dst ≤ j ∧ j < dst + n then c.ram.byte (src + (j - dst)).toNat else c.ram.byte j := by
  cases copied : c.ram.copy? dst src n with
  | some s =>
    rw [copy, copied]
    exact ⟨rfl, Ram.byte_copy? copied⟩
  | none => exact absurd inside ((c.ram.copy?_eq_none_iff dst src n).mp copied)

theorem copy_of_not_inMemory (c : Console) {dst src n : Int}
    (outside : ¬ (Ram.InMemory dst n ∧ Ram.InMemory src n)) :
    (c.copy dst src n).1 = false ∧ (c.copy dst src n).2.ram = c.ram := by
  rw [copy, (c.ram.copy?_eq_none_iff dst src n).mpr outside]
  exact ⟨rfl, rfl⟩

theorem fill_of_inMemory (c : Console) {dst n : Int} (v : UInt8) (inside : Ram.InMemory dst n) :
    (c.fill dst v n).1 = true ∧ ∀ j : Nat,
      (c.fill dst v n).2.ram.byte j = if dst ≤ j ∧ j < dst + n then v else c.ram.byte j := by
  cases filled : c.ram.fill? dst v n with
  | some s =>
    rw [fill, filled]
    exact ⟨rfl, Ram.byte_fill? filled⟩
  | none => exact absurd inside ((c.ram.fill?_eq_none_iff dst v n).mp filled)

theorem fill_of_not_inMemory (c : Console) {dst n : Int} (v : UInt8)
    (outside : ¬ Ram.InMemory dst n) :
    (c.fill dst v n).1 = false ∧ (c.fill dst v n).2.ram = c.ram := by
  rw [fill, (c.ram.fill?_eq_none_iff dst v n).mpr outside]
  exact ⟨rfl, rfl⟩

/-- Copying is accepted exactly if neither range begins before memory, has a negative length or ends
beyond memory. Then the destination holds what the source held before, overlapping or not, and every
other byte is what it was. Filling is accepted likewise and leaves the byte in its range. A call
that is refused leaves memory, its record of written pixels included, as it was. Computed in words
of 64 bits both come out the same: no sum, product or range of bytes fails its check. -/
theorem copy_and_fill_exact (c : Console) (dst src n : Int64) (v : UInt8) :
    (if (0 ≤ dst.toInt ∧ 0 ≤ src.toInt ∧ 0 ≤ n.toInt) ∧
        dst.toInt + n.toInt ≤ 98304 ∧ src.toInt + n.toInt ≤ 98304 then
      (c.copy dst.toInt src.toInt n.toInt).1 = true ∧ ∀ j : Nat,
        (c.copy dst.toInt src.toInt n.toInt).2.ram.byte j =
          if dst.toInt ≤ j ∧ j < dst.toInt + n.toInt then
            c.ram.byte (src.toInt + (j - dst.toInt)).toNat
          else
            c.ram.byte j
    else
      (c.copy dst.toInt src.toInt n.toInt).1 = false ∧
        (c.copy dst.toInt src.toInt n.toInt).2.ram = c.ram) ∧
    (if (0 ≤ dst.toInt ∧ 0 ≤ n.toInt) ∧ dst.toInt + n.toInt ≤ 98304 then
      (c.fill dst.toInt v n.toInt).1 = true ∧ ∀ j : Nat,
        (c.fill dst.toInt v n.toInt).2.ram.byte j =
          if dst.toInt ≤ j ∧ j < dst.toInt + n.toInt then v else c.ram.byte j
    else
      (c.fill dst.toInt v n.toInt).1 = false ∧
        (c.fill dst.toInt v n.toInt).2.ram = c.ram) ∧
    c.ram.checkedCopy dst src n = .ok (c.ram.copy? dst.toInt src.toInt n.toInt) ∧
    c.ram.checkedFill dst v n = .ok (c.ram.fill? dst.toInt v n.toInt) := by
  have size : (Layout.memorySize : Int) = 98304 := rfl
  refine ⟨?copies, ?fills, c.ram.checkedCopy_eq dst src n, c.ram.checkedFill_eq dst v n⟩
  case copies =>
    split
    case isTrue inside => exact c.copy_of_inMemory (by simp only [Ram.InMemory, size]; omega)
    case isFalse outside => exact c.copy_of_not_inMemory (by simp only [Ram.InMemory, size]; omega)
  case fills =>
    split
    case isTrue inside => exact c.fill_of_inMemory v (by simp only [Ram.InMemory, size]; omega)
    case isFalse outside =>
      exact c.fill_of_not_inMemory v (by simp only [Ram.InMemory, size]; omega)

end Console

end FantasyConsole
