import FantasyConsole.Cart.Sync

/-!
# Sets of sections

A set of sections is a byte with one bit for each section. The operations on bytes are the operations
on sets: membership in a result is described here by membership in what it was made from.
-/

namespace FantasyConsole

namespace Section

/-- The place of the section's bit. -/
def place : Section → Nat
  | tiles => 0
  | sprites => 1
  | map => 2
  | sfx => 3
  | music => 4
  | palette => 5
  | flags => 6
  | screen => 7

theorem place_lt (s : Section) : s.place < 8 := by
  cases s <;> decide

theorem toBitVec_bit (s : Section) : s.bit.toBitVec = BitVec.twoPow 8 s.place := by
  cases s <;> rfl

theorem nodup_all : all.Nodup := by
  decide

end Section

namespace SectionSet

theorem mem_iff_getLsbD {a : SectionSet} {s : Section} :
    s ∈ a ↔ a.bits.toBitVec.getLsbD s.place = true := by
  change (a.bits &&& s.bit == s.bit) = true ↔ _
  rw [beq_iff_eq, ← UInt8.toBitVec_inj, UInt8.toBitVec_and, s.toBitVec_bit, BitVec.and_twoPow]
  -- a single bit is not zero
  have nonzero : 0#8 ≠ BitVec.twoPow 8 s.place := by
    cases s <;> decide
  cases a.bits.toBitVec.getLsbD s.place with
  | false => simpa using nonzero
  | true => simp

theorem not_mem_empty (s : Section) : s ∉ empty := by
  rw [mem_iff_getLsbD]
  simp [empty]

theorem mem_full (s : Section) : s ∈ full := by
  cases s <;> decide

@[simp] theorem mem_union {a b : SectionSet} {s : Section} : s ∈ a.union b ↔ s ∈ a ∨ s ∈ b := by
  simp only [mem_iff_getLsbD, union, UInt8.toBitVec_or, BitVec.getLsbD_or, Bool.or_eq_true]

@[simp] theorem mem_without {a b : SectionSet} {s : Section} :
    s ∈ a.without b ↔ s ∈ a ∧ s ∉ b := by
  simp [mem_iff_getLsbD, without, s.place_lt]

/-- Whether two sets share no section. -/
def Disjoint (a b : SectionSet) : Prop := ∀ s, s ∈ a → s ∉ b

theorem isEmpty_iff {a : SectionSet} : a.isEmpty = true ↔ a = empty := by
  obtain ⟨bits⟩ := a
  simp [isEmpty, empty]

/-- The empty request names every section, any other request its own. -/
theorem mem_requested {mask : SectionSet} {s : Section} :
    s ∈ mask.requested ↔ mask = empty ∨ s ∈ mask := by
  unfold requested
  by_cases nothing : mask = empty
  · rw [if_pos (isEmpty_iff.mpr nothing)]
    exact ⟨fun _ => .inl nothing, fun _ => mem_full s⟩
  · rw [if_neg (mt isEmpty_iff.mp nothing)]
    simp [nothing]

end SectionSet

end FantasyConsole
