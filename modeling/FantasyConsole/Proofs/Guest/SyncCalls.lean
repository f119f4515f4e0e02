import FantasyConsole.Guest.Api
import FantasyConsole.Proofs.Cart.SyncFrame
import Mathlib.Algebra.Ring.Int.Defs

/-!
# What a program copies between memory and the cart

A program names the sections by the bits of an integer and the bank by another integer. Only the low
eight bits of the first one count, and it is those that are compared with zero: an integer whose low
eight bits are all clear names every section, whatever its other bits are.

## Main result

`Api.sync_call_exact`

## Proof strategy

The mask is cut down to a byte, so a section is in it if the section's bit is set in the integer, and
it is the empty set if 256 divides the integer. What a request does is known from the
synchronisations of a frame.
-/

namespace FantasyConsole

/-- Whether a program's mask stands for a section: its bit is set, or the low eight bits are clear
and stand for every section. -/
def Section.NamedBy (s : Section) (mask : Int) : Prop :=
  mask % 256 = 0 ∨ mask / 2 ^ s.place % 2 = 1

instance (s : Section) (mask : Int) : Decidable (s.NamedBy mask) :=
  inferInstanceAs (Decidable (_ ∨ _))

/-- The direction that a program's flag stands for. -/
def Direction.ofFlag (toCart : Bool) : Direction := if toCart then .toCart else .toMemory

namespace SectionSet

/-- The sections that a program's mask is cut down to. -/
def ofMask (mask : Int) : SectionSet := ⟨byteOfInt mask⟩

theorem mem_ofMask {mask : Int} {s : Section} :
    s ∈ ofMask mask ↔ mask / 2 ^ s.place % 2 = 1 := by
  -- the low byte of the mask has the same bits
  have low : ((mask % 256).toNat : Int) = mask % 256 := Int.toNat_of_nonneg (by omega)
  rw [mem_iff_getLsbD, ofMask, byteOfInt, UInt8.toBitVec_ofNat', BitVec.getLsbD_ofNat,
    Nat.testBit_eq_decide_div_mod_eq, decide_eq_true s.place_lt, Bool.true_and, decide_eq_true_iff]
  cases s <;> simp only [Section.place] <;> omega

theorem ofMask_eq_empty {mask : Int} : ofMask mask = empty ↔ mask % 256 = 0 := by
  rw [ofMask, empty, SectionSet.mk.injEq, byteOfInt, ← UInt8.toNat_inj]
  simp only [UInt8.toNat_ofNat', UInt8.toNat_zero]
  omega

theorem mem_requested_ofMask {mask : Int} {s : Section} :
    s ∈ (ofMask mask).requested ↔ s.NamedBy mask := by
  rw [mem_requested, ofMask_eq_empty, mem_ofMask, Section.NamedBy]

end SectionSet

theorem Cart.bank?_eq_none {n : Int} : bank? n = none ↔ n < 0 ∨ bankCount ≤ n := by
  rw [bank?, dite_eq_right_iff]
  simp only [reduceCtorEq, imp_false]
  omega

theorem Cart.bank?_val (i : Fin bankCount) : bank? i.val = some i := by
  have bound : (i.val : Int) < bankCount := by exact_mod_cast i.isLt
  rw [bank?, dif_pos ⟨Int.natCast_nonneg _, bound⟩]
  simp

namespace Api

/-- The request that a program's arguments stand for, if their bank exists. -/
def syncRequest (args : List Value) (i : Fin Cart.bankCount) : SyncRequest :=
  ⟨.ofMask (intArg args 0 0), i, .ofFlag (flagArg args 2)⟩

theorem call_sync (args : List Value) (c : Console) : call "sync" args c =
    if args.length ≤ 3 then (.ok (sync args c).1, (sync args c).2)
    else (.error (.arity "sync" 0 3 args.length), c) := by
  have found : lookup? "sync" = some ⟨"sync", 0, 3, sync⟩ := by rfl
  rw [call, found]
  dsimp only
  by_cases few : args.length ≤ 3
  · rw [if_pos few, if_neg (by omega)]
  · rw [if_neg few, if_pos (by omega)]

theorem sync_of_bank {args : List Value} {i : Fin Cart.bankCount} (bank : intArg args 1 0 = i.val)
    (c : Console) : sync args c = (.nil, (c.serve (syncRequest args i)).2) := by
  unfold sync
  dsimp only
  rw [bank, Cart.bank?_val]
  rfl

theorem sync_of_no_bank {args : List Value} (none : Cart.bank? (intArg args 1 0) = none)
    (c : Console) : sync args c =
      (.bool false, c.log .sync .warn s!"sync: invalid bank {intArg args 1 0}") := by
  unfold sync
  dsimp only
  rw [none]

/-- A program's request with a bank that exists copies, in the direction of its flag, exactly the
sections that its mask stands for and that were not copied since the frame began, and remembers them;
nothing else changes apart from a line in the log. With any other bank it does nothing but warn, and
with too many arguments nothing at all. -/
theorem sync_call_exact (c : Console) (args : List Value) :
    let mask := intArg args 0 0
    let bank := intArg args 1 0
    (args.length ≤ 3 → ∀ i : Fin Cart.bankCount, bank = i.val → ∃ d text,
      call "sync" args c = (.ok .nil, d) ∧
      c.stores.Follows
        (.copying (fun s => s ∉ c.state.synced ∧ s.NamedBy mask) i (.ofFlag (flagArg args 2)))
        d.stores ∧
      (∀ s, s ∈ d.state.synced ↔ s ∈ c.state.synced ∨ s.NamedBy mask) ∧
      c.log .sync .debug text =
        { d with
          ram := c.ram
          cart := c.cart
          state.overlayPalette := c.state.overlayPalette
          state.synced := c.state.synced }) ∧
    (args.length ≤ 3 → bank < 0 ∨ Cart.bankCount ≤ bank →
      call "sync" args c =
        (.ok (.bool false), c.log .sync .warn s!"sync: invalid bank {bank}")) ∧
    (3 < args.length → call "sync" args c = (.error (.arity "sync" 0 3 args.length), c)) := by
  refine ⟨fun few i known => ?valid, fun few unknown => ?invalid, fun many => ?refused⟩
  case valid =>
    let q := syncRequest args i
    have names : ∀ s, q.Names s ↔ s.NamedBy (intArg args 0 0) :=
      fun _ => SectionSet.mem_requested_ofMask
    refine ⟨(c.serve q).2, _, ?_, (c.follows_serve q).congr fun s => ?_, fun s => ?_, rfl⟩
    · rw [call_sync, if_pos few, sync_of_bank known]
    · -- both plans copy the section under the same condition
      have same : s ∈ (c.serve q).1 ↔ s ∉ c.state.synced ∧ s.NamedBy (intArg args 0 0) := by
        rw [Console.mem_serve, names, and_comm]
      unfold Plan.copying
      simp only [same]
      rfl
    · rw [Console.mem_synced_serve, names]
  case invalid =>
    rw [call_sync, if_pos few, sync_of_no_bank (Cart.bank?_eq_none.mpr unknown)]
  case refused =>
    rw [call_sync, if_neg (by omega)]

/-- The bit that no section has does not matter beside the bit of the map. -/
theorem sync_call_exact_map :
    let c := Console.new {} {}
    ∃ d, call "sync" [.int 260, .int 3, .bool true] c = (.ok .nil, d) ∧
      d.stores.inBank 3 .map = c.stores.inMemory .map ∧
      ∀ s, s ∈ d.state.synced ↔ s = .map := by
  intro c
  obtain ⟨d, text, called, follows, synced, -⟩ :=
    (sync_call_exact c [.int 260, .int 3, .bool true]).1 (by decide) 3 rfl
  refine ⟨d, called, follows.stored .map 3 (Plan.copying_of ?_), fun s => ?_⟩
  · decide
  · rw [synced]
    cases s <;> decide

/-- The mask 256 is not zero and has no section's bit, and yet the tiles are overwritten. -/
theorem unknown_bit_overwrites_tiles :
    let c := { Console.new {} {} with ram := Ram.blank.setByte Layout.tiles.offset 7 }
    let d := (call "sync" [.int 256, .int 0] c).2
    (256 : Int) ≠ 0 ∧ (∀ s : Section, (256 : Int) / 2 ^ s.place % 2 ≠ 1) ∧
      c.ram.byte Layout.tiles.offset = 7 ∧ d.ram.byte Layout.tiles.offset = 0 := by
  intro c d
  have named : ∀ s : Section, (256 : Int) / 2 ^ s.place % 2 ≠ 1 := by
    intro s
    cases s <;> decide
  refine ⟨by decide, named, ?_, ?_⟩
  · simp [c, Ram.byte_setByte, Layout.tiles, Layout.memorySize]
  · let q := syncRequest [.int 256, .int 0] 0
    have copied : Section.tiles ∈ (c.serve q).1 := by decide
    have loaded := (c.follows_serve q).loaded .tiles 0 (Plan.copying_of copied)
    have tiles : d.ram.region Layout.tiles = Vector.replicate _ 0 :=
      congrArg SyncStores.Content.data loaded
    have first := congrArg (fun tiles => tiles[0]) tiles
    simpa [Ram.region, Ram.block] using first

end Api

end FantasyConsole
