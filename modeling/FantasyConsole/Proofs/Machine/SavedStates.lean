import FantasyConsole.Proofs.Machine.Run
import FantasyConsole.Proofs.Memory.Agreement

/-!
# Restoring persistent memory

A saved state gives persistent memory back, or nothing at all: an array of words replaces as many
slots as it has words, and what is no array of words is refused before a slot is written.

## Main result

`Machine.loadState?_exact`: what a machine is after a saved state has been loaded, for every JSON
value; and what one machine saves, another one loads.

## Proof strategy

A slot is written where its own four bytes lie. The loop over the words is followed by induction,
from any slot on: the slots before and behind it keep their bytes.
-/

namespace FantasyConsole

/-! ### Arrays of words -/

namespace Json

/-- The array of some words. -/
def wordArray (words : List UInt32) : Json := .arr (words.map fun w => .nat w.toNat)

theorem word?_nat (w : UInt32) : word? (.nat w.toNat) = some w := by
  have inside : 0 ≤ (w.toNat : Int) ∧ (w.toNat : Int) < 4294967296 :=
    ⟨Int.natCast_nonneg _, Int.ofNat_lt.mpr w.toNat_lt⟩
  rw [nat, word?, if_pos inside, Int.toNat_natCast, UInt32.ofNat_toNat]

theorem eq_nat_of_word? {j : Json} {w : UInt32} (word : word? j = some w) : j = .nat w.toNat := by
  cases j with
  | int n =>
    rw [word?, Option.ite_none_right_eq_some] at word
    obtain ⟨⟨lower, upper⟩, same⟩ := word
    cases same
    have small : n.toNat < UInt32.size := by
      simp only [UInt32.size]
      omega
    rw [UInt32.toNat_ofNat_of_lt' small, nat, Int.toNat_of_nonneg lower]
  | _ => cases word

theorem words?_wordArray (words : List UInt32) : words? (wordArray words) = some words := by
  change (words.map fun w => Json.nat w.toNat).mapM word? = some words
  induction words with
  | nil => rfl
  | cons w words ih => rw [List.map_cons, List.mapM_cons, word?_nat, ih]; rfl

theorem eq_wordArray_of_words? {j : Json} {words : List UInt32} (read : words? j = some words) :
    j = wordArray words := by
  cases j with
  | arr items =>
    change items.mapM word? = some words at read
    refine congrArg Json.arr ?_
    -- one item that is no word, wherever it stands, and nothing is read
    induction items generalizing words with
    | nil => cases read; rfl
    | cons item items ih =>
      rw [List.mapM_cons] at read
      cases word : word? item with
      | none => rw [word] at read; cases read
      | some w =>
        cases rest : items.mapM word? with
        | none => rw [word, rest] at read; cases read
        | some later =>
          rw [word, rest] at read
          cases read
          rw [eq_nat_of_word? word, ih rest]
          rfl
  | _ => cases read

end Json

/-! ### Slots -/

namespace Ram

theorem isSlot_natCast (i : Nat) : IsSlot i ↔ i < Layout.persistentSlots := by
  unfold IsSlot
  omega

theorem slot_of_lt {i : Nat} (valid : i < Layout.persistentSlots) (r : Ram) :
    r.slot i = r.word (slotStart i) :=
  if_pos ((isSlot_natCast i).mpr valid)

theorem setSlot_of_lt {i : Nat} (valid : i < Layout.persistentSlots) (r : Ram) (v : UInt32) :
    r.setSlot i v = r.setWord (slotStart i) v :=
  if_pos ((isSlot_natCast i).mpr valid)

theorem setSlot_of_le {i : Nat} (beyond : Layout.persistentSlots ≤ i) (r : Ram) (v : UInt32) :
    r.setSlot i v = r :=
  if_neg (mt (isSlot_natCast i).mp (Nat.not_lt.mpr beyond))

theorem slotStart_fits {i : Nat} (valid : i < Layout.persistentSlots) :
    slotStart i + 4 ≤ Layout.memorySize := by
  simp only [Layout.persistentSlots] at valid
  simp only [slotStart, Layout.persistent, Layout.memorySize]
  omega

theorem slot_setSlot_self {i : Nat} (valid : i < Layout.persistentSlots) (r : Ram) (v : UInt32) :
    (r.setSlot i v).slot i = v := by
  rw [slot_of_lt valid, setSlot_of_lt valid, word_setWord r (slotStart_fits valid)]

/-- The bytes of `n` slots from `first` on. -/
def slots (first n : Nat) : Region := ⟨slotStart first, 4 * n⟩

theorem sameOutside_setSlot (r : Ram) {i first n : Nat} (lower : first ≤ i) (upper : i < first + n)
    (v : UInt32) : SameOutside [slots first n] r (r.setSlot i v) := by
  by_cases valid : i < Layout.persistentSlots
  · rw [setSlot_of_lt valid]
    refine r.sameOutside_setBlock List.mem_cons_self ?_ ?_ _ <;>
      simp only [slots, slotStart, Region.stop] <;> omega
  · rw [setSlot_of_le (Nat.le_of_not_lt valid)]
    exact .refl _ r

theorem dirty_setSlot (r : Ram) (i : Nat) (v : UInt32) : (r.setSlot i v).dirty = r.dirty := by
  unfold setSlot
  split
  · exact dirty_setBlock ..
  · rfl

/-- Memories that agree outside some slots have the same values in the others. -/
theorem SameOutside.slot {first n : Nat} {r s : Ram} (same : SameOutside [slots first n] r s)
    {i : Nat} (other : i < first ∨ first + n ≤ i) : s.slot i = r.slot i := by
  by_cases valid : i < Layout.persistentSlots
  · rw [slot_of_lt valid, slot_of_lt valid]
    refine same.word (g := slots i 1) (List.forall_mem_singleton.mpr ?_) (Nat.le_refl 4)
    simp only [Region.Disjoint, slots, slotStart, Region.stop]
    omega
  · have beyond := mt (isSlot_natCast i).mp valid
    exact (if_neg beyond).trans (if_neg beyond).symm

/-- Writes words into the slots from `first` on. -/
def restore (r : Ram) (words : List UInt32) (first : Nat) : Ram :=
  (words.zipIdx first).foldl (fun ram (w, i) => ram.setSlot i w) r

theorem restore_cons (r : Ram) (w : UInt32) (words : List UInt32) (first : Nat) :
    r.restore (w :: words) first = (r.setSlot first w).restore words (first + 1) := by
  simp only [restore, List.zipIdx_cons, List.foldl_cons]

theorem restore_of_le {first : Nat} (beyond : Layout.persistentSlots ≤ first) (r : Ram)
    (words : List UInt32) : r.restore words first = r := by
  induction words generalizing first with
  | nil => rfl
  | cons w words ih => rw [restore_cons, setSlot_of_le beyond, ih (Nat.le_succ_of_le beyond)]

theorem dirty_restore (r : Ram) (words : List UInt32) (first : Nat) :
    (r.restore words first).dirty = r.dirty := by
  induction words generalizing r first with
  | nil => rfl
  | cons w words ih => rw [restore_cons, ih, dirty_setSlot]

theorem sameOutside_restore (r : Ram) (words : List UInt32) (first : Nat) :
    SameOutside [slots first (min words.length (Layout.persistentSlots - first))] r
      (r.restore words first) := by
  induction words generalizing r first with
  | nil => exact .refl _ r
  | cons w words ih =>
    by_cases valid : first < Layout.persistentSlots
    · rw [restore_cons, List.length_cons]
      have own : first < first + min (words.length + 1) (Layout.persistentSlots - first) := by omega
      have here := r.sameOutside_setSlot (Nat.le_refl first) own w
      -- the words behind the first one go to slots behind the first one
      refine here.trans ((ih (r.setSlot first w) (first + 1)).widen ?_)
      simp only [List.mem_singleton, forall_eq, exists_eq_left, Region.Within, slots, slotStart,
        Region.stop]
      omega
    · rw [restore_of_le (Nat.le_of_not_lt valid)]
      exact .refl _ r

theorem slot_restore (r : Ram) {words : List UInt32} {first i : Nat} {w : UInt32}
    (written : words[i]? = some w) (valid : first + i < Layout.persistentSlots) :
    (r.restore words first).slot (first + i : Nat) = w := by
  induction words generalizing r first i with
  | nil => cases written
  | cons v words ih =>
    rw [restore_cons]
    cases i with
    | zero =>
      cases written
      have kept := (r.setSlot first w).sameOutside_restore words (first + 1)
      exact (kept.slot (.inl (Nat.lt_succ_self _))).trans (slot_setSlot_self valid r w)
    | succ i =>
      have next : first + (i + 1) = first + 1 + i := by omega
      rw [next] at valid ⊢
      exact ih _ written valid

end Ram

/-! ### Saving and loading -/

namespace Machine

variable {σ τ : Type}

theorem ram_restoreWords (m : Machine σ) (words : List UInt32) :
    (m.restoreWords words).console.ram = m.console.ram.restore words 0 := rfl

theorem step_loadState (m : Machine σ) (saved : Json) :
    (Op.loadState saved).step m = .ok ((m.loadState? saved).getD m) := rfl

theorem loadState?_of_absent {saved : Json} (absent : saved.member? "persistent" = none)
    (m : Machine σ) : m.loadState? saved = some m := by
  rw [loadState?, absent]

theorem loadState?_of_words {saved : Json} {words : List UInt32}
    (found : saved.member? "persistent" = some (.wordArray words)) (m : Machine σ) :
    m.loadState? saved = some (m.restoreWords words) := by
  rw [loadState?, found]
  exact congrArg (Option.map m.restoreWords) (Json.words?_wordArray words)

theorem loadState?_of_others {saved persistent : Json}
    (found : saved.member? "persistent" = some persistent)
    (others : ∀ words, persistent ≠ .wordArray words) (m : Machine σ) :
    m.loadState? saved = none := by
  rw [loadState?, found]
  dsimp only
  cases read : persistent.words? with
  | none => rfl
  | some words => exact absurd (Json.eq_wordArray_of_words? read) (others words)

theorem member?_saveState (m : Machine σ) :
    m.saveState.member? "persistent" = some (.wordArray m.persistentWords) := rfl

theorem getElem?_persistentWords (m : Machine σ) {i : Nat} (valid : i < Layout.persistentSlots) :
    m.persistentWords[i]? = some (m.console.ram.slot i) := by
  rw [persistentWords, List.getElem?_map, List.getElem?_range valid]
  rfl

theorem persistentWords_congr {m : Machine σ} {n : Machine τ}
    (same : ∀ i : Nat, i < Layout.persistentSlots → n.console.ram.slot i = m.console.ram.slot i) :
    n.persistentWords = m.persistentWords :=
  List.map_congr_left fun i member => same i (List.mem_range.mp member)

/-- What becomes of a machine when a saved state is loaded. If the state has no persistent memory,
the machine stays what it is. With an array of words, the slots from the first on have these words
as far as there are slots, and no other byte of memory, no mark and nothing beside memory changes.
With any other value the state is refused, and the machine stays what it is. A state that another
machine has saved is accepted; the machine then has all slots of the other and saves the same
array. -/
theorem loadState?_exact (m : Machine σ) (donor : Machine τ) (saved : Json) :
    (saved.member? "persistent" = none →
      m.loadState? saved = some m ∧ (Op.loadState saved).step m = .ok m) ∧
    (∀ words, saved.member? "persistent" = some (.wordArray words) →
      ∃ ram, m.loadState? saved = some (m.mapConsole fun c => { c with ram := ram }) ∧
        (∀ (i : Nat) (w : UInt32), words[i]? = some w → i < Layout.persistentSlots →
          ram.slot i = w) ∧
        (∀ i : Nat, words.length ≤ i → ram.slot i = m.console.ram.slot i) ∧
        Ram.SameOutside [Ram.slots 0 (min words.length Layout.persistentSlots)] m.console.ram ram ∧
        ram.dirty = m.console.ram.dirty) ∧
    (∀ persistent, saved.member? "persistent" = some persistent →
      (∀ words, persistent ≠ .wordArray words) →
      m.loadState? saved = none ∧ (Op.loadState saved).step m = .ok m) ∧
    (∃ n, m.loadState? donor.saveState = some n ∧
      (∀ i : Nat, i < Layout.persistentSlots → n.console.ram.slot i = donor.console.ram.slot i) ∧
      n.saveState.member? "persistent" = donor.saveState.member? "persistent") := by
  refine ⟨?_, ?_, ?_, ?_⟩
  · intro absent
    have loaded := loadState?_of_absent absent m
    rw [step_loadState, loaded]
    exact ⟨rfl, rfl⟩
  · intro words found
    have outside := m.console.ram.sameOutside_restore words 0
    refine ⟨m.console.ram.restore words 0, loadState?_of_words found m, ?_, ?_, outside, ?_⟩
    · intro i w written valid
      have slot : (m.console.ram.restore words 0).slot (0 + i : Nat) = w :=
        m.console.ram.slot_restore written (by omega)
      rwa [Nat.zero_add] at slot
    · intro i left
      exact outside.slot (.inr (by omega))
    · exact m.console.ram.dirty_restore words 0
  · intro persistent found others
    have refused := loadState?_of_others found others m
    rw [step_loadState, refused]
    exact ⟨rfl, rfl⟩
  · have slots (i : Nat) (valid : i < Layout.persistentSlots) :
        (m.restoreWords donor.persistentWords).console.ram.slot i = donor.console.ram.slot i := by
      have slot : (m.console.ram.restore donor.persistentWords 0).slot (0 + i : Nat) = _ :=
        m.console.ram.slot_restore (donor.getElem?_persistentWords valid) (by omega)
      rw [ram_restoreWords, ← slot, Nat.zero_add]
    refine ⟨_, loadState?_of_words donor.member?_saveState m, slots, ?_⟩
    rw [member?_saveState, member?_saveState, persistentWords_congr slots]

/-- Two words replace the first two slots; with a number behind them that is no word, none. -/
theorem loadState?_exact_two :
    let m : Machine Unit := new {} {} ()
    let saved (items : List Json) := Json.object [("persistent", .arr items)]
    m.loadState? (.object []) = some m ∧
      (∃ n, m.loadState? (saved [.nat 7, .nat 9]) = some n ∧ n.console.ram.slot 1 = 9) ∧
      m.loadState? (saved [.nat 7, .nat 9, .int (-1)]) = none := by
  intro m saved
  refine ⟨((loadState?_exact m m _).1 rfl).1, ?_, ?_⟩
  · have words : (saved [.nat 7, .nat 9]).member? "persistent" = some (.wordArray [7, 9]) := rfl
    obtain ⟨ram, loaded, written, _⟩ := (loadState?_exact m m _).2.1 [7, 9] words
    exact ⟨_, loaded, written 1 9 rfl (by decide)⟩
  · refine ((loadState?_exact m m _).2.2.1 (.arr [.nat 7, .nat 9, .int (-1)]) rfl ?_).1
    intro words same
    have read := Json.words?_wordArray words
    rw [← same] at read
    cases read

end Machine

end FantasyConsole
