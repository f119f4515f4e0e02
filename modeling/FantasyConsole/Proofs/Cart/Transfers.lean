import FantasyConsole.Proofs.Cart.Sections
import FantasyConsole.Proofs.Memory.Regions
import Mathlib.Logic.Basic

/-!
# What copying sections changes

A plan says for every section to or from which bank it is copied, if it is copied at all. The
relation `Follows` says of two stores that one is the other after a plan was carried out: each
section of the plan has arrived, and everything else is as it was. Plans that share no section can be
carried out one after the other, which is how a set of sections is copied.
-/

namespace FantasyConsole

/-- The bank and the direction of every section that is copied. -/
abbrev Plan : Type := Section → Option (Fin Cart.bankCount × Direction)

namespace Plan

/-- Some sections are copied, all between memory and one bank. -/
def copying (named : Section → Prop) [DecidablePred named] (b : Fin Cart.bankCount)
    (d : Direction) : Plan :=
  fun s => if named s then some (b, d) else none

/-- One plan and then another. -/
def andThen (p q : Plan) : Plan := fun s => (p s).or (q s)

/-- Whether no section is in both plans. -/
def Apart (p q : Plan) : Prop := ∀ s, p s = none ∨ q s = none

theorem Apart.andThen_cases {p q : Plan} (apart : p.Apart q) (s : Section) :
    (p s = none ∧ p.andThen q s = q s) ∨ (q s = none ∧ p.andThen q s = p s) := by
  rcases apart s with early | late
  · exact .inl ⟨early, by simp [andThen, early]⟩
  · exact .inr ⟨late, by simp [andThen, late]⟩

section copying

variable {named : Section → Prop} [DecidablePred named] {b c : Fin Cart.bankCount}
  {d e : Direction} {s : Section}

theorem copying_of_not (unnamed : ¬ named s) : copying named b d s = none := if_neg unnamed

theorem copying_of (own : named s) : copying named b d s = some (b, d) := if_pos own

theorem copying_eq_some : copying named b d s = some (c, e) ↔ named s ∧ b = c ∧ d = e := by
  by_cases own : named s <;> simp [copying, own]

end copying

end Plan

namespace SyncStores

/-- What a section holds: its bytes, and the overlay palette for the palette section. -/
structure Content (s : Section) where
  data : Vector UInt8 s.size
  overlay : Option (Vector UInt8 paletteBytes)

/-- What a section holds in memory. -/
def inMemory (t : SyncStores) (s : Section) : Content s :=
  ⟨t.ram.region s.region, if s = .palette then some t.overlayPalette else none⟩

/-- What a section holds in a bank of the cart. -/
def inBank (t : SyncStores) (b : Fin Cart.bankCount) (s : Section) : Content s :=
  ⟨(t.cart.bank b).get s, if s = .palette then some (t.cart.bank b).overlayPalette else none⟩

/-- The stores `u` are the stores `t` after the plan was carried out. -/
structure Follows (plan : Plan) (t u : SyncStores) : Prop where
  loaded : ∀ s b, plan s = some (b, .toMemory) → u.inMemory s = t.inBank b s
  unloaded : ∀ s, (∀ b, plan s ≠ some (b, .toMemory)) → u.inMemory s = t.inMemory s
  stored : ∀ s b, plan s = some (b, .toCart) → u.inBank b s = t.inMemory s
  unstored : ∀ s b, plan s ≠ some (b, .toCart) → u.inBank b s = t.inBank b s
  /-- Memory changes only where a section was loaded. -/
  outside : ∀ i, (∀ s b, plan s = some (b, .toMemory) → ¬ s.region.Contains i) →
    u.ram.byte i = t.ram.byte i
  marks : u.ram.dirty = t.ram.dirty
  code : u.cart.code = t.cart.code

namespace Follows

variable {p q : Plan} {t u v : SyncStores}

theorem congr (done : Follows p t u) (same : ∀ s, p s = q s) : Follows q t u := by
  have equal : p = q := funext same
  exact equal ▸ done

theorem refl (t : SyncStores) : Follows (fun _ => none) t t := by
  constructor <;> intros <;> first | rfl | contradiction

theorem inMemory_kept (done : Follows p t u) {s : Section} (unplanned : p s = none) :
    u.inMemory s = t.inMemory s :=
  done.unloaded s fun _ => by simp [unplanned]

theorem inBank_kept (done : Follows p t u) {s : Section} (unplanned : p s = none)
    (b : Fin Cart.bankCount) : u.inBank b s = t.inBank b s :=
  done.unstored s b (by simp [unplanned])

/-- Each section is in one plan at most, and to the other plan it does not matter. -/
theorem trans (first : Follows p t u) (second : Follows q u v) (apart : p.Apart q) :
    Follows (p.andThen q) t v where
  loaded := by
    intro s b planned
    obtain ⟨early, same⟩ | ⟨late, same⟩ := apart.andThen_cases s
    · rw [second.loaded s b (same ▸ planned), first.inBank_kept early]
    · rw [second.inMemory_kept late, first.loaded s b (same ▸ planned)]
  unloaded := by
    intro s unplanned
    obtain ⟨early, same⟩ | ⟨late, same⟩ := apart.andThen_cases s
    · rw [second.unloaded s (same ▸ unplanned), first.inMemory_kept early]
    · rw [second.inMemory_kept late, first.unloaded s (same ▸ unplanned)]
  stored := by
    intro s b planned
    obtain ⟨early, same⟩ | ⟨late, same⟩ := apart.andThen_cases s
    · rw [second.stored s b (same ▸ planned), first.inMemory_kept early]
    · rw [second.inBank_kept late, first.stored s b (same ▸ planned)]
  unstored := by
    intro s b unplanned
    obtain ⟨early, same⟩ | ⟨late, same⟩ := apart.andThen_cases s
    · rw [second.unstored s b (same ▸ unplanned), first.inBank_kept early]
    · rw [second.inBank_kept late, first.unstored s b (same ▸ unplanned)]
  outside := by
    intro i out
    rw [second.outside i, first.outside i]
    · intro s b planned
      exact out s b (by simp [Plan.andThen, planned])
    · intro s b planned
      have early : p s = none := (apart s).resolve_right (by simp [planned])
      exact out s b (by simp [Plan.andThen, early, planned])
  marks := second.marks.trans first.marks
  code := second.code.trans first.code

end Follows

/-! ### One section -/

section transfer

variable (t : SyncStores) (b : Fin Cart.bankCount) {r s : Section}

theorem cart_transfer_toMemory : (t.transfer b .toMemory s).cart = t.cart := by
  unfold transfer
  split <;> rfl

theorem ram_transfer_toMemory :
    (t.transfer b .toMemory s).ram = t.ram.setRegion s.region ((t.cart.bank b).get s) := by
  unfold transfer
  split <;> rfl

theorem overlayPalette_transfer_toMemory : (t.transfer b .toMemory s).overlayPalette =
    if s = .palette then (t.cart.bank b).overlayPalette else t.overlayPalette := by
  unfold transfer
  split <;> rfl

theorem ram_transfer_toCart : (t.transfer b .toCart s).ram = t.ram := by
  unfold transfer
  split <;> rfl

theorem overlayPalette_transfer_toCart :
    (t.transfer b .toCart s).overlayPalette = t.overlayPalette := by
  unfold transfer
  split <;> rfl

theorem bank_transfer_toCart_of_ne {c : Fin Cart.bankCount} (ne : c ≠ b) :
    (t.transfer b .toCart s).cart.bank c = t.cart.bank c := by
  unfold transfer
  split <;> simp [copySection, copyOverlay, Cart.bank_setBank_of_ne, ne]

theorem get_bank_transfer_toCart : ((t.transfer b .toCart s).cart.bank b).get r =
    ((t.cart.bank b).set s (t.ram.region s.region)).get r := by
  unfold transfer
  split
  · cases r <;> simp [copySection, copyOverlay, Bank.get]
  · simp [copySection]

theorem overlayPalette_bank_transfer_toCart :
    ((t.transfer b .toCart s).cart.bank b).overlayPalette =
      if s = .palette then t.overlayPalette else (t.cart.bank b).overlayPalette := by
  unfold transfer
  split
  · simp [copySection, copyOverlay]
  · rw [copySection, Cart.bank_setBank_self]
    exact Bank.overlayPalette_set _ s _

theorem inMemory_transfer_toMemory_self :
    (t.transfer b .toMemory s).inMemory s = t.inBank b s := by
  -- a content is its bytes and, for one section, the overlay palette
  have bytes : (t.transfer b .toMemory s).ram.region s.region = (t.cart.bank b).get s := by
    rw [ram_transfer_toMemory]
    exact Ram.region_setRegion_self _ s.region_stop_le _
  refine congrArg₂ Content.mk bytes ?_
  rw [overlayPalette_transfer_toMemory]
  split <;> rfl

theorem inMemory_transfer_toMemory_of_ne (ne : r ≠ s) :
    (t.transfer b .toMemory s).inMemory r = t.inMemory r := by
  have bytes : (t.transfer b .toMemory s).ram.region r.region = t.ram.region r.region := by
    rw [ram_transfer_toMemory]
    exact Ram.region_setRegion_of_disjoint _ (Section.region_disjoint ne) _
  refine congrArg₂ Content.mk bytes ?_
  rw [overlayPalette_transfer_toMemory]
  -- only the palette section shows the overlay palette, and it is not the one that was copied
  split
  case isTrue palette => rw [if_neg (fun same => ne (palette.trans same.symm))]
  case isFalse => rfl

theorem inBank_transfer_toMemory (c : Fin Cart.bankCount) :
    (t.transfer b .toMemory s).inBank c r = t.inBank c r := by
  rw [inBank, inBank, cart_transfer_toMemory]

theorem inMemory_transfer_toCart : (t.transfer b .toCart s).inMemory r = t.inMemory r := by
  rw [inMemory, inMemory, ram_transfer_toCart, overlayPalette_transfer_toCart]

theorem inBank_transfer_toCart_self : (t.transfer b .toCart s).inBank b s = t.inMemory s := by
  have bytes : ((t.transfer b .toCart s).cart.bank b).get s = t.ram.region s.region := by
    rw [get_bank_transfer_toCart]
    exact Bank.get_set_self _ s _
  refine congrArg₂ Content.mk bytes ?_
  rw [overlayPalette_bank_transfer_toCart]
  split <;> rfl

theorem inBank_transfer_toCart_of_ne {c : Fin Cart.bankCount} (ne : r ≠ s ∨ c ≠ b) :
    (t.transfer b .toCart s).inBank c r = t.inBank c r := by
  by_cases same : c = b
  · subst same
    have other : r ≠ s := ne.resolve_right (fun different => different rfl)
    have bytes : ((t.transfer c .toCart s).cart.bank c).get r = (t.cart.bank c).get r := by
      rw [get_bank_transfer_toCart]
      exact Bank.get_set_of_ne _ other _
    refine congrArg₂ Content.mk bytes ?_
    rw [overlayPalette_bank_transfer_toCart]
    split
    case isTrue palette => rw [if_neg (fun same => other (palette.trans same.symm))]
    case isFalse => rfl
  · rw [inBank, inBank, bank_transfer_toCart_of_ne t b same]

theorem code_transfer (d : Direction) : (t.transfer b d s).cart.code = t.cart.code := by
  unfold transfer
  split <;> cases d <;> rfl

end transfer

theorem follows_transfer_toMemory (t : SyncStores) (b : Fin Cart.bankCount) (s : Section) :
    Follows (Plan.copying (· = s) b .toMemory) t (t.transfer b .toMemory s) where
  loaded := by
    intro r c planned
    obtain ⟨rfl, rfl, -⟩ := Plan.copying_eq_some.mp planned
    exact t.inMemory_transfer_toMemory_self b
  unloaded := by
    intro r unplanned
    apply t.inMemory_transfer_toMemory_of_ne b
    intro same
    exact unplanned b (Plan.copying_of same)
  stored := by
    intro r c planned
    cases (Plan.copying_eq_some.mp planned).2.2
  unstored := fun _ c _ => t.inBank_transfer_toMemory b c
  outside := by
    intro i out
    rw [ram_transfer_toMemory]
    exact Ram.byte_setRegion_of_not_mem _ _ _ (out s b (Plan.copying_of rfl))
  marks := by
    rw [ram_transfer_toMemory]
    rfl
  code := t.code_transfer b _

theorem follows_transfer_toCart (t : SyncStores) (b : Fin Cart.bankCount) (s : Section) :
    Follows (Plan.copying (· = s) b .toCart) t (t.transfer b .toCart s) where
  loaded := by
    intro r c planned
    cases (Plan.copying_eq_some.mp planned).2.2
  unloaded := fun _ _ => t.inMemory_transfer_toCart b
  stored := by
    intro r c planned
    obtain ⟨rfl, rfl, -⟩ := Plan.copying_eq_some.mp planned
    exact t.inBank_transfer_toCart_self b
  unstored := by
    intro r c unplanned
    apply t.inBank_transfer_toCart_of_ne b
    apply not_and_or.mp
    rintro ⟨same, bank⟩
    exact unplanned (Plan.copying_eq_some.mpr ⟨same, bank.symm, rfl⟩)
  outside := fun i _ => congrArg (·.byte i) (t.ram_transfer_toCart b)
  marks := congrArg Ram.dirty (t.ram_transfer_toCart b)
  code := t.code_transfer b _

theorem follows_transfer (t : SyncStores) (b : Fin Cart.bankCount) (d : Direction) (s : Section) :
    Follows (Plan.copying (· = s) b d) t (t.transfer b d s) := by
  cases d with
  | toMemory => exact t.follows_transfer_toMemory b s
  | toCart => exact t.follows_transfer_toCart b s

/-! ### A set of sections -/

/-- Different sections do not get in each other's way, so a list of them can be copied one by one. -/
theorem follows_foldl_transfer (b : Fin Cart.bankCount) (d : Direction) {list : List Section}
    (distinct : list.Nodup) (t : SyncStores) :
    Follows (Plan.copying (· ∈ list) b d) t (list.foldl (·.transfer b d ·) t) := by
  induction list generalizing t with
  | nil => exact (Follows.refl t).congr fun s => (Plan.copying_of_not List.not_mem_nil).symm
  | cons s list ih =>
    obtain ⟨fresh, distinct⟩ := List.nodup_cons.mp distinct
    refine ((follows_transfer t b d s).trans (ih distinct _) ?_).congr ?_
    · intro r
      by_cases first : r = s
      · exact .inr (Plan.copying_of_not (first ▸ fresh))
      · exact .inl (Plan.copying_of_not first)
    · intro r
      by_cases first : r = s <;> simp [Plan.andThen, Plan.copying, first]

theorem follows_transferAll (t : SyncStores) (b : Fin Cart.bankCount) (d : Direction)
    (sections : SectionSet) :
    Follows (Plan.copying (· ∈ sections) b d) t (t.transferAll b d sections) := by
  refine (follows_foldl_transfer b d (Section.nodup_all.filter _) t).congr fun s => ?_
  simp [Plan.copying, Section.mem_all]

end SyncStores

end FantasyConsole
