import FantasyConsole.Proofs.Memory.Regions

/-!
# Memories that agree

Two memories can agree in some regions, or outside some regions. A write keeps the bytes outside the
region that it goes to, and the same write in two memories keeps them in agreement.
-/

namespace FantasyConsole

/-- Whether a region lies in another one. -/
def Region.Within (g h : Region) : Prop := h.offset ≤ g.offset ∧ g.stop ≤ h.stop

instance (g h : Region) : Decidable (g.Within h) := inferInstanceAs (Decidable (_ ∧ _))

namespace Ram

/-- Whether two memories agree outside some regions. -/
def SameOutside (gs : List Region) (r s : Ram) : Prop :=
  ∀ i, (∀ g ∈ gs, ¬ g.Contains i) → s.byte i = r.byte i

/-- Whether two memories agree in some regions. -/
def SameOn (gs : List Region) (r s : Ram) : Prop :=
  ∀ g ∈ gs, ∀ i, g.Contains i → s.byte i = r.byte i

namespace SameOutside

theorem refl (gs : List Region) (r : Ram) : SameOutside gs r r := fun _ _ => rfl

theorem trans {gs : List Region} {r s t : Ram} (first : SameOutside gs r s)
    (second : SameOutside gs s t) : SameOutside gs r t :=
  fun i outside => (second i outside).trans (first i outside)

theorem mono {gs hs : List Region} {r s : Ram} (same : SameOutside gs r s)
    (more : ∀ g ∈ gs, g ∈ hs) : SameOutside hs r s :=
  fun i outside => same i fun g member => outside g (more g member)

/-- Memories that agree outside some regions agree outside regions that these lie in. -/
theorem widen {gs hs : List Region} {r s : Ram} (same : SameOutside gs r s)
    (within : ∀ g ∈ gs, ∃ h ∈ hs, g.Within h) : SameOutside hs r s := by
  intro i outside
  apply same i
  intro g member inside
  obtain ⟨h, wide, lower, upper⟩ := within g member
  exact outside h wide ⟨Nat.le_trans lower inside.1, Nat.lt_of_lt_of_le inside.2 upper⟩

theorem sameOn {gs hs : List Region} {r s : Ram} (same : SameOutside gs r s)
    (apart : ∀ h ∈ hs, ∀ g ∈ gs, h.Disjoint g) : SameOn hs r s := by
  intro h member i inside
  apply same i
  intro g written
  exact (apart h member g written).not_contains inside

end SameOutside

namespace SameOn

theorem refl (gs : List Region) (r : Ram) : SameOn gs r r := fun _ _ _ _ => rfl

theorem trans {gs : List Region} {r s t : Ram} (first : SameOn gs r s) (second : SameOn gs s t) :
    SameOn gs r t :=
  fun g member i inside => (second g member i inside).trans (first g member i inside)

theorem mono {gs hs : List Region} {r s : Ram} (same : SameOn gs r s)
    (fewer : ∀ h ∈ hs, h ∈ gs) : SameOn hs r s :=
  fun h member => same h (fewer h member)

/-- Memories that agree in some regions agree in regions that lie in these. -/
theorem narrow {gs hs : List Region} {r s : Ram} (same : SameOn gs r s)
    (within : ∀ h ∈ hs, ∃ g ∈ gs, h.Within g) : SameOn hs r s := by
  intro h member i inside
  obtain ⟨g, wide, lower, upper⟩ := within h member
  exact same g wide i ⟨Nat.le_trans lower inside.1, Nat.lt_of_lt_of_le inside.2 upper⟩

variable {gs : List Region} {r s : Ram} (same : SameOn gs r s) {g : Region} (member : g ∈ gs)
include same member

theorem region : s.region g = r.region g := region_ext (same g member)

theorem word (four : 4 ≤ g.size) : s.word g.offset = r.word g.offset := by
  have byte (k : Nat) (below : k < 4) : s.byte (g.offset + k) = r.byte (g.offset + k) :=
    same g member _ ⟨Nat.le_add_right _ _, by simp only [Region.stop]; omega⟩
  have first : s.byte g.offset = r.byte g.offset := byte 0 (by decide)
  rw [Ram.word, Ram.word, first, byte 1 (by decide), byte 2 (by decide), byte 3 (by decide)]

end SameOn

theorem SameOutside.word {gs : List Region} {r s : Ram} (same : SameOutside gs r s) {g : Region}
    (apart : ∀ h ∈ gs, g.Disjoint h) (four : 4 ≤ g.size) : s.word g.offset = r.word g.offset := by
  have kept : SameOn [g] r s := same.sameOn (List.forall_mem_singleton.mpr apart)
  exact kept.word List.mem_cons_self four

theorem sameOutside_setByte {gs : List Region} (r : Ram) {i : Nat} {g : Region} (member : g ∈ gs)
    (inside : g.Contains i) (v : UInt8) : SameOutside gs r (r.setByte i v) := by
  intro j outside
  rw [byte_setByte, if_neg]
  rintro ⟨rfl, -⟩
  exact outside g member inside

theorem sameOutside_setBlock {gs : List Region} (r : Ram) {start n : Nat} {g : Region}
    (member : g ∈ gs) (lower : g.offset ≤ start) (upper : start + n ≤ g.stop)
    (data : Vector UInt8 n) : SameOutside gs r (r.setBlock start data) := by
  intro j outside
  by_cases fits : j < Layout.memorySize
  · rw [byte_setBlock _ _ _ _ fits, dif_neg]
    rintro ⟨after, before⟩
    exact outside g member ⟨Nat.le_trans lower after, Nat.lt_of_lt_of_le before upper⟩
  · rw [byte_of_le _ (Nat.le_of_not_lt fits), byte_of_le _ (Nat.le_of_not_lt fits)]

theorem sameOutside_setPacked {gs : List Region} (r : Ram) {w : Width} {i : Nat} {g : Region}
    (member : g ∈ gs) (inside : g.Contains (w.byteIndex i)) (v : UInt8) :
    SameOutside gs r (r.setPacked w i v) :=
  r.sameOutside_setByte member inside _

theorem sameOutside_fillRegion {gs : List Region} (r : Ram) {g : Region} (member : g ∈ gs)
    (v : UInt8) : SameOutside gs r (r.fillRegion g v) :=
  fun _ outside => r.byte_fillRegion_of_not_mem g v (outside g member)

theorem sameOutside_setRegion {gs : List Region} (r : Ram) {g : Region} (member : g ∈ gs)
    (data : Vector UInt8 g.size) : SameOutside gs r (r.setRegion g data) :=
  fun _ outside => r.byte_setRegion_of_not_mem g data (outside g member)

/-- Whether two memories agree outside some regions, and in the pixels that are marked. -/
structure AgreeOutside (gs : List Region) (r m : Ram) : Prop where
  bytes : SameOutside gs r m
  dirty : m.dirty = r.dirty

namespace AgreeOutside

theorem refl (gs : List Region) (r : Ram) : AgreeOutside gs r r := ⟨SameOutside.refl gs r, rfl⟩

theorem symm {gs : List Region} {r m : Ram} (agree : AgreeOutside gs r m) : AgreeOutside gs m r :=
  ⟨fun i outside => (agree.bytes i outside).symm, agree.dirty.symm⟩

theorem trans {gs : List Region} {r m o : Ram} (first : AgreeOutside gs r m)
    (second : AgreeOutside gs m o) : AgreeOutside gs r o :=
  ⟨first.bytes.trans second.bytes, second.dirty.trans first.dirty⟩

/-- Memories that agree everywhere are the same. -/
theorem eq {r m : Ram} (agree : AgreeOutside [] r m) : m = r :=
  ext_byte (fun i => agree.bytes i fun _ member => absurd member List.not_mem_nil) agree.dirty

/-- Where a region is filled, memories come to agree in it. -/
theorem fillRegion_cons {gs : List Region} {g : Region} {r m : Ram}
    (agree : AgreeOutside (g :: gs) r m) (v : UInt8) :
    AgreeOutside gs (r.fillRegion g v) (m.fillRegion g v) where
  bytes j outside := by
    by_cases fits : j < Layout.memorySize
    · rw [Ram.fillRegion, Ram.fillRegion, byte_fillBlock _ _ _ _ _ fits,
        byte_fillBlock _ _ _ _ _ fits]
      split
      · rfl
      · rename_i apart
        exact agree.bytes j (List.forall_mem_cons.mpr ⟨apart, outside⟩)
    · rw [byte_of_le _ (Nat.le_of_not_lt fits), byte_of_le _ (Nat.le_of_not_lt fits)]
  dirty := agree.dirty

variable {gs : List Region} {r m : Ram} (agree : AgreeOutside gs r m)
include agree

theorem setByte (i : Nat) (v : UInt8) : AgreeOutside gs (r.setByte i v) (m.setByte i v) where
  bytes j outside := by rw [byte_setByte, byte_setByte, agree.bytes j outside]
  dirty := agree.dirty

theorem setBlock {n : Nat} (start : Nat) (data : Vector UInt8 n) :
    AgreeOutside gs (r.setBlock start data) (m.setBlock start data) where
  bytes j outside := by
    by_cases fits : j < Layout.memorySize
    · rw [byte_setBlock _ _ _ _ fits, byte_setBlock _ _ _ _ fits, agree.bytes j outside]
    · rw [byte_of_le _ (Nat.le_of_not_lt fits), byte_of_le _ (Nat.le_of_not_lt fits)]
  dirty := agree.dirty

/-- What is written into one of the regions may differ. -/
theorem setRegion {g : Region} {a b : Vector UInt8 g.size} (same : g ∉ gs → b = a) :
    AgreeOutside gs (r.setRegion g a) (m.setRegion g b) where
  bytes j outside := by
    by_cases inside : g.Contains j
    · rw [same fun member => outside g member inside]
      exact (agree.setBlock g.offset a).bytes j outside
    · rw [byte_setRegion_of_not_mem _ _ _ inside, byte_setRegion_of_not_mem _ _ _ inside,
        agree.bytes j outside]
  dirty := agree.dirty

theorem fillRegion (g : Region) (v : UInt8) :
    AgreeOutside gs (r.fillRegion g v) (m.fillRegion g v) where
  bytes j outside := by
    by_cases fits : j < Layout.memorySize
    · rw [Ram.fillRegion, Ram.fillRegion, byte_fillBlock _ _ _ _ _ fits,
        byte_fillBlock _ _ _ _ _ fits, agree.bytes j outside]
    · rw [byte_of_le _ (Nat.le_of_not_lt fits), byte_of_le _ (Nat.le_of_not_lt fits)]
  dirty := agree.dirty

/-- The rest of a packed byte may differ, but then the whole byte lies in one of the regions. -/
theorem setPacked (w : Width) (i : Nat) (v : UInt8) :
    AgreeOutside gs (r.setPacked w i v) (m.setPacked w i v) where
  bytes j outside := by
    simp only [Ram.setPacked, byte_setByte]
    by_cases own : w.byteIndex i = j
    · rw [own, agree.bytes j outside]
    · rw [if_neg (fun h => own h.1), if_neg (fun h => own h.1), agree.bytes j outside]
  dirty := agree.dirty

end AgreeOutside

end Ram

end FantasyConsole
