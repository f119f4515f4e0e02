import FantasyConsole.Draw.Canvas
import FantasyConsole.Proofs.Memory.Footprint

/-!
# What drawing touches

Every primitive writes single pixels, or fills the bytes of the whole screen. Its footprint is
therefore a set of pixels: those of the shape that lie inside the clip. All of them get one colour,
the one that the palette map has for the colour of the call.
-/

namespace FantasyConsole

namespace Canvas

/-! ### Footprints -/

/-- The bits of a pixel that lies inside the clip. -/
def putBits (clip : Clip) (x y : Int) : Set Nat :=
  {k | clip.Contains x y ∧ k ∈ Ram.pixelBits (pixelIndex x y)}

/-- The bits of the pixels of a rectangle that lie inside the clip. The far edges saturate. -/
def areaBits (clip : Clip) (x y width height : Int) : Set Nat :=
  {k | ∃ px py, (x ≤ px ∧ px < saturate32 (x + width)) ∧ (y ≤ py ∧ py < saturate32 (y + height)) ∧
    k ∈ putBits clip px py}

/-- The bits of the clip area. The whole screen is filled byte by byte. -/
def clearBits (clip : Clip) : Set Nat :=
  if clip = .full then Ram.fillBits Layout.screen.offset Layout.screen.size
  else areaBits clip clip.left clip.top (clip.right - clip.left) (clip.bottom - clip.top)

/-- The bits of the four edges of a rectangle. -/
def outlineBits (clip : Clip) (x y width height : Int) : Set Nat :=
  if width ≤ 0 ∨ height ≤ 0 then ∅
  else
    areaBits clip x y width 1 ∪ areaBits clip x (wrap32 (y + height - 1)) width 1 ∪
      areaBits clip x y 1 height ∪ areaBits clip (wrap32 (x + width - 1)) y 1 height

/-- The bits of the pixels of a line that lie inside the clip. -/
def lineBits (clip : Clip) (s : Segment) : Set Nat :=
  {k | ∃ part, s.clip? Float clip = some part ∧ ∃ p ∈ part.points, k ∈ putBits clip p.x p.y}

/-! ### What each primitive writes -/

/-- `d` is `c` after a write to the given bits, with the same clip in force. -/
structure Draws (bits : Set Nat) (c d : Canvas) : Prop where
  ram : Ram.Writes bits c.ram d.ram
  clip : d.clip = c.clip

/-- `d` is `c` after the pixels of a footprint have got a colour. -/
structure Colors (color : UInt8) (bits : Set Nat) (c d : Canvas) : Prop extends
    Draws bits c d where
  inside : ∀ k ∈ bits, d.ram.bit k = byteBit color (k % 4)

namespace Colors

variable {color : UInt8} {a b : Set Nat} {c d e : Canvas}

theorem of_stores (stored : Ram.Stores (fun k => byteBit color (k % 4)) a c.ram d.ram)
    (clip : d.clip = c.clip) : Colors color a c d :=
  ⟨⟨stored.toWrites, clip⟩, stored.inside⟩

theorem stores (drawn : Colors color a c d) :
    Ram.Stores (fun k => byteBit color (k % 4)) a c.ram d.ram :=
  ⟨drawn.ram, drawn.inside⟩

theorem nothing (none : ∀ k, k ∉ a) (c : Canvas) : Colors color a c c :=
  of_stores (.nothing none c.ram) rfl

theorem trans (first : Colors color a c d) (second : Colors color b d e) :
    Colors color (a ∪ b) c e :=
  of_stores (first.stores.trans second.stores) (second.clip.trans first.clip)

theorem congr (drawn : Colors color a c d) (same : a = b) : Colors color b c d := same ▸ drawn

theorem unique (one : Colors color a c d) (other : Colors color a c e) : d = e := by
  obtain ⟨ram, clip⟩ := d
  obtain ⟨ram', clip'⟩ := e
  exact congrArg₂ Canvas.mk (one.stores.unique other.stores fun _ _ => rfl)
    (one.clip.trans other.clip.symm)

end Colors

theorem colors_put (c : Canvas) (x y : Int) (color : UInt8) :
    Colors color (putBits c.clip x y) c (c.put x y color) := by
  unfold put
  split
  case isTrue inside =>
    refine .of_stores ((c.ram.stores_setPixel _ color).congr (Set.ext fun k => ?_)) rfl
    exact ⟨fun own => ⟨inside, own⟩, fun own => own.2⟩
  case isFalse outside => exact Colors.nothing (fun k own => outside own.1) c

private theorem stores_row (r : Ram) (left y : Int) (n : Nat) (color : UInt8) :
    Ram.Stores (fun k => byteBit color (k % 4))
      {k | ∃ i < n, k ∈ Ram.pixelBits (pixelIndex (left + i) y)} r
      (n.fold (fun i _ ram => ram.setPixel (pixelIndex (left + i) y) color) r) :=
  Ram.stores_fold (fun i _ r => r.stores_setPixel (pixelIndex (left + i) y) color) r

theorem colors_fill (c : Canvas) (x y width height : Int) (color : UInt8) :
    Colors color (areaBits c.clip x y width height) c (c.fill x y width height color) := by
  refine .of_stores ?_ rfl
  have stored := Ram.stores_fold
    (n := (min (saturate32 (y + height)) c.clip.bottom - max y c.clip.top).toNat)
    (fun j _ r => stores_row r (max x c.clip.left) (max y c.clip.top + j)
      (min (saturate32 (x + width)) c.clip.right - max x c.clip.left).toNat color) c.ram
  -- the rounds count from the clipped corner, the footprint names the pixels themselves
  refine stored.congr (Set.ext fun k => ⟨?_, ?_⟩)
  · rintro ⟨j, row, i, column, own⟩
    exact ⟨max x c.clip.left + i, max y c.clip.top + j, by omega, by omega,
      by simp only [Clip.Contains]; omega, own⟩
  · rintro ⟨px, py, column, row, ⟨inside, own⟩⟩
    simp only [Clip.Contains] at inside
    refine ⟨(py - max y c.clip.top).toNat, by omega, (px - max x c.clip.left).toNat, by omega, ?_⟩
    have left : max x c.clip.left + ((px - max x c.clip.left).toNat : Int) = px := by omega
    have top : max y c.clip.top + ((py - max y c.clip.top).toNat : Int) = py := by omega
    rwa [left, top]

/-- A rectangle after what was drawn before. -/
theorem Colors.fill {color : UInt8} {bits : Set Nat} {c d : Canvas} (drawn : Colors color bits c d)
    (x y width height : Int) :
    Colors color (bits ∪ areaBits c.clip x y width height) c (d.fill x y width height color) := by
  rw [← drawn.clip]
  exact drawn.trans (d.colors_fill x y width height color)

theorem colors_clear (c : Canvas) (color : UInt8) :
    Colors (c.ram.mapColor color) (clearBits c.clip) c (c.clear color) := by
  unfold clear clearBits
  by_cases whole : c.clip = .full
  · simp only [if_pos whole]
    split
    case h_1 ram filled =>
      have stored := Ram.stores_fill? filled
      refine ⟨⟨stored.toWrites, rfl⟩, fun k own => (stored.inside k own).trans ?_⟩
      -- both halves of the byte hold the colour
      have place : k % 8 % 4 = k % 4 := by omega
      rw [byteBit_twice (c.ram.byteBit_mapColor_of_le color) (Nat.mod_lt _ (by decide)), place]
    -- the whole screen lies in memory, so the fill is never refused
    case h_2 refused =>
      have inside : Ram.InMemory Layout.screen.offset Layout.screen.size := by decide
      exact absurd inside ((c.ram.fill?_eq_none_iff _ _ _).mp refused)
  · simp only [if_neg whole]
    exact c.colors_fill _ _ _ _ _

theorem colors_outline (c : Canvas) (x y width height : Int) (color : UInt8) :
    Colors (c.ram.mapColor color) (outlineBits c.clip x y width height) c
      (c.outline x y width height color) := by
  unfold outline outlineBits
  split
  case isTrue => exact Colors.nothing (fun k own => own.elim) c
  case isFalse =>
    have top := c.colors_fill x y width 1 (c.ram.mapColor color)
    have bottom := top.fill x (wrap32 (y + height - 1)) width 1
    have left := bottom.fill x y 1 height
    exact left.fill (wrap32 (x + width - 1)) y 1 height

/-- Putting points one after the other colours the points inside the clip. -/
theorem colors_points (c : Canvas) (points : List Point) (color : UInt8) :
    Colors color {k | ∃ p ∈ points, k ∈ putBits c.clip p.x p.y} c
      (points.foldl (fun c p => c.put p.x p.y color) c) := by
  -- the clip stays in force from point to point
  induction points generalizing c with
  | nil =>
    refine Colors.nothing ?_ c
    rintro k ⟨p, member, _⟩
    exact absurd member List.not_mem_nil
  | cons first rest ih =>
    have head := c.colors_put first.x first.y color
    have tail := ih (c.put first.x first.y color)
    rw [head.clip] at tail
    refine (head.trans tail).congr (Set.ext fun k => ⟨?_, ?_⟩)
    · rintro (own | ⟨p, member, own⟩)
      · exact ⟨first, List.mem_cons_self, own⟩
      · exact ⟨p, List.mem_cons_of_mem first member, own⟩
    · rintro ⟨p, member, own⟩
      rcases List.mem_cons.mp member with rfl | later
      · exact .inl own
      · exact .inr ⟨p, later, own⟩

theorem colors_line (c : Canvas) (s : Segment) (color : UInt8) :
    Colors (c.ram.mapColor color) (lineBits c.clip s) c (c.line s color) := by
  unfold line
  dsimp only
  split
  case h_1 hidden =>
    refine Colors.nothing ?_ c
    rintro k ⟨part, shown, _⟩
    rw [hidden] at shown
    cases shown
  case h_2 part shown =>
    refine (c.colors_points part.points _).congr (Set.ext fun k => ⟨?_, ?_⟩)
    · intro own
      exact ⟨part, shown, own⟩
    · rintro ⟨other, shown', own⟩
      rw [shown] at shown'
      cases shown'
      exact own

end Canvas

end FantasyConsole
