import FantasyConsole.Proofs.Draw.Footprint

/-!
# The shapes that are drawn

A rectangle, its outline, a single pixel and the clip area are sets of pixels over the integers. The
drawing calls compute edges in 32 bits, where sums saturate or wrap, and cut them at the clip. Here
they are compared with the sets.

## Main result

`Canvas.shapes_exact`: each call gives the mapped colour to exactly the pixels of its set that lie
inside the clip. Every other pixel, and every byte that holds none of them, is what it was.
-/

namespace FantasyConsole

/-! ### Sets of pixels -/

/-- Pixels of the plane, on the screen or beyond it. -/
abbrev Shape := Int → Int → Prop

namespace Shape

/-- The pixels of a rectangle; none if it has no width or no height. -/
def rect (x y width height : Int) : Shape := fun px py =>
  (x ≤ px ∧ px < x + width) ∧ (y ≤ py ∧ py < y + height)

/-- The pixels of a rectangle that do not lie in the one that is smaller by a pixel on each side. -/
def outline (x y width height : Int) : Shape := fun px py =>
  rect x y width height px py ∧ ¬ rect (x + 1) (y + 1) (width - 2) (height - 2) px py

def point (x y : Int) : Shape := fun px py => px = x ∧ py = y

/-- The part of a shape inside a clip. -/
def within (shape : Shape) (clip : Clip) : Shape := fun px py =>
  shape px py ∧ clip.Contains px py

/-- The bits of the pixels of a shape. -/
def bits (shape : Shape) : Set Nat :=
  {k | ∃ x y, shape x y ∧ k ∈ Ram.pixelBits (Canvas.pixelIndex x y)}

theorem bits_congr {shape other : Shape} (same : ∀ x y, shape x y ↔ other x y) :
    shape.bits = other.bits :=
  Set.ext fun _ => exists_congr fun x => exists_congr fun y => and_congr_left fun _ => same x y

theorem bits_or (shape other : Shape) :
    shape.bits ∪ other.bits = bits fun x y => shape x y ∨ other x y := by
  refine Set.ext fun k => ⟨?_, ?_⟩
  · rintro (⟨x, y, own, place⟩ | ⟨x, y, own, place⟩)
    · exact ⟨x, y, .inl own, place⟩
    · exact ⟨x, y, .inr own, place⟩
  · rintro ⟨x, y, own | own, place⟩
    · exact .inl ⟨x, y, own, place⟩
    · exact .inr ⟨x, y, own, place⟩

end Shape

theorem Clip.OnScreen.contains {clip : Clip} (onScreen : clip.OnScreen) {x y : Int}
    (inside : clip.Contains x y) : Clip.full.Contains x y := by
  simp only [OnScreen, Contains, full] at *
  omega

namespace Canvas

/-! ### Pixels of the screen and their bits -/

/-- Different pixels of the screen have different indices. -/
theorem pixelIndex_inj {x y x' y' : Int} (inside : Clip.full.Contains x y)
    (inside' : Clip.full.Contains x' y') (same : pixelIndex x y = pixelIndex x' y') :
    x = x' ∧ y = y' := by
  simp only [Clip.Contains, Clip.full, pixelIndex, Screen.width, Screen.height] at *
  omega

theorem pixelIndex_lt {x y : Int} (inside : Clip.full.Contains x y) :
    pixelIndex x y < Screen.pixels := by
  simp only [Clip.Contains, Clip.full, pixelIndex, Screen.pixels, Screen.width, Screen.height] at *
  omega

/-- Every pixel of the screen has a column and a row. -/
theorem exists_pixelIndex {p : Nat} (onScreen : p < Screen.pixels) :
    ∃ x y, Clip.full.Contains x y ∧ pixelIndex x y = p := by
  refine ⟨(p % 240 : Nat), (p / 240 : Nat), ?_, ?_⟩
  · simp only [Clip.Contains, Clip.full, Screen.pixels, Screen.width, Screen.height] at *
    omega
  · simp only [pixelIndex, Screen.width, Int.toNat_natCast]
    omega

/-- `d` is `c` with the pixels of a shape in one colour. -/
structure Paints (shape : Shape) (color : UInt8) (c d : Canvas) : Prop where
  clip : d.clip = c.clip
  onScreen : ∀ x y, shape x y → Clip.full.Contains x y
  painted : ∀ x y, shape x y → d.getPixel x y = color
  kept : ∀ x y, ¬ shape x y → d.getPixel x y = c.getPixel x y
  /-- A byte that holds no pixel of the shape is not written. -/
  bytes : ∀ i, (∀ x y, shape x y → pixelIndex x y / 2 ≠ i) → d.ram.byte i = c.ram.byte i

theorem Colors.paints {shape : Shape} {color : UInt8} {c d : Canvas}
    (drawn : Colors color shape.bits c d) (four : ∀ j, 4 ≤ j → byteBit color j = false)
    (onScreen : ∀ x y, shape x y → Clip.full.Contains x y) : Paints shape color c d where
  clip := drawn.clip
  onScreen := onScreen
  painted := by
    intro x y own
    have inside := onScreen x y own
    refine (if_pos inside).trans (byteBit_ext fun j => ?_)
    rw [Ram.byteBit_pixel]
    -- the four bits of the pixel are those stored; beyond them both sides are clear
    by_cases low : j < 4
    · have offset : (4 * pixelIndex x y + j) % 4 = j := by omega
      have stored := drawn.inside (4 * pixelIndex x y + j)
        ⟨x, y, own, pixelIndex_lt inside, by omega, by omega⟩
      rw [offset] at stored
      rw [stored, decide_eq_true low, Bool.true_and]
    · rw [decide_eq_false low, Bool.false_and, four j (Nat.le_of_not_lt low)]
  kept := by
    intro x y other
    unfold getPixel
    split
    case isTrue inside =>
      refine Ram.pixel_congr fun k place => drawn.ram.outside k ?_
      rintro ⟨x', y', own, -, lower, upper⟩
      -- two pixels that share a bit have the same index
      obtain ⟨rfl, rfl⟩ := pixelIndex_inj (onScreen x' y' own) inside (by omega)
      exact other own
    case isFalse => rfl
  bytes := by
    intro i apart
    refine Ram.byte_congr fun k place => drawn.ram.outside k ?_
    rintro ⟨x, y, own, -, lower, upper⟩
    exact apart x y own (by omega)

/-! ### Footprints as shapes -/

theorem putBits_eq (clip : Clip) (x y : Int) :
    putBits clip x y = ((Shape.point x y).within clip).bits := by
  refine Set.ext fun k => ⟨?_, ?_⟩
  · rintro ⟨inside, own⟩
    exact ⟨x, y, ⟨⟨rfl, rfl⟩, inside⟩, own⟩
  · rintro ⟨px, py, ⟨⟨rfl, rfl⟩, inside⟩, own⟩
    exact ⟨inside, own⟩

/-- A far edge that saturates lies beyond the screen, or before it, as it did. -/
theorem areaBits_eq {clip : Clip} (onScreen : clip.OnScreen) (x y width height : Int) :
    areaBits clip x y width height = ((Shape.rect x y width height).within clip).bits := by
  have edge {n p : Int} (lower : 0 ≤ p) (upper : p < 240) : p < saturate32 n ↔ p < n := by
    simp only [saturate32, clampInt, minInt32, maxInt32]
    omega
  refine Set.ext fun k => exists_congr fun px => exists_congr fun py => ?_
  constructor
  · rintro ⟨column, row, inside, own⟩
    obtain ⟨left, top, right, bottom⟩ := onScreen.contains inside
    simp only [Clip.full, Screen.width, Screen.height] at left top right bottom
    rw [edge left (by omega)] at column
    rw [edge top (by omega)] at row
    exact ⟨⟨⟨column, row⟩, inside⟩, own⟩
  · rintro ⟨⟨⟨column, row⟩, inside⟩, own⟩
    obtain ⟨left, top, right, bottom⟩ := onScreen.contains inside
    simp only [Clip.full, Screen.width, Screen.height] at left top right bottom
    rw [← edge left (by omega)] at column
    rw [← edge top (by omega)] at row
    exact ⟨column, row, inside, own⟩

/-- A far edge that leaves the 32-bit range wraps to a negative row or column. -/
theorem wrap32_cases {n : Int} (lower : -2147483648 ≤ n) (upper : n ≤ 4294967293) :
    wrap32 n = n ∨ 2147483647 < n ∧ wrap32 n < -2 := by
  simp only [wrap32, Int.bmod_def]
  split <;> omega

theorem outlineBits_eq {clip : Clip} (onScreen : clip.OnScreen) (x y width height : Int32) :
    outlineBits clip x.toInt y.toInt width.toInt height.toInt =
      ((Shape.outline x.toInt y.toInt width.toInt height.toInt).within clip).bits := by
  have range (n : Int32) : -2147483648 ≤ n.toInt ∧ n.toInt < 2147483648 := ⟨n.le_toInt, n.toInt_lt⟩
  have xRange := range x
  have yRange := range y
  have widthRange := range width
  have heightRange := range height
  unfold outlineBits
  split
  case isTrue empty =>
    refine (Set.eq_empty_of_forall_notMem ?_).symm
    rintro k ⟨px, py, ⟨⟨⟨column, row⟩, -⟩, -⟩, -⟩
    omega
  case isFalse nonempty =>
    have right := @wrap32_cases (x.toInt + width.toInt - 1) (by omega) (by omega)
    have bottom := @wrap32_cases (y.toInt + height.toInt - 1) (by omega) (by omega)
    simp only [areaBits_eq onScreen, Shape.bits_or]
    refine Shape.bits_congr fun px py => ?_
    simp only [Shape.within, ← or_and_right]
    -- inside the clip an edge that has wrapped is not seen, nor is the one that it stands for
    refine and_congr_left fun inside => ?_
    have pixel := onScreen.contains inside
    simp only [Clip.Contains, Clip.full, Screen.width, Screen.height] at pixel
    simp only [Shape.rect, Shape.outline]
    omega

theorem areaBits_clip {clip : Clip} (onScreen : clip.OnScreen) :
    areaBits clip clip.left clip.top (clip.right - clip.left) (clip.bottom - clip.top) =
      Shape.bits clip.Contains := by
  rw [areaBits_eq onScreen]
  refine Shape.bits_congr fun x y => ?_
  simp only [Shape.within, Shape.rect, Clip.Contains]
  omega

theorem clearBits_eq {clip : Clip} (onScreen : clip.OnScreen) :
    clearBits clip = Shape.bits clip.Contains := by
  unfold clearBits
  split
  case isTrue whole =>
    subst whole
    refine Set.ext fun k => ⟨?_, ?_⟩
    · rintro ⟨-, lower, upper⟩
      simp only [Layout.screen] at lower upper
      have below : k / 4 < Screen.pixels := by
        simp only [Screen.pixels, Screen.width, Screen.height]
        omega
      obtain ⟨x, y, inside, index⟩ := exists_pixelIndex below
      exact ⟨x, y, inside, pixelIndex_lt inside, by omega, by omega⟩
    · rintro ⟨x, y, inside, below, lower, upper⟩
      simp only [Screen.pixels, Screen.width, Screen.height] at below
      exact ⟨by decide, by simp only [Layout.screen]; omega, by simp only [Layout.screen]; omega⟩
  case isFalse => exact areaBits_clip onScreen

/-! ### The drawing calls -/

/-- Both ways of filling the clip area do the same, and the extent of the area fits into 32 bits. -/
theorem clear_eq_fill (r : Ram) (x y width height : Int32) (color : UInt8) :
    let c : Canvas := ⟨r, .ofRect x.toInt y.toInt width.toInt height.toInt⟩
    c.clear color = c.fill c.clip.left c.clip.top (wrap32 (c.clip.right - c.clip.left))
      (wrap32 (c.clip.bottom - c.clip.top)) (r.mapColor color) := by
  intro c
  have onScreen : c.clip.OnScreen := Clip.onScreen_ofRect _ _ _ _
  have extent (edge size : Int32) {limit : Int} (small : limit ≤ 240) (positive : 0 ≤ limit) :
      wrap32 (min (saturate32 (edge.toInt + size.toInt)) limit - max edge.toInt 0) =
        min (saturate32 (edge.toInt + size.toInt)) limit - max edge.toInt 0 := by
    have edgeMin := edge.le_toInt
    have edgeMax := edge.toInt_lt
    have sizeMin := size.le_toInt
    apply wrap32_eq_self <;> simp only [saturate32, clampInt, minInt32, maxInt32] <;> omega
  have columns : wrap32 (c.clip.right - c.clip.left) = c.clip.right - c.clip.left :=
    extent x width (by decide) (by decide)
  have rows : wrap32 (c.clip.bottom - c.clip.top) = c.clip.bottom - c.clip.top :=
    extent y height (by decide) (by decide)
  have filled := c.colors_fill c.clip.left c.clip.top (c.clip.right - c.clip.left)
    (c.clip.bottom - c.clip.top) (r.mapColor color)
  have area := (areaBits_clip onScreen).trans (clearBits_eq onScreen).symm
  rw [columns, rows]
  exact (c.colors_clear color).unique (filled.congr area)

/-- Each call gives the mapped colour to exactly the pixels of its shape inside the clip, and these
are pixels of the screen; every other pixel and every other byte of memory is what it was. Nothing
is drawn for the outline of an empty rectangle. The clip area is filled byte by byte if it is the
whole screen, and that does what filling its pixels does. -/
theorem shapes_exact (r : Ram) (clipX clipY clipWidth clipHeight x y width height : Int32)
    (color : UInt8) :
    let c : Canvas := ⟨r, .ofRect clipX.toInt clipY.toInt clipWidth.toInt clipHeight.toInt⟩
    let mapped := r.mapColor color
    Paints ((Shape.rect x.toInt y.toInt width.toInt height.toInt).within c.clip) mapped c
      (c.rect x.toInt y.toInt width.toInt height.toInt color) ∧
    Paints ((Shape.outline x.toInt y.toInt width.toInt height.toInt).within c.clip) mapped c
      (c.outline x.toInt y.toInt width.toInt height.toInt color) ∧
    (width.toInt ≤ 0 ∨ height.toInt ≤ 0 →
      c.outline x.toInt y.toInt width.toInt height.toInt color = c) ∧
    Paints ((Shape.point x.toInt y.toInt).within c.clip) mapped c
      (c.setPixel x.toInt y.toInt color) ∧
    Paints c.clip.Contains mapped c (c.clear color) ∧
    (c.clip = .full → r.fill? Layout.screen.offset (mapped ||| (mapped <<< 4)) Layout.screen.size =
      some (c.clear color).ram) ∧
    c.clear color = c.fill c.clip.left c.clip.top (wrap32 (c.clip.right - c.clip.left))
      (wrap32 (c.clip.bottom - c.clip.top)) mapped := by
  intro c mapped
  have onScreen : c.clip.OnScreen := Clip.onScreen_ofRect _ _ _ _
  have four := r.byteBit_mapColor_of_le color
  have clipped (shape : Shape) (px py : Int) (own : shape.within c.clip px py) :
      Clip.full.Contains px py := onScreen.contains own.2
  refine ⟨?rect, ?outline, ?empty, ?point, ?clear, ?fast, ?slow⟩
  case rect =>
    have drawn := c.colors_fill x.toInt y.toInt width.toInt height.toInt mapped
    exact (drawn.congr (areaBits_eq onScreen _ _ _ _)).paints four (clipped _)
  case outline =>
    have drawn := c.colors_outline x.toInt y.toInt width.toInt height.toInt color
    exact (drawn.congr (outlineBits_eq onScreen x y width height)).paints four (clipped _)
  case empty =>
    intro empty
    rw [outline, if_pos empty]
  case point =>
    have drawn := c.colors_put x.toInt y.toInt mapped
    exact (drawn.congr (putBits_eq c.clip _ _)).paints four (clipped _)
  case clear =>
    have drawn := (c.colors_clear color).congr (clearBits_eq onScreen)
    exact drawn.paints four fun _ _ => onScreen.contains
  case fast =>
    intro whole
    cases filled : r.fill? Layout.screen.offset (mapped ||| (mapped <<< 4)) Layout.screen.size with
    | none =>
      have inside : Ram.InMemory Layout.screen.offset Layout.screen.size := by decide
      exact absurd inside ((r.fill?_eq_none_iff _ _ _).mp filled)
    | some ram =>
      simp only [clear, if_pos whole]
      rw [filled]
  case slow => exact clear_eq_fill r clipX clipY clipWidth clipHeight color

/-- The whole screen is cleared to colour 7, and a rectangle without width has no outline. -/
theorem shapes_exact_whole_screen :
    let c : Canvas := ⟨.blank, .full⟩
    let mapped := Ram.blank.mapColor 7
    c.outline 3 4 0 5 7 = c ∧
    Ram.blank.fill? 0 (mapped ||| (mapped <<< 4)) 16320 = some (c.clear 7).ram ∧
    (c.clear 7).getPixel 239 135 = mapped := by
  have whole : Clip.ofRect (0 : Int32).toInt (0 : Int32).toInt (240 : Int32).toInt
      (136 : Int32).toInt = .full := by decide
  obtain ⟨-, -, empty, -, clear, fast, -⟩ := shapes_exact .blank 0 0 240 136 3 4 0 5 7
  rw [whole] at empty clear fast
  exact ⟨empty (.inl (by decide)), fast rfl, clear.painted 239 135 (by decide)⟩

end Canvas

end FantasyConsole
