import FantasyConsole.Guest.Checked
import FantasyConsole.Proofs.Guest.Moves
import FantasyConsole.Proofs.Machine.WellFormed
import FantasyConsole.Proofs.Sound.SoundReach

/-!
# Drawing and music in 32 bits

A program's coordinates, rows, tempos and speeds are brought into the range of 32 bits when a call
reads them. What is computed from them need not stay there. Here it is said for each call that draws
or starts music which arguments make a result leave the range, and what the result is.

## Main result

`Api.call32_exact`

## Proof strategy

Every result of the checked call is either shown to be in range, so that wrapping does nothing and
the plain call computes the same, or it is the one that is not. For the sides of the clip this takes
a fact about the clip: its edges come from a rectangle of 32-bit integers.
-/

namespace FantasyConsole

theorem fit32_of_isInt32 {n : Int} (fits : IsInt32 n) : fit32 n = .ok n := if_pos fits

theorem fit32_of_not {n : Int} (leaves : ¬ IsInt32 n) : fit32 n = .error ⟨n⟩ := if_neg leaves

/-- A checked computation that stops at a result, if there is one. -/
def Overflow.orElse {α : Type} (excess : Option Int) (value : α) : Except Overflow α :=
  match excess with
  | some n => .error ⟨n⟩
  | none => .ok value

/-! ### Drawing -/

/-- The first side of a clip that is not a 32-bit integer. -/
def Clip.sideExcess? (clip : Clip) : Option Int :=
  if ¬ IsInt32 (clip.right - clip.left) then some (clip.right - clip.left)
  else if ¬ IsInt32 (clip.bottom - clip.top) then some (clip.bottom - clip.top)
  else none

theorem Clip.not_isInt32_of_sideExcess? {clip : Clip} {n : Int}
    (excess : clip.sideExcess? = some n) : ¬ IsInt32 n := by
  unfold sideExcess? at excess
  grind

theorem Clip.Measured.sideExcess? {clip : Clip} (measured : clip.Measured) :
    clip.sideExcess? = none := by
  rw [Clip.sideExcess?, if_neg (not_not_intro measured.width),
    if_neg (not_not_intro measured.height)]

namespace Canvas

theorem clear32_eq (c : Canvas) (color : UInt8) :
    c.clear32 color =
      Overflow.orElse (if c.clip = .full then none else c.clip.sideExcess?) (c.clear color) := by
  unfold clear32 clear
  by_cases whole : c.clip = .full
  · rw [if_pos whole, if_pos whole, if_pos whole]
    rfl
  rw [if_neg whole, if_neg whole, if_neg whole, Clip.sideExcess?]
  by_cases wide : IsInt32 (c.clip.right - c.clip.left)
  · rw [fit32_of_isInt32 wide, if_neg (not_not_intro wide)]
    by_cases high : IsInt32 (c.clip.bottom - c.clip.top)
    · rw [fit32_of_isInt32 high, if_neg (not_not_intro high)]
      rfl
    · rw [fit32_of_not high, if_pos high]
      rfl
  · rw [fit32_of_not wide, if_pos wide]
    rfl

/-- The first sum of an outline that is not a 32-bit integer. -/
def outlineExcess? (x y width height : Int) : Option Int :=
  if width ≤ 0 ∨ height ≤ 0 then none
  else if maxInt32 < y + height then some (y + height)
  else if maxInt32 < x + width then some (x + width)
  else none

theorem not_isInt32_of_outlineExcess? {x y width height n : Int}
    (excess : outlineExcess? x y width height = some n) : ¬ IsInt32 n := by
  unfold outlineExcess? at excess
  rintro ⟨-, upper⟩
  grind

/-- A side that is not empty ends before the largest number or leaves the range at once. -/
theorem lastPlace32_eq {start length : Int} (starts : IsInt32 start) (long : 0 < length) :
    lastPlace32 start length =
      if maxInt32 < start + length then .error ⟨start + length⟩
      else .ok (wrap32 (start + length - 1)) := by
  unfold lastPlace32
  by_cases leaves : maxInt32 < start + length
  · rw [if_pos leaves, fit32_of_not fun fits => absurd fits.2 (by omega)]
    rfl
  · have stop : IsInt32 (start + length) := by
      simp only [IsInt32, minInt32, maxInt32] at *
      omega
    have last : IsInt32 (start + length - 1) := by
      simp only [IsInt32, minInt32, maxInt32] at *
      omega
    rw [if_neg leaves, fit32_of_isInt32 stop, wrap32_eq_self last.1 last.2]
    exact fit32_of_isInt32 last

theorem outline32_eq (c : Canvas) {x y width height : Int} (column : IsInt32 x) (row : IsInt32 y)
    (color : UInt8) : c.outline32 x y width height color =
      Overflow.orElse (outlineExcess? x y width height) (c.outline x y width height color) := by
  unfold outline32 outline outlineExcess?
  by_cases empty : width ≤ 0 ∨ height ≤ 0
  · rw [if_pos empty, if_pos empty, if_pos empty]
    rfl
  obtain ⟨wide, high⟩ := not_or.mp empty
  rw [if_neg empty, if_neg empty, if_neg empty, lastPlace32_eq row (by omega),
    lastPlace32_eq column (by omega)]
  by_cases low : maxInt32 < y + height
  · rw [if_pos low, if_pos low]
    rfl
  by_cases far : maxInt32 < x + width
  · rw [if_neg low, if_neg low, if_pos far, if_pos far]
    rfl
  · rw [if_neg low, if_neg low, if_neg far, if_neg far]
    rfl

end Canvas

/-! ### Music -/

/-- Whether the tempo and the speed of a track are offsets of a byte each. -/
def Track.SmallOffsets (t : Track) : Prop :=
  (-128 ≤ t.tempo ∧ t.tempo ≤ 127) ∧ (-128 ≤ t.speed ∧ t.speed ≤ 127)

theorem Track.smallOffsets_load (r : Ram) (i : Fin trackCount) : (load r i).SmallOffsets := by
  simp only [SmallOffsets, load, decode]
  exact ⟨signedByte_mem _, signedByte_mem _⟩

namespace Sequencer

/-- The first product for the tick of a row that is not a 32-bit integer. -/
def tickExcess? (tempo speed row : Int) : Option Int :=
  if tempo = 0 then none
  else if ¬ IsInt32 (row * speed) then some (row * speed)
  else if ¬ IsInt32 (row * speed * rowsPerMinute) then some (row * speed * rowsPerMinute)
  else none

theorem not_isInt32_of_tickExcess? {tempo speed row n : Int}
    (excess : tickExcess? tempo speed row = some n) : ¬ IsInt32 n := by
  unfold tickExcess? at excess
  grind

section

variable (s : Sequencer) {t : Track} (small : t.SmallOffsets)
include small

theorem tempo32_eq : s.tempo32 t = .ok (s.tempoOf t) := by
  have own := small.1
  unfold tempo32 tempoOf
  cases s.tempo with
  | some tempo => rfl
  | none =>
    refine fit32_of_isInt32 ?_
    simp only [IsInt32, minInt32, maxInt32, defaultTempo]
    omega

theorem speed32_eq : s.speed32 t = .ok (s.speedOf t) := by
  have own := small.2
  unfold speed32 speedOf
  cases s.speed with
  | some speed => rfl
  | none =>
    refine fit32_of_isInt32 ?_
    simp only [IsInt32, minInt32, maxInt32, defaultSpeed]
    omega

theorem tickOfRow32_eq (row : Int) :
    s.tickOfRow32 t row =
      Overflow.orElse (tickExcess? (s.tempoOf t) (s.speedOf t) row) (s.tickOfRow t row) := by
  rw [tickOfRow32, s.tempo32_eq small, s.speed32_eq small, tickOfRow, tickExcess?]
  change (if s.tempoOf t = 0 then .ok 0 else fit32 (row * s.speedOf t) >>= _) = _
  by_cases still : s.tempoOf t = 0
  · rw [if_pos still, if_pos still, if_pos still]
    rfl
  rw [if_neg still, if_neg still, if_neg still]
  by_cases first : IsInt32 (row * s.speedOf t)
  · rw [fit32_of_isInt32 first, if_neg (not_not_intro first)]
    change fit32 (row * s.speedOf t * rowsPerMinute) >>= _ = _
    by_cases second : IsInt32 (row * s.speedOf t * rowsPerMinute)
    · rw [fit32_of_isInt32 second, if_neg (not_not_intro second),
        wrap32_eq_self first.1 first.2, wrap32_eq_self second.1 second.2]
      rfl
    · rw [fit32_of_not second, if_pos second]
      rfl
  · rw [fit32_of_not first, if_pos first]
    rfl

end

/-- The first product for a track that is started with a tempo and a speed, or with its own where
they are negative. -/
def startExcess? (t : Track) (row tempo speed : Int) : Option Int :=
  if row < 0 then none
  else
    tickExcess? (if 0 ≤ tempo then tempo else t.tempo + defaultTempo)
      (if 0 ≤ speed then speed else t.speed + defaultSpeed) row

theorem not_isInt32_of_startExcess? {t : Track} {row tempo speed n : Int}
    (excess : startExcess? t row tempo speed = some n) : ¬ IsInt32 n := by
  unfold startExcess? at excess
  split at excess
  case isTrue => cases excess
  case isFalse => exact not_isInt32_of_tickExcess? excess

/-- A number that a caller asks for stands in place of the other unless it is negative. -/
theorem asked_eq (asked own : Int) :
    (match asked.toNat? with | some n => (n : Int) | none => own) =
      if 0 ≤ asked then asked else own := by
  cases asked with
  | ofNat n => exact (if_pos (Int.natCast_nonneg n)).symm
  | negSucc n => exact (if_neg (Int.negSucc_not_nonneg n).mp).symm

section

variable (s : Sequencer) (r : Ram) (i : Fin trackCount) (frame : Int) (looped sustain : Bool)

/-- The row only decides at which tick the track starts. -/
theorem start_eq (row : Int) (tempo speed : Option Nat) :
    s.start r i frame row looped sustain tempo speed =
      let begun := s.start r i frame (-1) looped sustain tempo speed
      ({ begun.1 with ticks := if 0 ≤ row then begun.1.tickOfRow (Track.load begun.2 i) row else 0 },
        begun.2) := rfl

theorem start32_eq (row tempo speed : Int) :
    s.start32 r i frame row looped sustain tempo.toNat? speed.toNat? =
      Overflow.orElse (startExcess? (Track.load r i) row tempo speed)
        (s.start r i frame row looped sustain tempo.toNat? speed.toNat?) := by
  rw [start32, s.start_eq r i frame looped sustain row]
  generalize began : s.start r i frame (-1) looped sustain tempo.toNat? speed.toNat? = x
  obtain ⟨begun, m⟩ := x
  have sequencer : (s.start r i frame (-1) looped sustain tempo.toNat? speed.toNat?).1 = begun :=
    congrArg Prod.fst began
  have memory : (s.start r i frame (-1) looped sustain tempo.toNat? speed.toNat?).2 = m :=
    congrArg Prod.snd began
  have atRest : begun.ticks = 0 := by
    rw [← sequencer]
    rfl
  have track : Track.load m i = Track.load r i := by
    rw [← memory]
    exact Track.load_congr ((MusicPosition.sameOutside_store _ r).sameOn (by decide)) i
  have beat : begun.tempoOf (Track.load r i) =
      if 0 ≤ tempo then tempo else (Track.load r i).tempo + defaultTempo := by
    rw [← sequencer]
    exact asked_eq tempo _
  have pace : begun.speedOf (Track.load r i) =
      if 0 ≤ speed then speed else (Track.load r i).speed + defaultSpeed := by
    rw [← sequencer]
    exact asked_eq speed _
  dsimp only
  rw [startExcess?, ← beat, ← pace, track]
  by_cases named : 0 ≤ row
  · rw [if_pos named, if_pos named, if_neg (by omega),
      begun.tickOfRow32_eq (Track.smallOffsets_load r i)]
    cases tickExcess? (begun.tempoOf (Track.load r i)) (begun.speedOf (Track.load r i)) row <;> rfl
  · rw [if_neg named, if_neg named, if_pos (by omega), ← atRest]
    rfl

end

end Sequencer

/-! ### The clip -/

namespace Console

private theorem clip_showBank (c : Console) (ram : Ram) (bank : VideoBank) :
    { c with ram := ram, state.videoBank := bank }.state.clip = c.state.clip := rfl

theorem clip_selectVideoBank (c : Console) (id : Int) :
    (c.selectVideoBank id).2.state.clip = c.state.clip := by
  unfold selectVideoBank
  cases VideoBank.ofNumber? id with
  | none => rfl
  | some next =>
    dsimp only
    split
    · rfl
    · exact c.clip_showBank _ _

theorem clip_playEffect (c : Console) (index note octave duration channel : Int)
    (left right : UInt8) (speed : Int) :
    (c.playEffect index note octave duration channel left right speed).2.state.clip =
      c.state.clip := by
  unfold playEffect
  split <;> rfl

theorem clip_playMusic (c : Console) (track frame row : Int) (looped sustain : Bool)
    (tempo speed : Int) :
    (c.playMusic track frame row looped sustain tempo speed).state.clip = c.state.clip := by
  unfold playMusic
  split <;> rfl

/-- The sides of the clip stay 32-bit integers, since a program sets it with such numbers. -/
theorem Move.measured {c d : Console} (move : Move c d) (measured : c.state.clip.Measured) :
    d.state.clip.Measured := by
  cases move with
  | notify | memory | sync | overlay => exact measured
  | videoBank id => exact c.clip_selectVideoBank id ▸ measured
  | clip column row wide high => exact Clip.measured_ofRect column row wide high
  | wholeScreen | reset => exact Clip.measured_full
  | effect => exact c.clip_playEffect _ _ _ _ _ _ _ _ ▸ measured
  | music => exact c.clip_playMusic _ _ _ _ _ _ _ ▸ measured

end Console

/-! ### Calls -/

theorem Console.draw32_eq (c : Console) {f : Canvas → Except Overflow Canvas} {g : Canvas → Canvas}
    {excess : Option Int} (same : f c.canvas = Overflow.orElse excess (g c.canvas)) :
    c.draw32 f = Overflow.orElse excess (c.draw g) := by
  rw [draw32, same]
  cases excess <;> rfl

theorem Console.playMusic32_eq (c : Console) (track frame row : Int) (looped sustain : Bool)
    (tempo speed : Int) :
    c.playMusic32 track frame row looped sustain tempo speed =
      Overflow.orElse
        ((Track.index? track).bind fun i =>
          Sequencer.startExcess? (Track.load c.ram i) row tempo speed)
        (c.playMusic track frame row looped sustain tempo speed) := by
  unfold playMusic32
  cases found : Track.index? track with
  | none => rfl
  | some i =>
    have plain := c.state.sound.playMusic?_of_index c.ram found frame row looped sustain tempo speed
    dsimp only
    rw [Sequencer.start32_eq, playMusic, plain, Option.bind_some]
    cases Sequencer.startExcess? (Track.load c.ram i) row tempo speed <;> rfl

namespace Api

/-- The calls that draw, apart from lines, and the one that starts music. -/
def drawingAndMusic : List String := ["clip", "cls", "pix", "rect", "rectb", "music"]

/-- The first result of a call that is not a 32-bit integer, if there is one. -/
def excess? (name : String) (args : List Value) (c : Console) : Option Int :=
  let coordinate := int32Arg args
  match name with
  | "cls" => if c.state.clip = .full then none else c.state.clip.sideExcess?
  | "rectb" =>
    Canvas.outlineExcess? (coordinate 0 0) (coordinate 1 0) (coordinate 2 0) (coordinate 3 0)
  | "music" =>
    (Track.index? (coordinate 0 (-1))).bind fun i =>
      Sequencer.startExcess? (Track.load c.ram i) (coordinate 2 (-1)) (coordinate 5 (-1))
        (coordinate 6 (-1))
  | _ => none

theorem not_isInt32_of_excess? {name : String} {args : List Value} {c : Console} {n : Int}
    (excess : excess? name args c = some n) : ¬ IsInt32 n := by
  unfold excess? at excess
  split at excess
  case h_1 =>
    split at excess
    case isTrue => cases excess
    case isFalse => exact Clip.not_isInt32_of_sideExcess? excess
  case h_2 => exact Canvas.not_isInt32_of_outlineExcess? excess
  case h_3 =>
    obtain ⟨i, -, found⟩ := Option.bind_eq_some_iff.mp excess
    exact Sequencer.not_isInt32_of_startExcess? found
  case h_4 => cases excess

section

variable {name : String} {f : Function} {args : List Value} {c : Console}

theorem call32_of_refused (found : lookup? name = some f)
    (refused : args.length < f.minArgs ∨ f.maxArgs < args.length) :
    call32 name args c = .ok (call name args c) := by
  rw [call32, call, found]
  dsimp only
  rw [if_pos refused, if_pos refused]
  rfl

theorem call32_of_taken (found : lookup? name = some f)
    (taken : ¬ (args.length < f.minArgs ∨ f.maxArgs < args.length)) {excess : Option Int}
    (same : f.run32 args c = Overflow.orElse excess (f.run args c)) :
    call32 name args c = Overflow.orElse excess (call name args c) := by
  rw [call32, call, found]
  dsimp only
  rw [if_neg taken, if_neg taken, same]
  cases excess <;> rfl

end

/-- A function that only acts stops where its action stops. -/
private theorem act_eq {x : Except Overflow Console} {excess : Option Int} {c : Console}
    (same : x = Overflow.orElse excess c) :
    (do return (Value.nil, ← x)) = Overflow.orElse excess (Value.nil, c) := by
  rw [same]
  cases excess <;> rfl

theorem run32_clear (args : List Value) (c : Console) :
    Function.run32 ⟨"cls", 0, 1, clear⟩ args c =
      Overflow.orElse (excess? "cls" args c) (clear args c) :=
  act_eq (c.draw32_eq (c.canvas.clear32_eq (colorArg args 0 0)))

theorem run32_outline (args : List Value) (c : Console) :
    Function.run32 ⟨"rectb", 5, 5, outline⟩ args c =
      Overflow.orElse (excess? "rectb" args c) (outline args c) :=
  act_eq (c.draw32_eq (c.canvas.outline32_eq (isInt32_int32Arg args 0 0)
    (isInt32_int32Arg args 1 0) (colorArg args 4 0)))

theorem run32_playMusic (args : List Value) (c : Console) :
    Function.run32 ⟨"music", 0, 7, playMusic⟩ args c =
      Overflow.orElse (excess? "music" args c) (playMusic args c) :=
  act_eq (c.playMusic32_eq _ _ _ _ _ _ _)

theorem run32_eq {name : String} (known : name ∈ drawingAndMusic) :
    ∃ f, lookup? name = some f ∧ ∀ args c,
      f.run32 args c = Overflow.orElse (excess? name args c) (f.run args c) := by
  simp only [drawingAndMusic, List.mem_cons, List.not_mem_nil, or_false] at known
  rcases known with rfl | rfl | rfl | rfl | rfl | rfl
  · exact ⟨⟨"clip", 0, 4, clip⟩, rfl, fun _ _ => rfl⟩
  · exact ⟨⟨"cls", 0, 1, clear⟩, rfl, run32_clear⟩
  · exact ⟨⟨"pix", 2, 3, pixel⟩, rfl, fun _ _ => rfl⟩
  · exact ⟨⟨"rect", 5, 5, rect⟩, rfl, fun _ _ => rfl⟩
  · exact ⟨⟨"rectb", 5, 5, outline⟩, rfl, run32_outline⟩
  · exact ⟨⟨"music", 0, 7, playMusic⟩, rfl, run32_playMusic⟩

/-- Whether a call has as many arguments as its function takes. -/
def Taken (name : String) (args : List Value) : Prop :=
  ∃ f, lookup? name = some f ∧ f.minArgs ≤ args.length ∧ args.length ≤ f.maxArgs

/-- A call that clears the screen, reads or writes a pixel, fills or outlines a rectangle, sets the
clip or starts music does with checked arithmetic what it does without, unless it computes a result
that is not a 32-bit integer; then it stops at the first one. Setting the clip, pixels and filled
rectangles never do. Clearing the screen does not where the sides of the clip are 32-bit integers,
which every call leaves true. An outline does exactly if a far edge of it does not fit, and music if
the products for its first row do not. -/
theorem call32_exact {name : String} (known : name ∈ drawingAndMusic) (args : List Value)
    (c : Console) :
    (Taken name args →
      call32 name args c = Overflow.orElse (excess? name args c) (call name args c)) ∧
    (¬ Taken name args → call32 name args c = .ok (call name args c)) ∧
    (∀ n, excess? name args c = some n → ¬ IsInt32 n) ∧
    (c.state.clip.Measured →
      (name ≠ "rectb" → name ≠ "music" → excess? name args c = none) ∧
      (call name args c).2.state.clip.Measured) := by
  obtain ⟨f, found, runs⟩ := run32_eq known
  refine ⟨?taken, ?refused, fun n => not_isInt32_of_excess?, fun measured => ⟨?fits, ?kept⟩⟩
  case taken =>
    rintro ⟨g, same, lower, upper⟩
    cases found.symm.trans same
    exact call32_of_taken found (by omega) (runs args c)
  case refused =>
    intro wrong
    refine call32_of_refused found (Decidable.byContradiction fun taken => ?_)
    exact wrong ⟨f, found, by omega, by omega⟩
  case fits =>
    intro outline music
    simp only [drawingAndMusic, List.mem_cons, List.not_mem_nil, or_false] at known
    rcases known with rfl | rfl | rfl | rfl | rfl | rfl
    case inr.inl =>
      change (if c.state.clip = .full then none else c.state.clip.sideExcess?) = none
      rw [measured.sideExcess?, ite_self]
    case inr.inr.inr.inr.inl => exact absurd rfl outline
    case inr.inr.inr.inr.inr => exact absurd rfl music
    all_goals rfl
  case kept =>
    exact (moves_call name args c).preserves (fun _ _ move kept => move.measured kept) measured

/-- A rectangle that reaches as far as numbers go is filled without a result out of range. -/
theorem call32_exact_rect :
    let c := Console.new {} {}
    let args : List Value := [.int (-2147483648), .int 5, .int 2147483647, .int 2147483647, .int 3]
    call32 "rect" args c = .ok (call "rect" args c) := by
  intro c args
  have known : "rect" ∈ drawingAndMusic := by decide
  obtain ⟨taken, -, -, measured⟩ := call32_exact known args c
  rw [taken ⟨⟨"rect", 5, 5, rect⟩, rfl, by decide, by decide⟩,
    (measured Clip.measured_full).1 (by decide) (by decide)]
  rfl

/-- An outline that is too wide and a row that is too late leave the range. -/
theorem calls_that_overflow :
    let c := Console.new {} {}
    call32 "rectb" [.int 100, .int 0, .int 2147483647, .int 2, .int 1] c = .error ⟨2147483747⟩ ∧
      call32 "music" [.int 0, .int 0, .int 2147483647, .bool true, .bool false, .int 150, .int 6] c =
        .error ⟨12884901882⟩ := by
  intro c
  constructor
  · exact call32_of_taken (f := ⟨"rectb", 5, 5, outline⟩) rfl (by decide) (run32_outline _ c)
  · exact call32_of_taken (f := ⟨"music", 0, 7, playMusic⟩) rfl (by decide) (run32_playMusic _ c)

end Api

/-- The clip of every machine that a session reaches, and of every snapshot, has sides that are
32-bit integers. -/
theorem Machine.measured_session {σ : Type} (config : Config) (clock : Clock) (guest : σ)
    {acts : List (HostAct σ)} {m : Machine σ}
    (performed : (new config clock guest).perform acts = .ok m) :
    m.console.state.clip.Measured ∧ ∀ s, m.paused = some s → s.state.clip.Measured := by
  have bounded : m.Bounded := perform_preserves (fun _ _ _ _ kept stepped => kept.act stepped)
    (bounded_new config clock guest) performed
  exact ⟨bounded.now.clip, fun s kept => (bounded.kept s kept).clip⟩

end FantasyConsole
