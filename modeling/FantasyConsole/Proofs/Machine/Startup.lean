import FantasyConsole.Proofs.Cart.SyncFrame
import FantasyConsole.Proofs.Machine.Reach

/-!
# What a program finds when it is started

A cart that is loaded is started in the next frame. Between the two the program before it is ended,
the console is reset and the sections of the cart are copied. This module shows that nothing of what
was there before is left: what the start function finds is a function of the cart and of the comment
mark of the interpreter.

## Main result

`Machine.startup_of_cart`
-/

namespace FantasyConsole

/-- What a program finds in memory and in the console, apart from the screen. -/
@[ext] structure Startup where
  sections : (s : Section) → s ≠ .screen → Vector UInt8 s.size
  paletteMap : Vector UInt8 Layout.paletteMap.size
  border : Vector UInt8 Layout.border.size
  scroll : Vector UInt8 Layout.scroll.size
  cursor : Vector UInt8 Layout.cursor.size
  blitSegment : Vector UInt8 Layout.blitSegment.size
  registers : Vector UInt8 Layout.registers.size
  effectPositions : Vector UInt8 Layout.effectPositions.size
  musicState : Vector UInt8 Layout.musicState.size
  clip : Clip
  hooks : HookSet
  effects : PerChannel Channel
  sequencer : Sequencer
  overlayPalette : Vector UInt8 paletteBytes
  synced : SectionSet
  devices : Devices

/-- What a program finds that is started from a cart by an interpreter with a comment mark. -/
def Startup.ofCart (cart : Cart) (comment : String) : Startup where
  sections s _ := (cart.bank Cart.startBank).get s
  paletteMap := Layout.identityPaletteMap
  border := Vector.replicate _ 0
  scroll := Vector.replicate _ 0
  cursor := Vector.replicate _ 0
  blitSegment := #v[2]
  registers := Vector.replicate _ 0
  effectPositions := Vector.replicate _ 0xFF
  musicState := #v[0xFF, 0, 0, 0]
  clip := .full
  hooks := {}
  effects := Vector.replicate _ {}
  sequencer := .fresh
  overlayPalette := (cart.bank Cart.startBank).overlayPalette
  synced := .empty
  devices := .ofTag (Metadata.tag? cart.code "input" comment)

/-- The position of music that does not play. -/
def MusicPosition.silent : MusicPosition where
  track := -1
  frame := 0
  row := 0
  looped := false
  status := .stopped
  sustain := false

theorem MusicPosition.region_store_silent (r : Ram) :
    (silent.store r).region Layout.musicState = #v[0xFF, 0, 0, 0] :=
  r.region_setRegion_self (by decide) _

theorem MusicPosition.region_store_of_disjoint (p : MusicPosition) (r : Ram) {g : Region}
    (apart : g.Disjoint Layout.musicState) : (p.store r).region g = r.region g :=
  r.region_setRegion_of_disjoint apart _

theorem MusicPosition.load_of_region {r : Ram}
    (bytes : r.region Layout.musicState = #v[0xFF, 0, 0, 0]) : load r = silent := by
  have byte : ∀ i (h : i < 4), r.byte (Layout.musicState.offset + i) =
      (#v[0xFF, 0, 0, 0] : Vector UInt8 4)[i] := by
    intro i h
    rw [← r.getElem_block _ 4 i h]
    exact congrArg (fun v : Vector UInt8 4 => v[i]) bytes
  have first := byte 0 (by decide)
  have second := byte 1 (by decide)
  have third := byte 2 (by decide)
  have fourth := byte 3 (by decide)
  simp only [Nat.add_zero] at first
  simp only [load, first, second, third, fourth]
  decide

namespace Console

/-- What the program of a console finds. -/
def startup (c : Console) : Startup where
  sections s _ := c.ram.region s.region
  paletteMap := c.ram.region Layout.paletteMap
  border := c.ram.region Layout.border
  scroll := c.ram.region Layout.scroll
  cursor := c.ram.region Layout.cursor
  blitSegment := c.ram.region Layout.blitSegment
  registers := c.ram.region Layout.registers
  effectPositions := c.ram.region Layout.effectPositions
  musicState := c.ram.region Layout.musicState
  clip := c.state.clip
  hooks := c.state.hooks
  effects := c.state.sound.effects
  sequencer := c.state.sound.music
  overlayPalette := c.state.overlayPalette
  synced := c.state.synced
  devices := c.state.devices

/-- The screen, as a section of a cart holds it. -/
def screenSection (c : Console) : Vector UInt8 Section.screen.size :=
  c.ram.region Section.screen.region

theorem section_kept {c d : Console} {s : Section}
    (kept : d.stores.inMemory s = c.stores.inMemory s) :
    d.ram.region s.region = c.ram.region s.region :=
  congrArg SyncStores.Content.data kept

/-! ### What a reset leaves -/

theorem ram_reset (c : Console) : c.reset.ram =
    ((MusicPosition.silent.store
      (resetDisplay (c.cart.bank Cart.startBank).palette c.ram)).fillRegion
        Layout.registers 0).fillRegion Layout.effectPositions 0xFF := rfl

theorem effectPositions_reset (c : Console) :
    c.reset.ram.region Layout.effectPositions = Vector.replicate _ 0xFF := by
  rw [ram_reset, Ram.region_fillRegion_self _ (by decide)]

theorem registers_reset (c : Console) :
    c.reset.ram.region Layout.registers = Vector.replicate _ 0 := by
  rw [ram_reset, Ram.region_fillRegion_of_disjoint _ (by decide),
    Ram.region_fillRegion_self _ (by decide)]

theorem musicState_reset (c : Console) :
    c.reset.ram.region Layout.musicState = #v[0xFF, 0, 0, 0] := by
  rw [ram_reset, Ram.region_fillRegion_of_disjoint _ (by decide),
    Ram.region_fillRegion_of_disjoint _ (by decide), MusicPosition.region_store_silent]

/-- The sound registers lie beyond the display registers. -/
theorem display_reset (c : Console) {g : Region} (before : g.stop ≤ Layout.video.stop) :
    c.reset.ram.region g =
      (resetDisplay (c.cart.bank Cart.startBank).palette c.ram).region g := by
  have apart : ∀ h : Region, Layout.video.stop ≤ h.offset → g.Disjoint h :=
    fun h beyond => .inl (Nat.le_trans before beyond)
  rw [ram_reset, Ram.region_fillRegion_of_disjoint _ (apart _ (by decide)),
    Ram.region_fillRegion_of_disjoint _ (apart _ (by decide)),
    MusicPosition.region_store_of_disjoint _ _ (apart _ (by decide))]

theorem blitSegment_reset (c : Console) :
    c.reset.ram.region Layout.blitSegment = #v[2] := by
  rw [c.display_reset (by decide), resetDisplay]
  refine Vector.ext fun i h => ?_
  obtain rfl : i = 0 := Nat.lt_one_iff.mp h
  rw [Ram.region, Ram.getElem_block, Nat.add_zero, Ram.byte_setByte, if_pos (by decide)]
  rfl

theorem cursor_reset (c : Console) :
    c.reset.ram.region Layout.cursor = Vector.replicate _ 0 := by
  rw [c.display_reset (by decide), resetDisplay, Ram.region_setByte_of_not_mem _ (by decide),
    Ram.region_fillRegion_self _ (by decide)]

theorem scroll_reset (c : Console) :
    c.reset.ram.region Layout.scroll = Vector.replicate _ 0 := by
  rw [c.display_reset (by decide), resetDisplay, Ram.region_setByte_of_not_mem _ (by decide),
    Ram.region_fillRegion_of_disjoint _ (by decide), Ram.region_fillRegion_self _ (by decide)]

theorem border_reset (c : Console) :
    c.reset.ram.region Layout.border = Vector.replicate _ 0 := by
  rw [c.display_reset (by decide), resetDisplay, Ram.region_setByte_of_not_mem _ (by decide),
    Ram.region_fillRegion_of_disjoint _ (by decide),
    Ram.region_fillRegion_of_disjoint _ (by decide), Ram.region_fillRegion_self _ (by decide)]

theorem paletteMap_reset (c : Console) :
    c.reset.ram.region Layout.paletteMap = Layout.identityPaletteMap := by
  rw [c.display_reset (by decide), resetDisplay, Ram.region_setByte_of_not_mem _ (by decide),
    Ram.region_fillRegion_of_disjoint _ (by decide),
    Ram.region_fillRegion_of_disjoint _ (by decide),
    Ram.region_fillRegion_of_disjoint _ (by decide), Ram.region_setRegion_self _ (by decide)]

end Console

/-! ### What the startup sections put into memory -/

theorem Cart.mem_startupSections {cart : Cart} {s : Section} :
    s ∈ cart.startupSections ↔
      s ≠ .screen ∨ (cart.bank startBank).screen.all (· == 0) = false := by
  unfold startupSections
  split
  case isTrue blank =>
    rw [SectionSet.mem_without, blank]
    have screen : s ∈ SectionSet.singleton .screen ↔ s = .screen := by
      cases s <;> decide
    simp [SectionSet.mem_full, screen]
  case isFalse drawn =>
    rw [Bool.not_eq_true] at drawn
    simp [SectionSet.mem_full, drawn]

theorem Cart.startupSections_ne_empty (cart : Cart) : cart.startupSections ≠ .empty := by
  intro empty
  have tiles : Section.tiles ∈ cart.startupSections :=
    mem_startupSections.mpr (.inl Section.noConfusion)
  exact SectionSet.not_mem_empty _ (empty ▸ tiles)

namespace SyncStores

theorem region_kept {plan : Plan} {t u : SyncStores} (done : Follows plan t u) {g : Region}
    (apart : ∀ s : Section, g.Disjoint s.region) : u.ram.region g = t.ram.region g := by
  refine Ram.region_ext fun i inside => done.outside i ?_
  intro s _ _
  exact (apart s).not_contains inside

end SyncStores

namespace Machine

variable {σ : Type}

theorem follows_loadStartupSections (c : Console) :
    c.stores.Follows (.copying (· ∈ c.cart.startupSections) Cart.startBank .toMemory)
      (loadStartupSections c).stores := by
  have done := Console.follows_serve { c with state.synced := .empty }
    ⟨c.cart.startupSections, Cart.startBank, .toMemory⟩
  refine SyncStores.Follows.congr done fun s => ?_
  -- nothing has been copied before, so all startup sections are copied now
  have named : s ∈ (Console.serve { c with state.synced := .empty }
      ⟨c.cart.startupSections, Cart.startBank, .toMemory⟩).1 ↔ s ∈ c.cart.startupSections := by
    rw [Console.mem_serve, SyncRequest.Names, SectionSet.mem_requested,
      or_iff_right c.cart.startupSections_ne_empty]
    exact and_iff_left (SectionSet.not_mem_empty s)
  simp only [Plan.copying, named]

section start

variable {m : Machine σ} (idle : m.interpreter? = none) (interp : Interpreter σ)
include idle

/-- Where no program runs, none has to be ended before another is started. -/
theorem preparedFor_of_idle :
    m.preparedFor interp =
      (m.withoutProgram.mapConsole loadStartupSections).mapConsole fun c =>
        { selectDevices m.console.cart.code interp.comment c with start := c.clock.counter } := by
  unfold preparedFor
  rw [closeProgram_of_absent idle]
  rfl

theorem follows_preparedFor :
    m.console.stores.Follows
      (.copying (· ∈ m.console.cart.startupSections) Cart.startBank .toMemory)
      (m.preparedFor interp).console.stores := by
  rw [preparedFor_of_idle idle]
  exact follows_loadStartupSections m.withoutProgram.console

theorem section_preparedFor {s : Section} (loaded : s ∈ m.console.cart.startupSections) :
    (m.preparedFor interp).console.ram.region s.region =
      (m.console.cart.bank Cart.startBank).get s :=
  congrArg SyncStores.Content.data
    ((follows_preparedFor idle interp).loaded s _ (Plan.copying_of loaded))

theorem screen_preparedFor :
    (m.preparedFor interp).console.screenSection =
      if (m.console.cart.bank Cart.startBank).screen.all (· == 0) then m.console.screenSection
      else (m.console.cart.bank Cart.startBank).screen := by
  by_cases blank : (m.console.cart.bank Cart.startBank).screen.all (· == 0) = true
  · have spared : Section.screen ∉ m.console.cart.startupSections := by
      simp [Cart.mem_startupSections, blank]
    rw [if_pos blank]
    exact Console.section_kept
      ((follows_preparedFor idle interp).inMemory_kept (Plan.copying_of_not spared))
  · rw [if_neg blank]
    have loaded : Section.screen ∈ m.console.cart.startupSections :=
      Cart.mem_startupSections.mpr (.inr ((Bool.not_eq_true _).mp blank))
    exact section_preparedFor idle interp loaded

theorem overlayPalette_preparedFor :
    (m.preparedFor interp).console.state.overlayPalette =
      (m.console.cart.bank Cart.startBank).overlayPalette := by
  have loaded : Section.palette ∈ m.console.cart.startupSections :=
    Cart.mem_startupSections.mpr (.inl Section.noConfusion)
  exact Option.some.inj (congrArg SyncStores.Content.overlay
    ((follows_preparedFor idle interp).loaded .palette _ (Plan.copying_of loaded)))

/-- A region that no section maps onto is as it was. -/
theorem region_preparedFor {g : Region} (apart : ∀ s : Section, g.Disjoint s.region) :
    (m.preparedFor interp).console.ram.region g = m.console.ram.region g :=
  SyncStores.region_kept (follows_preparedFor idle interp) apart

theorem state_preparedFor :
    (m.preparedFor interp).console.state =
      { m.console.state with
        interpreter := none
        hooks := {}
        devices := .ofTag (Metadata.tag? m.console.cart.code "input" interp.comment)
        synced := .empty
        overlayPalette := (m.console.cart.bank Cart.startBank).overlayPalette } := by
  rw [← overlayPalette_preparedFor idle interp, preparedFor_of_idle idle]
  rfl

end start

/-! ### The start of a cart that was loaded -/

section load

variable (m : Machine σ) (cart : Cart)

theorem interpreter?_loadCart : (m.loadCart cart).interpreter? = none := by
  have unbound : (m.loadCart cart).console.state.interpreter = none :=
    congrArg Lifecycle.interpreter (m.inserts_loadCart cart).lifecycle
  rw [interpreter?, unbound]
  rfl

theorem console_log (c : Console) (category : Log.Category) (level : Log.Level) (text : String) :
    (c.log category level text).ram = c.ram ∧ (c.log category level text).cart = c.cart ∧
      (c.log category level text).state = c.state :=
  ⟨rfl, rfl, rfl⟩

/-- A cart is loaded into a console that is reset, whatever the console was before. -/
theorem console_loadCart :
    ∃ c : Console, (m.loadCart cart).console.ram = c.reset.ram ∧
      (m.loadCart cart).console.cart = cart ∧ (m.loadCart cart).console.state = c.reset.state := by
  unfold loadCart
  obtain ⟨ram, held, state⟩ := console_log (Console.reset _) .script .info _
  exact ⟨_, ram, held.trans (Console.cart_reset _), state⟩

theorem startup_loadCart (interp : Interpreter σ) :
    ((m.loadCart cart).preparedFor interp).console.startup = .ofCart cart interp.comment := by
  have idle := m.interpreter?_loadCart cart
  obtain ⟨c, memory, held, state⟩ := m.console_loadCart cart
  generalize m.loadCart cart = n at idle memory held state
  -- what no section holds is as the reset left it
  have register : ∀ {g : Region}, (∀ s ∈ Section.all, g.Disjoint s.region) →
      (n.preparedFor interp).console.ram.region g = c.reset.ram.region g := by
    intro g apart
    rw [region_preparedFor idle interp fun s => apart s s.mem_all, memory]
  have prepared := state_preparedFor idle interp
  rw [state, held, c.state_reset] at prepared
  -- the sections come from the cart, the registers from the reset, the rest from both
  apply Startup.ext
  case sections =>
    funext s ne
    have loaded : s ∈ n.console.cart.startupSections := Cart.mem_startupSections.mpr (.inl ne)
    exact (section_preparedFor idle interp loaded).trans (by rw [held]; rfl)
  case paletteMap => exact (register (by decide)).trans c.paletteMap_reset
  case border => exact (register (by decide)).trans c.border_reset
  case scroll => exact (register (by decide)).trans c.scroll_reset
  case cursor => exact (register (by decide)).trans c.cursor_reset
  case blitSegment => exact (register (by decide)).trans c.blitSegment_reset
  case registers => exact (register (by decide)).trans c.registers_reset
  case effectPositions => exact (register (by decide)).trans c.effectPositions_reset
  case musicState => exact (register (by decide)).trans c.musicState_reset
  case clip => exact congrArg ConsoleState.clip prepared
  case hooks => exact congrArg ConsoleState.hooks prepared
  case effects => exact congrArg (·.sound.effects) prepared
  case sequencer => exact congrArg (·.sound.music) prepared
  case overlayPalette => exact congrArg ConsoleState.overlayPalette prepared
  case synced => exact congrArg ConsoleState.synced prepared
  case devices => exact congrArg ConsoleState.devices prepared

end load

/-- What is left of a frame when the start of a program has ended. -/
def afterStart : Option StartError × Machine σ → Machine σ
  | (some e, n) => n.reject e
  | (none, n) => n.runProgram

theorem tick_of_initializing {m : Machine σ} (phase : m.console.state.phase = .initializing)
    (accepted : m.console.state.rejected = false) : m.tick = afterStart m.startProgram := by
  unfold tick
  simp only [phase, accepted, Bool.false_eq_true, if_false]
  -- whatever the start says, `afterStart` goes on in the same way
  split
  case h_1 started => rw [started, afterStart]
  case h_2 started => rw [started, afterStart]

theorem select?_of_registered {interpreters : Array (Interpreter σ)}
    (registered : interpreters.isEmpty = false) (code : String) :
    ∃ index interp, Interpreter.select? interpreters code = some index ∧
      interpreters[index]? = some interp := by
  cases served : Interpreter.select? interpreters code with
  | none => simp [Interpreter.select?_eq_none served] at registered
  | some index =>
    exact ⟨index, _, rfl, Array.getElem?_eq_getElem (Interpreter.select?_lt served)⟩

/-- A cart that is loaded and has a program is started in the next frame by the interpreter that is
selected for it. The start function then finds what `Startup.ofCart` says, and the screen of the cart
or, if that is blank, the screen as it was; what it finds is the same whatever the machine was before
the cart was loaded. -/
theorem startup_of_cart (m : Machine σ) (cart : Cart) (text : cart.code.isEmpty = false)
    (registered : m.interpreters.isEmpty = false) :
    ∃ index interp, Interpreter.select? m.interpreters cart.code = some index ∧
      m.interpreters[index]? = some interp ∧
      (m.loadCart cart).tick =
        afterStart (finishStart index
          (((m.loadCart cart).preparedFor interp).callInit interp cart.code)) ∧
      ((m.loadCart cart).preparedFor interp).console.startup = .ofCart cart interp.comment ∧
      MusicPosition.load ((m.loadCart cart).preparedFor interp).console.ram = .silent ∧
      ((m.loadCart cart).preparedFor interp).console.screenSection =
        (if (cart.bank Cart.startBank).screen.all (· == 0) then
          (m.loadCart cart).console.screenSection
        else (cart.bank Cart.startBank).screen) ∧
      ∀ n : Machine σ, ((n.loadCart cart).preparedFor interp).console.startup =
        ((m.loadCart cart).preparedFor interp).console.startup := by
  obtain ⟨index, interp, served, present⟩ := select?_of_registered registered cart.code
  have inserted := m.inserts_loadCart cart
  obtain ⟨-, -, held, -⟩ := m.console_loadCart cart
  refine ⟨index, interp, served, present, ?tick, m.startup_loadCart cart interp, ?music, ?screen,
    ?alike⟩
  case tick =>
    -- neither interpreters nor program text were changed by the reset
    have code : ¬ (m.loadCart cart).console.cart.code.isEmpty = true := by simp [held, text]
    have chosen : Interpreter.select? (m.loadCart cart).interpreters
        (m.loadCart cart).console.cart.code = some index := by
      rw [inserted.interpreters, held, served]
    have found : (m.loadCart cart).interpreters[index]? = some interp := by
      rw [inserted.interpreters, present]
    rw [tick_of_initializing (congrArg Lifecycle.phase inserted.lifecycle)
      (congrArg Lifecycle.rejected inserted.lifecycle), startProgram_of_served code chosen found,
      held]
  case music =>
    exact MusicPosition.load_of_region
      (congrArg Startup.musicState (m.startup_loadCart cart interp))
  case screen =>
    have screen := screen_preparedFor (m.interpreter?_loadCart cart) interp
    rwa [held] at screen
  case alike =>
    intro n
    rw [startup_loadCart, startup_loadCart]

/-- An interpreter of programs that begin by writing over the palette. -/
def painter : Interpreter Unit where
  names := []
  comment := "--"
  init _ s := .call "memset" [.int 0x3FC0, .int 0xFF, .int 48] fun _ => .done (.ok {}, s)
  close := .done
  tick := .done

/-- A second cart finds nothing of what the program of the first one wrote. -/
theorem startup_of_cart_painter :
    let painted := (((new {} {} ()).register painter).loadCart { Cart.blank with code := "x" }).tick
    let cart : Cart := { Cart.blank with code := "y" }
    ∃ (index : Nat) (interp : Interpreter Unit), painted.interpreters[index]? = some interp ∧
      ((painted.loadCart cart).preparedFor interp).console.startup = .ofCart cart interp.comment := by
  intro painted cart
  have registered : painted.interpreters.isEmpty = false := by
    rw [interpreters_tick, (inserts_loadCart _ _).interpreters]
    rfl
  obtain ⟨index, interp, -, present, -, found, -⟩ :=
    startup_of_cart painted cart (by decide) registered
  exact ⟨index, interp, present, found⟩

end Machine

end FantasyConsole
