import FantasyConsole.Proofs.Input.Visibility
import FantasyConsole.Proofs.Machine.Startup
import FantasyConsole.Proofs.Sound.Arrival

/-!
# Frames

A host makes a frame by supplying its input, beginning it, running the program and ending it. While
no music plays this cannot fault, and what it comes down to is said here: for a frame of a running
program, whose frame function is called when hidden devices have been cleared, and for a frame that
starts a program, whose start function is called before.
-/

namespace FantasyConsole

open Ram

namespace Machine

variable {σ : Type}

/-- What the host does before a frame: it lets its clocks go on and supplies the input. -/
structure HostFrame where
  clock : Clock
  input : DeviceInput

/-- The operations of a frame. -/
def HostFrame.ops (f : HostFrame) : List (Op σ) :=
  [.setClock f.clock, .setInput f.input, .beginFrame, .tick, .endFrame]

/-- The machine at the time of a frame, with the input in memory. -/
def receive (m : Machine σ) (f : HostFrame) : Machine σ :=
  (m.mapConsole fun c => { c with clock := f.clock }).setInput f.input

theorem run_frame (m : Machine σ) (f : HostFrame) :
    m.run f.ops = (m.receive f).beginFrame.map fun b => b.tick.endFrame := by
  have clock : (Op.setClock f.clock).step m =
      .ok (m.mapConsole fun c => { c with clock := f.clock }) := rfl
  have input : (Op.setInput f.input).step (m.mapConsole fun c => { c with clock := f.clock }) =
      .ok (m.receive f) := rfl
  have begins : Op.beginFrame.step (m.receive f) = (m.receive f).beginFrame := rfl
  rw [HostFrame.ops, run_cons clock, run_cons input, run, begins]
  cases (m.receive f).beginFrame with
  | error cause => rfl
  | ok b => rfl

/-- Runs frames one after the other. -/
def runFrames (m : Machine σ) (frames : List HostFrame) : Except Fault (Machine σ) :=
  m.run (frames.flatMap HostFrame.ops)

theorem run_append_eq (m : Machine σ) (before after : List (Op σ)) :
    m.run (before ++ after) = m.run before >>= fun n => n.run after := by
  induction before generalizing m with
  | nil => rfl
  | cons op rest ih =>
    rw [List.cons_append, run, run]
    cases op.step m with
    | error cause => rfl
    | ok n => exact ih n

theorem runFrames_cons (m : Machine σ) (f : HostFrame) (frames : List HostFrame) :
    m.runFrames (f :: frames) = m.run f.ops >>= fun n => n.runFrames frames :=
  m.run_append_eq f.ops _

/-! ### Receiving input -/

theorem continues_receive (m : Machine σ) (f : HostFrame) : m.Continues (m.receive f) := by
  have later : m.Continues (m.mapConsole fun c => { c with clock := f.clock }) :=
    ⟨.of_eq rfl rfl rfl rfl, rfl, rfl⟩
  exact later.trans (reaches_setInput _ f.input).toContinues

theorem state_receive (m : Machine σ) (f : HostFrame) :
    (m.receive f).console.state = m.console.state := by
  dsimp only [receive, setInput, mapConsole]

theorem ram_receive (m : Machine σ) (f : HostFrame) :
    (m.receive f).console.ram = f.input.store m.console.ram := by
  have written (m : Machine σ) (g : Ram → Ram) :
      (m.mapConsole fun c => { c with ram := g c.ram }).console.ram = g m.console.ram := rfl
  exact written (m.mapConsole fun c => { c with clock := f.clock }) f.input.store

theorem guest_receive (m : Machine σ) (f : HostFrame) : (m.receive f).guest = m.guest := by
  dsimp only [receive, setInput, mapConsole]

/-! ### Running a program -/

/-- A machine on which hidden devices have been cleared. -/
def cleared (m : Machine σ) : Machine σ :=
  m.mapConsole fun c => { c with ram := c.state.devices.hide c.ram }

/-- The frame function of a running program is called when hidden devices have been cleared. -/
theorem tick_of_running {m : Machine σ} {index : Nat} {interp : Interpreter σ}
    (running : m.console.state.phase = .running) (bound : m.console.state.interpreter = some index)
    (present : m.interpreters[index]? = some interp) :
    m.tick = m.cleared.runGuest interp.tick := by
  rw [tick, running]
  exact runProgram_of_present bound present

/-! ### Frames without music -/

/-- A machine whose program runs and plays no music. -/
structure RunsQuietly (index : Nat) (d : Devices) (m : Machine σ) : Prop where
  phase : m.console.state.phase = .running
  bound : m.console.state.interpreter = some index
  shown : m.console.state.devices = d
  silent : (MusicPosition.load m.console.ram).status = .stopped

/-- Machine `b` is machine `m` when a frame has begun, with given input and without music. -/
structure BeginsQuietly (m : Machine σ) (now : DeviceInput) (b : Machine σ) : Prop where
  lifecycle : b.console.lifecycle = m.console.lifecycle
  code : b.console.cart.code = m.console.cart.code
  devices : b.console.state.devices = m.console.state.devices
  input : b.console.input = now
  history : b.console.state.input = m.console.state.input.countHolds now
  silent : (MusicPosition.load b.console.ram).status = .stopped
  guest : b.guest = m.guest
  interpreters : b.interpreters = m.interpreters

theorem exists_beginsQuietly {m : Machine σ}
    (silent : (MusicPosition.load m.console.ram).status = .stopped) :
    ∃ b, m.beginFrame = .ok b ∧ m.BeginsQuietly m.console.input b := by
  obtain ⟨⟨sound, r⟩, begins, written⟩ := m.console.state.sound.beginFrame_of_stopped silent
  have input := DeviceInput.load_congr (written.sameOn (by decide))
  have still := MusicPosition.load_congr (written.sameOn (by decide))
  refine ⟨m.begun (sound, r), ?_, ?_⟩
  · rw [beginFrame_eq, begins]
    rfl
  · exact
      { lifecycle := rfl
        code := rfl
        devices := rfl
        input := input
        history := congrArg m.console.state.input.countHolds input
        silent := (congrArg MusicPosition.status still).trans silent
        guest := rfl
        interpreters := rfl }

/-- A frame in which no music plays begins without a fault. -/
theorem exists_frame {m : Machine σ} (silent : (MusicPosition.load m.console.ram).status = .stopped)
    (f : HostFrame) : ∃ b, m.run f.ops = .ok b.tick.endFrame ∧
      m.BeginsQuietly (.load (f.input.store m.console.ram)) b := by
  have stored := f.input.sameOutside_store m.console.ram
  have still : (MusicPosition.load (m.receive f).console.ram).status = .stopped := by
    rw [ram_receive, MusicPosition.load_congr (stored.sameOn (by decide))]
    exact silent
  obtain ⟨b, begins, quiet⟩ := exists_beginsQuietly still
  have input : (m.receive f).console.input = .load (f.input.store m.console.ram) :=
    congrArg DeviceInput.load (m.ram_receive f)
  have lifecycle : (m.receive f).console.lifecycle = m.console.lifecycle := by
    rw [Console.lifecycle, m.state_receive f, Console.lifecycle]
  have continues := m.continues_receive f
  refine ⟨b, ?_, ?_⟩
  · rw [run_frame, begins]
    rfl
  · exact
      { lifecycle := quiet.lifecycle.trans lifecycle
        code := quiet.code.trans continues.console.code
        devices := quiet.devices.trans (congrArg ConsoleState.devices (m.state_receive f))
        input := quiet.input.trans input
        history := by rw [quiet.history, m.state_receive f, input]
        silent := quiet.silent
        guest := quiet.guest.trans (m.guest_receive f)
        interpreters := quiet.interpreters.trans continues.interpreters }

theorem RunsQuietly.cleared {m : Machine σ} {index : Nat} {d : Devices}
    (runs : m.RunsQuietly index d) : m.cleared.RunsQuietly index d where
  phase := runs.phase
  bound := runs.bound
  shown := runs.shown
  silent := by
    have kept : Ram.SameOn [Layout.musicState] m.console.ram m.cleared.console.ram :=
      (m.console.state.devices.sameOutside_hide m.console.ram).sameOn (by decide)
    exact (congrArg MusicPosition.status (MusicPosition.load_congr kept)).trans runs.silent

/-- A frame of a running program that plays no music. -/
theorem RunsQuietly.run_frame {m : Machine σ} {index : Nat} {d : Devices}
    (runs : m.RunsQuietly index d) {interp : Interpreter σ}
    (present : m.interpreters[index]? = some interp) (f : HostFrame) :
    ∃ b : Machine σ, m.run f.ops = .ok (b.cleared.runGuest interp.tick).endFrame ∧
      b.RunsQuietly index d ∧ b.interpreters = m.interpreters ∧ b.guest = m.guest ∧
      b.console.state.input =
        m.console.state.input.countHolds (.load (f.input.store m.console.ram)) := by
  obtain ⟨b, ran, quiet⟩ := exists_frame runs.silent f
  have begun : b.RunsQuietly index d :=
    ⟨(congrArg Lifecycle.phase quiet.lifecycle).trans runs.phase,
      (congrArg Lifecycle.interpreter quiet.lifecycle).trans runs.bound,
      quiet.devices.trans runs.shown, quiet.silent⟩
  have found := (congrArg (·[index]?) quiet.interpreters).trans present
  rw [tick_of_running begun.phase begun.bound found] at ran
  exact ⟨b, ran, begun, quiet.interpreters, quiet.guest, quiet.history⟩

/-! ### Starting a program -/

theorem silent_loadCart (m : Machine σ) (cart : Cart) :
    (MusicPosition.load (m.loadCart cart).console.ram).status = .stopped := by
  obtain ⟨c, memory, -, -⟩ := m.console_loadCart cart
  rw [memory, MusicPosition.load_of_region c.musicState_reset]
  rfl

/-- A machine whose next frame has an interpreter start the program. -/
structure IsServedBy (index : Nat) (interp : Interpreter σ) (m : Machine σ) : Prop where
  fresh : m.console.lifecycle = .fresh .initializing
  text : ¬ m.console.cart.code.isEmpty = true
  served : Interpreter.select? m.interpreters m.console.cart.code = some index
  present : m.interpreters[index]? = some interp

/-- In a frame that starts a program, an interpreter is asked to start it and then to run it. -/
theorem IsServedBy.tick {m : Machine σ} {index : Nat} {interp : Interpreter σ}
    (served : m.IsServedBy index interp) {hooks : HookSet} {n : Machine σ}
    (starts : (m.preparedFor interp).callInit interp m.console.cart.code = (.ok hooks, n)) :
    m.tick = (finishStart index (.ok hooks, n)).2.cleared.runGuest interp.tick := by
  have kept : n.interpreters = m.interpreters :=
    (congrArg (·.2.interpreters) starts).symm.trans m.interpreters_closeProgram
  rw [tick_of_initializing (congrArg Lifecycle.phase served.fresh)
    (congrArg Lifecycle.rejected served.fresh),
    startProgram_of_served served.text served.served served.present, starts]
  exact runProgram_of_present (m := (finishStart index (.ok hooks, n)).2) rfl
    ((congrArg (·[index]?) kept).trans served.present)

/-- Memory that no section maps onto is as it was when a program is started. -/
theorem sameOn_preparedFor {m : Machine σ} (idle : m.interpreter? = none) (interp : Interpreter σ)
    {gs : List Region} (apart : ∀ g ∈ gs, ∀ s : Section, g.Disjoint s.region) :
    SameOn gs m.console.ram (m.preparedFor interp).console.ram :=
  fun g member i inside => (follows_preparedFor idle interp).outside i
    fun s _ _ => (apart g member s).not_contains inside

/-- A start function finds the input as the host has supplied it, hidden devices included. -/
theorem input_preparedFor {m : Machine σ} (idle : m.interpreter? = none) (interp : Interpreter σ) :
    (m.preparedFor interp).console.input = m.console.input := by
  have apart : ∀ g ∈ Devices.none.hidden, ∀ s : Section, g.Disjoint s.region := by
    intro g device s
    revert g
    cases s <;> decide
  exact DeviceInput.load_congr (sameOn_preparedFor idle interp apart)

section asking

variable {m : Machine σ} {index : Nat} {interp : Interpreter σ}
  (served : m.IsServedBy index interp)
  (silent : (MusicPosition.load m.console.ram).status = .stopped) {hooks : HookSet}
  {answer : Console → σ}
  (asks : ∀ c, (interp.init m.console.cart.code m.guest).run c = ((.ok hooks, answer c), c))
include served silent asks

/-- After a start function that only asks, the frame function is called. -/
theorem tick_of_asking :
    ∃ (b : Machine σ) (c : Console), m.tick = b.cleared.runGuest interp.tick ∧
      b.RunsQuietly index (.ofTag (Metadata.tag? m.console.cart.code "input" interp.comment)) ∧
      b.interpreters = m.interpreters ∧ b.guest = answer c ∧ c.input = m.console.input := by
  have idle : m.interpreter? = none := by
    have unbound : m.console.state.interpreter = none := congrArg Lifecycle.interpreter served.fresh
    rw [interpreter?, unbound]
    rfl
  have guest : (m.preparedFor interp).guest = m.guest := by
    rw [preparedFor_of_idle idle]
    rfl
  have still : (MusicPosition.load (m.preparedFor interp).console.ram).status = .stopped := by
    have apart : ∀ g ∈ [Layout.musicState], ∀ s : Section, g.Disjoint s.region := by
      intro g position s
      rw [List.mem_singleton.mp position]
      cases s <;> decide
    rw [MusicPosition.load_congr (sameOn_preparedFor idle interp apart)]
    exact silent
  have devices := congrArg ConsoleState.devices (state_preparedFor idle interp)
  have input := input_preparedFor idle interp
  have kept : (m.preparedFor interp).interpreters = m.interpreters := m.interpreters_closeProgram
  have called : (m.preparedFor interp).callInit interp m.console.cart.code =
      (.ok hooks, { m.preparedFor interp with
        guest := answer (m.preparedFor interp).console }) := by
    rw [callInit, guest, asks]
  have ticked := served.tick called
  -- of the machine that has been prepared only these facts are used
  generalize m.preparedFor interp = p at *
  exact ⟨_, p.console, ticked, ⟨rfl, rfl, devices, still⟩, kept, rfl, input⟩

/-- A frame in which a program is started that at first only asks. -/
theorem run_frame_of_asking (f : HostFrame) :
    ∃ (b : Machine σ) (c : Console),
      m.run f.ops = .ok (b.cleared.runGuest interp.tick).endFrame ∧
      b.RunsQuietly index (.ofTag (Metadata.tag? m.console.cart.code "input" interp.comment)) ∧
      b.interpreters = m.interpreters ∧ b.guest = answer c ∧
      c.input = .load (f.input.store m.console.ram) := by
  obtain ⟨b, ran, quiet⟩ := exists_frame silent f
  have begun : b.IsServedBy index interp := by
    obtain ⟨fresh, text, served, present⟩ := served
    rw [← quiet.code] at text served
    rw [← quiet.interpreters] at served present
    exact ⟨quiet.lifecycle.trans fresh, text, served, present⟩
  -- what is known of the machine before the frame holds of the one on which it has begun
  rw [← quiet.code, ← quiet.guest] at asks
  rw [← quiet.code, ← quiet.interpreters]
  obtain ⟨p, c, ticked, runs, kept, told, heard⟩ := tick_of_asking begun quiet.silent asks
  rw [ticked] at ran
  exact ⟨p, c, ran, runs, kept, told, heard.trans quiet.input⟩

end asking

end Machine

end FantasyConsole
