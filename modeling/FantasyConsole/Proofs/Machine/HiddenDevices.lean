import FantasyConsole.Proofs.Input.Visibility
import FantasyConsole.Proofs.Machine.Coherence
import FantasyConsole.Proofs.Machine.Transcript
import FantasyConsole.Proofs.Sound.Lockstep
import Mathlib.Data.List.Forall2

/-!
# Hidden devices

A program that asks for one kind of device is not shown the others. What it is told should not
depend on them, however long it runs.

This holds from frame to frame as long as the program runs. It does not hold of the frame in which
the program is started, because the start function is called before the hidden devices are cleared.
Nor does it hold of a program that writes into the memory of hidden devices itself: the next frame
then counts how long they are held against the input that the host supplied.

## Main result

`Machine.transcript_independent_of_hidden_devices`: two runs are told the same if their input
differs in hidden devices only, not in a frame that starts the program, and nothing is remembered of
these devices when a frame of the running program begins.

## Proof strategy

Between two frames of a running program the two machines are the same. In a frame they differ in the
memory of the hidden devices until it is cleared. After a start that failed nothing runs any more,
so the machines may go on to differ in what their input leaves behind.
-/

namespace FantasyConsole

open Ram

namespace Machine

variable {σ : Type}

/-- The devices that the program of the cart asks for. -/
def askedDevices (m : Machine σ) : Devices :=
  .ofTag (Metadata.tag? m.console.cart.code "input" (m.commentFor m.console.cart.code))

/-- Whether the next frame starts the program. -/
def AwaitsStart (m : Machine σ) : Prop :=
  m.console.state.phase = .initializing ∧ m.console.state.rejected = false

/-- Whether the program could not be started. -/
def IsRejected (m : Machine σ) : Prop :=
  m.console.state.phase = .initializing ∧ m.console.state.rejected = true

/-- Whether the host supplies the same in two frames, hidden devices apart. -/
structure HostFrame.AgreeOn (d : Devices) (f g : HostFrame) : Prop where
  clock : g.clock = f.clock
  input : f.input.AgreeOn d g.input

/-- Whether the host supplies the same, hidden devices included, in each frame that starts the
program. -/
def SameAtStarts (m : Machine σ) (fs gs : List HostFrame) : Prop :=
  ∀ k < fs.length, ∀ n, m.runFrames (fs.take k) = .ok n → n.AwaitsStart → gs[k]? = fs[k]?

/-- Whether nothing is remembered of hidden buttons and keys when a frame of the running program
begins. -/
def ForgetsHidden (m : Machine σ) (d : Devices) (fs : List HostFrame) : Prop :=
  ∀ k < fs.length, ∀ n, m.runFrames (fs.take k) = .ok n → n.console.state.phase = .running →
    n.console.state.input.BlankFor d

/-! ### The devices that are shown -/

theorem Continues.askedDevices {m n : Machine σ} (continues : m.Continues n) :
    n.askedDevices = m.askedDevices := by
  rw [Machine.askedDevices, Machine.askedDevices, commentFor, commentFor, continues.interpreters,
    continues.console.code]

theorem Continues.phase {m n : Machine σ} (continues : m.Continues n)
    (loaded : m.console.state.phase ≠ .unloaded) :
    n.console.state.phase = m.console.state.phase ∨ n.console.state.phase = .initializing := by
  rcases continues.console.lifecycle with same | same
  · exact .inl (congrArg Lifecycle.phase same)
  · exact .inr ((congrArg Lifecycle.phase same).trans (if_neg loaded))

theorem devices_runProgram (m : Machine σ) :
    m.runProgram.console.state.devices = m.console.state.devices := by
  cases bound : m.console.state.interpreter with
  | none => rw [runProgram_of_absent bound]
  | some index =>
    cases present : m.interpreters[index]? with
    | none => rw [runProgram_of_missing bound present]; rfl
    | some interp =>
      rw [runProgram_of_present bound present]
      exact ((interp.tick m.guest).reaches_run _).devices

theorem devices_startProgram {m n : Machine σ} (succeeds : m.startProgram = (none, n)) :
    n.console.state.devices = m.askedDevices := by
  obtain ⟨_, ended⟩ | ⟨_, _, ended⟩ | ⟨index, interp, _, served, present, ended⟩ :=
    m.startProgram_cases
  · cases succeeds.symm.trans ended
  · cases succeeds.symm.trans ended
  · have comment : m.commentFor m.console.cart.code = interp.comment := by
      rw [commentFor, served, Option.bind_some, present, Option.map_some, Option.getD_some]
    have called :
        ((m.preparedFor interp).callInit interp m.console.cart.code).2.console.state.devices =
          (m.preparedFor interp).console.state.devices :=
      ((interp.init m.console.cart.code (m.preparedFor interp).guest).reaches_run _).devices
    have selected : (m.preparedFor interp).console.state.devices = m.askedDevices := by
      rw [Machine.askedDevices, comment]
      rfl
    rw [succeeds] at ended
    rw [← selected, ← called]
    generalize (m.preparedFor interp).callInit interp m.console.cart.code = r at ended
    obtain ⟨result, o⟩ := r
    cases result with
    | error e => cases ended
    | ok hooks => cases ended; rfl

/-- A machine with a cart, whose program is shown the devices that it asks for when it runs. -/
structure Shows (d : Devices) (m : Machine σ) : Prop where
  coherent : m.Coherent
  loaded : m.console.state.phase ≠ .unloaded
  asked : m.askedDevices = d
  shown : m.console.state.phase = .running → m.console.state.devices = d

namespace Shows

variable {d : Devices} {m n : Machine σ} (shows : m.Shows d)
include shows

theorem continues (continues : m.Continues n)
    (devices : n.console.state.devices = m.console.state.devices) : n.Shows d where
  coherent := continues.coherent shows.coherent
  loaded := by
    rcases continues.phase shows.loaded with same | restarted
    · exact same ▸ shows.loaded
    · exact restarted ▸ Phase.noConfusion
  asked := continues.askedDevices.trans shows.asked
  shown running := by
    rcases continues.phase shows.loaded with same | restarted
    · exact devices.trans (shows.shown (same.symm.trans running))
    · cases running.symm.trans restarted

theorem tick : m.tick.Shows d := by
  have coherent := coherent_tick shows.coherent
  obtain ⟨unloaded, _⟩ | ⟨_, runs⟩ | ⟨initializing, ⟨_, same⟩ | ⟨accepted, fails | succeeds⟩⟩ :=
    m.tick_cases
  · exact absurd unloaded shows.loaded
  · rw [runs]
    exact shows.continues m.reaches_runProgram.toContinues m.devices_runProgram
  · rwa [same]
  · obtain ⟨e, n, fails, same⟩ := fails
    have failed : n.console.state.phase = .initializing :=
      congrArg Lifecycle.phase (shows.coherent.lifecycle_failed initializing accepted fails)
    have ended := shows.coherent.startProgram_fails initializing fails
    have phase : (n.reject e).console.state.phase = .initializing := failed
    rw [same] at coherent ⊢
    refine ⟨coherent, phase ▸ Phase.noConfusion, ?_, fun running => ?_⟩
    · exact ended.askedDevices.trans shows.asked
    · cases phase.symm.trans running
  · obtain ⟨n, succeeds, runs⟩ := succeeds
    obtain ⟨index, starts, started⟩ := coherent_startProgram shows.coherent accepted succeeds
    obtain ⟨hooks, lifecycle⟩ := starts.lifecycle
    have phase : n.console.state.phase = .running := congrArg Lifecycle.phase lifecycle
    have asked : n.askedDevices = m.askedDevices := by
      rw [askedDevices, askedDevices, commentFor, commentFor, starts.interpreters, starts.code]
    have running : n.Shows d :=
      ⟨started, phase ▸ Phase.noConfusion, asked.trans shows.asked,
        fun _ => (devices_startProgram succeeds).trans shows.asked⟩
    rw [runs]
    exact running.continues n.reaches_runProgram.toContinues n.devices_runProgram

theorem frame {f : HostFrame} (ran : m.run f.ops = .ok n) : n.Shows d := by
  have received : (m.receive f).Shows d :=
    shows.continues (m.continues_receive f) (congrArg ConsoleState.devices (m.state_receive f))
  rw [run_frame, beginFrame_eq] at ran
  cases sound : (m.receive f).console.state.sound.beginFrame (m.receive f).console.ram with
  | error cause => rw [sound] at ran; cases ran
  | ok r =>
    rw [sound] at ran
    cases ran
    have begun : ((m.receive f).begun r).Shows d :=
      received.continues (reaches_begun _ r).toContinues rfl
    exact begun.tick.continues (reaches_endFrame _).toContinues rfl

theorem interpreter_of_running (running : m.console.state.phase = .running) :
    ∃ index interp, m.console.state.interpreter = some index ∧
      m.interpreters[index]? = some interp := by
  cases bound : m.console.state.interpreter with
  | none => exact absurd bound (shows.coherent.now.running running)
  | some index =>
    exact ⟨index, _, rfl, Array.getElem?_eq_getElem (shows.coherent.now.bound index bound)⟩

end Shows

/-! ### Machines that differ in hidden devices -/

/-- A machine with other contents of memory and another history of input. -/
def withInput (m : Machine σ) (ram : Ram) (history : InputHistory) : Machine σ :=
  m.mapConsole fun c => { c with ram := ram, state.input := history }

/-- A machine with other hidden devices in memory and another history of input. -/
inductive DiffersIn (d : Devices) (m : Machine σ) : Machine σ → Prop where
  | withInput {ram : Ram} (history : InputHistory)
      (memory : AgreeOutside d.hidden m.console.ram ram) : DiffersIn d m (m.withInput ram history)

/-- What is left when hidden devices are cleared does not depend on them. -/
theorem cleared_withInput {d : Devices} {m : Machine σ} {ram : Ram}
    (shown : m.console.state.devices = d) (memory : AgreeOutside d.hidden m.console.ram ram) :
    (m.withInput ram m.console.state.input).cleared = m.cleared := by
  subst shown
  simp only [cleared, withInput, mapConsole, Devices.hide_congr memory]

theorem receive_withInput (m : Machine σ) (ram : Ram) (history : InputHistory) {f g : HostFrame}
    (clock : g.clock = f.clock) : (m.withInput ram history).receive g =
      (m.receive f).withInput (g.input.store ram) history := by
  simp only [receive, withInput, setInput, mapConsole, clock]

/-- Sound does not read the memory of devices. -/
theorem sound_beginFrame_congr (d : Devices) (sound : Sound) {r m : Ram}
    (memory : AgreeOutside d.hidden r m) :
    SameOutcome (fun x y => y.1 = x.1 ∧ AgreeOutside d.hidden x.2 y.2) (sound.beginFrame r)
      (sound.beginFrame m) := by
  have apart : ∀ h ∈ Layout.soundData, ∀ g ∈ Devices.none.hidden, h.Disjoint g := by decide
  exact sound.beginFrame_congr
    (fun h read g hidden => apart h read g (Devices.mem_hidden_none hidden)) memory

namespace DiffersIn

variable {d : Devices}

theorem refl (d : Devices) (m : Machine σ) : DiffersIn d m m := withInput _ (.refl _ _)

variable {m n : Machine σ} (differs : DiffersIn d m n)
include differs

theorem guest : n.guest = m.guest := by
  cases differs
  rfl

theorem isRejected (rejected : m.IsRejected) : n.IsRejected := by
  cases differs
  exact rejected

theorem receive {f g : HostFrame} (agree : f.AgreeOn d g) :
    DiffersIn d (m.receive f) (n.receive g) := by
  obtain @⟨ram, history, memory⟩ := differs
  rw [m.receive_withInput ram history agree.clock]
  exact withInput history (memory.storeInput agree.input)

/-- When a frame begins the machines fault alike, or go on to differ in hidden devices only. -/
theorem beginFrame : SameOutcome (DiffersIn d) m.beginFrame n.beginFrame := by
  obtain @⟨ram, history, memory⟩ := differs
  rw [beginFrame_eq, beginFrame_eq]
  refine (sound_beginFrame_congr d m.console.state.sound memory).map ?_
  rintro ⟨sound, r⟩ ⟨_, o⟩ ⟨rfl, written⟩
  exact withInput (history.countHolds (.load o)) written

theorem endFrame : DiffersIn d m.endFrame n.endFrame := by
  obtain @⟨ram, history, memory⟩ := differs
  have apart : ∀ h ∈ [Layout.registers, Layout.stereo], ∀ g ∈ Devices.none.hidden,
      h.Disjoint g := by
    decide
  have queued := RegisterFrame.load_congr (memory.bytes.sameOn
    fun h read g hidden => apart h read g (Devices.mem_hidden_none hidden))
  have ended : (m.withInput ram history).endFrame =
      m.endFrame.withInput ram (history.remember (.load ram)) := by
    simp only [Machine.endFrame, Machine.withInput, mapConsole, Sound.endFrame, Console.input,
      queued]
  rw [ended]
  exact withInput _ memory

end DiffersIn

/-! ### One frame -/

theorem tick_of_rejected {m : Machine σ} (rejected : m.IsRejected) : m.tick = m := by
  rw [tick, rejected.1]
  exact if_pos rejected.2

/-- After a start that failed the input leaves its traces, and nothing else happens. -/
theorem DiffersIn.run_frame {m n : Machine σ} (differs : DiffersIn .none m n)
    (rejected : m.IsRejected) {f g : HostFrame} (clock : g.clock = f.clock) :
    SameOutcome (fun a b => DiffersIn .none a b ∧ a.IsRejected) (m.run f.ops) (n.run g.ops) := by
  have agree : f.AgreeOn .none g := ⟨clock, nofun, nofun, nofun⟩
  have waiting : (m.receive f).IsRejected := by
    rw [IsRejected, state_receive]
    exact rejected
  have received := differs.receive agree
  rw [Machine.run_frame, Machine.run_frame]
  generalize m.receive f = b, n.receive g = c at received waiting
  obtain ⟨x, y, begins, also, begun⟩ | ⟨cause, begins, also⟩ := received.beginFrame.cases
  · have still : x.IsRejected := by
      rw [beginFrame_eq] at begins
      cases sound : b.console.state.sound.beginFrame b.console.ram with
      | error cause => rw [sound] at begins; cases begins
      | ok r => rw [sound] at begins; cases begins; exact waiting
    rw [begins, also]
    change DiffersIn .none x.tick.endFrame y.tick.endFrame ∧ x.tick.endFrame.IsRejected
    rw [tick_of_rejected still, tick_of_rejected (begun.isRejected still)]
    exact ⟨begun.endFrame, still⟩
  · rw [begins, also]
    rfl

/-- What the frame function finds does not depend on hidden devices, unless something is remembered
of them. -/
theorem tick_begun_withInput {d : Devices} {m : Machine σ} {index : Nat} {interp : Interpreter σ}
    (running : m.console.state.phase = .running) (bound : m.console.state.interpreter = some index)
    (present : m.interpreters[index]? = some interp) (shown : m.console.state.devices = d)
    (blank : m.console.state.input.BlankFor d) (sound : Sound) (ram : Ram) {r o : Ram}
    (written : AgreeOutside d.hidden r o) :
    ((m.withInput ram m.console.state.input).begun (sound, o)).tick =
      (m.begun (sound, r)).tick := by
  have counted := InputHistory.countHolds_congr blank written.loadInput
  -- the counters are the same, so the machines differ in memory that is about to be cleared
  have begun : (m.withInput ram m.console.state.input).begun (sound, o) =
      (m.begun (sound, r)).withInput o (m.begun (sound, r)).console.state.input := by
    simp only [Machine.begun, withInput, mapConsole, counted]
  rw [begun, tick_of_running (m := m.begun (sound, r)) running bound present,
    ← cleared_withInput (m := m.begun (sound, r)) shown written]
  exact tick_of_running running bound present

/-- In a frame of a running program hidden devices make no difference, unless something is
remembered of them. -/
theorem Shows.run_frame_of_running {d : Devices} {m : Machine σ} (shows : m.Shows d)
    (running : m.console.state.phase = .running) (blank : m.console.state.input.BlankFor d)
    {f g : HostFrame} (agree : f.AgreeOn d g) : m.run g.ops = m.run f.ops := by
  obtain ⟨index, interp, bound, present⟩ := shows.interpreter_of_running running
  have shown := shows.shown running
  have received := (DiffersIn.refl d m).receive agree
  have history : (m.receive g).console.state.input = (m.receive f).console.state.input := by
    rw [state_receive, state_receive]
  have interpreters : (m.receive f).interpreters = m.interpreters := by
    dsimp only [receive, setInput, mapConsole]
  rw [← m.state_receive f] at running bound shown blank
  rw [← interpreters] at present
  rw [run_frame, run_frame]
  generalize m.receive f = n, m.receive g = p at *
  obtain @⟨other, past, memory⟩ := received
  obtain rfl : past = n.console.state.input := history
  rw [beginFrame_eq, beginFrame_eq]
  obtain ⟨⟨_, r⟩, ⟨sound, o⟩, begins, also, rfl, written⟩ | ⟨cause, begins, also⟩ :=
    (sound_beginFrame_congr d n.console.state.sound memory).cases
  · have ticked := tick_begun_withInput running bound present shown blank sound other written
    have first : (n.withInput other n.console.state.input).console.state.sound.beginFrame
        (n.withInput other n.console.state.input).console.ram = .ok (sound, o) := also
    rw [begins, first]
    exact congrArg (fun b : Machine σ => Except.ok b.endFrame) ticked
  · have first : (n.withInput other n.console.state.input).console.state.sound.beginFrame
        (n.withInput other n.console.state.input).console.ram = .error cause := also
    rw [begins, first]
    rfl

/-! ### Frame after frame -/

/-- Two machines between frames: they are the same, or no program could be started on them. -/
def InStep (d : Devices) (m n : Machine σ) : Prop :=
  (n = m ∧ m.Shows d) ∨ (DiffersIn .none m n ∧ m.IsRejected)

namespace InStep

variable {d : Devices} {m n : Machine σ} (step : InStep d m n)
include step

theorem guest : n.guest = m.guest := by
  obtain ⟨rfl, _⟩ | ⟨differs, _⟩ := step
  · rfl
  · exact differs.guest

theorem frame {f g : HostFrame} (agree : f.AgreeOn d g) (starts : m.AwaitsStart → g = f)
    (clear : m.console.state.phase = .running → m.console.state.input.BlankFor d) :
    SameOutcome (InStep d) (m.run f.ops) (n.run g.ops) := by
  -- the same machine stays the same, or its start has failed and only then do the copies differ
  obtain ⟨rfl, shows⟩ | ⟨differs, rejected⟩ := step
  · have alike (same : n.run g.ops = n.run f.ops) :
        SameOutcome (InStep d) (n.run f.ops) (n.run g.ops) := by
      rw [same]
      cases ran : n.run f.ops with
      | error cause => rfl
      | ok o => exact .inl ⟨rfl, shows.frame ran⟩
    cases phase : n.console.state.phase with
    | unloaded => exact absurd phase shows.loaded
    | running => exact alike (shows.run_frame_of_running phase (clear phase) agree)
    | initializing =>
      cases rejected : n.console.state.rejected with
      | false => exact alike (by rw [starts ⟨phase, rejected⟩])
      | true =>
        have apart := (DiffersIn.refl .none n).run_frame ⟨phase, rejected⟩ agree.clock
        exact apart.mono fun _ _ => .inr
  · exact (differs.run_frame rejected agree.clock).mono fun _ _ => .inr

/-- Machines in step stay in step, whatever hidden devices do. -/
theorem run {fs gs : List HostFrame} (agree : List.Forall₂ (HostFrame.AgreeOn d) fs gs)
    (starts : m.SameAtStarts fs gs) (clear : m.ForgetsHidden d fs) :
    SameOutcome (InStep d) (m.runFrames fs) (n.runFrames gs) := by
  induction agree generalizing m n with
  | nil => exact step
  | @cons f g fs gs first agree ih =>
    rw [runFrames_cons, runFrames_cons]
    have now := step.frame first
      (fun awaits => Option.some.inj (starts 0 (Nat.succ_pos _) m rfl awaits))
      (clear 0 (Nat.succ_pos _) m rfl)
    obtain ⟨a, b, ran, also, next⟩ | ⟨cause, ran, also⟩ := now.cases
    · have later (k : Nat) : m.runFrames ((f :: fs).take (k + 1)) = a.runFrames (fs.take k) := by
        rw [List.take_succ_cons, runFrames_cons, ran]
        rfl
      rw [ran, also]
      refine ih next (fun k below o reached => ?_) fun k below o reached => ?_
      · exact starts (k + 1) (Nat.succ_lt_succ below) o ((later k).trans reached)
      · exact clear (k + 1) (Nat.succ_lt_succ below) o ((later k).trans reached)
    · rw [ran, also]
      rfl

end InStep

/-! ### Transcripts -/

theorem Shows.transcribed {d : Devices} {m : Machine σ} (shows : m.Shows d) (told : List Answer) :
    (m.transcribed told).Shows d where
  coherent := by
    have size : (m.transcribed told).interpreters.size = m.interpreters.size := Array.size_map
    exact ⟨size ▸ shows.coherent.now, size ▸ shows.coherent.kept⟩
  loaded := shows.loaded
  asked := by
    have comment (code : String) : (m.transcribed told).commentFor code = m.commentFor code := by
      rw [commentFor, commentFor, Machine.transcribed, Interpreter.select?_transcribed]
      cases Interpreter.select? m.interpreters code with
      | none => rfl
      | some index =>
        rw [Option.bind_some, Option.bind_some, Array.getElem?_map, Option.map_map]
        rfl
    rw [askedDevices, comment]
    exact shows.asked
  shown := shows.shown

theorem shows_loadCart (m : Machine σ) (cart : Cart) :
    (m.loadCart cart).Shows (m.loadCart cart).askedDevices := by
  have inserts := m.inserts_loadCart cart
  have phase : (m.loadCart cart).console.state.phase = .initializing :=
    congrArg Lifecycle.phase inserts.lifecycle
  exact ⟨inserts.coherent Phase.noConfusion, phase ▸ Phase.noConfusion, rfl,
    fun running => nomatch phase.symm.trans running⟩

/-- What the program of a cart is told does not depend on the devices that it has not asked for, if
these are the same in frames that start the program, and if nothing is remembered of their buttons
and keys when a frame of the running program begins. -/
theorem transcript_independent_of_hidden_devices (m : Machine σ) (cart : Cart)
    {fs gs : List HostFrame}
    (agree : List.Forall₂ (HostFrame.AgreeOn (m.loadCart cart).askedDevices) fs gs)
    (starts : (m.loadCart cart).SameAtStarts fs gs)
    (clear : (m.loadCart cart).ForgetsHidden (m.loadCart cart).askedDevices fs) :
    (m.loadCart cart).transcript gs = (m.loadCart cart).transcript fs := by
  have shows := m.shows_loadCart cart
  generalize m.loadCart cart = n at *
  have start : InStep n.askedDevices (n.transcribed []) (n.transcribed []) :=
    .inl ⟨rfl, shows.transcribed []⟩
  -- a machine that writes a transcript passes through the phases of the machine without one
  have plain {k : Nat} {o : Machine (σ × List Answer)}
      (reached : (n.transcribed []).runFrames (fs.take k) = .ok o) :
      ∃ p later, n.runFrames (fs.take k) = .ok p ∧ o = p.transcribed later := by
    obtain ⟨p, _, ran, also, later, rfl⟩ | ⟨cause, _, also⟩ :=
      (n.run_transcribed [] (fs.take k)).cases
    · cases reached.symm.trans also
      exact ⟨p, later, ran, rfl⟩
    · cases reached.symm.trans also
  have outcome := start.run agree
    (fun k below o reached awaits => by
      obtain ⟨p, later, ran, rfl⟩ := plain reached
      exact starts k below p ran awaits)
    (fun k below o reached running => by
      obtain ⟨p, later, ran, rfl⟩ := plain reached
      exact clear k below p ran running)
  unfold transcript
  obtain ⟨a, b, first, second, step⟩ | ⟨cause, first, second⟩ := outcome.cases
  · rw [first, second]
    exact congrArg (fun guest => Except.ok guest.2) step.guest
  · rw [first, second]

/-! ### Programs for the keyboard -/

theorem select?_singleton (interp : Interpreter σ) (code : String) :
    Interpreter.select? #[interp] code = some 0 := by
  cases named : interp.isNamedBy code <;> simp [Interpreter.select?, named]

/-- A cart whose program asks for the keyboard. -/
def keyboardCart : Cart := { Cart.blank with code := "-- input: keyboard\n" }

theorem tag?_keyboardCart : Metadata.tag? keyboardCart.code "input" "--" = some "keyboard" := by
  decide

/-- A machine with one interpreter, before the first frame of a program for the keyboard. -/
def inserted (interp : Interpreter Unit) : Machine Unit :=
  ((new {} {} ()).register interp).loadCart keyboardCart

theorem lifecycle_inserted (interp : Interpreter Unit) :
    (inserted interp).console.lifecycle = .fresh .initializing :=
  (inserts_loadCart _ keyboardCart).lifecycle

theorem code_inserted (interp : Interpreter Unit) :
    (inserted interp).console.cart.code = keyboardCart.code :=
  (inserts_loadCart _ keyboardCart).code

theorem interpreters_inserted (interp : Interpreter Unit) :
    (inserted interp).interpreters = #[interp] :=
  (inserts_loadCart _ keyboardCart).interpreters

theorem askedDevices_inserted (interp : Interpreter Unit) (comment : interp.comment = "--") :
    (inserted interp).askedDevices = ⟨false, false, true⟩ := by
  rw [askedDevices, commentFor, code_inserted, interpreters_inserted, select?_singleton]
  change Devices.ofTag (Metadata.tag? keyboardCart.code "input" interp.comment) = _
  rw [comment, tag?_keyboardCart]
  rfl

theorem not_running_at_start {interp : Interpreter Unit} {fs : List HostFrame} {n : Machine Unit}
    (reached : (inserted interp).runFrames (fs.take 0) = .ok n) :
    n.console.state.phase ≠ .running := by
  have fresh : (inserted interp).console.state.phase = .initializing :=
    congrArg Lifecycle.phase (lifecycle_inserted interp)
  generalize inserted interp = m at *
  cases reached
  exact fresh ▸ Phase.noConfusion

/-- The first frame of a program that at first only asks. -/
theorem run_first_frame {m : Machine σ} {only : Interpreter Unit} {interp : Interpreter σ}
    (console : m.console = (inserted only).console) (alone : m.interpreters = #[interp])
    (comment : interp.comment = "--") {answer : Console → σ}
    (asks : ∀ c, (interp.init keyboardCart.code m.guest).run c = ((.ok {}, answer c), c))
    (f : HostFrame) :
    ∃ (b : Machine σ) (c : Console),
      m.run f.ops = .ok (b.cleared.runGuest interp.tick).endFrame ∧
      b.RunsQuietly 0 ⟨false, false, true⟩ ∧ b.interpreters = #[interp] ∧ b.guest = answer c ∧
      c.input = .load (f.input.store m.console.ram) := by
  have code : m.console.cart.code = keyboardCart.code := by rw [console, code_inserted]
  have silent : (MusicPosition.load m.console.ram).status = .stopped := by
    rw [console]
    exact silent_loadCart _ _
  have served : m.IsServedBy 0 interp :=
    ⟨by rw [console, lifecycle_inserted], by rw [code]; decide, by rw [alone, select?_singleton],
      by rw [alone]; rfl⟩
  rw [← code] at asks
  obtain ⟨b, c, ran, runs, kept, told, heard⟩ := run_frame_of_asking served silent asks f
  rw [code, comment, tag?_keyboardCart] at runs
  exact ⟨b, c, ran, runs, kept.trans alone, told, heard⟩

/-- A frame in which one button of the first gamepad is down, or none. -/
def padFrame (down : Bool) : HostFrame := ⟨{}, { gamepads := if down then 1 else 0 }⟩

theorem agreeOn_padFrame (a b : Bool) :
    HostFrame.AgreeOn ⟨false, false, true⟩ (padFrame a) (padFrame b) :=
  ⟨rfl, nofun, nofun, fun _ => rfl⟩

theorem interpreters_transcribed_inserted (interp : Interpreter Unit) (told : List Answer) :
    ((inserted interp).transcribed told).interpreters = #[interp.transcribed] := by
  change (inserted interp).interpreters.map Interpreter.transcribed = _
  rw [interpreters_inserted]
  simp

end Machine

theorem Api.call_btn (c : Console) :
    Api.call "btn" [.int (-1)] c = (.ok (.int c.input.gamepads.toNat), c) := by
  have found : lookup? "btn" = some ⟨"btn", 0, 1, buttons⟩ := by rfl
  rw [call, found]
  rfl

theorem Api.call_memset (c : Console) :
    Api.call "memset" [.int 0xFF80, .int 1, .int 4] c = (.ok .nil, (c.fill 0xFF80 1 4).2) := by
  have found : lookup? "memset" = some ⟨"memset", 3, 3, fill⟩ := by rfl
  rw [call, found]
  rfl

theorem Api.call_btnp (c : Console) :
    Api.call "btnp" [.int 0, .int 1, .int 1] c =
      (.ok (.bool (c.pressedButtons 0 1 1 != 0)), c) := by
  have found : lookup? "btnp" = some ⟨"btnp", 0, 3, pressedButtons⟩ := by rfl
  rw [call, found]
  rfl

namespace Machine

/-- An interpreter whose programs ask for all buttons in every frame. -/
def onlooker : Interpreter Unit where
  names := []
  comment := "--"
  init _ s := .done (.ok {}, s)
  close := .done
  tick s := .call "btn" [.int (-1)] fun _ => .done s

/-- The first frame of programs that call nothing when they are started and only ask in a frame. -/
theorem start_onlooker (down : Bool) :
    ∃ o, (inserted onlooker).run (padFrame down).ops = .ok o ∧ o.console.state.phase = .running ∧
      o.console.state.input.BlankFor ⟨false, false, true⟩ := by
  have asks (c : Console) : (onlooker.init keyboardCart.code ()).run c = ((.ok {}, ()), c) := rfl
  obtain ⟨b, _, ran, runs, -⟩ := run_first_frame (m := inserted onlooker) rfl
    (interpreters_inserted onlooker) rfl asks (padFrame down)
  have ticked : b.cleared.runGuest onlooker.tick = b.cleared := by
    have answered (c : Console) : (onlooker.tick ()).run c = ((), c) := by
      dsimp only [onlooker]
      rw [Guest.run, Api.call_btn]
      rfl
    rw [runGuest, answered]
  rw [ticked] at ran
  have blank := InputHistory.blankFor_remember ⟨false, false, true⟩ b.console.state.input
    b.console.ram
  rw [← runs.shown] at blank
  exact ⟨_, ran, runs.phase, runs.shown ▸ blank⟩

/-- A program for the keyboard is told the same, whether a button is held down in its second frame
or not. -/
theorem transcript_independent_of_hidden_devices_onlooker :
    (inserted onlooker).transcript [padFrame false, padFrame true] =
      (inserted onlooker).transcript [padFrame false, padFrame false] := by
  have asked := askedDevices_inserted onlooker rfl
  obtain ⟨o, ran, running, blank⟩ := start_onlooker false
  have second {n : Machine Unit}
      (reached : (inserted onlooker).runFrames [padFrame false] = .ok n) : n = o := by
    rw [runFrames_cons, ran] at reached
    exact (Except.ok.inj reached).symm
  refine transcript_independent_of_hidden_devices ((new {} {} ()).register onlooker) keyboardCart
    ?agree ?starts ?clear
  case agree =>
    change List.Forall₂ (HostFrame.AgreeOn (inserted onlooker).askedDevices) _ _
    rw [asked]
    exact .cons (agreeOn_padFrame false false) (.cons (agreeOn_padFrame false true) .nil)
  case starts =>
    rintro (_ | _ | k) below n reached awaits
    · rfl
    · rw [second reached] at awaits
      cases running.symm.trans awaits.1
    · exact absurd below (by simp)
  case clear =>
    change (inserted onlooker).ForgetsHidden (inserted onlooker).askedDevices _
    rw [asked]
    rintro (_ | _ | k) below n reached runs
    · exact absurd runs (not_running_at_start reached)
    · rw [second reached]
      exact blank
    · exact absurd below (by simp)

/-- An interpreter whose programs ask for all buttons while they are started. -/
def eavesdropper : Interpreter Unit where
  names := []
  comment := "--"
  init _ s := .call "btn" [.int (-1)] fun _ => .done (.ok {}, s)
  close := .done
  tick := .done

/-- A start function is told of hidden devices. -/
theorem transcript_eavesdropper (down : Bool) :
    (inserted eavesdropper).transcript [padFrame down] =
      .ok [⟨"btn", [.int (-1)], .ok (.int (if down then 1 else 0))⟩] := by
  have told (c : Console) : (eavesdropper.init keyboardCart.code ()).answers c =
      [⟨"btn", [.int (-1)], .ok (.int c.input.gamepads.toNat)⟩] := by
    dsimp only [eavesdropper]
    rw [Guest.answers, Api.call_btn]
    rfl
  have answered (c : Console) : (eavesdropper.init keyboardCart.code ()).run c =
      ((.ok {}, ()), c) := by
    dsimp only [eavesdropper]
    rw [Guest.run, Api.call_btn]
    rfl
  have asks (c : Console) : (eavesdropper.transcribed.init keyboardCart.code ((), [])).run c =
      ((.ok {}, (), [⟨"btn", [.int (-1)], .ok (.int c.input.gamepads.toNat)⟩]), c) := by
    rw [Interpreter.run_init_transcribed, told, answered]
    rfl
  obtain ⟨b, c, ran, -, -, guest, heard⟩ := run_first_frame
    (m := (inserted eavesdropper).transcribed []) rfl
    (interpreters_transcribed_inserted _ []) rfl asks (padFrame down)
  have frames : ((inserted eavesdropper).transcribed []).runFrames [padFrame down] =
      .ok (b.cleared.runGuest eavesdropper.transcribed.tick).endFrame := by
    rw [runFrames_cons, ran]
    rfl
  have pads : c.input.gamepads = if down then 1 else 0 := by
    rw [heard, DeviceInput.gamepads_load_store]
    rfl
  rw [transcript, frames]
  change Except.ok b.guest.2 = _
  rw [guest, pads]
  cases down <;> rfl

/-- An interpreter whose programs hold buttons down themselves, and ask whether one is pressed. -/
def meddler : Interpreter Unit where
  names := []
  comment := "--"
  init _ s := .done (.ok {}, s)
  close := .done
  tick s := .call "memset" [.int 0xFF80, .int 1, .int 4] fun _ =>
    .call "btnp" [.int 0, .int 1, .int 1] fun _ => .done s

/-- Memory in which one button of every gamepad has been held down by the program. -/
def meddled (r : Ram) : Ram :=
  (r.fillBlock Layout.gamepads.offset 4 1).markBytes Layout.gamepads.offset 4

theorem byte_meddled (r : Ram) (i : Nat) :
    (meddled r).byte i = (r.fillRegion Layout.gamepads 1).byte i :=
  Ram.byte_markBytes _ _ _ i

theorem gamepads_meddled (r : Ram) : (DeviceInput.load (meddled r)).gamepads = 0x01010101 := by
  have held : (r.fillRegion Layout.gamepads 1).word Layout.gamepads.offset = 0x01010101 :=
    (r.word_fillBlock (by decide) 1).trans (by decide)
  rw [DeviceInput.load, ← held]
  simp only [Ram.word, byte_meddled]

theorem sameOutside_meddled (r : Ram) : SameOutside [Layout.gamepads] r (meddled r) := by
  intro i outside
  rw [byte_meddled]
  exact r.sameOutside_fillRegion List.mem_cons_self 1 i outside

theorem fill_meddled (c : Console) :
    (c.fill 0xFF80 1 4).2 = { c with ram := meddled c.ram } := by
  have inside : Ram.InMemory 0xFF80 4 := by decide
  rw [Console.fill, Ram.fill?, if_pos inside]
  rfl

/-- What a program that holds buttons down is told when it asks for a press, with autorepeat. -/
def pressedWhenMeddled (h : InputHistory) : Bool :=
  h.pressedButtons { gamepads := 0x01010101 } 0 1 1 != 0

theorem answers_meddler (c : Console) :
    (meddler.tick ()).answers c =
      [⟨"memset", [.int 0xFF80, .int 1, .int 4], .ok .nil⟩,
        ⟨"btnp", [.int 0, .int 1, .int 1], .ok (.bool (pressedWhenMeddled c.state.input))⟩] := by
  have same (c : Console) {pads : UInt32} (held : c.input.gamepads = pads) :
      c.pressedButtons 0 1 1 = c.state.input.pressedButtons { gamepads := pads } 0 1 1 := by
    subst held
    rfl
  have pads := same { c with ram := meddled c.ram } (gamepads_meddled c.ram)
  dsimp only [meddler]
  rw [Guest.answers, Api.call_memset, fill_meddled]
  dsimp only
  rw [Guest.answers, Api.call_btnp, pads]
  rfl

theorem run_meddler (c : Console) :
    (meddler.tick ()).run c = ((), { c with ram := meddled c.ram }) := by
  dsimp only [meddler]
  rw [Guest.run, Api.call_memset, fill_meddled]
  dsimp only
  rw [Guest.run, Api.call_btnp]
  rfl

/-- A frame of a program that holds buttons down. -/
theorem RunsQuietly.meddle {b : Machine (Unit × List Answer)} {d : Devices}
    (runs : b.RunsQuietly 0 d) :
    ∃ o, (b.cleared.runGuest meddler.transcribed.tick).endFrame = o ∧ o.RunsQuietly 0 d ∧
      o.interpreters = b.interpreters ∧ o.console.state.input.gamepads = 0x01010101 ∧
      o.guest.2 = b.guest.2 ++ [⟨"memset", [.int 0xFF80, .int 1, .int 4], .ok .nil⟩,
        ⟨"btnp", [.int 0, .int 1, .int 1],
          .ok (.bool (pressedWhenMeddled b.console.state.input))⟩] := by
  have ran : b.cleared.runGuest meddler.transcribed.tick =
      { b.cleared with
        guest := ((), b.guest.2 ++ (meddler.tick ()).answers b.cleared.console)
        console := { b.cleared.console with ram := meddled b.cleared.console.ram } } := by
    have told : (meddler.transcribed.tick b.cleared.guest).run b.cleared.console = _ :=
      (meddler.tick ()).run_transcribe b.guest.2 b.cleared.console
    rw [run_meddler] at told
    rw [runGuest, told]
  have still : SameOn [Layout.musicState] b.cleared.console.ram (meddled b.cleared.console.ram) :=
    (sameOutside_meddled b.cleared.console.ram).sameOn (by decide)
  have quiet := runs.cleared
  have pads := gamepads_meddled b.cleared.console.ram
  rw [ran, answers_meddler]
  have history : b.cleared.console.state.input = b.console.state.input := rfl
  have kept : b.cleared.interpreters = b.interpreters := rfl
  rw [history]
  generalize b.cleared = c at *
  generalize meddled c.console.ram = ram at *
  refine ⟨_, rfl, ⟨quiet.phase, quiet.bound, quiet.shown, ?_⟩, kept, pads, rfl⟩
  exact (congrArg MusicPosition.status (MusicPosition.load_congr still)).trans quiet.silent

/-- The first frame of such a program leaves it running. -/
theorem start_meddler : ∃ o, (inserted meddler).run (padFrame false).ops = .ok o ∧
    o.console.state.phase = .running := by
  have asks (c : Console) : (meddler.init keyboardCart.code ()).run c = ((.ok {}, ()), c) := rfl
  obtain ⟨b, _, ran, runs, -⟩ := run_first_frame (m := inserted meddler) rfl
    (interpreters_inserted meddler) rfl asks (padFrame false)
  rw [runGuest, run_meddler] at ran
  exact ⟨_, ran, runs.phase⟩

/-- Autorepeat presses a button that was held in the frame before and is held now. -/
theorem pressedWhenMeddled_countHolds {h : InputHistory} (held : h.gamepads = 0x01010101)
    (down : Bool) (r : Ram) :
    pressedWhenMeddled (h.countHolds (.load ((padFrame down).input.store r))) = down := by
  have now : (DeviceInput.load ((padFrame down).input.store r)).buttonDown 0 = down := by
    rw [DeviceInput.buttonDown, DeviceInput.gamepads_load_store]
    cases down <;> decide
  have before : h.buttonWasDown 0 = true := by
    rw [InputHistory.buttonWasDown, held]
    decide
  have hold : (h.countHolds (.load ((padFrame down).input.store r))).buttonHold 0 =
      if down then h.buttonHolds[0] + 1 else 0 := by
    simp [InputHistory.buttonHold, InputHistory.countHolds, now, before, buttonCount]
  have kept : (h.countHolds (.load ((padFrame down).input.store r))).gamepads = 0x01010101 := held
  have index : (0 : Int).toNat = 0 := rfl
  rw [pressedWhenMeddled, InputHistory.pressedButtons, if_neg (by decide), if_pos (by decide),
    index, hold, kept]
  cases down with
  | false =>
    rw [if_neg Bool.false_ne_true]
    decide
  | true =>
    have held : (1 : Int) ≤ (h.buttonHolds[0] + 1 : Nat) := by omega
    have again : InputHistory.repeats (h.buttonHolds[0] + 1) 1 1 = true := by
      rw [InputHistory.repeats, Int.emod_one, decide_eq_true held]
      rfl
    rw [if_pos rfl, again]
    decide

/-- A program that holds buttons down is told how long the host has held them. -/
theorem transcript_meddler : ∃ first, ∀ down,
    (inserted meddler).transcript [padFrame false, padFrame down] = .ok (first ++
      [⟨"memset", [.int 0xFF80, .int 1, .int 4], .ok .nil⟩,
        ⟨"btnp", [.int 0, .int 1, .int 1], .ok (.bool down)⟩]) := by
  have asks (c : Console) : (meddler.transcribed.init keyboardCart.code ((), [])).run c =
      ((.ok {}, (), []), c) := rfl
  have alone := interpreters_transcribed_inserted meddler []
  obtain ⟨b, _, ran, runs, only, guest, -⟩ := run_first_frame
    (m := (inserted meddler).transcribed []) rfl alone rfl asks (padFrame false)
  obtain ⟨o, meddled, quiet, kept, pads, told⟩ := runs.meddle
  rw [meddled] at ran
  refine ⟨o.guest.2, fun down => ?_⟩
  have present : o.interpreters[0]? = some meddler.transcribed := by
    rw [kept, only]
    rfl
  obtain ⟨a, again, begun, -, same, history⟩ := quiet.run_frame present (padFrame down)
  obtain ⟨p, last, -, -, -, heard⟩ := begun.meddle
  have frames : ((inserted meddler).transcribed []).runFrames [padFrame false, padFrame down] =
      .ok p := by
    rw [runFrames_cons, ran]
    change o.runFrames [padFrame down] = _
    rw [runFrames_cons, again, last]
    rfl
  rw [transcript, frames]
  change Except.ok p.guest.2 = _
  rw [heard, history, pressedWhenMeddled_countHolds pads, same]

/-- Both conditions are needed: a start function is told of hidden devices, and a frame function can
find out for how long they have been held. -/
theorem transcript_depends_on_hidden_devices :
    (List.Forall₂ (HostFrame.AgreeOn (inserted eavesdropper).askedDevices)
        [padFrame false] [padFrame true] ∧
      (inserted eavesdropper).ForgetsHidden (inserted eavesdropper).askedDevices
        [padFrame false] ∧
      (inserted eavesdropper).transcript [padFrame true] ≠
        (inserted eavesdropper).transcript [padFrame false]) ∧
    List.Forall₂ (HostFrame.AgreeOn (inserted meddler).askedDevices)
        [padFrame false, padFrame false] [padFrame false, padFrame true] ∧
      (inserted meddler).SameAtStarts [padFrame false, padFrame false]
        [padFrame false, padFrame true] ∧
      (inserted meddler).transcript [padFrame false, padFrame true] ≠
        (inserted meddler).transcript [padFrame false, padFrame false] := by
  refine ⟨⟨?agree, ?clear, fun same => ?told⟩, ?alike, ?starts, fun same => ?heard⟩
  case agree =>
    rw [askedDevices_inserted eavesdropper rfl]
    exact .cons (agreeOn_padFrame false true) .nil
  case clear =>
    rintro (_ | k) below n reached runs
    · exact absurd runs (not_running_at_start reached)
    · exact absurd below (by simp)
  case told =>
    have told := (transcript_eavesdropper true).symm.trans
      (same.trans (transcript_eavesdropper false))
    simp at told
  case alike =>
    rw [askedDevices_inserted meddler rfl]
    exact .cons (agreeOn_padFrame false false) (.cons (agreeOn_padFrame false true) .nil)
  case starts =>
    rintro (_ | _ | k) below n reached awaits
    · rfl
    · obtain ⟨o, ran, running⟩ := start_meddler
      rw [List.take_succ_cons, List.take_zero, runFrames_cons, ran] at reached
      cases reached
      cases running.symm.trans awaits.1
    · exact absurd below (by simp)
  case heard =>
    obtain ⟨first, told⟩ := transcript_meddler
    have told := (told true).symm.trans (same.trans (told false))
    simp at told

end Machine

end FantasyConsole
