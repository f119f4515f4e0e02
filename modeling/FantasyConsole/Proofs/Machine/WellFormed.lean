import FantasyConsole.Proofs.Machine.Session
import FantasyConsole.Proofs.Sound.SoundRange

/-!
# Well-formed machines

Drawing and sound index memory and tables with numbers that come from a program. These bounds are
what makes every such access safe. They are set up in many places, from arguments and from bytes of
memory, and hold in every machine that a session reaches and in the snapshot of every pause.

## Main result

`Machine.wellFormed_session`

## Proof strategy

Memory, its stash and the bank of video memory have their bounds by their types, so the clip and the
sound remain. Of the moves that a program can make only four touch them; of the operations of a
machine only those that begin and end a frame, render or end a pause do so besides.
-/

namespace FantasyConsole

/-- The numbers by which drawing and sound are bounded. -/
structure ConsoleState.Bounded (s : ConsoleState) : Prop where
  clip : s.clip.Measured
  sound : s.sound.InRange

/-- What the code that indexes memory, the screen and the sound tables relies on. -/
structure WellFormed (ram : Ram) (s : ConsoleState) : Prop where
  memory : ram.bytes.toArray.size = 98304
  stash : s.videoBank.stash.toArray.size = 16384
  videoBank : s.videoBank.current.val = 0 ∨ s.videoBank.current.val = 1
  clip : 0 ≤ s.clip.left ∧ 0 ≤ s.clip.top ∧ s.clip.right ≤ 240 ∧ s.clip.bottom ≤ 136
  sound : s.sound.InRange

theorem ConsoleState.Bounded.wellFormed {s : ConsoleState} (bounded : s.Bounded) (ram : Ram) :
    WellFormed ram s where
  memory := ram.bytes.size_toArray
  stash := s.videoBank.stash.size_toArray
  videoBank := by
    have bound := s.videoBank.current.isLt
    omega
  clip := bounded.clip.onScreen
  sound := bounded.sound

theorem ConsoleState.Bounded.congr {s t : ConsoleState} (bounded : s.Bounded)
    (clip : t.clip = s.clip) (sound : t.sound = s.sound) : t.Bounded :=
  ⟨clip ▸ bounded.clip, sound ▸ bounded.sound⟩

namespace Console

/-! ### What a program does -/

private theorem bounded_showBank {c : Console} (bounded : c.state.Bounded) (ram : Ram)
    (bank : VideoBank) : { c with ram := ram, state.videoBank := bank }.state.Bounded :=
  bounded.congr rfl rfl

theorem bounded_selectVideoBank {c : Console} (bounded : c.state.Bounded) (id : Int) :
    (c.selectVideoBank id).2.state.Bounded := by
  unfold selectVideoBank
  cases VideoBank.ofNumber? id with
  | none => exact bounded
  | some next =>
    dsimp only
    split
    · exact bounded
    · exact bounded_showBank bounded _ _

theorem bounded_playEffect {c : Console} (bounded : c.state.Bounded)
    (index note octave duration channel : Int) (left right : UInt8) (speed : Int) :
    (c.playEffect index note octave duration channel left right speed).2.state.Bounded := by
  unfold playEffect
  split
  case h_1 played => exact ⟨bounded.clip, bounded.sound.playEffect? played⟩
  case h_2 => exact bounded.congr rfl rfl

theorem bounded_playMusic {c : Console} (bounded : c.state.Bounded) (track frame row : Int)
    (looped sustain : Bool) (tempo speed : Int) :
    (c.playMusic track frame row looped sustain tempo speed).state.Bounded := by
  unfold playMusic
  split
  case h_1 played => exact ⟨bounded.clip, bounded.sound.playMusic? played⟩
  case h_2 => exact bounded.congr rfl rfl

theorem bounded_reset {c : Console} (bounded : c.state.Bounded) : c.reset.state.Bounded := by
  rw [state_reset]
  exact ⟨Clip.measured_full, bounded.sound.reset c.ram⟩

theorem Move.bounded {c d : Console} (move : Move c d) (bounded : c.state.Bounded) :
    d.state.Bounded := by
  -- by the kind of the move: only clip and sound have bounds to keep
  cases move with
  | notify | memory | sync | overlay => exact bounded.congr rfl rfl
  | videoBank id => exact bounded_selectVideoBank bounded id
  | clip column row wide high =>
    exact ⟨Clip.measured_ofRect column row wide high, bounded.sound⟩
  | wholeScreen => exact ⟨Clip.measured_full, bounded.sound⟩
  | effect => exact bounded_playEffect bounded _ _ _ _ _ _ _ _
  | music => exact bounded_playMusic bounded _ _ _ _ _ _ _
  | reset => exact bounded_reset bounded

theorem Moves.bounded {c d : Console} (moves : Moves c d) (bounded : c.state.Bounded) :
    d.state.Bounded :=
  moves.preserves (fun _ _ move kept => move.bounded kept) bounded

end Console

namespace Machine

variable {σ : Type}

/-- The numbers are bounded at present and in the snapshot of a pause. -/
structure Bounded (m : Machine σ) : Prop where
  now : m.console.state.Bounded
  kept : ∀ s, m.paused = some s → s.state.Bounded

namespace Bounded

variable {m n : Machine σ}

theorem of_moves (bounded : m.Bounded) (moves : m.console.Moves n.console)
    (paused : n.paused = m.paused) : n.Bounded :=
  ⟨moves.bounded bounded.now, paused ▸ bounded.kept⟩

theorem congr (bounded : m.Bounded) (clip : n.console.state.clip = m.console.state.clip)
    (sound : n.console.state.sound = m.console.state.sound) (paused : n.paused = m.paused) :
    n.Bounded :=
  ⟨bounded.now.congr clip sound, paused ▸ bounded.kept⟩

theorem mapConsole (bounded : m.Bounded) {f : Console → Console}
    (now : (f m.console).state.Bounded) : (m.mapConsole f).Bounded :=
  ⟨now, bounded.kept⟩

theorem setMemory (bounded : m.Bounded) (f : Console → Ram) :
    (m.mapConsole fun c => { c with ram := f c }).Bounded :=
  bounded.mapConsole bounded.now

theorem log (bounded : m.Bounded) (category : Log.Category) (level : Log.Level) (text : String) :
    (m.mapConsole (·.log category level text)).Bounded :=
  bounded.mapConsole bounded.now

theorem runGuest (bounded : m.Bounded) (program : σ → Guest σ) : (m.runGuest program).Bounded :=
  bounded.of_moves ((program m.guest).moves_run m.console) rfl

/-! ### Programs -/

theorem closeProgram (bounded : m.Bounded) : m.closeProgram.Bounded := by
  have unbound : m.unbound.Bounded := bounded.congr rfl rfl rfl
  cases target : m.interpreter? with
  | none =>
    rw [closeProgram_of_absent target]
    exact unbound.congr rfl rfl rfl
  | some interp =>
    rw [closeProgram_of_present target]
    exact (unbound.runGuest interp.close).congr rfl rfl rfl

theorem preparedFor (bounded : m.Bounded) (interp : Interpreter σ) :
    (m.preparedFor interp).Bounded :=
  bounded.closeProgram.congr rfl rfl rfl

theorem callInit (bounded : m.Bounded) (interp : Interpreter σ) (code : String) :
    (m.callInit interp code).2.Bounded :=
  bounded.of_moves ((interp.init code m.guest).moves_run m.console) rfl

theorem finishStart {index : Nat} {r : Except ScriptError HookSet × Machine σ}
    (bounded : r.2.Bounded) : (Machine.finishStart index r).2.Bounded := by
  obtain ⟨result, n⟩ := r
  cases result with
  | error e => exact bounded
  | ok hooks => exact bounded.congr rfl rfl rfl

theorem startProgram (bounded : m.Bounded) : m.startProgram.2.Bounded := by
  obtain ⟨-, ended⟩ | ⟨-, -, ended⟩ | ⟨index, interp, -, -, -, ended⟩ := m.startProgram_cases
  · rwa [ended]
  · rwa [ended]
  · rw [ended]
    exact ((bounded.preparedFor interp).callInit interp _).finishStart

theorem runProgram (bounded : m.Bounded) : m.runProgram.Bounded := by
  have hidden := bounded.setMemory fun c => c.state.devices.hide c.ram
  cases bound : m.console.state.interpreter with
  | none => rwa [runProgram_of_absent bound]
  | some index =>
    cases present : m.interpreters[index]? with
    | none => rwa [runProgram_of_missing bound present]
    | some interp =>
      rw [runProgram_of_present bound present]
      exact hidden.runGuest interp.tick

theorem tick (bounded : m.Bounded) : m.tick.Bounded := by
  -- besides waiting or running, a frame may try a start, whatever comes of it
  have started := bounded.startProgram
  obtain ⟨-, same⟩ | ⟨-, runs⟩ | ⟨-, ⟨-, same⟩ | ⟨-, ⟨e, n, fails, same⟩ | ⟨n, starts, runs⟩⟩⟩ :=
    m.tick_cases
  · rwa [same]
  · rw [runs]
    exact bounded.runProgram
  · rwa [same]
  · rw [fails] at started
    rw [same]
    exact started.congr rfl rfl rfl
  · rw [starts] at started
    rw [runs]
    exact started.runProgram

/-! ### Frames -/

theorem beginFrame (bounded : m.Bounded) (begins : m.beginFrame = .ok n) : n.Bounded := by
  rw [beginFrame_eq] at begins
  cases moved : m.console.state.sound.beginFrame m.console.ram with
  | error cause =>
    rw [moved] at begins
    cases begins
  | ok r =>
    rw [moved] at begins
    cases begins
    -- counting the held buttons touches neither clip nor sound
    exact ⟨⟨bounded.now.clip, bounded.now.sound.beginFrame moved⟩, bounded.kept⟩

theorem endFrame (bounded : m.Bounded) : m.endFrame.Bounded :=
  ⟨⟨bounded.now.clip, bounded.now.sound.endFrame _⟩, bounded.kept⟩

theorem render (bounded : m.Bounded) : m.render.Bounded :=
  ⟨⟨bounded.now.clip, bounded.now.sound.advance⟩, bounded.kept⟩

theorem draw (bounded : m.Bounded) : m.draw.Bounded := bounded.of_moves m.moves_draw rfl

/-! ### Carts and pauses -/

theorem insertCart (bounded : m.Bounded) (cart : Cart) (phase : Phase) :
    (m.insertCart cart phase).Bounded := by
  refine ⟨bounded.now.congr rfl rfl, ?_⟩
  -- a new cart ends every pause, so no snapshot is left
  intro s none
  cases none

theorem resetWith (bounded : m.Bounded) (saveId : String) :
    (m.mapConsole fun c => Console.reset { c with saveId := saveId }).Bounded := by
  have named : { m.console with saveId := saveId }.state.Bounded := bounded.now
  exact bounded.mapConsole (Console.bounded_reset named)

theorem loadCart (bounded : m.Bounded) (cart : Cart) : (m.loadCart cart).Bounded := by
  have inserted := bounded.closeProgram.insertCart cart .initializing
  unfold Machine.loadCart
  exact (inserted.resetWith _).log _ _ _

theorem unload (bounded : m.Bounded) : m.unload.Bounded :=
  (bounded.closeProgram.insertCart .blank .unloaded).resetWith _

theorem pause (bounded : m.Bounded) : m.pause.Bounded := by
  unfold Machine.pause
  cases paused : m.paused with
  | some s => exact bounded
  | none =>
    refine ⟨bounded.now.congr rfl rfl, ?_⟩
    rintro s ⟨rfl⟩
    exact bounded.now

theorem resume (bounded : m.Bounded) : m.resume.Bounded := by
  unfold Machine.resume
  cases paused : m.paused with
  | none => exact bounded
  | some s =>
    -- the present is given up for the snapshot, which has been kept in its bounds
    refine ⟨(bounded.kept s paused).congr rfl rfl, ?_⟩
    intro t none
    cases none

theorem restoreWords (bounded : m.Bounded) (words : List UInt32) :
    (m.restoreWords words).Bounded :=
  bounded.setMemory _

theorem loadState (bounded : m.Bounded) (saved : Json) : ((m.loadState? saved).getD m).Bounded := by
  obtain same | ⟨words, restored⟩ := m.loadState_cases saved
  · rw [same]
    exact bounded
  · rw [restored]
    exact bounded.restoreWords words

theorem menu (bounded : m.Bounded) (choice : Int) : (m.menu choice).Bounded := by
  obtain same | ⟨_, called⟩ := m.menu_cases choice
  · rw [same]
    exact bounded
  · rw [called]
    exact bounded.runGuest _

theorem eval (bounded : m.Bounded) (code : String) : (m.eval code).Bounded := by
  obtain same | ⟨_, called⟩ := m.eval_cases code
  · rw [same]
    exact bounded
  · rw [called]
    exact bounded.runGuest _

theorem step {op : Op σ} (bounded : m.Bounded) (stepped : op.step m = .ok n) : n.Bounded := by
  cases op with
  | register interp => exact Except.ok.inj stepped ▸ bounded.congr rfl rfl rfl
  | loadCart cart => exact Except.ok.inj stepped ▸ bounded.loadCart cart
  | unload => exact Except.ok.inj stepped ▸ bounded.unload
  | setInput input => exact Except.ok.inj stepped ▸ bounded.setMemory fun c => input.store c.ram
  | beginFrame => exact bounded.beginFrame stepped
  | tick => exact Except.ok.inj stepped ▸ bounded.tick
  | endFrame => exact Except.ok.inj stepped ▸ bounded.endFrame
  | render => exact Except.ok.inj stepped ▸ bounded.render
  | draw => exact Except.ok.inj stepped ▸ bounded.draw
  | menu choice => exact Except.ok.inj stepped ▸ bounded.menu choice
  | eval code => exact Except.ok.inj stepped ▸ bounded.eval code
  | reset => exact Except.ok.inj stepped ▸ bounded.mapConsole (Console.bounded_reset bounded.now)
  | stepFrame =>
    obtain ⟨-, rfl⟩ | ⟨-, b, begun, rfl⟩ := step_stepFrame_inv stepped
    · exact bounded
    · exact (bounded.beginFrame begun).tick.endFrame.render.draw
  | loadState saved => exact Except.ok.inj stepped ▸ bounded.loadState saved
  | pause => exact Except.ok.inj stepped ▸ bounded.pause
  | resume => exact Except.ok.inj stepped ▸ bounded.resume
  | setClock clock => exact Except.ok.inj stepped ▸ bounded.congr rfl rfl rfl

theorem act {act : HostAct σ} (bounded : m.Bounded) (stepped : act.step m = .ok n) :
    n.Bounded := by
  cases act with
  | operate op => exact bounded.step stepped
  | call name args =>
    exact Except.ok.inj stepped ▸ bounded.of_moves (Api.moves_call name args m.console) rfl

end Bounded

theorem bounded_new (config : Config) (clock : Clock) (guest : σ) :
    (new config clock guest).Bounded where
  now := Console.bounded_reset ⟨Clip.measured_full, Sound.inRange_fresh⟩
  kept := by rintro s ⟨⟩

/-- In every machine that a session reaches, whatever its carts hold and whatever its programs and its
host call, memory and clip have their sizes and every number of the sound state is in its range. So
it is in the snapshot of a pause. -/
theorem wellFormed_session (config : Config) (clock : Clock) (guest : σ) {acts : List (HostAct σ)}
    {m : Machine σ} (performed : (new config clock guest).perform acts = .ok m) :
    WellFormed m.console.ram m.console.state ∧
      ∀ s, m.paused = some s → WellFormed s.ram s.state := by
  have bounded : m.Bounded := perform_preserves (fun _ _ _ _ kept stepped => kept.act stepped)
    (bounded_new config clock guest) performed
  exact ⟨bounded.now.wellFormed _, fun s kept => (bounded.kept s kept).wellFormed _⟩

/-- A clip that leaves the screen and an effect that is too loud, with a program that is started
twice. -/
theorem wellFormed_session_restless :
    let loaded := ((new {} {} ()).register restless).loadCart { Cart.blank with code := "x" }
    let played := (loaded.tick.mapConsole fun c =>
      (Api.call "clip" [.int (-5), .int 3, .int 1000, .int 1000] c).2).mapConsole fun c =>
      (Api.call "sfx" [.int 63, .int 40, .int 60, .int 3, .int 99, .int (-9)] c).2
    WellFormed played.pause.tick.console.ram played.pause.tick.console.state := by
  intro loaded played
  have performed : (new {} {} ()).perform [.operate (.register restless),
      .operate (.loadCart { Cart.blank with code := "x" }), .operate .tick,
      .call "clip" [.int (-5), .int 3, .int 1000, .int 1000],
      .call "sfx" [.int 63, .int 40, .int 60, .int 3, .int 99, .int (-9)],
      .operate .pause, .operate .tick] = .ok played.pause.tick := rfl
  exact (wellFormed_session {} {} () performed).1

end Machine

end FantasyConsole
