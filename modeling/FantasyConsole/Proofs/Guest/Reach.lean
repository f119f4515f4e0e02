import FantasyConsole.Proofs.Cart.Transfers
import FantasyConsole.Proofs.Guest.Moves

/-!
# What a program cannot reach

A program acts on the console through its calls only. None of them binds an interpreter, rejects the
cart or reports an error to the host, and the only one that ends a phase is `reset`, which also
forgets the hooks.

## Main result

`Guest.reaches_run`: whatever a program does, the console that it leaves is one that it could reach.

## Proof strategy

`Console.Reaches` is reflexive and transitive, so it is enough to show it for each move that a call
can come down to.
-/

namespace FantasyConsole

/-- How far the program has come, and with which interpreter and hooks. -/
structure Lifecycle where
  phase : Phase
  rejected : Bool
  interpreter : Option Nat
  hooks : HookSet
deriving DecidableEq, Repr

/-- The lifecycle after a reset. -/
def Lifecycle.reset (l : Lifecycle) : Lifecycle :=
  { l with phase := if l.phase = .unloaded then .unloaded else .initializing, hooks := {} }

/-- The lifecycle of a program that has not been started, or of no program. -/
def Lifecycle.fresh (phase : Phase) : Lifecycle := ⟨phase, false, none, {}⟩

theorem Lifecycle.reset_reset (l : Lifecycle) : l.reset.reset = l.reset := by
  unfold reset
  split <;> rfl

namespace Console

def lifecycle (c : Console) : Lifecycle :=
  ⟨c.state.phase, c.state.rejected, c.state.interpreter, c.state.hooks⟩

/-- What has been reported to the host as an error, oldest first. -/
def errors (c : Console) : List String :=
  c.outbox.toList.filterMap fun
    | .error message => some message
    | _ => none

/-- The same program goes on from console `c` to console `d`, unless it has been reset. -/
structure Continues (c d : Console) : Prop where
  lifecycle : d.lifecycle = c.lifecycle ∨ d.lifecycle = c.lifecycle.reset
  code : d.cart.code = c.cart.code
  saveId : d.saveId = c.saveId
  errors : d.errors = c.errors

theorem Continues.refl (c : Console) : Continues c c := ⟨.inl rfl, rfl, rfl, rfl⟩

theorem Continues.trans {c d e : Console} (first : Continues c d) (second : Continues d e) :
    Continues c e where
  lifecycle := by
    rcases first.lifecycle with before | before <;> rcases second.lifecycle with after | after
    · exact .inl (after.trans before)
    · exact .inr (after.trans (congrArg Lifecycle.reset before))
    · exact .inr (after.trans before)
    · right
      rw [after, before, Lifecycle.reset_reset]
  code := second.code.trans first.code
  saveId := second.saveId.trans first.saveId
  errors := second.errors.trans first.errors

theorem Continues.of_eq {c d : Console} (lifecycle : d.lifecycle = c.lifecycle)
    (code : d.cart.code = c.cart.code) (saveId : d.saveId = c.saveId)
    (outbox : d.outbox = c.outbox) : Continues c d where
  lifecycle := .inl lifecycle
  code := code
  saveId := saveId
  errors := by rw [Console.errors, Console.errors, outbox]

theorem Continues.interpreter {c d : Console} (continues : Continues c d) :
    d.state.interpreter = c.state.interpreter := by
  rcases continues.lifecycle with same | same <;> exact congrArg Lifecycle.interpreter same

theorem Continues.rejected {c d : Console} (continues : Continues c d) :
    d.state.rejected = c.state.rejected := by
  rcases continues.lifecycle with same | same <;> exact congrArg Lifecycle.rejected same

/-- A program that is given console `c` may leave console `d`. -/
structure Reaches (c d : Console) : Prop extends Continues c d where
  clock : d.clock = c.clock
  config : d.config = c.config
  start : d.start = c.start
  devices : d.state.devices = c.state.devices

theorem Reaches.refl (c : Console) : Reaches c c := ⟨.refl c, rfl, rfl, rfl, rfl⟩

theorem Reaches.trans {c d e : Console} (first : Reaches c d) (second : Reaches d e) :
    Reaches c e where
  toContinues := first.toContinues.trans second.toContinues
  clock := second.clock.trans first.clock
  config := second.config.trans first.config
  start := second.start.trans first.start
  devices := second.devices.trans first.devices

/-! ### Each operation -/

theorem errors_notify (c : Console) (n : Notice) :
    (c.notify n).errors =
      c.errors ++ (match n with | .error message => [message] | _ => []) := by
  unfold errors notify
  rw [Array.toList_push, List.filterMap_append]
  cases n <;> rfl

theorem reaches_notify (c : Console) (n : Notice) (harmless : ∀ message, n ≠ .error message) :
    Reaches c (c.notify n) := by
  have silent : (c.notify n).errors = c.errors := by
    -- only an error counts as one
    rw [errors_notify]
    cases n with
    | error message => exact absurd rfl (harmless message)
    | log | trace | exit => exact List.append_nil _
  exact ⟨⟨.inl rfl, rfl, rfl, silent⟩, rfl, rfl, rfl, rfl⟩

/-- A program may change memory, and the state apart from its lifecycle and devices. -/
theorem reaches_update (c : Console) (ram : Ram) (state : ConsoleState)
    (lifecycle : Console.lifecycle { c with ram := ram, state := state } = c.lifecycle)
    (devices : state.devices = c.state.devices) :
    Reaches c { c with ram := ram, state := state } :=
  ⟨.of_eq lifecycle rfl rfl rfl, rfl, rfl, rfl, devices⟩

theorem reaches_setRam (c : Console) (ram : Ram) : Reaches c { c with ram := ram } :=
  c.reaches_update ram c.state rfl rfl

theorem reaches_log (c : Console) (category : Log.Category) (level : Log.Level) (text : String) :
    Reaches c (c.log category level text) :=
  c.reaches_notify _ fun _ => Notice.noConfusion

private theorem reaches_restart (c : Console) (ram : Ram) (sound : Sound) :
    Reaches c { c with
      ram := ram
      state.clip := .full
      state.sound := sound
      state.hooks := {}
      state.phase := if c.state.phase = .unloaded then .unloaded else .initializing } :=
  ⟨⟨.inr rfl, rfl, rfl, rfl⟩, rfl, rfl, rfl, rfl⟩

theorem reaches_reset (c : Console) : Reaches c c.reset := by
  unfold reset
  exact c.reaches_restart _ _

theorem cart_reset (c : Console) : c.reset.cart = c.cart := by
  unfold reset
  rfl

theorem state_reset (c : Console) : c.reset.state =
    { c.state with
      clip := .full
      sound := { Sound.fresh with ring := c.state.sound.ring }
      hooks := {}
      phase := if c.state.phase = .unloaded then .unloaded else .initializing } := by
  unfold reset
  rfl

theorem lifecycle_reset (c : Console) : c.reset.lifecycle = c.lifecycle.reset := by
  simp only [lifecycle, reset, Lifecycle.reset]
  rfl

private theorem reaches_store (c : Console) (t : SyncStores) (synced : SectionSet)
    (code : t.cart.code = c.cart.code) :
    Reaches c { c with
      ram := t.ram
      cart := t.cart
      state.overlayPalette := t.overlayPalette
      state.synced := synced } :=
  ⟨.of_eq rfl code rfl rfl, rfl, rfl, rfl, rfl⟩

theorem reaches_sync (c : Console) (mask : SectionSet) (bank : Fin Cart.bankCount)
    (d : Direction) : Reaches c (c.sync mask bank d).2 := by
  unfold sync
  exact (c.reaches_store _ _ (SyncStores.follows_transferAll _ _ _ _).code).trans (reaches_log _ _ _ _)

theorem reaches_setSynced (c : Console) (synced : SectionSet) :
    Reaches c { c with state.synced := synced } :=
  c.reaches_update c.ram _ rfl rfl

private theorem reaches_showBank (c : Console) (ram : Ram) (bank : VideoBank) :
    Reaches c { c with ram := ram, state.videoBank := bank } :=
  c.reaches_update _ _ rfl rfl

theorem reaches_selectVideoBank (c : Console) (id : Int) :
    Reaches c (c.selectVideoBank id).2 := by
  unfold selectVideoBank
  cases VideoBank.ofNumber? id with
  | none => exact .refl c
  | some next =>
    dsimp only
    split
    · exact .refl c
    · exact c.reaches_showBank _ _

theorem reaches_playEffect (c : Console) (index note octave duration channel : Int)
    (left right : UInt8) (speed : Int) :
    Reaches c (c.playEffect index note octave duration channel left right speed).2 := by
  unfold playEffect
  split
  · exact c.reaches_update _ _ rfl rfl
  · exact c.reaches_log _ _ _

theorem reaches_playMusic (c : Console) (track frame row : Int) (looped sustain : Bool)
    (tempo speed : Int) : Reaches c (c.playMusic track frame row looped sustain tempo speed) := by
  unfold playMusic
  split
  · exact c.reaches_update _ _ rfl rfl
  · exact c.reaches_log _ _ _

theorem Move.reaches {c d : Console} (move : Move c d) : Reaches c d := by
  cases move with
  | notify n harmless => exact c.reaches_notify n harmless
  | memory ram => exact c.reaches_setRam ram
  | sync mask bank d => exact c.reaches_sync mask bank d
  | videoBank id => exact c.reaches_selectVideoBank id
  | clip | wholeScreen => exact c.reaches_update _ _ rfl rfl
  | effect => exact c.reaches_playEffect _ _ _ _ _ _ _ _
  | music => exact c.reaches_playMusic _ _ _ _ _ _ _
  | reset => exact c.reaches_reset
  | overlay ram palette => exact c.reaches_update _ _ rfl rfl

theorem Moves.reaches {c d : Console} (moves : Moves c d) : Reaches c d :=
  moves.preserves (fun _ _ move reached => reached.trans move.reaches) (.refl c)

end Console

/-! ### Programs -/

theorem Api.reaches_call (name : String) (args : List Value) (c : Console) :
    c.Reaches (call name args c).2 :=
  (moves_call name args c).reaches

/-- Whatever a program does, it leaves a console that it could reach. -/
theorem Guest.reaches_run {α : Type} (p : Guest α) (c : Console) : c.Reaches (p.run c).2 :=
  (p.moves_run c).reaches

end FantasyConsole
