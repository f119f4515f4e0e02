import FantasyConsole.Proofs.Machine.FailedStart
import FantasyConsole.Proofs.Machine.Session

/-!
# The time base

The time of a program is counted from the counter value at its start. A pause keeps this start, and
where the pause ends it is moved on by the length of the pause.

## Main result

`Machine.time_without_pauses`: as long as the counter never goes back, the time base stays behind it,
the end of a pause brings back memory, state and time of its beginning, and the time of a program
is the time that passed outside of pauses.

## Proof strategy

What an act of the host does to clock, start and snapshot is said once, in `Passes`. The time base is
an invariant of the present state and of the snapshot, because a start moves only to the present
counter, and the end of a pause never moves it further than that.
-/

namespace FantasyConsole

/-- Whether a call starts a program. -/
def Callback.isInit : Callback → Bool
  | init _ _ => true
  | _ => false

def startsProgram (calls : List Call) : Bool := calls.any (·.callback.isInit)

theorem startsProgram_append (h k : List Call) :
    startsProgram (h ++ k) = (startsProgram h || startsProgram k) :=
  List.any_append

theorem startsProgram_of_serves {calls : List Call}
    (serve : ∀ c ∈ calls, c.callback.Serves) : startsProgram calls = false := by
  refine List.any_eq_false.mpr fun c member started => ?_
  have serves := serve c member
  obtain ⟨index, callback⟩ := c
  cases callback with
  | init code result => exact serves.elim
  | _ => cases started

namespace Machine

variable {σ : Type}

theorem startsProgram_callsTo (m : Machine σ) {callback : Callback}
    (other : callback.isInit = false) : startsProgram (m.callsTo callback) = false := by
  refine List.any_eq_false.mpr fun c member started => ?_
  rw [callback_of_mem member, other] at started
  cases started

theorem startsProgram_drawCalls (m : Machine σ) : startsProgram m.drawCalls = false :=
  startsProgram_of_serves fun _ member => serves_of_mem_drawCalls member

/-! ### What an act does to the time -/

/-- From machine `m` to machine `n` no time passes; if a program is started, its time begins. -/
structure Elapses (begins : Bool) (m n : Machine σ) : Prop where
  clock : n.console.clock = m.console.clock
  start : n.console.start = if begins then m.console.clock.counter else m.console.start
  paused : n.paused = m.paused

theorem Reaches.elapses {m n : Machine σ} (reaches : m.Reaches n) : Elapses false m n :=
  ⟨reaches.clock, reaches.start, reaches.paused⟩

theorem Elapses.trans {first second : Bool} {m n o : Machine σ} (before : Elapses first m n)
    (after : Elapses second n o) : Elapses (first || second) m o where
  clock := after.clock.trans before.clock
  start := by
    rw [after.start, before.clock, before.start]
    cases first <;> cases second <;> rfl
  paused := after.paused.trans before.paused

theorem Elapses.reaches {begins : Bool} {m n o : Machine σ} (before : Elapses begins m n)
    (after : n.Reaches o) : Elapses begins m o :=
  Bool.or_false begins ▸ before.trans after.elapses

theorem elapses_preparedFor (m : Machine σ) (interp : Interpreter σ) :
    Elapses true m (m.preparedFor interp) where
  clock := by
    have closed := m.reaches_closeProgram.clock
    exact (reaches_loadStartupSections _).clock.trans closed
  start := by
    have closed := m.reaches_closeProgram.clock
    exact congrArg Clock.counter ((reaches_loadStartupSections _).clock.trans closed)
  paused := m.reaches_closeProgram.paused

theorem elapses_finishStart (index : Nat) (r : Except ScriptError HookSet × Machine σ) :
    Elapses false r.2 (finishStart index r).2 := by
  obtain ⟨result, m⟩ := r
  cases result <;> exact ⟨rfl, rfl, rfl⟩

theorem elapses_startProgram (m : Machine σ) :
    Elapses (startsProgram m.startCalls) m m.startProgram.2 := by
  obtain ⟨empty, ended⟩ | ⟨code, unserved, ended⟩ | ⟨index, interp, code, served, _, ended⟩ :=
    m.startProgram_cases
  · rw [startCalls, if_pos empty, ended]
    exact ⟨rfl, rfl, rfl⟩
  · rw [startCalls, if_neg code, unserved, ended]
    exact ⟨rfl, rfl, rfl⟩
  · have begins : startsProgram m.startCalls = true := by
      rw [startCalls_of_served code served, startsProgram_append]
      exact Bool.or_true _
    have called := (m.elapses_preparedFor interp).reaches
      ((m.preparedFor interp).reaches_callInit interp m.console.cart.code)
    rw [begins, ended]
    exact called.trans (elapses_finishStart index _)

theorem elapses_tick (m : Machine σ) : Elapses (startsProgram m.tickCalls) m m.tick := by
  have started := m.elapses_startProgram
  obtain ⟨same, calls⟩ | ⟨_, runs, calls⟩ | ⟨_, _, ⟨e, n, fails, same, calls⟩ |
    ⟨n, succeeds, runs, calls⟩⟩ := m.tick_calls_cases
  · rw [same, calls]
    exact (Reaches.refl m).elapses
  · rw [runs, calls, m.startsProgram_callsTo rfl]
    exact m.reaches_runProgram.elapses
  -- a start that fails has moved the time base, too
  · rw [fails] at started
    rw [same, calls]
    exact ⟨started.clock, started.start, started.paused⟩
  · rw [succeeds] at started
    rw [runs, calls, startsProgram_append, n.startsProgram_callsTo rfl, Bool.or_false]
    exact started.reaches n.reaches_runProgram

theorem elapses_frame (m : Machine σ) :
    Elapses (startsProgram (m.tickCalls ++ m.tick.endFrame.render.drawCalls)) m
      m.tick.endFrame.render.draw := by
  rw [startsProgram_append, startsProgram_drawCalls, Bool.or_false]
  exact m.elapses_tick.reaches m.tick.reaches_finishFrame

theorem elapses_of_goesOn {op : Op σ} {m n : Machine σ} (goesOn : op.goesOn = true)
    (stepped : op.step m = .ok n) : Elapses (startsProgram (op.calls m)) m n := by
  rw [startsProgram_of_serves fun c member => Op.serves_of_goesOn goesOn member]
  exact (reaches_step goesOn stepped).elapses

/-- The counter value that the clock shows from an act on, if the act is one of the clock. -/
def HostAct.reading? : HostAct σ → Option UInt64
  | operate (.setClock clock) => some clock.counter
  | _ => none

/-- Whether an act calls the start function of an interpreter. -/
def HostAct.starts (m : Machine σ) : HostAct σ → Bool
  | operate op => startsProgram (op.calls m)
  | call _ _ => false

/-- Whether an act puts another cart, or none, in the place of the present one. -/
def HostAct.InsertsCart : HostAct σ → Prop
  | operate (.loadCart _) | operate .unload => True
  | _ => False

@[simp]
theorem clock_pause (m : Machine σ) : m.pause.console.clock = m.console.clock := by
  unfold pause
  split <;> rfl

@[simp]
theorem isPaused_pause (m : Machine σ) : m.pause.isPaused = true := by
  unfold pause
  split
  case h_1 s paused => rw [isPaused, paused]; rfl
  case h_2 => rfl

@[simp]
theorem clock_resume (m : Machine σ) : m.resume.console.clock = m.console.clock := by
  unfold resume
  split <;> rfl

theorem paused_resume (m : Machine σ) : m.resume.paused = none := by
  unfold resume
  split
  case h_1 active => exact active
  case h_2 => rfl

@[simp]
theorem isPaused_resume (m : Machine σ) : m.resume.isPaused = false :=
  congrArg Option.isSome m.paused_resume

@[simp]
theorem clock_tick (m : Machine σ) : m.tick.console.clock = m.console.clock :=
  m.elapses_tick.clock

@[simp]
theorem isPaused_tick (m : Machine σ) : m.tick.isPaused = m.isPaused :=
  congrArg Option.isSome m.elapses_tick.paused

theorem paused_mapConsole (m : Machine σ) (f : Console → Console) :
    (m.mapConsole f).paused = m.paused :=
  rfl

@[simp]
theorem isPaused_mapConsole (m : Machine σ) (f : Console → Console) :
    (m.mapConsole f).isPaused = m.isPaused :=
  rfl

@[simp]
theorem isPaused_reset (m : Machine σ) : m.reset.isPaused = m.isPaused := by
  simp only [reset, isPaused_mapConsole]

@[simp]
theorem clock_mapConsole (m : Machine σ) (f : Console → Console) :
    (m.mapConsole f).console.clock = (f m.console).clock :=
  rfl

/-- What an act does to clock, start and snapshot. -/
inductive Passes (m : Machine σ) : HostAct σ → Machine σ → Prop
  | clock (clock : Clock) :
      Passes m (.operate (.setClock clock)) (m.mapConsole fun c => { c with clock := clock })
  | pause (active : m.paused = none) : Passes m (.operate .pause) m.pause
  | resume {s : Snapshot} (paused : m.paused = some s) : Passes m (.operate .resume) m.resume
  | inserts {act : HostAct σ} {n : Machine σ} (inserts : act.InsertsCart)
      (untimed : act.reading? = none) (clock : n.console.clock = m.console.clock)
      (start : n.console.start = m.console.start) (paused : n.paused = none) : Passes m act n
  | elapses {act : HostAct σ} {n : Machine σ} (kept : ¬ act.InsertsCart)
      (untimed : act.reading? = none) (elapses : Elapses (act.starts m) m n) : Passes m act n

theorem Inserts.passes {phase : Phase} {cart : Cart} {act : HostAct σ} {m n : Machine σ}
    (inserted : Inserts phase cart m n) (inserts : act.InsertsCart)
    (untimed : act.reading? = none) : Passes m act n :=
  .inserts inserts untimed inserted.clock inserted.start inserted.paused

theorem passes_step {act : HostAct σ} {m n : Machine σ} (stepped : act.step m = .ok n) :
    Passes m act n := by
  cases act with
  | call name args => exact .elapses id rfl (reaches_call stepped).elapses
  | operate op =>
    cases op with
    | setClock clock => exact Except.ok.inj stepped ▸ .clock clock
    | loadCart cart =>
      exact Except.ok.inj stepped ▸ (m.inserts_loadCart cart).passes trivial rfl
    | unload => exact Except.ok.inj stepped ▸ m.inserts_unload.passes trivial rfl
    | pause =>
      rw [← Except.ok.inj stepped]
      cases paused : m.paused with
      | none => exact .pause paused
      -- a pause within a pause is none
      | some s =>
        have same : m.pause = m := by rw [pause, paused]
        rw [same]
        exact .elapses id rfl (Reaches.refl m).elapses
    | resume =>
      rw [← Except.ok.inj stepped]
      cases paused : m.paused with
      | some s => exact .resume paused
      | none =>
        have same : m.resume = m := by rw [resume, paused]
        rw [same]
        exact .elapses id rfl (Reaches.refl m).elapses
    | register interp =>
      rw [← Except.ok.inj stepped]
      exact .elapses id rfl ⟨rfl, rfl, rfl⟩
    | tick => exact Except.ok.inj stepped ▸ .elapses id rfl m.elapses_tick
    | stepFrame =>
      refine .elapses id rfl ?_
      obtain ⟨unloaded, rfl⟩ | ⟨loaded, b, begun, rfl⟩ := step_stepFrame_inv stepped
      · rw [HostAct.starts, Op.calls, if_pos unloaded]
        exact (Reaches.refl n).elapses
      · rw [HostAct.starts, Op.calls, if_neg loaded, begun]
        exact (reaches_beginFrame begun).elapses.trans b.elapses_frame
    | _ => exact .elapses id rfl (elapses_of_goesOn rfl stepped)

/-! ### The time base stays behind the counter -/

/-- The counter values that the clock shows in a session, in order. -/
def readings (acts : List (HostAct σ)) : List UInt64 := acts.filterMap HostAct.reading?

def Advances (m : Machine σ) (acts : List (HostAct σ)) : Prop :=
  (m.console.clock.counter :: readings acts).Pairwise (· ≤ ·)

theorem Passes.advances {act : HostAct σ} {acts : List (HostAct σ)} {m n : Machine σ}
    (passes : Passes m act n) (advances : m.Advances (act :: acts)) :
    m.console.clock.counter ≤ n.console.clock.counter ∧ n.Advances acts := by
  unfold Advances readings at advances ⊢
  cases passes with
  | clock clock =>
    obtain ⟨forward, onward⟩ := List.pairwise_cons.mp advances
    exact ⟨forward _ List.mem_cons_self, onward⟩
  | pause =>
    rw [clock_pause]
    exact ⟨UInt64.le_refl _, advances⟩
  | resume =>
    rw [clock_resume]
    exact ⟨UInt64.le_refl _, advances⟩
  | inserts _ untimed clock =>
    rw [List.filterMap_cons_none untimed] at advances
    rw [clock]
    exact ⟨UInt64.le_refl _, advances⟩
  | elapses _ untimed elapses =>
    rw [List.filterMap_cons_none untimed] at advances
    rw [elapses.clock]
    exact ⟨UInt64.le_refl _, advances⟩

theorem advances_append {before after : List (HostAct σ)} {m n : Machine σ}
    (advances : m.Advances (before ++ after)) (performed : m.perform before = .ok n) :
    m.Advances before ∧ n.Advances after := by
  induction before generalizing m with
  | nil =>
    cases performed
    exact ⟨List.pairwise_singleton _ _, advances⟩
  | cons act rest ih =>
    obtain ⟨next, stepped, later⟩ := perform_cons_inv performed
    obtain ⟨forward, onward⟩ := (passes_step stepped).advances advances
    refine ⟨?_, (ih onward later).2⟩
    -- the readings of the first part are among those of the whole
    have part := (List.prefix_append (act :: rest) after).filterMap HostAct.reading?
    exact List.Pairwise.sublist (part.sublist.cons_cons _) advances

/-- The time base of the program is not ahead of the counter, and the one that a pause keeps was not
ahead of it when the pause began. -/
structure TimeBase (m : Machine σ) : Prop where
  start_le : m.console.start ≤ m.console.clock.counter
  kept : ∀ s, m.paused = some s → s.start ≤ s.pausedAt ∧ s.pausedAt ≤ m.console.clock.counter

/-- Machine `n` is machine `m` with what the snapshot `s` keeps, and with a later time base. -/
structure Resumes (s : Snapshot) (m n : Machine σ) : Prop where
  state : n.console.state = s.state
  ram : n.console.ram = s.ram
  clock : n.console.clock = m.console.clock
  paused : n.paused = none
  start : n.console.start.toNat =
    s.start.toNat + (m.console.clock.counter.toNat - s.pausedAt.toNat)

theorem toNat_add_away {start pausedAt now : UInt64} (behind : start ≤ pausedAt)
    (forward : pausedAt ≤ now) :
    (start + if now ≤ pausedAt then 0 else now - pausedAt).toNat =
      start.toNat + (now.toNat - pausedAt.toNat) := by
  have away : (if now ≤ pausedAt then 0 else now - pausedAt).toNat =
      now.toNat - pausedAt.toNat := by
    split
    case isTrue back => exact (Nat.sub_eq_zero_of_le (UInt64.le_iff_toNat_le.mp back)).symm
    case isFalse => exact UInt64.toNat_sub_of_le _ _ forward
  -- the sum is at most the present counter value, so it does not overflow
  have inside := now.toNat_lt
  rw [UInt64.le_iff_toNat_le] at behind forward
  rw [UInt64.toNat_add, away]
  exact Nat.mod_eq_of_lt (by omega)

theorem TimeBase.resumes {m : Machine σ} {s : Snapshot} (base : m.TimeBase)
    (paused : m.paused = some s) : Resumes s m m.resume := by
  obtain ⟨behind, forward⟩ := base.kept s paused
  rw [resume, paused]
  exact ⟨rfl, rfl, rfl, rfl, toNat_add_away behind forward⟩

theorem Passes.timeBase {act : HostAct σ} {m n : Machine σ} (passes : Passes m act n)
    (base : m.TimeBase) (forward : m.console.clock.counter ≤ n.console.clock.counter) :
    n.TimeBase := by
  have behind := base.start_le
  cases passes with
  | clock clock =>
    constructor
    · exact UInt64.le_trans behind forward
    · exact fun s kept => ⟨(base.kept s kept).1, UInt64.le_trans (base.kept s kept).2 forward⟩
  | pause active =>
    rw [Machine.pause, active]
    constructor
    · exact behind
    · rintro s ⟨⟩
      exact ⟨behind, UInt64.le_refl _⟩
  | @resume s paused =>
    -- the time base is moved on by less than the counter has moved on
    have resumed := base.resumes paused
    obtain ⟨before, after⟩ := base.kept s paused
    constructor
    · rw [UInt64.le_iff_toNat_le] at before after ⊢
      rw [resumed.start, resumed.clock]
      omega
    · intro t kept
      rw [resumed.paused] at kept
      cases kept
  | inserts _ _ clock start paused =>
    constructor
    · rw [start, clock]
      exact behind
    · intro s kept
      rw [paused] at kept
      cases kept
  | elapses _ _ elapses =>
    constructor
    · rw [elapses.start, elapses.clock]
      split
      · exact UInt64.le_refl _
      · exact behind
    · rw [elapses.paused, elapses.clock]
      exact base.kept

theorem timeBase_perform {acts : List (HostAct σ)} {m n : Machine σ} (base : m.TimeBase)
    (advances : m.Advances acts) (performed : m.perform acts = .ok n) :
    n.TimeBase ∧ m.console.clock.counter ≤ n.console.clock.counter := by
  induction acts generalizing m with
  | nil =>
    cases performed
    exact ⟨base, UInt64.le_refl _⟩
  | cons act rest ih =>
    obtain ⟨next, stepped, later⟩ := perform_cons_inv performed
    have passes := passes_step stepped
    obtain ⟨forward, onward⟩ := passes.advances advances
    obtain ⟨last, further⟩ := ih (passes.timeBase base forward) onward later
    exact ⟨last, UInt64.le_trans forward further⟩

theorem TimeBase.append {before after : List (HostAct σ)} {m n : Machine σ} (base : m.TimeBase)
    (advances : m.Advances (before ++ after)) (performed : m.perform before = .ok n) :
    n.TimeBase ∧ n.Advances after := by
  obtain ⟨begun, onward⟩ := advances_append advances performed
  exact ⟨(timeBase_perform base begun performed).1, onward⟩

theorem timeBase_new (config : Config) (clock : Clock) (guest : σ) :
    (new config clock guest).TimeBase where
  start_le := UInt64.zero_le
  kept := by rintro s ⟨⟩

/-! ### A pause brings back its beginning -/

theorem paused_perform {acts : List (HostAct σ)} {m n : Machine σ} {s : Snapshot}
    (lasts : ∀ act ∈ acts, ¬ act.InsertsCart ∧ act ≠ .operate .resume)
    (paused : m.paused = some s) (performed : m.perform acts = .ok n) : n.paused = some s := by
  have step : ∀ act ∈ acts, ∀ o p : Machine σ, o.paused = some s → act.step o = .ok p →
      p.paused = some s := by
    intro act member o p paused stepped
    cases passes_step stepped with
    | clock clock => exact paused
    | pause active => cases active.symm.trans paused
    | resume => exact absurd rfl (lasts _ member).2
    | inserts inserts => exact absurd inserts (lasts _ member).1
    | elapses _ _ elapses => exact elapses.paused.trans paused
  exact perform_preserves step paused performed

theorem TimeBase.after_pause {between : List (HostAct σ)} {m n : Machine σ} (base : m.TimeBase)
    (active : m.paused = none)
    (lasts : ∀ act ∈ between, ¬ act.InsertsCart ∧ act ≠ .operate .resume)
    (advances : m.Advances (.operate .pause :: (between ++ [.operate .resume])))
    (performed : m.perform (.operate .pause :: (between ++ [.operate .resume])) = .ok n) :
    n.console.ram = m.console.ram ∧ n.console.state = m.console.state ∧
      n.console.clock.counter - n.console.start = m.console.clock.counter - m.console.start := by
  -- the pause begins on `m`, lasts until `o`, and ends there
  obtain ⟨b, begins, later⟩ := perform_cons_inv performed
  obtain ⟨o, lasted, last⟩ := perform_append_inv later
  obtain ⟨e, ends, done⟩ := perform_cons_inv last
  obtain rfl := Except.ok.inj begins
  obtain rfl := Except.ok.inj ends
  obtain rfl := Except.ok.inj done
  have paused : m.pause.paused =
      some ⟨m.console.state, m.console.ram, m.console.start, m.console.clock.counter⟩ := by
    rw [pause, active]
    rfl
  have begun : Passes m (.operate .pause) m.pause := .pause active
  obtain ⟨stays, onward⟩ := begun.advances advances
  obtain ⟨ready, passed⟩ :=
    timeBase_perform (begun.timeBase base stays) (advances_append onward lasted).1 lasted
  have kept := paused_perform lasts paused lasted
  have resumed := ready.resumes kept
  have ended := (Passes.resume kept).timeBase ready (resumed.clock ▸ UInt64.le_refl _)
  refine ⟨resumed.ram, resumed.state, ?_⟩
  -- the time base is moved on by what the counter has moved on since the pause began
  have behind := UInt64.le_iff_toNat_le.mp base.start_le
  have forward := UInt64.le_iff_toNat_le.mp (UInt64.le_trans stays passed)
  rw [← UInt64.toNat_inj, UInt64.toNat_sub_of_le _ _ ended.start_le,
    UInt64.toNat_sub_of_le _ _ base.start_le, resumed.start, resumed.clock]
  dsimp only
  omega

/-! ### The time of the program -/

/-- The time that the program has seen, in a pause the time that it had seen when the pause began. -/
def seen (m : Machine σ) : Nat :=
  match m.paused with
  | none => m.console.clock.counter.toNat - m.console.start.toNat
  | some s => s.pausedAt.toNat - s.start.toNat

/-- The time of the program after an act that leads from machine `m` to machine `n`: in a pause it
stands still, otherwise a start resets it and the counter moves it on. -/
def HostAct.timeAfter (act : HostAct σ) (m n : Machine σ) (time : Nat) : Nat :=
  if m.isPaused then time
  else if act.starts m then 0
  else time + (n.console.clock.counter.toNat - m.console.clock.counter.toNat)

/-- The time of the program after a session, the time of pauses left out. -/
def activeTime (m : Machine σ) (time : Nat) : List (HostAct σ) → Nat
  | [] => time
  | act :: acts =>
    match act.step m with
    | .ok n => n.activeTime (act.timeAfter m n time) acts
    | .error _ => time

theorem Passes.seen_eq {act : HostAct σ} {m n : Machine σ} (passes : Passes m act n)
    (base : m.TimeBase) (kept : ¬ act.InsertsCart)
    (forward : m.console.clock.counter ≤ n.console.clock.counter) :
    n.seen = act.timeAfter m n m.seen := by
  have behind := UInt64.le_iff_toNat_le.mp base.start_le
  have onward := UInt64.le_iff_toNat_le.mp forward
  cases passes with
  | clock clock =>
    -- the counter moves the time on, except in a pause
    have unstarted : (HostAct.operate (.setClock clock)).starts m = false := rfl
    cases paused : m.paused with
    | none =>
      simp only [seen, HostAct.timeAfter, isPaused, mapConsole, paused, unstarted] at onward ⊢
      simp only [Option.isSome_none, Bool.false_eq_true, if_false]
      omega
    | some s => simp [seen, HostAct.timeAfter, isPaused, mapConsole, paused]
  | pause active =>
    have unstarted : (HostAct.operate .pause).starts m = false := rfl
    rw [Machine.pause, active]
    simp [seen, HostAct.timeAfter, isPaused, active, unstarted, mapConsole, Console.log,
      Console.notify]
  | @resume s paused =>
    have resumed := base.resumes paused
    obtain ⟨before, after⟩ := base.kept s paused
    rw [UInt64.le_iff_toNat_le] at before after
    -- the length of the pause is taken from the counter and from the time base alike
    simp only [seen, HostAct.timeAfter, isPaused, paused, resumed.paused, resumed.clock,
      resumed.start, Option.isSome_some, if_true]
    omega
  | inserts inserts => exact absurd inserts kept
  | elapses _ _ elapses =>
    simp only [seen, HostAct.timeAfter, isPaused, elapses.paused, elapses.clock, elapses.start]
    cases m.paused with
    | none => cases act.starts m <;> simp
    | some s => simp

theorem seen_perform {acts : List (HostAct σ)} {m n : Machine σ} (base : m.TimeBase)
    (advances : m.Advances acts) (kept : ∀ act ∈ acts, ¬ act.InsertsCart)
    (performed : m.perform acts = .ok n) : n.seen = m.activeTime m.seen acts := by
  induction acts generalizing m with
  | nil =>
    cases performed
    rfl
  | cons act rest ih =>
    obtain ⟨next, stepped, later⟩ := perform_cons_inv performed
    have passes := passes_step stepped
    obtain ⟨forward, onward⟩ := passes.advances advances
    rw [activeTime, stepped]
    dsimp only
    rw [← passes.seen_eq base (kept act List.mem_cons_self) forward]
    exact ih (passes.timeBase base forward) onward
      (fun act member => kept act (List.mem_cons_of_mem _ member)) later

theorem TimeBase.toNat_elapsed {m : Machine σ} (base : m.TimeBase) :
    m.console.elapsed.toNat = m.console.clock.counter.toNat - m.console.start.toNat := by
  unfold Console.elapsed
  split
  case isTrue back => exact (Nat.sub_eq_zero_of_le (UInt64.le_iff_toNat_le.mp back)).symm
  case isFalse => exact UInt64.toNat_sub_of_le _ _ base.start_le

theorem TimeBase.elapsed_eq {m : Machine σ} (base : m.TimeBase) (active : m.paused = none) :
    m.console.elapsed.toNat = m.seen := by
  rw [base.toNat_elapsed, seen, active]

/-! ### Sessions with pauses -/

/-- As long as the counter never goes back, three things hold after a session. The time base is not
ahead of the counter, and a pause that ends now does not make it overflow. If the last act ends a
pause, memory, state and time are those of the moment before the pause began. And since any moment
outside of pauses, the time of the program has passed outside of pauses only. -/
theorem time_without_pauses (config : Config) (clock : Clock) (guest : σ)
    {acts : List (HostAct σ)} {m : Machine σ}
    (forward : (clock.counter :: readings acts).Pairwise (· ≤ ·))
    (performed : (new config clock guest).perform acts = .ok m) :
    (m.console.start ≤ m.console.clock.counter ∧
      ∀ s, m.paused = some s → s.pausedAt ≤ m.console.clock.counter ∧
        s.start.toNat + (m.console.clock.counter - s.pausedAt).toNat < UInt64.size) ∧
    (∀ before between, acts = before ++ .operate .pause :: (between ++ [.operate .resume]) →
      (∀ act ∈ between, ¬ act.InsertsCart ∧ act ≠ .operate .resume) →
      ∀ p, (new config clock guest).perform before = .ok p → p.paused = none →
        m.console.ram = p.console.ram ∧ m.console.state = p.console.state ∧
          m.console.clock.counter - m.console.start = p.console.clock.counter - p.console.start) ∧
    ∀ before after, acts = before ++ after → (∀ act ∈ after, ¬ act.InsertsCart) →
      ∀ p, (new config clock guest).perform before = .ok p → p.paused = none → m.paused = none →
        m.console.elapsed.toNat = p.activeTime p.console.elapsed.toNat after := by
  have advances : (new config clock guest).Advances acts := forward
  have fresh := timeBase_new config clock guest
  have base := (timeBase_perform fresh advances performed).1
  refine ⟨⟨base.start_le, ?overflow⟩, ?fidelity, ?time⟩
  case overflow =>
    intro s paused
    obtain ⟨behind, onward⟩ := base.kept s paused
    refine ⟨onward, ?_⟩
    have inside := m.console.clock.counter.toNat_lt_size
    rw [UInt64.toNat_sub_of_le _ _ onward]
    rw [UInt64.le_iff_toNat_le] at behind onward
    omega
  case fidelity =>
    intro before between parts lasts p first active
    subst parts
    obtain ⟨based, onward⟩ := fresh.append advances first
    exact based.after_pause active lasts onward (perform_rest first performed)
  case time =>
    -- outside of pauses the time that has been seen is the time that has elapsed
    intro before after parts kept p first active ended
    subst parts
    obtain ⟨based, onward⟩ := fresh.append advances first
    rw [base.elapsed_eq ended, based.elapsed_eq active]
    exact seen_perform based onward kept (perform_rest first performed)

/-- A session in which the program is paused at counter value 15, reset and started again in the
pause, and resumed at 45. -/
def resetInPause : List (HostAct Unit) :=
  let wait (counter : UInt64) := .operate (.setClock { counter := counter })
  [wait 15, .operate .pause, .operate .reset, wait 40, .operate .tick, wait 45, .operate .resume,
    wait 52]

theorem activeTime_resetInPause {p : Machine Unit} (active : p.isPaused = false)
    (counter : p.console.clock.counter = 5) (time : Nat) :
    p.activeTime time resetInPause = time + 10 + 7 := by
  have wait (clock : Clock) (m : Machine Unit) :
      (HostAct.operate (.setClock clock)).starts m = false := rfl
  have pause (m : Machine Unit) : (HostAct.operate .pause).starts m = false := rfl
  simp [resetInPause, activeTime, HostAct.step, Op.step, HostAct.timeAfter, active, counter, wait,
    pause]

/-- A program that goes into this session at 5 has run for 10 + 7 counts more when it comes out. -/
theorem time_without_pauses_reset :
    let cart : Cart := { Cart.blank with code := "x" }
    let prepared : List (HostAct Unit) := [.operate (.setClock { counter := 5 }),
      .operate (.register restless), .operate (.loadCart cart), .operate .tick]
    ∃ p m, (new {} {} ()).perform prepared = .ok p ∧ p.perform resetInPause = .ok m ∧
      m.console.elapsed.toNat = p.console.elapsed.toNat + 10 + 7 := by
  intro cart prepared
  have forward : (0 :: readings (prepared ++ resetInPause)).Pairwise (· ≤ ·) := by
    change [(0 : UInt64), 5, 15, 40, 45, 52].Pairwise (· ≤ ·)
    decide
  let loaded := (((new {} {} ()).mapConsole fun c => { c with clock := { counter := 5 } }).register
    restless).loadCart cart
  have counter : loaded.tick.console.clock.counter = 5 :=
    congrArg Clock.counter (loaded.clock_tick.trans (inserts_loadCart _ cart).clock)
  have active : loaded.tick.paused = none := loaded.elapses_tick.paused
  have kept : ∀ act ∈ resetInPause, ¬ act.InsertsCart := by simp [resetInPause, HostAct.InsertsCart]
  obtain ⟨-, -, timed⟩ := time_without_pauses {} {} () forward rfl
  refine ⟨loaded.tick, _, rfl, rfl, ?_⟩
  refine (timed prepared resetInPause rfl kept loaded.tick rfl active ?_).trans ?_
  · rw [paused_mapConsole, paused_resume]
  · exact activeTime_resetInPause (by rw [isPaused, active]; rfl) counter _

end Machine

end FantasyConsole
