import FantasyConsole.Proofs.Machine.Reach

/-!
# Recording the calls of a run

Which functions of which interpreter a machine calls cannot be seen from the machine. An interpreter
can be made to write down each call in the state that the interpreters share; a machine with such
interpreters does what it does without them, and in the end its guest state holds the history of the
run.

## Main result

`Machine.run_recorded`: a run with recording interpreters ends like the run without them, with a
history that is the concatenation of what `Op.calls` says of each operation.

## Proof strategy

Recording is pushed through the definition of each operation, from the single guest program outwards.
Where a function of an interpreter is called, one entry is added; where a loop calls hooks, the
entries of its rounds are added in order.
-/

namespace FantasyConsole

/-- What an interpreter is called for. A call of `init` counts as started if it returned hooks. -/
inductive Callback where
  | init (code : String) (started : Bool)
  | close
  | tick
  | scanline (row : Int)
  | border (row : Int)
  | overline
  | menu (index : Int)
  | eval (code : String)
deriving DecidableEq, Repr

/-- A call of an interpreter, which is known by its place among the interpreters. -/
structure Call where
  interpreter : Nat
  callback : Callback
deriving DecidableEq, Repr

variable {σ : Type}

/-! ### Recording interpreters -/

namespace Interpreter

/-- A function of an interpreter that also writes down the call. -/
def record (index : Nat) (callback : Callback) (program : σ → Guest σ) (s : σ × List Call) :
    Guest (σ × List Call) :=
  (program s.1).bind fun guest => .done (guest, s.2 ++ [⟨index, callback⟩])

/-- An interpreter that writes down every call and otherwise does what it did. -/
def recorded (interp : Interpreter σ) (index : Nat) : Interpreter (σ × List Call) where
  names := interp.names
  comment := interp.comment
  init code s := (interp.init code s.1).bind fun r =>
    .done (r.1, r.2, s.2 ++ [⟨index, .init code r.1.isOk⟩])
  close := record index .close interp.close
  tick := record index .tick interp.tick
  scanline row := record index (.scanline row) (interp.scanline row)
  border row := record index (.border row) (interp.border row)
  overline := record index .overline interp.overline
  menu choice := record index (.menu choice) (interp.menu choice)
  eval code := record index (.eval code) (interp.eval code)
  outline := interp.outline

theorem run_record (index : Nat) (callback : Callback) (program : σ → Guest σ) (guest : σ)
    (h : List Call) (c : Console) :
    (record index callback program (guest, h)).run c =
      ((((program guest).run c).1, h ++ [⟨index, callback⟩]), ((program guest).run c).2) :=
  Guest.run_bind _ _ c

theorem select?_recorded (interpreters : Array (Interpreter σ)) (code : String) :
    select? (interpreters.mapIdx fun i interp => interp.recorded i) code =
      select? interpreters code := by
  have named : (interpreters.mapIdx fun i interp => interp.recorded i).findIdx?
      (·.isNamedBy code) = interpreters.findIdx? (·.isNamedBy code) := by
    refine Option.ext fun i => ?_
    simp only [Array.findIdx?_eq_some_iff_getElem, Array.size_mapIdx, Array.getElem_mapIdx]
    rfl
  have empty : (interpreters.mapIdx fun i interp => interp.recorded i).isEmpty =
      interpreters.isEmpty := by
    simp only [Array.isEmpty, Array.size_mapIdx]
  unfold select?
  rw [named, empty]

end Interpreter

/-! ### Recording hooks -/

namespace Raster

/-- The state of a hook, with a history beside it. -/
def withHistory (h : List Call) (s : σ × Console) : (σ × List Call) × Console := ((s.1, h), s.2)

/-- A hook that also writes down given calls; if there is none, there are no calls. -/
inductive Records :
    Option ((σ × List Call) × Console → (σ × List Call) × Console) →
      Option (σ × Console → σ × Console) → List Call → Prop
  | absent : Records none none []
  | present {F f new} (same : ∀ h s, F (withHistory h s) = withHistory (h ++ new) (f s)) :
      Records (some F) (some f) new

theorem Records.callHook {F : Option ((σ × List Call) × Console → (σ × List Call) × Console)}
    {f : Option (σ × Console → σ × Console)} {new : List Call} (records : Records F f new)
    (h : List Call) (s : σ × Console) :
    callHook F (withHistory h s) = withHistory (h ++ new) (callHook f s) := by
  cases records with
  | absent => rw [List.append_nil]; rfl
  | present same => exact same h s

/-- The functions that are called before row `row` of the full frame. -/
def rowCallbacks (bound : HookSet) (row : Nat) : List Callback :=
  (if bound.border then [.border row] else []) ++
    (if IsVisible row ∧ Screen.top < row then
      if bound.scanline then [.scanline (row - Screen.top : Nat)] else []
    else
      [])

/-- The functions that are called while a frame is drawn. -/
def frameCallbacks (bound : HookSet) : List Callback :=
  (if bound.scanline then [.scanline 0] else []) ++
    ((List.range Screen.fullHeight).flatMap (rowCallbacks bound) ++
      if bound.overline then [.overline] else [])

/-- The hooks of one interpreter, recording and not. -/
structure HooksRecord (index : Nat) (bound : HookSet) (H : Hooks (σ × List Call))
    (hooks : Hooks σ) : Prop where
  scanline : ∀ row, Records (H.scanline.map (· row)) (hooks.scanline.map (· row))
    ((if bound.scanline then [.scanline row] else []).map (⟨index, ·⟩))
  border : ∀ row, Records (H.border.map (· row)) (hooks.border.map (· row))
    ((if bound.border then [.border row] else []).map (⟨index, ·⟩))
  overline : Records H.overline hooks.overline
    ((if bound.overline then [.overline] else []).map (⟨index, ·⟩))

variable {index : Nat} {bound : HookSet} {H : Hooks (σ × List Call)} {hooks : Hooks σ}

theorem drawRow_recorded (records : HooksRecord index bound H hooks) (row : Nat) (h : List Call)
    (s : σ × Console) (frame : Frame) :
    drawRow H row (withHistory h s, frame) =
      (withHistory (h ++ (rowCallbacks bound row).map (⟨index, ·⟩))
        (drawRow hooks row (s, frame)).1, (drawRow hooks row (s, frame)).2) := by
  have border := (records.border row).callHook h s
  have scanline := (records.scanline (row - Screen.top : Nat)).callHook
  simp only [drawRow, border, rowCallbacks, List.map_append]
  -- the first visible row has had its hook before the border of row 0
  by_cases inside : IsVisible row ∧ Screen.top < row
  · simp only [if_pos inside, scanline, List.append_assoc]
    rfl
  · simp only [if_neg inside, List.map_nil, List.append_nil]
    rfl

theorem drawRows_recorded (records : HooksRecord index bound H hooks) (rows : Nat) (h : List Call)
    (s : σ × Console) (frame : Frame) :
    rows.fold (fun row _ s => drawRow H row s) (withHistory h s, frame) =
      (withHistory (h ++ ((List.range rows).flatMap (rowCallbacks bound)).map (⟨index, ·⟩))
        (rows.fold (fun row _ s => drawRow hooks row s) (s, frame)).1,
        (rows.fold (fun row _ s => drawRow hooks row s) (s, frame)).2) := by
  induction rows with
  | zero => simp
  | succ rows ih =>
    rw [Nat.fold_succ, Nat.fold_succ, ih, drawRow_recorded records, List.range_succ,
      List.flatMap_append, List.map_append, List.flatMap_singleton, List.append_assoc]

theorem endPass_withHistory (finish : Console → Console) (compose : Console → Frame)
    (h : List Call) (s : σ × Console) :
    endPass finish compose (withHistory h s) =
      (withHistory h (endPass finish compose s).1, (endPass finish compose s).2) :=
  rfl

theorem drawOverlay_recorded {F : (σ × List Call) × Console → (σ × List Call) × Console}
    {f : σ × Console → σ × Console} {new : List Call}
    (same : ∀ h s, F (withHistory h s) = withHistory (h ++ new) (f s)) (h : List Call)
    (s : σ × Console) (frame : Frame) :
    drawOverlay F (withHistory h s, frame) =
      (withHistory (h ++ new) (drawOverlay f (s, frame)).1, (drawOverlay f (s, frame)).2) := by
  have called : F ((s.1, h), prepareOverlay s.2) =
      withHistory (h ++ new) (f (s.1, prepareOverlay s.2)) := same h (s.1, prepareOverlay s.2)
  rw [drawOverlay_eq, drawOverlay_eq, ← endPass_withHistory, ← called]
  simp only [withHistory]

theorem draw_recorded (records : HooksRecord index bound H hooks) (h : List Call) (s : σ × Console)
    (frame : Frame) :
    draw H (s.1, h) s.2 frame =
      (withHistory (h ++ (frameCallbacks bound).map (⟨index, ·⟩)) (draw hooks s.1 s.2 frame).1,
        (draw hooks s.1 s.2 frame).2) := by
  have first : callHook (H.scanline.map (· 0)) ((s.1, h), s.2) =
      withHistory (h ++ (if bound.scanline then [.scanline 0] else []).map (⟨index, ·⟩))
        (callHook (hooks.scanline.map (· 0)) (s.1, s.2)) := (records.scanline 0).callHook h s
  have last := records.overline
  simp only [draw, first, drawRows_recorded records, frameCallbacks, List.map_append]
  -- the pass is made exactly where the hook is bound
  generalize H.overline = F, hooks.overline = f,
    List.map _ (if bound.overline then [Callback.overline] else []) = new at last ⊢
  cases last with
  | absent => simp only [List.append_nil, List.append_assoc]
  | present same =>
    simp only [drawOverlay_recorded same, List.append_assoc]

end Raster

/-! ### The calls of each operation -/

namespace Machine

/-- The interpreter that a machine calls. -/
def live (m : Machine σ) : Option Nat :=
  m.console.state.interpreter.filter (· < m.interpreters.size)

/-- The calls that deliver a callback, if there is an interpreter to deliver it to. -/
def callsTo (m : Machine σ) (callback : Callback) : List Call := m.live.toList.map (⟨·, callback⟩)

/-- The calls with which a program is started. A program that was reset is closed first. -/
def startCalls (m : Machine σ) : List Call :=
  if m.console.cart.code.isEmpty then []
  else
    match Interpreter.select? m.interpreters m.console.cart.code with
    | none => []
    | some index =>
      m.callsTo .close ++ [⟨index, .init m.console.cart.code m.startProgram.1.isNone⟩]

def tickCalls (m : Machine σ) : List Call :=
  match m.console.state.phase with
  | .unloaded => []
  | .running => m.callsTo .tick
  | .initializing =>
    if m.console.state.rejected then []
    else
      m.startCalls ++
        match m.startProgram with
        | (some _, _) => []
        | (none, m) => m.callsTo .tick

def drawCalls (m : Machine σ) : List Call :=
  if m.console.state.phase = .running then
    m.live.toList.flatMap fun index =>
      (Raster.frameCallbacks m.console.state.hooks).map (⟨index, ·⟩)
  else
    []

/-- The calls of an operation, in order. -/
def Op.calls (m : Machine σ) : Op σ → List Call
  | register _ | setInput _ | beginFrame | endFrame | render | reset | loadState _ | pause | resume
  | setClock _ => []
  | loadCart _ | unload => m.callsTo .close
  | tick => m.tickCalls
  | draw => m.drawCalls
  | menu index =>
    if m.console.state.phase = .running ∧ m.console.state.hooks.menu then m.callsTo (.menu index)
    else []
  | eval code => if m.console.state.phase = .running then m.callsTo (.eval code) else []
  | stepFrame =>
    if m.console.state.phase = .unloaded then []
    else
      match m.beginFrame with
      | .error _ => []
      | .ok m => m.tickCalls ++ m.tick.endFrame.render.drawCalls

/-- A machine with recording interpreters, which has a history behind it. -/
def recorded (m : Machine σ) (h : List Call) : Machine (σ × List Call) where
  console := m.console
  guest := (m.guest, h)
  interpreters := m.interpreters.mapIdx fun i interp => interp.recorded i
  frame := m.frame
  synth := m.synth
  paused := m.paused

theorem callsTo_none {m : Machine σ} (idle : m.live = none) (callback : Callback) :
    m.callsTo callback = [] := by
  rw [callsTo, idle]
  rfl

theorem callsTo_some {m : Machine σ} {index : Nat} (live : m.live = some index)
    (callback : Callback) : m.callsTo callback = [⟨index, callback⟩] := by
  rw [callsTo, live]
  rfl

/-- Either a machine calls no interpreter, or it calls the one that its console names. -/
theorem target_cases (m : Machine σ) :
    (m.live = none ∧ m.interpreter? = none ∧ ∀ h, (m.recorded h).interpreter? = none) ∨
      ∃ index interp, m.live = some index ∧ m.interpreter? = some interp ∧
        ∀ h, (m.recorded h).interpreter? = some (interp.recorded index) := by
  unfold live interpreter? recorded
  simp only [Array.getElem?_mapIdx]
  cases m.console.state.interpreter with
  | none => exact .inl ⟨rfl, rfl, fun _ => rfl⟩
  | some index =>
    by_cases inside : index < m.interpreters.size
    · have present := Array.getElem?_eq_getElem inside
      refine .inr ⟨index, m.interpreters[index], ?_, present, fun _ => ?_⟩
      · simp [inside]
      · rw [Option.bind_some, present]
        rfl
    · have absent := Array.getElem?_eq_none (Nat.le_of_not_lt inside)
      refine .inl ⟨?_, absent, fun _ => ?_⟩
      · simpa using Nat.le_of_not_lt inside
      · rw [Option.bind_some, absent]
        rfl

theorem runGuest_recorded (m : Machine σ) (h : List Call) (index : Nat) (callback : Callback)
    (program : σ → Guest σ) :
    (m.recorded h).runGuest (Interpreter.record index callback program) =
      (m.runGuest program).recorded (h ++ [⟨index, callback⟩]) := by
  simp only [runGuest, recorded, Interpreter.run_record]

theorem mapConsole_recorded (m : Machine σ) (h : List Call) (f : Console → Console) :
    (m.recorded h).mapConsole f = (m.mapConsole f).recorded h :=
  rfl

theorem closeProgram_recorded (m : Machine σ) (h : List Call) :
    (m.recorded h).closeProgram = m.closeProgram.recorded (h ++ m.callsTo .close) := by
  obtain ⟨idle, absent, recorded⟩ | ⟨index, interp, live, present, recorded⟩ := m.target_cases
  · rw [callsTo_none idle, List.append_nil]
    simp only [closeProgram, absent, recorded]
    rfl
  · have called := (m.mapConsole fun c => { c with state.interpreter := none }).runGuest_recorded
      h index .close interp.close
    rw [callsTo_some live]
    simp only [closeProgram, present, recorded]
    exact congrArg (mapConsole · fun c => { c with state.hooks := {} }) called

theorem menu_recorded (m : Machine σ) (h : List Call) (choice : Int) :
    (m.recorded h).menu choice = (m.menu choice).recorded (h ++ (Op.menu choice).calls m) := by
  simp only [menu, Op.calls]
  change (if m.console.state.phase = .running ∧ m.console.state.hooks.menu then _ else _) = _
  split
  · obtain ⟨idle, absent, recorded⟩ | ⟨index, interp, live, present, recorded⟩ := m.target_cases
    · rw [callsTo_none idle, List.append_nil, absent, recorded]
    · rw [callsTo_some live, present, recorded]
      exact m.runGuest_recorded h index _ _
  · rw [List.append_nil]

theorem eval_recorded (m : Machine σ) (h : List Call) (code : String) :
    (m.recorded h).eval code = (m.eval code).recorded (h ++ (Op.eval code).calls m) := by
  simp only [eval, Op.calls]
  change (if m.console.state.phase = .running then _ else _) = _
  split
  · obtain ⟨idle, absent, recorded⟩ | ⟨index, interp, live, present, recorded⟩ := m.target_cases
    · rw [callsTo_none idle, List.append_nil, absent, recorded]
    · rw [callsTo_some live, present, recorded]
      exact m.runGuest_recorded h index _ _
  · rw [List.append_nil]

private theorem hooksRecord_none (index : Nat) :
    Raster.HooksRecord index {} ({} : Raster.Hooks (σ × List Call)) {} :=
  ⟨fun _ => .absent, fun _ => .absent, .absent⟩

private theorem hooksRecord_hooks (interp : Interpreter σ) (index : Nat) (bound : HookSet) :
    Raster.HooksRecord index bound ((interp.recorded index).hooks bound) (interp.hooks bound) := by
  obtain ⟨scanline, border, overline, menu⟩ := bound
  constructor
  · intro row
    cases scanline with
    | false => exact .absent
    | true => exact .present fun h s => Interpreter.run_record index _ _ s.1 h s.2
  · intro row
    cases border with
    | false => exact .absent
    | true => exact .present fun h s => Interpreter.run_record index _ _ s.1 h s.2
  · cases overline with
    | false => exact .absent
    | true => exact .present fun h s => Interpreter.run_record index _ _ s.1 h s.2

theorem rasterHooks_recorded (m : Machine σ) (h : List Call) :
    ∃ index bound, Raster.HooksRecord index bound (m.recorded h).rasterHooks m.rasterHooks ∧
      m.drawCalls = (Raster.frameCallbacks bound).map (⟨index, ·⟩) := by
  unfold drawCalls
  by_cases running : m.console.state.phase = .running
  · rw [if_pos running]
    obtain ⟨idle, absent, recorded⟩ | ⟨index, interp, live, present, recorded⟩ := m.target_cases
    · rw [rasterHooks_of_absent absent, rasterHooks_of_absent (recorded h), idle]
      exact ⟨0, {}, hooksRecord_none 0, rfl⟩
    · have sameRunning : (m.recorded h).console.state.phase = .running := running
      rw [rasterHooks_of_running running present,
        rasterHooks_of_running sameRunning (recorded h), live]
      exact ⟨index, _, hooksRecord_hooks interp index _, List.append_nil _⟩
  · have sameIdle : (m.recorded h).console.state.phase ≠ .running := running
    rw [if_neg running, rasterHooks_of_not_running running, rasterHooks_of_not_running sameIdle]
    exact ⟨0, {}, hooksRecord_none 0, rfl⟩

theorem draw_recorded (m : Machine σ) (h : List Call) :
    (m.recorded h).draw = m.draw.recorded (h ++ m.drawCalls) := by
  obtain ⟨index, bound, records, calls⟩ := m.rasterHooks_recorded h
  have drawn : Raster.draw (m.recorded h).rasterHooks (m.guest, h) m.console m.frame = _ :=
    Raster.draw_recorded records h (m.guest, m.console) m.frame
  have unfolded : (m.recorded h).draw =
      let r := Raster.draw (m.recorded h).rasterHooks (m.guest, h) m.console m.frame
      { m.recorded h with guest := r.1.1, console := r.1.2, frame := r.2 } := rfl
  rw [calls, unfolded, drawn]
  rfl

/-! ### Starting -/

theorem preparedFor_recorded (m : Machine σ) (h : List Call) (interp : Interpreter σ)
    (index : Nat) :
    (m.recorded h).preparedFor (interp.recorded index) =
      (m.preparedFor interp).recorded (h ++ m.callsTo .close) := by
  simp only [preparedFor, closeProgram_recorded, mapConsole_recorded]
  rfl

theorem callInit_recorded (m : Machine σ) (h : List Call) (interp : Interpreter σ) (index : Nat)
    (code : String) :
    (m.recorded h).callInit (interp.recorded index) code =
      ((m.callInit interp code).1, (m.callInit interp code).2.recorded
        (h ++ [⟨index, .init code (m.callInit interp code).1.isOk⟩])) := by
  have called : ((interp.recorded index).init code (m.guest, h)).run m.console = _ :=
    Guest.run_bind (interp.init code m.guest) _ m.console
  unfold callInit
  simp only [recorded, called]
  rfl

theorem finishStart_recorded (index : Nat) (r : Except ScriptError HookSet × Machine σ)
    (h : List Call) :
    finishStart index (r.1, r.2.recorded h) =
      ((finishStart index r).1, (finishStart index r).2.recorded h) := by
  obtain ⟨result, m⟩ := r
  cases result <;> rfl

theorem isNone_finishStart (index : Nat) (r : Except ScriptError HookSet × Machine σ) :
    (finishStart index r).1.isNone = r.1.isOk := by
  obtain ⟨result, m⟩ := r
  cases result <;> rfl

theorem startProgram_recorded (m : Machine σ) (h : List Call) :
    (m.recorded h).startProgram =
      (m.startProgram.1, m.startProgram.2.recorded (h ++ m.startCalls)) := by
  have chosen : Interpreter.select? (m.recorded h).interpreters (m.recorded h).console.cart.code =
      Interpreter.select? m.interpreters m.console.cart.code :=
    Interpreter.select?_recorded m.interpreters m.console.cart.code
  unfold startCalls
  obtain ⟨empty, ended⟩ | ⟨code, unserved, ended⟩ | ⟨index, interp, code, served, present, ended⟩ :=
    m.startProgram_cases
  · rw [if_pos empty, List.append_nil, ended]
    exact startProgram_of_emptyCode empty
  · rw [if_neg code, unserved, List.append_nil, ended]
    exact startProgram_of_unserved code (chosen.trans unserved)
  · have recorded : (m.recorded h).interpreters[index]? = some (interp.recorded index) := by
      simp only [Machine.recorded, Array.getElem?_mapIdx, present, Option.map_some]
    -- the old program is closed before the start function is called, so its entry comes first
    have started := startProgram_of_served (m := m.recorded h) code (chosen.trans served) recorded
    rw [started, preparedFor_recorded]
    change finishStart index (callInit _ _ m.console.cart.code) = _
    rw [callInit_recorded, finishStart_recorded, if_neg code, served, ended, isNone_finishStart,
      List.append_assoc]

theorem runProgram_recorded (m : Machine σ) (h : List Call) :
    (m.recorded h).runProgram = m.runProgram.recorded (h ++ m.callsTo .tick) := by
  cases bound : m.console.state.interpreter with
  | none =>
    have idle : m.live = none := by rw [live, bound]; rfl
    rw [callsTo_none idle, List.append_nil, runProgram_of_absent bound]
    exact runProgram_of_absent bound
  | some index =>
    cases present : m.interpreters[index]? with
    | none =>
      have outside : m.interpreters.size ≤ index := Array.getElem?_eq_none_iff.mp present
      have idle : m.live = none := by simpa [live, bound] using outside
      have recorded : (m.recorded h).interpreters[index]? = none := by
        simp only [Machine.recorded, Array.getElem?_mapIdx, present, Option.map_none]
      rw [callsTo_none idle, List.append_nil, runProgram_of_missing bound present]
      exact runProgram_of_missing (m := m.recorded h) bound recorded
    | some interp =>
      have inside : index < m.interpreters.size :=
        (Array.getElem?_eq_some_iff.mp present).1
      have live : m.live = some index := by simpa [live, bound] using inside
      have recorded : (m.recorded h).interpreters[index]? = some (interp.recorded index) := by
        simp only [Machine.recorded, Array.getElem?_mapIdx, present, Option.map_some]
      rw [callsTo_some live, runProgram_of_present bound present,
        runProgram_of_present (m := m.recorded h) bound recorded, mapConsole_recorded]
      exact runGuest_recorded _ h index .tick interp.tick

theorem tick_recorded (m : Machine σ) (h : List Call) :
    (m.recorded h).tick = m.tick.recorded (h ++ m.tickCalls) := by
  have started := m.startProgram_recorded h
  unfold tick tickCalls
  change (match m.console.state.phase with | .unloaded => _ | .running => _ | .initializing => _) = _
  cases m.console.state.phase with
  | unloaded => rw [List.append_nil]
  | running => exact m.runProgram_recorded h
  | initializing =>
    change (if m.console.state.rejected then _ else _) = _
    split
    · rw [List.append_nil]
    · rw [started]
      obtain ⟨refused, n⟩ := m.startProgram
      cases refused with
      | none =>
        simp only [runProgram_recorded, List.append_assoc]
      | some e =>
        rw [List.append_nil]
        rfl

/-! ### Operations and runs -/

theorem commentFor_recorded (m : Machine σ) (h : List Call) (code : String) :
    (m.recorded h).commentFor code = m.commentFor code := by
  have chosen : Interpreter.select? (m.recorded h).interpreters code =
      Interpreter.select? m.interpreters code := Interpreter.select?_recorded m.interpreters code
  have comment (i : Nat) : (m.recorded h).interpreters[i]?.map (·.comment) =
      m.interpreters[i]?.map (·.comment) := by
    simp only [Machine.recorded, Array.getElem?_mapIdx, Option.map_map]
    rfl
  unfold commentFor
  rw [chosen]
  cases Interpreter.select? m.interpreters code with
  | none => rfl
  | some i => exact congrArg (·.getD "") (comment i)

theorem loadCart_recorded (m : Machine σ) (h : List Call) (cart : Cart) :
    (m.recorded h).loadCart cart = (m.loadCart cart).recorded (h ++ m.callsTo .close) := by
  have inserted : (m.recorded h).closeProgram.insertCart cart .initializing =
      (m.closeProgram.insertCart cart .initializing).recorded (h ++ m.callsTo .close) := by
    rw [closeProgram_recorded]
    rfl
  simp only [loadCart, inserted, commentFor_recorded, mapConsole_recorded]

theorem unload_recorded (m : Machine σ) (h : List Call) :
    (m.recorded h).unload = m.unload.recorded (h ++ m.callsTo .close) := by
  simp only [unload, closeProgram_recorded]
  rfl

theorem beginFrame_recorded (m : Machine σ) (h : List Call) :
    (m.recorded h).beginFrame = m.beginFrame.map (·.recorded h) := by
  have same : (m.recorded h).console.state.sound.beginFrame (m.recorded h).console.ram =
      m.console.state.sound.beginFrame m.console.ram := rfl
  rw [beginFrame_eq, beginFrame_eq, same]
  generalize m.console.state.sound.beginFrame m.console.ram = r
  cases r <;> rfl

theorem frame_recorded (m : Machine σ) (h : List Call) :
    (m.recorded h).tick.endFrame.render.draw =
      m.tick.endFrame.render.draw.recorded (h ++ (m.tickCalls ++ m.tick.endFrame.render.drawCalls)) := by
  have ticked : (m.recorded h).tick.endFrame.render =
      m.tick.endFrame.render.recorded (h ++ m.tickCalls) := by
    rw [tick_recorded]
    rfl
  rw [ticked, draw_recorded, List.append_assoc]

theorem pause_recorded (m : Machine σ) (h : List Call) :
    (m.recorded h).pause = m.pause.recorded h := by
  cases paused : m.paused with
  | none => simp only [pause, recorded, paused]; rfl
  | some s => simp only [pause, recorded, paused]

theorem resume_recorded (m : Machine σ) (h : List Call) :
    (m.recorded h).resume = m.resume.recorded h := by
  cases paused : m.paused with
  | none => simp only [resume, recorded, paused]
  | some s => simp only [resume, recorded, paused]; rfl

theorem loadState?_recorded (m : Machine σ) (h : List Call) (saved : Json) :
    (m.recorded h).loadState? saved = (m.loadState? saved).map (·.recorded h) := by
  unfold loadState?
  cases saved.member? "persistent" with
  | none => rfl
  | some persistent =>
    cases words : persistent.words? <;> simp only [words] <;> rfl

/-- An operation of a machine with recording interpreters, `index` of which are registered. -/
def Op.recorded (index : Nat) : Op σ → Op (σ × List Call)
  | register interp => register (interp.recorded index)
  | loadCart cart => loadCart cart
  | unload => unload
  | setInput input => setInput input
  | beginFrame => beginFrame
  | tick => tick
  | endFrame => endFrame
  | render => render
  | draw => draw
  | menu index => menu index
  | eval code => eval code
  | reset => reset
  | stepFrame => stepFrame
  | loadState saved => loadState saved
  | pause => pause
  | resume => resume
  | setClock clock => setClock clock

/-- A list of operations, made recording. -/
def recordAll (index : Nat) : List (Op σ) → List (Op (σ × List Call))
  | [] => []
  | op :: ops => op.recorded index :: recordAll (index + op.registered) ops

theorem step_stepFrame_recorded (m : Machine σ) (h : List Call) :
    Op.stepFrame.step (m.recorded h) =
      (Op.stepFrame.step m).map (·.recorded (h ++ Op.stepFrame.calls m)) := by
  have begins := m.beginFrame_recorded h
  simp only [Op.calls]
  obtain ⟨unloaded, refused⟩ | ⟨loaded, cause, begun, fault⟩ | ⟨loaded, n, begun, made⟩ :=
    m.step_stepFrame_cases
  · rw [refused, if_pos unloaded, List.append_nil]
    exact step_stepFrame_of_unloaded unloaded
  · rw [begun] at begins
    rw [fault]
    exact step_stepFrame_of_fault loaded begins
  · rw [begun] at begins
    have stepped := step_stepFrame_of_begun (m := m.recorded h) loaded begins
    rw [made, if_neg loaded, begun, stepped, frame_recorded]
    rfl

/-- A recording machine does what the machine without recording does, and remembers the calls. -/
theorem step_recorded (op : Op σ) (m : Machine σ) (h : List Call) :
    (op.recorded m.interpreters.size).step (m.recorded h) =
      (op.step m).map (·.recorded (h ++ op.calls m)) := by
  cases op with
  | register interp =>
    change Except.ok _ = Except.ok _
    simp only [Machine.register, Machine.recorded, Array.mapIdx_push, List.append_nil, Op.calls]
  | loadCart cart => exact congrArg Except.ok (m.loadCart_recorded h cart)
  | unload => exact congrArg Except.ok (m.unload_recorded h)
  | tick => exact congrArg Except.ok (m.tick_recorded h)
  | draw => exact congrArg Except.ok (m.draw_recorded h)
  | menu choice => exact congrArg Except.ok (m.menu_recorded h choice)
  | eval code => exact congrArg Except.ok (m.eval_recorded h code)
  | stepFrame => exact m.step_stepFrame_recorded h
  | beginFrame =>
    rw [Op.calls, List.append_nil]
    exact m.beginFrame_recorded h
  | loadState saved =>
    simp only [Op.step, Op.recorded, loadState?_recorded, Op.calls, List.append_nil]
    cases m.loadState? saved <;> rfl
  | pause =>
    rw [Op.calls, List.append_nil]
    exact congrArg Except.ok (m.pause_recorded h)
  | resume =>
    rw [Op.calls, List.append_nil]
    exact congrArg Except.ok (m.resume_recorded h)
  | setInput input =>
    rw [Op.calls, List.append_nil]
    exact congrArg Except.ok (m.mapConsole_recorded h _)
  | endFrame =>
    rw [Op.calls, List.append_nil]
    exact congrArg Except.ok (m.mapConsole_recorded h _)
  | render =>
    rw [Op.calls, List.append_nil]
    rfl
  | reset =>
    rw [Op.calls, List.append_nil]
    exact congrArg Except.ok (m.mapConsole_recorded h _)
  | setClock clock =>
    rw [Op.calls, List.append_nil]
    exact congrArg Except.ok (m.mapConsole_recorded h _)

/-- An operation faults before it calls anything. -/
theorem Op.calls_of_fault {op : Op σ} {m : Machine σ} {cause : Fault}
    (fault : op.step m = .error cause) : op.calls m = [] := by
  cases op with
  | beginFrame => rfl
  | stepFrame =>
    obtain ⟨unloaded, _⟩ | ⟨loaded, other, begun, _⟩ | ⟨_, b, _, made⟩ := m.step_stepFrame_cases
    · rw [Op.calls, if_pos unloaded]
    · rw [Op.calls, if_neg loaded, begun]
    · cases fault.symm.trans made
  | _ => cases fault

/-- The calls of a run, in order. -/
def runCalls (m : Machine σ) : List (Op σ) → List Call
  | [] => []
  | op :: ops =>
    op.calls m ++
      match op.step m with
      | .ok n => n.runCalls ops
      | .error _ => []

theorem runCalls_cons {op : Op σ} {m n : Machine σ} (stepped : op.step m = .ok n)
    (ops : List (Op σ)) : m.runCalls (op :: ops) = op.calls m ++ n.runCalls ops := by
  rw [runCalls, stepped]

/-- A run with recording interpreters ends like the run without them, with the calls of the run. -/
theorem run_recorded {ops : List (Op σ)} {m n : Machine σ} (ran : m.run ops = .ok n)
    (h : List Call) :
    (m.recorded h).run (recordAll m.interpreters.size ops) =
      .ok (n.recorded (h ++ m.runCalls ops)) := by
  induction ops generalizing m h with
  | nil =>
    cases ran
    rw [runCalls, List.append_nil]
    rfl
  | cons op rest ih =>
    obtain ⟨next, stepped, later⟩ := run_cons_inv ran
    have recorded : _ = Except.ok (next.recorded (h ++ op.calls m)) :=
      (step_recorded op m h).trans (congrArg (Except.map _) stepped)
    rw [recordAll, run_cons recorded, ← size_step stepped, ih later, runCalls_cons stepped,
      List.append_assoc]

/-- What the interpreters of a machine have written down when a run ends. -/
def history (m : Machine σ) (ops : List (Op σ)) : List Call :=
  match (m.recorded []).run (recordAll m.interpreters.size ops) with
  | .ok n => n.guest.2
  | .error _ => []

theorem history_eq {ops : List (Op σ)} {m n : Machine σ} (ran : m.run ops = .ok n) :
    m.history ops = m.runCalls ops := by
  rw [history, run_recorded ran]
  rfl

theorem runCalls_append {before : List (Op σ)} {m n : Machine σ} (ran : m.run before = .ok n)
    (after : List (Op σ)) : m.runCalls (before ++ after) = m.runCalls before ++ n.runCalls after := by
  induction before generalizing m with
  | nil =>
    cases ran
    rfl
  | cons op rest ih =>
    obtain ⟨next, stepped, later⟩ := run_cons_inv ran
    rw [List.cons_append, runCalls_cons stepped, runCalls_cons stepped, ih later,
      List.append_assoc]

end Machine

end FantasyConsole
