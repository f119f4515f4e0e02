import FantasyConsole.Proofs.Machine.Frames
import FantasyConsole.Proofs.Outcome

/-!
# Transcripts

A program is told something by every call that it makes. An interpreter can be made to write down in
the shared state what its functions call and what they are told; apart from that it does what it
did. The transcript of a run is what has been written down when the run ends.

## Main result

`Machine.run_transcribed`: a run of frames with such interpreters goes like the run without them.
-/

namespace FantasyConsole

variable {α σ : Type}

/-- A call that a program makes, and what it is told. -/
structure Answer where
  name : String
  args : List Value
  result : Except Api.CallError Value

namespace Guest

/-- What a program is told, in order. -/
def answers : Guest α → Console → List Answer
  | done _, _ => []
  | call name args next, c =>
    let (result, c) := Api.call name args c
    ⟨name, args, result⟩ :: (next result).answers c

/-- A program that also writes down what it is told. -/
def transcribe : Guest α → List Answer → Guest (α × List Answer)
  | done result, told => done (result, told)
  | call name args next, told =>
    call name args fun result => (next result).transcribe (told ++ [⟨name, args, result⟩])

theorem run_transcribe (p : Guest α) (told : List Answer) (c : Console) :
    (p.transcribe told).run c = (((p.run c).1, told ++ p.answers c), (p.run c).2) := by
  induction p generalizing told c with
  | done result =>
    rw [answers, List.append_nil]
    rfl
  | call name args next ih =>
    refine (ih _ _ _).trans ?_
    rw [List.append_assoc]
    rfl

end Guest

namespace Interpreter

/-- A function of an interpreter that also writes down what it is told. -/
def transcribe (program : σ → Guest σ) (s : σ × List Answer) : Guest (σ × List Answer) :=
  (program s.1).transcribe s.2

/-- An interpreter that writes down what it is told and otherwise does what it did. -/
def transcribed (interp : Interpreter σ) : Interpreter (σ × List Answer) where
  names := interp.names
  comment := interp.comment
  init code s := ((interp.init code s.1).transcribe s.2).bind fun r =>
    .done (r.1.1, r.1.2, r.2)
  close := transcribe interp.close
  tick := transcribe interp.tick
  scanline row := transcribe (interp.scanline row)
  border row := transcribe (interp.border row)
  overline := transcribe interp.overline
  menu choice := transcribe (interp.menu choice)
  eval code := transcribe (interp.eval code)
  outline := interp.outline

theorem run_init_transcribed (interp : Interpreter σ) (code : String) (guest : σ)
    (told : List Answer) (c : Console) :
    (interp.transcribed.init code (guest, told)).run c =
      ((((interp.init code guest).run c).1.1, ((interp.init code guest).run c).1.2,
        told ++ (interp.init code guest).answers c), ((interp.init code guest).run c).2) := by
  -- the hooks that a start function returns are put back in front of the state
  refine (Guest.run_bind ((interp.init code guest).transcribe told) _ c).trans ?_
  rw [Guest.run_transcribe]
  rfl

theorem select?_transcribed (interpreters : Array (Interpreter σ)) (code : String) :
    select? (interpreters.map transcribed) code = select? interpreters code := by
  have named : (interpreters.map transcribed).findIdx? (·.isNamedBy code) =
      interpreters.findIdx? (·.isNamedBy code) :=
    Array.findIdx?_map ..
  have empty : (interpreters.map transcribed).isEmpty = interpreters.isEmpty := by
    simp only [Array.isEmpty, Array.size_map]
  rw [select?, select?, named, empty]

end Interpreter

namespace Machine

/-! ### Machines that write transcripts -/

/-- A machine whose interpreters write down what they are told, after what they have been told. -/
def transcribed (m : Machine σ) (told : List Answer) : Machine (σ × List Answer) where
  console := m.console
  guest := (m.guest, told)
  interpreters := m.interpreters.map Interpreter.transcribed
  frame := m.frame
  synth := m.synth
  paused := m.paused

/-- What the interpreters of a machine are told in some frames. -/
def transcript (m : Machine σ) (frames : List HostFrame) : Except Fault (List Answer) :=
  ((m.transcribed []).runFrames frames).map (·.guest.2)

variable (m : Machine σ) (told : List Answer)

theorem interpreter?_transcribed :
    (m.transcribed told).interpreter? = m.interpreter?.map Interpreter.transcribed := by
  unfold interpreter? transcribed
  cases m.console.state.interpreter with
  | none => rfl
  | some index => exact Array.getElem?_map

theorem mapConsole_transcribed (f : Console → Console) :
    (m.transcribed told).mapConsole f = (m.mapConsole f).transcribed told :=
  rfl

theorem receive_transcribed (f : HostFrame) :
    (m.transcribed told).receive f = (m.receive f).transcribed told := by
  unfold receive setInput
  rw [mapConsole_transcribed, mapConsole_transcribed]

theorem runGuest_transcribed (program : σ → Guest σ) :
    (m.transcribed told).runGuest (Interpreter.transcribe program) =
      (m.runGuest program).transcribed (told ++ (program m.guest).answers m.console) := by
  simp only [runGuest, transcribed, Interpreter.transcribe, Guest.run_transcribe]

theorem closeProgram_transcribed :
    ∃ later, (m.transcribed told).closeProgram = m.closeProgram.transcribed later := by
  have target := m.interpreter?_transcribed told
  cases present : m.interpreter? with
  | none =>
    rw [present] at target
    rw [closeProgram_of_absent present, closeProgram_of_absent target]
    exact ⟨told, rfl⟩
  | some interp =>
    rw [present] at target
    have closed := m.unbound.runGuest_transcribed told interp.close
    rw [closeProgram_of_present present, closeProgram_of_present target]
    exact ⟨_, congrArg (mapConsole · fun c => { c with state.hooks := {} }) closed⟩

theorem preparedFor_transcribed (interp : Interpreter σ) :
    ∃ later, (m.transcribed told).preparedFor interp.transcribed =
      (m.preparedFor interp).transcribed later := by
  obtain ⟨later, closed⟩ := m.closeProgram_transcribed told
  unfold preparedFor
  rw [closed]
  exact ⟨later, rfl⟩

theorem callInit_transcribed (interp : Interpreter σ) (code : String) :
    ∃ later, (m.transcribed told).callInit interp.transcribed code =
      ((m.callInit interp code).1, (m.callInit interp code).2.transcribed later) := by
  unfold callInit
  exact ⟨_, by simp only [transcribed, Interpreter.run_init_transcribed]; rfl⟩

theorem startProgram_transcribed :
    ∃ later, (m.transcribed told).startProgram =
      (m.startProgram.1, m.startProgram.2.transcribed later) := by
  have chosen : Interpreter.select? (m.transcribed told).interpreters m.console.cart.code =
      Interpreter.select? m.interpreters m.console.cart.code := Interpreter.select?_transcribed _ _
  obtain ⟨empty, ended⟩ | ⟨code, unserved, ended⟩ | ⟨index, interp, code, served, present, ended⟩ :=
    m.startProgram_cases
  · rw [ended]
    exact ⟨told, startProgram_of_emptyCode empty⟩
  · rw [ended]
    exact ⟨told, startProgram_of_unserved code (chosen.trans unserved)⟩
  · have same : (m.transcribed told).interpreters[index]? = some interp.transcribed := by
      rw [transcribed, Array.getElem?_map, present, Option.map_some]
    obtain ⟨ready, prepared⟩ := m.preparedFor_transcribed told interp
    obtain ⟨later, called⟩ :=
      (m.preparedFor interp).callInit_transcribed ready interp m.console.cart.code
    rw [ended, startProgram_of_served (m := m.transcribed told) code (chosen.trans served) same,
      prepared]
    -- what follows the call does not look at the shared state
    refine ⟨later, (congrArg (finishStart index) called).trans ?_⟩
    obtain ⟨result, n⟩ := (m.preparedFor interp).callInit interp m.console.cart.code
    cases result <;> rfl

theorem runProgram_transcribed :
    ∃ later, (m.transcribed told).runProgram = m.runProgram.transcribed later := by
  cases bound : m.console.state.interpreter with
  | none =>
    rw [runProgram_of_absent bound]
    exact ⟨told, runProgram_of_absent bound⟩
  | some index =>
    have same : (m.transcribed told).interpreters[index]? =
        m.interpreters[index]?.map Interpreter.transcribed := Array.getElem?_map
    cases present : m.interpreters[index]? with
    | none =>
      rw [present] at same
      rw [runProgram_of_missing bound present]
      exact ⟨told, runProgram_of_missing bound same⟩
    | some interp =>
      rw [present] at same
      have ticked := (m.mapConsole fun c =>
        { c with ram := c.state.devices.hide c.ram }).runGuest_transcribed told interp.tick
      rw [runProgram_of_present bound present]
      exact ⟨_, (runProgram_of_present (m := m.transcribed told) bound same).trans ticked⟩

theorem tick_transcribed :
    ∃ later, (m.transcribed told).tick = m.tick.transcribed later := by
  obtain ⟨ready, started⟩ := m.startProgram_transcribed told
  have phase : (m.transcribed told).console.state.phase = m.console.state.phase := rfl
  have rejected : (m.transcribed told).console.state.rejected = m.console.state.rejected := rfl
  rw [tick, tick, phase, rejected]
  cases m.console.state.phase with
  | unloaded => exact ⟨told, rfl⟩
  | running => exact m.runProgram_transcribed told
  | initializing =>
    dsimp only
    split
    · exact ⟨told, rfl⟩
    · rw [started]
      obtain ⟨refused, n⟩ := m.startProgram
      cases refused with
      | none => exact n.runProgram_transcribed ready
      | some e => exact ⟨ready, rfl⟩

theorem beginFrame_transcribed :
    (m.transcribed told).beginFrame = m.beginFrame.map (·.transcribed told) := by
  have same : (m.transcribed told).console.state.sound.beginFrame (m.transcribed told).console.ram =
      m.console.state.sound.beginFrame m.console.ram := rfl
  rw [beginFrame_eq, beginFrame_eq, same]
  cases m.console.state.sound.beginFrame m.console.ram <;> rfl

/-- A frame with interpreters that write down what they are told goes like one without. -/
theorem run_frame_transcribed (f : HostFrame) :
    SameOutcome (fun n o => ∃ later, o = n.transcribed later) (m.run f.ops)
      ((m.transcribed told).run f.ops) := by
  rw [run_frame, run_frame, receive_transcribed, beginFrame_transcribed]
  cases (m.receive f).beginFrame with
  | error cause => rfl
  | ok b =>
    obtain ⟨later, ticked⟩ := b.tick_transcribed told
    exact ⟨later, congrArg endFrame ticked⟩

/-- A run of frames with interpreters that write down what they are told goes like one without. -/
theorem run_transcribed (frames : List HostFrame) :
    SameOutcome (fun n o => ∃ later, o = n.transcribed later) (m.runFrames frames)
      ((m.transcribed told).runFrames frames) := by
  induction frames generalizing m told with
  | nil => exact ⟨told, rfl⟩
  | cons f frames ih =>
    rw [runFrames_cons, runFrames_cons]
    refine (m.run_frame_transcribed told f).bind ?_
    rintro n _ ⟨later, rfl⟩
    exact ih n later

end Machine

end FantasyConsole
