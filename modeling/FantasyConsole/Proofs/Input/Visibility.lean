import FantasyConsole.Input.History
import FantasyConsole.Proofs.Memory.Agreement

/-!
# What can be seen of the input

A program sees some of the devices. The memory of the others is cleared before its frame function
runs, and from then on memory tells nothing of them. What the history counts tells nothing of them
either, as long as it remembers no button and no key of theirs.
-/

namespace FantasyConsole

/-- Whether two frames of input differ at most in devices that a program cannot see. -/
structure DeviceInput.AgreeOn (d : Devices) (a b : DeviceInput) : Prop where
  gamepads : d.gamepad = true → b.gamepads = a.gamepads
  mouse : d.mouse = true → b.mouse = a.mouse
  keyboard : d.keyboard = true → b.keyboard = a.keyboard

/-- Whether nothing is remembered of the buttons and keys that a program cannot see. -/
structure InputHistory.BlankFor (d : Devices) (h : InputHistory) : Prop where
  gamepads : d.gamepad = false → h.gamepads = 0
  keyboard : d.keyboard = false → h.keyboard = Vector.replicate _ 0

/-! ### The memory of hidden devices -/

namespace Devices

/-- No device at all. -/
def none : Devices := ⟨false, false, false⟩

/-- The memory of the devices that a program cannot see. -/
def hidden (d : Devices) : List Region :=
  (if d.gamepad then [] else [Layout.gamepads]) ++
    ((if d.mouse then [] else [Layout.mouse]) ++
      ((if d.keyboard then [] else [Layout.keyboard]) ++ []))

theorem mem_hidden {d : Devices} {g : Region} :
    g ∈ d.hidden ↔ (d.gamepad = false ∧ g = Layout.gamepads) ∨
      (d.mouse = false ∧ g = Layout.mouse) ∨ (d.keyboard = false ∧ g = Layout.keyboard) := by
  obtain ⟨gamepad, mouse, keyboard⟩ := d
  cases gamepad <;> cases mouse <;> cases keyboard <;> simp [hidden]

theorem gamepads_mem_hidden {d : Devices} : Layout.gamepads ∈ d.hidden ↔ d.gamepad = false := by
  simp [mem_hidden, Layout.gamepads, Layout.mouse, Layout.keyboard]

theorem mouse_mem_hidden {d : Devices} : Layout.mouse ∈ d.hidden ↔ d.mouse = false := by
  simp [mem_hidden, Layout.gamepads, Layout.mouse, Layout.keyboard]

theorem keyboard_mem_hidden {d : Devices} : Layout.keyboard ∈ d.hidden ↔ d.keyboard = false := by
  simp [mem_hidden, Layout.gamepads, Layout.mouse, Layout.keyboard]

theorem mem_hidden_none {d : Devices} {g : Region} (hidden : g ∈ d.hidden) : g ∈ none.hidden := by
  obtain ⟨_, rfl⟩ | ⟨_, rfl⟩ | ⟨_, rfl⟩ := mem_hidden.mp hidden <;> decide

/-- The memory of a device that is seen has no byte in common with that of the others. -/
theorem disjoint_hidden {d : Devices} {g : Region} (device : g ∈ none.hidden)
    (visible : g ∉ d.hidden) : ∀ h ∈ d.hidden, g.Disjoint h := by
  have apart : ∀ g ∈ none.hidden, ∀ h ∈ none.hidden, g ≠ h → g.Disjoint h := by decide
  intro h hidden
  exact apart g device h (mem_hidden_none hidden) fun same => visible (same ▸ hidden)

end Devices

namespace Ram.AgreeOutside

variable {d : Devices} {r m : Ram} (agree : AgreeOutside d.hidden r m)
include agree

/-- Input that differs in hidden devices makes memory differ there only. -/
theorem storeInput {a b : DeviceInput} (on : a.AgreeOn d b) :
    AgreeOutside d.hidden (a.store r) (b.store m) := by
  have pads : AgreeOutside d.hidden (r.setWord Layout.gamepads.offset a.gamepads)
      (m.setWord Layout.gamepads.offset b.gamepads) := by
    refine agree.setRegion (g := Layout.gamepads) fun visible => ?_
    rw [on.gamepads (by simpa [Devices.gamepads_mem_hidden] using visible)]
  -- the mouse and the keyboard are stored behind the gamepads, each in a region of its own
  refine (pads.setRegion fun visible => ?_).setRegion fun visible => ?_
  · rw [on.mouse (by simpa [Devices.mouse_mem_hidden] using visible)]
  · exact on.keyboard (by simpa [Devices.keyboard_mem_hidden] using visible)

theorem sameOn_device {g : Region} (device : g ∈ Devices.none.hidden) (visible : g ∉ d.hidden) :
    SameOn [g] r m :=
  agree.bytes.sameOn fun h member => by
    rw [List.mem_singleton.mp member]
    exact Devices.disjoint_hidden device visible

/-- The input in memory differs in hidden devices only. -/
theorem loadInput : (DeviceInput.load r).AgreeOn d (.load m) where
  gamepads seen := by
    have visible : Layout.gamepads ∉ d.hidden := by simp [Devices.gamepads_mem_hidden, seen]
    exact (agree.sameOn_device (by decide) visible).word List.mem_cons_self (Nat.le_refl 4)
  mouse seen := by
    have visible : Layout.mouse ∉ d.hidden := by simp [Devices.mouse_mem_hidden, seen]
    exact congrArg Mouse.ofBytes
      ((agree.sameOn_device (by decide) visible).region List.mem_cons_self)
  keyboard seen := by
    have visible : Layout.keyboard ∉ d.hidden := by simp [Devices.keyboard_mem_hidden, seen]
    exact (agree.sameOn_device (by decide) visible).region List.mem_cons_self

end Ram.AgreeOutside

private theorem Ram.agreeOutside_clear {g : Region} {gs : List Region} {r m : Ram} (seen : Bool)
    (agree : AgreeOutside ((if seen then [] else [g]) ++ gs) r m) :
    AgreeOutside gs (if seen then r else r.fillRegion g 0)
      (if seen then m else m.fillRegion g 0) := by
  cases seen with
  | true => exact agree
  | false => exact agree.fillRegion_cons 0

/-- Memories that differ in hidden devices only are the same when these have been cleared. -/
theorem Devices.hide_congr {d : Devices} {r m : Ram} (agree : Ram.AgreeOutside d.hidden r m) :
    d.hide m = d.hide r :=
  (Ram.agreeOutside_clear _ (Ram.agreeOutside_clear _ (Ram.agreeOutside_clear _ agree))).eq

private theorem Ram.sameOutside_clear {g : Region} {gs : List Region} (member : g ∈ gs)
    (seen : Bool) (r : Ram) :
    SameOutside gs r (if seen then r else r.fillRegion g 0) := by
  cases seen with
  | true => exact SameOutside.refl gs r
  | false => exact r.sameOutside_fillRegion member 0

theorem Devices.sameOutside_hide (d : Devices) (r : Ram) :
    Ram.SameOutside none.hidden r (d.hide r) :=
  ((Ram.sameOutside_clear (by decide) d.gamepad r).trans
    (Ram.sameOutside_clear (by decide) d.mouse _)).trans
    (Ram.sameOutside_clear (by decide) d.keyboard _)

/-! ### Input in memory -/

namespace DeviceInput

theorem load_congr {r m : Ram} (same : Ram.SameOn Devices.none.hidden r m) :
    load m = load r := by
  have gamepads : m.word Layout.gamepads.offset = r.word Layout.gamepads.offset :=
    same.word (by decide) (by decide)
  rw [load, load, gamepads, same.region (g := Layout.mouse) (by decide),
    same.region (g := Layout.keyboard) (by decide)]

theorem sameOutside_store (input : DeviceInput) (r : Ram) :
    Ram.SameOutside Devices.none.hidden r (input.store r) :=
  ((r.sameOutside_setRegion (g := Layout.gamepads) (by decide) _).trans
    (Ram.sameOutside_setRegion _ (g := Layout.mouse) (by decide) _)).trans
    (Ram.sameOutside_setRegion _ (g := Layout.keyboard) (by decide) _)

theorem gamepads_load_store (input : DeviceInput) (r : Ram) :
    (load (input.store r)).gamepads = input.gamepads := by
  have others : Ram.SameOutside [Layout.mouse, Layout.keyboard]
      (r.setWord Layout.gamepads.offset input.gamepads) (input.store r) :=
    (Ram.sameOutside_setRegion _ (g := Layout.mouse) (by decide) _).trans
      (Ram.sameOutside_setRegion _ (g := Layout.keyboard) (by decide) _)
  have kept := others.word (g := Layout.gamepads) (by decide) (by decide)
  exact kept.trans (r.word_setWord (by decide) input.gamepads)

end DeviceInput

/-! ### The history -/

namespace InputHistory

/-- When hidden devices have been cleared, nothing is remembered of them. -/
theorem blankFor_remember (d : Devices) (h : InputHistory) (r : Ram) :
    (h.remember (.load (d.hide r))).BlankFor d where
  gamepads hidden := by
    have cleared : (r.fillRegion Layout.gamepads 0).word Layout.gamepads.offset = 0 :=
      (r.word_fillBlock (by decide) 0).trans (by decide)
    have others : Ram.SameOutside [Layout.mouse, Layout.keyboard] (r.fillRegion Layout.gamepads 0)
        (d.hide r) := by
      rw [Devices.hide, hidden]
      exact (Ram.sameOutside_clear (by decide) d.mouse _).trans
        (Ram.sameOutside_clear (by decide) d.keyboard _)
    have kept := others.word (g := Layout.gamepads) (by decide) (by decide)
    exact kept.trans cleared
  keyboard hidden := by
    rw [Devices.hide, hidden]
    exact Ram.region_fillRegion_self _ (by decide) 0

theorem not_keyDown_replicate {code : Nat} (code_ne : code ≠ 0) :
    keyDown (Vector.replicate keyboardSlots 0) code = false := by
  simpa [keyDown] using fun same : 0 = code => code_ne same.symm

/-- Of hidden devices nothing is counted. -/
theorem countHolds_congr {d : Devices} {h : InputHistory} (blank : h.BlankFor d)
    {a b : DeviceInput} (on : a.AgreeOn d b) : h.countHolds b = h.countHolds a := by
  -- a button is held on when it was down and is down; of a hidden one it is known that it was up
  have buttons (id : Nat) : (h.buttonWasDown id && b.buttonDown id) =
      (h.buttonWasDown id && a.buttonDown id) := by
    cases seen : d.gamepad with
    | true => rw [DeviceInput.buttonDown, DeviceInput.buttonDown, on.gamepads seen]
    | false =>
      have up : h.buttonWasDown id = false := by
        rw [buttonWasDown, blank.gamepads seen]
        simp
      rw [up, Bool.false_and, Bool.false_and]
  have keys (code : Nat) (code_ne : code ≠ 0) : (h.keyWasDown code && keyDown b.keyboard code) =
      (h.keyWasDown code && keyDown a.keyboard code) := by
    cases seen : d.keyboard with
    | true => rw [on.keyboard seen]
    | false =>
      have up : h.keyWasDown code = false := by
        rw [keyWasDown, blank.keyboard seen, not_keyDown_replicate code_ne]
      rw [up, Bool.false_and, Bool.false_and]
  simp only [countHolds, InputHistory.mk.injEq, true_and]
  constructor
  · refine Vector.ext fun id bound => ?_
    rw [Vector.getElem_mapIdx, Vector.getElem_mapIdx, buttons]
  · refine Vector.ext fun code bound => ?_
    rw [Vector.getElem_mapIdx, Vector.getElem_mapIdx]
    split
    · rfl
    · rename_i code_ne
      rw [keys code code_ne]

end InputHistory

end FantasyConsole
