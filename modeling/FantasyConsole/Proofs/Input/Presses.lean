import FantasyConsole.Input.History
import Mathlib.Data.List.Induction

/-!
# Presses over a history of frames

Every frame counts its input against the history, answers the questions of a program, and remembers
the input. What a question about presses answers depends on all frames before: it is described here
by the inputs alone, without the counters.

## Main result

`InputHistory.presses_over_frames`: a button or key is pressed in a frame if it is down there and was
up in the frame before, or if autorepeat says so of the unbroken run of frames in which it has been
down. The order of the keys in the slots of the keyboard plays no part.

## Proof strategy

A counter is the length of the current run, less the frame of the press. Buttons and keys are counted
alike, so this is shown once, of everything that is `Tracked`.
-/

namespace FantasyConsole

/-- For how many frames without a break, up to the last one, something has been down. -/
def streak (down : DeviceInput → Bool) (inputs : List DeviceInput) : Nat :=
  (inputs.reverse.takeWhile down).length

theorem streak_concat (down : DeviceInput → Bool) (past : List DeviceInput) (now : DeviceInput) :
    streak down (past ++ [now]) = if down now then streak down past + 1 else 0 := by
  rw [streak, List.reverse_append, List.reverse_singleton, List.singleton_append,
    List.takeWhile_cons]
  split <;> rfl

/-- Whether something was down in the last of some frames. -/
def downLast (down : DeviceInput → Bool) (past : List DeviceInput) : Bool := past.getLast?.any down

theorem downLast_concat (down : DeviceInput → Bool) (past : List DeviceInput) (now : DeviceInput) :
    downLast down (past ++ [now]) = down now := by
  rw [downLast, List.getLast?_concat, Option.any_some]

/-- What was up in the last frame has no run. -/
theorem streak_of_up {down : DeviceInput → Bool} {past : List DeviceInput}
    (up : downLast down past = false) : streak down past = 0 := by
  obtain rfl | ⟨before, last, rfl⟩ := past.eq_nil_or_concat
  · rfl
  · rw [List.concat_eq_append] at up ⊢
    rw [downLast_concat] at up
    rw [streak_concat, if_neg (by simp [up])]

theorem streak_pos {down : DeviceInput → Bool} {past : List DeviceInput}
    (last : downLast down past = true) : 0 < streak down past := by
  obtain rfl | ⟨before, now, rfl⟩ := past.eq_nil_or_concat
  · cases last
  · rw [List.concat_eq_append] at last ⊢
    rw [downLast_concat] at last
    rw [streak_concat, if_pos last]
    exact Nat.succ_pos _

/-- Whether something counts as pressed in the frame after `past`: it has come down, or it has been
held for `hold` frames and for a multiple of `period`, where the frame of the press is not counted. -/
def Pressed (down : DeviceInput → Bool) (past : List DeviceInput) (now : DeviceInput)
    (hold period : Int) : Prop :=
  let held : Int := (streak down (past ++ [now]) - 1 : Nat)
  down now = true ∧
    (downLast down past = false ∨
      (0 ≤ hold ∧ 0 ≤ period ∧ hold ≤ held ∧ (period = 0 ∨ period ∣ held)))

namespace InputHistory

/-- The history after whole frames with the given inputs. -/
def after (inputs : List DeviceInput) : InputHistory :=
  inputs.foldl (fun h now => (h.countHolds now).remember now) fresh

theorem after_concat (past : List DeviceInput) (now : DeviceInput) :
    after (past ++ [now]) = ((after past).countHolds now).remember now := by
  rw [after, List.foldl_append]
  rfl

/-- The history of which a program asks its questions in the frame after `past`. -/
def during (past : List DeviceInput) (now : DeviceInput) : InputHistory :=
  (after past).countHolds now

/-! ### What a history keeps track of -/

/-- Something that can be down, as a history remembers and counts it. -/
structure Tracked where
  down : DeviceInput → Bool
  wasDown : InputHistory → Bool
  held : InputHistory → Nat
  fresh : wasDown fresh = false ∧ held fresh = 0
  remember : ∀ h now, wasDown (h.remember now) = down now ∧ held (h.remember now) = held h
  countHolds : ∀ h now, wasDown (h.countHolds now) = wasDown h ∧
    held (h.countHolds now) = if wasDown h && down now then held h + 1 else 0

def Tracked.button (id : Fin buttonCount) : Tracked where
  down now := now.buttonDown id
  wasDown h := h.buttonWasDown id
  held h := h.buttonHold id
  fresh := by
    constructor
    · simp [buttonWasDown, InputHistory.fresh]
    · simp [buttonHold, InputHistory.fresh]
  remember h now := ⟨rfl, rfl⟩
  countHolds h now := by
    refine ⟨rfl, ?_⟩
    simp [buttonHold, InputHistory.countHolds]

def Tracked.key (code : Nat) (named : 0 < code ∧ code < keyCount) : Tracked where
  down now := keyDown now.keyboard code
  wasDown h := h.keyWasDown code
  held h := h.keyHold code
  fresh := by
    constructor
    · simp [keyWasDown, keyDown, InputHistory.fresh]
      omega
    · simp [keyHold, InputHistory.fresh, named.2]
  remember h now := ⟨rfl, rfl⟩
  countHolds h now := by
    refine ⟨rfl, ?_⟩
    have counted : code ≠ 0 := Nat.pos_iff_ne_zero.mp named.1
    simp [keyHold, InputHistory.countHolds, named.2, counted]

namespace Tracked

variable (t : Tracked)

/-- After whole frames a history knows what was down in the last one, and its counter is the length
of the run less one. -/
theorem after_eq (past : List DeviceInput) :
    t.wasDown (after past) = downLast t.down past ∧
      t.held (after past) = streak t.down past - 1 := by
  induction past using List.reverseRecOn with
  | nil => exact t.fresh
  | append_singleton past now ih =>
    obtain ⟨last, counted⟩ := ih
    rw [after_concat, downLast_concat, streak_concat, (t.remember _ now).1, (t.remember _ now).2,
      (t.countHolds _ now).2, last, counted]
    refine ⟨rfl, ?_⟩
    cases before : downLast t.down past with
    | false =>
      rw [streak_of_up before, Bool.false_and, if_neg Bool.false_ne_true]
      split <;> rfl
    | true =>
      -- the run goes on, and its first frame is the one that is not counted
      have running := streak_pos before
      cases t.down now with
      | false => rfl
      | true => simp; omega

theorem during_eq (past : List DeviceInput) (now : DeviceInput) :
    t.wasDown (during past now) = downLast t.down past ∧
      (t.down now = true → t.held (during past now) = streak t.down (past ++ [now]) - 1) := by
  obtain ⟨last, counted⟩ := t.after_eq past
  obtain ⟨kept, holds⟩ := t.countHolds (after past) now
  refine ⟨kept.trans last, fun down => ?_⟩
  -- remembering the input would not change the counter
  have next := (t.after_eq (past ++ [now])).2
  rw [after_concat, (t.remember _ now).2] at next
  exact next

/-- What is down counts as pressed if it was up, or if autorepeat says so of its counter. -/
theorem pressed_iff (past : List DeviceInput) (now : DeviceInput) (hold period : Int) :
    (t.down now = true ∧ (t.wasDown (during past now) = false ∨
      repeats (t.held (during past now)) hold period = true)) ↔
      Pressed t.down past now hold period := by
  obtain ⟨last, counted⟩ := t.during_eq past now
  unfold Pressed
  rw [last]
  refine and_congr_right fun down => or_congr_right ?_
  rw [counted down]
  simp only [repeats, Bool.and_eq_true, Bool.or_eq_true, decide_eq_true_eq, beq_iff_eq, and_assoc,
    Int.dvd_iff_emod_eq_zero]

end Tracked

/-! ### Buttons -/

theorem toBitVec_buttonBit {id : Nat} (named : id < buttonCount) :
    (DeviceInput.buttonBit id).toBitVec = BitVec.twoPow 32 id := by
  have place : ((UInt32.ofNat id).toBitVec % 32).toNat = id := by
    simp only [buttonCount] at named
    simp [BitVec.toNat_umod]
    omega
  rw [DeviceInput.buttonBit, UInt32.toBitVec_shiftLeft, BitVec.shiftLeft_eq', place]
  rfl

theorem and_buttonBit_ne_zero {id : Nat} (named : id < buttonCount) (word : UInt32) :
    word &&& DeviceInput.buttonBit id ≠ 0 ↔ word.toBitVec.getLsbD id = true := by
  have masked : (word &&& DeviceInput.buttonBit id).toBitVec =
      if word.toBitVec.getLsbD id then BitVec.twoPow 32 id else 0 := by
    rw [UInt32.toBitVec_and, toBitVec_buttonBit named, BitVec.and_twoPow]
    rfl
  rw [Ne, ← UInt32.toBitVec_inj, masked]
  cases word.toBitVec.getLsbD id with
  | false => simp
  | true =>
    have nonzero : BitVec.twoPow 32 id ≠ 0 := by
      intro zero
      have bit := congrArg (·.getLsbD id) zero
      simp at bit
      exact absurd named (Nat.not_lt.mpr bit)
    simpa using nonzero

theorem pressedButtons_ne_zero_iff (h : InputHistory) (now : DeviceInput) (id : Fin buttonCount)
    (hold period : Int) :
    h.pressedButtons now id hold period ≠ 0 ↔
      now.buttonDown id = true ∧ (h.buttonWasDown id = false ∨
        repeats (h.buttonHold id) hold period = true) := by
  have named := id.isLt
  have negative : ¬ (id.val : Int) < 0 := by omega
  have small : (id.val : Int) < buttonCount := by omega
  have down (word : UInt32) : (word &&& DeviceInput.buttonBit id != 0) =
      word.toBitVec.getLsbD id := by
    rw [Bool.eq_iff_iff, bne_iff_ne, and_buttonBit_ne_zero named]
  rw [pressedButtons, if_neg negative, if_pos small, Int.toNat_natCast,
    and_buttonBit_ne_zero named, DeviceInput.buttonDown, buttonWasDown, down, down]
  -- where autorepeat makes a press, nothing counts as down before
  cases repeats (h.buttonHold id) hold period with
  | false => simp [named, and_comm]
  | true => simp [named]

/-! ### Keys -/

theorem keyPressed_iff (h : InputHistory) (now : DeviceInput) {code : Int} (positive : 0 < code)
    (known : code < keyCount) (hold period : Int) :
    h.keyPressed now code hold period = true ↔
      keyDown now.keyboard code.toNat = true ∧ (h.keyWasDown code.toNat = false ∨
        repeats (h.keyHold code.toNat) hold period = true) := by
  rw [keyPressed, if_neg (Int.not_le.mpr positive), if_pos known]
  cases repeats (h.keyHold code.toNat) hold period <;>
    cases h.keyWasDown code.toNat <;> simp

theorem anyKeyPressed_iff (h : InputHistory) (now : DeviceInput) {code : Int} (any : code ≤ 0)
    (hold period : Int) :
    h.keyPressed now code hold period = true ↔
      ∃ key ∈ now.keyboard, key ≠ 0 ∧ key ∉ h.keyboard := by
  rw [keyPressed, if_pos any]
  simp [Vector.any_eq_true, Vector.mem_iff_getElem]

/-- The keyboard in the last of some frames, with nothing down before the first. -/
def keyboardLast (past : List DeviceInput) : Vector UInt8 keyboardSlots :=
  (past.getLast?.map (·.keyboard)).getD (Vector.replicate _ 0)

theorem keyboard_during (past : List DeviceInput) (now : DeviceInput) :
    (during past now).keyboard = keyboardLast past := by
  induction past using List.reverseRecOn with
  | nil => rfl
  | append_singleton past last _ =>
    rw [during, after_concat, keyboardLast, List.getLast?_concat]
    rfl

/-! ### The order of the slots -/

/-- The same keys are down, in whatever slots. -/
def SameKeys (a b : DeviceInput) : Prop := a.keyboard.toList.Perm b.keyboard.toList

instance (a b : DeviceInput) : Decidable (SameKeys a b) :=
  inferInstanceAs (Decidable (List.Perm _ _))

theorem SameKeys.mem_iff {a b : DeviceInput} (same : SameKeys a b) (key : UInt8) :
    key ∈ a.keyboard ↔ key ∈ b.keyboard := by
  rw [← Vector.mem_toList_iff, ← Vector.mem_toList_iff]
  exact List.Perm.mem_iff same

theorem any_congr {v w : Vector UInt8 keyboardSlots} (same : ∀ key, key ∈ v ↔ key ∈ w)
    (p : UInt8 → Bool) : v.any p = w.any p := by
  rw [Bool.eq_iff_iff, ← Vector.any_toList, ← Vector.any_toList, List.any_eq_true, List.any_eq_true]
  simp only [Vector.mem_toList_iff, same]

theorem contains_congr {v w : Vector UInt8 keyboardSlots} (same : ∀ key, key ∈ v ↔ key ∈ w)
    (key : UInt8) : v.contains key = w.contains key := by
  rw [Bool.eq_iff_iff, Vector.contains_iff_mem, Vector.contains_iff_mem]
  exact same key

/-- Two histories that differ at most in the slots of the keys that were down. -/
structure Alike (h k : InputHistory) : Prop where
  keys : ∀ key, key ∈ h.keyboard ↔ key ∈ k.keyboard
  holds : h.keyHolds = k.keyHolds

theorem Alike.countHolds {h k : InputHistory} {a b : DeviceInput} (alike : h.Alike k)
    (same : SameKeys a b) : (h.countHolds a).Alike (k.countHolds b) := by
  refine ⟨alike.keys, ?_⟩
  have counted (code : Nat) : (h.keyWasDown code && keyDown a.keyboard code) =
      (k.keyWasDown code && keyDown b.keyboard code) :=
    congrArg₂ (· && ·) (any_congr alike.keys _) (any_congr same.mem_iff _)
  simp only [InputHistory.countHolds, counted, alike.holds]

theorem Alike.remember {h k : InputHistory} {a b : DeviceInput} (alike : h.Alike k)
    (same : SameKeys a b) : (h.remember a).Alike (k.remember b) :=
  ⟨same.mem_iff, alike.holds⟩

theorem alike_after {past other : List DeviceInput} (same : List.Forall₂ SameKeys past other) :
    (after past).Alike (after other) := by
  -- the histories are alike after every frame, so the start is generalised
  suffices frames : ∀ h k : InputHistory, h.Alike k →
      Alike (past.foldl (fun h now => (h.countHolds now).remember now) h)
        (other.foldl (fun h now => (h.countHolds now).remember now) k) from
    frames _ _ ⟨fun _ => Iff.rfl, rfl⟩
  induction same with
  | nil => exact fun _ _ alike => alike
  | cons same _ ih => exact fun h k alike => ih _ _ ((alike.countHolds same).remember same)

theorem key_congr {a b : DeviceInput} (same : SameKeys a b) (code : Int) :
    key a code = key b code := by
  unfold key keyDown
  rw [any_congr same.mem_iff, any_congr same.mem_iff]

theorem Alike.keyPressed {h k : InputHistory} {a b : DeviceInput} (alike : h.Alike k)
    (same : SameKeys a b) (code hold period : Int) :
    h.keyPressed a code hold period = k.keyPressed b code hold period := by
  have wasDown (code : Nat) : h.keyWasDown code = k.keyWasDown code := any_congr alike.keys _
  have down (code : Nat) : keyDown a.keyboard code = keyDown b.keyboard code :=
    any_congr same.mem_iff _
  have held (code : Nat) : h.keyHold code = k.keyHold code := by
    rw [keyHold, keyHold, alike.holds]
  simp only [InputHistory.keyPressed, any_congr same.mem_iff, contains_congr alike.keys, wasDown,
    down, held]

/-- In the frame after `past`, with the input `now`: a button is pressed, and so is a key, exactly if
it is down and was up in the frame before or is repeated in its unbroken run; any key is pressed
exactly if one is down that was not down in the frame before; and what a program hears of keys is
the same for every order of the keys in the slots, in this frame and in those before. -/
theorem presses_over_frames (past : List DeviceInput) (now : DeviceInput) :
    (∀ (id : Fin buttonCount) (hold period : Int),
      (during past now).pressedButtons now id hold period ≠ 0 ↔
        Pressed (·.buttonDown id) past now hold period) ∧
    (∀ code : Int, 0 < code → code < keyCount → ∀ hold period : Int,
      (during past now).keyPressed now code hold period = true ↔
        Pressed (fun d => keyDown d.keyboard code.toNat) past now hold period) ∧
    (∀ code : Int, code ≤ 0 → ∀ hold period : Int,
      (during past now).keyPressed now code hold period = true ↔
        ∃ key ∈ now.keyboard, key ≠ 0 ∧ key ∉ keyboardLast past) ∧
    (∀ (other : List DeviceInput) (next : DeviceInput), List.Forall₂ SameKeys past other →
      SameKeys now next → ∀ code hold period : Int,
        key next code = key now code ∧
        (during other next).keyPressed next code hold period =
          (during past now).keyPressed now code hold period) := by
  refine ⟨?_, ?_, ?_, ?_⟩
  · intro id hold period
    rw [pressedButtons_ne_zero_iff]
    exact (Tracked.button id).pressed_iff past now hold period
  · intro code positive known hold period
    rw [keyPressed_iff _ _ positive known]
    exact (Tracked.key code.toNat ⟨by omega, by omega⟩).pressed_iff past now hold period
  · intro code any hold period
    rw [anyKeyPressed_iff _ _ any, keyboard_during]
  · intro other next same next_same code hold period
    have alike := (alike_after same).countHolds next_same
    exact ⟨(key_congr next_same code).symm, (alike.keyPressed next_same code hold period).symm⟩

/-- Key 7 moves between the slots and is repeated in its fourth frame, the third that counts; key 9
has just come down; and shuffled slots are heard alike. -/
theorem presses_over_frames_held :
    let keys (a b c d : UInt8) : DeviceInput := { keyboard := #v[a, b, c, d] }
    let past := [keys 7 0 0 0, keys 0 7 0 0, keys 0 7 3 0]
    let now := keys 7 3 9 0
    let other := [keys 0 0 7 0, keys 7 0 0 0, keys 3 0 0 7]
    let next := keys 0 9 3 7
    (during past now).keyPressed now 7 2 3 = true ∧
      (during past now).keyPressed now 0 (-1) (-1) = true ∧
      (during other next).keyPressed next 7 2 3 = (during past now).keyPressed now 7 2 3 := by
  intro keys past now other next
  obtain ⟨_, keyed, any, shuffled⟩ := presses_over_frames past now
  refine ⟨(keyed 7 (by decide) (by decide) 2 3).mpr ?_, (any 0 (by decide) _ _).mpr ?_, ?_⟩
  · refine ⟨by decide +kernel, .inr ⟨by decide, by decide, by decide +kernel, .inr ?_⟩⟩
    decide +kernel
  · exact ⟨9, by decide +kernel, by decide, by decide +kernel⟩
  · have same : List.Forall₂ SameKeys past other :=
      .cons (by decide +kernel) (.cons (by decide +kernel) (.cons (by decide +kernel) .nil))
    exact (shuffled other next same (by decide +kernel) 7 2 3).2

end InputHistory

end FantasyConsole
