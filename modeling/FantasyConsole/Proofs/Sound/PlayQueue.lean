import FantasyConsole.Sound.Ring

/-!
# The sound ring as a bounded queue

Seen from outside, the ring is the frame that was played last and a queue of at most ten frames
that are still to be played. A frame that finds the queue full is dropped. The ring is used only
through `push`, `advance`, `current` and `pending`, so it is compared with the queue over every
sequence of the first two and at the values of the other two.

## Main result

`SoundRing.run_refines_playQueue`: ring and queue answer alike after every sequence of operations,
a push on a full ring is never noticed, and the frames that were accepted are those that were
played, in order, followed by those that still wait.

## Proof strategy

Slots are counted from the tail. The frames that wait are at the places below `pending`, the head is
at place `pending`, and the frame played last is at place 11. At most ten frames wait, so the head
never meets a slot that is still to be read, wherever in the ring the tail stands.
-/

namespace FantasyConsole

/-! ### The queue -/

/-- The frame that was played last, and the frames that are still to be played, the next one
first. -/
structure PlayQueue where
  last : RegisterFrame
  waiting : List RegisterFrame
  bounded : waiting.length ≤ 10

/-- One use of the ring. -/
inductive RingOp where
  | push (entry : RegisterFrame)
  | advance
deriving DecidableEq, Repr

namespace PlayQueue

def empty : PlayQueue := ⟨.silent, [], by decide⟩

/-- Adds a frame at the end; a full queue drops it. -/
def push (a : PlayQueue) (entry : RegisterFrame) : PlayQueue :=
  if room : a.waiting.length < 10 then
    { a with
      waiting := a.waiting ++ [entry]
      bounded := by rw [List.length_append, List.length_singleton]; omega }
  else
    a

/-- Plays the next frame, if there is one. -/
def advance (a : PlayQueue) : PlayQueue :=
  match a with
  | ⟨_, [], _⟩ => a
  | ⟨_, entry :: rest, bounded⟩ => ⟨entry, rest, Nat.le_of_succ_le bounded⟩

def apply (a : PlayQueue) : RingOp → PlayQueue
  | .push entry => a.push entry
  | .advance => a.advance

/-- The queue after a sequence of operations. -/
def run (a : PlayQueue) (ops : List RingOp) : PlayQueue := ops.foldl apply a

end PlayQueue

namespace SoundRing

def apply (q : SoundRing) : RingOp → SoundRing
  | .push entry => q.push entry
  | .advance => q.advance

/-- The ring after a sequence of operations. -/
def run (q : SoundRing) (ops : List RingOp) : SoundRing := ops.foldl apply q

/-! ### Slots counted from the tail -/

/-- The slot at distance `i` behind the tail. -/
def place (q : SoundRing) (i : Nat) : Fin ringSlots :=
  ⟨(q.tail + i) % ringSlots, Nat.mod_lt _ (by decide)⟩

theorem place_inj (q : SoundRing) {i j : Nat} (hi : i < ringSlots) (hj : j < ringSlots) :
    q.place i = q.place j ↔ i = j := by
  constructor
  · intro same
    have values := congrArg Fin.val same
    simp only [place, ringSlots] at values hi hj
    omega
  · intro same
    rw [same]

theorem pending_lt (q : SoundRing) : q.pending < ringSlots := (q.head - q.tail).isLt

/-- The head stands behind the frames that wait. -/
theorem place_pending (q : SoundRing) : q.place q.pending = q.head := by
  apply Fin.ext
  have head := q.head.isLt
  have tail := q.tail.isLt
  simp only [place, pending, Fin.val_sub, ringSlots] at head tail ⊢
  omega

theorem current_eq (q : SoundRing) : q.current = q.slots[q.place 11] := rfl

/-- The frames that are still to be played, the next one first. -/
def waiting (q : SoundRing) : List RegisterFrame :=
  (List.range q.pending).map fun i => q.slots[q.place i]

theorem length_waiting (q : SoundRing) : q.waiting.length = q.pending := by
  simp [waiting]

/-! ### One operation -/

/-- The queue that a ring stands for. -/
structure Represents (q : SoundRing) (a : PlayQueue) : Prop where
  current : q.current = a.last
  waiting : q.waiting = a.waiting

theorem Represents.pending_eq {q : SoundRing} {a : PlayQueue} (related : q.Represents a) :
    q.pending = a.waiting.length := by
  rw [← related.waiting, length_waiting]

/-- Writing at the head is not seen at any other place. -/
theorem getElem_push (q : SoundRing) (entry : RegisterFrame) {i : Nat} (hi : i < ringSlots)
    (ne : i ≠ q.pending) : (q.push entry).slots[q.place i] = q.slots[q.place i] := by
  have apart : q.head.val ≠ (q.place i).val := by
    intro same
    rw [← place_pending] at same
    exact ne ((q.place_inj hi q.pending_lt).mp (Fin.ext same.symm))
  simp [push, Vector.getElem_set_ne, apart]

theorem getElem_push_head (q : SoundRing) (entry : RegisterFrame) :
    (q.push entry).slots[q.place q.pending] = entry := by
  simp [push, place_pending]

theorem isFull_iff (q : SoundRing) : q.head = q.tail + 10 ↔ q.pending = 10 := by
  -- the head stands at place `pending`, so it stands at place 10 exactly if ten frames wait
  have same := q.place_inj q.pending_lt (j := 10) (by decide)
  rw [place_pending] at same
  exact same

theorem pending_push (q : SoundRing) (entry : RegisterFrame) (room : q.pending < 10) :
    (q.push entry).pending = q.pending + 1 := by
  have moved : ¬ q.head = q.tail + 10 := by
    rw [isFull_iff]
    omega
  have head := q.head.isLt
  have tail := q.tail.isLt
  simp only [pending, push, if_neg moved, Fin.val_sub, Fin.val_add, ringSlots] at head tail room ⊢
  have one : (1 : Fin 12).val = 1 := rfl
  omega

theorem pending_push_full (q : SoundRing) (entry : RegisterFrame) (full : q.pending = 10) :
    (q.push entry).pending = q.pending := by
  have stays := (isFull_iff q).mpr full
  simp only [pending, push, if_pos stays]

theorem current_push {q : SoundRing} (bounded : q.pending ≤ 10) (entry : RegisterFrame) :
    (q.push entry).current = q.current :=
  -- place 11 is never the head, which is at most at place 10
  getElem_push q entry (i := 11) (by decide) (by omega)

private theorem getElem_push_waiting (q : SoundRing) (entry : RegisterFrame) :
    (List.range q.pending).map (fun i => (q.push entry).slots[q.place i]) = q.waiting := by
  refine List.map_congr_left fun i hi => ?_
  have before := List.mem_range.mp hi
  exact getElem_push q entry (Nat.lt_trans before q.pending_lt) (Nat.ne_of_lt before)

theorem waiting_push {q : SoundRing} (room : q.pending < 10) (entry : RegisterFrame) :
    (q.push entry).waiting = q.waiting ++ [entry] := by
  calc (q.push entry).waiting
      = (List.range (q.pending + 1)).map (fun i => (q.push entry).slots[q.place i]) := by
        rw [waiting, pending_push q entry room]
        rfl
    _ = q.waiting ++ [(q.push entry).slots[q.place q.pending]] := by
        rw [List.range_succ, List.map_append, getElem_push_waiting, List.map_singleton]
    _ = q.waiting ++ [entry] := by rw [getElem_push_head]

theorem waiting_push_full {q : SoundRing} (full : q.pending = 10) (entry : RegisterFrame) :
    (q.push entry).waiting = q.waiting := by
  rw [waiting, pending_push_full q entry full]
  exact getElem_push_waiting q entry

theorem represents_push {q : SoundRing} {a : PlayQueue} (related : q.Represents a)
    (entry : RegisterFrame) : (q.push entry).Represents (a.push entry) := by
  have bounded := a.bounded
  rw [← related.pending_eq] at bounded
  -- a full ring still writes the slot at its head, where nothing waits
  by_cases room : a.waiting.length < 10
  · rw [PlayQueue.push, dif_pos room]
    constructor
    · exact (current_push bounded entry).trans related.current
    · rw [← related.pending_eq] at room
      rw [waiting_push room, related.waiting]
  · rw [PlayQueue.push, dif_neg room]
    constructor
    · exact (current_push bounded entry).trans related.current
    · rw [← related.pending_eq] at room
      exact (waiting_push_full (by omega) entry).trans related.waiting

theorem isEmpty_iff (q : SoundRing) : q.tail = q.head ↔ q.pending = 0 := by
  have same := q.place_inj (j := 0) q.pending_lt (by decide)
  have tail : q.place 0 = q.tail := Fin.ext (Nat.mod_eq_of_lt q.tail.isLt)
  rw [place_pending, tail] at same
  exact Iff.trans eq_comm same

theorem advance_of_empty {q : SoundRing} (none : q.pending = 0) : q.advance = q := by
  rw [advance, if_pos (q.isEmpty_iff.mpr none)]

/-- An advance moves every place of a ring that is not empty one slot on. -/
theorem place_advance {q : SoundRing} (some : q.pending ≠ 0) (i : Nat) :
    q.advance.place i = q.place (i + 1) := by
  have moves : ¬ q.tail = q.head := fun h => some (q.isEmpty_iff.mp h)
  apply Fin.ext
  have one : (1 : Fin 12).val = 1 := rfl
  simp only [place, advance, if_neg moves, Fin.val_add, ringSlots]
  omega

theorem pending_advance {q : SoundRing} (some : q.pending ≠ 0) :
    q.advance.pending + 1 = q.pending := by
  have moves : ¬ q.tail = q.head := fun h => some (q.isEmpty_iff.mp h)
  have head := q.head.isLt
  have tail := q.tail.isLt
  have one : (1 : Fin 12).val = 1 := rfl
  simp only [pending, advance, if_neg moves, Fin.val_add, Fin.val_sub, ringSlots] at head tail some ⊢
  omega

theorem getElem_advance (q : SoundRing) (i : Fin ringSlots) : q.advance.slots[i] = q.slots[i] := by
  unfold advance
  split <;> rfl

/-- An advance plays the first frame that waits. -/
theorem waiting_eq_cons {q : SoundRing} (some : q.pending ≠ 0) :
    q.waiting = q.advance.current :: q.advance.waiting := by
  have first : q.advance.current = q.slots[q.place 0] := by
    -- twelve places behind the tail is the tail again
    have wrapped : q.place (11 + 1) = q.place 0 := Fin.ext (Nat.add_mod_right q.tail ringSlots)
    rw [current_eq, getElem_advance, place_advance some, wrapped]
  have rest : q.advance.waiting =
      (List.range q.advance.pending).map fun i => q.slots[q.place (i + 1)] := by
    refine List.map_congr_left fun i _ => ?_
    rw [getElem_advance, place_advance some]
  rw [first, rest, waiting, ← pending_advance some, List.range_succ_eq_map, List.map_cons,
    List.map_map]
  rfl

theorem represents_advance {q : SoundRing} {a : PlayQueue} (related : q.Represents a) :
    q.advance.Represents a.advance := by
  obtain ⟨last, queued⟩ := related
  obtain ⟨played, frames, bounded⟩ := a
  simp only at last queued
  by_cases none : q.pending = 0
  · have nothing : frames = [] := by
      rw [← queued, ← List.length_eq_zero_iff, length_waiting, none]
    subst nothing
    rw [advance_of_empty none]
    exact ⟨last, queued⟩
  · have shown := (waiting_eq_cons none).symm.trans queued
    cases frames with
    | nil => exact absurd shown (List.cons_ne_nil _ _)
    | cons entry rest =>
      obtain ⟨next, later⟩ := List.cons.inj shown
      exact ⟨next, later⟩

/-! ### Sequences of operations -/

theorem represents_apply {q : SoundRing} {a : PlayQueue} (related : q.Represents a) (op : RingOp) :
    (q.apply op).Represents (a.apply op) := by
  cases op with
  | push entry => exact represents_push related entry
  | advance => exact represents_advance related

theorem represents_run {q : SoundRing} {a : PlayQueue} (related : q.Represents a)
    (ops : List RingOp) : (q.run ops).Represents (a.run ops) := by
  induction ops generalizing q a with
  | nil => exact related
  | cons op ops ih => exact ih (represents_apply related op)

theorem represents_empty : empty.Represents .empty := ⟨rfl, rfl⟩

/-- The frames that found room, in the order in which they were pushed. -/
def accepted (q : SoundRing) : List RingOp → List RegisterFrame
  | [] => []
  | .push entry :: ops =>
    if q.pending < 10 then entry :: (q.push entry).accepted ops else (q.push entry).accepted ops
  | .advance :: ops => q.advance.accepted ops

/-- The frames that advances made current, in order. -/
def played (q : SoundRing) : List RingOp → List RegisterFrame
  | [] => []
  | .push entry :: ops => (q.push entry).played ops
  | .advance :: ops =>
    if q.pending = 0 then q.advance.played ops else q.advance.current :: q.advance.played ops

/-- No accepted frame is lost, repeated or overtaken. -/
theorem waiting_append_accepted {q : SoundRing} {a : PlayQueue} (related : q.Represents a)
    (ops : List RingOp) :
    q.waiting ++ q.accepted ops = q.played ops ++ (a.run ops).waiting := by
  -- an accepted frame joins the end of what waits, and a played one was the first of it
  induction ops generalizing q a with
  | nil =>
    rw [accepted, played, List.append_nil, List.nil_append, related.waiting]
    rfl
  | cons op ops ih =>
    have later := ih (represents_apply related op)
    have bounded := a.bounded
    rw [← related.pending_eq] at bounded
    cases op with
    | push entry =>
      change (q.push entry).waiting ++ (q.push entry).accepted ops = _ at later
      rw [accepted, played]
      by_cases room : q.pending < 10
      · rw [waiting_push room, List.append_assoc] at later
        rw [if_pos room]
        exact later
      · rw [waiting_push_full (by omega)] at later
        rw [if_neg room]
        exact later
    | advance =>
      change q.advance.waiting ++ q.advance.accepted ops = q.advance.played ops ++ _ at later
      rw [accepted, played]
      by_cases none : q.pending = 0
      · rw [if_pos none]
        rw [advance_of_empty none] at later ⊢
        exact later
      · rw [if_neg none, waiting_eq_cons none, List.cons_append, List.cons_append, later]
        rfl

/-- A ring that began empty is a queue of at most ten frames that drops what finds it full. The
frame in play and the number of frames that wait are those of the queue; a push never changes the
frame in play, and a push on a full ring is noticed by no later operation; and what was accepted is
what was played followed by what waits. -/
theorem run_refines_playQueue (ops : List RingOp) :
    (empty.run ops).current = (PlayQueue.empty.run ops).last ∧
    (empty.run ops).pending = (PlayQueue.empty.run ops).waiting.length ∧
    (PlayQueue.empty.run ops).waiting.length ≤ 10 ∧
    (∀ entry, ((empty.run ops).push entry).current = (empty.run ops).current) ∧
    (∀ entry more, (empty.run ops).pending = 10 →
      (((empty.run ops).push entry).run more).current = ((empty.run ops).run more).current ∧
      (((empty.run ops).push entry).run more).pending = ((empty.run ops).run more).pending) ∧
    empty.accepted ops = empty.played ops ++ (PlayQueue.empty.run ops).waiting := by
  have related := represents_run represents_empty ops
  refine ⟨related.current, related.pending_eq, (PlayQueue.empty.run ops).bounded, ?_, ?_, ?_⟩
  · intro entry
    have bounded := (PlayQueue.empty.run ops).bounded
    rw [← related.pending_eq] at bounded
    exact current_push bounded entry
  · intro entry more full
    -- ring and dropped frame stand for the same queue, and so does all that follows
    have same : (PlayQueue.empty.run ops).push entry = PlayQueue.empty.run ops := by
      rw [related.pending_eq] at full
      rw [PlayQueue.push, dif_neg (by omega)]
    have pushed := represents_push related entry
    rw [same] at pushed
    have left := represents_run pushed more
    have right := represents_run related more
    exact ⟨left.current.trans right.current.symm, left.pending_eq.trans right.pending_eq.symm⟩
  · exact waiting_append_accepted represents_empty ops

end SoundRing

end FantasyConsole
