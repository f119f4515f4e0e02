import FantasyConsole.Proofs.Sound.Lockstep
import FantasyConsole.Proofs.Sound.MusicSchedule
import Mathlib.Logic.Function.Iterate
import Mathlib.Logic.Relation

/-!
# The playback of an effect

An effect that is started plays on its channel until its time is over: in each frame its tick counts
one on, and each part of the envelope has taken as many steps through its loop as the speed makes of
the tick. Nothing that happens on other channels or in the music changes that, and the channel in
turn leaves the positions of the others alone.
-/

namespace FantasyConsole

open Ram

/-! ### Steps through a loop -/

namespace SampleLoop

/-- The envelope tick that comes after another. -/
def step (l : SampleLoop) (p : Nat) : Nat :=
  if l.size = 0 then min (p + 1) (envelopeTicks - 1)
  else if p + 1 < l.start + l.size then p + 1
  else l.start

/-- The envelope tick reached after `n` ticks. -/
def reached (l : SampleLoop) (n : Nat) : Nat :=
  if l.size = 0 then min n (envelopeTicks - 1)
  else if n < l.start + l.size then n
  else l.start + (n - (l.start + l.size)) % l.size

theorem position_natCast (l : SampleLoop) (n : Nat) : l.position n = l.reached n := by
  unfold position reached
  by_cases first : n = 0
  · subst first
    rw [if_pos (by omega)]
    split
    · rfl
    · rw [if_pos (by omega)]
      rfl
  rw [if_neg (by omega)]
  split
  · simp only [envelopeTicks]
    omega
  dsimp only
  split
  · rw [if_pos (by omega)]
  · rw [if_neg (by omega)]
    have past : (n : Int) - (l.start + l.size - 1) - 1 = (n - (l.start + l.size) : Nat) := by
      omega
    rw [past]
    rfl

theorem step_reached (l : SampleLoop) (n : Nat) : l.step (l.reached n) = l.reached (n + 1) := by
  unfold step reached
  by_cases endless : l.size = 0
  · simp only [if_pos endless, envelopeTicks]
    omega
  simp only [if_neg endless]
  by_cases inside : n < l.start + l.size
  · rw [if_pos inside]
    by_cases last : n + 1 < l.start + l.size
    · rw [if_pos last, if_pos last]
    · have passed : n + 1 - (l.start + l.size) = 0 := by omega
      rw [if_neg last, if_neg last, passed, Nat.zero_mod]
      rfl
  rw [if_neg inside, if_neg (by omega : ¬ n + 1 < l.start + l.size)]
  have next : n + 1 - (l.start + l.size) = n - (l.start + l.size) + 1 := by omega
  rw [next]
  generalize n - (l.start + l.size) = k
  -- of the tick after only the remainder of the one before counts
  have remainder : (k + 1) % l.size = (k % l.size + 1) % l.size := (Nat.mod_add_mod ..).symm
  have below := Nat.mod_lt k (Nat.pos_of_ne_zero endless)
  by_cases last : k % l.size + 1 = l.size
  · rw [if_neg (by omega), remainder, last, Nat.mod_self]
    rfl
  · have small : k % l.size + 1 < l.size := by omega
    rw [if_pos (by omega), remainder, Nat.mod_eq_of_lt small]
    omega

/-- The position after `n` ticks is reached by as many steps from the first tick. -/
theorem position_eq_iterate (l : SampleLoop) (n : Nat) : l.position n = (l.step^[n] 0 : Nat) := by
  have steps : l.step^[n] 0 = l.reached n := by
    induction n with
    | zero =>
      unfold reached
      split
      · rfl
      · rw [if_pos (by omega)]
        rfl
    | succ n ih => rw [Function.iterate_succ_apply', ih, step_reached]
  rw [steps, position_natCast]

/-- Wherever a loop has come to, as many steps as ticks have passed lead there from the first tick
of the envelope, and it is a tick of the envelope. -/
theorem position_by_steps (l : SampleLoop) (start : l.start ≤ 15) (size : l.size ≤ 15) (pos : Int) :
    l.position pos = (l.step^[pos.toNat] 0 : Nat) ∧ 0 ≤ l.position pos ∧ l.position pos ≤ 29 := by
  refine ⟨?_, l.position_mem start size pos⟩
  rcases Int.le_total 0 pos with counted | before
  · rw [← l.position_eq_iterate, Int.toNat_of_nonneg counted]
  · -- before the first tick no step has been made
    rw [Int.toNat_of_nonpos before, position, if_pos before]
    rfl

/-- A loop over the ticks from 3 to 6, three ticks after its end. -/
theorem position_by_steps_again : (⟨3, 4⟩ : SampleLoop).position 9 = 5 :=
  (position_by_steps ⟨3, 4⟩ (by decide) (by decide) 9).1.trans (by decide)

end SampleLoop

theorem envelopeProgress_nonneg (speed : Int) (ticks : Nat) : 0 ≤ envelopeProgress speed ticks := by
  unfold envelopeProgress
  split
  · exact Int.mul_nonneg (Int.natCast_nonneg _) (by omega)
  · exact Int.tdiv_nonneg (Int.natCast_nonneg _) (by omega)

/-! ### A frame of one channel -/

namespace Layout

/-- What decides how a channel sounds. -/
def instruments : List Region := [samples, waveforms]

end Layout

/-- The bytes of memory that hold the envelope positions of an effect channel. -/
def Ram.positionsOf (r : Ram) (c : Fin channelCount) : Vector UInt8 4 :=
  r.region (Layout.positionsOf c)

theorem Ram.positionsOf_congr {r m : Ram} {c : Fin channelCount}
    (same : SameOn [Layout.positionsOf c] r m) : m.positionsOf c = r.positionsOf c :=
  region_ext fun i inside => same _ (.head _) i inside

theorem Channel.positionsOf_storePositions (ch : Channel) (c : Fin channelCount) (r : Ram) :
    (ch.storePositions c r).positionsOf c = ch.positions.toVector.map byteOfInt := by
  have fits : (Layout.positionsOf c).stop ≤ Layout.memorySize := by
    have own : c.val < 4 := c.isLt
    simp only [Region.stop, Layout.positionsOf, Layout.effectPositions, Layout.memorySize]
    omega
  exact r.region_setRegion_self (g := Layout.positionsOf c) fits _

namespace Channel

/-- An effect channel after a frame. -/
def afterFrame (ch : Channel) (r : Ram) : Channel :=
  if ch.isActive then (ch.advance r ch.note 0).1 else ch

/-- The bytes that hold the envelope positions. -/
def positionBytes (ch : Channel) : Vector UInt8 4 := ch.positions.toVector.map byteOfInt

theorem advance_congr (ch : Channel) {r m : Ram} (same : SameOn Layout.instruments r m)
    (note pitch : Int) : ch.advance m note pitch = ch.advance r note pitch := by
  obtain ⟨moved, register⟩ := (Alike.refl True ch).advance same note pitch
  exact Prod.ext moved.eq register

theorem afterFrame_congr (ch : Channel) {r m : Ram} (same : SameOn Layout.instruments r m) :
    ch.afterFrame m = ch.afterFrame r := by
  rw [afterFrame, afterFrame, ch.advance_congr same]

/-- What a frame of effects does for one of their channels: its state, its positions in memory, and
its register. -/
structure Plays (c : Fin channelCount) (ch : Channel) (r : Ram) (dh : Channel) (m : Ram) :
    Prop where
  state : dh = ch.afterFrame r
  positions : m.positionsOf c = if ch.isActive then dh.positionBytes else r.positionsOf c
  unheard : (ch.advance r ch.note 0).2 = none → SameOn (Layout.heardOf c) r m

theorem Plays.trans {c : Fin channelCount} {ch dh : Channel} {r m o : Ram}
    (plays : ch.Plays c r dh m) (kept : SameOn (Layout.effectOutputOf c) m o) :
    ch.Plays c r dh o where
  state := plays.state
  positions := by
    rw [positionsOf_congr (kept.mono (by simp [Layout.effectOutputOf])), plays.positions]
  unheard none :=
    (plays.unheard none).trans (kept.mono (by simp [Layout.heardOf, Layout.effectOutputOf]))

theorem Plays.of_sameOn {c : Fin channelCount} {ch dh : Channel} {r m o : Ram}
    (plays : ch.Plays c m dh o) (instruments : SameOn Layout.instruments r m)
    (kept : SameOn (Layout.effectOutputOf c) r m) : ch.Plays c r dh o where
  state := by rw [plays.state, ch.afterFrame_congr instruments]
  positions := by
    rw [plays.positions, positionsOf_congr (kept.mono (by simp [Layout.effectOutputOf]))]
  unheard none := by
    rw [← ch.advance_congr instruments] at none
    exact (kept.mono (by simp [Layout.heardOf, Layout.effectOutputOf])).trans (plays.unheard none)

end Channel

namespace Sound

/-- A channel is left alone by the effects on other channels. -/
theorem tickEffect_of_ne (s : Sound) (r : Ram) {c d : Fin channelCount} (ne : d ≠ c) :
    (s.tickEffect r c).1.effects.get d = s.effects.get d ∧
      SameOn (Layout.effectOutputOf d) r (s.tickEffect r c).2 := by
  constructor
  · unfold tickEffect
    dsimp only
    split
    · exact PerChannel.get_replace_of_ne _ ne _
    · rfl
  · exact (s.sameOutside_tickEffect r c).sameOn fun h own g other =>
      Layout.effectOutputOf_disjoint ne h own g other

theorem tickEffect_self (s : Sound) (r : Ram) (c : Fin channelCount) :
    (s.effects.get c).Plays c r ((s.tickEffect r c).1.effects.get c) (s.tickEffect r c).2 := by
  unfold tickEffect
  dsimp only
  split
  case isFalse idle =>
    refine ⟨?_, ?_, fun _ => .refl _ r⟩
    · rw [Channel.afterFrame, if_neg idle]
    · rw [if_neg idle]
  case isTrue active =>
    rw [PerChannel.get_replace_self]
    refine ⟨?_, ?_, fun unheard => ?_⟩
    · rw [Channel.afterFrame, if_pos active, Channel.play]
      split
      case h_1 moved => rw [moved]
      case h_2 moved => rw [moved]
    · rw [if_pos active, Channel.positionsOf_storePositions, Channel.positionBytes]
    · have kept : ((s.effects.get c).play c r (s.effects.get c).note 0).2 = r := by
        rw [Channel.play]
        split
        case h_1 heard =>
          rw [heard] at unheard
          cases unheard
        case h_2 => rfl
      rw [kept]
      exact (Channel.sameOutside_storePositions _ c r).sameOn (Layout.heardOf_disjoint c)

theorem tickEffects_of_not_mem (s : Sound) (r : Ram) {d : Fin channelCount}
    {channels : List (Fin channelCount)} (other : d ∉ channels) :
    let result := channels.foldl (fun (s, r) c => tickEffect s r c) (s, r)
    result.1.effects.get d = s.effects.get d ∧ SameOn (Layout.effectOutputOf d) r result.2 := by
  induction channels generalizing s r with
  | nil => exact ⟨rfl, .refl _ r⟩
  | cons c channels ih =>
    obtain ⟨own, rest⟩ := not_or.mp (mt List.mem_cons.mpr other)
    obtain ⟨state, memory⟩ := s.tickEffect_of_ne r own
    obtain ⟨later, kept⟩ := ih (s.tickEffect r c).1 (s.tickEffect r c).2 rest
    exact ⟨later.trans state, memory.trans kept⟩

/-- Each channel is moved on once, and what comes before and after does not matter to it. -/
theorem tickEffects_of_mem (s : Sound) (r : Ram) {d : Fin channelCount}
    {channels : List (Fin channelCount)} (once : channels.Nodup) (member : d ∈ channels) :
    let result := channels.foldl (fun (s, r) c => tickEffect s r c) (s, r)
    (s.effects.get d).Plays d r (result.1.effects.get d) result.2 := by
  induction channels generalizing s r with
  | nil => cases member
  | cons c channels ih =>
    obtain ⟨apart, once⟩ := List.nodup_cons.mp once
    -- the own turn comes once; the others before and after it leave channel and output alone
    by_cases own : d = c
    · subst own
      obtain ⟨later, kept⟩ := tickEffects_of_not_mem (s.tickEffect r d).1 (s.tickEffect r d).2 apart
      have moved := (s.tickEffect_self r d).trans kept
      rw [← later] at moved
      exact moved
    · obtain ⟨state, memory⟩ := s.tickEffect_of_ne r own
      have rest := ih (s.tickEffect r c).1 (s.tickEffect r c).2 once
        (List.mem_of_ne_of_mem own member)
      rw [state] at rest
      have instruments : SameOn Layout.instruments r (s.tickEffect r c).2 :=
        ((s.sameOutside_tickEffect r c).widen (Layout.effectOutputOf_within c)).sameOn (by decide)
      exact rest.of_sameOn instruments memory

/-- Where the music goes on a frame begins, and every effect channel plays on the memory that the
music leaves. -/
theorem beginFrame_plays {s : Sound} {r : Ram} {moved : Sequencer × Ram}
    (ticked : s.music.tick r.clearRegisters = .ok moved) :
    SameOn (Layout.effectPositions :: Layout.instruments) r moved.2 ∧
      ∃ x, s.beginFrame r = .ok x ∧ SameOn Layout.instruments r x.2 ∧
        ∀ c, (s.effects.get c).Plays c moved.2 (x.1.effects.get c) x.2 := by
  have kept : SameOn (Layout.effectPositions :: Layout.instruments) r moved.2 :=
    (r.sameOutside_clearRegisters.sameOn (by decide)).trans
      ((Sequencer.sameOutside_tick ticked).sameOn (by decide))
  refine ⟨kept, ?_⟩
  rw [beginFrame_eq, ticked]
  refine ⟨_, rfl, (kept.mono (by decide)).trans ?_, fun c => ?_⟩
  · exact (music_tickEffects { s with music := moved.1 } moved.2 _).2.sameOn (by decide)
  · exact tickEffects_of_mem { s with music := moved.1 } moved.2 (by decide) (mem_allChannels c)

theorem beginFrame_of_fault {s : Sound} {r : Ram} {fault : Fault}
    (ticked : s.music.tick r.clearRegisters = .error fault) : s.beginFrame r = .error fault := by
  rw [beginFrame_eq, ticked]
  rfl

end Sound

/-! ### The time of an effect -/

/-- Whether an effect of some duration is still played in a frame; frames count from 0. -/
def PlaysIn (duration : Int) (n : Nat) : Prop := duration < 0 ∨ n + 1 < duration

instance (duration : Int) (n : Nat) : Decidable (PlaysIn duration n) :=
  inferInstanceAs (Decidable (_ ∨ _))

/-- An effect channel with `n` frames behind it. -/
structure Channel.Counts (i : Fin sampleCount) (pace duration : Int) (n : Nat) (ch : Channel) :
    Prop where
  sample : ch.sample = some i
  speed : ch.speed = pace
  left : ch.duration = if 0 < duration then max 0 (duration - n) else duration
  /-- As long as the effect goes on, its next tick is the number of frames. -/
  next : duration < 0 ∨ n < duration → (ch.progress.elim 0 fun p => p.tick + 1) = n

theorem Channel.Counts.afterFrame {i : Fin sampleCount} {pace duration : Int} {n : Nat}
    {ch : Channel} (counts : ch.Counts i pace duration n) (r : Ram) :
    (ch.afterFrame r).Counts i pace duration (n + 1) ∧
      if PlaysIn duration n then
        (ch.afterFrame r).progress =
          some ⟨n, (Sample.load r i).loops.map (·.position (envelopeProgress pace n))⟩
      else (ch.afterFrame r).progress = none ∧ (ch.advance r ch.note 0).2 = none := by
  obtain ⟨sample, speed, left, next⟩ := counts
  have active : ch.isActive = true := by rw [Channel.isActive, sample, Option.isSome_some]
  have counted : (if 0 < ch.duration then ch.duration - 1 else ch.duration) =
      if 0 < duration then max 0 (duration - (n + 1 : Nat)) else duration := by
    rw [left]
    by_cases timed : 0 < duration
    · rw [if_pos timed, if_pos timed]
      split <;> omega
    · rw [if_neg timed, if_neg timed, if_neg timed]
  rw [Channel.afterFrame, if_pos active]
  unfold Channel.advance
  rw [sample, counted]
  dsimp only
  by_cases plays : PlaysIn duration n
  · have more : duration < 0 ∨ (n : Int) + 1 < duration := plays
    -- the time that is left is counted down before it is compared with 0
    have going : ¬ (if 0 < duration then max 0 (duration - (n + 1 : Nat)) else duration) = 0 := by
      split <;> omega
    rw [if_neg going, if_pos plays, speed]
    have counted := next (by omega)
    cases found : ch.progress with
    | none =>
      rw [found, Option.elim_none] at counted
      subst counted
      exact ⟨⟨rfl, rfl, rfl, fun _ => rfl⟩, rfl⟩
    | some p =>
      rw [found, Option.elim_some] at counted
      subst counted
      exact ⟨⟨rfl, rfl, rfl, fun _ => rfl⟩, rfl⟩
  · have spent : (if 0 < duration then max 0 (duration - (n + 1 : Nat)) else duration) = 0 := by
      unfold PlaysIn at plays
      split <;> omega
    rw [if_pos spent, if_neg plays]
    refine ⟨⟨rfl, speed, rfl, fun more => ?_⟩, rfl, rfl⟩
    unfold PlaysIn at plays
    omega

theorem Channel.counts_start (ch : Channel) (r : Ram) (i : Fin sampleCount)
    (note octave duration : Int) (left right : UInt8) (speed : Option Int) :
    (ch.start r (some i) note octave duration left right speed).Counts i
      (speed.getD (Sample.load r i).speed) duration 0 := by
  refine ⟨rfl, rfl, ?_, fun _ => rfl⟩
  dsimp only [Channel.start]
  split <;> omega

theorem byteOfInt_natCast (n : Nat) : byteOfInt n = UInt8.ofNat n := by
  apply UInt8.toNat_inj.mp
  rw [byteOfInt, UInt8.toNat_ofNat', UInt8.toNat_ofNat']
  omega

/-- The loops of an envelope after some steps from their first ticks, as memory holds them. -/
def Envelope.stepped (loops : Envelope SampleLoop) (steps : Nat) : Vector UInt8 4 :=
  (loops.map fun l => UInt8.ofNat (l.step^[steps] 0)).toVector

theorem Envelope.bytes_positions (loops : Envelope SampleLoop) (steps : Nat) :
    (loops.map (·.position steps)).toVector.map byteOfInt = loops.stepped steps := by
  simp [Envelope.stepped, Envelope.map, Envelope.toVector, SampleLoop.position_eq_iterate,
    byteOfInt_natCast]

theorem Envelope.bytes_idle :
    (⟨-1, -1, -1, -1⟩ : Envelope Int).toVector.map byteOfInt = Vector.replicate 4 0xFF := by
  decide +kernel

theorem Channel.Counts.plays {i : Fin sampleCount} {pace duration : Int} {n : Nat}
    {ch dh : Channel} (counts : ch.Counts i pace duration n) {c : Fin channelCount} {r m : Ram}
    (plays : ch.Plays c r dh m) :
    if PlaysIn duration n then
      dh.tick = n ∧
        m.positionsOf c = (Sample.load r i).loops.stepped (envelopeProgress pace n).toNat
    else
      dh.tick = -1 ∧ m.positionsOf c = Vector.replicate 4 0xFF ∧ SameOn (Layout.heardOf c) r m := by
  have active : ch.isActive = true := by rw [Channel.isActive, counts.sample, Option.isSome_some]
  have ended := (counts.afterFrame r).2
  obtain ⟨state, positions, unheard⟩ := plays
  rw [if_pos active] at positions
  rw [← state] at ended
  rw [positions, Channel.tick, Channel.positionBytes, Channel.positions]
  split at ended
  case isTrue playing =>
    have steps := Int.toNat_of_nonneg (envelopeProgress_nonneg pace n)
    rw [if_pos playing, ended, ← Envelope.bytes_positions, steps]
    exact ⟨rfl, rfl⟩
  case isFalse late =>
    rw [if_neg late, ended.1]
    exact ⟨rfl, Envelope.bytes_idle, unheard ended.2⟩

/-! ### What else happens -/

namespace Sound

/-- What may happen to sound between two frames apart from an effect on channel `c` and a reset. A
program may write into memory, as long as samples and waveforms stay. -/
inductive Elsewhere (c : Fin channelCount) : Sound × Ram → Sound × Ram → Prop
  | playEffect {s : Sound} {r : Ram} {index note octave duration channel : Int}
      {left right : UInt8} {speed : Int} {y : Sound × Ram} (other : channel ≠ c)
      (played : s.playEffect? r index note octave duration channel left right speed = some y) :
      Elsewhere c (s, r) y
  | playMusic {s : Sound} {r : Ram} {track frame row : Int} {looped sustain : Bool}
      {tempo speed : Int} {y : Sound × Ram}
      (played : s.playMusic? r track frame row looped sustain tempo speed = some y) :
      Elsewhere c (s, r) y
  | endFrame {s : Sound} {r : Ram} : Elsewhere c (s, r) (s.endFrame r, r)
  | advance {s : Sound} {r : Ram} : Elsewhere c (s, r) ({ s with ring := s.ring.advance }, r)
  | write {s : Sound} {r m : Ram} (kept : SameOn Layout.instruments r m) : Elsewhere c (s, r) (s, m)

/-- Whether a channel and the instruments are the same here and there. -/
structure LeavesEffect (c : Fin channelCount) (x y : Sound × Ram) : Prop where
  channel : y.1.effects.get c = x.1.effects.get c
  memory : SameOn Layout.instruments x.2 y.2

theorem LeavesEffect.trans {c : Fin channelCount} {x y z : Sound × Ram}
    (first : LeavesEffect c x y) (second : LeavesEffect c y z) : LeavesEffect c x z :=
  ⟨second.channel.trans first.channel, first.memory.trans second.memory⟩

theorem Elsewhere.leavesEffect {c : Fin channelCount} {x y : Sound × Ram}
    (happened : Elsewhere c x y) : LeavesEffect c x y := by
  cases happened with
  | playEffect other played =>
    unfold playEffect? at played
    split at played
    case isFalse => cases played
    case isTrue inside =>
      cases played
      constructor
      · apply PerChannel.get_replace_of_ne
        intro same
        apply other
        rw [same]
        dsimp only
        omega
      · exact ((Channel.sameOutside_storePositions _ _ _).widen
          (Layout.positionsOf_within _)).sameOn (by decide)
  | playMusic played =>
    have stored (p : MusicPosition) (r : Ram) : SameOn Layout.instruments r (p.store r) :=
      (p.sameOutside_store r).sameOn (by decide)
    unfold playMusic? at played
    split at played
    case isTrue =>
      cases played
      exact ⟨rfl, stored _ _⟩
    case isFalse =>
      split at played
      case h_1 =>
        cases played
        exact ⟨rfl, stored _ _⟩
      case h_2 => cases played
  | endFrame => exact ⟨rfl, .refl _ _⟩
  | advance => exact ⟨rfl, .refl _ _⟩
  | write kept => exact ⟨rfl, kept⟩

theorem leavesEffect_of_elsewhere {c : Fin channelCount} {x y : Sound × Ram}
    (happened : Relation.ReflTransGen (Elsewhere c) x y) : LeavesEffect c x y := by
  induction happened with
  | refl => exact ⟨rfl, .refl _ _⟩
  | tail _ last ih => exact ih.trans last.leavesEffect

/-! ### The frames of an effect -/

/-- The sound and the memory with which a frame begins. -/
def frameStart (before : Nat → Sound × Ram → Sound × Ram) (start : Sound × Ram) :
    Nat → Except Fault (Sound × Ram)
  | 0 => .ok (before 0 start)
  | n + 1 => before (n + 1) <$> framesFrom before start n

theorem framesFrom_eq (before : Nat → Sound × Ram → Sound × Ram) (start : Sound × Ram) (n : Nat) :
    framesFrom before start n = frameStart before start n >>= fun y => y.1.beginFrame y.2 := by
  cases n with
  | zero => rfl
  | succ n => rw [framesFrom, frameStart, bind_map_left]

/-- Up to each frame the channel has counted the frames before it, and the instruments are those of
the start. -/
theorem counts_frameStart {c : Fin channelCount} {i : Fin sampleCount} {pace duration : Int}
    {start : Sound × Ram} (begun : (start.1.effects.get c).Counts i pace duration 0)
    {before : Nat → Sound × Ram → Sound × Ram}
    (elsewhere : ∀ n x, Relation.ReflTransGen (Elsewhere c) x (before n x)) {n : Nat}
    {y : Sound × Ram} (reached : frameStart before start n = .ok y) :
    (y.1.effects.get c).Counts i pace duration n ∧ SameOn Layout.instruments start.2 y.2 := by
  induction n generalizing y with
  | zero =>
    cases reached
    obtain ⟨channel, memory⟩ := leavesEffect_of_elsewhere (elsewhere 0 start)
    rw [channel]
    exact ⟨begun, memory⟩
  | succ n ih =>
    rw [frameStart, framesFrom_eq] at reached
    cases last : frameStart before start n with
    | error fault =>
      rw [last] at reached
      cases reached
    | ok w =>
      obtain ⟨counts, memory⟩ := ih last
      -- the frame counts one on, and what happens after it does not touch the channel
      rw [last] at reached
      change before (n + 1) <$> w.1.beginFrame w.2 = .ok y at reached
      cases ticked : w.1.music.tick w.2.clearRegisters with
      | error fault =>
        rw [beginFrame_of_fault ticked] at reached
        cases reached
      | ok moved =>
        obtain ⟨-, x, begun, kept, plays⟩ := beginFrame_plays ticked
        rw [begun] at reached
        cases reached
        obtain ⟨channel, left⟩ := leavesEffect_of_elsewhere (elsewhere (n + 1) x)
        rw [channel, (plays c).state]
        exact ⟨(counts.afterFrame moved.2).1, (memory.trans kept).trans left⟩

theorem playEffect?_of_channel (s : Sound) (r : Ram) (i : Fin sampleCount)
    (note octave duration : Int) (c : Fin channelCount) (left right : UInt8) (speed : Int) :
    s.playEffect? r i note octave duration c left right speed =
      let ch := (s.effects.get c).start r (some i) note octave duration (limitVolume left)
        (limitVolume right) (Channel.speed? speed)
      some ({ s with effects := s.effects.replace c ch }, ch.storePositions c r) := by
  have inside : 0 ≤ (c : Int) ∧ (c : Int) < channelCount ∧ (i : Int) < sampleCount := by omega
  have named : sampleOf i = some i := by
    rw [sampleOf, dif_pos (by omega)]
    rfl
  rw [playEffect?, dif_pos inside, named]
  rfl

/-- An effect that is started plays for its time: at the `n`-th frame its tick is `n`, and each part
of the envelope has taken as many steps as the speed makes of it; when the time is over, its channel
is idle and leaves its register to the music. The positions of the other channels are those of their
own effects. Only the music can end a frame with a fault. -/
theorem effect_over_time (s : Sound) (r : Ram) (i : Fin sampleCount) (note octave duration : Int)
    (c : Fin channelCount) (left right : UInt8) (speed : Int)
    {before : Nat → Sound × Ram → Sound × Ram}
    (elsewhere : ∀ n x, Relation.ReflTransGen (Elsewhere c) x (before n x)) :
    ∃ start, s.playEffect? r i note octave duration c left right speed = some start ∧
      (∀ d, d ≠ c → start.2.positionsOf d = r.positionsOf d) ∧
      ∀ n y, frameStart before start n = .ok y →
        match y.1.music.tick y.2.clearRegisters with
        | .error fault => y.1.beginFrame y.2 = .error fault
        | .ok moved => ∃ x, y.1.beginFrame y.2 = .ok x ∧
          (let sample := Sample.load r i
           let pace := (Channel.speed? speed).getD sample.speed
           if duration < 0 ∨ n + 1 < duration then
             (x.1.effects.get c).tick = n ∧
               x.2.positionsOf c = sample.loops.stepped (envelopeProgress pace n).toNat
           else
             (x.1.effects.get c).tick = -1 ∧ x.2.positionsOf c = Vector.replicate 4 0xFF ∧
               SameOn (Layout.heardOf c) moved.2 x.2) ∧
          ∀ d, d ≠ c → x.2.positionsOf d =
            if (y.1.effects.get d).isActive then ((y.1.effects.get d).afterFrame y.2).positionBytes
            else y.2.positionsOf d := by
  have stored := ((s.effects.get c).start r (some i) note octave duration (limitVolume left)
    (limitVolume right) (Channel.speed? speed)).sameOutside_storePositions c r
  refine ⟨_, s.playEffect?_of_channel r i note octave duration c left right speed, ?_, ?_⟩
  · exact fun d other => positionsOf_congr (stored.sameOn (Layout.positionsOf_disjoint other))
  intro n y reached
  have begun := (s.effects.get c).counts_start r i note octave duration (limitVolume left)
    (limitVolume right) (Channel.speed? speed)
  rw [← PerChannel.get_replace_self s.effects c (Channel.start ..)] at begun
  obtain ⟨counts, memory⟩ := counts_frameStart begun elsewhere reached
  cases ticked : y.1.music.tick y.2.clearRegisters with
  | error fault => exact beginFrame_of_fault ticked
  | ok moved =>
    obtain ⟨kept, x, began, -, plays⟩ := beginFrame_plays ticked
    refine ⟨x, began, ?_, fun d other => ?_⟩
    · have instruments : SameOn Layout.instruments r moved.2 :=
        (((stored.widen (Layout.positionsOf_within c)).sameOn (by decide)).trans memory).trans
          (kept.mono (by decide))
      have effect := counts.plays (plays c)
      rw [Sample.load_congr (instruments.mono (by decide))] at effect
      exact effect
    · have positions : moved.2.positionsOf d = y.2.positionsOf d :=
        positionsOf_congr ((kept.mono (by decide)).narrow (Layout.positionsOf_within d))
      rw [(plays d).positions, (plays d).state, positions,
        (y.1.effects.get d).afterFrame_congr (kept.mono (by decide))]

/-- Music that is stopped lets every frame begin. -/
theorem tick_of_stopped {s : Sound} {r : Ram}
    (stopped : (MusicPosition.load r).status = .stopped) :
    s.music.tick r.clearRegisters = .ok (s.music, r.clearRegisters) := by
  rw [Sequencer.tick, MusicPosition.load_congr (r.sameOn_clearRegisters.mono (by decide)),
    if_pos stopped]
  rfl

/-- An effect of two frames is heard in the first, and over in the second. -/
theorem effect_over_two_frames :
    ∃ start x y, fresh.playEffect? .blank 0 0 0 2 1 15 15 0 = some start ∧
      start.1.beginFrame start.2 = .ok x ∧ (x.1.effects.get 1).tick = 0 ∧
      x.1.beginFrame x.2 = .ok y ∧ (y.1.effects.get 1).tick = -1 := by
  have stays : ∀ (n : Nat) (x : Sound × Ram), Relation.ReflTransGen (Elsewhere 1) x x :=
    fun _ _ => .refl
  obtain ⟨start, played, -, frames⟩ := effect_over_time fresh .blank 0 0 0 2 1 15 15 0 stays
  have silent : (MusicPosition.load start.2).status = .stopped := by
    have own := (fresh.playEffect?_of_channel .blank 0 0 0 2 1 15 15 0).symm.trans played
    have blank : (MusicPosition.load .blank).status = .stopped := by
      simp only [MusicPosition.load, byte_blank]
      decide
    rw [← Option.some.inj own, MusicPosition.load_congr
      (((Channel.sameOutside_storePositions _ 1 .blank).widen (Layout.positionsOf_within 1)).sameOn
        (by decide)), blank]
  have first := frames 0 start rfl
  rw [tick_of_stopped silent] at first
  obtain ⟨x, began, heard, -⟩ := first
  obtain ⟨same, begun, stopped⟩ := beginFrame_of_no_arrival (s := start.1) (if_pos silent)
  rw [began] at begun
  cases begun
  have second := frames 1 x (by rw [frameStart, framesFrom, began]; rfl)
  rw [tick_of_stopped stopped] at second
  obtain ⟨y, ended, silent, -⟩ := second
  rw [if_pos (by decide)] at heard
  rw [if_neg (by decide)] at silent
  exact ⟨start, x, y, played, began, heard.1, ended, silent.1⟩

end Sound

end FantasyConsole
