import FantasyConsole.Sound.Ring

/-!
# Synthesis

Voices run on a clock of their own, a fixed number of clocks for each frame. A waveform voice plays
its 32 values in turn, a noise voice shifts a feedback register. Between two steps a voice keeps its
amplitude; a sample of the output is the sum of the amplitudes that the voices of one side hold at
that moment.
-/

namespace FantasyConsole

namespace Synth

/-- Clocks in a second. -/
def clockRate : Nat := 255 * 8192

def frameClocks : Nat := clockRate / Screen.frameRate

def waveValues : Nat := 32

def minPeriod : Nat := 10

def maxPeriod : Nat := 4096

/-- Clocks between two steps of a voice. -/
def period (frequency : Nat) : Nat :=
  if frequency = 0 then maxPeriod
  else max minPeriod (min maxPeriod (clockRate * 2 / waveValues / frequency - 1))

/-- The largest value of a 16-bit sample. -/
def maxSample : Nat := 32767

/-- One side of a channel. -/
structure Voice where
  /-- The clock of the next step, counted from the beginning of the frame. -/
  time : Nat := 0
  /-- The position in the waveform, or the feedback register of noise. -/
  phase : Nat := 0
  /-- The amplitude since the last step. -/
  amp : Nat := 0
deriving DecidableEq, Repr

/-- Scales an amplitude by the volume of a channel, leaving room for every channel and one more. -/
def amplitude (volume amp : Nat) : Nat := amp * volume / maxVolume / (channelCount + 1)

/-- What the voices of a channel and side play during one frame. -/
structure Tone where
  frequency : Nat
  volume : Nat
  sideVolume : Nat
  noise : Bool
  /-- The bits that a noise voice feeds back. -/
  feedback : Nat
  wave : Nat → Nat

def Tone.of (f : RegisterFrame) (c : Fin channelCount) (side : Side) : Tone where
  frequency := f.frequency c
  volume := f.volume c
  sideVolume := f.sideVolume c side
  noise := isNoise (f.waveform c)
  feedback := if f.byte c 2 = 0 then 0x12000 else 0x14
  wave := f.waveValue c

/-- Clocks from one step of the tone to the next. A waveform steps at twice the rate of noise. -/
def Tone.period (t : Tone) : Nat :=
  Synth.period (if t.noise then t.frequency else 2 * t.frequency)

/-- One step: sets the amplitude, moves the phase on and schedules the next step. -/
def Voice.step (v : Voice) (t : Tone) : Voice :=
  if t.noise then
    let phase := if v.phase = 0 then 1 else v.phase
    let raw := if phase % 2 = 1 then t.sideVolume * maxSample / maxVolume else 0
    { time := v.time + t.period
      phase := (phase % 2 * t.feedback) ^^^ (phase / 2)
      amp := amplitude t.volume raw }
  else
    let phase := v.phase % waveValues
    let raw := t.wave phase * maxSample / maxVolume * t.sideVolume / maxVolume
    { time := v.time + t.period
      phase := (phase + 1) % waveValues
      amp := amplitude t.volume raw }

theorem minPeriod_le_period (frequency : Nat) : minPeriod ≤ period frequency := by
  unfold period
  split
  · decide
  · omega

theorem period_le_maxPeriod (frequency : Nat) : period frequency ≤ maxPeriod := by
  unfold period
  split
  · exact Nat.le_refl _
  · simp only [minPeriod, maxPeriod]
    omega

theorem Voice.time_step (v : Voice) (t : Tone) : (v.step t).time = v.time + t.period := by
  unfold Voice.step
  split <;> rfl

/-- Steps a voice until its next step lies at `clock` or later. -/
def Voice.runUntil (v : Voice) (t : Tone) (clock : Nat) : Voice :=
  if v.time < clock then (v.step t).runUntil t clock else v
termination_by clock - v.time
decreasing_by
  have := v.time_step t
  have : minPeriod ≤ t.period := minPeriod_le_period _
  simp only [minPeriod] at this
  omega

/-- The voices of one side. -/
abbrev Voices := PerChannel Voice

/-- Steps every voice of a side until its next step lies at `clock` or later. -/
def Voices.runUntil (vs : Voices) (tones : Vector Tone channelCount) (clock : Nat) : Voices :=
  vs.zipWith (fun v t => v.runUntil t clock) tones

/-- The sum of the amplitudes of a side, within the range of a sample. -/
def Voices.mix (vs : Voices) : Nat := min maxSample (vs.foldl (fun sum v => sum + v.amp) 0)

/-- The clock of sample `s` when a frame has `n` samples. -/
def sampleClock (n s : Nat) : Nat := s * frameClocks / n

/-- The samples of one side for one frame of `n` samples, and the voices at the end of the frame. -/
def renderSide (tones : Vector Tone channelCount) (n : Nat) (vs : Voices) : Array Nat × Voices :=
  let (samples, vs) := n.fold
    (fun s _ (samples, vs) =>
      let vs := Voices.runUntil vs tones (sampleClock n s + 1)
      (samples.push (Voices.mix vs), vs))
    (Array.emptyWithCapacity n, vs)
  let vs := Voices.runUntil vs tones frameClocks
  (samples, vs.map fun v => { v with time := v.time - frameClocks })

/-- The samples of two sides, left and right in turn. -/
def interleave (left right : Array Nat) : Array Nat :=
  (left.zip right).flatMap fun (l, r) => #[l, r]

end Synth

/-- The synthesiser: its voices, and the samples of the last frame. -/
structure Synth where
  sampleRate : Nat
  left : Synth.Voices
  right : Synth.Voices
  /-- The samples of the last frame, left and right in turn. -/
  samples : Array Nat

namespace Synth

/-- Number of samples of each side in one frame. -/
def frameSamples (sampleRate : Nat) : Nat := sampleRate / Screen.frameRate

/-- A synthesiser that has not played yet. -/
def ofRate (sampleRate : Nat) : Synth where
  sampleRate := sampleRate
  left := Vector.replicate _ {}
  right := Vector.replicate _ {}
  samples := Array.replicate (2 * frameSamples sampleRate) 0

def tones (f : RegisterFrame) (side : Side) : Vector Tone channelCount :=
  Vector.ofFn fun c => Tone.of f c side

/-- Plays the current entry of the ring for one frame and moves the ring on. -/
def render (s : Synth) (ring : SoundRing) : Synth × SoundRing :=
  let entry := ring.current
  let n := frameSamples s.sampleRate
  let (leftSamples, left) := renderSide (tones entry .left) n s.left
  let (rightSamples, right) := renderSide (tones entry .right) n s.right
  ({ s with left := left, right := right, samples := interleave leftSamples rightSamples },
    ring.advance)

end Synth

end FantasyConsole
