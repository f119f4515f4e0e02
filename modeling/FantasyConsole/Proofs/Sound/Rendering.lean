import FantasyConsole.Proofs.Sound.VoiceSteps

/-!
# Rendering a frame

The loop over the samples of a frame stops the voices at every sample, and then runs them to the end
of the frame. How many samples a frame has decides where the loop stops, and nothing else: the
voices come out of a frame as if they had been run to its end at once, and each sample is the mix of
voices that were run from the beginning of the frame to its clock.
-/

namespace FantasyConsole

/-- The place of a side in a pair of samples. -/
def Side.place : Side → Nat
  | .left => 0
  | .right => 1

namespace Synth

/-- The voices of a side. -/
def voices (s : Synth) : Side → Voices
  | .left => s.left
  | .right => s.right

/-! ### Voices of a side -/

@[simp] theorem Voices.get_runUntil (vs : Voices) (ts : Vector Tone channelCount) (clock : Nat)
    (c : Fin channelCount) :
    (Voices.runUntil vs ts clock).get c = (vs.get c).runUntil (ts.get c) clock :=
  Vector.getElem_zipWith c.isLt

@[simp] theorem get_tones (f : RegisterFrame) (side : Side) (c : Fin channelCount) :
    (tones f side).get c = Tone.of f c side :=
  Vector.getElem_ofFn c.isLt

theorem Voices.ext {vs ws : Voices} (same : ∀ c, vs.get c = ws.get c) : vs = ws :=
  Vector.ext fun i h => same ⟨i, h⟩

theorem Voices.runUntil_runUntil (vs : Voices) (ts : Vector Tone channelCount) {a b : Nat}
    (le : a ≤ b) : Voices.runUntil (Voices.runUntil vs ts a) ts b = Voices.runUntil vs ts b := by
  apply Voices.ext
  intro c
  simp only [get_runUntil]
  exact Voice.runUntil_runUntil _ _ le

/-- The voices at the end of a frame, with their clocks counted from the beginning of the next. -/
def Voices.endFrame (vs : Voices) (ts : Vector Tone channelCount) : Voices :=
  (Voices.runUntil vs ts frameClocks).map fun v => { v with time := v.time - frameClocks }

@[simp] theorem Voices.get_endFrame (vs : Voices) (ts : Vector Tone channelCount)
    (c : Fin channelCount) :
    (Voices.endFrame vs ts).get c =
      { (vs.get c).runUntil (ts.get c) frameClocks with
        time := ((vs.get c).runUntil (ts.get c) frameClocks).time - frameClocks } := by
  rw [← Voices.get_runUntil]
  exact Vector.getElem_map _ c.isLt

/-! ### The loop over the samples -/

theorem sampleClock_mono {n i j : Nat} (le : i ≤ j) : sampleClock n i ≤ sampleClock n j :=
  Nat.div_le_div_right (Nat.mul_le_mul_right _ le)

theorem sampleClock_lt {n i : Nat} (inside : i < n) : sampleClock n i < frameClocks := by
  rw [sampleClock, Nat.div_lt_iff_lt_mul (by omega), Nat.mul_comm frameClocks]
  exact Nat.mul_lt_mul_of_pos_right inside (by decide)

/-- What `i` samples leave: the mixes at their clocks, and voices that were stopped on the way. -/
private theorem fold_samples (ts : Vector Tone channelCount) (n : Nat) (vs : Voices) (i : Nat) :
    ∃ ws, i.fold
        (fun s _ (samples, vs) =>
          let vs := Voices.runUntil vs ts (sampleClock n s + 1)
          (samples.push (Voices.mix vs), vs))
        (Array.emptyWithCapacity n, vs) =
      (Array.ofFn fun s : Fin i => Voices.mix (Voices.runUntil vs ts (sampleClock n s + 1)), ws) ∧
      ∀ clock, (∀ s < i, sampleClock n s + 1 ≤ clock) →
        Voices.runUntil ws ts clock = Voices.runUntil vs ts clock := by
  induction i with
  | zero => exact ⟨vs, by simp, fun _ _ => rfl⟩
  | succ i ih =>
    obtain ⟨ws, folded, stopped⟩ := ih
    have next := stopped (sampleClock n i + 1) fun s below =>
      Nat.succ_le_succ (sampleClock_mono (Nat.le_of_lt below))
    refine ⟨Voices.runUntil vs ts (sampleClock n i + 1), ?_, ?_⟩
    · rw [Nat.fold_succ, folded]
      simp only [next, Array.ofFn_succ, Fin.val_castSucc]
    · intro clock after
      exact Voices.runUntil_runUntil vs ts (after i (Nat.lt_succ_self i))

/-- The voices after a frame do not depend on the number of its samples. -/
theorem renderSide_eq (ts : Vector Tone channelCount) (n : Nat) (vs : Voices) :
    renderSide ts n vs =
      (Array.ofFn fun s : Fin n => Voices.mix (Voices.runUntil vs ts (sampleClock n s + 1)),
        Voices.endFrame vs ts) := by
  obtain ⟨ws, folded, stopped⟩ := fold_samples ts n vs n
  have last := stopped frameClocks fun s inside => sampleClock_lt inside
  simp only [renderSide, folded, last, Voices.endFrame]

theorem voices_render (s : Synth) (q : SoundRing) (side : Side) :
    (s.render q).1.voices side = Voices.endFrame (s.voices side) (tones q.current side) := by
  cases side <;> simp only [render, renderSide_eq, voices]

theorem getElem?_interleave {left right : Array Nat} (same : left.size = right.size) (i : Nat) :
    (interleave left right)[2 * i]? = left[i]? ∧
      (interleave left right)[2 * i + 1]? = right[i]? := by
  obtain ⟨left⟩ := left
  obtain ⟨right⟩ := right
  simp only [interleave, List.zip_toArray, List.getElem?_toArray, List.size_toArray] at same ⊢
  induction left generalizing right i with
  | nil =>
    cases right with
    | nil => simp
    | cons b right => cases same
  | cons a left ih =>
    cases right with
    | nil => cases same
    | cons b right =>
      cases i with
      | zero => simp
      | succ i =>
        have rest := ih i right (Nat.succ.inj same)
        simpa [Nat.mul_add] using rest

theorem mem_interleave {left right : Array Nat} {x : Nat} (found : x ∈ interleave left right) :
    x ∈ left ∨ x ∈ right := by
  simp only [interleave, Array.mem_flatMap] at found
  obtain ⟨⟨a, b⟩, pair, one⟩ := found
  simp only [List.mem_toArray, List.mem_cons, List.not_mem_nil, or_false] at one
  rcases one with rfl | rfl
  · exact .inl (Array.of_mem_zip pair).1
  · exact .inr (Array.of_mem_zip pair).2

/-- A sample is the mix of the voices of its side, run past its clock. -/
theorem getElem?_samples_render (s : Synth) (q : SoundRing) (side : Side) {i : Nat}
    (inside : i < frameSamples s.sampleRate) :
    (s.render q).1.samples[2 * i + side.place]? =
      some (Voices.mix (Voices.runUntil (s.voices side) (tones q.current side)
        (sampleClock (frameSamples s.sampleRate) i + 1))) := by
  simp only [render, renderSide_eq]
  cases side
  · rw [Side.place, Nat.add_zero, (getElem?_interleave (by simp) i).1, Array.getElem?_ofFn,
      dif_pos inside]
    rfl
  · rw [Side.place, (getElem?_interleave (by simp) i).2, Array.getElem?_ofFn, dif_pos inside]
    rfl

theorem mem_samples_render {s : Synth} {q : SoundRing} {x : Nat}
    (found : x ∈ (s.render q).1.samples) :
    ∃ side, ∃ i < frameSamples s.sampleRate, x =
      Voices.mix (Voices.runUntil (s.voices side) (tones q.current side)
        (sampleClock (frameSamples s.sampleRate) i + 1)) := by
  simp only [render, renderSide_eq] at found
  rcases mem_interleave found with left | right
  · obtain ⟨i, rfl⟩ := Array.mem_ofFn.mp left
    exact ⟨.left, i, i.isLt, rfl⟩
  · obtain ⟨i, rfl⟩ := Array.mem_ofFn.mp right
    exact ⟨.right, i, i.isLt, rfl⟩

end Synth

end FantasyConsole
