import FantasyConsole.Proofs.Guest.VideoBanks
import FantasyConsole.Proofs.Raster.Moves
import FantasyConsole.Proofs.Raster.Overlay
import Mathlib.Data.List.Chain

/-!
# The overlay pass and the banks of video memory

The overlay pass saves the screen and its palette before its hook runs, and writes them back to the
same places in memory afterwards. The hook can switch banks, so what is written back comes into the
bank that the hook leaves in memory, and that need not be the one that was saved.

## Main result

`Raster.drawOverlay_banks`: what each bank holds when the hook begins, while it runs and after the
pass, whichever bank it ends on.

## Proof strategy

While a bank is put aside nothing reaches it, so between two calls of the hook only the bank in
memory can have changed. Before and after the hook the pass itself writes memory, byte by byte known.
-/

namespace FantasyConsole

namespace Console

/-- What a bank of video memory holds, wherever it is. -/
def bankImage (c : Console) (id : Fin 2) : Vector UInt8 Layout.video.size :=
  if id = c.state.videoBank.current then c.ram.region Layout.video else c.state.videoBank.stash

/-- Whether between two states a bank changed only if it was in memory all the time. -/
def KeepsAside (c d : Console) : Prop :=
  ∀ id, d.bankImage id ≠ c.bankImage id →
    c.state.videoBank.current = id ∧ d.state.videoBank.current = id

theorem bankImage_current (c : Console) :
    c.bankImage c.state.videoBank.current = c.ram.region Layout.video := if_pos rfl

/-- Banks that are put aside do not depend on memory. -/
theorem bankImage_of_sameBanks {c d : Console} (same : d.state.videoBank = c.state.videoBank)
    {id : Fin 2} (aside : id ≠ c.state.videoBank.current) : d.bankImage id = c.bankImage id := by
  rw [bankImage, bankImage, same, if_neg aside, if_neg aside]

end Console

theorem VideoMemory.Represents.bankImage {v : VideoMemory} {c : Console} (represents : v.Represents c)
    (id : Fin 2) : c.bankImage id = v.images id := by
  unfold Console.bankImage
  rw [represents.current, represents.shown, represents.stash]
  split
  case isTrue shown => rw [shown]
  case isFalse hidden =>
    have other : v.current + 1 = id := by
      clear represents
      generalize v.current = current at hidden
      decide +revert
    rw [other]

/-- A switch changes no image. -/
theorem Api.bankImage_vbank (args : List Value) (c : Console) (id : Fin 2) :
    (call "vbank" args c).2.bankImage id = c.bankImage id := by
  obtain ⟨v, represents⟩ := VideoMemory.exists_represents c
  obtain ⟨w, after, same⟩ := represents.vbank args
  rw [after.bankImage, represents.bankImage, same]

/-- No call changes a bank that is put aside when it is made or afterwards. -/
theorem Api.keepsAside_call (name : String) (args : List Value) (c : Console) :
    c.KeepsAside (call name args c).2 := by
  intro id changed
  by_cases switch : name = "vbank"
  · subst switch
    exact absurd (bankImage_vbank args c id) changed
  · have same := videoBank_call switch args c
    by_cases shown : id = c.state.videoBank.current
    · exact ⟨shown.symm, (congrArg VideoBank.current same).trans shown.symm⟩
    · exact absurd (Console.bankImage_of_sameBanks same shown) changed

namespace Guest

variable {α : Type}

/-- The states of a run: one before each call, and the one at the end. -/
def states : Guest α → Console → List Console
  | done _, c => [c]
  | call name args next, c =>
    let (answer, d) := Api.call name args c
    c :: (next answer).states d

theorem head?_states (p : Guest α) (c : Console) : (p.states c).head? = some c := by
  cases p <;> rfl

theorem getLast?_states (p : Guest α) (c : Console) :
    (p.states c).getLast? = some (p.run c).2 := by
  induction p generalizing c with
  | done result => rfl
  | call name args next ih =>
    simp only [states, run, List.getLast?_cons, ih, Option.getD_some]

/-- What holds between the states before and after each call holds along a run. -/
theorem isChain_states {step : Console → Console → Prop}
    (steps : ∀ name args c, step c (Api.call name args c).2) (p : Guest α) (c : Console) :
    (p.states c).IsChain step := by
  induction p generalizing c with
  | done result => exact .singleton c
  | call name args next ih =>
    refine List.isChain_cons.mpr ⟨fun d first => ?_, ih _ _⟩
    -- what follows begins with the state after the call
    rw [head?_states] at first
    cases first
    exact steps name args c

end Guest

namespace Raster

variable {σ : Type} (program : σ → Guest σ) (guest : σ) (c : Console) (frame : Frame)

/-- Whether the pass writes a byte back after the hook. -/
def WrittenBack (i : Nat) : Prop := Layout.screen.Contains i ∨ Layout.palette.Contains i

instance (i : Nat) : Decidable (WrittenBack i) := inferInstanceAs (Decidable (_ ∨ _))

theorem overlaid_eq : (overlaid program guest c frame).1.2 =
    restoreScreen c (afterHook program guest c) := by
  rw [overlaid, drawOverlay_eq]
  rfl

theorem videoBank_prepareOverlay :
    (prepareOverlay c).state.videoBank = c.state.videoBank := rfl

private theorem videoBank_overlay (ram : Ram) (overlay : Vector UInt8 paletteBytes) :
    { c with ram := ram, state.overlayPalette := overlay }.state.videoBank = c.state.videoBank := rfl

theorem videoBank_restoreScreen (before : Console) :
    (restoreScreen before c).state.videoBank = c.state.videoBank :=
  videoBank_overlay (c.log _ _ _) _ _

theorem byte_prepareOverlay {i : Nat} (other : ¬ Layout.palette.Contains i) :
    (prepareOverlay c).ram.byte i = c.ram.byte i :=
  Ram.byte_setRegion_of_not_mem _ _ _ other

theorem byte_restoreScreen (before : Console) (i : Nat) :
    (restoreScreen before c).ram.byte i =
      if WrittenBack i then before.ram.byte i else c.ram.byte i := by
  change ((c.ram.setRegion Layout.palette (before.ram.region Layout.palette)).setRegion
    Layout.screen (before.ram.region Layout.screen)).byte i = _
  rw [Ram.byte_setRegion_region _ _ (by decide), Ram.byte_setRegion_region _ _ (by decide)]
  by_cases screen : Layout.screen.Contains i <;> by_cases palette : Layout.palette.Contains i <;>
    simp [WrittenBack, screen, palette]

theorem getElem_bankImage_current {i : Nat} (inside : i < Layout.video.size) :
    (c.bankImage c.state.videoBank.current)[i] = c.ram.byte i := by
  simp only [c.bankImage_current, Ram.region, Ram.getElem_block, Layout.video, Nat.zero_add]

/-- The bank that is in memory when the pass begins is `shown`, the one that the hook leaves in
memory is `last`. The hook begins with the banks as they are, apart from the palette of the one in
memory; between its calls a bank changes only while it is in memory; and after it the screen and the
palette of `shown` are written over those of `last`, and nothing else of the banks changes. So if the
hook ends on the bank on which it began, that bank has its screen and palette back and the other one
is as the hook left it. -/
theorem drawOverlay_banks :
    let begun := prepareOverlay c
    let left := afterHook program guest c
    let finished := (overlaid program guest c frame).1.2
    let shown := c.state.videoBank.current
    let last := left.state.videoBank.current
    begun.state.videoBank.current = shown ∧
    (∀ id ≠ shown, begun.bankImage id = c.bankImage id) ∧
    (∀ i (inside : i < Layout.video.size), ¬ Layout.palette.Contains i →
      (begun.bankImage shown)[i] = (c.bankImage shown)[i]) ∧
    ((program guest).states begun).IsChain Console.KeepsAside ∧
    ((program guest).states begun).head? = some begun ∧
    ((program guest).states begun).getLast? = some left ∧
    finished.state.videoBank.current = last ∧
    (∀ id ≠ last, finished.bankImage id = left.bankImage id) ∧
    (∀ i (inside : i < Layout.video.size), (finished.bankImage last)[i] =
      if WrittenBack i then (c.bankImage shown)[i] else (left.bankImage last)[i]) := by
  intro begun left finished shown last
  have began : begun.state.videoBank = c.state.videoBank := videoBank_prepareOverlay c
  have ended : finished = restoreScreen c left := overlaid_eq program guest c frame
  have aside : finished.state.videoBank = left.state.videoBank := by
    rw [ended, videoBank_restoreScreen]
  have first : begun.state.videoBank.current = shown := congrArg VideoBank.current began
  have final : finished.state.videoBank.current = last := congrArg VideoBank.current aside
  refine ⟨first, fun id other => Console.bankImage_of_sameBanks began other, ?_,
    (program guest).isChain_states Api.keepsAside_call begun, (program guest).head?_states begun,
    (program guest).getLast?_states begun, final,
    fun id other => Console.bankImage_of_sameBanks aside other, ?_⟩
  · intro i inside other
    have now := getElem_bankImage_current begun inside
    rw [first] at now
    rw [now, getElem_bankImage_current c inside]
    exact byte_prepareOverlay c other
  · intro i inside
    have now := getElem_bankImage_current finished inside
    rw [final] at now
    rw [now, getElem_bankImage_current c inside, getElem_bankImage_current left inside, ended,
      byte_restoreScreen]

/-- A hook that writes the first byte of the bank that is in memory and ends on bank 1. -/
def writesAndLeaves (_ : Unit) : Guest Unit :=
  .call "poke" [.int 0, .int 5] fun _ => .call "vbank" [.int 1] fun _ => .done ()

/-- A hook that does the same and then comes back to bank 0. -/
def writesAndReturns (_ : Unit) : Guest Unit :=
  (writesAndLeaves ()).bind fun _ => .call "vbank" [.int 0] fun _ => .done ()

theorem drawOverlay_banks_returns :
    let c := Console.new {} {}
    let finished := (overlaid writesAndReturns () c (.blank 0 0)).1.2
    ∀ i (inside : i < Layout.video.size), WrittenBack i →
      (finished.bankImage 0)[i] = (c.bankImage 0)[i] := by
  intro c finished i inside back
  obtain ⟨-, -, -, -, -, -, -, -, bytes⟩ := drawOverlay_banks writesAndReturns () c (.blank 0 0)
  exact (bytes i inside).trans (if_pos back)

/-- The screen that was saved is not put back: bank 0 keeps what the hook wrote, since the screen is
written into bank 1. -/
theorem screen_lost_to_switch :
    let c := { Console.new {} {} with ram := .blank }
    let finished := (overlaid writesAndLeaves () c (.blank 0 0)).1.2
    c.state.videoBank.current = 0 ∧ Layout.screen.Contains 0 ∧
      (c.bankImage 0)[0] = 0 ∧ (finished.bankImage 0)[0] = 5 := by
  intro c finished
  let poked := (Api.call "poke" [.int 0, .int 5] (prepareOverlay c)).2
  let left := (Api.call "vbank" [.int 1] poked).2
  have ended : finished = restoreScreen c left := overlaid_eq writesAndLeaves () c (.blank 0 0)
  have aside : (0 : Fin 2) ≠ left.state.videoBank.current := by decide
  have kept : finished.bankImage 0 = left.bankImage 0 := by
    rw [ended]
    exact Console.bankImage_of_sameBanks (videoBank_restoreScreen left c) aside
  have before : c.ram.byte 0 = 0 := Ram.byte_blank 0
  have written : poked.ram.byte 0 = 5 := by
    have poke : poked.ram = (prepareOverlay c).ram.poke 0 5 .eight := rfl
    rw [poke, Ram.poke, if_pos (by decide), Ram.byte_markPacked, Ram.setPacked, Ram.byte_setByte,
      if_pos (by decide)]
    exact (congrArg (Width.eight.replace 0 · 5)
      ((byte_prepareOverlay c (by decide)).trans before)).trans (by decide)
  refine ⟨rfl, by decide, ?_, ?_⟩
  · exact (getElem_bankImage_current c (by decide)).trans before
  · have first : (poked.bankImage 0)[0] = poked.ram.byte 0 :=
      getElem_bankImage_current poked (by decide)
    rw [kept, Api.bankImage_vbank, first, written]

end Raster

end FantasyConsole
