import FantasyConsole.Guest.Program
import Mathlib.Logic.Relation

/-!
# How a program moves the console

A program can change the console in a few ways only, whatever it calls. They are listed here once:
each function of the table comes down to some of these moves, and so does a whole program. What every
move keeps, programs keep.

## Main result

`Guest.moves_run`
-/

namespace FantasyConsole

namespace Console

/-- One change that a program, or the drawing of a frame, can make to the console. -/
inductive Move (c : Console) : Console → Prop where
  | notify (n : Notice) (harmless : ∀ message, n ≠ .error message) : Move c (c.notify n)
  | memory (ram : Ram) : Move c { c with ram := ram }
  | sync (mask : SectionSet) (bank : Fin Cart.bankCount) (d : Direction) :
      Move c (c.sync mask bank d).2
  | videoBank (id : Int) : Move c (c.selectVideoBank id).2
  | clip {x y width height : Int} (column : IsInt32 x) (row : IsInt32 y) (wide : IsInt32 width)
      (high : IsInt32 height) : Move c (c.setClip x y width height)
  | wholeScreen : Move c c.resetClip
  | effect (index note octave duration channel : Int) (left right : UInt8) (speed : Int) :
      Move c (c.playEffect index note octave duration channel left right speed).2
  | music (track frame row : Int) (looped sustain : Bool) (tempo speed : Int) :
      Move c (c.playMusic track frame row looped sustain tempo speed)
  | reset : Move c c.reset
  | overlay (ram : Ram) (palette : Vector UInt8 paletteBytes) :
      Move c { c with ram := ram, state.overlayPalette := palette }

/-- Some moves, one after the other. -/
abbrev Moves : Console → Console → Prop := Relation.ReflTransGen Move

theorem Move.moves {c d : Console} (move : Move c d) : Moves c d := .single move

/-- What each move keeps, any number of moves keeps. -/
theorem Moves.preserves {holds : Console → Prop} {c d : Console} (moves : Moves c d)
    (step : ∀ c d, Move c d → holds c → holds d) (start : holds c) : holds d := by
  induction moves with
  | refl => exact start
  | tail _ move ih => exact step _ _ move ih

theorem moves_log (c : Console) (category : Log.Category) (level : Log.Level) (text : String) :
    Moves c (c.log category level text) :=
  (Move.notify _ fun _ => Notice.noConfusion).moves

theorem moves_reportAccess (c : Console) (addr : Int) (w : Width) :
    Moves c (c.reportAccess addr w) := by
  unfold reportAccess
  split
  · exact .refl
  · exact c.moves_log _ _ _

theorem moves_poke (c : Console) (addr : Int) (v : UInt8) (w : Width) :
    Moves c (c.poke addr v w) :=
  (c.moves_reportAccess addr w).tail (.memory _)

theorem moves_copy (c : Console) (dst src n : Int) : Moves c (c.copy dst src n).2 := by
  unfold copy
  split
  · exact (Move.memory _).moves
  · exact c.moves_log _ _ _

theorem moves_fill (c : Console) (dst : Int) (v : UInt8) (n : Int) :
    Moves c (c.fill dst v n).2 := by
  unfold fill
  split
  · exact (Move.memory _).moves
  · exact c.moves_log _ _ _

theorem moves_persist (c : Console) (slot : Int) (value : Option UInt32) :
    Moves c (c.persist slot value).2 := by
  unfold persist
  cases value with
  | none => exact .refl
  | some v => exact (Move.memory _).moves

end Console

namespace Api

theorem isInt32_int32Arg (args : List Value) (i : Nat) (default : Int) :
    IsInt32 (int32Arg args i default) :=
  isInt32_saturate32 _

private theorem moves_peek (args : List Value) (c : Console) : c.Moves (peek args c).2 := by
  unfold peek
  split
  · exact c.moves_reportAccess _ _
  · exact .refl

private theorem moves_poke (args : List Value) (c : Console) : c.Moves (poke args c).2 := by
  unfold poke
  split
  · exact c.moves_poke _ _ _
  · exact .refl

private theorem moves_sync (args : List Value) (c : Console) : c.Moves (sync args c).2 := by
  simp only [sync]
  split
  · exact c.moves_log _ _ _
  · exact (Console.Move.sync _ _ _).moves

private theorem moves_pixel (args : List Value) (c : Console) : c.Moves (pixel args c).2 := by
  simp only [pixel]
  split
  · exact (Console.Move.memory _).moves
  · exact .refl

private theorem moves_clip (args : List Value) (c : Console) : c.Moves (clip args c).2 := by
  change c.Moves (if args.length < 4 then c.resetClip else c.setClip _ _ _ _)
  split
  · exact Console.Move.wholeScreen.moves
  · exact (Console.Move.clip (isInt32_int32Arg args 0 0) (isInt32_int32Arg args 1 0)
      (isInt32_int32Arg args 2 0) (isInt32_int32Arg args 3 0)).moves

/-- Every function comes down to moves. -/
theorem moves_run : ∀ f ∈ table, ∀ args c, Console.Moves c (f.run args c).2 := by
  simp only [table, List.forall_mem_cons]
  -- one goal for each function, in the order of the table
  refine ⟨moves_peek, moves_poke, ?peek1, ?poke1, ?peek2, ?poke2, ?peek4, ?poke4,
    fun _ c => c.moves_copy _ _ _, fun _ c => c.moves_fill _ _ _,
    fun _ c => c.moves_persist _ _, moves_sync, fun _ _ => (Console.Move.videoBank _).moves,
    ?btn, ?btnp, ?key, ?keyp, ?mouse, ?time, ?tstamp, ?trace, ?exit,
    fun _ _ => Console.Move.reset.moves, ?cls, moves_pixel, ?rect, ?rectb, ?line, moves_clip,
    fun _ _ => (Console.Move.effect _ _ _ _ _ _ _ _).moves,
    fun _ _ => (Console.Move.music _ _ _ _ _ _ _).moves,
    fun f none => absurd none List.not_mem_nil⟩
  case peek1 | peek2 | peek4 => exact fun _ c => c.moves_reportAccess _ _
  case poke1 | poke2 | poke4 => exact fun _ c => c.moves_poke _ _ _
  case btn | btnp | key | keyp | mouse | time | tstamp => exact fun _ _ => .refl
  case trace | exit =>
    exact fun _ _ => (Console.Move.notify _ fun _ => Notice.noConfusion).moves
  case cls | rect | rectb | line => exact fun _ _ => (Console.Move.memory _).moves

theorem moves_call (name : String) (args : List Value) (c : Console) :
    c.Moves (call name args c).2 := by
  unfold call
  cases found : lookup? name with
  | none => exact .refl
  | some f =>
    dsimp only
    split
    · exact .refl
    · exact moves_run f (List.mem_of_find?_eq_some found) args c

end Api

/-- Whatever a program does, it makes moves. -/
theorem Guest.moves_run {α : Type} (p : Guest α) (c : Console) : c.Moves (p.run c).2 := by
  -- on the program: what follows a call starts from the console that the call left
  induction p generalizing c with
  | done result => exact .refl
  | call name args next ih => exact (Api.moves_call name args c).trans (ih _ _)

end FantasyConsole
