import FantasyConsole.Guest.Program
import FantasyConsole.Proofs.Memory.Regions

/-!
# The banks of video memory

There are two images, one of which is in memory in front of everything else, while the other is put
aside. A program switches between them with one call; all others work on memory as it is and neither
see nor touch the image that is put aside.
-/

namespace FantasyConsole

open Ram

/-- Memory from the end of the banked part on. -/
def Layout.common : Region := ⟨video.stop, memorySize - video.stop⟩

/-- Both images of video memory, the one that is shown, and the rest of memory. -/
structure VideoMemory where
  images : Fin 2 → Vector UInt8 Layout.video.size
  current : Fin 2
  rest : Vector UInt8 Layout.common.size

namespace VideoMemory

private theorem other_ne : ∀ id : Fin 2, id + 1 ≠ id := by
  decide

private theorem eq_other : ∀ {a b : Fin 2}, a ≠ b → a = b + 1 := by
  decide

/-- Whether a console holds these images, one in memory and the other put aside. -/
structure Represents (v : VideoMemory) (c : Console) : Prop where
  shown : c.ram.region Layout.video = v.images v.current
  rest : c.ram.region Layout.common = v.rest
  current : c.state.videoBank.current = v.current
  stash : c.state.videoBank.stash = v.images (v.current + 1)

/-- Shows an image. -/
def select (v : VideoMemory) (id : Fin 2) : VideoMemory := { v with current := id }

/-- Replaces the image that is shown and the rest of memory. -/
def setMemory (v : VideoMemory) (image : Vector UInt8 Layout.video.size)
    (rest : Vector UInt8 Layout.common.size) : VideoMemory :=
  { v with images := fun id => if id = v.current then image else v.images id, rest := rest }

end VideoMemory

/-- The console with another bank put aside. -/
def Console.withVideoBank (c : Console) (bank : VideoBank) : Console :=
  { c with state.videoBank := bank }

namespace Console

variable (c : Console) (bank : VideoBank)

theorem reportAccess_withVideoBank (addr : Int) (w : Width) :
    (c.withVideoBank bank).reportAccess addr w = (c.reportAccess addr w).withVideoBank bank := by
  unfold reportAccess
  split <;> rfl

theorem copy_withVideoBank (dst src n : Int) : ((c.withVideoBank bank).copy dst src n).2 =
    (c.copy dst src n).2.withVideoBank bank := by
  have memory : (c.withVideoBank bank).ram = c.ram := rfl
  rw [copy, copy, memory]
  cases c.ram.copy? dst src n <;> rfl

theorem fill_withVideoBank (dst : Int) (v : UInt8) (n : Int) :
    ((c.withVideoBank bank).fill dst v n).2 = (c.fill dst v n).2.withVideoBank bank := by
  have memory : (c.withVideoBank bank).ram = c.ram := rfl
  rw [fill, fill, memory]
  cases c.ram.fill? dst v n <;> rfl

theorem persist_withVideoBank (slot : Int) (value : Option UInt32) :
    (c.withVideoBank bank).persist slot value =
      ((c.persist slot value).1, (c.persist slot value).2.withVideoBank bank) := by
  cases value <;> rfl

theorem playEffect_withVideoBank (index note octave duration channel : Int) (left right : UInt8)
    (speed : Int) :
    ((c.withVideoBank bank).playEffect index note octave duration channel left right speed).2 =
      (c.playEffect index note octave duration channel left right speed).2.withVideoBank bank := by
  have sound : (c.withVideoBank bank).state.sound = c.state.sound := rfl
  have memory : (c.withVideoBank bank).ram = c.ram := rfl
  rw [playEffect, playEffect, sound, memory]
  cases c.state.sound.playEffect? c.ram index note octave duration channel left right speed <;> rfl

theorem playMusic_withVideoBank (track frame row : Int) (looped sustain : Bool)
    (tempo speed : Int) :
    (c.withVideoBank bank).playMusic track frame row looped sustain tempo speed =
      (c.playMusic track frame row looped sustain tempo speed).withVideoBank bank := by
  have sound : (c.withVideoBank bank).state.sound = c.state.sound := rfl
  have memory : (c.withVideoBank bank).ram = c.ram := rfl
  rw [playMusic, playMusic, sound, memory]
  cases c.state.sound.playMusic? c.ram track frame row looped sustain tempo speed <;> rfl

end Console

namespace Api

/-- Whether a function does the same whatever bank is shown and whatever the other one holds. -/
def IgnoresBanks (run : Action) : Prop :=
  ∀ args c bank, run args (Console.withVideoBank c bank) =
    ((run args c).1, (run args c).2.withVideoBank bank)

theorem ignoresBanks_peekAt (w : Width) : IgnoresBanks (peekAt w) :=
  fun _ c bank => congrArg (Prod.mk _) (c.reportAccess_withVideoBank bank _ w)

theorem ignoresBanks_pokeAt (w : Width) : IgnoresBanks (pokeAt w) := by
  intro args c bank
  simp only [pokeAt, effect, Console.poke, c.reportAccess_withVideoBank bank]
  rfl

/-- Apart from the switch no function knows of the banks. -/
theorem ignoresBanks_run : ∀ f ∈ table, f.name ≠ "vbank" → IgnoresBanks f.run := by
  simp only [table, List.forall_mem_cons]
  -- one goal for each function, in the order of the table
  refine ⟨fun _ => ?peek, fun _ => ?poke, fun _ => ignoresBanks_peekAt .one,
    fun _ => ignoresBanks_pokeAt .one, fun _ => ignoresBanks_peekAt .two,
    fun _ => ignoresBanks_pokeAt .two, fun _ => ignoresBanks_peekAt .four,
    fun _ => ignoresBanks_pokeAt .four,
    fun _ _ c bank => congrArg (Prod.mk _) (c.copy_withVideoBank bank _ _ _),
    fun _ _ c bank => congrArg (Prod.mk _) (c.fill_withVideoBank bank _ _ _),
    fun _ => ?pmem, fun _ => ?sync, fun other => absurd rfl other,
    ?btn, ?btnp, ?key, ?keyp, ?mouse, ?time, ?tstamp, ?trace, ?exit, ?reset, ?cls,
    fun _ => ?pix, ?rect, ?rectb, ?line, fun _ => ?clip,
    fun _ _ c bank => congrArg (Prod.mk _) (c.playEffect_withVideoBank bank _ _ _ _ _ _ _ _),
    fun _ _ c bank => congrArg (Prod.mk _) (c.playMusic_withVideoBank bank _ _ _ _ _ _ _),
    fun f none => absurd none List.not_mem_nil⟩
  case btn | btnp | key | keyp | mouse | time | tstamp => exact fun _ _ _ _ => rfl
  case trace | exit | reset | cls | rect | rectb | line => exact fun _ _ _ _ => rfl
  case peek =>
    intro args c bank
    unfold peek
    split
    · exact ignoresBanks_peekAt _ args c bank
    · rfl
  case poke =>
    intro args c bank
    unfold poke
    split
    · exact ignoresBanks_pokeAt _ args c bank
    · rfl
  case pmem =>
    intro args c bank
    have stored := c.persist_withVideoBank bank (intArg args 0 0)
      ((args[1]?.bind Value.toInt?).map wordOfInt)
    simp only [persist, stored]
  case sync =>
    intro args c bank
    unfold sync
    dsimp only
    cases Cart.bank? (intArg args 1 0) <;> rfl
  case pix =>
    intro args c bank
    unfold pixel
    dsimp only
    cases args[2]?.bind Value.toInt? <;> rfl
  case clip =>
    intro args c bank
    unfold clip withCoordinates effect
    dsimp only
    split <;> rfl

theorem call_withVideoBank {name : String} (other : name ≠ "vbank") (args : List Value)
    (c : Console) (bank : VideoBank) : call name args (c.withVideoBank bank) =
      ((call name args c).1, (call name args c).2.withVideoBank bank) := by
  unfold call
  cases found : lookup? name with
  | none => rfl
  | some f =>
    have named : f.name = name := by simpa using List.find?_some found
    have ignores := ignoresBanks_run f (List.mem_of_find?_eq_some found) (named ▸ other)
    dsimp only
    split
    · rfl
    · exact congrArg (fun x => (Except.ok x.1, x.2)) (ignores args c bank)

/-- No call but the switch changes the banks. -/
theorem videoBank_call {name : String} (other : name ≠ "vbank") (args : List Value)
    (c : Console) : (call name args c).2.state.videoBank = c.state.videoBank := by
  -- in place of the banks that are there, the call is made with the same ones
  have same := congrArg (fun x => x.2.state.videoBank)
    (call_withVideoBank other args c c.state.videoBank)
  exact same

/-- A switch answers with the bank that was shown; one with too many arguments is refused. -/
theorem call_vbank (args : List Value) (c : Console) : call "vbank" args c =
    if args.length ≤ 1 then
      (.ok (.int (c.selectVideoBank (intArg args 0 (-1))).1.val),
        (c.selectVideoBank (intArg args 0 (-1))).2)
    else (.error (.arity "vbank" 0 1 args.length), c) := by
  have found : lookup? "vbank" = some ⟨"vbank", 0, 1, selectVideoBank⟩ := by rfl
  rw [call, found]
  dsimp only
  by_cases few : args.length ≤ 1
  · rw [if_pos few, if_neg (by omega)]
    rfl
  · rw [if_neg few, if_pos (by omega)]

/-- Makes some calls, one after the other. -/
def callAll (calls : List (String × List Value)) (c : Console) : Console :=
  calls.foldl (fun c (name, args) => (call name args c).2) c

/-- Whether a bank is put aside whenever one of some calls is made. -/
def Aside (id : Fin 2) : List (String × List Value) → Console → Prop
  | [], _ => True
  | (name, args) :: calls, c =>
    c.state.videoBank.current ≠ id ∧ Aside id calls (call name args c).2

end Api

namespace VideoMemory

theorem exists_represents (c : Console) : ∃ v : VideoMemory, v.Represents c := by
  refine ⟨⟨fun id => if id = c.state.videoBank.current then c.ram.region Layout.video
    else c.state.videoBank.stash, c.state.videoBank.current, c.ram.region Layout.common⟩, ?_⟩
  exact ⟨(if_pos rfl).symm, rfl, rfl, (if_neg (other_ne _)).symm⟩

namespace Represents

variable {v : VideoMemory} {c : Console} (represents : v.Represents c)
include represents

/-- A call that is no switch acts on the image that is shown and on the rest of memory. -/
theorem call {name : String} (other : name ≠ "vbank") (args : List Value) :
    ∃ image rest, (v.setMemory image rest).Represents (Api.call name args c).2 := by
  have bank := Api.videoBank_call other args c
  refine ⟨(Api.call name args c).2.ram.region Layout.video,
    (Api.call name args c).2.ram.region Layout.common, (if_pos rfl).symm, rfl, ?_, ?_⟩
  · rw [bank]
    exact represents.current
  · rw [bank, represents.stash]
    exact (if_neg (other_ne _)).symm

/-- A switch changes which image is shown, and nothing else. -/
theorem selectVideoBank (id : Int) :
    (c.selectVideoBank id).1 = v.current ∧
      match VideoBank.ofNumber? id with
      | some next => (v.select next).Represents (c.selectVideoBank id).2
      | none => (c.selectVideoBank id).2 = c := by
  obtain ⟨shown, rest, current, stash⟩ := represents
  have fits : Layout.video.stop ≤ Layout.memorySize := by decide
  have behind : Layout.common.Disjoint Layout.video := by decide
  unfold Console.selectVideoBank
  dsimp only
  cases VideoBank.ofNumber? id with
  | none => exact ⟨current, rfl⟩
  | some next =>
    dsimp only
    split
    case isTrue same =>
      refine ⟨current, ?_⟩
      rw [same, current]
      exact ⟨shown, rest, current, stash⟩
    case isFalse moves =>
      rw [current] at moves
      refine ⟨current, ?_, ?_, rfl, ?_⟩
      · rw [region_setRegion_self _ fits, stash, ← eq_other moves]
        rfl
      · rw [region_setRegion_of_disjoint _ behind]
        exact rest
      · dsimp only
        rw [shown, eq_other (Ne.symm moves)]
        rfl

theorem vbank (args : List Value) :
    ∃ w : VideoMemory, w.Represents (Api.call "vbank" args c).2 ∧ w.images = v.images := by
  rw [Api.call_vbank]
  split
  case isFalse => exact ⟨v, represents, rfl⟩
  case isTrue =>
    have switched := (represents.selectVideoBank (Api.intArg args 0 (-1))).2
    split at switched
    case h_1 next _ => exact ⟨v.select next, switched, rfl⟩
    case h_2 =>
      rw [switched]
      exact ⟨v, represents, rfl⟩

/-- Calls that are made while an image is put aside do not touch it. -/
theorem callAll_aside {id : Fin 2} {calls : List (String × List Value)}
    (aside : Api.Aside id calls c) :
    ∃ w : VideoMemory, w.Represents (Api.callAll calls c) ∧ w.images id = v.images id := by
  induction calls generalizing v c with
  | nil => exact ⟨v, represents, rfl⟩
  | cons first calls ih =>
    obtain ⟨name, args⟩ := first
    obtain ⟨hidden, rest⟩ := aside
    rw [represents.current] at hidden
    by_cases switch : name = "vbank"
    · subst switch
      obtain ⟨u, next, images⟩ := represents.vbank args
      obtain ⟨w, last, same⟩ := ih next rest
      exact ⟨w, last, same.trans (congrFun images id)⟩
    · obtain ⟨image, common, next⟩ := represents.call switch args
      obtain ⟨w, last, same⟩ := ih next rest
      exact ⟨w, last, same.trans (if_neg (Ne.symm hidden))⟩

end Represents

end VideoMemory

/-- After any calls from the start the console holds two images of video memory. Every call but the
switch acts on the one that is shown and on the rest of memory, whatever the banks hold; a switch
answers with the image that was shown, and shows another one or, when its number names none, does
nothing. An image that is put aside is therefore found again as it was left. -/
theorem Console.video_banks_independent (config : Config) (clock : Clock)
    (calls : List (String × List Value)) :
    let c := Api.callAll calls (new config clock)
    ∃ v : VideoMemory, v.Represents c ∧
      (∀ name args, name ≠ "vbank" →
        (∃ image rest, (v.setMemory image rest).Represents (Api.call name args c).2) ∧
        ∀ bank, Api.call name args (c.withVideoBank bank) =
          ((Api.call name args c).1, (Api.call name args c).2.withVideoBank bank)) ∧
      (∀ args, args.length ≤ 1 → ∃ d, Api.call "vbank" args c = (.ok (.int v.current.val), d) ∧
        match VideoBank.ofNumber? (Api.intArg args 0 (-1)) with
        | some next => (v.select next).Represents d
        | none => d = c) ∧
      (∀ args, 1 < args.length → (Api.call "vbank" args c).2 = c) ∧
      ∀ id later, Api.Aside id later c →
        (Api.call "vbank" [.int id.val] (Api.callAll later c)).2.ram.region Layout.video =
          v.images id := by
  intro c
  obtain ⟨v, represents⟩ := VideoMemory.exists_represents c
  refine ⟨v, represents, fun name args other => ?_, fun args few => ?_, fun args many => ?_,
    fun id later aside => ?_⟩
  · exact ⟨represents.call other args, Api.call_withVideoBank other args c⟩
  · obtain ⟨answer, switched⟩ := represents.selectVideoBank (Api.intArg args 0 (-1))
    refine ⟨_, ?_, switched⟩
    rw [Api.call_vbank, if_pos few, answer]
  · rw [Api.call_vbank, if_neg (by omega)]
  · obtain ⟨w, last, same⟩ := represents.callAll_aside aside
    have named : VideoBank.ofNumber? (id.val : Int) = some id := by
      clear aside same
      decide +revert
    have back := (last.selectVideoBank id.val).2
    rw [named] at back
    rw [Api.call_vbank, if_pos (by simp), ← same]
    exact back.shown

end FantasyConsole
