import FantasyConsole.Guest.Program
import FantasyConsole.Proofs.Guest.Writes

/-!
# What a drawing program touches

A program that only reads and writes memory and draws reaches memory through calls whose footprints
are known. The footprint of the program is the union of theirs, each taken at the state in which its
call is made, since the clip and the answers that decide the next call change on the way.
-/

namespace FantasyConsole

namespace Api

/-- The calls with which a program reads and writes memory and draws. -/
def drawingCalls : List String :=
  ["peek", "poke", "peek1", "poke1", "peek2", "poke2", "peek4", "poke4", "memcpy", "memset", "pmem",
    "cls", "pix", "rect", "rectb", "line", "clip"]

/-- The bits that a function writes. -/
def writtenBits (name : String) (args : List Value) (c : Console) : Set Nat :=
  let int := intArg args
  let coordinate := int32Arg args
  match name with
  | "poke" =>
    match Width.ofBits? (int 2 8) with
    | some w => Ram.pokeBits (int 0 0) w
    | none => ∅
  | "poke1" => Ram.pokeBits (int 0 0) .one
  | "poke2" => Ram.pokeBits (int 0 0) .two
  | "poke4" => Ram.pokeBits (int 0 0) .four
  | "memcpy" => Ram.copyBits (int 0 0) (int 1 0) (int 2 0)
  | "memset" => Ram.fillBits (int 0 0) (int 2 0)
  | "pmem" => if (args[1]?.bind Value.toInt?).isSome then Ram.slotBits (int 0 0) else ∅
  | "cls" => Canvas.clearBits c.state.clip
  | "pix" =>
    if (args[2]?.bind Value.toInt?).isSome then
      Canvas.putBits c.state.clip (coordinate 0 0) (coordinate 1 0)
    else
      ∅
  | "rect" =>
    Canvas.areaBits c.state.clip (coordinate 0 0) (coordinate 1 0) (coordinate 2 0) (coordinate 3 0)
  | "rectb" =>
    Canvas.outlineBits c.state.clip (coordinate 0 0) (coordinate 1 0) (coordinate 2 0)
      (coordinate 3 0)
  | "line" =>
    Canvas.lineBits c.state.clip
      ⟨⟨coordinate 0 0, coordinate 1 0⟩, ⟨coordinate 2 0, coordinate 3 0⟩⟩
  | _ => ∅

/-- The bits that a call writes; a call that is refused writes none. -/
def callBits (name : String) (args : List Value) (c : Console) : Set Nat :=
  match lookup? name with
  | none => ∅
  | some f =>
    if args.length < f.minArgs ∨ f.maxArgs < args.length then ∅ else writtenBits name args c

/-! ### Each function -/

private theorem writes_peekAt (w : Width) (args : List Value) (c : Console) :
    Ram.Writes ∅ c.ram (peekAt w args c).2.ram := by
  change Ram.Writes ∅ c.ram (c.reportAccess (intArg args 0 0) w).ram
  rw [c.ram_reportAccess]
  exact .refl c.ram

private theorem writes_peek (args : List Value) (c : Console) :
    Ram.Writes ∅ c.ram (peek args c).2.ram := by
  unfold peek
  split
  · exact writes_peekAt _ args c
  · exact .refl c.ram

private theorem writes_pokeAt (w : Width) (args : List Value) (c : Console) :
    Ram.Writes (Ram.pokeBits (intArg args 0 0) w) c.ram (pokeAt w args c).2.ram :=
  ((MemoryWrite.poke (intArg args 0 0) _ w).stores_apply c).toWrites

private theorem writes_poke (args : List Value) (c : Console) :
    Ram.Writes (writtenBits "poke" args c) c.ram (poke args c).2.ram := by
  simp only [writtenBits, poke]
  cases Width.ofBits? (intArg args 2 8) with
  | none => exact .refl c.ram
  | some w => exact writes_pokeAt w args c

private theorem writes_persist (args : List Value) (c : Console) :
    Ram.Writes (writtenBits "pmem" args c) c.ram (persist args c).2.ram := by
  simp only [writtenBits, persist, Console.persist]
  cases args[1]?.bind Value.toInt? with
  | none => exact .refl c.ram
  | some value => exact c.ram.writes_setSlot (intArg args 0 0) (wordOfInt value)

private theorem writes_pixel (args : List Value) (c : Console) :
    Ram.Writes (writtenBits "pix" args c) c.ram (pixel args c).2.ram := by
  simp only [writtenBits, pixel]
  cases args[2]?.bind Value.toInt? with
  | none => exact .refl c.ram
  | some color => exact ((MemoryWrite.pixel _ _ (byteOfInt (color % 16))).stores_apply c).toWrites

private theorem writes_clip (args : List Value) (c : Console) :
    Ram.Writes ∅ c.ram (clip args c).2.ram := by
  have same : (clip args c).2.ram = c.ram := by
    change (if args.length < 4 then c.resetClip else c.setClip _ _ _ _).ram = c.ram
    split <;> rfl
  rw [same]
  exact .refl c.ram

/-- Every function of a drawing program writes its footprint. -/
theorem writes_run : ∀ f ∈ table, f.name ∈ drawingCalls → ∀ args c,
    Ram.Writes (writtenBits f.name args c) c.ram (f.run args c).2.ram := by
  simp only [table, List.forall_mem_cons]
  refine ⟨fun _ => writes_peek, fun _ => writes_poke, fun _ => writes_peekAt .one,
    fun _ => writes_pokeAt .one, fun _ => writes_peekAt .two, fun _ => writes_pokeAt .two,
    fun _ => writes_peekAt .four, fun _ => writes_pokeAt .four,
    fun _ args c => ((MemoryWrite.copy (intArg args 0 0) _ _).stores_apply c).toWrites,
    fun _ args c => ((MemoryWrite.fill (intArg args 0 0) _ _).stores_apply c).toWrites,
    fun _ => writes_persist, ?sync, ?vbank, ?btn, ?btnp, ?key, ?keyp, ?mouse, ?time, ?tstamp, ?trace,
    ?exit, ?reset,
    fun _ args c => ((MemoryWrite.clear (colorArg args 0 0)).stores_apply c).toWrites,
    fun _ => writes_pixel,
    fun _ args c => ((MemoryWrite.rect _ _ _ _ (colorArg args 4 0)).stores_apply c).toWrites,
    fun _ args c => ((MemoryWrite.outline _ _ _ _ (colorArg args 4 0)).stores_apply c).toWrites,
    fun _ args c => ((MemoryWrite.line _ (colorArg args 4 0)).stores_apply c).toWrites,
    fun _ => writes_clip, ?sfx, ?music, fun f none => absurd none List.not_mem_nil⟩
  -- the functions that are left are none with which a program draws
  all_goals exact fun other => absurd other (by decide)

theorem writes_call {name : String} (drawing : name ∈ drawingCalls) (args : List Value)
    (c : Console) : Ram.Writes (callBits name args c) c.ram (call name args c).2.ram := by
  unfold callBits call
  cases found : lookup? name with
  | none => exact .refl c.ram
  | some f =>
    -- the function that a name finds is the one with that name
    have member : f ∈ table := List.mem_of_find?_eq_some found
    have named : f.name = name :=
      eq_of_beq (List.find?_some (p := fun f : Function => f.name == name) found)
    subst named
    dsimp only
    split
    · exact .refl c.ram
    · exact writes_run f member drawing args c

end Api

/-! ### Programs -/

namespace Guest

variable {α : Type}

/-- Whether a program makes only calls with the given names, whatever the answers are. -/
def Uses (names : List String) : Guest α → Prop
  | done _ => True
  | call name _ next => name ∈ names ∧ ∀ answer, (next answer).Uses names

/-- The bits that a program writes when it is run on a console. -/
def writtenBits : Guest α → Console → Set Nat
  | done _, _ => ∅
  | call name args next, c =>
    Api.callBits name args c ∪
      (next (Api.call name args c).1).writtenBits (Api.call name args c).2

/-- A drawing program writes its footprint. -/
theorem writes_run {p : Guest α} (drawing : p.Uses Api.drawingCalls) (c : Console) :
    Ram.Writes (p.writtenBits c) c.ram (p.run c).2.ram := by
  induction p generalizing c with
  | done result => exact .refl c.ram
  | call name args next ih =>
    exact (Api.writes_call drawing.1 args c).trans (ih _ (drawing.2 _) _)

end Guest

end FantasyConsole
