import FantasyConsole.Console.Basic
import FantasyConsole.Proofs.Cart.Transfers
import Mathlib.Tactic.Push
import Mathlib.Tactic.Tauto

/-!
# The synchronisations of a frame

Between two moments at which the console forgets what was copied, each section is copied once at
most: by the first request that names it. This module says what a run of requests does as a whole,
and that what is copied to the cart in one frame can be had back in a later one.

## Main result

`Console.synchronisations_of_frame`

## Proof strategy

A request copies the sections that it names and that were not copied before, so its plan and the plan
of the requests after it share no section. By induction on the requests the plans compose to the one
that looks up the first request for each section.
-/

namespace FantasyConsole

/-- The arguments of one synchronisation. -/
structure SyncRequest where
  mask : SectionSet
  bank : Fin Cart.bankCount
  direction : Direction
deriving DecidableEq, Repr

/-- Whether the request asks for a section. -/
def SyncRequest.Names (q : SyncRequest) (s : Section) : Prop := s ∈ q.mask.requested

instance (q : SyncRequest) : DecidablePred q.Names :=
  fun s => inferInstanceAs (Decidable (s ∈ q.mask.requested))

/-- Every section that was not copied before goes with the first request that names it. -/
def Plan.ofRequests (before : SectionSet) (qs : List SyncRequest) : Plan :=
  fun s => if s ∈ before then none else
    (qs.find? (fun q => decide (q.Names s))).map fun q => (q.bank, q.direction)

namespace Console

/-- The places between which the console copies sections. -/
def stores (c : Console) : SyncStores := ⟨c.ram, c.cart, c.state.overlayPalette⟩

/-- Serves a request; says which sections were copied. -/
def serve (c : Console) (q : SyncRequest) : SectionSet × Console :=
  c.sync q.mask q.bank q.direction

/-- Serves requests one after the other; says for each which sections were copied. -/
def serveAll (c : Console) : List SyncRequest → List SectionSet × Console
  | [] => ([], c)
  | q :: qs =>
    let rest := (c.serve q).2.serveAll qs
    ((c.serve q).1 :: rest.1, rest.2)

/-! ### One request -/

theorem mem_serve {c : Console} {q : SyncRequest} {s : Section} :
    s ∈ (c.serve q).1 ↔ q.Names s ∧ s ∉ c.state.synced :=
  SectionSet.mem_without

theorem synced_serve (c : Console) (q : SyncRequest) :
    (c.serve q).2.state.synced = c.state.synced.union (c.serve q).1 := rfl

/-- What was copied before or is copied now has been copied afterwards. -/
theorem mem_synced_serve {c : Console} {q : SyncRequest} {s : Section} :
    s ∈ (c.serve q).2.state.synced ↔ s ∈ c.state.synced ∨ q.Names s := by
  rw [synced_serve, SectionSet.mem_union, mem_serve]
  tauto

theorem follows_serve (c : Console) (q : SyncRequest) :
    c.stores.Follows (.copying (· ∈ (c.serve q).1) q.bank q.direction) (c.serve q).2.stores :=
  SyncStores.follows_transferAll c.stores q.bank q.direction (c.serve q).1

/-! ### A run of requests -/

theorem serveAll_append (c : Console) (before after : List SyncRequest) :
    c.serveAll (before ++ after) =
      ((c.serveAll before).1 ++ ((c.serveAll before).2.serveAll after).1,
        ((c.serveAll before).2.serveAll after).2) := by
  induction before generalizing c with
  | nil => rfl
  | cons q before ih => simp [serveAll, ih]

theorem length_serveAll (c : Console) (qs : List SyncRequest) :
    (c.serveAll qs).1.length = qs.length := by
  induction qs generalizing c with
  | nil => rfl
  | cons q qs ih => simp [serveAll, ih]

theorem mem_synced_serveAll {c : Console} {qs : List SyncRequest} {s : Section} :
    s ∈ (c.serveAll qs).2.state.synced ↔ s ∈ c.state.synced ∨ ∃ q ∈ qs, q.Names s := by
  induction qs generalizing c with
  | nil => simp [serveAll]
  | cons q qs ih =>
    simp [serveAll, ih, mem_synced_serve, or_assoc]

theorem union_serveAll (c : Console) (qs : List SyncRequest) :
    (c.serveAll qs).1.foldl SectionSet.union c.state.synced = (c.serveAll qs).2.state.synced := by
  induction qs generalizing c with
  | nil => rfl
  | cons q qs ih => exact ih (c.serve q).2

theorem not_mem_synced_of_mem_serveAll {c : Console} {qs : List SyncRequest} {a : SectionSet}
    (returned : a ∈ (c.serveAll qs).1) {s : Section} (copied : s ∈ a) : s ∉ c.state.synced := by
  induction qs generalizing c with
  | nil => cases returned
  | cons q qs ih =>
    rcases List.mem_cons.mp returned with rfl | later
    · exact (mem_serve.mp copied).2
    · intro earlier
      exact ih later (mem_synced_serve.mpr (.inl earlier))

theorem pairwise_serveAll (c : Console) (qs : List SyncRequest) :
    (c.serveAll qs).1.Pairwise SectionSet.Disjoint := by
  induction qs generalizing c with
  | nil => exact .nil
  | cons q qs ih =>
    refine .cons ?_ (ih _)
    -- what the first request copied is known to all the others
    intro a returned s first later
    refine not_mem_synced_of_mem_serveAll returned later ?_
    exact mem_synced_serve.mpr (.inr (mem_serve.mp first).1)

theorem follows_serveAll (c : Console) (qs : List SyncRequest) :
    c.stores.Follows (.ofRequests c.state.synced qs) (c.serveAll qs).2.stores := by
  induction qs generalizing c with
  | nil => exact (SyncStores.Follows.refl c.stores).congr fun s => by simp [Plan.ofRequests]
  | cons q qs ih =>
    refine ((c.follows_serve q).trans (ih (c.serve q).2) ?_).congr ?_
    · intro s
      by_cases now : s ∈ (c.serve q).1
      · have done : s ∈ (c.serve q).2.state.synced :=
          mem_synced_serve.mpr (.inr (mem_serve.mp now).1)
        exact .inr (if_pos done)
      · exact .inl (Plan.copying_of_not now)
    · intro s
      -- the request takes the sections that it names and that are still left
      by_cases done : s ∈ c.state.synced <;> by_cases named : q.Names s <;>
        simp [Plan.andThen, Plan.copying, Plan.ofRequests, mem_serve, mem_synced_serve, done, named]

/-! ### Between two frames -/

/-- What happens between two consoles: changes that leave the cart alone and synchronisations, each
listed with the sections that it copied. -/
inductive Interlude : Console → List (SyncRequest × SectionSet) → Console → Prop where
  | refl (c : Console) : Interlude c [] c
  | change {c d e : Console} {copies : List (SyncRequest × SectionSet)} (same : d.cart = c.cart)
      (rest : Interlude d copies e) : Interlude c copies e
  | sync {c e : Console} {copies : List (SyncRequest × SectionSet)} (q : SyncRequest)
      (rest : Interlude (c.serve q).2 copies e) : Interlude c ((q, (c.serve q).1) :: copies) e

theorem Interlude.inBank_kept {c e : Console} {copies : List (SyncRequest × SectionSet)}
    (between : Interlude c copies e) {b : Fin Cart.bankCount} {s : Section}
    (spared : ∀ p ∈ copies, p.1.bank = b → p.1.direction = .toCart → s ∉ p.2) :
    e.stores.inBank b s = c.stores.inBank b s := by
  induction between with
  | refl c => rfl
  | change same rest ih =>
    rw [ih spared, SyncStores.inBank, SyncStores.inBank]
    simp only [stores, same]
  | sync q rest ih =>
    -- it copies other sections, or from another bank, or the other way
    rename_i c e copies
    rw [ih fun p member => spared p (List.mem_cons_of_mem _ member)]
    refine (c.follows_serve q).unstored s b fun planned => ?_
    obtain ⟨copied, bank, direction⟩ := Plan.copying_eq_some.mp planned
    exact spared _ List.mem_cons_self bank direction copied

/-- What was stored in a bank comes back, if the bank still has it. -/
theorem inMemory_of_interlude {c e : Console} {mask : SectionSet} {b : Fin Cart.bankCount}
    {copies : List (SyncRequest × SectionSet)}
    (between : Interlude (c.sync mask b .toCart).2 copies e) {s : Section}
    (named : s ∈ mask.requested) (stored : s ∉ c.state.synced) (loaded : s ∉ e.state.synced)
    (spared : ∀ p ∈ copies, p.1.bank = b → p.1.direction = .toCart → s ∉ p.2) :
    (e.sync mask b .toMemory).2.stores.inMemory s = c.stores.inMemory s := by
  have back : (e.sync mask b .toMemory).2.stores.inMemory s = e.stores.inBank b s :=
    (e.follows_serve ⟨mask, b, .toMemory⟩).loaded s b
      (Plan.copying_of (mem_serve.mpr ⟨named, loaded⟩))
  have forth : (c.sync mask b .toCart).2.stores.inBank b s = c.stores.inMemory s :=
    (c.follows_serve ⟨mask, b, .toCart⟩).stored s b
      (Plan.copying_of (mem_serve.mpr ⟨named, stored⟩))
  rw [back, between.inBank_kept spared, forth]

/-- In a run of synchronisations a section that was not copied before is copied by the first request
that names it and by no other, and nothing else changes; the returned sets share no section and
together make up what is remembered. What was stored in one frame and is loaded from the same bank in
another is restored, unless the bank was written in the meantime. -/
theorem synchronisations_of_frame (c : Console) (qs : List SyncRequest) :
    (∀ before q after, qs = before ++ q :: after →
      (c.serveAll qs).1[before.length]? = some ((c.serveAll before).2.serve q).1 ∧
      (∀ s, s ∈ ((c.serveAll before).2.serve q).1 ↔
        s ∉ c.state.synced ∧ q.Names s ∧ ∀ p ∈ before, ¬ p.Names s) ∧
      (c.serveAll before).2.stores.Follows
        (.copying (· ∈ ((c.serveAll before).2.serve q).1) q.bank q.direction)
        ((c.serveAll before).2.serve q).2.stores) ∧
    c.stores.Follows (.ofRequests c.state.synced qs) (c.serveAll qs).2.stores ∧
    (c.serveAll qs).1.length = qs.length ∧
    (c.serveAll qs).1.Pairwise SectionSet.Disjoint ∧
    (c.serveAll qs).1.foldl SectionSet.union c.state.synced = (c.serveAll qs).2.state.synced ∧
    (∀ mask b copies e, Interlude (c.sync mask b .toCart).2 copies e →
      ∀ s ∈ mask.requested, s ∉ c.state.synced → s ∉ e.state.synced →
        (∀ p ∈ copies, p.1.bank = b → p.1.direction = .toCart → s ∉ p.2) →
        (e.sync mask b .toMemory).2.stores.inMemory s = c.stores.inMemory s) := by
  refine ⟨?_, c.follows_serveAll qs, c.length_serveAll qs, c.pairwise_serveAll qs,
    c.union_serveAll qs, ?_⟩
  · -- each request of the run, by what the requests before it have copied
    rintro before q after rfl
    refine ⟨?_, fun s => ?_, (c.serveAll before).2.follows_serve q⟩
    · simp [serveAll_append, serveAll, length_serveAll]
    · rw [mem_serve, mem_synced_serveAll]
      push Not
      tauto
  · intro mask b copies e between s named stored loaded spared
    exact inMemory_of_interlude between named stored loaded spared

/-- The palettes survive in bank 3 while memory is wiped and the map is stored beside them. -/
theorem synchronisations_of_frame_palettes :
    let c := Console.new {} {}
    let stored := (c.sync (.singleton .palette) 3 .toCart).2
    let wiped := { stored with ram := .blank, state.synced := .empty }
    let later := (wiped.serve ⟨.singleton .map, 3, .toCart⟩).2
    (later.sync (.singleton .palette) 3 .toMemory).2.stores.inMemory .palette =
      c.stores.inMemory .palette := by
  intro c stored wiped later
  let map : SyncRequest := ⟨.singleton .map, 3, .toCart⟩
  have between : Interlude stored [(map, (wiped.serve map).1)] later :=
    .change (d := wiped) rfl (.sync map (.refl later))
  have spared : Section.palette ∉ (wiped.serve map).1 := by decide
  refine (synchronisations_of_frame c []).2.2.2.2.2 _ 3 _ later between .palette ?_ ?_ ?_ ?_
  · decide
  · decide
  · decide
  · intro p member _ _
    exact List.mem_singleton.mp member ▸ spared

end Console

end FantasyConsole
