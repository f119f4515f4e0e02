import FantasyConsole.Log.Logger

/-!
# Every line is accounted for

A line that passes the levels is emitted, or it is dropped and appears in the number of a later
summary, or it waits in the budget of its category for one.

## Main result

`Log.lines_accounted_for`: what a logger has emitted, summed up and not yet summed up in a category
is what was logged in it, after any acts; a text is built exactly if it is emitted; under one limit
at one instant, the calls up to the limit are emitted; and what is emitted in a category does not
depend on the calls in the others.

## Proof strategy

What an act does to one category is said once, for its budget and for its lines: both follow the
request to the budget if the act is a call that passes, and nothing happens otherwise. Every
statement about a run is then an induction on its acts.
-/

namespace FantasyConsole

namespace Log

/-! ### Requests to a budget -/

theorem Budget.dropped_spend (b : Budget) (allowed : Bool) (now : Nat) :
    allowed.toNat + (b.spend allowed now).dropped = b.dropped + 1 := by
  cases allowed with
  | false => exact Nat.zero_add _
  | true => exact Nat.add_comm 1 _

/-- A line that is asked for is emitted, summed up or kept in the number of dropped lines. -/
theorem Budget.request_accounts (b : Budget) (limit now : Nat) :
    (b.request limit now).2.allowed.toNat + (b.request limit now).2.summary.getD 0 +
      (b.request limit now).1.dropped = b.dropped + 1 := by
  have spent := (b.expire now).dropped_spend ((b.expire now).recent.length < limit) now
  unfold request
  dsimp only
  split
  case isTrue due => exact spent
  case isFalse waits => exact spent

theorem Budget.allowed_request (b : Budget) (limit now : Nat) :
    (b.request limit now).2.allowed = decide ((b.expire now).recent.length < limit) := by
  unfold request
  dsimp only
  split <;> rfl

theorem Budget.recent_request (b : Budget) (limit now : Nat) :
    (b.request limit now).1.recent =
      (b.expire now).recent ++ if (b.request limit now).2.allowed then [now] else [] := by
  rw [allowed_request]
  unfold request spend
  dsimp only
  split <;> split <;> simp_all

theorem Budget.expire_of_present {b : Budget} {now : Nat} (present : ∀ t ∈ b.recent, t = now) :
    b.expire now = b := by
  have kept : b.recent.dropWhile (fun t => decide (window < now - t)) = b.recent := by
    cases recent : b.recent with
    | nil => rfl
    | cons t later =>
      rw [present t (by simp [recent]), List.dropWhile_cons_of_neg]
      simp
  rw [expire, kept]

/-! ### What is done to a logger -/

/-- An act on a logger. -/
inductive Act where
  | setLimit (limit : Nat)
  | setGlobalLevel (level : Level)
  | setLevel (c : Category) (level : Level)
  | silence
  | setTarget (target : Option Target)
  | wait (duration : Nat)
  | log (c : Category) (level : Level) (text : String)
deriving DecidableEq, Repr

def Act.step : Act → Logger → Logger × List Emission
  | setLimit limit, l => ({ l with limit := limit }, [])
  | setGlobalLevel level, l => (l.setGlobalLevel level, [])
  | setLevel c level, l => (l.setLevel c level, [])
  | silence, l => (l.silence, [])
  | setTarget target, l => (l.setTarget target, [])
  | wait duration, l => ({ l with now := l.now + duration }, [])
  | log c level text, l => l.log c level fun _ => text

/-- The logger after some acts, and what it has emitted. -/
def Logger.run (l : Logger) : List Act → Logger × List Emission
  | [] => (l, [])
  | act :: acts =>
    let (l, lines) := act.step l
    let (l, later) := l.run acts
    (l, lines ++ later)

/-- Logs a line whose text is built by an action. -/
def Logger.logBuilt {m : Type → Type} [Monad m] (l : Logger) (c : Category) (level : Level)
    (build : m String) : m (Logger × List Emission) := do
  let (l, grant) := l.request c level
  let line ← if grant.allowed then List.singleton <$> build else pure []
  return (l, (grant.summary.toList.map (Logger.summaryLine c) ++ line).map (⟨l.destination, ·⟩))

/-- A text that is built without an effect is the one that is logged. -/
theorem Logger.log_eq_logBuilt (l : Logger) (c : Category) (level : Level) (text : Unit → String) :
    l.log c level text = Id.run (l.logBuilt c level (pure (text ()))) := by
  unfold log logBuilt
  dsimp only
  split <;> rfl

/-- Does one act; every text that is built is noted. -/
def Act.stepBuilding : Act → Logger → StateM (List String) (Logger × List Emission)
  | log c level text, l => l.logBuilt c level do
    modify (· ++ [text])
    return text
  | act, l => return act.step l

/-- Does some acts; every text that is built is noted. -/
def Logger.runBuilding (l : Logger) : List Act → StateM (List String) (Logger × List Emission)
  | [] => return (l, [])
  | act :: acts => do
    let (l, lines) ← act.stepBuilding l
    let (l, later) ← l.runBuilding acts
    return (l, lines ++ later)

/-! ### The journal of a run -/

/-- A line that is emitted, and what it is. -/
inductive Line where
  | summary (c : Category) (dropped : Nat)
  | message (c : Category) (text : String)
deriving DecidableEq, Repr

namespace Line

def category : Line → Category
  | summary c _ => c
  | message c _ => c

def text : Line → String
  | summary c dropped => Logger.summaryLine c dropped
  | message _ text => text

/-- The number of lines that a line says were dropped. -/
def dropped : Line → Nat
  | summary _ dropped => dropped
  | message .. => 0

/-- The text of a line that was logged. -/
def message? : Line → Option String
  | summary .. => none
  | message _ text => some text

end Line

/-- The lines that answer a call in a category. -/
def Grant.lines (grant : Grant) (c : Category) (text : String) : List Line :=
  grant.summary.toList.map (.summary c) ++ if grant.allowed then [.message c text] else []

def Act.lines : Act → Logger → List Line
  | log c level text, l => (l.request c level).2.lines c text
  | _, _ => []

def Logger.journal (l : Logger) : List Act → List Line
  | [] => []
  | act :: acts => act.lines l ++ (act.step l).1.journal acts

theorem Grant.lines_text (grant : Grant) (c : Category) (text : String) :
    (grant.lines c text).map Line.text =
      grant.summary.toList.map (Logger.summaryLine c) ++ if grant.allowed then [text] else [] := by
  unfold lines
  cases grant.allowed <;> cases grant.summary <;> rfl

theorem Grant.messages_lines (grant : Grant) (c : Category) (text : String) :
    (grant.lines c text).filterMap Line.message? = if grant.allowed then [text] else [] := by
  unfold lines
  cases grant.allowed <;> cases grant.summary <;> rfl

theorem Act.emissions_step (act : Act) (l : Logger) :
    (act.step l).2.map (·.line) = (act.lines l).map Line.text := by
  cases act with
  | log c level text =>
    rw [lines, Grant.lines_text, step, Logger.log, List.map_map]
    exact List.map_id _
  | _ => rfl

theorem Act.stepBuilding_eq (act : Act) (l : Logger) (built : List String) :
    (act.stepBuilding l).run built =
      (act.step l, built ++ (act.lines l).filterMap Line.message?) := by
  cases act with
  | log c level text =>
    rw [lines, Grant.messages_lines, step, Logger.log, stepBuilding, Logger.logBuilt]
    dsimp only
    split
    · rfl
    · rw [pure_bind, List.append_nil, List.append_nil]
      rfl
  | _ => exact congrArg (Prod.mk _) (List.append_nil built).symm

theorem Logger.emissions_run (l : Logger) (acts : List Act) :
    (l.run acts).2.map (·.line) = (l.journal acts).map Line.text := by
  induction acts generalizing l with
  | nil => rfl
  | cons act acts ih =>
    rw [journal, List.map_append, ← act.emissions_step, ← ih, ← List.map_append]
    rfl

theorem Logger.runBuilding_eq (l : Logger) (acts : List Act) (built : List String) :
    (l.runBuilding acts).run built =
      (l.run acts, built ++ (l.journal acts).filterMap Line.message?) := by
  induction acts generalizing l built with
  | nil => exact congrArg (Prod.mk _) (List.append_nil built).symm
  | cons act acts ih =>
    rw [journal, List.filterMap_append, ← List.append_assoc, runBuilding, StateT.run_bind,
      act.stepBuilding_eq]
    exact congrArg (fun r => ((r.1.1, (act.step l).2 ++ r.1.2), r.2)) (ih _ _)

/-! ### One category -/

/-- What a call in a category that passes the levels gets from its budget. -/
def Logger.requestOf (l : Logger) (c : Category) : Budget × Grant :=
  (l.budget c).request l.limit l.now

/-- The text that an act logs in a category, if the levels let it pass. -/
def Act.passing? : Act → Logger → Category → Option String
  | log own level text, l, c => if own = c ∧ l.isEnabled c level then some text else none
  | _, _, _ => none

/-- The lines of a category. -/
def about (c : Category) (lines : List Line) : List Line := lines.filter (·.category = c)

theorem about_append (c : Category) (first later : List Line) :
    about c (first ++ later) = about c first ++ about c later := List.filter_append ..

theorem Grant.category_of_mem {grant : Grant} {c : Category} {text : String} {line : Line}
    (member : line ∈ grant.lines c text) : line.category = c := by
  rcases List.mem_append.mp member with summary | message
  · obtain ⟨_, _, rfl⟩ := List.mem_map.mp summary
    rfl
  · split at message
    · rw [List.mem_singleton.mp message]
      rfl
    · cases message

theorem Grant.about_lines (grant : Grant) (c : Category) (text : String) :
    about c (grant.lines c text) = grant.lines c text :=
  List.filter_eq_self.mpr fun _ member => decide_eq_true (category_of_mem member)

theorem Grant.about_lines_of_ne (grant : Grant) {c own : Category} (other : own ≠ c)
    (text : String) : about c (grant.lines own text) = [] :=
  List.filter_eq_nil_iff.mpr fun _ member same =>
    other ((category_of_mem member).symm.trans (of_decide_eq_true same))

theorem Logger.request_of_enabled {l : Logger} {c : Category} {level : Level}
    (enabled : l.isEnabled c level) :
    l.request c level = (l.setBudget c (l.requestOf c).1, (l.requestOf c).2) :=
  if_pos enabled

theorem Logger.request_of_disabled {l : Logger} {c : Category} {level : Level}
    (disabled : ¬ l.isEnabled c level) : l.request c level = (l, ⟨false, none⟩) :=
  if_neg disabled

/-- What an act does to one category. -/
theorem Act.step_cases (act : Act) (l : Logger) (c : Category) :
    (∃ text, act.passing? l c = some text ∧ (act.step l).1.budget c = (l.requestOf c).1 ∧
      about c (act.lines l) = (l.requestOf c).2.lines c text) ∨
    (act.passing? l c = none ∧ (act.step l).1.budget c = l.budget c ∧
      about c (act.lines l) = []) := by
  cases act with
  | log own level text =>
    by_cases enabled : l.isEnabled own level
    · have request := Logger.request_of_enabled enabled
      have step : (step (log own level text) l).1 = l.setBudget own (l.requestOf own).1 :=
        congrArg Prod.fst request
      by_cases same : own = c
      · subst same
        refine .inl ⟨text, if_pos ⟨rfl, enabled⟩, ?_, ?_⟩
        · rw [step, Logger.budget_setBudget_self]
        · rw [lines, request]
          exact Grant.about_lines ..
      · refine .inr ⟨if_neg fun passes => same passes.1, ?_, ?_⟩
        · rw [step, Logger.budget_setBudget_of_ne _ (Ne.symm same)]
        · rw [lines, request]
          exact Grant.about_lines_of_ne _ same text
    · have request := Logger.request_of_disabled enabled
      refine .inr ⟨if_neg ?_, ?_, ?_⟩
      · rintro ⟨rfl, passes⟩
        exact enabled passes
      · exact congrArg (Logger.budget · c) (congrArg Prod.fst request)
      · rw [lines, request]
        rfl
  | _ => exact .inr ⟨rfl, rfl, rfl⟩

/-- The loggers that the calls in a category find, of those that pass the levels. -/
def Logger.calls (l : Logger) (c : Category) : List Act → List Logger
  | [] => []
  | act :: acts =>
    (if (act.passing? l c).isSome then [l] else []) ++ (act.step l).1.calls c acts

/-- The texts of a category that are logged. -/
def messages (c : Category) (lines : List Line) : List String :=
  (about c lines).filterMap Line.message?

/-- The number of lines of a category that are said to be dropped. -/
def missing (c : Category) (lines : List Line) : Nat :=
  (about c lines).foldr (fun line n => line.dropped + n) 0

theorem messages_append (c : Category) (first later : List Line) :
    messages c (first ++ later) = messages c first ++ messages c later := by
  rw [messages, about_append, List.filterMap_append]
  rfl

theorem missing_append (c : Category) (first later : List Line) :
    missing c (first ++ later) = missing c first + missing c later := by
  unfold missing
  rw [about_append, List.foldr_append]
  induction about c first with
  | nil => exact (Nat.zero_add _).symm
  | cons line lines ih => rw [List.foldr_cons, List.foldr_cons, ih, Nat.add_assoc]

/-! ### Counting -/

theorem Grant.missing_lines (grant : Grant) (c : Category) (text : String) :
    (grant.lines c text).foldr (fun line n => line.dropped + n) 0 = grant.summary.getD 0 := by
  unfold lines
  cases grant.allowed <;> cases grant.summary <;> simp [Line.dropped]

theorem Grant.length_messages (grant : Grant) (c : Category) (text : String) :
    ((grant.lines c text).filterMap Line.message?).length = grant.allowed.toNat := by
  rw [messages_lines]
  cases grant.allowed <;> rfl

theorem Logger.run_cons (l : Logger) (act : Act) (acts : List Act) :
    (l.run (act :: acts)).1 = ((act.step l).1.run acts).1 := rfl

/-- Nothing is lost between the budget and the lines. -/
theorem Logger.run_accounts (l : Logger) (c : Category) (acts : List Act) :
    (messages c (l.journal acts)).length + missing c (l.journal acts) +
      ((l.run acts).1.budget c).dropped = (l.budget c).dropped + (l.calls c acts).length := by
  induction acts generalizing l with
  | nil => simp [journal, calls, run, messages, missing, about]
  | cons act acts ih =>
    have later := ih (act.step l).1
    rw [journal, messages_append, missing_append, List.length_append, run_cons, calls,
      List.length_append]
    obtain ⟨text, passes, budget, lines⟩ | ⟨stops, budget, lines⟩ := act.step_cases l c
    · have call := (l.budget c).request_accounts l.limit l.now
      rw [budget] at later
      rw [passes, messages, missing, lines, Grant.length_messages, Grant.missing_lines]
      simp only [requestOf, Option.isSome_some, if_true, List.length_singleton] at later ⊢
      omega
    · rw [budget] at later
      rw [stops, messages, missing, lines]
      simpa using later

/-- As long as calls come at one instant and under one limit, each is allowed up to the limit. -/
theorem Logger.messages_under_limit {l : Logger} {c : Category} {acts : List Act} {limit now : Nat}
    (under : ∀ found ∈ l.calls c acts, found.limit = limit ∧ found.now = now)
    (present : ∀ t ∈ (l.budget c).recent, t = now) (within : (l.budget c).recent.length ≤ limit) :
    (l.budget c).recent.length + (messages c (l.journal acts)).length =
      min ((l.budget c).recent.length + (l.calls c acts).length) limit := by
  -- what the budget holds grows by what is emitted, so the two sides move together
  induction acts generalizing l with
  | nil => exact (Nat.min_eq_left within).symm
  | cons act acts ih =>
    rw [calls, List.forall_mem_append] at under
    rw [journal, messages_append, List.length_append, calls, List.length_append]
    obtain ⟨text, passes, budget, lines⟩ | ⟨stops, budget, lines⟩ := act.step_cases l c
    · obtain ⟨limited, instant⟩ := under.1 l (by simp [passes])
      have allowed := (l.budget c).allowed_request l.limit l.now
      have recent := (l.budget c).recent_request l.limit l.now
      rw [limited, instant, Budget.expire_of_present present] at allowed recent
      have next : (act.step l).1.budget c = ((l.budget c).request limit now).1 := by
        rw [budget, requestOf, limited, instant]
      have later := ih under.2
      rw [next, recent, allowed] at later
      rw [passes, messages, lines, Grant.length_messages, requestOf, limited, instant, allowed]
      by_cases room : (l.budget c).recent.length < limit
      · -- the line is emitted and held at this instant, which the next call still finds
        simp only [room, decide_true, if_true, List.length_append, List.length_singleton] at later
        have rest := later (by simpa [or_imp, forall_and] using present) room
        simp [room]
        omega
      · have rest := later (by simpa [room] using present) (by simpa [room] using within)
        simp [room] at rest ⊢
        omega
    · rw [← budget] at present within ⊢
      rw [stops, messages, lines]
      simpa using ih under.2 present within

/-! ### Independence -/

/-- Whether an act is no call in another category. -/
def Act.concerns (c : Category) : Act → Bool
  | log own _ _ => own = c
  | _ => true

theorem Logger.request_changes_budgets (l : Logger) (c : Category) (level : Level) :
    ∃ left, (l.request c level).1 = { l with budgets := left } := by
  unfold request
  split <;> exact ⟨_, rfl⟩

/-- Beside the budgets, an act leaves the same logger whatever the budgets are. -/
theorem Act.step_withBudgets (act : Act) (l : Logger) (budgets : Vector Budget categoryCount) :
    ∃ left, (act.step { l with budgets := budgets }).1 =
      { (act.step l).1 with budgets := left } := by
  cases act with
  | log own level text =>
    obtain ⟨_, here⟩ := l.request_changes_budgets own level
    obtain ⟨left, there⟩ := Logger.request_changes_budgets { l with budgets := budgets } own level
    refine ⟨left, ?_⟩
    change (Logger.request _ own level).1 = { (l.request own level).1 with budgets := left }
    rw [here, there]
  | _ => exact ⟨budgets, rfl⟩

theorem Act.passing?_withBudgets (act : Act) (l : Logger) (budgets : Vector Budget categoryCount)
    (c : Category) : act.passing? { l with budgets := budgets } c = act.passing? l c := by
  cases act <;> rfl

/-- A logger with the same budget for a category does the same in it. -/
theorem Act.step_congr (act : Act) {l : Logger} {c : Category}
    {budgets : Vector Budget categoryCount}
    (same : Logger.budget { l with budgets := budgets } c = l.budget c) :
    about c (act.lines { l with budgets := budgets }) = about c (act.lines l) ∧
      (act.step { l with budgets := budgets }).1.budget c = (act.step l).1.budget c := by
  have request : Logger.requestOf { l with budgets := budgets } c = l.requestOf c :=
    congrArg (Budget.request · l.limit l.now) same
  have passing := act.passing?_withBudgets l budgets c
  obtain ⟨text, passes, budget, lines⟩ | ⟨stops, budget, lines⟩ := act.step_cases l c <;>
  obtain ⟨text', passes', budget', lines'⟩ | ⟨stops', budget', lines'⟩ :=
    act.step_cases { l with budgets := budgets } c
  · obtain rfl := Option.some.inj (passes'.symm.trans (passing.trans passes))
    rw [budget', lines', budget, lines, request]
    exact ⟨rfl, rfl⟩
  · cases stops'.symm.trans (passing.trans passes)
  · cases passes'.symm.trans (passing.trans stops)
  · rw [budget', lines', budget, lines]
    exact ⟨rfl, same⟩

/-- A call in another category leaves a category alone. -/
theorem Act.step_of_not_concerns {act : Act} {c : Category} (other : act.concerns c = false)
    (l : Logger) :
    about c (act.lines l) = [] ∧
      ∃ left, (act.step l).1 = { l with budgets := left } ∧
        Logger.budget { l with budgets := left } c = l.budget c := by
  cases act with
  | log own level text =>
    have passing : (log own level text).passing? l c = none :=
      if_neg fun passes => of_decide_eq_false other passes.1
    obtain ⟨_, passes, _⟩ | ⟨_, budget, lines⟩ := (log own level text).step_cases l c
    · cases passing.symm.trans passes
    · obtain ⟨left, step⟩ := l.request_changes_budgets own level
      refine ⟨lines, left, step, ?_⟩
      exact (congrArg (Logger.budget · c) step).symm.trans budget
  | _ => cases other

theorem Logger.about_journal_congr {l : Logger} {c : Category}
    {budgets : Vector Budget categoryCount}
    (same : budget { l with budgets := budgets } c = l.budget c) (acts : List Act) :
    about c (l.journal acts) =
      about c (({ l with budgets := budgets } : Logger).journal (acts.filter (·.concerns c))) := by
  induction acts generalizing l budgets with
  | nil => rfl
  | cons act acts ih =>
    rw [journal, about_append]
    cases concerns : act.concerns c with
    | false =>
      -- only the run on the left does this act; its budgets drift apart, but not in this category
      obtain ⟨lines, left, step, kept⟩ := Act.step_of_not_concerns concerns l
      have agree : budget { l with budgets := budgets } c = budget { l with budgets := left } c :=
        same.trans kept.symm
      rw [List.filter_cons_of_neg (by simp [concerns]), lines, List.nil_append, step]
      exact ih agree
    | true =>
      obtain ⟨lines, budget⟩ := act.step_congr same
      obtain ⟨left, step⟩ := act.step_withBudgets l budgets
      rw [step] at budget
      rw [List.filter_cons_of_pos concerns, journal, about_append, lines, step]
      exact congrArg (about c (act.lines l) ++ ·) (ih budget)

theorem Logger.about_journal_of_concerns {c : Category} {acts : List Act}
    (concern : ∀ act ∈ acts, act.concerns c) (l : Logger) :
    about c (l.journal acts) = l.journal acts := by
  induction acts generalizing l with
  | nil => rfl
  | cons act acts ih =>
    rw [List.forall_mem_cons] at concern
    rw [journal, about_append, ih concern.2]
    cases act with
    | log own level text =>
      obtain rfl : own = c := of_decide_eq_true concern.1
      rw [Act.lines, Grant.about_lines]
    | _ => rfl

/-! ### All acts -/

/-- After any acts on a new logger, in every category: the lines of the journal are what has been
emitted, and the texts of its messages are what has been built; what has been emitted, what
summaries say was dropped and what is still to be summed up are together the calls that passed the
levels; if these came at one instant and under one limit, those up to the limit have been emitted;
and calls in other categories make no difference to what has been emitted. -/
theorem lines_accounted_for (acts : List Act) (c : Category) :
    let fresh : Logger := {}
    let lines := fresh.journal acts
    (fresh.run acts).2.map (·.line) = lines.map Line.text ∧
    (fresh.runBuilding acts).run [] = (fresh.run acts, lines.filterMap Line.message?) ∧
    (messages c lines).length + missing c lines + ((fresh.run acts).1.budget c).dropped =
      (fresh.calls c acts).length ∧
    (∀ limit now, (∀ found ∈ fresh.calls c acts, found.limit = limit ∧ found.now = now) →
      (messages c lines).length = min (fresh.calls c acts).length limit) ∧
    about c lines = fresh.journal (acts.filter (·.concerns c)) := by
  intro fresh lines
  have unused : fresh.budget c = {} := by
    cases c <;> rfl
  refine ⟨fresh.emissions_run acts, fresh.runBuilding_eq acts [], ?_, ?_, ?_⟩
  · rw [fresh.run_accounts c acts, unused]
    exact Nat.zero_add _
  · intro limit now under
    have counted := Logger.messages_under_limit under (by simp [unused]) (by simp [unused])
    rw [unused] at counted
    simpa using counted
  · rw [Logger.about_journal_congr (l := fresh) (c := c) rfl acts]
    exact fresh.about_journal_of_concerns (fun act member => (List.mem_filter.mp member).2)

/-- Five calls in a category, of which four pass, under a limit of two: two are emitted, whatever is
logged in another category. -/
theorem lines_accounted_for_five :
    let call := Act.log .sync .info
    let acts := [.setLimit 2, .setGlobalLevel .info, call "a", .log .sync .debug "b",
      .log .sound .info "c", call "d", call "e", call "f", .setLimit 9]
    (messages .sync (({} : Logger).journal acts)).length = 2 := by
  intro call acts
  have under : ∀ found ∈ ({} : Logger).calls .sync acts, found.limit = 2 ∧ found.now = 0 := by
    decide
  have calls : (({} : Logger).calls .sync acts).length = 4 := by decide
  have all := (lines_accounted_for acts .sync).2.2.2.1 2 0 under
  rw [all, calls]
  decide

end Log

end FantasyConsole
