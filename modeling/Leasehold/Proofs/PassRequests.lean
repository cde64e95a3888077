import Leasehold.Proofs.EngineRuns

/-! Who has a pass when. Each move of an engine does one of a few things to what is wanted, to the task, to the
line and to the pass under way; what a task and a pass are to each other follows from that. -/

namespace Leasehold.Engine

def busy? (e : Engine) : Option Requester := e.current.map Prod.fst

def Move.asks : Move → Bool
  | .schedule => true
  | .notice event => event.changesLeases
  | _ => false

def begun? (e : Engine) : Move → Option Requester
  | .begin _ => if e.current.isNone then e.line.head? else none
  | _ => none

def over? (e : Engine) : Move → Option (Requester × PassResult)
  | .complete => e.complete?.map fun completed => (completed.1, completed.2.1)
  | _ => none

/-- Nothing is different about the passes that are wanted, in line or under way. -/
structure Alike (e next : Engine) : Prop where
  dirty : next.dirty = e.dirty
  task : next.task = e.task
  finished : next.finished = e.finished

inductive Paced (e : Engine) (m : Move) : Engine → Prop
  | kept {next : Engine} (quiet : m.asks = false) (unbegun : e.begun? m = none) (unended : e.over? m = none)
      (alike : e.Alike next) (line : next.line = e.line) (current : next.current = e.current) : Paced e m next
  | asked (asks : m.asks = true) : Paced e m e.schedule
  | woken (wakes : m = .wake) (created : e.task = some .created) : Paced e m (e.proceed none)
  | lined (name : Nat) (same : m = .request name) : Paced e m (e.request name)
  | begun {next : Engine} {who : Requester} {rest : List Requester} {pass : Pass} (began : e.begun? m = some who)
      (free : e.current = none) (first : e.line = who :: rest) (alike : e.Alike next) (line : next.line = rest)
      (current : next.current = some (who, pass)) : Paced e m next
  | resumed {next : Engine} {who : Requester} {pass : Pass} {table : LeaseTable} {result : RunResult}
      (same : m = .resume table result) (before : e.current = some (who, pass)) (alike : e.Alike next)
      (line : next.line = e.line) (current : next.current = some (who, (pass.resume table e.registry result).pass)) :
      Paced e m next
  | ended {who : Requester} {result : PassResult} {pass : Pass} (ends : e.over? m = some (who, result))
      (before : e.current = some (who, pass)) (runner : who ≠ .runner) : Paced e m { e with current := none }
  | ran {result : PassResult} {pass : Pass} (ends : e.over? m = some (.runner, result))
      (before : e.current = some (.runner, pass)) : Paced e m ({ e with current := none }.proceed (some result))

theorem Alike.refl (e : Engine) : e.Alike e := ⟨rfl, rfl, rfl⟩

theorem step_paced (e : Engine) (m : Move) : e.Paced m (e.step m).1 := by
  cases m with
  | configure | rebuild => exact .kept rfl rfl rfl ⟨rfl, rfl, rfl⟩ rfl rfl
  | schedule => exact .asked rfl
  | notice event =>
    simp only [step, notice]
    split
    next changes => exact .asked changes
    next silent => exact .kept (Bool.not_eq_true _ ▸ silent) rfl rfl (.refl e) rfl rfl
  | wake =>
    simp only [step, wake]
    split
    next created => exact .woken rfl created
    next => exact .kept rfl rfl rfl (.refl e) rfl rfl
  | request name => exact .lined name rfl
  | begin store =>
    simp only [step, begin]
    split
    next who rest free first => exact .begun (by simp [begun?, free, first]) free first ⟨rfl, rfl, rfl⟩ rfl rfl
    next busy =>
      refine .kept rfl ?_ rfl (.refl e) rfl rfl
      cases current : e.current with
      | some pass => simp [begun?, current]
      | none =>
        cases line : e.line with
        | nil => simp [begun?, line]
        | cons who rest => exact absurd line (busy who rest current)
  | resume table result =>
    simp only [step, resume]
    split
    next who pass current => exact .resumed rfl current ⟨rfl, rfl, rfl⟩ rfl rfl
    next => exact .kept rfl rfl rfl (.refl e) rfl rfl
  | complete =>
    simp only [step]
    split
    next who result next completed =>
      have ends : e.over? .complete = some (who, result) := by simp [over?, completed]
      obtain ⟨pass, current, -, -, ⟨rfl, rfl⟩ | ⟨other, rfl⟩⟩ := complete?_some completed
      · exact .ran ends current
      · exact .ended ends current other
    next unfinished => exact .kept rfl rfl (by simp [over?, unfinished]) (.refl e) rfl rfl

/-- The task is there while a pass is wanted; before it begins one is wanted, and from then on it has one pass in
line or under way. -/
structure Steady (e : Engine) : Prop where
  wanted : e.dirty = true → e.task.isSome
  created : e.task = some .created → e.dirty = true
  runners : e.runners = if e.task = some .working then 1 else 0

variable {e next : Engine} {m : Move} {who : Requester} {result : PassResult}

theorem Steady.alike (steady : e.Steady) (alike : e.Alike next) (runners : next.runners = e.runners) :
    next.Steady := by
  obtain ⟨dirty, task, -⟩ := alike
  exact ⟨by rw [dirty, task]; exact steady.wanted, by rw [dirty, task]; exact steady.created,
    by rw [runners, task]; exact steady.runners⟩

theorem step_asks (asks : m.asks = true) : (e.step m).1 = e.schedule := by
  cases m with
  | schedule => rfl
  | notice event => simp only [step, notice, show event.changesLeases = true from asks, if_true]
  | configure | rebuild | wake | request | begin | resume | complete => cases asks

theorem runners_eq (e : Engine) : e.runners = e.line.count .runner + e.busy?.toList.count .runner := by
  unfold runners busy?
  match e.current with
  | none => rfl
  | some (.runner, pass) => rfl
  | some (.caller name, pass) => rfl

theorem Steady.proceed {last : Option PassResult} (left : e.runners = 0) : (e.proceed last).Steady := by
  unfold Engine.proceed
  split
  next wanted =>
    refine ⟨by simp, by simp, ?_⟩
    rw [runners_eq, Nat.add_eq_zero_iff] at left
    simpa [runners_eq, busy?, List.count_append, left.1] using left.2
  next unwanted => exact ⟨fun dirty => absurd dirty unwanted, by simp, left⟩

theorem Paced.steady (paced : e.Paced m next) (steady : e.Steady) : next.Steady := by
  have runners := steady.runners
  cases paced with
  | kept _ _ _ alike line current => exact steady.alike alike (by simp only [Engine.runners, line, current])
  | asked asks =>
    refine ⟨fun _ => rfl, fun _ => rfl, ?_⟩
    cases task : e.task <;> simpa [task, Engine.runners, schedule] using runners
  | woken wakes created => exact .proceed (by simpa [created] using runners)
  | lined => exact steady.alike ⟨rfl, rfl, rfl⟩ (by simp [runners_eq, busy?, request, List.count_append])
  | begun began free first alike line current =>
    exact steady.alike alike (by simp [runners_eq, busy?, free, first, line, current, List.count_cons])
  | resumed _ before alike line current =>
    exact steady.alike alike (by simp [runners_eq, busy?, line, current, before])
  | ended ends before other => exact steady.alike ⟨rfl, rfl, rfl⟩ (by simp [runners_eq, busy?, before, other])
  | ran ends before =>
    refine .proceed ?_
    simp [runners_eq, busy?, before] at runners ⊢
    split at runners <;> omega

theorem step_begun (began : e.begun? m = some who) : ∃ rest pass, e.current = none ∧ e.line = who :: rest ∧
    e.Alike (e.step m).1 ∧ (e.step m).1.line = rest ∧ (e.step m).1.current = some (who, pass) := by
  have paced := e.step_paced m
  generalize (e.step m).1 = next at paced ⊢
  cases paced with
  | kept quiet unbegun => simp [unbegun] at began
  | begun began' free first alike line current =>
    obtain rfl := Option.some.inj (began'.symm.trans began)
    exact ⟨_, _, free, first, alike, line, current⟩
  | asked asks => cases m <;> first | cases began | cases asks
  | woken same | lined _ same | resumed same => simp [same, begun?] at began
  | ended ends | ran ends => cases m <;> first | cases ends | cases began

theorem step_over (ends : e.over? m = some (who, result)) :
    m = .complete ∧ ∃ pass, e.current = some (who, pass) ∧ pass.waiting = none ∧
      (who = .runner ∧ (e.step m).1 = { e with current := none }.proceed (some result) ∨
        who ≠ .runner ∧ (e.step m).1 = { e with current := none }) := by
  cases m with
  | complete =>
    cases completed : e.complete? with
    | none => simp [over?, completed] at ends
    | some found =>
      obtain ⟨who', result', next⟩ := found
      obtain ⟨rfl, rfl⟩ : who' = who ∧ result' = result := by simpa [over?, completed] using ends
      obtain ⟨pass, current, waiting, -, cases⟩ := complete?_some completed
      refine ⟨rfl, pass, current, waiting, ?_⟩
      simpa only [step, completed] using cases
  | configure | rebuild | notice | schedule | wake | request | begin | resume => cases ends

theorem busy?_proceed (e : Engine) (last : Option PassResult) : (e.proceed last).busy? = e.busy? :=
  congrArg (Option.map Prod.fst) (e.proceed_moved last).2

theorem Steady.working (steady : e.Steady) (working : e.task = some .working) :
    e.busy? = some .runner ∨ .runner ∈ e.line := by
  have one := steady.runners
  rw [working, if_pos rfl, runners_eq] at one
  by_cases lined : Requester.runner ∈ e.line
  · exact Or.inr lined
  · rw [List.count_eq_zero.mpr lined, Nat.zero_add] at one
    exact Or.inl (by simpa using List.count_pos_iff.mp (Nat.lt_of_lt_of_eq Nat.zero_lt_one one.symm))

theorem Steady.busy (steady : e.Steady) (busy : e.busy? = some .runner) :
    e.task = some .working ∧ e.line.count .runner = 0 := by
  have runners := steady.runners
  simp only [runners_eq, busy, Option.toList_some, List.count_singleton_self] at runners
  split at runners
  next working => exact ⟨working, by omega⟩
  next => omega

/-- A pass stays under way until it is over. -/
theorem Paced.busy (paced : e.Paced m next) (busy : e.busy? = some who)
    (unended : ∀ result, e.over? m ≠ some (who, result)) : next.busy? = some who := by
  cases paced with
  | kept quiet unbegun _ alike line current => rw [busy?, current]; exact busy
  | asked | lined => exact busy
  | woken => rw [busy?_proceed]; exact busy
  | begun began free => simp [busy?, free] at busy
  | resumed same before alike line current => simpa [busy?, before, current] using busy
  | ended ends before | ran ends before =>
    obtain rfl : _ = who := by simpa [busy?, before] using busy
    exact absurd ends (unended _)

/-- A pass that is under way now was so before or has begun. -/
theorem Paced.begins (paced : e.Paced m next) (busy : next.busy? = some who) :
    e.busy? = some who ∨ e.begun? m = some who := by
  cases paced with
  | kept quiet unbegun _ alike line current => rw [busy?, current] at busy; exact Or.inl busy
  | asked | lined => exact Or.inl busy
  | woken => rw [busy?_proceed] at busy; exact Or.inl busy
  | begun began free first alike line current =>
    obtain rfl : _ = who := by simpa [busy?, current] using busy
    exact Or.inr began
  | resumed same before alike line current => exact Or.inl (by simpa [busy?, before, current] using busy)
  | ended => simp [busy?] at busy
  | ran => rw [busy?_proceed] at busy; simp [busy?] at busy

/-- While a task has a pass in line or under way, what it is to do besides is not forgotten. -/
theorem Paced.working (paced : e.Paced m next) (working : e.task = some .working)
    (unended : ∀ result, e.over? m ≠ some (.runner, result)) :
    next.task = some .working ∧ (e.dirty = true → next.dirty = true) := by
  cases paced with
  | kept _ _ _ alike | begun _ _ _ alike | resumed _ _ alike =>
    exact ⟨alike.task.trans working, fun dirty => alike.dirty.trans dirty⟩
  | asked => exact ⟨by simp [schedule, working], fun _ => rfl⟩
  | woken _ created => simp [working] at created
  | lined | ended => exact ⟨working, id⟩
  | ran ends => exact absurd ends (unended _)

/-- A task that has not begun waits for its turn. -/
theorem Paced.unwoken (paced : e.Paced m next) (steady : e.Steady) (created : e.task = some .created)
    (asleep : m ≠ .wake) : next.task = some .created := by
  cases paced with
  | kept _ _ _ alike | begun _ _ _ alike | resumed _ _ alike => exact alike.task.trans created
  | asked => simp [schedule, created]
  | woken wakes => exact absurd wakes asleep
  | lined | ended => exact created
  | ran _ before => simpa [runners_eq, busy?, created, before] using steady.runners

/-- A task is over with the last of its passes, when nothing more is wanted, and that pass gives its result. -/
theorem Paced.finishes (paced : e.Paced m next) (steady : e.Steady) :
    (next.finished = e.finished ∧ (e.task.isSome → next.task.isSome)) ∨
    ∃ result, e.over? m = some (.runner, result) ∧ e.dirty = false ∧
      next.finished = e.finished ++ [some result] := by
  cases paced with
  | kept _ _ _ alike | begun _ _ _ alike | resumed _ _ alike =>
    exact Or.inl ⟨alike.finished, fun there => alike.task.symm ▸ there⟩
  | asked => exact Or.inl ⟨rfl, fun _ => rfl⟩
  | woken _ created =>
    exact Or.inl (by simp [Engine.proceed, steady.created created])
  | lined | ended => exact Or.inl ⟨rfl, id⟩
  | @ran result pass ends before =>
    unfold Engine.proceed
    split
    next wanted => exact Or.inl ⟨rfl, fun _ => rfl⟩
    next unwanted => exact Or.inr ⟨result, ends, Bool.not_eq_true _ ▸ unwanted, rfl⟩

def due (e : Engine) : Nat := e.line.count .runner + e.dirty.toNat

theorem due_proceed (e : Engine) (last : Option PassResult) : (e.proceed last).due = e.due := by
  unfold Engine.proceed
  split
  next wanted => simp [due, wanted, List.count_append]
  next => rfl

theorem Paced.due_le (paced : e.Paced m next) (quiet : m.asks = false) : next.due ≤ e.due := by
  cases paced with
  | kept _ _ _ alike line | resumed _ _ alike line => simp [due, alike.dirty, line]
  | asked asks => simp [asks] at quiet
  | woken => exact Nat.le_of_eq (e.due_proceed none)
  | lined name => simp [due, request, List.count_append]
  | begun _ _ first alike line =>
    rw [due, due, alike.dirty, line, first, List.count_cons]
    omega
  | ended => exact Nat.le_refl _
  | @ran result => exact Nat.le_of_eq (due_proceed { e with current := none } (some result))

theorem due_begun (began : e.begun? m = some .runner) : (e.step m).1.due + 1 = e.due := by
  obtain ⟨rest, pass, -, first, alike, line, -⟩ := step_begun began
  simp only [due, alike.dirty, line, first, List.count_cons_self]
  omega

/-- A pass under way stays as it is, but for the ends of its scripts and its own. -/
theorem Paced.current (paced : e.Paced m next) {pass : Pass} (current : e.current = some (who, pass)) :
    next.current = some (who, pass) ∨
    (∃ table result, m = .resume table result ∧
      next.current = some (who, (pass.resume table e.registry result).pass)) ∨
    m = .complete ∧ pass.waiting = none := by
  cases paced with
  | kept _ _ _ _ _ same => exact Or.inl (same.trans current)
  | asked | lined => exact Or.inl current
  | woken => exact Or.inl ((e.proceed_moved none).2.trans current)
  | begun _ free => simp [free] at current
  | resumed same before _ _ after =>
    obtain ⟨rfl, rfl⟩ := Prod.mk.inj (Option.some.inj (before.symm.trans current))
    exact Or.inr (Or.inl ⟨_, _, same, after⟩)
  | ended ends | ran ends =>
    obtain ⟨rfl, pass', before, waiting, -⟩ := step_over ends
    obtain ⟨-, rfl⟩ := Prod.mk.inj (Option.some.inj (before.symm.trans current))
    exact Or.inr (Or.inr ⟨rfl, waiting⟩)

theorem over?_complete {pass : Pass} (current : e.current = some (who, pass)) (waiting : pass.waiting = none) :
    e.over? .complete = some (who, ⟨pass.outcomes⟩) := by
  cases who <;> simp [over?, complete?, current, Pass.result?, waiting]

/-- The line only grows, as long as no pass begins. -/
theorem Paced.line (paced : e.Paced m next) (unbegun : ∀ who, e.begun? m ≠ some who) : e.line <+: next.line := by
  cases paced with
  | kept _ _ _ _ same | resumed _ _ _ same => exact same ▸ List.prefix_rfl
  | asked | ended => exact List.prefix_rfl
  | lined => exact List.prefix_append _ _
  | woken | ran =>
    unfold Engine.proceed
    split
    next => exact List.prefix_append _ _
    next => exact List.prefix_rfl
  | begun began => exact absurd began (unbegun _)

end Leasehold.Engine
