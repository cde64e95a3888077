import Leasehold.Proofs.PassRequests

/-! When passes run. Whatever is scheduled, asked for and awaited, and in whatever order tasks and passes go on,
passes do not overlap, nothing that is scheduled is lost, and what is scheduled during a pass of the task comes to
one more pass. What comes about in the end is shown of runs without end in which everything has its turn again
and again. -/

namespace Leasehold.Engine

variable {who : Requester}

/-- A run without end, from an engine at rest. -/
structure Timeline where
  registry : Registry
  moves : Nat → Move

namespace Timeline

def state (t : Timeline) : Nat → Engine
  | 0 => .ofRegistry t.registry
  | n + 1 => ((t.state n).step (t.moves n)).1

def Asks (t : Timeline) (n : Nat) : Prop := (t.moves n).asks = true

def Begins (t : Timeline) (who : Requester) (n : Nat) : Prop := (t.state n).begun? (t.moves n) = some who

def Ends (t : Timeline) (who : Requester) (result : PassResult) (n : Nat) : Prop :=
  (t.state n).over? (t.moves n) = some (who, result)

/-- Everything has its turn again and again: the task, whoever is first in line, scripts that end, and passes. -/
structure Fair (t : Timeline) : Prop where
  wakes : ∀ n, ∃ m, n ≤ m ∧ t.moves m = .wake
  begins : ∀ n, ∃ m, n ≤ m ∧ ∃ store, t.moves m = .begin store
  resumes : ∀ n, ∃ m, n ≤ m ∧ ∃ table result, t.moves m = .resume table result
  completes : ∀ n, ∃ m, n ≤ m ∧ t.moves m = .complete

variable (t : Timeline)

theorem paced (n : Nat) : (t.state n).Paced (t.moves n) (t.state (n + 1)) := step_paced _ _

theorem steady (n : Nat) : (t.state n).Steady := by
  induction n with
  | zero => exact ⟨nofun, nofun, rfl⟩
  | succ n ih => exact (t.paced n).steady ih

variable {t : Timeline} {n m i j : Nat} {pass : Pass}

/-- What holds until something happens holds when it does. -/
theorem waits {P Q : Nat → Prop} (holds : Q n) (keeps : ∀ k, n ≤ k → Q k → ¬ P k → Q (k + 1))
    (comes : ∃ m, n ≤ m ∧ P m) : ∃ m, n ≤ m ∧ P m ∧ Q m := by
  obtain ⟨m, later, happens⟩ := comes
  obtain ⟨distance, rfl⟩ := Nat.exists_eq_add_of_le later
  induction distance generalizing n with
  | zero => exact ⟨n, Nat.le_refl n, happens, holds⟩
  | succ distance ih =>
    by_cases now : P n
    · exact ⟨n, Nat.le_refl n, now, holds⟩
    · obtain ⟨m, later, there⟩ := ih (keeps n (Nat.le_refl n) holds now)
        (fun k after => keeps k (Nat.le_of_succ_le after)) (Nat.le_add_right _ _) (by rwa [Nat.succ_add_eq_add_succ])
      exact ⟨m, Nat.le_of_succ_le later, there⟩

/-- What every move keeps unless something happens holds as long as it does not. -/
theorem stays {P Q : Nat → Prop} (holds : Q n) (later : n ≤ m) (absent : ∀ k, n ≤ k → k < m → ¬ P k)
    (keeps : ∀ k, n ≤ k → Q k → ¬ P k → Q (k + 1)) : Q m := by
  induction later with
  | refl => exact holds
  | @step m later ih =>
    exact keeps m later (ih fun k after before => absent k after (Nat.lt_succ_of_lt before))
      (absent m later (Nat.lt_succ_self m))

theorem Begins.busy (begins : t.Begins who n) : (t.state (n + 1)).busy? = some who := by
  obtain ⟨rest, pass, -, -, -, -, current⟩ := step_begun begins
  exact congrArg (Option.map Prod.fst) current

theorem Begins.free (begins : t.Begins who n) : (t.state n).busy? = none := by
  obtain ⟨rest, pass, free, -⟩ := step_begun begins
  exact congrArg (Option.map Prod.fst) free

theorem Ends.busy {result : PassResult} (ends : t.Ends who result n) : (t.state n).busy? = some who := by
  obtain ⟨-, pass, current, -⟩ := step_over ends
  exact congrArg (Option.map Prod.fst) current

theorem Ends.free {result : PassResult} (ends : t.Ends who result n) : (t.state (n + 1)).busy? = none := by
  obtain ⟨-, pass, -, -, ⟨-, next⟩ | ⟨-, next⟩⟩ := step_over ends
  · rw [state, next, busy?_proceed]
    rfl
  · rw [state, next]
    rfl

/-- Between the beginnings of two passes the first of them ends. -/
theorem Begins.apart {other : Requester} (first : t.Begins who i) (last : t.Begins other j) (before : i < j) :
    ∃ k result, i < k ∧ k < j ∧ t.Ends who result k := by
  apply Classical.byContradiction
  intro never
  have busy : (t.state j).busy? = some who := stays (P := fun k => ∃ result, t.Ends who result k) first.busy before
    (fun k after inside ⟨result, ends⟩ => never ⟨k, result, after, inside, ends⟩)
    fun k _ busy unended => (t.paced k).busy busy fun result ends => unended ⟨result, ends⟩
  simp [last.free] at busy

/-- A pass that is under way is over some time. -/
theorem Fair.ends (fair : t.Fair) (current : (t.state n).current = some (who, pass)) :
    ∃ m, n ≤ m ∧ ∃ result, t.Ends who result m := by
  generalize rank : pass.remaining = left
  induction left using Nat.strongRecOn generalizing n pass with
  | ind left ih =>
    cases waiting : pass.waiting with
    | none =>
      -- Nothing is left but to take leave of it.
      obtain ⟨m, later, same, current⟩ := waits (Q := fun k => (t.state k).current = some (who, pass))
        (P := fun k => t.moves k = .complete) current (fun k _ current other => by
          rcases (t.paced k).current current with same | ⟨table, result, -, same⟩ | ⟨complete, -⟩
          · exact same
          · simpa [Pass.resume, waiting] using same
          · exact absurd complete other) (fair.completes n)
      refine ⟨m, later, ⟨pass.outcomes⟩, ?_⟩
      rw [Ends, same]
      exact over?_complete current waiting
    | some script =>
      obtain ⟨m, later, ⟨table, result, same⟩, current⟩ := waits
        (Q := fun k => (t.state k).current = some (who, pass))
        (P := fun k => ∃ table result, t.moves k = .resume table result) current (fun k _ current other => by
          rcases (t.paced k).current current with same | ⟨table, result, resumes, -⟩ | ⟨-, idle⟩
          · exact same
          · exact absurd ⟨table, result, resumes⟩ other
          · simp [waiting] at idle) (fair.resumes n)
      have after : (t.state (m + 1)).current = some (who, (pass.resume table (t.state m).registry result).pass) := by
        simp [state, same, step, resume, current, goOn]
      obtain ⟨m', later', ended⟩ := ih _ (rank ▸ Pass.resume_remaining waiting table (t.state m).registry result)
        after rfl
      exact ⟨m', Nat.le_trans later (Nat.le_of_succ_le later'), ended⟩

/-- What holds while a pass is under way holds when it is over. -/
theorem Fair.first_end (fair : t.Fair) (busy : (t.state n).busy? = some who) :
    ∃ m, n ≤ m ∧ (∃ result, t.Ends who result m) ∧ ∀ k, n ≤ k → k ≤ m → (t.state k).busy? = some who := by
  obtain ⟨⟨other, pass⟩, current, rfl⟩ := Option.map_eq_some_iff.mp busy
  obtain ⟨m, later, ended, since⟩ := waits (Q := fun m => ∀ k, n ≤ k → k ≤ m → (t.state k).busy? = some other)
    (P := fun k => ∃ result, t.Ends other result k)
    (fun k after before => Nat.le_antisymm before after ▸ busy)
    (fun m later since unended k after before => by
      rcases Nat.le_or_eq_of_le_succ before with before | rfl
      · exact since k after before
      · exact (t.paced m).busy (since m later (Nat.le_refl m)) fun result ends => unended ⟨result, ends⟩)
    (fair.ends current)
  exact ⟨m, later, ended, since⟩

theorem line_grows (later : n ≤ m) (busy : ∀ k, n ≤ k → k < m → (t.state k).busy? ≠ none) :
    (t.state n).line <+: (t.state m).line :=
  stays (P := fun k => (t.state k).busy? = none) (Q := fun k => (t.state n).line <+: (t.state k).line)
    List.prefix_rfl later busy fun k _ grown busy =>
      grown.trans ((t.paced k).line fun _ began => busy (Begins.free began))

/-- The line comes to be served. -/
theorem Fair.frees (fair : t.Fair) (n : Nat) :
    ∃ m, n ≤ m ∧ (t.state m).current = none ∧ (t.state n).line <+: (t.state m).line := by
  cases busy : (t.state n).busy? with
  | none => exact ⟨n, Nat.le_refl n, Option.map_eq_none_iff.mp busy, List.prefix_rfl⟩
  | some who =>
    obtain ⟨m, later, ⟨result, ends⟩, since⟩ := fair.first_end busy
    have grown : (t.state n).line <+: (t.state (m + 1)).line := by
      refine line_grows (Nat.le_succ_of_le later) fun k after before => ?_
      simp [since k after (Nat.le_of_lt_succ before)]
    exact ⟨m + 1, Nat.le_succ_of_le later, Option.map_eq_none_iff.mp ends.free, grown⟩

theorem Fair.serves_first (fair : t.Fair) (free : (t.state n).current = none) {rest : List Requester}
    (first : who :: rest <+: (t.state n).line) :
    ∃ m, n ≤ m ∧ t.Begins who m ∧ rest <+: (t.state (m + 1)).line := by
  obtain ⟨m, later, ⟨store, same⟩, free, ⟨others, line⟩⟩ := waits
    (Q := fun k => (t.state k).current = none ∧ who :: rest <+: (t.state k).line)
    (P := fun k => ∃ store, t.moves k = .begin store) ⟨free, first⟩ (fun k _ ⟨free, first⟩ other => by
      have unbegun (who : Requester) : (t.state k).begun? (t.moves k) ≠ some who := by
        cases moves : t.moves k with
        | begin store => exact absurd ⟨store, moves⟩ other
        | configure | rebuild | notice | schedule | wake | request | resume | complete => simp [begun?]
      refine ⟨?_, first.trans ((t.paced k).line unbegun)⟩
      cases busy : (t.state (k + 1)).busy? with
      | none => exact Option.map_eq_none_iff.mp busy
      | some who =>
        rcases (t.paced k).begins busy with before | began
        · simp [busy?, free] at before
        · exact absurd began (unbegun who)) (fair.begins n)
  have begins : t.Begins who m := by simp [Begins, same, begun?, free, ← line]
  refine ⟨m, later, begins, others, ?_⟩
  obtain ⟨served, pass, -, before, -, after, -⟩ := step_begun begins
  rw [← line, List.cons_append, List.cons.injEq] at before
  exact before.2.trans after.symm

/-- Whoever is in line has a pass in the end. -/
theorem Fair.serves (fair : t.Fair) {ahead behind : List Requester}
    (line : ahead ++ who :: behind <+: (t.state n).line) : ∃ m, n ≤ m ∧ t.Begins who m := by
  induction ahead generalizing n with
  | nil =>
    obtain ⟨m, later, free, grown⟩ := fair.frees n
    obtain ⟨m', later', begins, -⟩ := fair.serves_first free (line.trans grown)
    exact ⟨m', Nat.le_trans later later', begins⟩
  | cons other ahead ih =>
    obtain ⟨m, later, free, grown⟩ := fair.frees n
    obtain ⟨m', later', -, left⟩ := fair.serves_first free (line.trans grown)
    obtain ⟨m'', later'', begins⟩ := ih left
    exact ⟨m'', Nat.le_trans (Nat.le_trans later later') (Nat.le_of_succ_le later''), begins⟩

theorem Fair.serves_mem (fair : t.Fair) (member : who ∈ (t.state n).line) : ∃ m, n ≤ m ∧ t.Begins who m := by
  obtain ⟨ahead, behind, line⟩ := List.append_of_mem member
  have listed : ahead ++ who :: behind <+: (t.state n).line := line ▸ List.prefix_rfl
  exact fair.serves listed

/-- As long as its pass is not over a task goes on, and what it is to do besides is not forgotten. -/
theorem still_working (working : (t.state n).task = some .working) (later : n ≤ m)
    (running : ∀ k, n ≤ k → k < m → ∀ result, ¬ t.Ends .runner result k) :
    (t.state m).task = some .working ∧ ((t.state n).dirty = true → (t.state m).dirty = true) :=
  stays (P := fun k => ∃ result, t.Ends .runner result k)
    (Q := fun k => (t.state k).task = some .working ∧ ((t.state n).dirty = true → (t.state k).dirty = true))
    ⟨working, id⟩ later (fun k after before ⟨result, ends⟩ => running k after before result ends)
    fun k _ ⟨working, wanted⟩ unended =>
      have kept := (t.paced k).working working fun result ends => unended ⟨result, ends⟩
      ⟨kept.1, kept.2 ∘ wanted⟩

/-- A task whose pass is over asks for another one if there is one wanted. -/
theorem Ends.again {result : PassResult} (ends : t.Ends .runner result n) (wanted : (t.state n).dirty = true) :
    (t.state (n + 1)).line = (t.state n).line ++ [.runner] ∧ (t.state (n + 1)).dirty = false := by
  obtain ⟨-, pass, -, -, ⟨-, next⟩ | ⟨other, -⟩⟩ := step_over ends
  · rw [state, next, proceed, if_pos wanted]
    exact ⟨rfl, rfl⟩
  · exact absurd rfl other

/-- A pass that is wanted begins in the end. -/
theorem Fair.begins_wanted (fair : t.Fair) (wanted : (t.state n).dirty = true) :
    ∃ m, n ≤ m ∧ t.Begins .runner m := by
  have there := (t.steady n).wanted wanted
  match task : (t.state n).task with
  | none => simp [task] at there
  | some .created =>
    obtain ⟨m, later, wakes, created⟩ := waits (Q := fun k => (t.state k).task = some .created)
      (P := fun k => t.moves k = .wake) task (fun k _ created => (t.paced k).unwoken (t.steady k) created)
      (fair.wakes n)
    have lined : Requester.runner ∈ (t.state (m + 1)).line := by
      simp [state, wakes, step, wake, created, proceed, (t.steady m).created created]
    obtain ⟨m', later', begins⟩ := fair.serves_mem lined
    exact ⟨m', Nat.le_trans later (Nat.le_of_succ_le later'), begins⟩
  | some .working =>
    rcases (t.steady n).working task with busy | lined
    · obtain ⟨m, later, ⟨result, ends⟩, since⟩ := fair.first_end busy
      have running (k : Nat) (after : n ≤ k) (before : k < m) (result : PassResult) : ¬ t.Ends .runner result k :=
        fun ends => by simpa [ends.free] using since (k + 1) (Nat.le_succ_of_le after) before
      have again := (ends.again ((still_working task later running).2 wanted)).1
      have lined : Requester.runner ∈ (t.state (m + 1)).line := by simp [again]
      obtain ⟨m', later', begins⟩ := fair.serves_mem lined
      exact ⟨m', Nat.le_trans later (Nat.le_of_succ_le later'), begins⟩
    · exact fair.serves_mem lined

/-- A task is over. -/
def Closes (t : Timeline) (n : Nat) : Prop := (t.state n).finished.length < (t.state (n + 1)).finished.length

theorem Ends.closes {result : PassResult} (ends : t.Ends .runner result n) (unwanted : (t.state n).dirty = false) :
    t.Closes n := by
  obtain ⟨-, pass, -, -, ⟨-, next⟩ | ⟨other, -⟩⟩ := step_over ends
  · simp [Closes, state, next, proceed, unwanted]
  · exact absurd rfl other

theorem due_falls (later : n ≤ m) (silent : ∀ k, n ≤ k → k < m → ¬ t.Asks k) :
    (t.state m).due ≤ (t.state n).due :=
  stays (P := t.Asks) (Q := fun k => (t.state k).due ≤ (t.state n).due) (Nat.le_refl _) later silent
    fun k _ less quiet => Nat.le_trans ((t.paced k).due_le (Bool.not_eq_true _ ▸ quiet)) less

/-- If nothing more is scheduled the task is over with a pass that is under way or a later one. -/
theorem Fair.closes_busy (fair : t.Fair) (silent : ∀ k, n ≤ k → ¬ t.Asks k)
    (busy : (t.state n).busy? = some .runner) : ∃ m, n ≤ m ∧ t.Closes m := by
  generalize bound : (t.state n).due = due
  induction due using Nat.strongRecOn generalizing n with
  | ind due ih =>
    obtain ⟨m, later, ⟨result, ends⟩, -⟩ := fair.first_end busy
    cases wanted : (t.state m).dirty with
    | false => exact ⟨m, later, ends.closes wanted⟩
    | true =>
      have lined : Requester.runner ∈ (t.state (m + 1)).line := by simp [(ends.again wanted).1]
      obtain ⟨m', later', begins⟩ := fair.serves_mem lined
      have fewer : (t.state (m' + 1)).due < due := by
        have begun := due_begun begins
        have fallen := due_falls (t := t) (n := n) (m := m') (by omega) fun k after _ => silent k after
        rw [state]
        omega
      obtain ⟨m'', later'', closes⟩ := ih _ fewer (fun k after => silent k (by omega)) begins.busy rfl
      exact ⟨m'', by omega, closes⟩

/-- A task that is there is over in the end, if scheduling stops. -/
theorem Fair.closes (fair : t.Fair) (silent : ∀ k, n ≤ k → ¬ t.Asks k) (there : (t.state n).task.isSome) :
    ∃ m, n ≤ m ∧ t.Closes m := by
  have begun (soon : ∃ m, n ≤ m ∧ t.Begins .runner m) : ∃ m, n ≤ m ∧ t.Closes m := by
    obtain ⟨m, later, begins⟩ := soon
    obtain ⟨m', later', closes⟩ := fair.closes_busy (fun k after => silent k (by omega)) begins.busy
    exact ⟨m', by omega, closes⟩
  match task : (t.state n).task with
  | none => simp [task] at there
  | some .created => exact begun (fair.begins_wanted ((t.steady n).created task))
  | some .working =>
    rcases (t.steady n).working task with busy | lined
    · exact fair.closes_busy silent busy
    · exact begun (fair.serves_mem lined)

/-- A pass of a requester from its beginning to its end, under way all the time in between. -/
structure Spans (t : Timeline) (who : Requester) (result : PassResult) (b e : Nat) : Prop where
  begins : t.Begins who b
  ends : t.Ends who result e
  through : ∀ k, b < k → k ≤ e → (t.state k).busy? = some who

theorem Asks.wanted (asks : t.Asks n) : (t.state (n + 1)).dirty = true ∧ (t.state (n + 1)).task.isSome := by
  rw [state, step_asks asks]
  exact ⟨rfl, rfl⟩

/-- A pass with which a task is over took stock after all that was scheduled. -/
theorem Spans.fresh {result : PassResult} {b e : Nat} (spans : t.Spans .runner result b e)
    (unwanted : (t.state e).dirty = false) (asks : t.Asks i) (before : i < e) : i < b := by
  apply Classical.byContradiction
  intro late
  have busy := spans.through (i + 1) (by omega) before
  have running (k : Nat) (after : i + 1 ≤ k) (inside : k < e) (result : PassResult) : ¬ t.Ends .runner result k :=
    fun ends => by simpa [ends.free] using spans.through (k + 1) (by omega) inside
  have wanted := (still_working ((t.steady _).busy busy).1 before running).2 asks.wanted.1
  simp [unwanted] at wanted

end Timeline
end Leasehold.Engine
