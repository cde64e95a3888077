import Leasehold.Proofs.PassProgress
import Leasehold.Proofs.PassTurns

/-! The account of a pass. At each moment the kinds that it has dealt with have had their whole turn, the kind
whose script runs is in the middle of its turn, and the others wait for theirs; and each script run brings the
end nearer. -/

namespace Leasehold

/-- What there is when a script ends: the builders, the content of the leases, and the result. -/
structure Ending where
  builders : Artifact.Builders
  table : LeaseTable
  result : RunResult

namespace Pass

def ended (p : Pass) (r : Registry) (result : RunResult) (changes : List Audit.Change) : List ScriptRun :=
  match p.waiting with
  | none => []
  | some (running, _) => [⟨running, r.updater running.call.kind, result, changes⟩]

/-- How many scripts may still run: two for a kind of which a backup runs, else one, and two for each later. -/
def remaining (p : Pass) : Nat :=
  match p.waiting with
  | none => 0
  | some (running, rest) => (match running.work with
    | .backup _ _ => 2
    | _ => 1) + 2 * rest.length

end Pass

/-- The pass gone on with, one end of a script after the other, and the script runs. -/
def Stretch.follow (s : Stretch) : List Ending → Stretch × List ScriptRun
  | [] => (s, [])
  | e :: rest =>
    let registry := { s.registry with builders := e.builders }
    let next := s.pass.resume e.table registry e.result
    ((next.follow rest).1, s.pass.ended registry e.result next.changes ++ (next.follow rest).2)

namespace Pass

variable {table : LeaseTable} {origins : List (Int × Scalar)} {kinds dealt later : List Kind} {kind : Kind}
  {r r' : Registry} {outcomes : List KindOutcome} {p : Pass} {base : Kind → Updater} {runs runs' : List ScriptRun}

theorem Advanced.remaining (advanced : Advanced table origins kinds r outcomes r' p) :
    p.remaining ≤ 2 * kinds.length := by
  induction advanced with
  | finished => exact Nat.zero_le _
  | skipped disabled later ih | done enabled planned later ih =>
    rw [List.length_cons]
    omega
  | @stopped kind rest r outcomes running u enabled planned =>
    simp only [Pass.remaining, List.length_cons]
    split <;> omega

theorem resume_remaining {running : Running} {rest : List Kind} (waiting : p.waiting = some (running, rest))
    (table : LeaseTable) (r : Registry) (result : RunResult) :
    (p.resume table r result).pass.remaining < p.remaining := by
  have resumed := resume_resumed waiting table r result
  generalize (p.resume table r result).pass = next, (p.resume table r result).registry = r',
    (p.resume table r result).changes = changes at resumed ⊢
  have here : 2 * rest.length < p.remaining := by
    simp only [Pass.remaining, waiting]
    split <;> omega
  cases resumed with
  | again concluded =>
    -- Only a backup is followed by another script of its kind.
    cases concluded with
    | saved output error source artifact work => simp [Pass.remaining, waiting, work, installing]
  | on concluded later => exact Nat.lt_of_le_of_lt later.remaining here

/-- A pass over the kinds in `dealt` and before those in `later`: the outcomes are those of the kinds that were
in service, each of which has had its turn, and nothing has happened to the others. -/
structure Halfway (base : Kind → Updater) (origins : List (Int × Scalar)) (runs : List ScriptRun)
    (dealt later : List Kind) (outcomes : List KindOutcome) (r : Registry) : Prop where
  label : ∀ kind, (base kind).kind = kind
  order : outcomes.map KindOutcome.kind = dealt.filter fun kind => (base kind).enabled
  done : ∀ o ∈ outcomes,
    Reached origins (base o.kind) (ScriptRun.ofKind o.kind runs) (r.updater o.kind) (.done o)
  skipped : ∀ kind ∈ dealt, (base kind).enabled = false →
    r.updater kind = base kind ∧ ScriptRun.ofKind kind runs = []
  ahead : ∀ kind ∈ later, (r.updater kind).pruneSources = base kind ∧ ScriptRun.ofKind kind runs = []

/-- The account of a pass, from the states in which the kinds began their turns. -/
def Accounts (p : Pass) (base : Kind → Updater) (runs : List ScriptRun) (r : Registry) : Prop :=
  match p.waiting with
  | none => Halfway base p.origins runs Kind.all [] p.outcomes r
  | some (running, rest) => ∃ dealt, dealt ++ running.call.kind :: rest = Kind.all ∧
      Halfway base p.origins runs dealt rest p.outcomes r ∧ (base running.call.kind).enabled = true ∧
      Reached p.origins (base running.call.kind) (ScriptRun.ofKind running.call.kind runs)
        (r.updater running.call.kind) (.run running)

theorem Halfway.mem_dealt (half : Halfway base origins runs dealt later outcomes r) {o : KindOutcome}
    (member : o ∈ outcomes) : o.kind ∈ dealt := by
  have listed := List.mem_map_of_mem (f := KindOutcome.kind) member
  rw [half.order] at listed
  exact (List.mem_filter.mp listed).1

theorem Halfway.elsewhere (half : Halfway base origins runs dealt later outcomes r)
    (same : ∀ kind, kind ∈ dealt ∨ kind ∈ later → r'.updater kind = r.updater kind ∧
      ScriptRun.ofKind kind runs' = ScriptRun.ofKind kind runs) :
    Halfway base origins runs' dealt later outcomes r' := by
  refine ⟨half.label, half.order, ?_, ?_, ?_⟩
  · intro o member
    obtain ⟨updater, ran⟩ := same o.kind (Or.inl (half.mem_dealt member))
    rw [updater, ran]
    exact half.done o member
  · intro kind member disabled
    obtain ⟨updater, ran⟩ := same kind (Or.inl member)
    rw [updater, ran]
    exact half.skipped kind member disabled
  · intro kind member
    obtain ⟨updater, ran⟩ := same kind (Or.inr member)
    rw [updater, ran]
    exact half.ahead kind member

theorem Halfway.append_done (half : Halfway base origins runs dealt later outcomes r) {o : KindOutcome}
    (enabled : (base kind).enabled = true)
    (reached : Reached origins (base kind) (ScriptRun.ofKind kind runs) (r.updater kind) (.done o)) :
    Halfway base origins runs (dealt ++ [kind]) later (outcomes ++ [o]) r := by
  have same : o.kind = kind := reached.kind.2.trans (half.label kind)
  refine ⟨half.label, ?_, ?_, ?_, half.ahead⟩
  · simp [half.order, same, enabled]
  · intro other member
    obtain member | rfl := List.mem_append.mp member |>.imp_right List.mem_singleton.mp
    · exact half.done other member
    · rw [same]
      exact reached
  · intro other member disabled
    obtain member | rfl := List.mem_append.mp member |>.imp_right List.mem_singleton.mp
    · exact half.skipped other member disabled
    · simp [enabled] at disabled

theorem Halfway.append_skipped (half : Halfway base origins runs dealt later outcomes r)
    (disabled : (base kind).enabled = false)
    (kept : r.updater kind = base kind ∧ ScriptRun.ofKind kind runs = []) :
    Halfway base origins runs (dealt ++ [kind]) later outcomes r := by
  refine ⟨half.label, by simp [half.order, disabled], half.done, ?_, half.ahead⟩
  intro other member off
  obtain member | rfl := List.mem_append.mp member |>.imp_right List.mem_singleton.mp
  · exact half.skipped other member off
  · exact kept

theorem Halfway.drop_later (half : Halfway base origins runs dealt (kind :: later) outcomes r) :
    Halfway base origins runs dealt later outcomes r :=
  { half with ahead := fun other member => half.ahead other (List.mem_cons_of_mem kind member) }

private theorem fresh_kind {rest : List Kind} (whole : dealt ++ kind :: rest = Kind.all) {other : Kind}
    (member : other ∈ dealt ∨ other ∈ rest) : other ≠ kind := by
  have nodup : (dealt ++ kind :: rest).Nodup := whole ▸ by decide
  obtain ⟨-, later, apart⟩ := List.nodup_append.mp nodup
  rintro rfl
  obtain before | after := member
  · exact apart other before other List.mem_cons_self rfl
  · exact (List.nodup_cons.mp later).1 after

private theorem Halfway.modify {rest : List Kind} {u : Updater} (whole : dealt ++ kind :: rest = Kind.all)
    (half : Halfway base origins runs dealt rest outcomes r) :
    Halfway base origins runs dealt rest outcomes (r.modify kind fun _ => u) := by
  refine half.elsewhere fun other member => ⟨?_, rfl⟩
  rw [Registry.updater_modify_of_ne _ _ (fresh_kind whole member)]

theorem Advanced.accounts (advanced : Advanced table origins kinds r outcomes r' p)
    (whole : dealt ++ kinds = Kind.all) (half : Halfway base origins runs dealt kinds outcomes r) :
    p.origins = origins ∧ p.Accounts base runs r' := by
  induction advanced generalizing dealt with
  | finished r outcomes =>
    rw [List.append_nil] at whole
    subst whole
    exact ⟨rfl, half⟩
  | @skipped kind rest r r' outcomes p disabled later ih =>
    obtain ⟨pruned, ran⟩ := half.ahead kind List.mem_cons_self
    have further : (dealt ++ [kind]) ++ rest = Kind.all := by simp [whole]
    refine ih further ((half.drop_later.modify whole).append_skipped ?_ ⟨?_, ran⟩)
    · exact pruned ▸ disabled
    · rw [Registry.updater_modify_self, pruned]
  | @done kind rest r r' outcomes p o u enabled planned later ih =>
    obtain ⟨pruned, ran⟩ := half.ahead kind List.mem_cons_self
    have further : (dealt ++ [kind]) ++ rest = Kind.all := by simp [whole]
    refine ih further ((half.drop_later.modify whole).append_done (pruned ▸ enabled) ?_)
    rw [Registry.updater_modify_self, ran, ← pruned]
    exact .planned planned
  | @stopped kind rest r outcomes running u enabled planned =>
    obtain ⟨pruned, ran⟩ := half.ahead kind List.mem_cons_self
    have here : running.call.kind = kind := by
      have same : running.call.kind = (r.updater kind).pruneSources.kind := planned.kind.2.1
      rw [same, pruned, half.label]
    refine ⟨rfl, dealt, here ▸ whole, half.drop_later.modify whole, ?_, ?_⟩
    · rw [here, ← pruned]
      exact enabled
    · rw [here, ran, Registry.updater_modify_self, ← pruned]
      exact .planned planned

theorem resume_accounts (table : LeaseTable) (result : RunResult) (accounts : p.Accounts base runs r) :
    (p.resume table r result).pass.Accounts base
      (runs ++ p.ended r result (p.resume table r result).changes) (p.resume table r result).registry := by
  match waiting : p.waiting with
  | none => simpa [resume, waiting, ended] using accounts
  | some (running, rest) =>
    have resumed := resume_resumed waiting table r result
    simp only [Accounts, waiting] at accounts
    obtain ⟨dealt, whole, half, enabled, reached⟩ := accounts
    simp only [ended, waiting]
    generalize (p.resume table r result).pass = next, (p.resume table r result).registry = r',
      (p.resume table r result).changes = changes at resumed ⊢
    have others (u : Updater) : Halfway base p.origins
        (runs ++ [⟨running, r.updater running.call.kind, result, changes⟩]) dealt rest p.outcomes
        (r.modify running.call.kind fun _ => u) := by
      refine half.elsewhere fun other member => ?_
      have different := fresh_kind whole member
      rw [Registry.updater_modify_of_ne _ _ different, ScriptRun.ofKind_append_other runs (Ne.symm different)]
      exact ⟨rfl, rfl⟩
    cases resumed with
    | @again running' u concluded =>
      have after := reached.concluded concluded
      have here : running'.call.kind = running.call.kind := after.kind.2.1.trans (half.label _)
      refine ⟨dealt, here ▸ whole, others u, here ▸ enabled, ?_⟩
      rw [here, ScriptRun.ofKind_append_self, Registry.updater_modify_self]
      exact after
    | @on o u r' next concluded later =>
      have after := reached.concluded concluded
      have further : (dealt ++ [running.call.kind]) ++ rest = Kind.all := by simp [whole]
      refine (later.accounts further ((others u).append_done enabled ?_)).2
      rw [ScriptRun.ofKind_append_self, Registry.updater_modify_self]
      exact after

/-- The kind whose script runs is in service, in the middle of its turn. -/
theorem Accounts.heading {running : Running} {rest : List Kind} (accounts : p.Accounts base runs r)
    (waiting : p.waiting = some (running, rest)) :
    (base running.call.kind).enabled = true ∧ Heading (base running.call.kind)
      (ScriptRun.ofKind running.call.kind runs) (r.updater running.call.kind) running := by
  simp only [Accounts, waiting] at accounts
  obtain ⟨dealt, -, -, enabled, reached⟩ := accounts
  exact ⟨enabled, reached.heading running rfl⟩

theorem Accounts.finished {result : PassResult} (accounts : p.Accounts base runs r)
    (finished : p.result? = some result) :
    Halfway base p.origins runs Kind.all [] result.outcomes r := by
  unfold Accounts at accounts
  unfold result? at finished
  cases waiting : p.waiting with
  | none =>
    simp only [waiting, Option.some.injEq] at accounts finished
    rw [← finished]
    exact accounts
  | some script => simp [waiting] at finished

theorem Halfway.enabled_of_outcome (half : Halfway base origins runs dealt later outcomes r) {o : KindOutcome}
    (member : o ∈ outcomes) : (base o.kind).enabled = true := by
  have listed := List.mem_map_of_mem (f := KindOutcome.kind) member
  rw [half.order] at listed
  exact (List.mem_filter.mp listed).2

theorem Halfway.outcome_of_enabled (half : Halfway base origins runs dealt later outcomes r)
    (member : kind ∈ dealt) (enabled : (base kind).enabled = true) : ∃ o ∈ outcomes, o.kind = kind := by
  have listed : kind ∈ outcomes.map KindOutcome.kind := by
    rw [half.order]
    exact List.mem_filter.mpr ⟨member, enabled⟩
  exact List.mem_map.mp listed

/-- At the end of a pass every kind has the sources with which it began its turn. -/
theorem Halfway.kept (half : Halfway base origins runs Kind.all [] outcomes r) (kind : Kind) :
    (r.updater kind).kind = kind ∧ (r.updater kind).sources = (base kind).sources := by
  cases enabled : (base kind).enabled with
  | false =>
    rw [(half.skipped kind kind.mem_all enabled).1]
    exact ⟨half.label kind, rfl⟩
  | true =>
    obtain ⟨o, member, rfl⟩ := half.outcome_of_enabled kind.mem_all enabled
    have reached := half.done o member
    exact ⟨reached.kind.1.trans (half.label o.kind), reached.sources⟩

theorem Accounts.rebuilt (accounts : p.Accounts base runs r) (builders : Artifact.Builders) :
    p.Accounts base runs { r with builders := builders } := by
  unfold Accounts at accounts ⊢
  split
  next waiting =>
    rw [waiting] at accounts
    exact accounts.elsewhere fun _ _ => ⟨rfl, rfl⟩
  next running rest waiting =>
    rw [waiting] at accounts
    obtain ⟨dealt, whole, half, enabled, reached⟩ := accounts
    exact ⟨dealt, whole, half.elsewhere fun _ _ => ⟨rfl, rfl⟩, enabled, reached⟩

/-- The state in which a kind begins its turn: configured, and with the leases that were found. -/
def baseOf (store : Store) (r : Registry) (kind : Kind) : Updater :=
  ((r.configure.1.updater kind).collect store).pruneSources

theorem baseOf_kind {store : Store} {r : Registry} (label : ∀ kind, (r.updater kind).kind = kind) (kind : Kind) :
    (baseOf store r kind).kind = kind := by
  simp only [baseOf, Updater.pruneSources]
  rw [Updater.collect_rest]
  exact (r.configure_identity kind).1.trans (label kind)

theorem start_accounts (store : Store) (r : Registry) (label : ∀ kind, (r.updater kind).kind = kind) :
    (start store r).pass.Accounts (baseOf store r) [] (start store r).registry := by
  have advanced := (advance_advanced store.table (originsOf store) Kind.all
    (r.configure.1.modifyAll fun u => u.collect store) []).1
  have nothing : [] ++ Kind.all = Kind.all := rfl
  refine (advanced.accounts nothing ⟨fun kind => ?_, rfl, by simp, by simp, fun kind _ => ⟨?_, rfl⟩⟩).2
  · exact baseOf_kind label kind
  · rw [Registry.updater_modifyAll]
    rfl

theorem follow_accounts {s : Stretch} (ends : List Ending) (accounts : s.pass.Accounts base runs s.registry) :
    (s.follow ends).1.pass.Accounts base (runs ++ (s.follow ends).2) (s.follow ends).1.registry := by
  induction ends generalizing s runs with
  | nil => simpa [Stretch.follow] using accounts
  | cons e rest ih =>
    have after := ih (resume_accounts e.table e.result (accounts.rebuilt e.builders))
    simpa only [Stretch.follow, List.append_assoc] using after

theorem start_remaining (store : Store) (r : Registry) : (start store r).pass.remaining ≤ 2 * Kind.all.length :=
  ((advance_advanced store.table (originsOf store) Kind.all
    (r.configure.1.modifyAll fun u => u.collect store) []).1).remaining

/-- A pass is over when as many scripts have ended as it had left. -/
theorem follow_over {s : Stretch} {ends : List Ending} (enough : s.pass.remaining ≤ ends.length) :
    (s.follow ends).1.pass.result?.isSome := by
  induction ends generalizing s with
  | nil =>
    have none_left : s.pass.remaining = 0 := Nat.le_zero.mp enough
    cases waiting : s.pass.waiting with
    | none => simp [Stretch.follow, result?, waiting]
    | some script =>
      simp only [Pass.remaining, waiting] at none_left
      split at none_left <;> omega
  | cons e rest ih =>
    refine ih ?_
    cases waiting : s.pass.waiting with
    | none => simp [resume, waiting, Pass.remaining]
    | some script =>
      have fewer := resume_remaining waiting e.table { s.registry with builders := e.builders } e.result
      rw [List.length_cons] at enough
      omega

end Pass
end Leasehold
