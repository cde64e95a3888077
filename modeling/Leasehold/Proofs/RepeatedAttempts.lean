import Leasehold.Retry
import Mathlib.Algebra.Order.Ring.Nat
import Mathlib.Data.Nat.Find
import Mathlib.Order.Bounds.Basic

/-! How long an operation is repeated, and what comes of it. A policy sets terms, and whoever makes the attempts goes by
them: the rules for that are stated apart from `run`, which gives the only report that they allow. It tells of the first
attempt with a final outcome, or of the last one allowed if that comes before. -/

namespace Leasehold.Retry

/-- What attempts go by: which outcomes call for another attempt, with which attempt it is enough in any case, and the
wait before the next one. -/
structure Terms (ε α : Type) where
  again : Except ε α → Bool
  enough : Nat → Bool
  pause : Nat → Span

variable {ε α : Type}

/-- A wait that doubles with each attempt and stays between two bounds; where they cross the lower one prevails. -/
def doubling (base least greatest : Span) (attempt : Nat) : Span :=
  max least (min (base * 2 ^ (attempt - 1)) greatest)

/-- Under a policy some errors call for another attempt as long as there are any left, and the waits double from the
least one on. -/
def Policy.terms (p : Policy) (retryable : ε → Bool) : Terms ε α where
  again
    | .ok _ => false
    | .error e => retryable e
  enough attempt := p.maxAttempts ≤ attempt
  pause := doubling p.minWait p.minWait p.maxWait

/-- The attempts from the `first` one on, and the report of them. The outcome of that one is the result, as it is, if it
calls for no other attempt or if it is enough with this one. Otherwise there is a wait, and the rest follows. -/
inductive Terms.Conducts (t : Terms ε α) (outcome : Nat → Except ε α) : Nat → Report ε α → Prop
  | settled {first : Nat} (final : t.again (outcome first) = false) : t.Conducts outcome first ⟨1, [], outcome first⟩
  | exhausted {first : Nat} (failed : t.again (outcome first) = true) (enough : t.enough first = true) :
      t.Conducts outcome first ⟨1, [], outcome first⟩
  | repeated {first : Nat} {rest : Report ε α} (failed : t.again (outcome first) = true)
      (more : t.enough first = false) (conducted : t.Conducts outcome (first + 1) rest) :
      t.Conducts outcome first ⟨rest.attempts + 1, t.pause first :: rest.waits, rest.result⟩

namespace Terms

variable {t : Terms ε α} {outcome : Nat → Except ε α} {report : Report ε α} {first further : Nat}

def Goes (t : Terms ε α) (outcome : Nat → Except ε α) (n : Nat) : Prop :=
  t.again (outcome n) = true ∧ t.enough n = false

/-- So many attempts follow the `first` one. -/
structure EndsAfter (t : Terms ε α) (outcome : Nat → Except ε α) (first further : Nat) : Prop where
  followed : ∀ n, first ≤ n → n < first + further → t.Goes outcome n
  last : ¬ t.Goes outcome (first + further)

def account (t : Terms ε α) (outcome : Nat → Except ε α) (first further : Nat) : Report ε α where
  attempts := further + 1
  waits := (List.range' first further).map t.pause
  result := outcome (first + further)

theorem account_succ (t : Terms ε α) (outcome : Nat → Except ε α) (first further : Nat) :
    t.account outcome first (further + 1) =
      { attempts := (t.account outcome (first + 1) further).attempts + 1
        waits := t.pause first :: (t.account outcome (first + 1) further).waits
        result := (t.account outcome (first + 1) further).result } := by
  simp only [account, List.range'_succ, List.map_cons, Nat.add_assoc, Nat.add_comm 1 further]

namespace EndsAfter

theorem now (last : ¬ t.Goes outcome first) : t.EndsAfter outcome first 0 where
  followed _ after before := absurd before (Nat.not_lt.mpr after)
  last := last

theorem later (goes : t.Goes outcome first) (ends : t.EndsAfter outcome (first + 1) further) :
    t.EndsAfter outcome first (further + 1) where
  followed n after before := by
    rcases Nat.eq_or_lt_of_le after with rfl | after
    · exact goes
    · exact ends.followed n after (by omega)
  last := by
    have last := ends.last
    rwa [Nat.add_right_comm] at last

theorem goes (ends : t.EndsAfter outcome first (further + 1)) : t.Goes outcome first :=
  ends.followed first (Nat.le_refl first) (by omega)

theorem rest (ends : t.EndsAfter outcome first (further + 1)) : t.EndsAfter outcome (first + 1) further where
  followed n after before := ends.followed n (by omega) (by omega)
  last := by
    have last := ends.last
    rwa [← Nat.add_assoc, Nat.add_right_comm] at last

theorem unique {other : Nat} (ends : t.EndsAfter outcome first further) (same : t.EndsAfter outcome first other) :
    further = other := by
  rcases Nat.lt_trichotomy further other with less | equal | more
  · exact absurd (same.followed _ (Nat.le_add_right first further) (by omega)) ends.last
  · exact equal
  · exact absurd (ends.followed _ (Nat.le_add_right first other) (by omega)) same.last

/-- The attempts come to an end if one of them, at the latest, is not followed by another. -/
theorem exists_of_stop {limit : Nat} (reached : first ≤ limit) (stops : ¬ t.Goes outcome limit) :
    ∃ further, t.EndsAfter outcome first further := by
  classical
  have some : ∃ further, ¬ t.Goes outcome (first + further) := by
    refine ⟨limit - first, ?_⟩
    rwa [Nat.add_sub_cancel' reached]
  refine ⟨Nat.find some, ?_, Nat.find_spec some⟩
  intro n after before
  have early : n - first < Nat.find some := by omega
  have goes := not_not.mp (Nat.find_min some early)
  rwa [Nat.add_sub_cancel' after] at goes

theorem conducts (ends : t.EndsAfter outcome first further) :
    t.Conducts outcome first (t.account outcome first further) := by
  induction further generalizing first with
  | zero =>
    have last : ¬ t.Goes outcome first := ends.last
    cases failed : t.again (outcome first) with
    | false => exact .settled failed
    | true => exact .exhausted failed (by simpa [Goes, failed] using last)
  | succ further ih =>
    rw [account_succ]
    exact .repeated ends.goes.1 ends.goes.2 (ih ends.rest)

end EndsAfter

theorem Conducts.ends (conducted : t.Conducts outcome first report) :
    ∃ further, t.EndsAfter outcome first further ∧ report = t.account outcome first further := by
  induction conducted with
  | settled final => exact ⟨0, .now fun goes => by simp [goes.1] at final, rfl⟩
  | exhausted failed enough => exact ⟨0, .now fun goes => by simp [goes.2] at enough, rfl⟩
  | repeated failed more conducted ih =>
    obtain ⟨further, ends, rfl⟩ := ih
    exact ⟨further + 1, ends.later ⟨failed, more⟩, (account_succ ..).symm⟩

/-- The rules allow one report. -/
theorem EndsAfter.conducts_iff (ends : t.EndsAfter outcome first further) :
    t.Conducts outcome first report ↔ report = t.account outcome first further := by
  constructor
  · intro conducted
    obtain ⟨other, same, rfl⟩ := conducted.ends
    rw [ends.unique same]
  · rintro rfl
    exact ends.conducts

end Terms

/-- The outcome of an attempt is a value, or an error that does not call for another one. -/
def Final (retryable : ε → Bool) (met : Except ε α) : Prop :=
  (∃ a, met = .ok a) ∨ ∃ e, met = .error e ∧ retryable e = false

theorem final_iff (retryable : ε → Bool) (met : Except ε α) :
    Final retryable met ↔ ¬ ∃ e, met = .error e ∧ retryable e = true := by
  cases met <;> simp [Final]

section Run

variable {p : Policy} {retryable : ε → Bool} {outcome : Nat → Except ε α} {first further : Nat}

/-- Another attempt follows one that has failed with an error that passes, if there is one left. -/
theorem Policy.goes_iff (n : Nat) :
    (p.terms retryable).Goes outcome n ↔ (∃ e, outcome n = .error e ∧ retryable e = true) ∧ n < p.maxAttempts := by
  have failed : (p.terms retryable).again (outcome n) = true ↔ ∃ e, outcome n = .error e ∧ retryable e = true := by
    cases outcome n <;> simp [Policy.terms]
  have more : (p.terms retryable (α := α)).enough n = false ↔ ¬ p.maxAttempts ≤ n := decide_eq_false_iff_not
  rw [Terms.Goes, failed, more, Int.not_le]

theorem Policy.not_goes_iff (n : Nat) :
    ¬ (p.terms retryable).Goes outcome n ↔ Final retryable (outcome n) ∨ p.maxAttempts ≤ n := by
  rw [goes_iff, not_and_or, final_iff, Int.not_lt]

theorem runFrom_eq (ends : (p.terms retryable).EndsAfter outcome first further) :
    runFrom p retryable outcome (p.maxAttempts - first).toNat first =
      ⟨first + further, (List.range' first further).map p.wait, outcome (first + further)⟩ := by
  -- Over the attempts that follow. As long as one follows there is one left.
  induction further generalizing first with
  | zero =>
    cases left : (p.maxAttempts - first).toNat with
    | zero => rfl
    | succ remaining =>
      rcases (Policy.not_goes_iff first).mp ends.last with (⟨a, met⟩ | ⟨e, failed, lasting⟩) | late
      · simp [runFrom, met]
      · simp [runFrom, failed, lasting]
      · omega
  | succ further ih =>
    obtain ⟨⟨e, failed, passing⟩, more⟩ := (Policy.goes_iff first).mp ends.goes
    have left : (p.maxAttempts - first).toNat = (p.maxAttempts - (first + 1 : Nat)).toNat + 1 := by omega
    rw [left]
    simp only [runFrom, failed, passing, if_true, ih ends.rest, List.range'_succ, List.map_cons]
    rw [Nat.add_assoc, Nat.add_comm 1 further]

theorem run_ends (p : Policy) (retryable : ε → Bool) (outcome : Nat → Except ε α) :
    ∃ further, (p.terms retryable).EndsAfter outcome 1 further ∧
      run p retryable outcome = (p.terms retryable).account outcome 1 further := by
  have stops : ¬ (p.terms retryable).Goes outcome (max 1 p.maxAttempts.toNat) :=
    (Policy.not_goes_iff _).mpr (.inr (by omega))
  obtain ⟨further, ends⟩ := Terms.EndsAfter.exists_of_stop (Nat.le_max_left 1 _) stops
  refine ⟨further, ends, ?_⟩
  have told : run p retryable outcome = _ := runFrom_eq ends
  rw [told, Terms.account, Nat.add_comm 1 further]
  rfl

/-- The attempt that is reported is the first with a final outcome, or the last one allowed if that comes before. -/
theorem Terms.EndsAfter.isLeast (ends : (p.terms retryable).EndsAfter outcome 1 further) :
    IsLeast {n : Nat | 1 ≤ n ∧ (Final retryable (outcome n) ∨ p.maxAttempts ≤ n)} (1 + further) := by
  constructor
  · exact ⟨Nat.le_add_right 1 further, (Policy.not_goes_iff _).mp ends.last⟩
  · rintro n ⟨begun, last⟩
    by_contra before
    exact (Policy.not_goes_iff n).mpr last (ends.followed n begun (Nat.not_le.mp before))

theorem doubling_mono (base least greatest : Span) : Monotone (doubling base least greatest) := by
  intro attempt later before
  have less : base * 2 ^ (attempt - 1) ≤ base * 2 ^ (later - 1) :=
    Nat.mul_le_mul_left base (Nat.pow_le_pow_right Nat.two_pos (Nat.sub_le_sub_right before 1))
  exact max_le_max le_rfl (min_le_min less le_rfl)

/-- An operation is tried until an outcome is final or the attempts are used up, and whatever that last attempt met is
what comes of it. In between are waits that double from the least one to the greatest. Nobody who goes by the terms of
the policy can do otherwise. -/
theorem run_until_final (p : Policy) (retryable : ε → Bool) (outcome : Nat → Except ε α) :
    let report := run p retryable outcome
    (∃ n, IsLeast {n : Nat | 1 ≤ n ∧ (Final retryable (outcome n) ∨ p.maxAttempts ≤ n)} n ∧
      report.attempts = n ∧ report.result = outcome n ∧
      report.waits = (List.range' 1 (n - 1)).map fun k =>
        max p.minWait (min (p.minWait * 2 ^ (k - 1)) p.maxWait)) ∧
    report.waits.Pairwise (· ≤ ·) ∧
    ∀ other, (p.terms retryable).Conducts outcome 1 other ↔ other = report := by
  intro report
  obtain ⟨further, ends, told⟩ : ∃ further, _ ∧ report = _ := run_ends p retryable outcome
  rw [told]
  refine ⟨⟨1 + further, ends.isLeast, Nat.add_comm further 1, rfl, ?_⟩, ?_, fun _ => ends.conducts_iff⟩
  · rw [Nat.add_sub_cancel_left]
    rfl
  · exact List.pairwise_map.mpr
      (List.pairwise_le_range'.imp fun before => doubling_mono p.minWait p.minWait p.maxWait before)

example : (run ⟨5, 3, 7⟩ (· == "busy") fun n => if n ≤ 3 then .error "busy" else .ok n).waits = [3, 6, 7] := by
  decide

end Run

end Leasehold.Retry
