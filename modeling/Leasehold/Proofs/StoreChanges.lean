import Leasehold.Proofs.SourceCollection

/-! How the store changes. A move that changes which leases are held, or what they are, tells so on the bus;
and a lease that was not held before, or is not what it was, has a number that was never given before. -/

namespace Leasehold

namespace Store

structure Same (s s' : Store) : Prop where
  holds : ∀ id, s'.Holds id ↔ s.Holds id
  content : ∀ id, s.Holds id → s'.lease id = s.lease id

/-- What is held and was not held so has a new number. -/
structure Ages (s s' : Store) : Prop where
  counter : s.lastSeqno ≤ s'.lastSeqno
  new : ∀ id, s'.Holds id → s.Holds id ∧ s'.lease id = s.lease id ∨ s.lastSeqno < (s'.lease id).seqno

variable {s mid s' : Store}

theorem Same.refl (s : Store) : s.Same s := ⟨fun _ => Iff.rfl, fun _ _ => rfl⟩

theorem Same.trans (first : s.Same mid) (last : mid.Same s') : s.Same s' :=
  ⟨fun id => (last.holds id).trans (first.holds id),
    fun id held => (last.content id ((first.holds id).mpr held)).trans (first.content id held)⟩

theorem Ages.refl (s : Store) : s.Ages s := ⟨Int.le_refl _, fun _ held => Or.inl ⟨held, rfl⟩⟩

theorem Ages.trans (first : s.Ages mid) (last : mid.Ages s') : s.Ages s' := by
  refine ⟨Int.le_trans first.counter last.counter, fun id held => ?_⟩
  obtain ⟨held, same⟩ | new := last.new id held
  · rw [same]
    exact first.new id held
  · exact Or.inr (Int.lt_of_le_of_lt first.counter new)

theorem Same.ages (same : s.Same s') (counter : s.lastSeqno ≤ s'.lastSeqno) : s.Ages s' :=
  ⟨counter, fun id held => have held := (same.holds id).mp held
    Or.inl ⟨held, same.content id held⟩⟩

theorem Succeeds.ages {name : Scalar} {new : Option LeaseId} (succeeds : s.Succeeds s' name new) : s.Ages s' := by
  refine ⟨succeeds.counter, ?_⟩
  rintro i ⟨d, member, held⟩
  rcases succeeds.held d member i held with ⟨-, -, -, above, -⟩ | ⟨⟨before, present, -, held⟩, content⟩
  · exact Or.inr above
  · exact Or.inl ⟨⟨before, present, held⟩, content⟩

theorem Same.drives (same : s.Same s') (kind : Kind) (id : LeaseId) : s'.Drives kind id ↔ s.Drives kind id := by
  unfold Drives
  rw [same.holds]
  exact and_congr_right fun held => by rw [same.content id held]

end Store

namespace Updater

variable {u : Updater} {s s' : Store}

theorem Reflects.same (reflects : u.Reflects s) (same : s.Same s') : u.Reflects s' := by
  intro n
  rw [reflects n]
  refine exists_congr fun id => ?_
  rw [same.drives]
  exact and_congr_right fun drives => by rw [same.content id drives.1]

theorem Weighed.ages (weighed : u.Weighed s) (ages : s.Ages s') : u.Weighed s' := by
  refine ⟨weighed.known, fun e member => Int.le_trans (weighed.issued e member) ages.counter, ?_⟩
  intro e member id held number
  obtain ⟨held, same⟩ | new := ages.new id held
  · rw [same] at number ⊢
    exact weighed.weight e member id held number
  · exact absurd (weighed.issued e member) (Int.not_le.mpr (number ▸ new))

end Updater

namespace Service

/-- What a move makes of the store: leases that are new have new numbers, and changes are told. -/
structure Change (s : Service) (es : List Effect) (s' : Service) : Prop where
  ages : s.store.Ages s'.store
  told : s.store.Same s'.store ∨ Announces es

variable {s mid s' : Service} {m : Move} {name : Scalar} {first last es : List Effect}

theorem Change.trans (before : s.Change first mid) (after : mid.Change last s') : s.Change (first ++ last) s' := by
  refine ⟨before.ages.trans after.ages, ?_⟩
  obtain same | ⟨e, member, changes⟩ := before.told
  · obtain same' | ⟨e, member, changes⟩ := after.told
    · exact Or.inl (same.trans same')
    · exact Or.inr ⟨e, List.mem_append_right first member, changes⟩
  · exact Or.inr ⟨e, List.mem_append_left last member, changes⟩

theorem Turned.change (turned : s.Turned m name es s') (permitted : s.Permits m) (owned : s.Owned) :
    s.Change es s' := by
  obtain ⟨new, succeeds⟩ := turned.succeeds permitted owned
  refine ⟨succeeds.ages, ?_⟩
  obtain ⟨next, store, turn, b⟩ := turned
  rw [b.store]
  rcases turn.store_cases with ⟨rfl, -⟩ | ⟨rfl, -, told⟩ | ⟨id, t, now, rfl, rfl, rfl, -, told⟩
  · exact Or.inl (.refl s.store)
  · cases held : (s.sessionOf name).lease with
    | none => exact Or.inl (.refl s.store)
    | some id => exact Or.inr (told (by simp [held]))
  · exact Or.inr told

theorem draft_change (owned : s.Owned) {id : LeaseId} (lease : Lease) (free : ¬ s.store.Holds id) :
    s.Change [] { s with store := s.store.draft id lease } := by
  have same : s.store.Same (s.store.draft id lease) := by
    refine ⟨fun other => by simp only [Store.Holds, Store.draft_devices], fun other held => ?_⟩
    exact Store.lease_draft _ lease (fun equal => free (equal ▸ held)) (owned.named other held)
  exact ⟨same.ages (Int.le_of_eq (Store.draft_lastSeqno _ _ _).symm), Or.inl same⟩

theorem step_change (permitted : s.Permits m) (owned : s.Owned) : s.Change (s.step m).2 (s.step m).1 := by
  have moved := s.step_moved m
  generalize (s.step m).1 = s', (s.step m).2 = es at moved ⊢
  cases moved with
  | still => exact ⟨.refl s.store, Or.inl (.refl s.store)⟩
  | drafted id lease same =>
    subst same
    exact draft_change owned lease permitted
  | turn name turned => exact turned.change permitted owned
  | turns name free phase ended last =>
    have first := Moved.first_turn s m phase ended
    exact (first.change (free _) owned).trans (last.change (free _) (first.owned (free _) owned))

end Service

end Leasehold
