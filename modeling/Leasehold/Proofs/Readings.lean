import Mathlib.Data.List.Forall2

/-! Readings in stages. A reading that came to an end has come through every stage of it. -/

namespace Leasehold.Reading

variable {ε ε' α β : Type}

theorem bind_ok {first : Except ε α} {next : α → Except ε β} {b : β} (read : (first >>= next) = .ok b) :
    ∃ a, first = .ok a ∧ next a = .ok b := by
  cases first with
  | error fault => cases read
  | ok a => exact ⟨a, rfl, read⟩

theorem mapError_ok {reading : Except ε α} {report : ε → ε'} {a : α} (read : reading.mapError report = .ok a) :
    reading = .ok a := by
  cases reading with
  | error fault => cases read
  | ok other => rw [Except.ok.inj read]

theorem ok_of_toOption {reading : Except ε α} {a : α} (read : reading.toOption = some a) : reading = .ok a := by
  cases reading with
  | error fault => cases read
  | ok other => rw [Option.some.inj read]

theorem forall₂_of_mapM {f : α → Except ε β} {as : List α} {bs : List β} (read : as.mapM f = .ok bs) :
    List.Forall₂ (fun a b => f a = .ok b) as bs := by
  induction as generalizing bs with
  | nil =>
    cases read
    exact .nil
  | cons a rest ih =>
    rw [List.mapM_cons] at read
    obtain ⟨b, head, read⟩ := bind_ok read
    obtain ⟨others, tail, read⟩ := bind_ok read
    cases read
    exact .cons head (ih tail)

theorem mem_of_mapM {f : α → Except ε β} {as : List α} {bs : List β} (read : as.mapM f = .ok bs) :
    ∀ b ∈ bs, ∃ a ∈ as, f a = .ok b := by
  have each := forall₂_of_mapM read
  clear read
  induction each with
  | nil => simp
  | @cons a b as bs head _ ih =>
    refine List.forall_mem_cons.mpr ⟨⟨a, List.mem_cons_self, head⟩, fun other member => ?_⟩
    obtain ⟨a', listed, made⟩ := ih other member
    exact ⟨a', List.mem_cons_of_mem a listed, made⟩

theorem mapM_ok {f : α → Except ε β} {g : α → β} {as : List α} (each : ∀ a ∈ as, f a = .ok (g a)) :
    as.mapM f = .ok (as.map g) := by
  induction as with
  | nil => rfl
  | cons a rest ih =>
    obtain ⟨first, others⟩ := List.forall_mem_cons.mp each
    rw [List.mapM_cons, first, ih others]
    rfl

section Options

variable {f : α → Option β} {as : List α} {bs : List β}

theorem mapM_eq_some : as.mapM f = some bs ↔ as.map f = bs.map some := by
  induction as generalizing bs with
  | nil => cases bs <;> simp
  | cons a rest ih =>
    cases bs with
    | nil => simp [List.mapM_cons, Option.bind_eq_some_iff]
    | cons b others => simp [List.mapM_cons, Option.bind_eq_some_iff, ih]

theorem length_of_mapM (read : as.mapM f = some bs) : bs.length = as.length := by
  simpa using (congrArg List.length (mapM_eq_some.mp read)).symm

theorem exists_of_mapM (read : as.mapM f = some bs) : ∀ b ∈ bs, ∃ a ∈ as, f a = some b := by
  intro b member
  have listed : some b ∈ as.map f := by
    rw [mapM_eq_some.mp read]
    exact List.mem_map_of_mem member
  exact List.mem_map.mp listed

end Options

end Leasehold.Reading
