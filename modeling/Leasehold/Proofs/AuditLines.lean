import Leasehold.Audit

/-! Which script runs the audit trail can take. A record is a flat map of texts, numbers and the like, so it
can be written unless its sequence number has too many digits or its device's name is no JSON datum. -/

namespace Leasehold

namespace Json

theorem printEntries_ok (entries : List (Scalar × Value)) :
    (∃ texts, printEntries entries = .ok texts) ↔
      ∀ entry ∈ entries, (∃ name, keyText entry.1 = .ok name) ∧ ∃ text, print entry.2 = .ok text := by
  induction entries with
  | nil => simp [printEntries]
  | cons entry rest ih =>
    obtain ⟨key, value⟩ := entry
    rw [List.forall_mem_cons, ← ih]
    simp only [printEntries]
    cases keyText key with
    | error fault => simp [bind, Except.bind]
    | ok name =>
      cases print value with
      | error fault => simp [bind, Except.bind]
      | ok text =>
        cases printEntries rest with
        | error fault => simp [bind, Except.bind]
        | ok texts => simp [bind, Except.bind, pure, Except.pure]

theorem print_map_ok (entries : List (Scalar × Value)) :
    (∃ text, print (.map entries) = .ok text) ↔
      ∀ entry ∈ entries, (∃ name, keyText entry.1 = .ok name) ∧ ∃ text, print entry.2 = .ok text := by
  rw [← printEntries_ok]
  simp only [print]
  cases printEntries entries with
  | error fault => simp [bind, Except.bind]
  | ok texts => simp [bind, Except.bind, pure, Except.pure]

end Json

namespace Audit

/-- Nothing is nested in the record of a change. -/
theorem Change.shown (c : Change) (timestamp : String) (depth : Nat) :
    (c.record timestamp).shown depth = .ok (c.record timestamp).view := by
  have flat (text : Option String) : (Value.optStr text).depth = 1 := by cases text <;> rfl
  have named : ((c.device.map Value.scalar).getD .null).depth = 1 := by cases c.device <;> rfl
  have shallow : (c.record timestamp).view.depth = 2 := by
    simp [Record.view, Change.record, Value.object, Value.depth, Value.entriesDepth, Value.str, Value.bool,
      Value.int, flat, named]
  rw [Record.shown, Record.nesting, shallow, if_neg (Nat.not_lt_zero depth)]

/-- When a script run can be put on record. -/
theorem Change.unwritable?_eq_none (c : Change) :
    c.unwritable? = none ↔ Whole.isUnwritable c.seqno = false ∧
      ∀ device, c.device = some device → ∃ text, Json.scalar device = .ok text := by
  have line : (c.record "").line 0 = Json.print (c.record "").view := by
    rw [Record.line, c.shown]
    generalize (c.record "").view = v
    rfl
  have printed : c.unwritable? = none ↔ ∃ text, Json.print (c.record "").view = .ok text := by
    rw [← line]
    unfold unwritable?
    cases (c.record "").line 0 with
    | ok text => simp
    | error fault => simp
  have optional (text : Option String) : ∃ printed, Json.print (.optStr text) = .ok printed := by
    cases text <;> simp [Value.optStr, Value.str, Value.null, Json.print, Json.scalar]
  have number : (∃ text, Json.print (.int c.seqno) = .ok text) ↔ Whole.isUnwritable c.seqno = false := by
    simp only [Value.int, Json.print, Json.scalar]
    cases Whole.isUnwritable c.seqno <;> simp
  have named : (∃ text, Json.print ((c.device.map Value.scalar).getD .null) = .ok text) ↔
      ∀ device, c.device = some device → ∃ text, Json.scalar device = .ok text := by
    cases c.device with
    | none => simp [Value.null, Json.print, Json.scalar]
    | some device => simp [Json.print]
  rw [printed, Record.view, Value.object, Json.print_map_ok]
  simp [Change.record, Json.keyText, optional, number, named, Value.str, Value.bool, Json.print, Json.scalar]

end Audit
end Leasehold
