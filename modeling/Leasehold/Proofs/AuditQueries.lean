import Leasehold.Audit
import Leasehold.Proofs.JsonReadings
import Leasehold.Proofs.Readings
import Leasehold.Proofs.WordsAndLines
import Mathlib.Data.List.DropRight
import Mathlib.Data.List.Induction

/-! What a query of the audit trail gets, whatever the trail holds. One pass that never keeps more records than are
asked for comes to the last of all records that are wanted. Lines that are no record are as if they were not there;
only a line beyond the reader's limits, or a limit beyond the counter, leaves the query without an answer. -/

namespace Leasehold.Audit

def records (nesting : Nat) (trail : String) : Except Json.ReadFault (List Record) := do
  let found ← (Text.fileLines trail).mapM (lineRecord? nesting)
  return found.filterMap id

section Newest

variable {α : Type} {nesting limit : Nat}

theorem reverse_rtake (items : List α) (n : Nat) : (items.rtake n).reverse = items.reverse.take n := by
  rw [List.rtake_eq_reverse_take_reverse, List.reverse_reverse]

theorem rtake_of_length_le {items : List α} {n : Nat} (few : items.length ≤ n) : items.rtake n = items := by
  rw [List.rtake, Nat.sub_eq_zero_of_le few, List.drop_zero]

/-- What was dropped before is not missed among the last ones. -/
theorem rtake_rtake_append (earlier later : List α) (n : Nat) :
    (earlier.rtake n ++ later).rtake n = (earlier ++ later).rtake n := by
  apply List.reverse_injective
  rw [reverse_rtake, reverse_rtake, List.reverse_append, List.reverse_append, reverse_rtake, List.take_append,
    List.take_append, List.take_take]
  rw [Nat.min_eq_left (Nat.sub_le n _)]

theorem Newest.push_records (newest : Newest limit) (r : Record) :
    (newest.push r).records = (newest.records ++ [r]).rtake limit := by
  rw [Newest.push, List.rtake, List.length_append, List.length_singleton]

theorem Query.keep_records (q : Query) (newest : Newest limit) (found : Option Record) :
    (q.keep newest found).records = (newest.records ++ found.toList.filter q.wants).rtake limit := by
  have full : newest.records = newest.records.rtake limit := (rtake_of_length_le newest.bounded).symm
  cases found with
  | none => rwa [Option.toList_none, List.filter_nil, List.append_nil]
  | some r =>
    rw [Query.keep, Option.toList_some]
    by_cases wanted : q.wants r = true
    · rw [if_pos wanted, Newest.push_records, List.filter_cons_of_pos wanted, List.filter_nil]
    · rwa [if_neg wanted, List.filter_cons_of_neg wanted, List.filter_nil, List.append_nil]

/-- Keeping one after the other comes to the last of the records that are wanted, those that were there before
included. -/
theorem Query.foldl_keep (q : Query) (found : List (Option Record)) (newest : Newest limit) :
    (found.foldl q.keep newest).records =
      (newest.records ++ (found.filterMap id).filter q.wants).rtake limit := by
  -- For whatever was kept before: what the first record pushes out is not among the last ones later either.
  induction found generalizing newest with
  | nil => rw [List.filterMap_nil, List.filter_nil, List.append_nil, rtake_of_length_le newest.bounded, List.foldl_nil]
  | cons first rest ih =>
    have whole : (first :: rest).filterMap id = first.toList ++ rest.filterMap id := by
      cases first <;> rfl
    rw [List.foldl_cons, ih, q.keep_records, rtake_rtake_append, whole, List.filter_append, List.append_assoc]

/-- All lines may as well be read before the first record is kept: reading fails at the same line. -/
theorem Query.foldlM_read (q : Query) (lines : List String) (newest : Newest limit) :
    lines.foldlM (q.read nesting) newest =
      (lines.mapM (lineRecord? nesting)).map fun found => found.foldl q.keep newest := by
  induction lines generalizing newest with
  | nil => rfl
  | cons line rest ih =>
    rw [List.foldlM_cons, List.mapM_cons, Query.read]
    cases lineRecord? nesting line with
    | error fault => rfl
    | ok found =>
      refine (ih (q.keep newest found)).trans ?_
      cases rest.mapM (lineRecord? nesting) <;> rfl

/-- A query gets the last of the records that it wants, in the opposite order. -/
theorem recent_eq (nesting : Nat) (trail : String) (q : Query) : recent nesting (some trail) q = do
    let limit ← count q.limit
    let found ← (records nesting trail).mapError .line
    return ((found.filter q.wants).rtake limit).reverse := by
  rw [recent, records]
  cases count q.limit with
  | error fault => rfl
  | ok limit =>
    show ((Text.fileLines trail).foldlM (q.read nesting) (Newest.empty limit)).mapError QueryFault.line >>= _ = _
    rw [q.foldlM_read]
    cases (Text.fileLines trail).mapM (lineRecord? nesting) with
    | error fault => rfl
    | ok found =>
      have kept := q.foldl_keep found (Newest.empty limit)
      show Except.ok (found.foldl q.keep (Newest.empty limit)).records.reverse = _
      rw [kept]
      rfl

end Newest

/-- The fields that a record has from a map: time, kind, operation and success are given, the others may be missing,
and nothing else is there. -/
structure Record.IsOf (r : Record) (entries : Entries) : Prop where
  names : ∀ entry ∈ entries, ∃ name ∈ Record.fieldNames, entry.1 = .str name
  timestamp : entries.field? "timestamp" = some r.timestamp
  kind : entries.field? "kind" = some r.kind
  operation : entries.field? "operation" = some r.operation
  success : entries.field? "success" = some r.success
  seqno : r.seqno = (entries.field? "seqno").getD (.int 0)
  device : r.device = (entries.field? "device").getD .null
  source : r.source = (entries.field? "source").getD .null
  output : r.output = (entries.field? "output").getD (.str "")
  error : r.error = (entries.field? "error").getD .null

def toldBy (nesting : Nat) (line : String) : Option Record :=
  if line.toList.all Text.isBlank then none else (Record.ofLine nesting line).toOption

/-- A line is beyond the reader's limits: a whole number in it has too many digits, or it is nested too deep. -/
def overtaxes (nesting : Nat) (line : String) : Bool :=
  !line.toList.all Text.isBlank &&
    match Json.read nesting line with
    | .error .malformed => false
    | .error _ => true
    | .ok _ => false

/-- What a caller asks of a field: to be a text, unless none or an empty one is given. -/
def Asked (filter : Option String) (field : Value) : Prop :=
  ∀ text, filter = some text → text ≠ "" → field = .str text

section Lines

variable {nesting : Nat} {line : String} {lines : List String} {r : Record}

theorem Record.ofValue?_iff (v : Value) (r : Record) :
    Record.ofValue? v = some r ↔ ∃ entries, v = .map entries ∧ r.IsOf entries := by
  have names (entries : Entries) :
      (entries.all fun entry => Record.fieldNames.any fun name => entry.1 == .str name) = true ↔
        ∀ entry ∈ entries, ∃ name ∈ Record.fieldNames, entry.1 = .str name := by
    simp only [List.all_eq_true, List.any_eq_true, beq_iff_eq]
  constructor
  · intro read
    unfold Record.ofValue? at read
    split at read
    next entries =>
      split at read
      next named =>
        simp only [Option.bind_eq_bind, Option.bind_eq_some_iff, Option.pure_def, Option.some.injEq] at read
        obtain ⟨timestamp, dated, kind, labelled, operation, called, success, judged, rfl⟩ := read
        exact ⟨entries, rfl, (names entries).mp named, dated, labelled, called, judged, rfl, rfl, rfl, rfl, rfl⟩
      next => cases read
    next => cases read
  · rintro ⟨entries, rfl, fields⟩
    obtain ⟨named, timestamp, kind, operation, success, seqno, device, source, output, error⟩ := fields
    unfold Record.ofValue?
    simp only [if_pos ((names entries).mpr named), timestamp, kind, operation, success, Option.bind_eq_bind,
      Option.bind_some, Option.pure_def, ← seqno, ← device, ← source, ← output, ← error]

theorem Record.ofLine_iff (nesting : Nat) (line : String) (r : Record) :
    Record.ofLine nesting line = .ok r ↔ ∃ entries, Json.read nesting line = .ok (.map entries) ∧ r.IsOf entries := by
  unfold Record.ofLine
  cases Json.read nesting line with
  | error fault => simp
  | ok v =>
    have read := Record.ofValue?_iff v r
    cases found : Record.ofValue? v with
    | none => simpa [found] using read
    | some other => simpa [found] using read

theorem toldBy_iff (nesting : Nat) (line : String) (r : Record) : toldBy nesting line = some r ↔
    line.toList.all Text.isBlank = false ∧ ∃ entries, Json.read nesting line = .ok (.map entries) ∧ r.IsOf entries := by
  rw [← Record.ofLine_iff, toldBy]
  cases blank : line.toList.all Text.isBlank with
  | true => simp
  | false => cases Record.ofLine nesting line <;> simp [Except.toOption]

theorem overtaxes_iff (nesting : Nat) (line : String) : overtaxes nesting line = true ↔
    line.toList.all Text.isBlank = false ∧ ∃ fault, fault ≠ .malformed ∧ Json.read nesting line = .error fault := by
  rw [overtaxes, Bool.and_eq_true, Bool.not_eq_true']
  refine and_congr_right fun _ => ?_
  split
  next read => simp [read]
  next fault other read => simpa [read] using other
  next v read => simp [read]

theorem lineRecord?_of_light (light : overtaxes nesting line = false) :
    lineRecord? nesting line = .ok (toldBy nesting line) := by
  unfold lineRecord? toldBy
  cases blank : line.toList.all Text.isBlank with
  | true => rfl
  | false =>
    simp only [Bool.false_eq_true, if_false]
    split
    next r read => rw [read]; rfl
    next read => rw [read]; rfl
    next read => rw [read]; rfl
    next fault beyond read =>
      have unread : Json.read nesting line = .error fault := by
        unfold Record.ofLine at read
        split at read
        next fault' unread => cases read; exact unread
        next => split at read <;> cases read
      have heavy := (overtaxes_iff nesting line).mpr ⟨blank, fault, beyond, unread⟩
      rw [light] at heavy
      cases heavy

theorem lineRecord?_of_overtaxes (beyond : overtaxes nesting line = true) :
    ∃ fault, lineRecord? nesting line = .error fault := by
  obtain ⟨filled, fault, other, unread⟩ := (overtaxes_iff nesting line).mp beyond
  refine ⟨fault, ?_⟩
  rw [lineRecord?, filled, Record.ofLine, unread]
  cases fault with
  | malformed => exact absurd rfl other
  | digits count => rfl
  | depth => rfl

theorem mapM_light (light : ∀ line ∈ lines, overtaxes nesting line = false) :
    lines.mapM (lineRecord? nesting) = .ok (lines.map (toldBy nesting)) :=
  Reading.mapM_ok fun line member => lineRecord?_of_light (light line member)

theorem mapM_overtaxed (beyond : ∃ line ∈ lines, overtaxes nesting line = true) :
    ∃ fault, lines.mapM (lineRecord? nesting) = .error fault := by
  induction lines with
  | nil =>
    obtain ⟨line, member, -⟩ := beyond
    cases member
  | cons line rest ih =>
    cases heavy : overtaxes nesting line with
    | true =>
      obtain ⟨fault, read⟩ := lineRecord?_of_overtaxes heavy
      exact ⟨fault, by rw [List.mapM_cons, read]; rfl⟩
    | false =>
      obtain ⟨other, member, bad⟩ := beyond
      have later : ∃ line ∈ rest, overtaxes nesting line = true := by
        rcases List.mem_cons.mp member with rfl | member
        · rw [heavy] at bad
          cases bad
        · exact ⟨other, member, bad⟩
      obtain ⟨fault, read⟩ := ih later
      exact ⟨fault, by rw [List.mapM_cons, lineRecord?_of_light heavy, read]; rfl⟩

end Lines

section Trail

variable {nesting : Nat} {trail : String}

theorem records_light (light : ∀ line ∈ Text.fileLines trail, overtaxes nesting line = false) :
    records nesting trail = .ok ((Text.fileLines trail).filterMap (toldBy nesting)) := by
  rw [records, mapM_light light]
  show Except.ok (((Text.fileLines trail).map (toldBy nesting)).filterMap id) = _
  rw [List.filterMap_map]
  rfl

theorem records_overtaxed (beyond : ∃ line ∈ Text.fileLines trail, overtaxes nesting line = true) :
    ∃ fault, records nesting trail = .error fault := by
  obtain ⟨fault, read⟩ := mapM_overtaxed beyond
  exact ⟨fault, by rw [records, read]; rfl⟩

/-- A line that has no record can go. -/
theorem records_without {other line : String} {before after : List String}
    (there : Text.fileLines trail = before ++ line :: after) (gone : Text.fileLines other = before ++ after)
    (nothing : lineRecord? nesting line = .ok none) : records nesting other = records nesting trail := by
  rw [records, records, there, gone, List.mapM_append, List.mapM_append, List.mapM_cons, nothing]
  cases before.mapM (lineRecord? nesting) with
  | error fault => rfl
  | ok earlier =>
    cases after.mapM (lineRecord? nesting) with
    | error fault => rfl
    | ok later =>
      show Except.ok ((earlier ++ later).filterMap id) = Except.ok ((earlier ++ none :: later).filterMap id)
      rw [List.filterMap_append, List.filterMap_append, List.filterMap_cons_none rfl]

theorem count_int (limit : Int) :
    count (.int limit) = if limit < 9223372036854775808 then .ok limit.toNat else .error .tooLarge := rfl

/-- Only a text is equal to a text. -/
theorem same_str (field : Value) (text : String) : field.same (.str text) = true ↔ field = .str text := by
  cases field with
  | scalar s =>
    show s.same (.str text) = true ↔ Value.scalar s = .scalar (.str text)
    rw [Value.scalar.injEq, Scalar.same, Scalar.isKey, Bool.and_eq_true, decide_eq_true_eq, Bool.not_eq_true']
    have key : (Scalar.str text).key = .datum (.str text) := rfl
    constructor
    · rintro ⟨same, -⟩
      rw [key] at same
      unfold Scalar.key at same
      split at same
      next => cases same
      next => cases same
      next => split at same <;> cases same
      next => split at same <;> cases same
      next => exact Key.datum.inj same
    · rintro rfl
      exact ⟨rfl, rfl⟩
  | _ =>
    refine iff_of_false (by simp [Value.same, Value.str]) ?_
    intro same
    cases same

theorem matchesFilter_iff (filter : Option String) (field : Value) :
    matchesFilter (.optStr filter) field = true ↔ Asked filter field := by
  cases filter with
  | none => simp [matchesFilter, Asked, Value.optStr, Value.isTruthy, Value.null, Scalar.isTruthy]
  | some text =>
    have filled : (Value.optStr (some text)).isTruthy = false ↔ text = "" := by
      show (text != "") = false ↔ text = ""
      rw [bne_eq_false_iff_eq]
    rw [matchesFilter, Asked, Bool.or_eq_true, Bool.not_eq_true', filled]
    show text = "" ∨ field.same (.str text) = true ↔ _
    rw [same_str]
    constructor
    · rintro (empty | same) other equal some
      · exact absurd empty (Option.some.inj equal ▸ some)
      · exact Option.some.inj equal ▸ same
    · intro each
      by_cases empty : text = ""
      · exact .inl empty
      · exact .inr (each text rfl empty)

instance (filter : Option String) (field : Value) : Decidable (Asked filter field) :=
  decidable_of_iff _ (matchesFilter_iff filter field)

theorem wants_eq (kind operation : Option String) (limit : Value) (r : Record) :
    Query.wants ⟨.optStr kind, .optStr operation, limit⟩ r =
      decide (Asked kind r.kind ∧ Asked operation r.operation) := by
  rw [Bool.eq_iff_iff, decide_eq_true_iff, ← matchesFilter_iff, ← matchesFilter_iff, Query.wants, Bool.and_eq_true]

/-- What a query gets, whatever the trail holds. A line that is not blank tells a record if it is a map with the fields
of one. As long as no line is beyond the reader's limits, nor the limit beyond the counter, the query gets the last of
the records told that are asked for, newest first; otherwise it gets none. A line that tells nothing may as well not be
there. -/
theorem recent_tolerant (nesting : Nat) (trail : String) (kind operation : Option String) (limit : Int) :
    let found := recent nesting (some trail) ⟨.optStr kind, .optStr operation, .int limit⟩
    let told := (Text.fileLines trail).filterMap (toldBy nesting)
    (∀ line r, toldBy nesting line = some r ↔
      line.toList.all Text.isBlank = false ∧ ∃ entries, Json.read nesting line = .ok (.map entries) ∧ r.IsOf entries) ∧
    (limit < 9223372036854775808 → (∀ line ∈ Text.fileLines trail, overtaxes nesting line = false) →
      found = .ok ((told.filter fun r => Asked kind r.kind ∧ Asked operation r.operation).rtake limit.toNat).reverse) ∧
    (limit < 9223372036854775808 → (∃ line ∈ Text.fileLines trail, overtaxes nesting line = true) →
      ∃ fault, found = .error (.line fault)) ∧
    (9223372036854775808 ≤ limit → found = .error .tooLarge) ∧
    (∀ other line before after, Text.fileLines trail = before ++ line :: after →
      Text.fileLines other = before ++ after → toldBy nesting line = none → overtaxes nesting line = false →
      recent nesting (some other) ⟨.optStr kind, .optStr operation, .int limit⟩ = found) := by
  intro found told
  have answer (trail : String) := recent_eq nesting trail ⟨.optStr kind, .optStr operation, .int limit⟩
  refine ⟨toldBy_iff nesting, ?_, ?_, ?_, ?_⟩
  · intro small light
    have wanted : Query.wants ⟨.optStr kind, .optStr operation, .int limit⟩ =
        fun r => decide (Asked kind r.kind ∧ Asked operation r.operation) :=
      funext (wants_eq kind operation (.int limit))
    refine (answer trail).trans ?_
    rw [count_int, if_pos small, records_light light, wanted]
    rfl
  · intro small beyond
    obtain ⟨fault, read⟩ := records_overtaxed beyond
    refine ⟨fault, (answer trail).trans ?_⟩
    rw [count_int, if_pos small, read]
    rfl
  · intro large
    refine (answer trail).trans ?_
    rw [count_int, if_neg (Int.not_lt.mpr large)]
    rfl
  · intro other line before after there gone silent light
    have nothing : lineRecord? nesting line = .ok none := silent ▸ lineRecord?_of_light light
    refine (answer other).trans (Eq.trans ?_ (answer trail).symm)
    rw [records_without there gone nothing]

end Trail

def plainLine : String :=
  "\x7b\"timestamp\":1,\"kind\":\"ntp\",\"operation\":\"install\",\"success\":true\x7d"

def mixedTrail : String :=
  " \nx\n[1]\n" ++ plainLine

def longLine : String :=
  String.ofList (List.replicate (Whole.digitLimit + 1) '1')

theorem ones_unread {n : Nat} (many : Whole.digitLimit < n) (nesting : Nat) :
    (String.ofList (List.replicate n '1')).toList.all Text.isBlank = false ∧
      Json.read nesting (String.ofList (List.replicate n '1')) = .error (.digits n) := by
  have some : n ≠ 0 := Nat.ne_of_gt (Nat.zero_lt_of_lt many)
  have each : ∀ c ∈ List.replicate n '1', c = '1' := fun c => List.eq_of_mem_replicate
  constructor
  · rw [String.toList_ofList, List.all_eq_false]
    exact ⟨'1', List.mem_replicate.mpr ⟨some, rfl⟩, by decide⟩
  · have lead (tail : List Char) : List.replicate n '1' ≠ '0' :: tail := by
      intro same
      have zero : '0' = '1' := each '0' (same ▸ List.mem_cons_self)
      cases zero
    have read := Json.read_long (fun c member => each c member ▸ rfl) lead (by rwa [List.length_replicate]) nesting
    rwa [List.length_replicate] at read

theorem longLine_unread (nesting : Nat) :
    lineRecord? nesting longLine = .error (.digits (Whole.digitLimit + 1)) := by
  obtain ⟨filled, unread⟩ := ones_unread (Nat.lt_succ_self Whole.digitLimit) nesting
  rw [longLine, lineRecord?, filled, Record.ofLine, unread]
  rfl

theorem fileLines_longLine (rest : String) :
    Text.fileLines (longLine ++ "\n" ++ rest) = longLine :: Text.fileLines rest := by
  apply Text.fileLines_cons
  intro c member
  rw [longLine, String.toList_ofList] at member
  rw [List.eq_of_mem_replicate member]
  rfl

theorem mixedTrail_lines : Text.fileLines mixedTrail = [" ", "x", "[1]", plainLine] := by
  decide +kernel

theorem odd_trails_answered :
    recent 1 (some mixedTrail) ⟨.optStr none, .optStr (some "install"), .int 1⟩ =
      .ok (((((Text.fileLines mixedTrail).filterMap (toldBy 1)).filter fun r =>
        Asked none r.kind ∧ Asked (some "install") r.operation).rtake 1).reverse) ∧
    (∃ fault, recent 1 (some ("[[]]\n" ++ plainLine)) ⟨.optStr none, .optStr none, .int 5⟩ = .error (.line fault)) ∧
    (∃ fault, recent 1000 (some (longLine ++ "\n" ++ plainLine)) ⟨.optStr none, .optStr none, .int 0⟩ =
      .error (.line fault)) ∧
    recent 1 (some mixedTrail) ⟨.optStr none, .optStr none, .int 9223372036854775808⟩ = .error .tooLarge ∧
    recent 1 (some (" \nx\n" ++ plainLine)) ⟨.optStr none, .optStr none, .int 2⟩ =
      recent 1 (some mixedTrail) ⟨.optStr none, .optStr none, .int 2⟩ := by
  have light : ∀ line ∈ Text.fileLines mixedTrail, overtaxes 1 line = false := by
    rw [mixedTrail_lines]
    simp only [List.forall_mem_cons, List.not_mem_nil, false_implies, implies_true, and_true]
    exact ⟨by decide +kernel, by decide +kernel, by decide +kernel, by decide +kernel⟩
  have deep : ∃ line ∈ Text.fileLines ("[[]]\n" ++ plainLine), overtaxes 1 line = true := by
    have lines : Text.fileLines ("[[]]\n" ++ plainLine) = ["[[]]", plainLine] := by decide +kernel
    exact ⟨"[[]]", lines ▸ List.mem_cons_self, by decide +kernel⟩
  have long : ∃ line ∈ Text.fileLines (longLine ++ "\n" ++ plainLine), overtaxes 1000 line = true := by
    obtain ⟨filled, unread⟩ := ones_unread (Nat.lt_succ_self Whole.digitLimit) 1000
    exact ⟨longLine, fileLines_longLine plainLine ▸ List.mem_cons_self,
      (overtaxes_iff 1000 longLine).mpr ⟨filled, .digits (Whole.digitLimit + 1), nofun, unread⟩⟩
  have lines : Text.fileLines (" \nx\n" ++ plainLine) = [" ", "x", plainLine] := by decide +kernel
  exact ⟨(recent_tolerant 1 mixedTrail none (some "install") 1).2.1 (by decide) light,
    (recent_tolerant 1 ("[[]]\n" ++ plainLine) none none 5).2.2.1 (by decide) deep,
    (recent_tolerant 1000 (longLine ++ "\n" ++ plainLine) none none 0).2.2.1 (by decide) long,
    (recent_tolerant 1 mixedTrail none none 9223372036854775808).2.2.2.1 (by decide),
    (recent_tolerant 1 mixedTrail none none 2).2.2.2.2 (" \nx\n" ++ plainLine) "[1]" [" ", "x"] [plainLine]
      mixedTrail_lines lines rfl (by decide +kernel)⟩

/-- The record after such a line is not found. -/
theorem long_line_hides_record :
    (toldBy 1000 plainLine).isSome = true ∧
    recent 1000 (some (longLine ++ "\n" ++ plainLine)) ⟨.optStr none, .optStr none, .int 100⟩ =
      .error (.line (.digits (Whole.digitLimit + 1))) := by
  constructor
  · decide +kernel
  · rw [recent_eq, records, fileLines_longLine, List.mapM_cons, longLine_unread]
    rfl

end Leasehold.Audit
