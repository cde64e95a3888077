import Leasehold.Proofs.AuditLines
import Leasehold.Proofs.AuditQueries
import Leasehold.Proofs.JsonReadings
import Leasehold.Proofs.WordsAndLines

/-! The audit trail gives back what was written into it. A record is one line, whatever its texts are, and the line is
read as the record. So a trail is read as the records that were written, the newest first. A sequence number that has
too many digits is not written at all, and a limit that no counter can hold is no limit. -/

namespace Leasehold.Audit

/-- Every record is read from the map that it is written as. -/
theorem Record.ofValue?_view (r : Record) : ofValue? r.view = some r := rfl

/-- A record whose fields hold what its writers mean them to hold. -/
structure Entry where
  timestamp : String
  kind : String
  operation : String
  success : Bool
  seqno : Int
  device : Option String
  source : Option String
  output : String
  error : Option String
deriving DecidableEq, Repr

namespace Entry

def record (e : Entry) : Record where
  timestamp := .str e.timestamp
  kind := .str e.kind
  operation := .str e.operation
  success := .bool e.success
  seqno := .int e.seqno
  device := .optStr e.device
  source := .optStr e.source
  output := .str e.output
  error := .optStr e.error

def change (e : Entry) : Change where
  kind := e.kind
  operation := e.operation
  success := e.success
  seqno := e.seqno
  device := e.device.map .str
  source := e.source
  output := e.output
  error := e.error

/-- The entry with its output cut off where the trail cuts it. -/
def cut (e : Entry) : Entry :=
  { e with output := String.ofList (e.output.toList.take outputLimit) }

def isWritable (e : Entry) : Bool :=
  !Whole.isUnwritable e.seqno

def fields (e : Entry) : List (String × Scalar) :=
  let optional (text : Option String) : Scalar := (text.map .str).getD .null
  [("timestamp", .str e.timestamp), ("kind", .str e.kind), ("operation", .str e.operation),
    ("success", .bool e.success), ("seqno", .int e.seqno), ("device", optional e.device),
    ("source", optional e.source), ("output", .str e.output), ("error", optional e.error)]

variable {e : Entry}

theorem optStr_eq (text : Option String) : Value.optStr text = .scalar ((text.map .str).getD .null) := by
  cases text <;> rfl

theorem change_record (e : Entry) : e.change.record e.timestamp = e.cut.record := by
  cases e with
  | mk timestamp kind operation success seqno device source output error => cases device <;> rfl

theorem isWritable_cut (e : Entry) : e.cut.isWritable = e.isWritable := rfl

theorem fields_names (e : Entry) : e.fields.map Prod.fst = Record.fieldNames := rfl

theorem view_eq (e : Entry) : e.record.view = .map (Json.flat e.fields) := by
  simp only [Record.view, record, optStr_eq]
  rfl

theorem fields_data (writable : e.isWritable = true) : ∀ field ∈ e.fields, Json.Datum field.2 := by
  have optional (text : Option String) : Json.Datum ((text.map .str).getD .null) := by
    cases text with
    | none => exact .null
    | some s => exact .str s
  have number : Json.Datum (.int e.seqno) := .int (by simpa [isWritable] using writable)
  simp only [Entry.fields, List.forall_mem_cons, List.not_mem_nil, false_implies, implies_true, and_true]
  exact ⟨.str _, .str _, .str _, .bool _, number, optional e.device, optional e.source, .str _, optional e.error⟩

theorem shown_eq (e : Entry) (depth : Nat) : e.record.shown depth = .ok (.map (Json.flat e.fields)) := by
  have shallow (entries : List (String × Scalar)) : Value.entriesDepth (Json.flat entries) ≤ 1 := by
    induction entries with
    | nil => exact Nat.zero_le 1
    | cons entry entries ih => exact Nat.max_le.mpr ⟨Nat.le_refl 1, ih⟩
  have flat : e.record.nesting = 0 := by
    rw [Record.nesting, view_eq]
    exact Nat.sub_eq_zero_of_le (Nat.add_le_add_right (shallow e.fields) 1)
  rw [Record.shown, flat, if_neg (Nat.not_lt_zero depth), view_eq]

theorem line_eq (e : Entry) (depth : Nat) : e.record.line depth = Json.print (.map (Json.flat e.fields)) := by
  rw [Record.line, shown_eq]
  generalize Value.map (Json.flat e.fields) = v
  rfl

/-- An entry that can be written is one line in plain characters, and the line is read as the entry's record. -/
theorem line_read (writable : e.isWritable = true) (depth : Nat) :
    ∃ line, e.record.line depth = .ok line ∧
      (∀ nesting, 0 < nesting → Record.ofLine nesting line = .ok e.record) ∧
      Text.Plain line.toList ∧ '\x7b' ∈ line.toList := by
  have distinct : (e.fields.map Prod.fst).Nodup := by
    rw [fields_names]
    decide
  obtain ⟨line, printed, plain, bracket, read⟩ :=
    Json.read_flat (by simp [Entry.fields]) (fields_data writable) distinct
  refine ⟨line, (line_eq e depth).trans printed, fun nesting room => ?_, plain, bracket⟩
  simp only [Record.ofLine, read nesting room, ← view_eq, Record.ofValue?_view]

theorem line_of_not_isWritable (unwritable : e.isWritable = false) (depth : Nat) :
    ¬ ∃ line, e.record.line depth = .ok line := by
  rw [line_eq, Json.print_map_ok]
  intro each
  have listed : (Scalar.str "seqno", Value.int e.seqno) ∈ Json.flat e.fields := by
    simp [Json.flat, Entry.fields, Value.int]
  obtain ⟨text, printed⟩ := (each _ listed).2
  have long : Whole.isUnwritable e.seqno = true := by simpa [isWritable] using unwritable
  simp [Value.int, Json.print, Json.scalar, long] at printed

end Entry

section Trail

open Text (Avoids isBreak)

def lines (depth : Nat) (records : List Record) : List String :=
  records.filterMap fun r => (r.line depth).toOption

variable {depth nesting : Nat} {earlier : List Record} {r : Record} {line : String} {fault : Json.PrintFault}

theorem text_written (written : r.line depth = .ok line) :
    text depth (earlier ++ [r]) = append (text depth earlier) line := by
  simp only [text, List.foldl_append, List.foldl_cons, List.foldl_nil, written]

theorem text_unwritten (lost : r.line depth = .error fault) : text depth (earlier ++ [r]) = text depth earlier := by
  simp only [text, List.foldl_append, List.foldl_cons, List.foldl_nil, lost]

/-- A trail is its lines, each with its end. -/
theorem text_toList (records : List Record) :
    (text depth records).toList = (lines depth records).flatMap fun line => line.toList ++ ['\n'] := by
  induction records using List.reverseRecOn with
  | nil => rfl
  | append_singleton earlier r ih =>
    cases written : r.line depth with
    | error fault =>
      have same : lines depth (earlier ++ [r]) = lines depth earlier := by simp [lines, written, Except.toOption]
      rw [text_unwritten written, same, ih]
    | ok line =>
      have longer : lines depth (earlier ++ [r]) = lines depth earlier ++ [line] := by
        simp [lines, written, Except.toOption]
      rw [text_written written, longer, List.flatMap_append, ← ih]
      simp [append]

theorem fileLines_text {records : List Record} (whole : ∀ line ∈ lines depth records, Avoids isBreak line) :
    Text.fileLines (text depth records) = lines depth records := by
  have cut := fun line member => (whole line member).mono Text.ends_of_file.blank
  rw [Text.fileLines, text_toList, Text.cutLines_lines Text.ends_of_file cut, List.map_map]
  exact List.map_id'' (fun line => String.ofList_toList) _

/-- The space is the only blank among the plain characters. -/
theorem avoids_of_plain (plain : Text.Plain line.toList) : Avoids isBreak line := by
  intro c member
  have range := plain c member
  by_cases space : c = ' '
  · rw [space]
    decide
  · have other : c.toNat ≠ 0x20 := fun same => space (Char.toNat_inj.mp same)
    simp only [Text.isPlain, isBreak, Text.isBlank, Text.isWhiteSpace, Text.isInformationSeparator, Bool.and_eq_true,
      Bool.or_eq_false_iff, Bool.and_eq_false_iff, decide_eq_true_eq, decide_eq_false_iff_not,
      beq_eq_false_iff_ne] at range ⊢
    omega

theorem lineRecord?_of_record (bracket : '\x7b' ∈ line.toList) (read : Record.ofLine nesting line = .ok r) :
    lineRecord? nesting line = .ok (some r) := by
  have filled : line.toList.all Text.isBlank = false := by
    rw [List.all_eq_false]
    exact ⟨'\x7b', bracket, by decide⟩
  rw [lineRecord?, filled, read]
  rfl

/-- The lines of entries: those that can be written have one each, and it is read as the entry's record. -/
theorem lines_entries (room : 0 < nesting) (entries : List Entry) :
    (∀ line ∈ lines depth (entries.map Entry.record), Avoids isBreak line) ∧
      (lines depth (entries.map Entry.record)).mapM (lineRecord? nesting) =
        .ok ((entries.filter Entry.isWritable).map fun e => some e.record) := by
  induction entries with
  | nil => exact ⟨by simp [lines], rfl⟩
  | cons e entries ih =>
    obtain ⟨whole, read⟩ := ih
    cases writable : e.isWritable with
    | false =>
      have none : (e.record.line depth).toOption = none := by
        cases written : e.record.line depth with
        | error fault => rfl
        | ok line => exact absurd ⟨line, written⟩ (Entry.line_of_not_isWritable writable depth)
      have same : lines depth ((e :: entries).map Entry.record) = lines depth (entries.map Entry.record) := by
        simp [lines, none]
      rw [same, List.filter_cons_of_neg (by simp [writable])]
      exact ⟨whole, read⟩
    | true =>
      obtain ⟨line, written, readBack, plain, bracket⟩ := Entry.line_read writable depth
      have one : lines depth ((e :: entries).map Entry.record) = line :: lines depth (entries.map Entry.record) := by
        simp [lines, written, Except.toOption]
      rw [one, List.filter_cons_of_pos writable, List.mapM_cons, lineRecord?_of_record bracket (readBack nesting room),
        read]
      exact ⟨List.forall_mem_cons.mpr ⟨avoids_of_plain plain, whole⟩, rfl⟩

theorem records_text (depth : Nat) (room : 0 < nesting) (entries : List Entry) :
    records nesting (text depth (entries.map Entry.record)) =
      .ok ((entries.filter Entry.isWritable).map Entry.record) := by
  obtain ⟨whole, read⟩ := lines_entries room entries
  rw [records, fileLines_text whole, read]
  show Except.ok (((entries.filter Entry.isWritable).map fun e => some e.record).filterMap id) = _
  rw [List.filterMap_map, ← List.filterMap_eq_map]
  rfl

end Trail

/-- A query without filters and with a limit that lets everything through gets the whole trail, newest first. -/
theorem recent_all {nesting : Nat} {trail : String} {found : List Record} {limit : Int}
    (read : records nesting trail = .ok found) (enough : found.length ≤ limit)
    (small : limit < 9223372036854775808) :
    recent nesting (some trail) ⟨.null, .null, .int limit⟩ = .ok found.reverse := by
  have wanted : found.filter (Query.wants ⟨.null, .null, .int limit⟩) = found :=
    List.filter_eq_self.mpr fun r _ => rfl
  have whole : found.rtake limit.toNat = found := rtake_of_length_le (by omega)
  rw [recent_eq, count_int, if_pos small, read]
  show Except.ok ((found.filter (Query.wants ⟨.null, .null, .int limit⟩)).rtake limit.toNat).reverse = _
  rw [wanted, whole]

/-- The trail gives back what was written, however deep the writer and the reader can go, if only the reader can open
a map. An entry whose number can be written is one line, of whichever texts it is made, and is read from it again; and
calls are read back from the trail that they have written, the newest first, with their output cut off, under any limit
that lets as many through as there were calls. A call whose number cannot be written has left nothing. -/
theorem written_recalled (depth nesting : Nat) (room : 0 < nesting) :
    (∀ e : Entry, e.isWritable = true →
      ∃ line, e.record.line depth = .ok line ∧ Record.ofLine nesting line = .ok e.record ∧
        Text.Avoids Text.isLineBoundary line) ∧
    ∀ (calls : List Entry) (limit : Int), calls.length ≤ limit → limit < 9223372036854775808 →
      recent nesting (some (text depth (calls.map fun call => call.change.record call.timestamp)))
          ⟨.null, .null, .int limit⟩ =
        .ok ((calls.filter Entry.isWritable).map fun call => call.cut.record).reverse := by
  constructor
  · intro e writable
    obtain ⟨line, written, read, plain, -⟩ := Entry.line_read writable depth
    exact ⟨line, written, read nesting room, (avoids_of_plain plain).mono Text.ends_of_output.blank⟩
  · intro calls limit enough small
    -- What is cut off is cut off before the record is written.
    have shortened : calls.map (fun call => call.change.record call.timestamp) =
        (calls.map Entry.cut).map Entry.record := by
      rw [List.map_map]
      exact List.map_congr_left fun call _ => call.change_record
    have kept : ((calls.map Entry.cut).filter Entry.isWritable).map Entry.record =
        (calls.filter Entry.isWritable).map fun call => call.cut.record := by
      have same : Entry.isWritable ∘ Entry.cut = Entry.isWritable :=
        funext fun e => Function.comp_apply.trans e.isWritable_cut
      rw [List.filter_map, same, List.map_map]
      rfl
    have read := records_text depth room (calls.map Entry.cut)
    rw [shortened]
    rw [kept] at read
    refine recent_all read ?_ small
    have fewer := List.length_filter_le Entry.isWritable calls
    rw [List.length_map]
    omega

/-- A failed run whose texts hold line ends, quotes, characters beyond sixteen bits and some of the last plane. -/
def oddEntry : Entry where
  timestamp := "2024-01-01T00:00:00+00:00"
  kind := "hostname"
  operation := "install"
  success := false
  seqno := 7
  device := some "eth\n0"
  source := none
  output := "\"\\\u2028\u0000😀" ++ String.ofList [Char.ofNat 0x10D83D, Char.ofNat 0x10DE00]
  error := some "\r\n"

theorem odd_texts_recalled :
    (∃ line, oddEntry.record.line 0 = .ok line ∧ Record.ofLine 1 line = .ok oddEntry.record ∧
      Text.Avoids Text.isLineBoundary line) ∧
    recent 1 (some (text 0 ([oddEntry, oddEntry].map fun call => call.change.record call.timestamp)))
        ⟨.null, .null, .int 2⟩ =
      .ok (([oddEntry, oddEntry].filter Entry.isWritable).map fun call => call.cut.record).reverse :=
  ⟨(written_recalled 0 1 (by decide)).1 oddEntry (by decide +kernel),
    (written_recalled 0 1 (by decide)).2 [oddEntry, oddEntry] 2 (by decide) (by decide)⟩

/-- A number of one digit too many has no line, and a limit beyond the counter is refused. -/
theorem limits_refused :
    (¬ ∃ line,
      ({ oddEntry with seqno := (Nat.pow 10 Whole.digitLimit : Nat) } : Entry).record.line 1000 = .ok line) ∧
    recent 1000 (some (text 1000 ([oddEntry].map fun call => call.change.record call.timestamp)))
      ⟨.null, .null, .int 9223372036854775808⟩ = .error .tooLarge :=
  ⟨Entry.line_of_not_isWritable (by decide +kernel) 1000, rfl⟩

end Leasehold.Audit
