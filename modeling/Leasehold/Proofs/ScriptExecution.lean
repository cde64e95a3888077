import Leasehold.Executor
import Leasehold.Proofs.RepeatedAttempts
import Leasehold.Retry.ErrorClass
import Mathlib.Data.List.TakeWhile

/-! What a script run does whatever the system does to it: how often it starts its process and with what, what its
result says of the last attempt, and what is left behind. Two things keep a run from giving a result, an artifact that
no file can hold and a time limit beyond every clock. -/

namespace Leasehold

namespace Retry

variable {ε α : Type}

/-- What a report says of the attempts at an operation that may be made up to `limit` times. -/
structure Report.Follows (report : Report ε α) (retryable : ε → Bool) (outcome : Nat → Except ε α)
    (limit : Nat) : Prop where
  begun : 1 ≤ report.attempts
  bounded : report.attempts ≤ limit
  last : report.result = outcome report.attempts
  passed : ∀ n, 1 ≤ n → n < report.attempts → ∃ e, outcome n = .error e ∧ retryable e = true
  settled : report.attempts < limit → ∀ e, outcome report.attempts = .error e → retryable e = false

/-- Under the standard policy there are three attempts at most. -/
theorem run_follows (retryable : ε → Bool) (outcome : Nat → Except ε α) :
    (run .standard retryable outcome).Follows retryable outcome 3 := by
  obtain ⟨further, ends, told⟩ := run_ends .standard retryable outcome
  rw [told, Terms.account, Nat.add_comm 1 further]
  refine ⟨Nat.le_add_left 1 further, ?_, rfl, ?_, ?_⟩
  · show further + 1 ≤ 3
    by_contra beyond
    have third := (Policy.goes_iff 3).mp (ends.followed 3 (by decide) (by omega))
    exact absurd third.2 (by decide)
  · intro n after before
    have followed := ends.followed n after (Nat.add_comm 1 further ▸ before)
    exact ((Policy.goes_iff n).mp followed).1
  · intro more e failed
    change further + 1 < 3 at more
    rcases (Policy.not_goes_iff _).mp ends.last with final | late
    · rw [Nat.add_comm 1 further] at final
      simpa [failed, Final] using final
    · change (3 : Int) ≤ (1 + further : Nat) at late
      omega

end Retry

/-- The faults that pass are those of one class of errors. -/
theorem SystemFault.isPassing_iff (f : SystemFault) :
    f.isPassing = true ↔ ErrorClass.ofCode f.code = "BlockingIOError" := by
  rw [isPassing, ErrorClass.ofCode]
  cases found : ErrorClass.coded.find? fun c => c.1.contains f.code with
  | none =>
    have listed : ([11, 114, 115], "BlockingIO") ∈ ErrorClass.coded := List.mem_cons_self
    exact iff_of_false (List.find?_eq_none.mp found _ listed) (by decide)
  | some c =>
    have member := List.mem_of_find?_eq_some found
    have covers := List.find?_some found
    constructor
    · intro passing
      have first : ErrorClass.coded.find? (fun c => c.1.contains f.code) = some ([11, 114, 115], "BlockingIO") :=
        List.find?_cons_of_pos passing
      rw [found] at first
      cases first
      rfl
    · intro named
      have only : ∀ c ∈ ErrorClass.coded, c.2 ++ "Error" = "BlockingIOError" → c.1 = [11, 114, 115] := by decide
      exact only c member named ▸ covers

namespace Executor

/-- The artifact, if there is one, has no half of a pair in it. -/
def Job.Whole (job : Job) : Prop :=
  ∀ t, job.artifact ≠ some (.torn t)

theorem Job.Whole.artifact_eq {job : Job} (whole : job.Whole) : job.artifact = job.content?.map .whole := by
  rw [content?]
  rcases given : job.artifact with _ | ⟨content⟩ | ⟨t⟩
  case some.torn => exact absurd given (whole t)
  all_goals rfl

section Surroundings

variable {job : Job} {path : String} {folder : Folder}

theorem Folder.absent (fresh : folder.content? path = none) : ∀ file ∈ folder, file.1 ≠ path := by
  intro file member same
  have other := List.lookup_eq_none_iff.mp fresh file member
  simp [same] at other

theorem Folder.content?_write (fresh : folder.content? path = none) (content : String) :
    (folder.write path content).content? path = some content := by
  change folder.lookup path = none at fresh
  rw [Folder.content?, Folder.write, List.lookup_append, fresh]
  simp

theorem Folder.remove_fresh (fresh : folder.content? path = none) : folder.remove path = folder := by
  apply List.filter_eq_self.mpr
  intro file member
  simpa using Folder.absent fresh file member

theorem Folder.remove_write (fresh : folder.content? path = none) (content : String) :
    (folder.write path content).remove path = folder := by
  have kept := Folder.remove_fresh fresh
  rw [Folder.remove] at kept
  rw [Folder.remove, Folder.write, List.filter_append, kept]
  simp

/-- The run adds to its own command line. -/
theorem commandLine_eq (job : Job) (path : String) :
    commandLine job path = job.argv ++ (job.content?.map fun _ => path).toList := by
  rw [commandLine, completed]
  cases job.content? with
  | none => exact (List.append_nil _).symm
  | some content => rfl

theorem completed_caller (job : Job) (path : String) : (completed job path).words 0 = job.argv := by
  rw [completed]
  cases job.content? <;> rfl

theorem spawnOf_eq (fresh : folder.content? path = none) :
    spawnOf job path (prepared job path folder) =
      ⟨job.kind, job.role, job.argv ++ (job.content?.map fun _ => path).toList, job.content?⟩ := by
  rw [spawnOf, commandLine_eq, prepared]
  cases job.content? with
  | none => rfl
  | some content =>
    have held := Folder.content?_write fresh content
    simp [held]

theorem tidied_eq (fresh : folder.content? path = none) (met : Except SystemFault Child) :
    tidied job path met (prepared job path folder) = folder := by
  unfold tidied prepared
  cases job.content? with
  | none => rfl
  | some content =>
    -- A process that has taken its artifact away leaves nothing to remove.
    have gone := Folder.remove_write fresh content
    have again := Folder.remove_fresh fresh
    cases met with
    | error f => exact gone
    | ok p => cases taken : p.removesArtifact <;> simp [taken, gone, again]

end Surroundings

section Result

variable {job : Job} {command : List String} {result : ScriptResult}

theorem ended_success (command : List String) (p : Child) :
    ((ended command p).success = true ↔ p.status = 0) ∧
      ((ended command p).success = true ↔ (ended command p).error = none) := by
  have success : (ended command p).success = (p.status == 0) := rfl
  have error : (ended command p).error =
      if (p.status == 0) = true then none else some (statusMessage p.status (shown p.stderr)) := rfl
  rw [success, error]
  by_cases zero : p.status = 0 <;> simp [zero]

theorem resultOf_measurable (p : Child) :
    (∃ result, resultOf job command p = .ok result) ↔ job.timeout.isMeasurable = true := by
  rw [resultOf]
  cases job.timeout.isMeasurable with
  | false => simp
  | true => cases p.hangs || job.timeout.isOver <;> simp

theorem resultOf_success {p : Child} (given : resultOf job command p = .ok result) :
    (result.success = true ↔ p.hangs = false ∧ job.timeout.isOver = false ∧ p.status = 0) ∧
      (result.success = true ↔ result.error = none) := by
  rw [resultOf] at given
  split at given
  next => cases given
  split at given
  next late =>
    cases given
    rw [Bool.or_eq_true] at late
    refine ⟨iff_of_false nofun ?_, iff_of_false nofun nofun⟩
    rintro ⟨quick, early, -⟩
    simp [quick, early] at late
  next early =>
    cases given
    obtain ⟨status, error⟩ := ended_success command p
    rw [Bool.or_eq_true, not_or, Bool.not_eq_true, Bool.not_eq_true] at early
    exact ⟨by rw [status, and_iff_right early.1, and_iff_right early.2], error⟩

theorem notStarted_eq (commanded : command ≠ []) (f : SystemFault) :
    notStarted command f = .ok (.failed command none f.message false) := by
  rw [notStarted, List.isEmpty_eq_false_iff.mpr commanded]
  rfl

theorem resultFor_ok (commanded : command ≠ []) (met : Except SystemFault Child) :
    (∃ result, resultFor job command met = .ok result) ↔
      job.timeout.isMeasurable = true ∨ ∃ fault, met = .error fault := by
  cases met with
  | ok p => simp [resultFor, resultOf_measurable]
  | error f => simp [resultFor, notStarted_eq commanded]

theorem resultFor_success {met : Except SystemFault Child} (commanded : command ≠ [])
    (given : resultFor job command met = .ok result) :
    (result.success = true ↔ ∃ p, met = .ok p ∧ p.hangs = false ∧ job.timeout.isOver = false ∧ p.status = 0) ∧
      (result.success = true ↔ result.error = none) := by
  cases met with
  | ok p =>
    obtain ⟨status, error⟩ := resultOf_success given
    exact ⟨by simpa using status, error⟩
  | error f =>
    rw [resultFor, notStarted_eq commanded] at given
    cases given
    refine ⟨iff_of_false nofun ?_, iff_of_false nofun nofun⟩
    rintro ⟨p, started, -⟩
    cases started

end Result

section Run

variable {job : Job} {path : String} {folder : Folder} {outcome : Nat → Except SystemFault Child}

/-- What a run comes to when its artifact can be written. -/
theorem run_whole (whole : job.Whole) (fresh : folder.content? path = none) :
    let met := Retry.run .standard SystemFault.isPassing outcome
    run job path folder outcome =
      { result := resultFor job (commandLine job path) met.result
        spawned := List.replicate met.attempts
          ⟨job.kind, job.role, job.argv ++ (job.content?.map fun _ => path).toList, job.content?⟩
        waits := met.waits
        folder := folder
        argv := job.argv } := by
  intro met
  unfold run
  split
  next t torn => exact absurd torn (whole t)
  next =>
    show Report.mk _ _ _ _ _ = _
    rw [spawnOf_eq fresh, tidied_eq fresh, completed_caller]

theorem run_torn {t : Text.Torn} (torn : job.artifact = some (.torn t)) :
    run job path folder outcome = ⟨.error (.encoding t), [], [], folder.write path "", job.argv⟩ := by
  rw [run, torn]
  rfl

/-- A run gives a result unless its artifact is torn or a process is started under a limit that no clock can hold. The
result is a success if the last attempt met a process that ended well in time, and then alone it names no error.
Starting is tried again after one class of errors only, three times at most, always with the caller's command and the
artifact's file at its end. Afterwards the folder and the caller's command are as they were, but for the empty file of
an artifact that cannot be written. -/
theorem run_contained (job : Job) (path : String) (folder : Folder) (outcome : Nat → Except SystemFault Child)
    (commanded : job.argv ≠ []) (fresh : folder.content? path = none) :
    let report := run job path folder outcome
    let attempts := report.spawned.length
    ((∃ result, report.result = .ok result) ↔
      job.Whole ∧ (job.timeout.isMeasurable = true ∨ ∃ fault, outcome attempts = .error fault)) ∧
    (∀ result, report.result = .ok result →
      (result.success = true ↔
        ∃ p, outcome attempts = .ok p ∧ p.hangs = false ∧ job.timeout.isOver = false ∧ p.status = 0) ∧
      (result.success = true ↔ result.error = none)) ∧
    (job.Whole → 1 ≤ attempts ∧ attempts ≤ 3 ∧
      (∀ n, 1 ≤ n → n < attempts →
        ∃ fault, outcome n = .error fault ∧ ErrorClass.ofCode fault.code = "BlockingIOError") ∧
      (attempts < 3 → ∀ fault, outcome attempts = .error fault →
        ErrorClass.ofCode fault.code ≠ "BlockingIOError")) ∧
    (∀ spawn ∈ report.spawned, ∃ content, job.artifact = content.map .whole ∧
      spawn = ⟨job.kind, job.role, job.argv ++ (content.map fun _ => path).toList, content⟩) ∧
    (job.Whole → report.folder = folder) ∧
    (¬ job.Whole → report.spawned = [] ∧ report.folder = folder.write path "") ∧
    report.argv = job.argv := by
  intro report attempts
  by_cases whole : job.Whole
  · have told : report = _ := run_whole whole fresh
    have follows := Retry.run_follows SystemFault.isPassing outcome
    have counted : attempts = (Retry.run .standard SystemFault.isPassing outcome).attempts := by
      show report.spawned.length = _
      rw [told, List.length_replicate]
    have named : commandLine job path ≠ [] := by
      rw [commandLine_eq]
      exact List.append_ne_nil_of_left_ne_nil commanded _
    have result : report.result = resultFor job (commandLine job path) (outcome attempts) := by
      rw [told, counted, ← follows.last]
    rw [← counted] at told
    refine ⟨?_, ?_, fun _ => ⟨?_, ?_, ?_, ?_⟩, ?_, ?_, ?_, ?_⟩
    · rw [result, resultFor_ok named, and_iff_right whole]
    · intro r given
      exact resultFor_success named (result.symm.trans given)
    · exact counted ▸ follows.begun
    · exact counted ▸ follows.bounded
    · intro n after before
      obtain ⟨fault, failed, passing⟩ := follows.passed n after (counted ▸ before)
      exact ⟨fault, failed, fault.isPassing_iff.mp passing⟩
    · intro more fault failed busy
      have lasting := follows.settled (counted ▸ more) fault (counted ▸ failed)
      rw [fault.isPassing_iff.mpr busy] at lasting
      cases lasting
    · intro spawn member
      rw [told] at member
      exact ⟨job.content?, whole.artifact_eq, List.eq_of_mem_replicate member⟩
    · exact fun _ => by rw [told]
    · exact absurd whole
    · rw [told]
  · obtain ⟨t, torn⟩ : ∃ t, job.artifact = some (.torn t) := by simpa [Job.Whole] using whole
    have told : report = ⟨.error (.encoding t), [], [], folder.write path "", job.argv⟩ := run_torn torn
    rw [told]
    refine ⟨iff_of_false nofun fun both => whole both.1, nofun, fun safe => absurd safe whole, nofun,
      fun safe => absurd safe whole, fun _ => ⟨rfl, rfl⟩, rfl⟩

def plainJob (artifact : Option Text.Spelled) (timeout : Number) : Job :=
  ⟨.hostname, .install, ["/i"], artifact, timeout⟩

def busyAtFirst (attempt : Nat) : Except SystemFault Child :=
  if attempt = 1 then .error ⟨11, "Resource temporarily unavailable", none⟩ else .ok .quiet

/-- The second attempt succeeds, unless the time limit is no number: then the process is ended at once. -/
theorem busy_start_contained :
    let report := run (plainJob (some (.whole "a")) (.int 30)) "/a" [] busyAtFirst
    let unlimited := run (plainJob none (.float .nan)) "/a" [] busyAtFirst
    (∃ result, report.result = .ok result ∧ result.success = true) ∧
    (1 ≤ report.spawned.length ∧ report.spawned.length ≤ 3) ∧
    (∀ spawn ∈ report.spawned, spawn = ⟨.hostname, .install, ["/i", "/a"], some "a"⟩) ∧
    report.folder = [] ∧ report.argv = ["/i"] ∧
    ∃ result, unlimited.result = .ok result ∧ result.success = false := by
  intro report unlimited
  obtain ⟨given, judged, attempts, spawned, left, -, argv⟩ :=
    run_contained (plainJob (some (.whole "a")) (.int 30)) "/a" [] busyAtFirst (by decide) rfl
  have whole : (plainJob (some (.whole "a")) (.int 30)).Whole := nofun
  have second : report.spawned.length = 2 := by decide +kernel
  obtain ⟨result, done⟩ := given.mpr ⟨whole, .inl (by decide +kernel)⟩
  have success := (judged result done).1.mpr ⟨.quiet, by rw [second]; rfl, rfl, by decide, rfl⟩
  obtain ⟨givenToo, judgedToo, -⟩ := run_contained (plainJob none (.float .nan)) "/a" [] busyAtFirst (by decide) rfl
  obtain ⟨late, ended⟩ := givenToo.mpr ⟨nofun, .inl (by decide)⟩
  refine ⟨⟨result, done, success⟩, ⟨(attempts whole).1, (attempts whole).2.1⟩, ?_, left whole, argv, late, ended, ?_⟩
  · intro spawn member
    obtain ⟨content, same, rfl⟩ := spawned spawn member
    cases content with
    | none => cases same
    | some content =>
      cases same
      rfl
  · rw [← Bool.not_eq_true, (judgedToo late ended).1]
    rintro ⟨p, -, -, early, -⟩
    cases early

/-- A limit beyond every binary number lets no result through, and half a pair leaves its file. -/
theorem limits_escape :
    (¬ ∃ result, (run (plainJob none (.int (Nat.pow 10 400))) "/a" [] fun _ => .ok .quiet).result = .ok result) ∧
    (run (plainJob (some (.torn ⟨"", ⟨0⟩, []⟩)) (.int 30)) "/a" [] fun _ => .ok .quiet).folder = [("/a", "")] := by
  have started (limit : Number) : (run (plainJob none limit) "/a" [] fun _ => .ok .quiet).result =
      resultOf (plainJob none limit) ["/i"] .quiet := rfl
  constructor
  · rw [started, resultOf_measurable]
    decide +kernel
  · rfl

end Run

end Executor
end Leasehold
