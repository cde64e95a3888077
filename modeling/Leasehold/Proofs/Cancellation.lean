import Leasehold.Proofs.Tickets

/-! Cancelled tickets. The negotiator may go on with a request that was cancelled, since its report is to
come to nothing. That is so, but for one case: a request in flight is cancelled before the attempt that
takes its place has begun, and if the negotiator turns that attempt down the cancelled request is back in
force. -/

namespace Leasehold.Service

def TurnedDown (s : Service) (m : Move) : Prop :=
  m.reply ≠ .accepted ∧ ∃ e ∈ (s.step m).2, e.asked?.isSome

/-- The move puts a ticket back into force: it was in flight, and the attempt in its place is turned down. -/
def Reinstates (s : Service) (m : Move) (t : Ticket) : Prop :=
  s.TurnedDown m ∧ (s.sessionOf t.device).inFlight? = some t

instance (s : Service) (m : Move) (t : Ticket) : Decidable (s.Reinstates m t) :=
  inferInstanceAs (Decidable ((m.reply ≠ .accepted ∧ ∃ e ∈ (s.step m).2, e.asked?.isSome) ∧
    (s.sessionOf t.device).inFlight? = some t))

def Dismissed (s : Service) (t : Ticket) : Prop :=
  ∀ moves : List Move, (s.run moves).1.Ignores t

def Forgotten (s : Service) (t : Ticket) : Prop :=
  ∀ moves : List Move, ((s.run moves).1.sessionOf t.device).ticket ≠ some t

variable {s s' : Service} {m : Move} {name : Scalar} {x next : Session} {store : Store} {es : List Effect}
  {t : Ticket}

theorem dismissed_of_past (past : (s.sessionOf t.device).Past t) : s.Dismissed t :=
  fun moves => ignores_iff.mpr (s.run_past moves past).not_current

theorem forgotten_of_past (sound : s.SessionsSound) (past : (s.sessionOf t.device).Past t) : s.Forgotten t := by
  intro moves waiting
  have lower := (s.run_past moves past).waiting (by simp [waiting])
  have same := ((run_sessions_sound sound moves _).ticket t waiting).2
  exact Nat.ne_of_lt lower same

/-- A ticket is cancelled by the session that waits for it. It is over then, or it was in flight and the
attempt in its place is turned down; the session is as it was in that case. -/
theorem Turn.cancels (turn : s.Turn m name x next store es) (sound : x.Sound) (told : .cancel t ∈ es) :
    x.ticket = some t ∧
    (next.Past t ∧ (m.reply = .accepted ∨ ∀ e ∈ es, e.asked? = none) ∨
      next = x ∧ m.reply ≠ .accepted ∧ (∃ e ∈ es, e.asked?.isSome) ∧ x.inFlight? = some t) := by
  have gone {next : Session} (waiting : x.ticket = some t) (ticket : next.ticket = none)
      (generation : x.generation ≤ next.generation) : next.Past t :=
    ⟨(sound.ticket t waiting).2 ▸ generation, by simp [ticket]⟩
  have later (phase : Phase) (u : Ticket) (waiting : x.ticket = some t) : (x.attempt phase u).Past t :=
    have passed := Nat.lt_succ_of_le (Nat.le_of_eq (sound.ticket t waiting).2)
    ⟨Nat.le_of_lt passed, fun _ => passed⟩
  cases turn with
  | kept => cases told
  | finished phase =>
    have waiting : x.ticket = some t := by simpa [Session.abandoned] using told
    exact ⟨waiting, Or.inl ⟨gone waiting rfl (Nat.le_refl _), Or.inr (abandoned_quiet x _)⟩⟩
  | refused u ask asked reply =>
    have flight : x.inFlight? = some t := by
      obtain told | rfl := List.mem_append.mp told |>.imp_right List.mem_singleton.mp
      · simpa [Session.replaced] using told
      · cases asked
    -- The one turn that cancels a ticket and leaves it in force.
    exact ⟨(Session.inFlight?_some flight).2, Or.inr ⟨rfl, reply, ⟨ask, by simp, by simp [asked]⟩, flight⟩⟩
  | started request reply phase =>
    have flight : x.inFlight? = some t := by simpa [Session.replaced] using told
    have waiting := (Session.inFlight?_some flight).2
    exact ⟨waiting, Or.inl ⟨later _ _ waiting, Or.inl reply⟩⟩
  | releasing id held reply phase =>
    have flight : x.inFlight? = some t := by simpa [Session.replaced] using told
    have waiting := (Session.inFlight?_some flight).2
    exact ⟨waiting, Or.inl ⟨later _ _ waiting, Or.inl reply⟩⟩
  | cancelled u empty flight =>
    obtain rfl : t = u := by simpa using told
    have waiting := (Session.inFlight?_some flight).2
    exact ⟨waiting, Or.inl ⟨gone waiting rfl (Nat.le_succ _), Or.inr (by simp)⟩⟩
  | expired id held flight =>
    have waiting : x.ticket = some t := by simpa [Session.abandoned] using told
    exact ⟨waiting, Or.inl ⟨gone waiting rfl (Nat.le_succ _), Or.inr (abandoned_quiet x _)⟩⟩
  | outlived | obtained | failed | returned => simp at told

theorem Turned.cancels (turned : s.Turned m name es s') (sound : s.SessionsSound) (told : .cancel t ∈ es) :
    (s'.sessionOf t.device).Past t ∧ (m.reply = .accepted ∨ ∀ e ∈ es, e.asked? = none) ∨
    ((m.reply ≠ .accepted ∧ ∃ e ∈ es, e.asked?.isSome) ∧ (s.sessionOf t.device).inFlight? = some t) ∧
      (s'.sessionOf t.device).ticket = some t ∧ (s'.sessionOf t.device).generation = t.generation := by
  obtain ⟨next, store, turn, b⟩ := turned
  obtain ⟨waiting, cases⟩ := turn.cancels (sound name) told
  obtain ⟨device, generation⟩ := (sound name).ticket t waiting
  have here : t.device.key = name.key := device.trans (s.sessionOf_device name)
  have same : (s.sessionOf t.device).inFlight? = (s.sessionOf name).inFlight? := by
    rw [s.sessionOf_congr here]
    rfl
  rw [b.sessionOf_here here, same]
  rcases cases with ended | ⟨rfl, reply, asked, flight⟩
  · exact Or.inl ended
  · exact Or.inr ⟨⟨⟨reply, asked⟩, flight⟩, waiting, generation.symm⟩

/-- After a move that cancelled a ticket the session is past it, unless the move puts it back into force. -/
theorem step_cancels (sound : s.SessionsSound) (told : .cancel t ∈ (s.step m).2) :
    ¬ s.Reinstates m t ∧ ((s.step m).1.sessionOf t.device).Past t ∨
    s.Reinstates m t ∧ ((s.step m).1.sessionOf t.device).ticket = some t ∧
      ((s.step m).1.sessionOf t.device).generation = t.generation := by
  unfold Reinstates TurnedDown
  have moved := s.step_moved m
  generalize (s.step m).1 = s', (s.step m).2 = es at moved told ⊢
  cases moved with
  | still => cases told
  | drafted => cases told
  | turn name turned =>
    rcases turned.cancels sound told with ⟨past, quiet⟩ | waiting
    · refine Or.inl ⟨?_, past⟩
      rintro ⟨⟨reply, e, member, asked⟩, -⟩
      rcases quiet with accepted | silent
      · exact reply accepted
      · simp [silent e member] at asked
    · exact Or.inr waiting
  | @turns mid es s' name free phase ended last =>
    have first := Moved.first_turn s m phase ended
    rcases List.mem_append.mp told with told | told
    · -- The ticket was that of a release: it was not in flight, and the attempt starts without it.
      have waiting : (s.sessionOf name).ticket = some t := by simpa [Session.abandoned] using told
      obtain ⟨device, generation⟩ := (sound name).ticket t waiting
      have here : t.device.key = name.key := device.trans (s.sessionOf_device name)
      have past : (mid.sessionOf t.device).Past t := by
        rw [ended.sessionOf_here here]
        exact ⟨Nat.le_of_eq generation, by simp [emptied]⟩
      refine Or.inl ⟨?_, (last.ticketing t.device).past past⟩
      rintro ⟨-, flight⟩
      rw [s.sessionOf_congr here] at flight
      have acquiring := (Session.inFlight?_some flight).1
      simp [phase] at acquiring
    · obtain ⟨next, store, turn, b⟩ := last
      have waiting := (turn.cancels (first.sessions_sound sound name) told).1
      rw [ended.sessionOf_here rfl] at waiting
      cases waiting

/-- Once a ticket was cancelled, nothing is heard of it and no session waits for it again, unless it was in
flight and the negotiator turned down the attempt in its place; then it is waited for still. -/
theorem cancelled_forgotten_iff (devices : List (Scalar × Int)) (mode : Mode) (moves : List Move) (m : Move)
    (t : Ticket) (told : .cancel t ∈ (((initial devices mode).run moves).1.step m).2) :
    let s := ((initial devices mode).run moves).1
    ((s.step m).1.Dismissed t ↔ ¬ s.Reinstates m t) ∧
    ((s.step m).1.Forgotten t ↔ ¬ s.Reinstates m t) ∧
    (s.Reinstates m t → ((s.step m).1.sessionOf t.device).ticket = some t) := by
  intro s
  have sound : s.SessionsSound := run_sessions_sound (initial_sessions_sound devices mode) moves
  rcases step_cancels sound told with ⟨once, past⟩ | ⟨again, waiting, generation⟩
  · exact ⟨iff_of_true (dismissed_of_past past) once,
      iff_of_true (forgotten_of_past (step_sessions_sound sound m) past) once, fun again => absurd again once⟩
  · refine ⟨iff_of_false ?_ (not_not_intro again), iff_of_false ?_ (not_not_intro again), fun _ => waiting⟩
    · intro dismissed
      exact absurd (ignores_iff.mp (dismissed [])) (by simp [run, Session.isCurrent, waiting, generation])
    · exact fun forgotten => forgotten [] waiting

theorem replaced_forgotten :
    let options : Value := .map [(.str "family", .scalar (.str "ipv4"))]
    let s := ((initial [(.str "eth0", 1)] .dhcp).run
      [.acquire (.str "eth0") options (.lenient (List.replicate 16 1)) .accepted]).1
    let m : Move := .acquire (.str "eth0") options (.lenient (List.replicate 16 2)) .accepted
    ∃ t, .cancel t ∈ (s.step m).2 ∧ (s.step m).1.Dismissed t :=
  ⟨_, .head _, (cancelled_forgotten_iff [(.str "eth0", 1)] .dhcp [_] _ _ (.head _)).1.mpr (by decide)⟩

/-- A request that was cancelled for one that could not start is still waited for, and fails later. -/
theorem cancelled_heard :
    let options : Value := .map [(.str "family", .scalar (.str "ipv4"))]
    let s := ((initial [(.str "eth0", 1)] .dhcp).run
      [.acquire (.str "eth0") options (.lenient (List.replicate 16 1)) .accepted]).1
    let m : Move := .acquire (.str "eth0") options (.lenient (List.replicate 16 2)) (.refused "down")
    ∃ t, .cancel t ∈ (s.step m).2 ∧ (s.step m).1.step (.failAcquire t "late") ≠ ((s.step m).1, []) :=
  ⟨_, .head _, by decide⟩

end Leasehold.Service
