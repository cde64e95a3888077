import Leasehold.Proofs.SessionPhases

/-! Tickets over time. The tickets that the negotiator accepted for one device have numbers that only grow,
although an attempt that is turned down gives its number back; a report is heard if it is about the last of
them, and then once. -/

namespace Leasehold

namespace Session

/-- The session is past a ticket: it waits for none, or for one with a higher number. -/
structure Past (x : Session) (t : Ticket) : Prop where
  reached : t.generation ≤ x.generation
  waiting : x.ticket.isSome → t.generation < x.generation

theorem Past.not_current {x : Session} {t : Ticket} (past : x.Past t) : x.isCurrent t = false := by
  by_cases waiting : x.ticket.isSome
  · simp [isCurrent, Nat.ne_of_lt (past.waiting waiting)]
  · simp [isCurrent, waiting]

/-- What a move does to a session's ticket and number, with the tickets that the negotiator accepts. -/
inductive Ticketing (x : Session) : Session → List Ticket → Prop
  | kept {next} (ticket : next.ticket = x.ticket) (generation : next.generation = x.generation) :
      Ticketing x next []
  | ended {next} (ticket : next.ticket = none) (generation : x.generation ≤ next.generation) :
      Ticketing x next []
  | issued {next} (t : Ticket) (ticket : next.ticket = some t) (generation : t.generation = next.generation)
      (later : x.generation < next.generation) : Ticketing x next [t]

variable {x mid next : Session} {t : Ticket} {ts : List Ticket}

theorem Ticketing.refl (x : Session) : x.Ticketing x [] := .kept rfl rfl

theorem Ticketing.trans (first : x.Ticketing mid []) (last : mid.Ticketing next ts) : x.Ticketing next ts := by
  cases first with
  | kept ticket generation =>
    cases last with
    | kept ticket' generation' => exact .kept (ticket'.trans ticket) (generation'.trans generation)
    | ended none' later => exact .ended none' (generation ▸ later)
    | issued t some' same later => exact .issued t some' same (generation ▸ later)
  | ended ticket generation =>
    cases last with
    | kept ticket' generation' => exact .ended (ticket'.trans ticket) (generation' ▸ generation)
    | ended none' later => exact .ended none' (Nat.le_trans generation later)
    | issued t some' same later => exact .issued t some' same (Nat.lt_of_le_of_lt generation later)

theorem Ticketing.past (ticketing : x.Ticketing next ts) (past : x.Past t) : next.Past t := by
  cases ticketing with
  | kept ticket generation => exact ⟨generation ▸ past.reached, by rw [ticket, generation]; exact past.waiting⟩
  | ended ticket generation => exact ⟨Nat.le_trans past.reached generation, by simp [ticket]⟩
  | issued u ticket generation later =>
    have passed := Nat.lt_of_le_of_lt past.reached later
    exact ⟨Nat.le_of_lt passed, fun _ => passed⟩

/-- The tickets that were accepted so far: their numbers grow up to the session's, and the session waits
for none but the last. -/
structure Issued (x : Session) (ts : List Ticket) : Prop where
  grow : ts.Pairwise fun a b => a.generation < b.generation
  reached : ∀ t ∈ ts, t.generation ≤ x.generation
  last : ∀ t, x.ticket = some t → ts.getLast? = some t ∧ t.generation = x.generation

theorem Ticketing.issued_tickets {old : List Ticket} (ticketing : x.Ticketing next ts) (issued : x.Issued old) :
    next.Issued (old ++ ts) := by
  cases ticketing with
  | kept ticket generation =>
    rw [List.append_nil]
    exact ⟨issued.grow, generation ▸ issued.reached, by rw [ticket, generation]; exact issued.last⟩
  | ended ticket generation =>
    rw [List.append_nil]
    exact ⟨issued.grow, fun t member => Nat.le_trans (issued.reached t member) generation, by simp [ticket]⟩
  | issued u ticket generation later =>
    have below (t : Ticket) (member : t ∈ old) : t.generation < u.generation :=
      generation ▸ Nat.lt_of_le_of_lt (issued.reached t member) later
    refine ⟨?_, ?_, ?_⟩
    · simpa [List.pairwise_append] using ⟨issued.grow, below⟩
    · intro t member
      obtain old | rfl := List.mem_append.mp member |>.imp_right List.mem_singleton.mp
      · exact generation ▸ Nat.le_of_lt (below t old)
      · exact Nat.le_of_eq generation
    · intro t waiting
      obtain rfl : u = t := Option.some.inj (ticket.symm.trans waiting)
      exact ⟨by simp, generation⟩

theorem Issued.not_current (issued : x.Issued ts) (member : t ∈ ts) (old : ts.getLast? ≠ some t) :
    x.isCurrent t = false := by
  match waiting : x.ticket with
  | none => simp [isCurrent, waiting]
  | some u =>
    obtain ⟨last, generation⟩ := issued.last u waiting
    obtain ⟨before, rfl⟩ := List.getLast?_eq_some_iff.mp last
    obtain member | rfl := List.mem_append.mp member |>.imp_right List.mem_singleton.mp
    · have lower := (List.pairwise_append.mp issued.grow).2.2 t member u (List.mem_singleton_self u)
      simp [isCurrent, Nat.ne_of_lt (generation ▸ lower)]
    · exact absurd last old

end Session

namespace Service

def Move.accepted (m : Move) (es : List Effect) : List Ticket :=
  if m.reply = .accepted then es.filterMap Effect.asked? else []

def accepted (s : Service) : List Move → List Ticket
  | [] => []
  | m :: rest => m.accepted (s.step m).2 ++ (s.step m).1.accepted rest

def Ignores (s : Service) (t : Ticket) : Prop :=
  ∀ m : Move, m.report? = some t → s.step m = (s, [])

def outcomes (s : Service) (t : Ticket) : List Move → List (List Effect)
  | [] => []
  | m :: rest =>
    if m.report? = some t ∧ s.step m ≠ (s, []) then (s.step m).2 :: (s.step m).1.outcomes t rest
    else (s.step m).1.outcomes t rest

variable {s s' : Service} {m : Move} {name : Scalar} {x next : Session} {store : Store} {es : List Effect}
  {t : Ticket}

theorem Move.accepted_append (m : Move) (first last : List Effect) :
    m.accepted (first ++ last) = m.accepted first ++ m.accepted last := by
  unfold Move.accepted
  split <;> simp

@[simp] theorem asked?_cancel (t : Ticket) : (Effect.cancel t).asked? = none := rfl

@[simp] theorem asked?_publish (e : Event) : (Effect.publish e).asked? = none := rfl

theorem abandoned_quiet (x : Session) (told : Event) : ∀ e ∈ x.abandoned ++ [.publish told], e.asked? = none := by
  simp [Session.abandoned, or_imp, forall_and]

private theorem accepted_quiet (m : Move) (es : List Effect) (quiet : ∀ e ∈ es, e.asked? = none) :
    m.accepted es = [] := by
  unfold Move.accepted
  split
  · exact List.filterMap_eq_nil_iff.mpr quiet
  · rfl

private theorem accepted_ask {ask : Effect} (x : Session) (asked : ask.asked? = some t) :
    m.accepted (x.replaced ++ [ask]) = if m.reply = .accepted then [t] else [] := by
  rw [Move.accepted_append, accepted_quiet m _ (by simp [Session.replaced]), List.nil_append]
  unfold Move.accepted
  split <;> simp [asked]

private theorem ticketing_quiet (quiet : ∀ e ∈ es, e.asked? = none) (ticketing : x.Ticketing next []) :
    x.Ticketing next (m.accepted es) ∧ ∀ t ∈ m.accepted es, t.device = name := by
  rw [accepted_quiet m es quiet]
  exact ⟨ticketing, by simp⟩

theorem Turn.ticketing (turn : s.Turn m name x next store es) :
    x.Ticketing next (m.accepted es) ∧ ∀ t ∈ m.accepted es, t.device = name := by
  cases turn with
  | kept => exact ticketing_quiet (by simp) (.refl x)
  | finished phase =>
    exact ticketing_quiet (abandoned_quiet x _) (.ended rfl (Nat.le_refl _))
  | refused t ask asked reply =>
    rw [accepted_ask x asked, if_neg reply]
    exact ⟨.refl x, by simp⟩
  | started request reply phase =>
    rw [accepted_ask x rfl, if_pos reply]
    exact ⟨.issued _ rfl rfl (Nat.lt_succ_self _), by simp⟩
  | releasing id held reply phase =>
    rw [accepted_ask x rfl, if_pos reply]
    exact ⟨.issued _ rfl rfl (Nat.lt_succ_self _), by simp⟩
  | cancelled t empty waiting => exact ticketing_quiet (by simp) (.ended rfl (Nat.le_succ _))
  | outlived id held t waiting => exact ticketing_quiet (by simp) (.kept rfl rfl)
  | expired id held waiting =>
    exact ticketing_quiet (abandoned_quiet x _) (.ended rfl (Nat.le_succ _))
  | obtained id t now handed device current => exact ticketing_quiet (by simp) (.ended rfl (Nat.le_refl _))
  | failed t reason current => exact ticketing_quiet (by simp) (.ended rfl (Nat.le_refl _))
  | returned t current => exact ticketing_quiet (by simp) (.ended rfl (Nat.le_refl _))

def ofDevice (name : Scalar) (ts : List Ticket) : List Ticket :=
  ts.filter fun t => t.device.isKey name

theorem Turned.ticketing (turned : s.Turned m name es s') (other : Scalar) :
    (s.sessionOf other).Ticketing (s'.sessionOf other) (ofDevice other (m.accepted es)) := by
  obtain ⟨next, store, turn, b⟩ := turned
  obtain ⟨ticketing, made⟩ := turn.ticketing
  by_cases same : other.key = name.key
  · have all : ofDevice other (m.accepted es) = m.accepted es :=
      List.filter_eq_self.mpr fun t member => Scalar.isKey_iff.mpr (made t member ▸ same.symm)
    rw [all, b.sessionOf_here same, s.sessionOf_congr same]
    generalize m.accepted es = ts at ticketing ⊢
    cases ticketing with
    | kept ticket generation => exact .kept ticket generation
    | ended ticket generation => exact .ended ticket generation
    | issued t ticket generation later => exact .issued t ticket generation later
  · have none : ofDevice other (m.accepted es) = [] :=
      List.filter_eq_nil_iff.mpr fun t member hit => same ((made t member ▸ Scalar.isKey_iff.mp hit).symm)
    rw [none, b.sessionOf_elsewhere same]
    exact .refl _

theorem step_ticketing (s : Service) (m : Move) (name : Scalar) :
    (s.sessionOf name).Ticketing ((s.step m).1.sessionOf name) (ofDevice name (m.accepted (s.step m).2)) := by
  have moved := s.step_moved m
  generalize (s.step m).1 = s', (s.step m).2 = es at moved ⊢
  cases moved with
  | still => exact accepted_quiet m [] (by simp) ▸ .refl _
  | drafted id lease same => exact accepted_quiet m [] (by simp) ▸ .refl _
  | turn other turned => exact turned.ticketing name
  | turns other free phase ended last =>
    have first := (Moved.first_turn s m phase ended).ticketing name
    have quiet := accepted_quiet m _ (abandoned_quiet (s.sessionOf other)
      (s.released other (s.sessionOf other).lease none))
    rw [Move.accepted_append, quiet, List.nil_append]
    exact (quiet ▸ first).trans (last.ticketing name)

theorem run_issued (s : Service) (moves : List Move) (name : Scalar) {old : List Ticket}
    (issued : (s.sessionOf name).Issued old) :
    ((s.run moves).1.sessionOf name).Issued (old ++ ofDevice name (s.accepted moves)) := by
  induction moves generalizing s old with
  | nil => simpa [run, accepted, ofDevice] using issued
  | cons m rest ih =>
    have after := ih (s.step m).1 ((s.step_ticketing m name).issued_tickets issued)
    simpa only [run, accepted, ofDevice, List.filter_append, List.append_assoc] using after

theorem run_past (s : Service) (moves : List Move) (past : (s.sessionOf t.device).Past t) :
    ((s.run moves).1.sessionOf t.device).Past t := by
  induction moves generalizing s with
  | nil => exact past
  | cons m rest ih => exact ih (s.step m).1 ((s.step_ticketing m t.device).past past)

/-- What a report that is heard does: it tells so in one event, and ends the wait for its ticket. -/
structure Heard (s : Service) (t : Ticket) (es : List Effect) (s' : Service) : Prop where
  told : ∃ e, es = [.publish e]
  ended : ∃ next store, s.Becomes t.device next store s' ∧ next.ticket = none ∧
    next.generation = t.generation

theorem report_heard {x : Session} (report : m.report? = some t) (found : s.currentSession? t = some x) :
    s.Heard t (s.step m).2 (s.step m).1 := by
  obtain ⟨present, current⟩ := currentSession?_some found
  have named : x.device.key = t.device.key := session?_device present
  have generation : x.generation = t.generation := by
    simp only [Session.isCurrent, Bool.and_eq_true, beq_iff_eq] at current
    exact current.2.symm
  have ended (changed : Service) (next : Session) (sessions : changed.sessions = s.sessions)
      (mode : changed.mode = s.mode) (device : next.device = x.device) (ticket : next.ticket = none)
      (same : next.generation = x.generation) : ∃ next' store, s.Becomes t.device next' store
        (changed.setSession next) ∧ next'.ticket = none ∧ next'.generation = t.generation :=
    ⟨next, _, (Becomes.of_session? present).setSession changed next sessions mode (device ▸ named), ticket,
      same.trans generation⟩
  cases m with
  | acquire | release | expire | draft => cases report
  | completeAcquire u id now =>
    obtain rfl : u = t := Option.some.inj report
    rw [step, completeAcquire_current u id now found]
    exact ⟨⟨_, rfl⟩, ended _ _ rfl rfl rfl rfl rfl⟩
  | failAcquire u reason =>
    obtain rfl : u = t := Option.some.inj report
    simp only [step, failAcquire, found]
    exact ⟨⟨_, rfl⟩, ended _ _ rfl rfl rfl rfl rfl⟩
  | completeRelease u =>
    obtain rfl : u = t := Option.some.inj report
    simp only [step, completeRelease, dropLease, withdraw_eq, found]
    exact ⟨⟨_, rfl⟩, ended _ _ rfl rfl rfl rfl rfl⟩

theorem report_unheard (report : m.report? = some t) (lost : s.currentSession? t = none) :
    s.step m = (s, []) := by
  cases m with
  | acquire | release | expire | draft => cases report
  | completeAcquire u id now =>
    obtain rfl : u = t := Option.some.inj report
    simp only [step, completeAcquire, lost]
  | failAcquire u reason =>
    obtain rfl : u = t := Option.some.inj report
    simp only [step, failAcquire, lost]
  | completeRelease u =>
    obtain rfl : u = t := Option.some.inj report
    simp only [step, completeRelease, lost]

theorem currentSession?_none : s.currentSession? t = none ↔ (s.sessionOf t.device).isCurrent t = false := by
  cases found : s.session? t.device with
  | none => simp [currentSession?, sessionOf, found, Session.isCurrent, Session.fresh]
  | some x => simp [currentSession?, sessionOf, found]

theorem Heard.past {s' : Service} (heard : s.Heard t es s') : (s'.sessionOf t.device).Past t := by
  obtain ⟨next, store, b, ticket, generation⟩ := heard.ended
  rw [b.sessionOf_here rfl]
  exact ⟨Nat.le_of_eq generation.symm, by simp [ticket]⟩

theorem ignores_iff : s.Ignores t ↔ (s.sessionOf t.device).isCurrent t = false := by
  rw [← currentSession?_none]
  constructor
  · intro ignored
    match found : s.currentSession? t with
    | none => rfl
    | some x =>
      obtain ⟨e, told⟩ := (report_heard (m := .completeRelease t) rfl found).told
      rw [ignored (.completeRelease t) rfl] at told
      cases told
  · intro lost m report
    exact report_unheard report lost

theorem outcomes_past (s : Service) (moves : List Move) (past : (s.sessionOf t.device).Past t) :
    s.outcomes t moves = [] := by
  induction moves generalizing s with
  | nil => rfl
  | cons m rest ih =>
    have ignored : m.report? = some t → s.step m = (s, []) := ignores_iff.mpr past.not_current m
    rw [outcomes, if_neg (fun heard => heard.2 (ignored heard.1))]
    exact ih (s.step m).1 ((s.step_ticketing m t.device).past past)

/-- Of all reports about a ticket in a run one is heard at most, and it tells one outcome. -/
theorem outcomes_once (s : Service) (t : Ticket) (moves : List Move) :
    s.outcomes t moves = [] ∨ ∃ e, s.outcomes t moves = [[.publish e]] := by
  induction moves generalizing s with
  | nil => exact Or.inl rfl
  | cons m rest ih =>
    rw [outcomes]
    split
    next effective =>
      obtain ⟨report, changed⟩ := effective
      match found : s.currentSession? t with
      | none => exact absurd (report_unheard report found) changed
      | some x =>
        have heard := report_heard report found
        obtain ⟨e, told⟩ := heard.told
        exact Or.inr ⟨e, by rw [told, outcomes_past _ rest heard.past]⟩
    next => exact ih (s.step m).1

theorem initial_issued (devices : List (Scalar × Int)) (mode : Mode) (name : Scalar) :
    ((initial devices mode).sessionOf name).Issued [] :=
  ⟨.nil, by simp, by simp [sessionOf, session?, initial, Session.fresh]⟩

/-- Of the tickets that the negotiator accepted for a device, reports about all but the last come to
nothing, while the one that the session waits for is the last and is heard; and of the reports about one
ticket one is heard at most. -/
theorem run_tickets_heard_once (devices : List (Scalar × Int)) (mode : Mode) (moves : List Move)
    (name : Scalar) :
    let s := initial devices mode
    let tickets := ofDevice name (s.accepted moves)
    (tickets.Pairwise fun a b => a.generation < b.generation) ∧
    (∀ t ∈ tickets, tickets.getLast? ≠ some t → (s.run moves).1.Ignores t) ∧
    (∀ t, ((s.run moves).1.sessionOf name).ticket = some t →
      tickets.getLast? = some t ∧ ¬ (s.run moves).1.Ignores t) ∧
    ∀ t, s.outcomes t moves = [] ∨ ∃ e, s.outcomes t moves = [[.publish e]] := by
  intro s tickets
  have issued := run_issued s moves name (initial_issued devices mode name)
  rw [List.nil_append] at issued
  have current (t : Ticket) (member : t ∈ tickets) :
      ((s.run moves).1.sessionOf t.device).isCurrent t = ((s.run moves).1.sessionOf name).isCurrent t := by
    rw [sessionOf_congr _ (Scalar.isKey_iff.mp (List.mem_filter.mp member).2)]
    rfl
  refine ⟨issued.grow, ?_, ?_, fun t => outcomes_once s t moves⟩
  · intro t member old
    rw [ignores_iff, current t member]
    exact issued.not_current member old
  · intro t waiting
    obtain ⟨last, generation⟩ := issued.last t waiting
    refine ⟨last, ?_⟩
    rw [ignores_iff, current t (List.mem_of_getLast? last)]
    simp [Session.isCurrent, waiting, generation]

/-- The attempt in between was turned down and gave its number to the last one, whose report is heard. -/
theorem replaced_ticket_ignored :
    let options : Value := .map [(.str "family", .scalar (.str "ipv4"))]
    let moves : List Move := [
      .acquire (.str "eth0") options (.lenient (List.replicate 16 1)) .accepted,
      .acquire (.str "eth0") options (.lenient (List.replicate 16 2)) (.refused "down"),
      .acquire (.str "eth0") options (.lenient (List.replicate 16 3)) .accepted]
    let s := initial [(.str "eth0", 1)] .dhcp
    ∃ first last, ofDevice (.str "eth0") (s.accepted moves) = [first, last] ∧
      (s.run moves).1.Ignores first ∧ ¬ (s.run moves).1.Ignores last :=
  ⟨_, _, rfl, (run_tickets_heard_once _ _ _ (.str "eth0")).2.1 _ (by decide) (by decide),
    by rw [ignores_iff]; decide⟩

end Service

end Leasehold
