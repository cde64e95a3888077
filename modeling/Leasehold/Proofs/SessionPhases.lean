import Leasehold.Proofs.ServiceMoves

/-! Phases. A session's phase says whether it has a ticket and a lease, and a ticket that is waited for is
the session's own. -/

namespace Leasehold

/-- The phase of a session tells what it holds and what it waits for. -/
structure Session.Sound (x : Session) : Prop where
  idle : x.phase = .idle → x.ticket = none ∧ x.lease = none
  bound : x.phase = .bound → x.lease.isSome ∧ x.ticket = none
  releasing : x.phase = .releasing → x.lease.isSome ∧ x.ticket.isSome
  acquiring : x.phase = .acquiring → x.ticket.isSome
  ticket : ∀ t, x.ticket = some t → t.device.key = x.device.key ∧ t.generation = x.generation

theorem Session.Sound.fresh (name : Scalar) : (Session.fresh name).Sound := by
  constructor <;> simp [Session.fresh]

theorem Session.Sound.emptied (x : Session) : (Service.emptied x).Sound := by
  constructor <;> simp [Service.emptied]

theorem Session.inFlight?_some {x : Session} {t : Ticket} (waiting : x.inFlight? = some t) :
    x.phase = .acquiring ∧ x.ticket = some t := by
  unfold Session.inFlight? at waiting
  split at waiting
  next phase => exact ⟨phase, waiting⟩
  next => cases waiting

namespace Service

variable {s s' : Service} {m : Move} {name : Scalar} {x next : Session} {store : Store} {es : List Effect}

theorem Turn.sound (turn : s.Turn m name x next store es) (sound : x.Sound) (named : x.device.key = name.key) :
    next.Sound := by
  cases turn with
  | kept => exact sound
  | finished phase => exact .emptied x
  | refused t ask asked reply => exact sound
  | started request reply phase =>
    constructor <;> simp [Session.attempt, named]
  | releasing id held reply phase =>
    constructor <;> simp [Session.attempt, named, held]
  | cancelled t empty waiting => constructor <;> simp [empty]
  | outlived id held t waiting =>
    obtain ⟨phase, ticket⟩ := Session.inFlight?_some waiting
    constructor <;> simp [phase]
    · simp [ticket]
    · simpa using sound.ticket
  | expired id held waiting => exact .emptied _
  | obtained id t now handed device current => constructor <;> simp
  | failed t reason current =>
    cases x.lease <;> constructor <;> simp
  | returned t current => exact .emptied x

def SessionsSound (s : Service) : Prop := ∀ name, (s.sessionOf name).Sound

theorem Turned.sessions_sound (turned : s.Turned m name es s') (sound : s.SessionsSound) : s'.SessionsSound := by
  obtain ⟨next, store, turn, b⟩ := turned
  intro other
  by_cases same : other.key = name.key
  · rw [b.sessionOf_here same]
    exact turn.sound (sound name) (s.sessionOf_device name)
  · rw [b.sessionOf_elsewhere same]
    exact sound other

theorem step_sessions_sound (sound : s.SessionsSound) (m : Move) : (s.step m).1.SessionsSound := by
  have moved := s.step_moved m
  generalize (s.step m).1 = s', (s.step m).2 = es at moved ⊢
  cases moved with
  | still => exact sound
  | drafted id lease same => exact sound
  | turn name turned => exact turned.sessions_sound sound
  | turns name free phase ended last =>
    exact last.sessions_sound ((Moved.first_turn s m phase ended).sessions_sound sound)

theorem run_sessions_sound (sound : s.SessionsSound) (moves : List Move) : (s.run moves).1.SessionsSound := by
  induction moves generalizing s with
  | nil => exact sound
  | cons m rest ih => exact ih (step_sessions_sound sound m)

theorem initial_sessions_sound (devices : List (Scalar × Int)) (mode : Mode) :
    (initial devices mode).SessionsSound := fun name => .fresh name

end Service

end Leasehold
