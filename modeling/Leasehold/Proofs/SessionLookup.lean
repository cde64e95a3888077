import Leasehold.Acquisition.Service

/-! Sessions by device. A device has one session at most, under every name that is one key with its
own; changing it leaves the sessions of all other devices alone. -/

namespace Leasehold

theorem Scalar.isKey_iff {a b : Scalar} : a.isKey b = true ↔ a.key = b.key := by
  simp [Scalar.isKey]

namespace Service

theorem session?_congr (s : Service) {name other : Scalar} (same : name.key = other.key) :
    s.session? name = s.session? other := by
  simp only [session?, Scalar.isKey, same]

theorem session?_device {s : Service} {name : Scalar} {x : Session} (found : s.session? name = some x) :
    x.device.key = name.key :=
  Scalar.isKey_iff.mp (List.find?_some (p := fun session : Session => session.device.isKey name) found)

def sessionOf (s : Service) (name : Scalar) : Session :=
  (s.session? name).getD (Session.fresh name)

theorem sessionOf_eq {s : Service} {name : Scalar} {x : Session} (found : s.session? name = some x) :
    s.sessionOf name = x := by
  simp [sessionOf, found]

theorem sessionOf_device (s : Service) (name : Scalar) : (s.sessionOf name).device.key = name.key := by
  cases found : s.session? name with
  | none => simp [sessionOf, found, Session.fresh]
  | some x => simpa only [sessionOf_eq found] using session?_device found

/-- The names of one device have one session, but for the name that a fresh one would get. -/
theorem sessionOf_congr (s : Service) {name other : Scalar} (same : name.key = other.key) :
    s.sessionOf name = { s.sessionOf other with device := (s.sessionOf name).device } := by
  simp only [sessionOf, s.session?_congr same]
  cases s.session? other <;> rfl

/-- The service has become another one: the session of one device is `x`, the store is `store`, and
nothing else is different. -/
structure Becomes (s : Service) (name : Scalar) (x : Session) (store : Store) (s' : Service) : Prop where
  here : ∀ other : Scalar, other.key = name.key → s'.session? other = some x
  elsewhere : ∀ other : Scalar, other.key ≠ name.key → s'.session? other = s.session? other
  store : s'.store = store
  mode : s'.mode = s.mode

variable {s s' : Service} {name : Scalar} {x : Session} {store : Store}

theorem Becomes.sessionOf_here (b : s.Becomes name x store s') {other : Scalar}
    (same : other.key = name.key) : s'.sessionOf other = x :=
  sessionOf_eq (b.here other same)

theorem Becomes.sessionOf_elsewhere (b : s.Becomes name x store s') {other : Scalar}
    (different : other.key ≠ name.key) : s'.sessionOf other = s.sessionOf other := by
  simp only [sessionOf, b.elsewhere other different]

theorem Becomes.of_session? (found : s.session? name = some x) : s.Becomes name x s.store s :=
  ⟨fun _ same => (s.session?_congr same).trans found, fun _ _ => rfl, rfl, rfl⟩

private theorem session?_append (s : Service) (x : Session) (other : Scalar) :
    ({ s with sessions := s.sessions ++ [x] } : Service).session? other =
      (s.session? other).or (if x.device.isKey other then some x else none) := by
  simp only [session?, List.find?_append, List.find?_singleton]

theorem openSession_ok {opened : Service} (ok : s.openSession name = .ok (x, opened)) :
    x = s.sessionOf name ∧ s.Becomes name x s.store opened := by
  unfold openSession at ok
  cases known : s.store.device name with
  | error fault => simp [known, bind, Except.bind] at ok
  | ok d =>
    cases found : s.session? name with
    | some old =>
      simp only [known, found, bind, Except.bind, pure, Except.pure, Except.ok.injEq, Prod.mk.injEq] at ok
      obtain ⟨rfl, rfl⟩ := ok
      exact ⟨(sessionOf_eq found).symm, .of_session? found⟩
    | none =>
      simp only [known, found, bind, Except.bind, pure, Except.pure, Except.ok.injEq, Prod.mk.injEq] at ok
      obtain ⟨rfl, rfl⟩ := ok
      refine ⟨by simp [sessionOf, found], ?_, ?_, rfl, rfl⟩
      · intro other same
        rw [session?_append, s.session?_congr same, found]
        simp [Session.fresh, Scalar.isKey, same]
      · intro other different
        rw [session?_append]
        simp [Session.fresh, Scalar.isKey, Ne.symm different]

private theorem find_replaced (sessions : List Session) (x : Session) (other : Scalar) :
    (sessions.map fun old => if old.device.isKey x.device then x else old).find?
        (fun session => session.device.isKey other) =
      if other.key = x.device.key then
        (sessions.find? fun session => session.device.isKey other).map fun _ => x
      else sessions.find? fun session => session.device.isKey other := by
  induction sessions with
  | nil => simp
  | cons old rest ih =>
    by_cases replaced : old.device.key = x.device.key <;> by_cases same : other.key = x.device.key
    · simp [Scalar.isKey, replaced, same]
    · simpa [Scalar.isKey, replaced, same, Ne.symm same] using ih
    · simpa [Scalar.isKey, replaced, same] using ih
    · by_cases hit : old.device.key = other.key
      · simp [Scalar.isKey, same, hit]
      · simpa [Scalar.isKey, replaced, same, hit] using ih

theorem Becomes.setSession {old : Session} {opened : Service} (b : s.Becomes name old store opened)
    (changed : Service) (x : Session) (sessions : changed.sessions = opened.sessions)
    (mode : changed.mode = opened.mode) (device : x.device.key = name.key) :
    s.Becomes name x changed.store (changed.setSession x) := by
  have place (other : Scalar) : (changed.setSession x).session? other =
      if other.key = name.key then (opened.session? other).map fun _ => x else opened.session? other := by
    simp only [Service.setSession, session?, sessions, find_replaced, device]
  refine ⟨?_, ?_, rfl, mode.trans b.mode⟩
  · intro other same
    rw [place, if_pos same, b.here other same, Option.map_some]
  · intro other different
    rw [place, if_neg different, b.elsewhere other different]

end Service

end Leasehold
