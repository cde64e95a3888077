import Leasehold.Proofs.EngineRuns

/-! What a host does by itself, without anybody coming to the bus or leaving it: it publishes events, and its engine
takes steps. Whatever else changes concerns neither of them. -/

namespace Leasehold

namespace Host

/-- Nothing is different of the bus, of what was published on it, and of the engine. -/
structure Aside (h next : Host) : Prop where
  bus : next.bus = h.bus
  published : next.published = h.published
  mail : next.mail = h.mail
  engine : next.engine = h.engine

/-- The host goes on by itself. -/
inductive Onward (h : Host) : Host → Prop
  | refl : Onward h h
  | aside {mid next : Host} (onward : Onward h mid) (same : mid.Aside next) : Onward h next
  | publish {mid : Host} (onward : Onward h mid) (e : Event) : Onward h (mid.publish e)
  | work {mid : Host} (onward : Onward h mid) (m : Engine.Move) :
      Onward h { mid with engine := (mid.engine.step m).1 }

/-- Scripts that run touch nothing of the host. -/
def Perform.Quiet {σ : Type} (perform : Perform σ) : Prop :=
  ∀ call w, (perform call w).2.1 = w.1

variable {h mid next : Host}

namespace Onward

theorem trans (first : h.Onward mid) (last : mid.Onward next) : h.Onward next := by
  induction last with
  | refl => exact first
  | aside _ same ih => exact ih.aside same
  | publish _ e ih => exact ih.publish e
  | work _ m ih => exact ih.work m

/-- What publishing and the work of the engine keep, the host keeps when it goes on. -/
theorem keeps {p : Host → Prop} (aside : ∀ {h next : Host}, p h → h.Aside next → p next)
    (publish : ∀ {h : Host}, p h → ∀ e, p (h.publish e))
    (work : ∀ {h : Host}, p h → ∀ m, p { h with engine := (h.engine.step m).1 })
    (onward : h.Onward next) (holds : p h) : p next := by
  induction onward with
  | refl => exact holds
  | aside _ same ih => exact aside ih same
  | publish _ e ih => exact publish ih e
  | work _ m ih => exact work ih m

theorem told (h : Host) (service : Service) (es : List Effect) : h.Onward (h.told service es) := by
  unfold Host.told
  have begun : h.Onward { h with service := service } := Onward.refl.aside ⟨rfl, rfl, rfl, rfl⟩
  exact List.foldlRecOn (motive := h.Onward) (events es) _ begun fun _ onward e _ => onward.publish e

theorem after {ε α : Type} (h : Host) (o : Outcome ε α) : h.Onward (h.after o) := by
  generalize asked : h.negotiator.advance o h.callbacks = line
  simp only [Host.after, asked]
  have begun : h.Onward { h with callbacks := line.2 } := Onward.refl.aside ⟨rfl, rfl, rfl, rfl⟩
  exact begun.trans (told _ line.1 o.effects)

theorem report (h : Host) : h.Onward h.report := by
  unfold Host.report
  split
  · exact .refl
  next c rest _ =>
    have begun : h.Onward { h with callbacks := rest } := Onward.refl.aside ⟨rfl, rfl, rfl, rfl⟩
    exact begun.trans (told _ _ _)

theorem reportAll (h : Host) : h.Onward h.reportAll :=
  List.foldlRecOn (motive := h.Onward) h.callbacks _ .refl fun mid onward _ _ => onward.trans (report mid)

theorem configure (h : Host) : h.Onward h.configure :=
  (Onward.refl.work .configure).aside ⟨rfl, rfl, rfl, rfl⟩

theorem beginPass (h : Host) : h.Onward h.beginPass :=
  (Onward.refl.work (.begin h.store)).aside ⟨rfl, rfl, rfl, rfl⟩

theorem resumePass (h : Host) (result : RunResult) : h.Onward (h.resumePass result) :=
  (Onward.refl.work (.resume h.store.table result)).aside ⟨rfl, rfl, rfl, rfl⟩

theorem complete {who : Requester} {result : PassResult} {engine : Engine}
    (completed : h.engine.complete? = some (who, result, engine)) : h.Onward { h with engine := engine } := by
  have done : (h.engine.step .complete).1 = engine := by simp [Engine.step, completed]
  exact done ▸ Onward.refl.work .complete

section

variable {σ : Type} {perform : Perform σ}

theorem runScripts (quiet : perform.Quiet) (fuel : Nat) (w : Host × σ) :
    w.1.Onward (runScripts perform fuel w).1 := by
  induction fuel generalizing w with
  | zero => exact .refl
  | succ fuel ih =>
    simp only [Host.runScripts]
    split
    · exact .refl
    next call _ =>
      have same : (perform call w).2.1 = w.1 := quiet call w
      have resumed := resumePass (perform call w).2.1 (perform call w).1
      rw [same] at resumed
      exact resumed.trans (same ▸ ih ((perform call w).2.1.resumePass (perform call w).1, (perform call w).2.2))

theorem runPasses (quiet : perform.Quiet) (fuel : Nat) (w : Host × σ) :
    w.1.Onward (runPasses perform fuel w).2.1 := by
  induction fuel generalizing w with
  | zero => exact .refl
  | succ fuel ih =>
    have run := (beginPass w.1).trans (runScripts quiet scriptLimit (w.1.beginPass, w.2))
    simp only [Host.runPasses]
    generalize Host.runScripts perform scriptLimit (w.1.beginPass, w.2) = w at run ⊢
    split
    · exact run
    next who result engine completed =>
      exact run.trans ((complete completed).trans (ih ({ w.1 with engine := engine }, w.2)))

theorem reconcile (quiet : perform.Quiet) (count more : Nat) (w : Host × σ) :
    w.1.Onward (reconcile perform count more w).2.1 := by
  have asked : w.1.Onward { w.1 with engine := (List.range count).foldl Engine.request w.1.engine } :=
    List.foldlRecOn (motive := fun e : Engine => w.1.Onward { w.1 with engine := e }) (List.range count) _ .refl
      fun _ onward name _ => onward.work (.request name)
  exact asked.trans (runPasses quiet _ ({ w.1 with engine := _ }, w.2))

theorem settle (quiet : perform.Quiet) (w : Host × σ) : w.1.Onward (settle perform w).1 := by
  simp only [Host.settle, Host.drain]
  split
  · exact reportAll w.1
  next =>
    have woken := (reportAll w.1).work .wake
    exact woken.trans (runPasses quiet _ ({ w.1.reportAll with engine := _ }, w.2))

end

theorem step (h : Host) (m : Move) (wired : ∀ bus, m ≠ .rewire bus) : h.Onward (h.step m).1 := by
  cases m with
  | serve m => exact told h _ _
  | rewire bus => exact absurd rfl (wired bus)
  | configure => exact configure h
  | wake => exact Onward.refl.work .wake
  | request name => exact Onward.refl.work (.request name)
  | begin => exact beginPass h
  | resume result => exact resumePass h result
  | complete =>
    simp only [Host.step]
    split
    next completed => exact complete completed
    next => exact .refl

end Onward

end Host

end Leasehold
