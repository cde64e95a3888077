import Leasehold.Bus.Delivery
import Mathlib.Data.List.Basic

/-! Cancelled subscriptions. An event goes to those who were subscribed when it was published, so a subscription that is
cancelled while events are on their way is still called for those that had not come to it yet. It is owed these calls
and no others, whatever the observers do meanwhile. -/

namespace Leasehold

def Frame.owed (f : Frame) (id : Nat) : List (Subscription × Event) :=
  (f.pending.filter fun s => s.id = id ∧ s.matches f.event).map (·, f.event)

namespace Delivery

/-- What can happen on a bus: a delivery goes on by a step, in which a called observer may do anything, or someone
subscribes, cancels or publishes. -/
inductive Move
  | proceed (react : Reaction)
  | subscribe (name : String) (observer : Nat) (device : Option Scalar)
  | cancel (id : Nat)
  | publish (e : Event)

def move (d : Delivery) : Move → Delivery
  | .proceed react => d.step react
  | .subscribe name observer device => { d with bus := d.bus.subscribe name observer device }
  | .cancel id => { d with bus := d.bus.unsubscribe id }
  | .publish e => d.send e

def after (d : Delivery) (moves : List Move) : Delivery := moves.foldl move d

def callsOf (d : Delivery) (id : Nat) : List (Subscription × Event) :=
  d.delivered.filter fun call => call.1.id = id

def owed (d : Delivery) (id : Nat) : List (Subscription × Event) :=
  d.stack.flatMap (Frame.owed · id)

structure Cancelled (d : Delivery) (id : Nat) : Prop where
  made : id < d.bus.issued
  gone : ∀ s ∈ d.bus.subscriptions, s.id ≠ id

variable {d next : Delivery} {id : Nat} {frame : Frame} {outer : List Frame}

theorem Cancelled.of_bus (cancelled : d.Cancelled id) (same : next.bus = d.bus) : next.Cancelled id :=
  ⟨same ▸ cancelled.made, same ▸ cancelled.gone⟩

theorem Cancelled.of_unsubscribe {b : Bus} (made : id < b.issued) (same : d.bus = b.unsubscribe id) :
    d.Cancelled id := by
  have made : id < (b.unsubscribe id).issued := made
  refine ⟨same ▸ made, fun s registered => ?_⟩
  rw [same] at registered
  exact of_decide_eq_true (List.mem_filter.mp registered).2

theorem Cancelled.unsubscribe (cancelled : d.Cancelled id) {other : Nat} (same : next.bus = d.bus.unsubscribe other) :
    next.Cancelled id := by
  have made : id < (d.bus.unsubscribe other).issued := cancelled.made
  refine ⟨same ▸ made, fun s registered => ?_⟩
  rw [same] at registered
  exact cancelled.gone s (List.mem_filter.mp registered).1

theorem Cancelled.subscribe (cancelled : d.Cancelled id) {name : String} {observer : Nat} {device : Option Scalar}
    (same : next.bus = d.bus.subscribe name observer device) : next.Cancelled id := by
  have made : id < (d.bus.subscribe name observer device).issued := Nat.lt_succ_of_lt cancelled.made
  refine ⟨same ▸ made, fun s registered => ?_⟩
  rw [same] at registered
  rcases List.mem_append.mp registered with old | new
  · exact cancelled.gone s old
  · -- Numbers are never given again.
    rw [List.mem_singleton.mp new]
    exact Nat.ne_of_gt cancelled.made

theorem Cancelled.send_owed (cancelled : d.Cancelled id) (e : Event) : (d.send e).owed id = d.owed id := by
  have unwanted : d.bus.subscriptions.filter (fun s => s.id = id ∧ s.matches e) = [] := by
    apply List.filter_eq_nil_iff.mpr
    intro s registered owed
    exact cancelled.gone s registered (of_decide_eq_true owed).1
  -- What is published now has its calls from those that are registered now.
  simp only [owed, send, List.flatMap_cons, Frame.owed, unwanted]
  rfl

/-- A cancelled subscription stays cancelled; it is called for what it is owed, in order, and for nothing else. -/
structure Keeps (d next : Delivery) (id : Nat) : Prop where
  cancelled : next.Cancelled id
  calls : ∃ made, d.owed id = made ++ next.owed id ∧ next.callsOf id = d.callsOf id ++ made

theorem Keeps.of_same (cancelled : next.Cancelled id) (delivered : next.delivered = d.delivered)
    (owed : next.owed id = d.owed id) : d.Keeps next id := by
  refine ⟨cancelled, [], owed.symm, ?_⟩
  rw [callsOf, delivered, List.append_nil, callsOf]

theorem Keeps.trans {mid : Delivery} (first : d.Keeps mid id) (last : mid.Keeps next id) : d.Keeps next id := by
  obtain ⟨early, owed, called⟩ := first.calls
  obtain ⟨late, owed', called'⟩ := last.calls
  refine ⟨last.cancelled, early ++ late, ?_, ?_⟩
  · rw [owed, owed', List.append_assoc]
  · rw [called', called, List.append_assoc]

theorem Cancelled.act (cancelled : d.Cancelled id) {e : Event} {pending : List Subscription} {acting : List Action}
    (stack : d.stack = ⟨e, pending, acting⟩ :: outer) (rest : List Action) (action : Action) :
    d.Keeps (d.act ⟨e, pending, rest⟩ outer action) id := by
  have waiting : Cancelled { d with stack := ⟨e, pending, rest⟩ :: outer } id := cancelled.of_bus rfl
  have owed : Delivery.owed { d with stack := ⟨e, pending, rest⟩ :: outer } id = d.owed id := by
    simp only [Delivery.owed, stack, List.flatMap_cons]
    rfl
  -- No action calls anyone; a publication is owed to others only.
  cases action with
  | subscribe name observer device => exact .of_same (cancelled.subscribe rfl) rfl owed
  | cancel name =>
    cases named : d.bus.idOf? name with
    | some other =>
      simp only [Delivery.act, named]
      exact .of_same (cancelled.unsubscribe rfl) rfl owed
    | none =>
      simp only [Delivery.act, named]
      exact .of_same (cancelled.of_bus rfl) rfl owed
  | publish e => exact .of_same (cancelled.of_bus rfl) rfl ((waiting.send_owed e).trans owed)
  | fail => exact .of_same (cancelled.of_bus rfl) rfl owed

theorem Cancelled.step (cancelled : d.Cancelled id) (react : Reaction) : d.Keeps (d.step react) id := by
  cases stack : d.stack with
  | nil =>
    have same : d.step react = d := by simp [Delivery.step, stack]
    rw [same]
    exact .of_same cancelled rfl rfl
  | cons frame outer =>
    obtain ⟨e, pending, acting⟩ := frame
    cases acting with
    | cons action rest =>
      have same : d.step react = d.act ⟨e, pending, rest⟩ outer action := by simp [Delivery.step, stack]
      rw [same]
      exact cancelled.act stack rest action
    | nil =>
      cases pending with
      | cons s rest =>
        by_cases wanted : s.matches e = true
        · -- The call that is made now is the first of those that are owed, if it is one of them.
          have same : d.step react = { d with
              stack := ⟨e, rest, react s e⟩ :: outer
              delivered := d.delivered ++ [(s, e)] } := by
            simp [Delivery.step, stack, wanted]
          rw [same]
          refine ⟨cancelled.of_bus rfl, if s.id = id then [(s, e)] else [], ?_, ?_⟩
          · by_cases mine : s.id = id <;> simp [Delivery.owed, stack, Frame.owed, wanted, mine]
          · by_cases mine : s.id = id <;> simp [callsOf, mine]
        · have same : d.step react = { d with stack := ⟨e, rest, []⟩ :: outer } := by
            simp [Delivery.step, stack, wanted]
          rw [same]
          refine .of_same (cancelled.of_bus rfl) rfl ?_
          simp [Delivery.owed, stack, Frame.owed, wanted]
      | nil =>
        have same : d.step react = { d with
            bus := d.bus.resolve e
            stack := outer
            resolved := d.resolved ++ (d.bus.waitersFor e).map (·, e) } := by
          simp [Delivery.step, stack]
        rw [same]
        refine .of_same ⟨cancelled.made, cancelled.gone⟩ rfl ?_
        simp [Delivery.owed, stack, Frame.owed]

theorem Cancelled.move (cancelled : d.Cancelled id) (m : Move) : d.Keeps (d.move m) id := by
  cases m with
  | proceed react => exact cancelled.step react
  | subscribe name observer device => exact .of_same (cancelled.subscribe rfl) rfl rfl
  | cancel other => exact .of_same (cancelled.unsubscribe rfl) rfl rfl
  | publish e => exact .of_same (cancelled.of_bus rfl) rfl (cancelled.send_owed e)

theorem Cancelled.after (cancelled : d.Cancelled id) (moves : List Move) : d.Keeps (d.after moves) id := by
  induction moves generalizing d with
  | nil => exact .of_same cancelled rfl rfl
  | cons m rest ih =>
    have first := cancelled.move m
    exact first.trans (ih first.cancelled)

/-- How much the called observers have still to do, and how many calls are still to be made. -/
def acts (frames : List Frame) : Nat := (frames.flatMap Frame.acting).length

def waits (frames : List Frame) : Nat := (frames.flatMap Frame.pending).length + frames.length

def silent : Reaction := fun _ _ => []

theorem act_acts (d : Delivery) (frame : Frame) (outer : List Frame) (action : Action) :
    acts (d.act frame outer action).stack ≤ acts (frame :: outer) := by
  cases action with
  | subscribe | publish => simp [act, send, acts]
  | cancel name =>
    simp only [act]
    split <;> simp [fail, acts]
  | fail => simp [act, fail, acts]

theorem step_less (some : d.stack ≠ []) :
    acts (d.step silent).stack < acts d.stack ∨
      acts (d.step silent).stack = acts d.stack ∧ waits (d.step silent).stack < waits d.stack := by
  obtain ⟨⟨e, pending, acting⟩, outer, stack⟩ := List.exists_cons_of_ne_nil some
  cases acting with
  | cons action rest =>
    left
    have same : d.step silent = d.act ⟨e, pending, rest⟩ outer action := by simp [step, stack]
    have bound := d.act_acts ⟨e, pending, rest⟩ outer action
    rw [same, stack]
    simp only [acts, List.flatMap_cons, List.length_append, List.length_cons] at bound ⊢
    omega
  | nil =>
    right
    cases pending with
    | cons s rest => by_cases wanted : s.matches e = true <;> simp [step, stack, wanted, silent, acts, waits]
    | nil => simp [step, stack, acts, waits]

/-- Every delivery can come to its end. -/
theorem exists_over (d : Delivery) : ∃ moves, (d.after moves).stack = [] := by
  by_cases ended : d.stack = []
  · exact ⟨[], ended⟩
  · -- An observer that was called does one of the things that it has to do; else a call is made or an event is done.
    obtain ⟨moves, ends⟩ := exists_over (d.step silent)
    exact ⟨.proceed silent :: moves, ends⟩
termination_by (acts d.stack, waits d.stack)
decreasing_by
  rcases step_less ended with fewer | ⟨same, fewer⟩
  · exact Prod.Lex.left _ _ fewer
  · rw [same]
    exact Prod.Lex.right _ fewer

/-- A subscription that is cancelled is called again exactly if an event is on its way to it at that time. Of the calls
that it is owed then it gets the first ones, all of them as soon as nothing is on its way any more, and none besides,
whatever the observers do and whatever is published later. -/
theorem cancelled_called_iff {b : Bus} (issued : id < b.issued) (cancel : d.bus = b.unsubscribe id) :
    (∀ moves, ∃ made, d.owed id = made ++ (d.after moves).owed id ∧
      (d.after moves).callsOf id = d.callsOf id ++ made) ∧
    (∀ moves, (d.after moves).stack = [] → (d.after moves).callsOf id = d.callsOf id ++ d.owed id) ∧
    ((∀ moves, (d.after moves).callsOf id = d.callsOf id) ↔ d.owed id = []) := by
  have cancelled : d.Cancelled id := .of_unsubscribe issued cancel
  have account (moves : List Move) := (cancelled.after moves).calls
  have whole (moves : List Move) (ended : (d.after moves).stack = []) :
      (d.after moves).callsOf id = d.callsOf id ++ d.owed id := by
    obtain ⟨made, owed, called⟩ := account moves
    have settled : (d.after moves).owed id = [] := by simp [Delivery.owed, ended]
    rw [called, owed, settled, List.append_nil]
  refine ⟨account, whole, ?_⟩
  constructor
  · -- If it is never called again, then not on a way to the end either, on which all is made that is owed.
    intro silence
    obtain ⟨moves, ended⟩ := d.exists_over
    have called := whole moves ended
    rw [silence moves] at called
    exact List.self_eq_append_right.mp called
  · intro unowed moves
    obtain ⟨made, owed, called⟩ := account moves
    rw [unowed] at owed
    rw [called, (List.append_eq_nil_iff.mp owed.symm).1, List.append_nil]

/-- An observer that cancels its own subscription when it is called for the first time. -/
theorem own_cancel_is_final :
    let told : Event := ⟨.str "eth0", .acquired, true, none, none, none⟩
    let once : Subscription := ⟨0, "once", 0, none⟩
    let react : Reaction := fun s _ => if s.id = 0 then [.cancel "once", .publish told] else []
    let d := ((ofBus ((Bus.empty.subscribe "once" 0 none).subscribe "other" 1 none)).send told).after
      [.proceed react, .proceed react]
    d.bus.isActive "once" = false ∧ d.stack.length = 1 ∧ d.owed 0 = [] ∧
      ∀ moves, (d.after moves).callsOf 0 = [(once, told)] := by
  intro told once react d
  have cancelled : d.bus = Bus.unsubscribe ((Bus.empty.subscribe "once" 0 none).subscribe "other" 1 none) 0 := by
    decide
  have unowed : d.owed 0 = [] := by decide
  have called : d.callsOf 0 = [(once, told)] := by decide
  exact ⟨by decide, by decide, unowed,
    fun moves => ((cancelled_called_iff (by decide) cancelled).2.2.mpr unowed moves).trans called⟩

/-- The first observer cancels the second one's subscription. It is inactive then, and is called nevertheless. -/
theorem called_after_cancel :
    let told : Event := ⟨.str "eth0", .acquired, true, none, none, none⟩
    let second : Subscription := ⟨1, "second", 1, none⟩
    let react : Reaction := fun s _ => if s.id = 0 then [.cancel "second"] else []
    let d := ((ofBus ((Bus.empty.subscribe "first" 0 none).subscribe "second" 1 none)).send told).run react 2
    d.bus.isActive "second" = false ∧ d.callsOf 1 = [] ∧ (d.run react 1).callsOf 1 = [(second, told)] := by
  decide

end Delivery
end Leasehold
