import Leasehold.Proofs.SourceCensus

/-! What the sources weigh. Whatever is done to the sources of a kind, each of them weighs what the lease weighed
with which its number was registered, and holds the lease of its number that was found last. The weight is that of
the lease that it holds if and only if those two weigh the same; only then the choice among the sources is one among
their leases. -/

namespace Leasehold.Updater

inductive Move
  | add (id : LeaseId)
  | clear
  | prune
deriving DecidableEq, Repr

def step (u : Updater) (table : LeaseTable) : Move → Updater
  | .add id => u.addSource table id
  | .clear => u.clearMarks
  | .prune => u.pruneSources

def run (u : Updater) (table : LeaseTable) (moves : List Move) : Updater :=
  moves.foldl (fun u move => u.step table move) u

/-- The move at a moment registered the number of a lease: it added the lease when the number was not known, and the
number has been known ever since. -/
structure Registers (u : Updater) (table : LeaseTable) (moves : List Move) (moment : Nat) (id : LeaseId) : Prop where
  added : moves[moment]? = some (.add id)
  unknown : (u.run table (moves.take moment)).knows (table.get id).seqno = false
  known : ∀ later, moment < later → later ≤ moves.length →
    (u.run table (moves.take later)).knows (table.get id).seqno = true

/-- The move at a moment found the lease that its number has now: it added the lease, and since then the marks were
not taken away and no lease of the number was added. -/
structure Finds (table : LeaseTable) (moves : List Move) (moment : Nat) (id : LeaseId) : Prop where
  added : moves[moment]? = some (.add id)
  marked : ∀ later, moment < later → moves[later]? ≠ some .clear
  latest : ∀ later other, moment < later → moves[later]? = some (.add other) →
    (table.get other).seqno ≠ (table.get id).seqno

section Moves

variable {u v : Updater} {table : LeaseTable} {moves : List Move} {move : Move} {moment : Nat} {id : LeaseId}

theorem run_append (u : Updater) (table : LeaseTable) (moves : List Move) (move : Move) :
    u.run table (moves ++ [move]) = (u.run table moves).step table move :=
  List.foldl_append

private theorem getElem?_here (moves : List Move) (move : Move) : (moves ++ [move])[moves.length]? = some move := by
  simp

private theorem getElem?_before (move : Move) (before : moment < moves.length) :
    (moves ++ [move])[moment]? = moves[moment]? :=
  List.getElem?_append_left before

private theorem moment_cases {found : Move} (present : (moves ++ [move])[moment]? = some found) :
    (moment < moves.length ∧ moves[moment]? = some found) ∨ (moment = moves.length ∧ move = found) := by
  have inside : moment < (moves ++ [move]).length := (List.getElem?_eq_some_iff.mp present).1
  rw [List.length_append, List.length_singleton] at inside
  by_cases before : moment < moves.length
  · exact Or.inl ⟨before, getElem?_before move before ▸ present⟩
  · have here : moment = moves.length := by omega
    subst here
    rw [getElem?_here] at present
    exact Or.inr ⟨rfl, Option.some.inj present⟩

private theorem inside_of_added (added : moves[moment]? = some move) : moment < moves.length :=
  (List.getElem?_eq_some_iff.mp added).1

theorem addSource_knows (u : Updater) (table : LeaseTable) (id : LeaseId) (n : Int) :
    (u.addSource table id).knows n = true ↔ u.knows n = true ∨ (table.get id).seqno = n := by
  rw [knows_iff, knows_iff, addSource_entries]
  split
  next known =>
    rw [knows_iff] at known
    constructor
    · exact Or.inl
    · rintro (old | rfl)
      · exact old
      · exact known
  next => simp [eq_comm]

/-- A move leaves the registrations that it does not undo, and adding a lease of an unknown number makes one. -/
theorem registers_append (u : Updater) (table : LeaseTable) (moves : List Move) (move : Move) (moment : Nat)
    (id : LeaseId) :
    u.Registers table (moves ++ [move]) moment id ↔
      (u.Registers table moves moment id ∧
        (u.run table (moves ++ [move])).knows (table.get id).seqno = true) ∨
      (moment = moves.length ∧ move = .add id ∧ (u.run table moves).knows (table.get id).seqno = false) := by
  have earlier (later : Nat) (inside : later ≤ moves.length) : (moves ++ [move]).take later = moves.take later :=
    List.take_append_of_le_length inside
  have whole : (moves ++ [move]).take (moves.length + 1) = moves ++ [move] := List.take_of_length_le (by simp)
  constructor
  · intro registers
    obtain ⟨before, added⟩ | ⟨rfl, added⟩ := moment_cases registers.added
    · refine Or.inl ⟨⟨added, ?_, ?_⟩, ?_⟩
      · rw [← earlier moment (by omega)]
        exact registers.unknown
      · intro later after inside
        rw [← earlier later inside]
        exact registers.known later after (by rw [List.length_append]; omega)
      · rw [← whole]
        exact registers.known (moves.length + 1) (by omega) (by simp)
    · refine Or.inr ⟨rfl, added, ?_⟩
      have unknown := registers.unknown
      rwa [earlier moves.length (Nat.le_refl _), List.take_length] at unknown
  · rintro (⟨registers, known⟩ | ⟨rfl, rfl, unknown⟩)
    · have before := inside_of_added registers.added
      refine ⟨(getElem?_before move before).trans registers.added, ?_, ?_⟩
      · rw [earlier moment (by omega)]
        exact registers.unknown
      · intro later after inside
        rw [List.length_append, List.length_singleton] at inside
        by_cases last : later = moves.length + 1
        · rw [last, whole]
          exact known
        · rw [earlier later (by omega)]
          exact registers.known later after (by omega)
    · refine ⟨getElem?_here moves _, ?_, ?_⟩
      · rw [earlier moves.length (Nat.le_refl _), List.take_length]
        exact unknown
      · intro later after inside
        rw [List.length_append, List.length_singleton] at inside
        have last : later = moves.length + 1 := by omega
        rw [last, whole, run_append]
        exact (addSource_knows _ table id _).mpr (Or.inr rfl)

/-- What was found stays so until the marks are taken away or another lease of the number is added. -/
theorem finds_append (table : LeaseTable) (moves : List Move) (move : Move) (moment : Nat) (id : LeaseId) :
    Finds table (moves ++ [move]) moment id ↔
      (Finds table moves moment id ∧ move ≠ .clear ∧
        ∀ other, move = .add other → (table.get other).seqno ≠ (table.get id).seqno) ∨
      (moment = moves.length ∧ move = .add id) := by
  constructor
  · intro finds
    obtain ⟨before, added⟩ | ⟨rfl, added⟩ := moment_cases finds.added
    · refine Or.inl ⟨⟨added, ?_, ?_⟩, ?_, ?_⟩
      · intro later after cleared
        apply finds.marked later after
        rw [getElem?_before move (inside_of_added cleared), cleared]
      · intro later other after added
        apply finds.latest later other after
        rw [getElem?_before move (inside_of_added added), added]
      · rintro rfl
        exact finds.marked moves.length before (getElem?_here moves _)
      · rintro other rfl
        exact finds.latest moves.length other before (getElem?_here moves _)
    · exact Or.inr ⟨rfl, added⟩
  · rintro (⟨finds, kept, others⟩ | ⟨rfl, rfl⟩)
    · refine ⟨(getElem?_before move (inside_of_added finds.added)).trans finds.added, ?_, ?_⟩
      · intro later after cleared
        obtain ⟨-, cleared⟩ | ⟨-, cleared⟩ := moment_cases cleared
        · exact finds.marked later after cleared
        · exact kept cleared
      · intro later other after added
        obtain ⟨-, added⟩ | ⟨-, added⟩ := moment_cases added
        · exact finds.latest later other after added
        · exact others other added
    · refine ⟨getElem?_here moves _, ?_, ?_⟩
      · intro later after cleared
        have inside := inside_of_added cleared
        rw [List.length_append, List.length_singleton] at inside
        omega
      · intro later other after added
        have inside := inside_of_added added
        rw [List.length_append, List.length_singleton] at inside
        omega

/-- Adding a lease finds it for its number, -/
theorem found_here (table : LeaseTable) (moves : List Move) (id i : LeaseId) :
    (∃ moment, Finds table (moves ++ [.add id]) moment i ∧ (table.get i).seqno = (table.get id).seqno) ↔ id = i := by
  simp only [finds_append]
  constructor
  · rintro ⟨moment, ⟨-, -, others⟩ | ⟨-, added⟩, same⟩
    · exact absurd same.symm (others id rfl)
    · exact Move.add.inj added
  · rintro rfl
    exact ⟨moves.length, Or.inr ⟨rfl, rfl⟩, rfl⟩

/-- and changes nothing for the other numbers. -/
theorem found_elsewhere {n : Int} (other : n ≠ (table.get id).seqno) (i : LeaseId) :
    (∃ moment, Finds table (moves ++ [.add id]) moment i ∧ (table.get i).seqno = n) ↔
      ∃ moment, Finds table moves moment i ∧ (table.get i).seqno = n := by
  refine exists_congr fun moment => and_congr_left fun same => ?_
  rw [finds_append]
  constructor
  · rintro (⟨finds, -⟩ | ⟨-, added⟩)
    · exact finds
    · exact absurd (Move.add.inj added ▸ same.symm) other
  · intro finds
    refine Or.inl ⟨finds, by simp, ?_⟩
    rintro j added here
    rw [← Move.add.inj added] at here
    exact other (same.symm.trans here.symm)

/-- A number is registered once at a time. -/
theorem Registers.unique {other : Nat} {id' : LeaseId} (registers : u.Registers table moves moment id)
    (registers' : u.Registers table moves other id') (same : (table.get id).seqno = (table.get id').seqno) :
    moment = other ∧ id = id' := by
  have inside := inside_of_added registers.added
  have inside' := inside_of_added registers'.added
  have together : moment = other := by
    by_contra apart
    obtain before | after := Nat.lt_or_gt_of_ne apart
    · have known := registers.known other before (by omega)
      rw [same, registers'.unknown] at known
      cases known
    · have known := registers'.known moment after (by omega)
      rw [← same, registers.unknown] at known
      cases known
  subst together
  have added := registers.added.symm.trans registers'.added
  exact ⟨rfl, Move.add.inj (Option.some.inj added)⟩

theorem Registers.knows (registers : u.Registers table moves moment id) :
    (u.run table moves).knows (table.get id).seqno = true := by
  have known := registers.known moves.length (inside_of_added registers.added) (Nat.le_refl _)
  rwa [List.take_length] at known

end Moves

/-- What the moves so far tell of the sources: when each was registered, and with which lease; which lease it holds;
and that they stand in the order of their registration. -/
structure Recorded (u : Updater) (table : LeaseTable) (moves : List Move) : Prop where
  apart : (u.run table moves).KnownApart
  registered : ∀ source ∈ (u.run table moves).sources, ∃ moment id, u.Registers table moves moment id ∧
    (table.get id).seqno = source.seqno ∧ (table.get id).weight = source.weight
  found : ∀ source ∈ (u.run table moves).sources, ∀ id, source.lease = some id ↔
    ∃ moment, Finds table moves moment id ∧ (table.get id).seqno = source.seqno
  order : ((u.run table moves).sources.map Source.seqno).Pairwise fun m n => ∀ first i second j,
    u.Registers table moves first i → u.Registers table moves second j → (table.get i).seqno = m →
    (table.get j).seqno = n → first < second

section Recorded

variable {u : Updater} {table : LeaseTable} {moves : List Move} {move : Move} {id : LeaseId}

private theorem knows_of_mem {u : Updater} {source : Source} (member : source ∈ u.sources) :
    u.knows source.seqno = true := by
  rw [← Bool.not_eq_false, knows_eq_false, not_not]
  exact List.mem_map_of_mem member

/-- The registration of a number that was known before the last move is older than that move. -/
private theorem Registers.earlier {n : Int} {moment : Nat}
    (registers : u.Registers table (moves ++ [move]) moment id) (same : (table.get id).seqno = n)
    (known : n ∈ (u.run table moves).sources.map Source.seqno) : u.Registers table moves moment id := by
  obtain ⟨registers, -⟩ | ⟨-, -, unknown⟩ := (registers_append u table moves move moment id).mp registers
  · exact registers
  · exact absurd (same ▸ known) (knows_eq_false.mp unknown)

/-- A move that registers nothing keeps the order of what it leaves. -/
private theorem Recorded.order_kept (recorded : Recorded u table moves)
    (kept : ((u.run table (moves ++ [move])).sources.map Source.seqno).Sublist
      ((u.run table moves).sources.map Source.seqno)) :
    ((u.run table (moves ++ [move])).sources.map Source.seqno).Pairwise fun m n => ∀ first i second j,
      u.Registers table (moves ++ [move]) first i → u.Registers table (moves ++ [move]) second j →
      (table.get i).seqno = m → (table.get j).seqno = n → first < second := by
  refine (recorded.order.sublist kept).imp_of_mem ?_
  intro m n member member' ordered first i second j registers registers' same same'
  exact ordered first i second j (registers.earlier same (kept.mem member))
    (registers'.earlier same' (kept.mem member')) same same'

theorem Recorded.clear (recorded : Recorded u table moves) : Recorded u table (moves ++ [.clear]) := by
  have numbers : (u.run table (moves ++ [.clear])).sources.map Source.seqno =
      (u.run table moves).sources.map Source.seqno := by
    rw [run_append]
    simp [step, clearMarks]
  refine ⟨?_, ?_, ?_, recorded.order_kept (numbers ▸ List.Sublist.refl _)⟩
  · rw [KnownApart, numbers]
    exact recorded.apart
  · intro source member
    have known := knows_of_mem member
    rw [run_append] at member
    obtain ⟨old, present, rfl⟩ := List.mem_map.mp member
    obtain ⟨moment, id, registers, same, weight⟩ := recorded.registered old present
    exact ⟨moment, id, (registers_append ..).mpr (Or.inl ⟨registers, same ▸ known⟩), same, weight⟩
  · intro source member id
    rw [run_append] at member
    obtain ⟨old, present, rfl⟩ := List.mem_map.mp member
    constructor
    · intro held
      cases held
    · rintro ⟨moment, finds, -⟩
      obtain ⟨-, kept, -⟩ | ⟨-, added⟩ := (finds_append ..).mp finds
      · exact absurd rfl kept
      · cases added

theorem Recorded.prune (recorded : Recorded u table moves) : Recorded u table (moves ++ [.prune]) := by
  have kept : (u.run table (moves ++ [.prune])).sources.Sublist (u.run table moves).sources := by
    rw [run_append]
    exact List.filter_sublist
  refine ⟨recorded.apart.sublist (kept.map _), ?_, ?_, recorded.order_kept (kept.map _)⟩
  · intro source member
    have known := knows_of_mem member
    obtain ⟨moment, id, registers, same, weight⟩ := recorded.registered source (kept.mem member)
    exact ⟨moment, id, (registers_append ..).mpr (Or.inl ⟨registers, same ▸ known⟩), same, weight⟩
  · intro source member id
    rw [recorded.found source (kept.mem member) id]
    refine exists_congr fun moment => and_congr_left fun _ => ?_
    rw [finds_append]
    simp

/-- A lease of a known number takes its place in the source that is there. -/
private theorem Recorded.refresh (recorded : Recorded u table moves)
    (known : (u.run table moves).knows (table.get id).seqno = true) : Recorded u table (moves ++ [.add id]) := by
  have sources : (u.run table (moves ++ [.add id])).sources = (u.run table moves).sources.map fun s =>
      if s.seqno = (table.get id).seqno then { s with lease := some id } else s := by
    rw [run_append, step, addSource]
    simp only [known, if_true]
    exact markFirst_eq_map id recorded.apart
  have numbers : (u.run table (moves ++ [.add id])).sources.map Source.seqno =
      (u.run table moves).sources.map Source.seqno := by
    rw [sources, List.map_map]
    refine List.map_congr_left fun s _ => ?_
    rw [Function.comp_apply]
    split <;> rfl
  refine ⟨?_, ?_, ?_, recorded.order_kept (numbers ▸ List.Sublist.refl _)⟩
  · rw [KnownApart, numbers]
    exact recorded.apart
  · intro source member
    have known := knows_of_mem member
    rw [sources] at member
    obtain ⟨old, present, rfl⟩ := List.mem_map.mp member
    obtain ⟨moment, i, registers, same, weight⟩ := recorded.registered old present
    refine ⟨moment, i, (registers_append ..).mpr (Or.inl ⟨registers, ?_⟩), ?_, ?_⟩
    · split at known <;> exact same ▸ known
    · split <;> exact same
    · split <;> exact weight
  · intro source member i
    rw [sources] at member
    obtain ⟨old, present, rfl⟩ := List.mem_map.mp member
    split
    next here => rw [here, found_here, Option.some.injEq]
    next elsewhere => rw [found_elsewhere elsewhere, recorded.found old present i]

/-- A lease of an unknown number makes a source of its own, after all others. -/
private theorem Recorded.register (recorded : Recorded u table moves)
    (unknown : (u.run table moves).knows (table.get id).seqno = false) : Recorded u table (moves ++ [.add id]) := by
  have sources : (u.run table (moves ++ [.add id])).sources = (u.run table moves).sources ++
      [⟨(table.get id).seqno, (table.get id).weight, some id⟩] := by
    rw [run_append, step, addSource]
    simp [unknown]
  have absent := knows_eq_false.mp unknown
  have other {source : Source} (member : source ∈ (u.run table moves).sources) :
      source.seqno ≠ (table.get id).seqno := by
    intro same
    exact absent (same ▸ List.mem_map_of_mem member)
  refine ⟨?_, ?_, ?_, ?_⟩
  · rw [KnownApart, sources, List.map_append, List.nodup_append]
    refine ⟨recorded.apart, by simp, ?_⟩
    intro n member m last same
    obtain rfl : m = (table.get id).seqno := List.mem_singleton.mp last
    exact absent (same ▸ member)
  · intro source member
    have known := knows_of_mem member
    rw [sources] at member
    obtain member | last := List.mem_append.mp member
    · obtain ⟨moment, i, registers, same, weight⟩ := recorded.registered source member
      exact ⟨moment, i, (registers_append ..).mpr (Or.inl ⟨registers, same ▸ known⟩), same, weight⟩
    · obtain rfl := List.mem_singleton.mp last
      exact ⟨moves.length, id, (registers_append ..).mpr (Or.inr ⟨rfl, rfl, unknown⟩), rfl, rfl⟩
  · intro source member i
    rw [sources] at member
    obtain member | last := List.mem_append.mp member
    · rw [found_elsewhere (other member), recorded.found source member i]
    · obtain rfl := List.mem_singleton.mp last
      rw [found_here, Option.some.injEq]
  · rw [sources, List.map_append, List.pairwise_append]
    refine ⟨?_, List.pairwise_singleton _ _, ?_⟩
    · refine recorded.order.imp_of_mem ?_
      intro m n member member' ordered first i second j registers registers' same same'
      exact ordered first i second j (registers.earlier same member) (registers'.earlier same' member') same same'
    · intro m member n last first i second j registers registers' same same'
      have before := inside_of_added (registers.earlier same member).added
      obtain rfl := List.mem_singleton.mp last
      obtain ⟨registers', -⟩ | ⟨here, -⟩ := (registers_append ..).mp registers'
      · have known := registers'.knows
        rw [same', unknown] at known
        cases known
      · omega

theorem run_recorded (u : Updater) (table : LeaseTable) (moves : List Move) (fresh : u.sources = []) :
    Recorded u table moves := by
  induction moves using List.reverseRecOn with
  | nil =>
    have empty : (u.run table []).sources = [] := fresh
    refine ⟨?_, ?_, ?_, ?_⟩ <;> simp [KnownApart, empty]
  | append_singleton moves move recorded =>
    cases move with
    | add id =>
      cases known : (u.run table moves).knows (table.get id).seqno with
      | true => exact recorded.refresh known
      | false => exact recorded.register known
    | clear => exact recorded.clear
    | prune => exact recorded.prune

end Recorded

/-- Every number was registered with a lease that weighs as much as the one that it has now. -/
def Steadfast (u : Updater) (table : LeaseTable) (moves : List Move) : Prop :=
  ∀ first i second j, u.Registers table moves first i → Finds table moves second j →
    (table.get i).seqno = (table.get j).seqno → (table.get i).weight = (table.get j).weight

/-- The lease that a source holds weighs more than those of the sources before it, and no less than those after it. -/
def LeadsByLease (table : LeaseTable) (sources : List Source) (source : Source) : Prop :=
  ∃ before after, sources = before ++ source :: after ∧
    (∀ other ∈ before, (other.content table).weight < (source.content table).weight) ∧
    ∀ other ∈ after, (other.content table).weight ≤ (source.content table).weight

section Choice

variable {u : Updater} {table : LeaseTable} {moves : List Move}

theorem content_of_lease {source : Source} {id : LeaseId} (held : source.lease = some id) :
    source.content table = table.get id := by
  rw [Source.content, held]
  rfl

theorem leads_iff_byLease {sources : List Source} {source : Source}
    (weights : ∀ other ∈ sources, other.weight = (other.content table).weight) :
    Leads sources source ↔ LeadsByLease table sources source := by
  refine exists_congr fun before => exists_congr fun after => and_congr_right fun split => ?_
  subst split
  have here := weights source (by simp)
  have earlier : ∀ other ∈ before, other.weight = (other.content table).weight :=
    fun other member => weights other (by simp [member])
  have later : ∀ other ∈ after, other.weight = (other.content table).weight :=
    fun other member => weights other (by simp [member])
  refine and_congr (forall₂_congr fun other member => ?_) (forall₂_congr fun other member => ?_)
  · rw [earlier other member, here]
  · rw [later other member, here]

/-- The sources weigh what the leases weigh that they hold if those weigh as much as the leases that came first. -/
theorem Recorded.weights_iff (recorded : Recorded u table moves) :
    (∀ source ∈ (u.run table moves).sources, source.seen = true → source.weight = (source.content table).weight) ↔
      u.Steadfast table moves := by
  constructor
  · intro weights first i second j registers finds same
    have member : (table.get i).seqno ∈ (u.run table moves).sources.map Source.seqno := by
      by_contra absent
      have known := registers.knows
      rw [knows_eq_false.mpr absent] at known
      cases known
    obtain ⟨source, member, number⟩ := List.mem_map.mp member
    have held : source.lease = some j := (recorded.found source member j).mpr ⟨second, finds, by rw [number, same]⟩
    have weight := weights source member (by rw [Source.seen, held]; rfl)
    rw [content_of_lease held] at weight
    obtain ⟨moment, k, registers', number', weight'⟩ := recorded.registered source member
    obtain ⟨-, rfl⟩ := registers.unique registers' (number.symm.trans number'.symm)
    rw [weight', weight]
  · intro steadfast source member seen
    obtain ⟨id, held⟩ := Option.isSome_iff_exists.mp seen
    obtain ⟨first, i, registers, number, weight⟩ := recorded.registered source member
    obtain ⟨second, finds, number'⟩ := (recorded.found source member id).mp held
    rw [content_of_lease held, ← weight]
    exact steadfast first i second id registers finds (number.trans number'.symm)

end Choice

/-- Whatever was done to the sources of a kind, each weighs what the lease weighed that registered its number and
holds the lease of its number that was found last; they stand in the order of their registration, and the first of
the heaviest that hold a lease is selected, if any does. They weigh what their present leases weigh if and only if no
number has come to a lease of another weight; then the choice is the first of the sources with the heaviest leases. -/
theorem run_weights (u : Updater) (table : LeaseTable) (moves : List Move) (fresh : u.sources = []) :
    let v := u.run table moves
    Recorded u table moves ∧
    (v.selectSource = none ↔ ∀ source ∈ v.sources, source.seen = false) ∧
    (∀ source, v.selectSource = some source ↔ Leads (v.sources.filter Source.seen) source) ∧
    ((∀ source ∈ v.sources, source.seen = true → source.weight = (source.content table).weight) ↔
      u.Steadfast table moves) ∧
    (u.Steadfast table moves → ∀ source, v.selectSource = some source ↔
      LeadsByLease table (v.sources.filter Source.seen) source) := by
  intro v
  have recorded := run_recorded u table moves fresh
  refine ⟨recorded, selectSource_eq_none, selectSource_iff, recorded.weights_iff, ?_⟩
  intro steadfast source
  rw [selectSource_iff]
  apply leads_iff_byLease
  intro other member
  obtain ⟨member, seen⟩ := List.mem_filter.mp member
  exact recorded.weights_iff.mpr steadfast other member seen

/-- A number that was given up and registered again stands behind one of the same weight that was kept. -/
theorem registered_again_behind :
    let table : LeaseTable := [{ Lease.blank .dhcp with seqno := 4 }, { Lease.blank .dhcp with seqno := 7 }]
    let u : Updater := Updater.blank .hostname
    let moves : List Move := [.add 0, .add 1, .clear, .add 1, .prune, .add 0]
    u.Steadfast table moves ∧ LeadsByLease table ((u.run table moves).sources.filter Source.seen) ⟨7, 51, some 1⟩ := by
  intro table u moves
  obtain ⟨-, -, -, weights, choice⟩ := run_weights u table moves rfl
  have steadfast : u.Steadfast table moves := weights.mp (by decide)
  exact ⟨steadfast, (choice steadfast ⟨7, 51, some 1⟩).mp (by decide)⟩

/-- A number that comes to a heavier lease weighs what the first one weighed, and is passed over for another whose
lease is lighter. -/
theorem heavier_lease_passed_over :
    let table : LeaseTable := [{ Lease.blank .dhcp with seqno := 4 }, { Lease.blank .ibft with seqno := 4 },
      { Lease.blank .ibft with seqno := 5, family := .ipv6 }]
    let v := (Updater.blank .hostname).run table [.add 0, .add 1, .add 2]
    v.sources = [⟨4, 51, some 1⟩, ⟨5, 100, some 2⟩] ∧ (table.get 1).weight = 101 ∧
      v.selectSource = some ⟨5, 100, some 2⟩ ∧ (table.get 2).weight = 100 := by
  decide

end Leasehold.Updater
