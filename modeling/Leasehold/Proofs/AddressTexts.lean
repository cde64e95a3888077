import Leasehold.Address
import Leasehold.Proofs.Readings
import Leasehold.Proofs.WordsAndLines
import Mathlib.Algebra.Group.Nat.Defs
import Mathlib.Data.List.GetD
import Mathlib.Data.List.TakeWhile

/-! Addresses as text, there and back. However an address is spelled, what is read holds four octets or eight groups,
and from its written form it is read again: the gap in it stands for exactly the zero groups that are left out. An
address is written as a word, but for what follows its percent sign. -/

namespace Leasehold

namespace Text

variable {c separator : Char} {cs : List Char}

theorem splitAt_eq (separator : Char) (cs : List Char) : splitAt separator cs = cs.splitOnP (· == separator) := by
  induction cs with
  | nil => rfl
  | cons c rest ih =>
    rw [splitAt, ih, List.splitOnP_cons_eq_if_modifyHead]
    split
    next => rfl
    next =>
      obtain ⟨part, parts, shape⟩ := List.exists_cons_of_ne_nil (List.splitOnP_ne_nil (· == separator) rest)
      rw [shape, List.modifyHead_cons]

theorem splitAt_ne_nil (separator : Char) (cs : List Char) : splitAt separator cs ≠ [] :=
  splitAt_eq separator cs ▸ List.splitOnP_ne_nil _ cs

theorem splitAt_append (separator : Char) (before after : List Char) :
    splitAt separator (before ++ separator :: after) = splitAt separator before ++ splitAt separator after := by
  simp only [splitAt_eq]
  exact List.splitOnP_append_cons before after (by simp)

theorem splitAt_absent (absent : separator ∉ cs) : splitAt separator cs = [cs] := by
  rw [splitAt_eq]
  refine List.splitOnP_eq_singleton fun c member => beq_eq_false_iff_ne.mpr ?_
  rintro rfl
  exact absent member

/-- Parts that were joined come apart again. -/
theorem splitAt_join {parts : List String} (filled : parts ≠ []) (absent : ∀ part ∈ parts, separator ∉ part.toList) :
    splitAt separator (join (String.singleton separator) parts).toList = parts.map String.toList := by
  induction parts with
  | nil => exact absurd rfl filled
  | cons part rest ih =>
    obtain ⟨first, others⟩ := List.forall_mem_cons.mp absent
    cases rest with
    | nil => exact splitAt_absent first
    | cons next rest =>
      have cut : (join (String.singleton separator) (part :: next :: rest)).toList =
          part.toList ++ separator :: (join (String.singleton separator) (next :: rest)).toList := by
        simp [join]
      rw [cut, splitAt_append, splitAt_absent first, ih (List.cons_ne_nil _ _) others]
      rfl

/-- The parts hold all characters but the separator. -/
theorem mem_splitAt : (∃ part ∈ splitAt separator cs, c ∈ part) ↔ c ∈ cs ∧ c ≠ separator := by
  induction cs with
  | nil => simp [splitAt]
  | cons d rest ih =>
    rw [splitAt]
    split
    next cut =>
      rw [beq_iff_eq.mp cut]
      simp only [List.mem_cons, exists_eq_or_imp, List.not_mem_nil, false_or, ih]
      exact ⟨fun ⟨later, apart⟩ => ⟨Or.inr later, apart⟩, fun ⟨either, apart⟩ => ⟨either.resolve_left apart, apart⟩⟩
    next whole =>
      obtain ⟨part, parts, shape⟩ := List.exists_cons_of_ne_nil (splitAt_ne_nil separator rest)
      have other : d ≠ separator := by simpa using whole
      rw [shape] at ih ⊢
      simp only [List.mem_cons, exists_eq_or_imp] at ih ⊢
      rw [or_assoc, ih]
      constructor
      · rintro (rfl | ⟨later, apart⟩)
        · exact ⟨Or.inl rfl, other⟩
        · exact ⟨Or.inr later, apart⟩
      · rintro ⟨rfl | later, apart⟩
        · exact Or.inl rfl
        · exact Or.inr ⟨later, apart⟩

theorem intercalate_splitAt (separator : Char) (cs : List Char) :
    [separator].intercalate (splitAt separator cs) = cs := by
  rw [splitAt_eq]
  exact List.intercalate_splitOn separator

theorem Avoids.absent {s : String} (avoids : Avoids (· == c) s) : c ∉ s.toList := by
  intro member
  simpa using avoids c member

end Text

namespace Address

open Reading (mapM_eq_some length_of_mapM exists_of_mapM)

structure Octets (octets : List Nat) : Prop where
  four : octets.length = 4
  small : ∀ octet ∈ octets, octet ≤ 255

structure Groups (groups : List Nat) : Prop where
  eight : groups.length = 8
  small : ∀ group ∈ groups, group < 65536

/-- What may follow a percent sign. -/
structure Zone (zone : String) : Prop where
  filled : zone ≠ ""
  plain : ∀ c ∈ zone.toList, c ≠ '%' ∧ c ≠ '/'

def Sound : Address → Prop
  | .v4 octets => Octets octets
  | .v6 groups zone => Groups groups ∧ ∀ z ∈ zone, Zone z

inductive Spelled (cs : List Char) : Address → Prop
  | v4 {octets : List Nat} (read : octets? cs = some octets) : Spelled cs (.v4 octets)
  | v6 {groups : List Nat} (read : groups? cs = some groups) : Spelled cs (.v6 groups none)
  | zoned {groups : List Nat} {address : List Char} {zone : String} (cut : cs = address ++ '%' :: zone.toList)
      (filled : zone ≠ "") (plain : '%' ∉ zone.toList) (read : groups? address = some groups) :
      Spelled cs (.v6 groups (some zone))

section Reading

variable {cs : List Char} {n : Nat} {groups octets : List Nat} {s z : String} {a : Address}

theorem octet?_small (read : octet? cs = some n) : n ≤ 255 ∧ ∀ c ∈ cs, Text.isAsciiDigit c = true := by
  simp only [octet?] at read
  split at read
  next => cases read
  next plain =>
    split at read
    next => cases read
    next =>
      split at read
      next small =>
        rw [← Option.some.inj read]
        have digits : (cs.all Text.isAsciiDigit) = true := by
          cases all : cs.all Text.isAsciiDigit with
          | true => rfl
          | false => simp [all] at plain
        exact ⟨small, List.all_eq_true.mp digits⟩
      next => cases read

theorem octets?_sound (read : octets? cs = some octets) : Octets octets := by
  simp only [octets?] at read
  split at read
  next four =>
    refine ⟨(length_of_mapM read).trans (beq_iff_eq.mp four), fun octet member => ?_⟩
    obtain ⟨part, -, digits⟩ := exists_of_mapM read octet member
    exact (octet?_small digits).1
  next => cases read

/-- Between points there are only digits. -/
theorem octets?_plain (read : octets? cs = some octets) : ':' ∉ cs := by
  simp only [octets?] at read
  split at read
  next =>
    intro colon
    obtain ⟨part, listed, member⟩ := Text.mem_splitAt.mpr ⟨colon, (by decide : ':' ≠ '.')⟩
    have digits : octet? part ∈ octets.map some := by
      rw [← mapM_eq_some.mp read]
      exact List.mem_map_of_mem listed
    obtain ⟨octet, -, digits⟩ := List.mem_map.mp digits
    exact absurd ((octet?_small digits.symm).2 ':' member) (by decide)
  next => cases read

def shiftIn (n : Option Nat) (c : Char) : Option Nat := do
  return 16 * (← n) + (← Hex.value? c)

theorem foldl_shiftIn_none (cs : List Char) : cs.foldl shiftIn none = none := by
  induction cs with
  | nil => rfl
  | cons c rest ih => exact ih

theorem foldl_shiftIn_lt {bound m : Nat} (small : n < bound) (read : cs.foldl shiftIn (some n) = some m) :
    m < bound * 16 ^ cs.length := by
  induction cs generalizing n bound with
  | nil =>
    cases read
    simpa using small
  | cons c rest ih =>
    rw [List.foldl_cons] at read
    cases digit : Hex.value? c with
    | none =>
      have stuck : shiftIn (some n) c = none := by simp [shiftIn, digit]
      rw [stuck, foldl_shiftIn_none] at read
      cases read
    | some d =>
      have fits := Hex.value?_lt digit
      have shifted : shiftIn (some n) c = some (16 * n + d) := by simp [shiftIn, digit]
      rw [shifted] at read
      rw [List.length_cons, Nat.pow_succ', ← Nat.mul_assoc]
      exact ih (by omega) read

theorem foldl_shiftIn_toDigits (n : Nat) : (Nat.toDigits 16 n).foldl shiftIn (some 0) = some n := by
  induction n using Nat.strongRecOn with
  | ind n ih =>
    rw [Nat.toDigits_eq_if (by decide)]
    split
    next one => simp [shiftIn, Hex.value?_digitChar n one]
    next more =>
      have low := Hex.value?_digitChar (n % 16) (by omega)
      rw [List.foldl_append, ih (n / 16) (by omega)]
      simp [shiftIn, low, Nat.div_add_mod]

theorem group?_small (read : group? cs = some n) : n < 65536 := by
  unfold group? at read
  split at read
  next => cases read
  next short =>
    have digits : cs.length ≤ 4 := by
      simp only [Bool.or_eq_true, decide_eq_true_eq, not_or] at short
      omega
    calc
      n < 1 * 16 ^ cs.length := foldl_shiftIn_lt Nat.one_pos read
      _ ≤ 65536 := by
        rw [Nat.one_mul]
        exact Nat.pow_le_pow_right (by decide) digits

theorem group?_toDigits (small : n < 65536) : group? (Nat.toDigits 16 n) = some n := by
  have short : (Nat.toDigits 16 n).length ≤ 4 := (Nat.length_toDigits_le_iff (by decide) (by decide)).mpr small
  have filled : Nat.toDigits 16 n ≠ [] := Nat.toDigits_ne_nil
  unfold group?
  rw [if_neg (by simpa [filled] using short)]
  exact foldl_shiftIn_toDigits n

theorem mapM_group?_small {parts : List (List Char)} (read : parts.mapM group? = some groups) :
    ∀ group ∈ groups, group < 65536 := by
  intro group member
  obtain ⟨part, -, digits⟩ := exists_of_mapM read group member
  exact group?_small digits

theorem side?_small {outerEmpty : Bool} {parts : List (List Char)} (read : side? outerEmpty parts = some groups) :
    ∀ group ∈ groups, group < 65536 := by
  unfold side? at read
  split at read
  next =>
    split at read
    next =>
      cases read
      simp
    next => cases read
  next => exact mapM_group?_small read

theorem groups?_sound (read : groups? cs = some groups) : Groups groups := by
  unfold groups? at read
  obtain ⟨parts, -, read⟩ := Option.bind_eq_some_iff.mp read
  split at read
  next => cases read
  next =>
    split at read
    next =>
      split at read
      next eight =>
        exact ⟨(length_of_mapM read).trans (beq_iff_eq.mp eight), mapM_group?_small read⟩
      next => cases read
    next =>
      obtain ⟨high, above, read⟩ := Option.bind_eq_some_iff.mp read
      obtain ⟨low, below, read⟩ := Option.bind_eq_some_iff.mp read
      simp only at read
      split at read
      next few =>
        rw [← Option.some.inj read]
        constructor
        · simp only [List.length_append, List.length_replicate]
          omega
        · intro group member
          rcases List.mem_append.mp member with front | back
          · rcases List.mem_append.mp front with given | zero
            · exact side?_small above group given
            · rw [List.eq_of_mem_replicate zero]
              decide
          · exact side?_small below group back
      next => cases read
    next => cases read

theorem parse?_spelled (read : parse? s = some a) : '/' ∉ s.toList ∧ Spelled s.toList a := by
  simp only [parse?] at read
  split at read
  next => cases read
  next whole =>
    refine ⟨by simpa using whole, ?_⟩
    split at read
    next octets four =>
      cases read
      exact .v4 four
    next =>
      have joined := Text.intercalate_splitAt '%' s.toList
      unfold v6? at read
      split at read
      next address cut =>
        obtain ⟨groups, eight, rfl⟩ := Option.map_eq_some_iff.mp read
        have same : address = s.toList := by simpa [cut] using joined
        exact .v6 (same ▸ eight)
      next address zone cut =>
        split at read
        next => cases read
        next filled =>
          obtain ⟨groups, eight, rfl⟩ := Option.map_eq_some_iff.mp read
          have parts : s.toList = address ++ '%' :: (String.ofList zone).toList := by simpa [cut] using joined.symm
          refine .zoned parts (by simpa using filled) ?_ eight
          intro member
          rw [String.toList_ofList] at member
          have part : ∃ part ∈ Text.splitAt '%' s.toList, '%' ∈ part := ⟨zone, by simp [cut], member⟩
          exact (Text.mem_splitAt.mp part).2 rfl
      next => cases read

theorem parse?_sound (read : parse? s = some a) : a.Sound := by
  obtain ⟨whole, spelled⟩ := parse?_spelled read
  cases spelled with
  | v4 four => exact octets?_sound four
  | v6 eight => exact ⟨groups?_sound eight, by simp⟩
  | zoned cut filled plain eight =>
    refine ⟨groups?_sound eight, fun z named => ?_⟩
    obtain rfl := Option.some.inj named
    refine ⟨filled, fun c member => ⟨fun mark => plain (mark ▸ member), fun slash => whole ?_⟩⟩
    simp [cut, slash ▸ member]

/-- A zone is what follows the percent sign. -/
theorem parse?_zone (read : parse? s = some (.v6 groups (some z))) :
    ∃ address, s.toList = address ++ '%' :: z.toList := by
  cases (parse?_spelled read).2 with
  | zoned cut => exact ⟨_, cut⟩

end Reading

section Writing

variable {p : Char → Bool} {octets groups high low : List Nat} {cs : List Char} {zone : String}

theorem octet?_toDigits : ∀ n ≤ 255, octet? (Nat.toDigits 10 n) = some n := by decide +kernel

/-- Nothing but digits and points is written for octets. -/
theorem octetsText_avoids (point : p '.' = false) (digit : ∀ d < 10, p d.digitChar = false) (octets : List Nat) :
    Text.Avoids p (Text.join "." (octets.map toString)) := by
  have mark : Text.Avoids p "." := by simpa [Text.Avoids] using point
  refine Text.Avoids.join mark fun part member => ?_
  obtain ⟨n, -, rfl⟩ := List.mem_map.mp member
  exact Text.digits_avoid (by decide) digit n

theorem octets?_text (sound : Octets octets) :
    octets? (Text.join "." (octets.map toString)).toList = some octets := by
  have filled : octets.map toString ≠ [] := List.ne_nil_of_length_pos (by rw [List.length_map, sound.four]; decide)
  have absent : ∀ part ∈ octets.map toString, '.' ∉ part.toList := by
    intro part member
    obtain ⟨n, -, rfl⟩ := List.mem_map.mp member
    exact (Text.digits_avoid (p := (· == '.')) (by decide) (by decide) n).absent
  have cut : Text.splitAt '.' (Text.join "." (octets.map toString)).toList = octets.map (Nat.toDigits 10) := by
    refine (Text.splitAt_join filled absent).trans ?_
    rw [List.map_map]
    exact List.map_congr_left fun n _ => String.toList_ofList
  have back : (octets.map (Nat.toDigits 10)).mapM octet? = some octets := by
    rw [mapM_eq_some, List.map_map]
    exact List.map_congr_left fun n member => octet?_toDigits n (sound.small n member)
  simp only [octets?, cut, List.length_map, sound.four, back]
  rfl

/-- A longest run of zero groups is a run of zero groups. -/
theorem longestZeroRun_run {place start length : Nat} (found : longestZeroRun place groups = (start, length))
    (some : 0 < length) :
    ∃ high low, groups = high ++ List.replicate length 0 ++ low ∧ start = place + high.length := by
  induction groups generalizing place with
  | nil =>
    cases found
    cases some
  | cons g rest ih =>
    simp only [longestZeroRun] at found
    split at found
    next =>
      obtain ⟨rfl, rfl⟩ := Prod.mk.inj found
      have zeros : (g :: rest).takeWhile (· == 0) = List.replicate (zeroRun (g :: rest)) 0 :=
        List.eq_replicate_iff.mpr ⟨rfl, fun n member => by simpa using List.mem_takeWhile_imp member⟩
      refine ⟨[], (g :: rest).dropWhile (· == 0), ?_, rfl⟩
      rw [← zeros, List.nil_append, List.takeWhile_append_dropWhile]
    next =>
      obtain ⟨high, low, split, rfl⟩ := ih found
      refine ⟨g :: high, low, congrArg (g :: ·) split, ?_⟩
      rw [List.length_cons]
      omega

/-- Groups are written one by one, or on two sides of a gap that stands for zeros. -/
theorem groupsText_cases (groups : List Nat) :
    groupsText groups = Text.join ":" (groups.map groupText) ∨
      ∃ high low run, groups = high ++ List.replicate run 0 ++ low ∧ 2 ≤ run ∧
        groupsText groups = Text.join ":" (high.map groupText) ++ "::" ++ Text.join ":" (low.map groupText) := by
  rcases found : longestZeroRun 0 groups with ⟨start, run⟩
  by_cases short : run ≤ 1
  · left
    simp only [groupsText, found, if_pos short]
  · right
    obtain ⟨high, low, rfl, rfl⟩ := longestZeroRun_run found (by omega)
    refine ⟨high, low, run, rfl, by omega, ?_⟩
    have above : (high ++ List.replicate run 0 ++ low).take high.length = high := by simp
    have below : (high ++ List.replicate run 0 ++ low).drop (high.length + run) = low :=
      List.drop_left' (by simp)
    simp only [groupsText, found, Nat.zero_add, above, below, if_neg short]

def sideTexts : List Nat → List (List Char)
  | [] => [[]]
  | g :: rest => (g :: rest).map (Nat.toDigits 16)

theorem groupText_absent (n : Nat) : ':' ∉ (groupText n).toList :=
  (Text.digits_avoid (p := (· == ':')) (by decide) (by decide) n).absent

theorem splitAt_side (groups : List Nat) :
    Text.splitAt ':' (Text.join ":" (groups.map groupText)).toList = sideTexts groups := by
  cases groups with
  | nil => rfl
  | cons g rest =>
    have absent : ∀ part ∈ (g :: rest).map groupText, ':' ∉ part.toList := by
      intro part member
      obtain ⟨n, -, rfl⟩ := List.mem_map.mp member
      exact groupText_absent n
    refine (Text.splitAt_join (by simp) absent).trans ?_
    rw [List.map_map]
    exact List.map_congr_left fun n _ => String.toList_ofList

theorem sideTexts_length (groups : List Nat) : (sideTexts groups).length = max 1 groups.length := by
  cases groups with
  | nil => rfl
  | cons g rest =>
    simp only [sideTexts, List.length_map, List.length_cons]
    omega

theorem sideTexts_filled (some : groups ≠ []) : ∀ part ∈ sideTexts groups, part ≠ [] := by
  cases groups with
  | nil => exact absurd rfl some
  | cons g rest =>
    intro part member
    obtain ⟨n, -, rfl⟩ := List.mem_map.mp member
    exact Nat.toDigits_ne_nil

theorem mapM_group?_side (some : groups ≠ []) (small : ∀ group ∈ groups, group < 65536) :
    (sideTexts groups).mapM group? = Option.some groups := by
  cases groups with
  | nil => exact absurd rfl some
  | cons g rest =>
    rw [sideTexts, mapM_eq_some, List.map_map]
    exact List.map_congr_left fun n member => group?_toDigits (small n member)

/-- A side is read from its parts, and it is empty if the part at its outer end is. -/
theorem side?_sideTexts {outer : Option (List Char)} (listed : ∃ part ∈ sideTexts groups, outer = some part)
    (small : ∀ group ∈ groups, group < 65536) : side? (outer == some []) (sideTexts groups) = some groups := by
  obtain ⟨part, member, rfl⟩ := listed
  by_cases none : groups = []
  · rw [none] at member ⊢
    rw [List.mem_singleton.mp member]
    rfl
  · have filled : part ≠ [] := sideTexts_filled none part member
    have given : (some part == some ([] : List Char)) = false := by simpa using filled
    rw [given]
    exact mapM_group?_side none small

theorem mem_gaps {parts : List (List Char)} {i : Nat} :
    i ∈ gaps parts ↔ 0 < i ∧ i + 1 < parts.length ∧ parts[i]? = some [] := by
  simp only [gaps, List.mem_filter, List.mem_range, Bool.and_eq_true, decide_eq_true_eq, List.isEmpty_iff]
  constructor
  · rintro ⟨inside, ⟨some, before⟩, empty⟩
    rw [List.getD_eq_getElem _ _ inside] at empty
    exact ⟨some, before, by rw [List.getElem?_eq_getElem inside, empty]⟩
  · rintro ⟨some, before, empty⟩
    have inside : i < parts.length := by omega
    rw [List.getElem?_eq_getElem inside] at empty
    exact ⟨inside, ⟨some, before⟩, (List.getD_eq_getElem _ _ inside).trans (Option.some.inj empty)⟩

/-- An empty part is the only one of its side. -/
theorem sideTexts_empty {i : Nat} (empty : (sideTexts groups)[i]? = some []) : (sideTexts groups).length = 1 := by
  cases groups with
  | nil => rfl
  | cons g rest => exact absurd rfl (sideTexts_filled (List.cons_ne_nil g rest) [] (List.mem_of_getElem? empty))

theorem gaps_sideTexts (some : groups ≠ []) : gaps (sideTexts groups) = [] := by
  refine List.eq_nil_iff_forall_not_mem.mpr fun i gap => ?_
  obtain ⟨-, -, empty⟩ := mem_gaps.mp gap
  exact sideTexts_filled some [] (List.mem_of_getElem? empty) rfl

/-- Between two sides there is one gap: an empty part at an outer end is none. -/
theorem gaps_sides (high low : List Nat) :
    gaps (sideTexts high ++ [] :: sideTexts low) = [(sideTexts high).length] := by
  have only (i : Nat) : i ∈ gaps (sideTexts high ++ [] :: sideTexts low) ↔ i ∈ [(sideTexts high).length] := by
    rw [mem_gaps, List.mem_singleton, List.length_append, List.length_cons]
    constructor
    · rintro ⟨inner, inside, empty⟩
      rcases Nat.lt_trichotomy i (sideTexts high).length with left | same | right
      · rw [List.getElem?_append_left left] at empty
        have one := sideTexts_empty empty
        omega
      · exact same
      · obtain ⟨j, rfl⟩ := Nat.exists_eq_add_of_lt right
        have place : (sideTexts high).length + j + 1 - (sideTexts high).length = j + 1 := by omega
        rw [List.getElem?_append_right (by omega), place, List.getElem?_cons_succ] at empty
        have one := sideTexts_empty empty
        omega
    · rintro rfl
      have above := sideTexts_length high
      have below := sideTexts_length low
      refine ⟨by omega, by omega, ?_⟩
      rw [List.getElem?_append_right (Nat.le_refl _), Nat.sub_self]
      rfl
  have distinct : (gaps (sideTexts high ++ [] :: sideTexts low)).Nodup := List.nodup_range.filter _
  exact List.perm_singleton.mp ((List.perm_ext_iff_of_nodup distinct (by simp)).mpr only)

/-- Parts without points are groups as they stand. -/
theorem groupTexts?_plain {parts : List (List Char)} (cut : Text.splitAt ':' cs = parts) (several : 3 ≤ parts.length)
    (plain : '.' ∉ cs) : groupTexts? cs = some parts := by
  obtain ⟨last, ends⟩ : ∃ last, parts.getLast? = some last := by
    cases present : parts.getLast? with
    | none => simp [List.getLast?_eq_none_iff.mp present] at several
    | some last => exact ⟨last, rfl⟩
  have whole : last.contains '.' = false := by
    refine Bool.eq_false_iff.mpr fun point => plain ?_
    have part : ∃ part ∈ Text.splitAt ':' cs, '.' ∈ part :=
      ⟨last, cut ▸ List.mem_of_getLast? ends, by simpa using point⟩
    exact (Text.mem_splitAt.mp part).1
  simp only [groupTexts?, cut, ends, if_neg (Nat.not_lt.mpr several), whole]
  rfl

/-- Nothing but digits and colons is written for groups. -/
theorem groupsText_avoids (colon : p ':' = false) (digit : ∀ d < 16, p d.digitChar = false) (groups : List Nat) :
    Text.Avoids p (groupsText groups) := by
  have mark : Text.Avoids p ":" := by simpa [Text.Avoids] using colon
  have side (groups : List Nat) : Text.Avoids p (Text.join ":" (groups.map groupText)) := by
    refine Text.Avoids.join mark fun part member => ?_
    obtain ⟨n, -, rfl⟩ := List.mem_map.mp member
    exact Text.digits_avoid (by decide) digit n
  rcases groupsText_cases groups with whole | ⟨high, low, run, -, -, cut⟩
  · rw [whole]
    exact side groups
  · have marks : Text.Avoids p "::" := by simpa [Text.Avoids] using colon
    rw [cut]
    exact Text.avoids_append.mpr ⟨Text.avoids_append.mpr ⟨side high, marks⟩, side low⟩

theorem groups?_text (sound : Groups groups) : groups? (groupsText groups).toList = some groups := by
  have plain : '.' ∉ (groupsText groups).toList :=
    (groupsText_avoids (p := (· == '.')) (by decide) (by decide) groups).absent
  rcases groupsText_cases groups with whole | ⟨high, low, run, shape, two, cut⟩
  · have some : groups ≠ [] := by
      rintro rfl
      cases sound.eight
    have long : (sideTexts groups).length = 8 := by
      rw [sideTexts_length, sound.eight]
      rfl
    have parts : groupTexts? (groupsText groups).toList = Option.some (sideTexts groups) :=
      groupTexts?_plain (whole ▸ splitAt_side groups) (by omega) plain
    simp only [groups?, parts, Option.bind_eq_bind, Option.bind_some, long, gaps_sideTexts some,
      mapM_group?_side some sound.small]
    rfl
  · have split : Text.splitAt ':' (groupsText groups).toList = sideTexts high ++ [] :: sideTexts low := by
      have chars : (groupsText groups).toList = (Text.join ":" (high.map groupText)).toList ++
          ':' :: ([] ++ ':' :: (Text.join ":" (low.map groupText)).toList) := by simp [cut]
      rw [chars, Text.splitAt_append, Text.splitAt_append, splitAt_side, splitAt_side]
      rfl
    have above := sideTexts_length high
    have below := sideTexts_length low
    have eight : high.length + run + low.length = 8 := by simpa [shape, Nat.add_assoc] using sound.eight
    have long : (sideTexts high ++ [] :: sideTexts low).length ≤ 9 ∧
        3 ≤ (sideTexts high ++ [] :: sideTexts low).length := by
      simp only [List.length_append, List.length_cons]
      omega
    have parts := groupTexts?_plain split long.2 plain
    have front : (sideTexts high ++ [] :: sideTexts low).take (sideTexts high).length = sideTexts high := by simp
    have back : (sideTexts high ++ [] :: sideTexts low).drop ((sideTexts high).length + 1) = sideTexts low := by
      rw [← List.drop_drop, List.drop_left]
      rfl
    have first : ∃ part ∈ sideTexts high, (sideTexts high).head? = some part :=
      ⟨_, List.head_mem (List.ne_nil_of_length_pos (by omega)), List.head?_eq_some_head _⟩
    have last : ∃ part ∈ sideTexts low, (sideTexts low).getLast? = some part :=
      ⟨_, List.getLast_mem (List.ne_nil_of_length_pos (by omega)), List.getLast?_eq_some_getLast _⟩
    have small : (∀ group ∈ high, group < 65536) ∧ ∀ group ∈ low, group < 65536 := by
      refine ⟨fun group member => sound.small group ?_, fun group member => sound.small group ?_⟩ <;>
        simp [shape, member]
    have missing : 8 - (high.length + low.length) = run := by omega
    simp only [groups?, parts, Option.bind_eq_bind, Option.bind_some, if_neg (Nat.not_lt.mpr long.1), gaps_sides,
      front, back, side?_sideTexts first small.1, side?_sideTexts last small.2, missing]
    rw [if_pos (by omega), shape]

theorem text_zoned (groups : List Nat) (z : String) :
    (text (.v6 groups (some z))).toList = (groupsText groups).toList ++ '%' :: z.toList := by
  simp [text]

theorem v6?_text (sound : Groups groups) (zone : Option String) (named : ∀ z ∈ zone, Zone z) :
    v6? (text (.v6 groups zone)).toList = some (.v6 groups zone) := by
  have plain : '%' ∉ (groupsText groups).toList :=
    (groupsText_avoids (p := (· == '%')) (by decide) (by decide) groups).absent
  cases zone with
  | none =>
    have cut : Text.splitAt '%' (text (.v6 groups none)).toList = [(groupsText groups).toList] := by
      simpa [text] using Text.splitAt_absent plain
    simp only [v6?, cut, groups?_text sound]
    rfl
  | some z =>
    have zone := named z rfl
    have cut : Text.splitAt '%' (text (.v6 groups (some z))).toList = [(groupsText groups).toList, z.toList] := by
      rw [text_zoned, Text.splitAt_append, Text.splitAt_absent plain,
        Text.splitAt_absent fun member => (zone.plain '%' member).1 rfl]
      rfl
    have filled : z.toList.isEmpty = false := by simpa using zone.filled
    simp only [v6?, cut, filled, groups?_text sound, Option.map_some, String.ofList_toList]
    rfl

/-- What is written for groups cannot be taken for octets. -/
theorem octets?_groupsText (sound : Groups groups) {rest : List Char}
    (begins : cs = (groupsText groups).toList ++ rest) : octets? cs = none := by
  cases read : octets? cs with
  | none => rfl
  | some octets =>
    have colon : ':' ∉ (groupsText groups).toList := fun member =>
      octets?_plain read (begins ▸ List.mem_append_left rest member)
    have one := groups?_text sound
    simp [groups?, groupTexts?, Text.splitAt_absent colon] at one

/-- What an address can hold is read again from its written form. -/
theorem Sound.parse?_text {a : Address} (sound : a.Sound) : parse? a.text = some a := by
  cases a with
  | v4 octets =>
    have whole : '/' ∉ (text (.v4 octets)).toList :=
      (octetsText_avoids (p := (· == '/')) (by decide) (by decide) octets).absent
    have read : octets? (text (.v4 octets)).toList = some octets := octets?_text sound
    simp only [parse?, read]
    rw [if_neg (by simpa using whole)]
  | v6 groups zone =>
    obtain ⟨sound, named⟩ := sound
    have digits := (groupsText_avoids (p := (· == '/')) (by decide) (by decide) groups).absent
    have whole : '/' ∉ (text (.v6 groups zone)).toList := by
      cases zone with
      | none => simpa [text] using digits
      | some z =>
        have plain : '/' ∉ z.toList := fun member => ((named z rfl).plain '/' member).2 rfl
        simp [text_zoned, digits, plain]
    have other : octets? (text (.v6 groups zone)).toList = none :=
      octets?_groupsText sound String.toList_append
    simp only [parse?, other]
    rw [if_neg (by simpa using whole)]
    exact v6?_text sound zone named

/-- However an address was spelled, its written form is read as the same address. -/
theorem parse?_text {s : String} {a : Address} (read : parse? s = some a) : parse? a.text = some a :=
  (parse?_sound read).parse?_text

end Writing

section Words

variable {s : String} {a : Address} {groups : List Nat}

def Filled : Address → Prop
  | .v4 octets => octets ≠ []
  | .v6 groups _ => groups ≠ []

theorem parse_filled (read : parse? s = some a) : a.Filled := by
  have sound := parse?_sound read
  cases a with
  | v4 octets => exact List.ne_nil_of_length_pos (by rw [sound.four]; decide)
  | v6 groups zone => exact List.ne_nil_of_length_pos (by rw [sound.1.eight]; decide)

theorem groupsText_isWord (some : groups ≠ []) : Text.IsWord (groupsText groups) := by
  refine ⟨fun empty => ?_, groupsText_avoids (by decide) (fun d _ => Text.digitChar_whole d) groups⟩
  rcases groupsText_cases groups with whole | ⟨high, low, run, -, -, cut⟩
  · have word : Text.IsWord (Text.join ":" (groups.map groupText)) := by
      refine Text.IsWord.join (by decide) (fun part member => ?_) (by simpa using some)
      obtain ⟨n, -, rfl⟩ := List.mem_map.mp member
      exact Text.digits_isWord (by decide) n
    exact word.filled (whole ▸ empty)
  · have nothing := congrArg String.toList (cut.symm.trans empty)
    simp at nothing

/-- An address without zone is written as a word. -/
theorem text_isWord (filled : a.Filled) (unzoned : '%' ∉ a.text.toList) : Text.IsWord a.text := by
  cases a with
  | v4 octets =>
    refine Text.IsWord.join (by decide) (fun part member => ?_) (by simpa [Filled] using filled)
    obtain ⟨n, -, rfl⟩ := List.mem_map.mp member
    exact Text.nat_isWord n
  | v6 groups zone =>
    cases zone with
    | none => simpa [text] using groupsText_isWord filled
    | some z => simp [text] at unzoned

end Words

end Address
end Leasehold
