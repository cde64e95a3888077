import Leasehold.Acquisition.Remote
import Leasehold.Uuid
import Mathlib.Data.List.Forall2

/-! What a uuid argument names. Sixteen bytes are spelled by themselves, by a list of numbers, by hexadecimal text or
by uuid text. Nothing else is meant to name a lease; yet a text that can be read in neither way goes through as its
own bytes, and then its length is all that is looked at. -/

namespace Leasehold

namespace Hex

/-- Two digits for each byte, blanks before and after a byte. -/
inductive Spells : List Char → Bytes → Prop
  | done : Spells [] []
  | blank {c : Char} {rest : List Char} {bytes : Bytes} (blank : Text.isAsciiBlank c = true)
      (spells : Spells rest bytes) : Spells (c :: rest) bytes
  | byte {c d : Char} {high low : Nat} {rest : List Char} {bytes : Bytes} (first : value? c = some high)
      (second : value? d = some low) (spells : Spells rest bytes) :
      Spells (c :: d :: rest) (UInt8.ofNat (16 * high + low) :: bytes)

theorem value?_blank {c : Char} (blank : Text.isAsciiBlank c = true) : value? c = none := by
  have below : c.toNat < 48 := by
    simp only [Text.isAsciiBlank, Bool.or_eq_true, beq_iff_eq, Bool.and_eq_true, decide_eq_true_eq] at blank
    rcases blank with rfl | range
    · decide
    · omega
  simp only [value?, Bool.and_eq_true, decide_eq_true_eq]
  rw [if_neg (by omega), if_neg (by omega), if_neg (by omega)]

theorem decodeChars_iff {cs : List Char} {bytes : Bytes} :
    decodeChars Text.isAsciiBlank cs = some bytes ↔ Spells cs bytes := by
  constructor
  · intro read
    induction cs using decodeChars.induct Text.isAsciiBlank generalizing bytes with
    | case1 =>
      cases read
      exact .done
    | case2 c blank =>
      simp only [decodeChars, blank, if_true] at read
      cases read
      exact .blank blank .done
    | case3 c other => simp [decodeChars, other] at read
    | case4 c d rest blank ih =>
      rw [decodeChars, if_pos blank] at read
      exact .blank blank (ih read)
    | case5 c d rest other high low first second ih =>
      rw [decodeChars, if_neg other] at read
      simp only [first, second] at read
      obtain ⟨others, tail, rfl⟩ := Option.map_eq_some_iff.mp read
      exact .byte second first (ih tail)
    | case6 c d rest other unread =>
      rw [decodeChars, if_neg other] at read
      split at read
      next high low first second => exact absurd second (unread high low first)
      next => cases read
  · intro spells
    induction spells with
    | done => rfl
    | @blank c rest bytes blank spells ih =>
      cases rest with
      | nil =>
        cases ih
        simp [decodeChars, blank]
      | cons d rest => rw [decodeChars, if_pos blank, ih]
    | @byte c d high low rest bytes first second spells ih =>
      have printed : ¬ Text.isAsciiBlank c = true := by
        intro blank
        rw [value?_blank blank] at first
        cases first
      simp [decodeChars, printed, first, second, ih]

theorem decodeChars_none {cs : List Char} :
    decodeChars Text.isAsciiBlank cs = none ↔ ∀ bytes, ¬ Spells cs bytes := by
  simp only [Option.eq_none_iff_forall_ne_some, ne_eq, decodeChars_iff]

end Hex

namespace Uuid

/-- A byte as a list holds it: a number, or a truth value. -/
inductive IsByte : Value → UInt8 → Prop
  | number (byte : UInt8) : IsByte (.int byte.toNat) byte
  | truth (b : Bool) : IsByte (.bool b) (if b then 1 else 0)

theorem byte?_iff {v : Value} {byte : UInt8} : byte? v = some byte ↔ IsByte v byte := by
  constructor
  · intro read
    unfold byte? at read
    split at read
    · split at read
      next b =>
        cases read
        exact .truth b
      next i =>
        split at read
        next range =>
          simp only [Bool.and_eq_true, decide_eq_true_eq] at range
          obtain ⟨n, rfl⟩ := Int.eq_ofNat_of_zero_le range.1
          cases read
          have small : (UInt8.ofNat n).toNat = n := UInt8.toNat_ofNat_of_lt' (by simp [UInt8.size]; omega)
          have number := IsByte.number (UInt8.ofNat n)
          rw [small] at number
          exact number
        next => cases read
      next => cases read
    · cases read
  · intro spelled
    cases spelled with
    | number =>
      have small := byte.toNat_lt
      simp [byte?, Value.int]
      omega
    | truth b => rfl

theorem bytesOfList?_iff {items : List Value} {bytes : Bytes} :
    bytesOfList? items = some bytes ↔ List.Forall₂ IsByte items bytes := by
  unfold bytesOfList?
  induction items generalizing bytes with
  | nil => simp [eq_comm]
  | cons item rest ih =>
    simp only [List.mapM_cons, Option.bind_eq_bind, Option.bind_eq_some_iff, byte?_iff, ih, Option.pure_def,
      Option.some.injEq, List.forall₂_cons_left_iff]
    constructor
    · rintro ⟨byte, first, others, spelled, rfl⟩
      exact ⟨byte, others, first, spelled, rfl⟩
    · rintro ⟨byte, others, first, spelled, rfl⟩
      exact ⟨byte, first, others, spelled, rfl⟩

theorem length_bigEndian (width n : Nat) : (bigEndian width n).length = width := by
  induction width generalizing n with
  | zero => rfl
  | succ width ih => simp [bigEndian, ih]

theorem length_ofText? {s : String} {uuid : Bytes} (read : ofText? s = some uuid) : uuid.length = 16 := by
  unfold ofText? at read
  simp only at read
  split at read
  · split at read
    next n _ =>
      cases read
      exact length_bigEndian 16 n
    next => cases read
  · cases read

/-- The values that spell a uuid. Text that is hexadecimal is not looked at as uuid text. -/
inductive Spells : Value → Bytes → Prop
  | bytes {uuid : Bytes} (sixteen : uuid.length = 16) : Spells (.scalar (.bytes uuid)) uuid
  | list {items : List Value} {uuid : Bytes} (sixteen : uuid.length = 16)
      (numbers : List.Forall₂ IsByte items uuid) : Spells (.list items) uuid
  | hex {s : String} {uuid : Bytes} (sixteen : uuid.length = 16) (digits : Hex.Spells s.toList uuid) :
      Spells (.str s) uuid
  | text {s : String} {uuid : Bytes} (other : ∀ bytes, ¬ Hex.Spells s.toList bytes)
      (read : ofText? s = some uuid) : Spells (.str s) uuid

/-- Something is given as a uuid, but it spells none. -/
structure Undecodable (v : Value) : Prop where
  given : v ≠ .null
  filled : v ≠ .str ""
  unspelled : ∀ uuid, ¬ Spells v uuid

theorem undecodable_str {s : String} (filled : s ≠ "") (unread : ofText? s = none)
    (short : ∀ bytes, Hex.decodeChars Text.isAsciiBlank s.toList = some bytes → bytes.length ≠ 16) :
    Undecodable (.str s) := by
  refine ⟨by simp [Value.str, Value.null], fun same => ?_, fun uuid spells => ?_⟩
  · cases same
    exact filled rfl
  · generalize same : Value.str s = v at spells
    cases spells with
    | bytes | list => cases same
    | hex sixteen digits =>
      cases same
      exact short uuid (Hex.decodeChars_iff.mpr digits) sixteen
    | text other read =>
      cases same
      rw [unread] at read
      cases read

/-- A text that spells no uuid, yet has sixteen bytes itself. -/
structure Impostor (v : Value) (uuid : Bytes) : Prop where
  undecodable : Undecodable v
  text : ∃ s, v = .str s ∧ (∀ bytes, ¬ Hex.Spells s.toList bytes) ∧ Utf8.encode s = uuid
  sixteen : uuid.length = 16

variable {v : Value} {uuid : Bytes}

/-- How text is taken: as hexadecimal if it is that, else as uuid text, else as its own bytes. -/
theorem ofArgument_str {s : String} (filled : s ≠ "") :
    ofArgument (.str s) = .scalar (.bytes
      (((Hex.decodeChars Text.isAsciiBlank s.toList).or (ofText? s)).getD (Utf8.encode s))) := by
  unfold ofArgument Value.str
  simp only [beq_iff_eq, if_neg filled]
  split <;> simp_all

theorem Spells.taken (spells : Spells v uuid) : Remote.leaseUuid (ofArgument v) = .ok (some uuid) := by
  cases spells with
  | bytes sixteen => exact if_pos sixteen
  | list sixteen numbers =>
    simp only [ofArgument, bytesOfList?_iff.mpr numbers]
    exact if_pos sixteen
  | @hex s _ sixteen digits =>
    have filled : s ≠ "" := by
      rintro rfl
      cases digits
      cases sixteen
    rw [ofArgument_str filled, Hex.decodeChars_iff.mpr digits]
    exact if_pos sixteen
  | @text s _ other read =>
    have filled : s ≠ "" := by
      rintro rfl
      exact other [] .done
    rw [ofArgument_str filled, Hex.decodeChars_none.mpr other, read]
    exact if_pos (length_ofText? read)

theorem Impostor.taken (impostor : Impostor v uuid) : Remote.leaseUuid (ofArgument v) = .ok (some uuid) := by
  obtain ⟨undecodable, ⟨s, rfl, other, rfl⟩, sixteen⟩ := impostor
  have filled : s ≠ "" := by
    rintro rfl
    exact undecodable.filled rfl
  have foreign : ofText? s = none :=
    Option.eq_none_iff_forall_ne_some.mpr fun bytes read => undecodable.unspelled bytes (.text other read)
  rw [ofArgument_str filled, Hex.decodeChars_none.mpr other, foreign]
  exact if_pos sixteen

/-- What spells no uuid is refused, unless it is a text that happens to have sixteen bytes. -/
theorem Undecodable.refused (undecodable : Undecodable v) (honest : ∀ uuid, ¬ Impostor v uuid) :
    Remote.leaseUuid (ofArgument v) = .error ⟨.invalidArguments, "bad uuid argument"⟩ := by
  have wrong {bytes : Bytes} (length : bytes.length ≠ 16) :
      Remote.leaseUuid (.scalar (.bytes bytes)) = .error ⟨.invalidArguments, "bad uuid argument"⟩ := if_neg length
  cases v with
  | scalar x =>
    cases x with
    | null => exact absurd rfl undecodable.given
    | bytes bytes => exact wrong fun sixteen => undecodable.unspelled bytes (.bytes sixteen)
    | str s =>
      have filled : s ≠ "" := fun empty => undecodable.filled (congrArg Value.str empty)
      rw [show Value.scalar (.str s) = .str s from rfl, ofArgument_str filled]
      apply wrong
      -- Whichever reading the bytes are from, sixteen of them would make the text a uuid or an impostor.
      intro sixteen
      cases digits : Hex.decodeChars Text.isAsciiBlank s.toList with
      | some bytes =>
        simp only [digits, Option.some_or, Option.getD_some] at sixteen
        exact undecodable.unspelled bytes (.hex sixteen (Hex.decodeChars_iff.mp digits))
      | none =>
        have other := Hex.decodeChars_none.mp digits
        cases read : ofText? s with
        | some bytes => exact undecodable.unspelled bytes (.text other read)
        | none =>
          simp only [digits, read, Option.none_or, Option.getD_none] at sixteen
          exact honest _ ⟨undecodable, ⟨s, rfl, other, rfl⟩, sixteen⟩
    | bool | int | float | torn | day | moment => rfl
  | list items =>
    simp only [ofArgument]
    cases numbers : bytesOfList? items with
    | none => rfl
    | some bytes =>
      exact wrong fun sixteen => undecodable.unspelled bytes (.list sixteen (bytesOfList?_iff.mp numbers))
  | tuple | set | map | loop | again => rfl

end Uuid

end Leasehold
