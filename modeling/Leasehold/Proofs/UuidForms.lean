import Leasehold.Proofs.Readings
import Leasehold.Proofs.UuidArguments
import Leasehold.Proofs.WordsAndLines
import Mathlib.Algebra.Group.Nat.Defs

/-! The forms of a uuid. Callers may write it as its bytes, as a list of numbers, in 32 hexadecimal digits or with
hyphens between them, and in digits of either case. A request is read by one reader and an argument by another, which
takes text for hexadecimal first; on these forms the two agree. -/

namespace Leasehold

namespace Hex

/-- Two digits of either case for each byte, and nothing between them. -/
inductive Digits : List Char → Bytes → Prop
  | done : Digits [] []
  | byte {c d : Char} {high low : Nat} {rest : List Char} {bytes : Bytes} (first : value? c = some high)
      (second : value? d = some low) (digits : Digits rest bytes) :
      Digits (c :: d :: rest) (UInt8.ofNat (16 * high + low) :: bytes)

def alphabet : List Char := "0123456789abcdefABCDEF".toList

theorem forall_alphabet {p : Char → Prop} [DecidablePred p] (all : alphabet.all fun c => p c) :
    ∀ c ∈ alphabet, p c := by
  simpa using all

theorem mem_alphabet {c : Char} {n : Nat} (digit : value? c = some n) : c ∈ alphabet := by
  have codes : ∀ code < 128, (value? (Char.ofNat code)).isSome → Char.ofNat code ∈ alphabet := by decide
  have small : c.toNat < 128 := by
    by_contra large
    simp only [value?, Bool.and_eq_true, decide_eq_true_eq] at digit
    rw [if_neg (by omega), if_neg (by omega), if_neg (by omega)] at digit
    cases digit
  have digit' := codes c.toNat small
  rw [Char.ofNat_toNat, digit] at digit'
  exact digit' rfl

theorem digits_of_alphabet {p : Char → Prop} (all : ∀ c ∈ alphabet, p c) {cs : List Char} {bytes : Bytes}
    (digits : Digits cs bytes) : ∀ c ∈ cs, p c := by
  induction digits with
  | done => simp
  | byte first second digits ih =>
    rintro c (_ | ⟨_, _ | ⟨_, member⟩⟩)
    · exact all _ (mem_alphabet first)
    · exact all _ (mem_alphabet second)
    · exact ih c member

theorem Digits.spells {cs : List Char} {bytes : Bytes} (digits : Digits cs bytes) : Spells cs bytes := by
  induction digits with
  | done => exact .done
  | byte first second _ ih => exact .byte first second ih

theorem Digits.length {cs : List Char} {bytes : Bytes} (digits : Digits cs bytes) : cs.length = 2 * bytes.length := by
  induction digits with
  | done => rfl
  | byte first second _ ih =>
    simp only [List.length_cons]
    omega

theorem digits_iff {cs : List Char} {bytes : Bytes} :
    decodeChars (fun _ => false) cs = some bytes ↔ Digits cs bytes := by
  constructor
  · intro read
    induction cs using decodeChars.induct (fun _ => false) generalizing bytes with
    | case1 =>
      cases read
      exact .done
    | case2 c blank => cases blank
    | case3 c other => simp [decodeChars] at read
    | case4 c d rest blank ih => cases blank
    | case5 c d rest other low high second first ih =>
      simp only [decodeChars, Bool.false_eq_true, if_false, first, second] at read
      obtain ⟨others, tail, rfl⟩ := Option.map_eq_some_iff.mp read
      exact .byte first second (ih tail)
    | case6 c d rest other unread =>
      rw [decodeChars, if_neg other] at read
      split at read
      next high low first second => exact absurd second (unread high low first)
      next => cases read
  · intro digits
    induction digits with
    | done => rfl
    | byte first second digits ih => simp [decodeChars, first, second, ih]

instance (cs : List Char) (bytes : Bytes) : Decidable (Digits cs bytes) := decidable_of_iff _ digits_iff

theorem value?_digit : ∀ n < 16, value? (digit n) = some n := by decide

/-- What is printed for bytes spells them. -/
theorem encode_digits (bytes : Bytes) : Digits (encode bytes).toList bytes := by
  rw [encode, String.toList_ofList]
  induction bytes with
  | nil => exact .done
  | cons b rest ih =>
    have whole : UInt8.ofNat (16 * (b.toNat / 16) + b.toNat % 16) = b := by
      rw [Nat.div_add_mod]
      simp
    have printed := Digits.byte (value?_digit (b.toNat / 16) (by have := b.toNat_lt; omega))
      (value?_digit (b.toNat % 16) (by omega)) ih
    rw [whole] at printed
    exact printed

/-- Text with a character that is neither a digit nor blank spells no bytes. -/
theorem Spells.plain {cs : List Char} {bytes : Bytes} (spells : Spells cs bytes) :
    ∀ c ∈ cs, Text.isAsciiBlank c = true ∨ c ∈ alphabet := by
  induction spells with
  | done => simp
  | blank blank spells ih =>
    rintro c (_ | ⟨_, member⟩)
    · exact Or.inl blank
    · exact ih c member
  | byte first second spells ih =>
    rintro c (_ | ⟨_, _ | ⟨_, member⟩⟩)
    · exact Or.inr (mem_alphabet first)
    · exact Or.inr (mem_alphabet second)
    · exact ih c member

end Hex

namespace Uuid

def number : Bytes → Nat
  | [] => 0
  | b :: rest => b.toNat * 256 ^ rest.length + number rest

theorem number_lt (bytes : Bytes) : number bytes < 256 ^ bytes.length := by
  induction bytes with
  | nil => decide
  | cons b rest ih =>
    have small := b.toNat_lt
    calc
      number (b :: rest) < b.toNat * 256 ^ rest.length + 256 ^ rest.length := Nat.add_lt_add_left ih _
      _ = (b.toNat + 1) * 256 ^ rest.length := (Nat.succ_mul _ _).symm
      _ ≤ 256 * 256 ^ rest.length := Nat.mul_le_mul_right _ (by omega)
      _ = 256 ^ (b :: rest).length := by rw [List.length_cons, Nat.pow_succ']

theorem bigEndian_number (bytes : Bytes) : bigEndian bytes.length (number bytes) = bytes := by
  induction bytes with
  | nil => rfl
  | cons b rest ih =>
    have positive : 0 < 256 ^ rest.length := Nat.pow_pos (by decide)
    have small := number_lt rest
    have high : (b.toNat * 256 ^ rest.length + number rest) / 256 ^ rest.length = b.toNat := by
      rw [Nat.mul_comm, Nat.mul_add_div positive, Nat.div_eq_of_lt small, Nat.add_zero]
    have low : (b.toNat * 256 ^ rest.length + number rest) % 256 ^ rest.length = number rest := by
      rw [Nat.mul_comm, Nat.mul_add_mod, Nat.mod_eq_of_lt small]
    simp only [List.length_cons, bigEndian, number, Nat.pow_eq, high, low, ih, UInt8.ofNat_toNat]

/-- The digits of bytes, read after a number, carry it on. -/
theorem digits?_digits {cs : List Char} {bytes : Bytes} (digits : Hex.Digits cs bytes) (begun : Nat) :
    Whole.digits? (Whole.digitIn? 16) 16 true begun cs = some (begun * 256 ^ bytes.length + number bytes) := by
  have marks : ∀ c ∈ Hex.alphabet, c ≠ '_' := Hex.forall_alphabet (by decide)
  induction digits generalizing begun with
  | done => simp [Whole.digits?, number]
  | @byte c d high low rest bytes first second digits ih =>
    have mark := marks c (Hex.mem_alphabet first)
    have mark' := marks d (Hex.mem_alphabet second)
    have high_lt := Hex.value?_lt first
    have low_lt := Hex.value?_lt second
    have read : Whole.digitIn? 16 c = some high := by simp [Whole.digitIn?, first, high_lt]
    have read' : Whole.digitIn? 16 d = some low := by simp [Whole.digitIn?, second, low_lt]
    have byte : (UInt8.ofNat (16 * high + low)).toNat = 16 * high + low :=
      UInt8.toNat_ofNat_of_lt' (by simp [UInt8.size]; omega)
    have carried : 16 * (16 * begun + high) + low = begun * 256 + (16 * high + low) := by omega
    simp only [Whole.digits?, beq_iff_eq, if_neg mark, if_neg mark', read, read', ih, number, byte, carried]
    rw [List.length_cons, Nat.add_mul, Nat.mul_assoc, ← Nat.pow_succ', Nat.add_assoc]

/-- Hexadecimal digits are read as the number that their bytes are. -/
theorem parseIn_digits {cs : List Char} {bytes : Bytes} (digits : Hex.Digits cs bytes) (filled : bytes ≠ []) :
    Whole.parseIn 16 (String.ofList cs) = .ok (number bytes) := by
  have plain : Whole.plain (String.ofList cs) = cs := by
    have here : ∀ c ∈ Hex.alphabet, ¬ Text.isWhiteSpace c ∧ Text.asciiDigit c = c :=
      Hex.forall_alphabet (by decide)
    have here := Hex.digits_of_alphabet here digits
    rw [Whole.plain, String.toList_ofList, Text.trimChars_absent fun c member => (here c member).1]
    exact (List.map_congr_left fun c member => (here c member).2).trans (List.map_id cs)
  have marks : ∀ c ∈ Hex.alphabet, c ≠ '-' ∧ c ≠ '+' ∧ c ≠ '_' ∧ Whole.mark? 16 ≠ some c.toLower :=
    Hex.forall_alphabet (by decide)
  rw [Whole.parseIn, plain]
  cases digits with
  | done => exact absurd rfl filled
  | @byte c d high low rest bytes first second digits =>
    obtain ⟨minus, plus, mark, -⟩ := marks c (Hex.mem_alphabet first)
    obtain ⟨-, -, -, base⟩ := marks d (Hex.mem_alphabet second)
    have sign : Whole.sign (c :: d :: rest) = (1, c :: d :: rest) := by
      unfold Whole.sign
      split <;> simp_all
    have marked : Whole.markedDigits? 16 (c :: d :: rest) =
        Whole.digits? (Whole.digitIn? 16) 16 false 0 (c :: d :: rest) := by
      unfold Whole.markedDigits?
      split
      next c' rest' same =>
        cases same
        rw [if_neg (by simpa using base)]
      next => rfl
    have begins : Whole.digits? (Whole.digitIn? 16) 16 false 0 (c :: d :: rest) =
        Whole.digits? (Whole.digitIn? 16) 16 true 0 (c :: d :: rest) := by
      simp only [Whole.digits?, beq_iff_eq, if_neg mark]
    simp only [sign, marked, begins, digits?_digits (.byte first second digits), Nat.zero_mul, Nat.zero_add,
      Int.one_mul]

/-- A mark that begins with no character of the text is not there. -/
theorem without_absent (mark : String) {cs : List Char} {c : Char} {rest : List Char}
    (begins : mark.toList = c :: rest) (absent : c ∉ cs) : without mark cs = cs := by
  rw [without, begins]
  generalize cs.length + 1 = fuel
  induction cs generalizing fuel with
  | nil => cases fuel <;> rfl
  | cons first others ih =>
    cases fuel with
    | zero => rfl
    | succ fuel =>
      have here : ¬ (c :: rest).isPrefixOf (first :: others) := by
        simp [List.isPrefixOf, Ne.symm (List.ne_of_not_mem_cons absent).symm]
      rw [dropMark, if_neg here, ih (List.not_mem_of_not_mem_cons absent)]

def hyphenated (cs : List Char) : List Char :=
  cs.take 8 ++ '-' :: (cs.drop 8).take 4 ++ '-' :: (cs.drop 12).take 4 ++ '-' :: (cs.drop 16).take 4 ++
    '-' :: cs.drop 20

theorem mem_hyphenated {cs : List Char} {c : Char} (member : c ∈ hyphenated cs) : c = '-' ∨ c ∈ cs := by
  simp only [hyphenated, List.mem_append, List.mem_cons] at member
  have taken {n k : Nat} (part : c ∈ (cs.drop n).take k) : c ∈ cs := List.mem_of_mem_drop (List.mem_of_mem_take part)
  rcases member with (((part | rfl | part) | rfl | part) | rfl | part) | rfl | part
  · exact Or.inr (List.mem_of_mem_take part)
  · exact Or.inl rfl
  · exact Or.inr (taken part)
  · exact Or.inl rfl
  · exact Or.inr (taken part)
  · exact Or.inl rfl
  · exact Or.inr (taken part)
  · exact Or.inl rfl
  · exact Or.inr (List.mem_of_mem_drop part)

theorem filter_hyphenated {cs : List Char} (absent : '-' ∉ cs) : (hyphenated cs).filter (· != '-') = cs := by
  have kept {part : List Char} (inside : ∀ c ∈ part, c ∈ cs) : part.filter (· != '-') = part := by
    refine List.filter_eq_self.mpr fun c member => bne_iff_ne.mpr ?_
    rintro rfl
    exact absent (inside _ member)
  have taken (n k : Nat) : ((cs.drop n).take k).filter (· != '-') = (cs.drop n).take k :=
    kept fun c part => List.mem_of_mem_drop (List.mem_of_mem_take part)
  have join (n : Nat) : (cs.drop n).take 4 ++ cs.drop (n + 4) = cs.drop n := by
    rw [← List.drop_drop, List.take_append_drop]
  simp only [hyphenated, List.filter_append, List.filter_cons, bne_self_eq_false, Bool.false_eq_true, if_false, taken,
    kept fun c => List.mem_of_mem_take, kept fun c => List.mem_of_mem_drop, List.append_assoc, join,
    List.take_append_drop]

/-- Digits are read as uuid text with and without hyphens. -/
theorem ofText?_digits {s : String} {cs : List Char} {uuid : Bytes} (digits : Hex.Digits cs uuid)
    (sixteen : uuid.length = 16) (written : s.toList = cs ∨ s.toList = hyphenated cs) : ofText? s = some uuid := by
  have plain : '-' ∉ cs := fun member =>
    Hex.digits_of_alphabet (p := (· ≠ '-')) (Hex.forall_alphabet (by decide)) digits '-' member rfl
  have chars : ∀ c ∈ s.toList, c = '-' ∨ c ∈ Hex.alphabet := by
    intro c member
    rcases written with same | same <;> rw [same] at member
    · exact Or.inr (Hex.digits_of_alphabet (fun _ => id) digits c member)
    · exact (mem_hyphenated member).imp_right (Hex.digits_of_alphabet (fun _ => id) digits c)
  have kept : s.toList.filter (· != '-') = cs := by
    rcases written with same | same <;> rw [same]
    · exact List.filter_eq_self.mpr fun c member => bne_iff_ne.mpr fun mark => plain (mark ▸ member)
    · exact filter_hyphenated plain
  have unmarked : 'u' ∉ s.toList := fun member => (chars 'u' member).elim (by decide) (by decide)
  have unbraced : ∀ c ∈ s.toList, ¬ (c == '\x7b' || c == '\x7d') := by
    have digit : ∀ c ∈ Hex.alphabet, ¬ (c == '\x7b' || c == '\x7d') := Hex.forall_alphabet (by decide)
    intro c member
    rcases chars c member with rfl | inside
    · decide
    · exact digit c inside
  have filled : uuid ≠ [] := by
    rintro rfl
    cases sixteen
  have whole : bigEndian 16 (number uuid) = uuid := sixteen ▸ bigEndian_number uuid
  unfold ofText?
  simp only [without_absent "urn:" rfl unmarked, without_absent "uuid:" rfl unmarked, Text.trimChars_absent unbraced,
    kept, parseIn_digits digits filled, digits.length, sixteen]
  exact congrArg some whole

/-- The forms in which a uuid is written. -/
inductive Form (uuid : Bytes) : Value → Prop
  | bytes : Form uuid (.scalar (.bytes uuid))
  | list {items : List Value} (numbers : List.Forall₂ IsByte items uuid) : Form uuid (.list items)
  | digits {s : String} (digits : Hex.Digits s.toList uuid) : Form uuid (.str s)
  | hyphenated {s : String} {cs : List Char} (digits : Hex.Digits cs uuid) (written : s.toList = hyphenated cs) :
      Form uuid (.str s)

variable {uuid : Bytes} {v : Value}

theorem length_parse (parsed : parse v = .ok uuid) : uuid.length = 16 := by
  obtain ⟨raw, -, checked⟩ := Reading.bind_ok parsed
  split at checked
  next sixteen =>
    cases checked
    exact beq_iff_eq.mp sixteen
  next => cases checked

theorem parse_text {s : String} (sixteen : uuid.length = 16) (read : ofText? s = some uuid) :
    parse (.str s) = .ok uuid := by
  simp only [parse, bytesOfValue, Value.str, read]
  simp [sixteen, bind, Except.bind, pure, Except.pure]

/-- A request takes a uuid for what it is, in every form. -/
theorem Form.parse (form : Form uuid v) (sixteen : uuid.length = 16) : parse v = .ok uuid := by
  cases form with
  | bytes => simp [Uuid.parse, bytesOfValue, sixteen, bind, Except.bind, pure, Except.pure]
  | list numbers =>
    simp [Uuid.parse, bytesOfValue, bytesOfList?_iff.mpr numbers, sixteen, bind, Except.bind, pure, Except.pure]
  | digits digits => exact parse_text sixteen (ofText?_digits digits sixteen (Or.inl rfl))
  | hyphenated digits written => exact parse_text sixteen (ofText?_digits digits sixteen (Or.inr written))

/-- And so does an argument: hyphens keep text from being hexadecimal. -/
theorem Form.spells (form : Form uuid v) (sixteen : uuid.length = 16) : Spells v uuid := by
  cases form with
  | bytes => exact .bytes sixteen
  | list numbers => exact .list sixteen numbers
  | digits digits => exact .hex sixteen digits.spells
  | @hyphenated s cs digits written =>
    refine .text (fun bytes spelled => ?_) (ofText?_digits digits sixteen (Or.inr written))
    have hyphen : '-' ∈ s.toList := by simp [written, Uuid.hyphenated]
    rcases spelled.plain '-' hyphen with blank | digit
    · exact absurd blank (by decide)
    · exact absurd digit (by decide)

end Uuid

def Lease.shownUuid? (lease : Lease) : Option Value :=
  match lease.view with
  | .map fields => Entries.field? fields "uuid"
  | _ => none

/-- What is shown of a lease is a form of its uuid. -/
theorem Lease.shownUuid?_form (lease : Lease) : ∃ v, lease.shownUuid? = some v ∧ Uuid.Form lease.uuid v :=
  ⟨_, rfl, .digits (Hex.encode_digits lease.uuid)⟩

end Leasehold
