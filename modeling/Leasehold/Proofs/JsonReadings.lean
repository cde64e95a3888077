import Leasehold.Json.Printer
import Leasehold.Json.Reader
import Mathlib.Data.List.Induction
import Mathlib.Data.List.TakeWhile

/-! What is written as JSON is read back as it was: texts, whole numbers, truth values and nothing, and maps of them.
A character beyond sixteen bits is written as the two halves of a pair, and they are read as the character. -/

namespace Leasehold

namespace Text

def isPlain (c : Char) : Bool :=
  0x20 ≤ c.toNat && c.toNat ≤ 0x7E

def Plain (cs : List Char) : Prop :=
  ∀ c ∈ cs, isPlain c = true

instance (cs : List Char) : Decidable (Plain cs) :=
  List.decidableBAll (fun c => isPlain c = true) cs

theorem plain_cons {c : Char} {cs : List Char} : Plain (c :: cs) ↔ isPlain c = true ∧ Plain cs :=
  List.forall_mem_cons

theorem plain_append {cs ds : List Char} : Plain (cs ++ ds) ↔ Plain cs ∧ Plain ds :=
  List.forall_mem_append

theorem toNat_range (c : Char) : c.toNat < 0xD800 ∨ 0xDFFF < c.toNat ∧ c.toNat < 0x110000 :=
  c.valid

theorem Spelled.ofCodes_chars (cs : List Char) : ofCodes (cs.map .char) = .whole (String.ofList cs) := by
  have each : ∀ code ∈ cs.map Code.char, code.char?.isSome = true := by
    intro code member
    obtain ⟨c, -, rfl⟩ := List.mem_map.mp member
    rfl
  have rest : (cs.map Code.char).dropWhile (fun code => code.char?.isSome) = [] := List.dropWhile_eq_nil_iff.mpr each
  have start : (cs.map Code.char).takeWhile (fun code => code.char?.isSome) = cs.map Code.char :=
    List.takeWhile_eq_self_iff.mpr each
  have kept : (cs.map Code.char).filterMap Code.char? = cs := by
    rw [List.filterMap_map]
    exact List.filterMap_some
  simp only [ofCodes, rest, start, kept]

namespace Code

theorem ofNat_toNat (c : Char) : ofNat c.toNat = .char c := by
  have range := toNat_range c
  rw [ofNat, dif_neg (by omega), Char.ofNat_toNat]

/-- Codes that are read as a character, whatever follows them. -/
def Spell (codes : List Code) (c : Char) : Prop :=
  ∀ rest, joined (codes ++ rest) = .char c :: joined rest

theorem spell_char (c : Char) : Spell [.char c] c := fun _ => rfl

theorem join_second {second : Half} (later : second.isFirst = false) (codes : List Code) :
    join (.half second) codes = .half second :: codes := by
  rcases codes with _ | ⟨_ | h, rest⟩
  case cons.half => rw [join, later]; rfl
  all_goals rfl

/-- The two halves of a character stand for it. -/
theorem spell_halves {c : Char} {offset : Nat} (small : offset < 0x100000) (code : c.toNat = 0x10000 + offset) :
    Spell [ofNat (0xD800 + offset / 0x400), ofNat (0xDC00 + offset % 0x400)] c := by
  intro rest
  let first : Half := ⟨⟨offset / 0x400, by omega⟩⟩
  let second : Half := ⟨⟨0x400 + offset % 0x400, by omega⟩⟩
  have high : ofNat (0xD800 + offset / 0x400) = .half first := by
    rw [ofNat, dif_pos (by omega)]
    simp [first]
  have low : ofNat (0xDC00 + offset % 0x400) = .half second := by
    rw [ofNat, dif_pos (by omega)]
    simp only [second, half.injEq, Half.mk.injEq, Fin.mk.injEq]
    omega
  have early : first.isFirst = true := by
    rw [Half.isFirst, decide_eq_true_eq, Fin.lt_def]
    show offset / 0x400 < 0x400
    omega
  have late : second.isFirst = false := by
    rw [Half.isFirst, decide_eq_false_iff_not, Fin.lt_def]
    show ¬ 0x400 + offset % 0x400 < 0x400
    omega
  have pair : pairChar first second = c := by
    rw [pairChar, show 0x10000 + first.place.val * 0x400 + (second.place.val - 0x400) = c.toNat from ?_,
      Char.ofNat_toNat]
    show 0x10000 + offset / 0x400 * 0x400 + (0x400 + offset % 0x400 - 0x400) = c.toNat
    omega
  calc joined ([ofNat (0xD800 + offset / 0x400), ofNat (0xDC00 + offset % 0x400)] ++ rest)
    _ = join (.half first) (join (.half second) (joined rest)) := by rw [high, low]; rfl
    _ = join (.half first) (.half second :: joined rest) := by rw [join_second late]
    _ = .char (pairChar first second) :: joined rest := by rw [join, early, late]; rfl
    _ = .char c :: joined rest := by rw [pair]

end Code

end Text

namespace Hex

theorem digitChar_plain : ∀ n < 16, Text.isPlain n.digitChar = true := by
  decide

theorem ofNat_succ {width : Nat} (some : 0 < width) (n : Nat) :
    (ofNat (width + 1) n).toList = (ofNat width (n / 16)).toList ++ [(n % 16).digitChar] := by
  simp only [ofNat, String.toList_ofList]
  rw [Nat.toDigits_eq_if (by decide)]
  split
  next one =>
    rw [Nat.div_eq_of_lt one, Nat.mod_eq_of_lt one, Nat.toDigits_of_lt_base (by decide : 0 < 16)]
    obtain ⟨width, rfl⟩ := Nat.exists_eq_add_of_lt some
    simp [List.replicate_succ', Nat.digitChar]
  next => simp [Nat.add_sub_add_right]

end Hex

namespace Whole

theorem isUnwritable_eq_false {i : Int} : isUnwritable i = false ↔ i.natAbs < Nat.pow 10 digitLimit := by
  rw [isUnwritable, decide_eq_false_iff_not, Nat.not_le]

end Whole

namespace Json

open Text

/-- A unit is written as four digits that give it back. -/
theorem escapeUnit_shape {n : Nat} (small : n < 0x10000) :
    ∃ a b c d, escapeUnit n = ['\\', 'u', a, b, c, d] ∧ unit? a b c d = some n ∧
      Plain [a, b, c, d] := by
  have top : n / 16 / 16 / 16 < 16 := by omega
  have one : (Hex.ofNat 1 (n / 16 / 16 / 16)).toList = [(n / 16 / 16 / 16).digitChar] := by
    simp [Hex.ofNat, Nat.toDigits_of_lt_base top]
  have shape : escapeUnit n = ['\\', 'u', (n / 16 / 16 / 16).digitChar, (n / 16 / 16 % 16).digitChar,
      (n / 16 % 16).digitChar, (n % 16).digitChar] := by
    rw [escapeUnit, Hex.ofNat_succ (by decide), Hex.ofNat_succ (by decide), Hex.ofNat_succ (by decide), one]
    rfl
  have below (m : Nat) : m % 16 < 16 := Nat.mod_lt m (by decide)
  refine ⟨_, _, _, _, shape, ?_, ?_⟩
  · simp only [unit?, Hex.value?_digitChar _ top, Hex.value?_digitChar _ (below _), Option.bind_eq_bind,
      Option.bind_some, Option.pure_def, Option.some.injEq]
    omega
  · simp [Plain, Hex.digitChar_plain _ top, Hex.digitChar_plain _ (below _)]

variable {done : List Code} {rest : List Char} {c : Char}

theorem readText_unit {n : Nat} (small : n < 0x10000) :
    readText done (escapeUnit n ++ rest) = readText (.ofNat n :: done) rest := by
  obtain ⟨a, b, c, d, shape, value, -⟩ := escapeUnit_shape small
  rw [shape, List.cons_append, List.cons_append]
  show readText done ('\\' :: 'u' :: a :: b :: c :: d :: rest) = _
  rw [readText.eq_2, value]

theorem readText_plain (printable : 0x20 ≤ c.toNat) (noQuote : c ≠ '"') (noEscape : c ≠ '\\') :
    readText done (c :: rest) = readText (.char c :: done) rest := by
  -- The code of a unit is looked for first, so each case of the reader has to be ruled out but its last.
  rw [readText.eq_def]
  split
  next same => cases same
  next same => exact absurd (List.cons.inj same).1 noEscape
  next other rest' _ same =>
    obtain ⟨rfl, rfl⟩ := List.cons.inj same
    simp only [beq_iff_eq]
    rw [if_neg noQuote, if_neg (by omega), if_neg noEscape]

theorem readText_short {letter : Char} (short : shortEscape? letter = some c) :
    readText done ('\\' :: letter :: rest) = readText (.char c :: done) rest := by
  have other : letter ≠ 'u' := by
    rintro rfl
    cases short
  rw [readText.eq_def]
  split
  next same => cases same
  next same => exact absurd (List.cons.inj (List.cons.inj same).2).1 other
  next first rest' _ same =>
    obtain ⟨rfl, rfl⟩ := List.cons.inj same
    simp [short]

theorem readText_end : readText done ('"' :: rest) = some (.ofCodes (Code.joined done.reverse), rest) := by
  rw [readText.eq_def]
  split
  next same => cases same
  next same => cases (List.cons.inj same).1
  next first rest' _ same =>
    obtain ⟨rfl, rfl⟩ := List.cons.inj same
    rfl

/-- How a character stands inside quotes: by a letter, as itself, or by one unit or two. -/
inductive Escaped (c : Char) : List Char → Prop
  | short {letter : Char} (short : shortEscape? letter = some c) (plain : isPlain letter = true) :
      Escaped c ['\\', letter]
  | plain (plain : isPlain c = true) (noQuote : c ≠ '"') (noEscape : c ≠ '\\') : Escaped c [c]
  | unit (small : c.toNat < 0x10000) : Escaped c (escapeUnit c.toNat)
  | pair {offset : Nat} (small : offset < 0x100000) (code : c.toNat = 0x10000 + offset) :
      Escaped c (escapeUnit (0xD800 + offset / 0x400) ++ escapeUnit (0xDC00 + offset % 0x400))

theorem escape_escaped (c : Char) : Escaped c (escape c) := by
  by_cases listed : c ∈ ['"', '\\', '\n', '\r', '\t', '\x0c', '\x08']
  · simp only [List.mem_cons, List.not_mem_nil, or_false] at listed
    rcases listed with rfl | rfl | rfl | rfl | rfl | rfl | rfl
    all_goals exact .short rfl rfl
  · simp only [List.mem_cons, List.not_mem_nil, or_false, not_or] at listed
    simp only [escape, beq_iff_eq, listed, if_false, Bool.and_eq_true, decide_eq_true_eq]
    split
    next printable => exact .plain (by simpa [isPlain] using printable) listed.1 listed.2.1
    split
    next small => exact .unit small
    next large =>
      have range := toNat_range c
      exact .pair (by omega) (by omega)

theorem readText_escape (c : Char) : ∃ codes, Code.Spell codes c ∧
    ∀ done rest, readText done (escape c ++ rest) = readText (codes.reverse ++ done) rest := by
  have written := escape_escaped c
  generalize escape c = cs at written ⊢
  cases written with
  | short short _ => exact ⟨_, Code.spell_char c, fun done rest => readText_short short⟩
  | plain plain noQuote noEscape =>
    obtain ⟨low, -⟩ := Bool.and_eq_true_iff.mp plain
    exact ⟨_, Code.spell_char c, fun done rest => readText_plain (of_decide_eq_true low) noQuote noEscape⟩
  | unit small =>
    refine ⟨_, Code.spell_char c, fun done rest => ?_⟩
    rw [readText_unit small, Code.ofNat_toNat]
    rfl
  | pair small code =>
    refine ⟨_, Code.spell_halves small code, fun done rest => ?_⟩
    rw [List.append_assoc, readText_unit (by omega), readText_unit (by omega)]
    rfl

theorem readText_escaped (cs : List Char) : ∃ codes, Code.joined codes = cs.map .char ∧
    ∀ done rest, readText done (cs.flatMap escape ++ rest) = readText (codes.reverse ++ done) rest := by
  induction cs with
  | nil => exact ⟨[], rfl, fun done rest => rfl⟩
  | cons c cs ih =>
    obtain ⟨first, spell, read⟩ := readText_escape c
    obtain ⟨others, joined, readRest⟩ := ih
    refine ⟨first ++ others, by rw [spell, joined, List.map_cons], fun done rest => ?_⟩
    rw [List.flatMap_cons, List.append_assoc, read, readRest, List.reverse_append, List.append_assoc]

/-- What is written of a text is read back up to its quote. -/
theorem readText_quoted (s : String) (rest : List Char) :
    readText [] (s.toList.flatMap escape ++ '"' :: rest) = some (.whole s, rest) := by
  obtain ⟨codes, joined, read⟩ := readText_escaped s.toList
  rw [read, List.append_nil, readText_end, List.reverse_reverse, joined, Spelled.ofCodes_chars, String.ofList_toList]

theorem escape_plain (c : Char) : Plain (escape c) := by
  have unit {n : Nat} (small : n < 0x10000) : Plain (escapeUnit n) := by
    obtain ⟨a, b, c, d, shape, -, plain⟩ := escapeUnit_shape small
    rw [shape]
    exact plain_cons.mpr ⟨rfl, plain_cons.mpr ⟨rfl, plain⟩⟩
  have written := escape_escaped c
  generalize escape c = cs at written ⊢
  cases written with
  | short _ plain => exact plain_cons.mpr ⟨rfl, plain_cons.mpr ⟨plain, by decide⟩⟩
  | plain plain _ _ => exact plain_cons.mpr ⟨plain, by decide⟩
  | unit small => exact unit small
  | pair small _ => exact plain_append.mpr ⟨unit (by omega), unit (by omega)⟩

def Ends (rest : List Char) : Prop :=
  ∀ c ∈ rest.head?, c = ',' ∨ c = '\x7d'

theorem toDigits_ascii (n : Nat) : ∀ c ∈ Nat.toDigits 10 n, isAsciiDigit c = true := by
  intro c member
  have digit := Nat.isDigit_of_mem_toDigits (by decide) (by decide) member
  simp only [Char.isDigit, isAsciiDigit, Bool.and_eq_true, decide_eq_true_eq, ge_iff_le, UInt32.le_iff_toNat_le]
    at digit ⊢
  exact digit

/-- No zero leads but that of zero itself. -/
theorem toDigits_head {n : Nat} (some : n ≠ 0) (ds : List Char) : Nat.toDigits 10 n ≠ '0' :: ds := by
  induction n using Nat.strongRecOn generalizing ds with
  | ind n ih =>
    rw [Nat.toDigits_eq_if (by decide)]
    split
    next one =>
      have nonzero : ∀ n < 10, n ≠ 0 → n.digitChar ≠ '0' := by decide
      intro same
      exact nonzero n one some (List.cons.inj same).1
    next more =>
      intro same
      obtain ⟨c, cs, shape⟩ := List.exists_cons_of_ne_nil (Nat.toDigits_ne_nil (n := n / 10) (b := 10))
      rw [shape] at same
      have zero : c = '0' := (List.cons.inj same).1
      exact ih (n / 10) (by omega) (by omega) cs (zero ▸ shape)

theorem digitsValue_toDigits (n : Nat) : Binary64.digitsValue (Nat.toDigits 10 n) = n :=
  Nat.ofDigitChars_ten_toDigits

/-- A run of digits, without leading zero, is read as a number. -/
theorem readNumber_run {limits : Limits} {ds : List Char} (negative : Bool) (filled : ds ≠ [])
    (each : ∀ c ∈ ds, isAsciiDigit c = true) (lead : ds = ['0'] ∨ ∀ tail, ds ≠ '0' :: tail)
    (few : ds.length ≤ limits.digits) (ends : Ends rest) :
    readNumber limits negative (ds ++ rest) =
      .ok (.int (if negative then -(Binary64.digitsValue ds : Int) else (Binary64.digitsValue ds : Int)), rest) := by
  have stop : rest.takeWhile isAsciiDigit = [] ∧ fractionOf rest = ([], rest) ∧ exponentOf rest = ([], rest) := by
    cases rest with
    | nil => exact ⟨rfl, rfl, rfl⟩
    | cons c rest => rcases ends c rfl with rfl | rfl <;> exact ⟨rfl, rfl, rfl⟩
  obtain ⟨run, fraction, exponent⟩ := stop
  have some : ds.isEmpty = false := by simpa using filled
  have short : ¬ limits.digits < ds.length := Nat.not_lt.mpr few
  unfold readNumber
  split
  next tail same =>
    -- A zero that leads stands alone.
    have alone : ds = ['0'] := by
      obtain ⟨c, cs, rfl⟩ := List.exists_cons_of_ne_nil filled
      have zero : c = '0' := (List.cons.inj same).1
      exact lead.resolve_right fun others => others cs (zero ▸ rfl)
    simp [← alone, some, fraction, exponent, short]
  next =>
    rw [List.takeWhile_append_of_pos each, run, List.append_nil]
    simp [some, fraction, exponent, short]

theorem readNumber_digits {limits : Limits} {n : Nat} (negative : Bool) (some : 0 < limits.digits)
    (few : n < Nat.pow 10 limits.digits) (ends : Ends rest) :
    readNumber limits negative (Nat.toDigits 10 n ++ rest) =
      .ok (.int (if negative then -(n : Int) else n), rest) := by
  have lead : Nat.toDigits 10 n = ['0'] ∨ ∀ tail, Nat.toDigits 10 n ≠ '0' :: tail := by
    by_cases zero : n = 0
    · exact .inl (zero ▸ rfl)
    · exact .inr (toDigits_head zero)
  have short : (Nat.toDigits 10 n).length ≤ limits.digits := (Nat.length_toDigits_le_iff (by decide) some).mpr few
  rw [readNumber_run negative Nat.toDigits_ne_nil (toDigits_ascii n) lead short ends, digitsValue_toDigits]

/-- A digit begins none of the words, nor does it go on with one after a minus sign. -/
theorem readPlain_digit {limits : Limits} (digit : isAsciiDigit c = true) :
    readPlain limits (c :: rest) = readNumber limits false (c :: rest) ∧
      readPlain limits ('-' :: c :: rest) = readNumber limits true (c :: rest) := by
  have other : 'n' ≠ c ∧ 't' ≠ c ∧ 'f' ≠ c ∧ 'N' ≠ c ∧ 'I' ≠ c ∧ '-' ≠ c := by
    refine ⟨?_, ?_, ?_, ?_, ?_, ?_⟩ <;> rintro rfl <;> cases digit
  have unsigned : (words.find? fun w => w.1.toList.isPrefixOf (c :: rest)) = none := by
    simp [words, List.isPrefixOf, other]
  have signed : (words.find? fun w => w.1.toList.isPrefixOf ('-' :: c :: rest)) = none := by
    simp [words, List.isPrefixOf, other]
  constructor
  · rw [readPlain, unsigned]
    exact fun tail same => other.2.2.2.2.2 (List.cons.inj same).1.symm
  · rw [readPlain, signed]

/-- A run of more digits than the limit, without leading zero, is refused. -/
theorem readNumber_long {limits : Limits} {ds : List Char} (negative : Bool) (each : ∀ c ∈ ds, isAsciiDigit c = true)
    (lead : ∀ tail, ds ≠ '0' :: tail) (many : limits.digits < ds.length) :
    readNumber limits negative ds = .error (.digits ds.length) := by
  have whole : ds.takeWhile isAsciiDigit = ds := by
    have run : (ds ++ []).takeWhile isAsciiDigit = ds ++ [].takeWhile isAsciiDigit := List.takeWhile_append_of_pos each
    simpa using run
  have some : ds.isEmpty = false := by
    rw [List.isEmpty_eq_false_iff_exists_mem]
    exact List.exists_mem_of_length_pos (Nat.zero_lt_of_lt many)
  unfold readNumber
  split
  next tail => exact absurd rfl (lead tail)
  next => simp [whole, some, fractionOf, exponentOf, many]

theorem toString_toList (i : Int) :
    (toString i).toList = (if 0 ≤ i then [] else ['-']) ++ Nat.toDigits 10 i.natAbs := by
  rw [Int.toString_eq_repr, Int.repr_eq_if]
  split
  next => rw [Nat.repr_eq_ofList_toDigits, String.toList_ofList, show i.toNat = i.natAbs by omega, List.nil_append]
  next =>
    rw [String.toList_append, Nat.repr_eq_ofList_toDigits, String.toList_ofList, String.toList_ofList,
      show (-i).toNat = i.natAbs by omega]

theorem readPlain_int {i : Int} {nesting : Nat} (writable : Whole.isUnwritable i = false) (ends : Ends rest) :
    readPlain (.standard nesting) ((toString i).toList ++ rest) = .ok (.int i, rest) := by
  have few : i.natAbs < Nat.pow 10 (Limits.standard nesting).digits := Whole.isUnwritable_eq_false.mp writable
  have number (negative : Bool) := readNumber_digits negative (by decide : 0 < Whole.digitLimit) few ends
  obtain ⟨c, cs, digits⟩ := List.exists_cons_of_ne_nil (Nat.toDigits_ne_nil (n := i.natAbs) (b := 10))
  have digit : isAsciiDigit c = true := toDigits_ascii i.natAbs c (digits ▸ List.mem_cons_self)
  rw [toString_toList, digits]
  rw [digits, List.cons_append] at number
  split
  next positive =>
    rw [List.nil_append, List.cons_append, (readPlain_digit digit).1, number, if_neg (by decide),
      Int.natAbs_of_nonneg positive]
  next negative =>
    rw [List.singleton_append, List.cons_append, List.cons_append, (readPlain_digit digit).2, number, if_pos rfl,
      show -(i.natAbs : Int) = i by omega]

theorem mem_toString {i : Int} (member : c ∈ (toString i).toList) : c = '-' ∨ isAsciiDigit c = true := by
  rw [toString_toList, List.mem_append] at member
  rcases member with sign | digit
  · split at sign
    · cases sign
    · exact .inl (List.mem_singleton.mp sign)
  · exact .inr (toDigits_ascii _ c digit)

theorem isPlain_of_digit (digit : isAsciiDigit c = true) : isPlain c = true := by
  simp only [isAsciiDigit, isPlain, Bool.and_eq_true, decide_eq_true_eq] at digit ⊢
  omega

theorem quote_toList (s : String) : (quote (.whole s)).toList = '"' :: (s.toList.flatMap escape ++ ['"']) := by
  rw [quote, String.toList_ofList]
  rfl

theorem quote_plain (s : String) : Plain (quote (.whole s)).toList := by
  rw [quote_toList]
  refine plain_cons.mpr ⟨rfl, plain_append.mpr ⟨fun c member => ?_, by decide⟩⟩
  obtain ⟨d, -, written⟩ := List.mem_flatMap.mp member
  exact escape_plain d c written

/-- The data that are read back as they were written. -/
inductive Datum : Scalar → Prop
  | null : Datum .null
  | bool (b : Bool) : Datum (.bool b)
  | int {i : Int} (writable : Whole.isUnwritable i = false) : Datum (.int i)
  | str (s : String) : Datum (.str s)

/-- What begins neither a text nor a list nor a map is a word or a number. -/
theorem readValue_plain {limits : Limits} {fuel depth : Nat} {cs : List Char}
    (other : ∀ c ∈ cs.head?, c ≠ '"' ∧ c ≠ '[' ∧ c ≠ '\x7b') :
    readValue limits (fuel + 1) depth cs = (readPlain limits cs).map fun (s, rest) => (.scalar s, rest) := by
  rw [readValue.eq_5]
  · cases readPlain limits cs <;> rfl
  all_goals
    rintro tail rfl
    simpa using other _ rfl

/-- A digit begins neither a text nor a list nor a map. -/
theorem digit_solid (digit : isAsciiDigit c = true) : isBlank c = false ∧ c ≠ '"' ∧ c ≠ '[' ∧ c ≠ '\x7b' := by
  simp only [isBlank, Bool.or_eq_false_iff, beq_eq_false_iff_ne]
  refine ⟨⟨⟨⟨?_, ?_⟩, ?_⟩, ?_⟩, ?_, ?_, ?_⟩ <;> rintro rfl <;> cases digit

/-- A text that is such a run is not read. -/
theorem read_long {ds : List Char} (each : ∀ c ∈ ds, isAsciiDigit c = true) (lead : ∀ tail, ds ≠ '0' :: tail)
    (many : Whole.digitLimit < ds.length) (nesting : Nat) :
    read nesting (String.ofList ds) = .error (.digits ds.length) := by
  obtain ⟨c, tail, rfl⟩ := List.exists_cons_of_length_pos (Nat.zero_lt_of_lt many)
  obtain ⟨solid, other⟩ := digit_solid (each c List.mem_cons_self)
  have start : skipBlanks (c :: tail) = c :: tail := List.dropWhile_cons_of_neg (by simp [solid])
  have number : readPlain (.standard nesting) (c :: tail) = .error (.digits (c :: tail).length) :=
    (readPlain_digit (each c List.mem_cons_self)).1.trans (readNumber_long false each lead many)
  have value (fuel : Nat) :
      readValue (.standard nesting) (fuel + 1) 0 (c :: tail) = .error (.digits (c :: tail).length) := by
    rw [readValue_plain, number]
    · rfl
    · intro d head
      cases head
      exact other
  rw [read, readWithin, String.toList_ofList, start]
  show (readValue (.standard nesting) (2 * (c :: tail).length + 2) 0 (c :: tail) >>= _) = _
  rw [value]
  rfl

/-- A text that is written for a datum: plain characters that are read back up to their end. -/
structure Stands (s : Scalar) (text : String) : Prop where
  plain : Plain text.toList
  begun : ∃ c cs, text.toList = c :: cs ∧ isBlank c = false
  read : ∀ nesting fuel depth rest, Ends rest →
    readValue (.standard nesting) (fuel + 1) depth (text.toList ++ rest) = .ok (.scalar s, rest)

theorem Stands.of_quote (s : String) : Stands (.str s) (quote (.whole s)) where
  plain := quote_plain s
  begun := ⟨_, _, quote_toList s, rfl⟩
  read nesting fuel depth rest ends := by
    rw [quote_toList, List.cons_append, List.append_assoc, List.singleton_append, readValue.eq_2, readText_quoted]
    rfl

theorem Stands.of_int {i : Int} (writable : Whole.isUnwritable i = false) : Stands (.int i) (toString i) := by
  obtain ⟨c, cs, shape⟩ : ∃ c cs, (toString i).toList = c :: cs :=
    List.exists_cons_of_ne_nil (by rw [toString_toList]; simp [Nat.toDigits_ne_nil])
  have first := mem_toString (shape ▸ List.mem_cons_self : c ∈ (toString i).toList)
  have solid : isBlank c = false ∧ c ≠ '"' ∧ c ≠ '[' ∧ c ≠ '\x7b' := by
    rcases first with rfl | digit
    · decide
    · exact digit_solid digit
  constructor
  · intro d member
    rcases mem_toString member with rfl | digit
    · rfl
    · exact isPlain_of_digit digit
  · exact ⟨c, cs, shape, solid.1⟩
  · intro nesting fuel depth rest ends
    rw [readValue_plain, readPlain_int writable ends]
    · rfl
    · intro d head
      rw [shape, List.cons_append, List.head?_cons, Option.mem_some_iff] at head
      exact head ▸ solid.2

theorem Datum.stands {s : Scalar} (datum : Datum s) : ∃ text, scalar s = .ok text ∧ Stands s text := by
  cases datum with
  | null => exact ⟨"null", rfl, by decide, ⟨_, _, rfl, rfl⟩, fun nesting fuel depth rest ends => rfl⟩
  | bool b =>
    cases b with
    | true => exact ⟨"true", rfl, by decide, ⟨_, _, rfl, rfl⟩, fun nesting fuel depth rest ends => rfl⟩
    | false => exact ⟨"false", rfl, by decide, ⟨_, _, rfl, rfl⟩, fun nesting fuel depth rest ends => rfl⟩
  | int writable => exact ⟨_, by rw [scalar, if_neg (by simp [writable])], .of_int writable⟩
  | str s => exact ⟨_, rfl, .of_quote s⟩

section Entries

variable {name text : String} {s : Scalar} {nesting fuel depth : Nat}

theorem entry_toList (name text : String) (rest : List Char) :
    (quote (.whole name) ++ ": " ++ text).toList ++ rest =
      '"' :: (name.toList.flatMap escape ++ '"' :: ':' :: ' ' :: (text.toList ++ rest)) := by
  simp [quote_toList]

theorem Stands.skipBlanks (stands : Stands s text) (rest : List Char) :
    skipBlanks (' ' :: (text.toList ++ rest)) = text.toList ++ rest := by
  obtain ⟨c, cs, shape, solid⟩ := stands.begun
  rw [shape, List.cons_append]
  exact (List.dropWhile_cons_of_pos rfl).trans (List.dropWhile_cons_of_neg (by simp [solid]))

theorem readEntries_last (stands : Stands s text) (rest : List Char) :
    readEntries (.standard nesting) (fuel + 2) depth ((quote (.whole name) ++ ": " ++ text).toList ++ '\x7d' :: rest) =
      .ok ([(.str name, .scalar s)], rest) := by
  have value := stands.read nesting fuel depth ('\x7d' :: rest) (by simp [Ends])
  rw [entry_toList, readEntries.eq_2, readText_quoted]
  show (readValue (.standard nesting) (fuel + 1) depth (Json.skipBlanks (' ' :: _)) >>= _) = _
  rw [stands.skipBlanks, value]
  rfl

theorem readEntries_next {rest after : List Char} {entries : List (Scalar × Value)}
    (stands : Stands s text)
    (others : readEntries (.standard nesting) (fuel + 1) depth ('"' :: rest) = .ok (entries, after)) :
    readEntries (.standard nesting) (fuel + 2) depth
        ((quote (.whole name) ++ ": " ++ text).toList ++ ',' :: ' ' :: '"' :: rest) =
      .ok ((.str name, .scalar s) :: entries, after) := by
  have value := stands.read nesting fuel depth (',' :: ' ' :: '"' :: rest) (by simp [Ends])
  rw [entry_toList, readEntries.eq_2, readText_quoted]
  show (readValue (.standard nesting) (fuel + 1) depth (Json.skipBlanks (' ' :: _)) >>= _) = _
  rw [stands.skipBlanks, value]
  show (readEntries (.standard nesting) (fuel + 1) depth ('"' :: rest) >>= _) = _
  rw [others]
  rfl

theorem entry_plain (stands : Stands s text) : Plain (quote (.whole name) ++ ": " ++ text).toList := by
  rw [String.toList_append, String.toList_append]
  exact plain_append.mpr ⟨plain_append.mpr ⟨quote_plain name, by decide⟩, stands.plain⟩

def flat (entries : List (String × Scalar)) : List (Scalar × Value) :=
  entries.map fun entry => (.str entry.1, .scalar entry.2)

/-- A text that is written for the inside of such a map: plain characters that are read back up to its end. -/
structure Lists (entries : List (String × Scalar)) (text : String) : Prop where
  plain : Plain text.toList
  begun : ∃ cs, text.toList = '"' :: cs
  long : entries.length ≤ text.toList.length
  read : ∀ nesting fuel depth rest, entries.length ≤ fuel →
    readEntries (.standard nesting) (fuel + 1) depth (text.toList ++ '\x7d' :: rest) = .ok (flat entries, rest)

theorem Lists.single (stands : Stands s text) :
    Lists [(name, s)] (quote (.whole name) ++ ": " ++ text) where
  plain := entry_plain stands
  begun := ⟨_, (List.append_nil _).symm.trans (entry_toList name text [])⟩
  long := by simp [quote_toList]
  read nesting fuel depth rest enough := by
    obtain ⟨fuel, rfl⟩ := Nat.exists_eq_add_of_le' enough
    exact readEntries_last stands rest

theorem Lists.cons {entries : List (String × Scalar)} {more : String}
    (stands : Stands s text) (lists : Lists entries more) :
    Lists ((name, s) :: entries) (quote (.whole name) ++ ": " ++ text ++ ", " ++ more) where
  plain := by
    rw [String.toList_append, String.toList_append]
    exact plain_append.mpr ⟨plain_append.mpr ⟨entry_plain stands, by decide⟩, lists.plain⟩
  begun := by
    rw [String.toList_append, String.toList_append, List.append_assoc, entry_toList]
    exact ⟨_, rfl⟩
  long := by
    have long := lists.long
    simp [quote_toList] at long ⊢
    omega
  read nesting fuel depth rest enough := by
    obtain ⟨fuel, rfl⟩ := Nat.exists_eq_add_of_le' (Nat.le_of_add_left_le enough : 1 ≤ fuel)
    obtain ⟨cs, shape⟩ := lists.begun
    have others := lists.read nesting fuel depth rest (Nat.le_of_succ_le_succ enough)
    rw [shape] at others
    rw [String.toList_append, String.toList_append, shape, List.append_assoc, List.append_assoc]
    exact readEntries_next stands others

theorem printEntries_flat {entries : List (String × Scalar)} (filled : entries ≠ [])
    (each : ∀ entry ∈ entries, Datum entry.2) :
    ∃ texts, printEntries (flat entries) = .ok texts ∧ Lists entries (Text.join ", " texts) := by
  induction entries with
  | nil => exact absurd rfl filled
  | cons entry entries ih =>
    obtain ⟨name, s⟩ := entry
    obtain ⟨datum, others⟩ := List.forall_mem_cons.mp each
    obtain ⟨text, printed, stands⟩ := datum.stands
    have shown : print (.scalar s) = .ok text := by rw [print, printed]
    cases entries with
    | nil =>
      refine ⟨[quote (.whole name) ++ ": " ++ text], ?_, .single stands⟩
      simp [flat, printEntries, keyText, shown, bind, Except.bind, pure, Except.pure]
    | cons next entries =>
      obtain ⟨texts, printedRest, lists⟩ := ih (by simp) others
      obtain ⟨cs, begun⟩ := lists.begun
      cases texts with
      | nil => cases begun
      | cons second texts =>
        refine ⟨(quote (.whole name) ++ ": " ++ text) :: second :: texts, ?_, .cons stands lists⟩
        have head : keyText (.str name) = .ok (.whole name) := rfl
        change printEntries ((.str name, .scalar s) :: flat (next :: entries)) = _
        rw [printEntries, head, shown, printedRest]
        rfl

end Entries

theorem insert_flat {entries : List (String × Scalar)} {name : String} (fresh : name ∉ entries.map Prod.fst)
    (s : Scalar) : Entries.insert (flat entries) (.str name) (.scalar s) = flat (entries ++ [(name, s)]) := by
  have none : ((flat entries).any fun entry => entry.1.same (.str name)) = false := by
    rw [List.any_eq_false]
    intro entry member
    obtain ⟨⟨other, value⟩, listed, rfl⟩ := List.mem_map.mp member
    have differ : other ≠ name := by
      rintro rfl
      exact fresh (List.mem_map_of_mem listed)
    simp [Scalar.same, Scalar.isKey, Scalar.key, differ]
  rw [Entries.insert, none]
  simp [flat]

theorem ofList_flat {entries : List (String × Scalar)} (distinct : (entries.map Prod.fst).Nodup) :
    Entries.ofList (flat entries) = flat entries := by
  induction entries using List.reverseRecOn with
  | nil => rfl
  | append_singleton entries entry ih =>
    obtain ⟨name, s⟩ := entry
    rw [List.map_append, List.nodup_append] at distinct
    have fresh : name ∉ entries.map Prod.fst := fun member => distinct.2.2 name member name List.mem_cons_self rfl
    calc Entries.ofList (flat (entries ++ [(name, s)]))
      _ = Entries.insert (Entries.ofList (flat entries)) (.str name) (.scalar s) := by simp [Entries.ofList, flat]
      _ = Entries.insert (flat entries) (.str name) (.scalar s) := by rw [ih distinct.1]
      _ = flat (entries ++ [(name, s)]) := insert_flat fresh s

theorem readValue_flat {entries : List (String × Scalar)} {text : String} (lists : Lists entries text)
    (distinct : (entries.map Prod.fst).Nodup) {fuel nesting : Nat} (enough : entries.length ≤ fuel)
    (room : 0 < nesting) (rest : List Char) :
    readValue (.standard nesting) (fuel + 2) 0 ('\x7b' :: (text.toList ++ '\x7d' :: rest)) =
      .ok (.map (flat entries), rest) := by
  obtain ⟨cs, begun⟩ := lists.begun
  have inside := lists.read nesting fuel 1 rest enough
  rw [begun, List.cons_append] at inside ⊢
  have depth : ¬ (Limits.standard nesting).depth ≤ 0 := Nat.not_le.mpr room
  rw [readValue.eq_4, if_neg depth]
  show (readEntries (.standard nesting) (fuel + 1) 1 ('"' :: (cs ++ '\x7d' :: rest)) >>= _) = _
  rw [inside]
  show Except.ok (Value.map (Entries.ofList (flat entries)), rest) = _
  rw [ofList_flat distinct]

/-- A map of data under distinct text keys is written in curly brackets, in plain characters, and read back wherever
there is room for a map. -/
theorem read_flat {entries : List (String × Scalar)} (filled : entries ≠ [])
    (each : ∀ entry ∈ entries, Datum entry.2) (distinct : (entries.map Prod.fst).Nodup) :
    ∃ line, print (.map (flat entries)) = .ok line ∧ Plain line.toList ∧
      '\x7b' ∈ line.toList ∧ ∀ nesting, 0 < nesting → read nesting line = .ok (.map (flat entries)) := by
  obtain ⟨texts, printed, lists⟩ := printEntries_flat filled each
  have line : print (.map (flat entries)) = .ok ("\x7b" ++ Text.join ", " texts ++ "\x7d") := by
    rw [print, printed]
    rfl
  generalize Text.join ", " texts = inside at lists line
  have chars : ("\x7b" ++ inside ++ "\x7d").toList = '\x7b' :: (inside.toList ++ ['\x7d']) := by
    rw [String.toList_append, String.toList_append]
    rfl
  refine ⟨_, line, ?_, ?_, ?_⟩
  · rw [chars]
    exact plain_cons.mpr ⟨rfl, plain_append.mpr ⟨lists.plain, by decide⟩⟩
  · rw [chars]
    exact List.mem_cons_self
  · intro nesting room
    have enough : entries.length ≤ 2 * (inside.toList.length + 2) := by
      have long := lists.long
      omega
    have value := readValue_flat lists distinct enough room []
    have start : skipBlanks ('\x7b' :: (inside.toList ++ ['\x7d'])) = '\x7b' :: (inside.toList ++ ['\x7d']) := rfl
    have size : ('\x7b' :: (inside.toList ++ ['\x7d'])).length = inside.toList.length + 2 := by simp
    simp only [read, readWithin, chars]
    rw [start, size, value]
    rfl

end Json
end Leasehold
