import Leasehold.Text.Blank
import Leasehold.Text.Lines
import Mathlib.Data.List.DropRight

/-! Words and lines. A text that is put together from words without blanks is read back word by word, and one that is
put together from lines without line ends is read back line by line. Numbers are words. What was stripped at its ends
has nothing more to strip there. -/

namespace Leasehold
namespace Text

def Avoids (p : Char → Bool) (s : String) : Prop :=
  ∀ c ∈ s.toList, p c = false

structure IsWord (s : String) : Prop where
  filled : s ≠ ""
  whole : Avoids isBlank s

def words (s : String) : List String :=
  ((s.toList.splitOnP isBlank).filter fun word => !word.isEmpty).map String.ofList

/-- A blank that is no space. -/
def isBreak (c : Char) : Bool :=
  isBlank c && c != ' '

structure EndsLines (ends : Char → Bool) : Prop where
  feed : ends '\n' = true
  carriage : ends '\r' = true
  blank : ∀ c, ends c = true → isBreak c = true

instance (p : Char → Bool) (s : String) : Decidable (Avoids p s) :=
  List.decidableBAll (fun c => p c = false) s.toList

instance (s : String) : Decidable (IsWord s) :=
  decidable_of_iff (s ≠ "" ∧ Avoids isBlank s) ⟨fun ⟨filled, whole⟩ => ⟨filled, whole⟩, fun word => ⟨word.1, word.2⟩⟩

variable {p q ends : Char → Bool} {cs : List Char} {s t separator : String} {parts lines : List String}

theorem avoids_append : Avoids p (s ++ t) ↔ Avoids p s ∧ Avoids p t := by
  simp only [Avoids, String.toList_append, List.forall_mem_append]

theorem Avoids.mono (avoids : Avoids q s) (weaker : ∀ c, p c = true → q c = true) : Avoids p s := by
  intro c member
  cases bad : p c with
  | false => rfl
  | true =>
    have worse := weaker c bad
    rw [avoids c member] at worse
    exact worse.symm

theorem Avoids.join (between : Avoids p separator) (each : ∀ part ∈ parts, Avoids p part) :
    Avoids p (join separator parts) := by
  induction parts with
  | nil => exact fun c member => by cases member
  | cons part rest ih =>
    obtain ⟨first, others⟩ := List.forall_mem_cons.mp each
    cases rest with
    | nil => exact first
    | cons next rest =>
      rw [Text.join.eq_def]
      exact avoids_append.mpr ⟨avoids_append.mpr ⟨first, between⟩, ih others⟩

theorem IsWord.oneLine (word : IsWord s) : Avoids isBreak s :=
  word.whole.mono fun _ bad => (Bool.and_eq_true_iff.mp bad).1

theorem avoids_of_mem_splitOnP {cs piece : List Char} (member : piece ∈ cs.splitOnP p) : ∀ c ∈ piece, p c = false := by
  induction cs generalizing piece with
  | nil =>
    rw [List.splitOnP_nil, List.mem_singleton] at member
    simp [member]
  | cons c rest ih =>
    rw [List.splitOnP_cons_eq_if_modifyHead] at member
    by_cases cut : p c = true
    · rw [if_pos cut] at member
      rcases List.mem_cons.mp member with first | later
      · simp [first]
      · exact ih later
    · rw [if_neg cut] at member
      -- The first piece of the rest takes the character; the others are as they were.
      obtain ⟨first, others, shape⟩ := List.exists_cons_of_ne_nil (List.splitOnP_ne_nil p rest)
      rw [shape, List.modifyHead_cons] at member
      rcases List.mem_cons.mp member with longer | later
      · rw [longer]
        exact List.forall_mem_cons.mpr ⟨Bool.not_eq_true _ ▸ cut, ih (shape ▸ List.mem_cons_self)⟩
      · exact ih (shape ▸ List.mem_cons_of_mem first later)

theorem isWord_of_mem_words {word : String} (member : word ∈ words s) : IsWord word := by
  obtain ⟨piece, listed, rfl⟩ := List.mem_map.mp member
  obtain ⟨cut, filled⟩ := List.mem_filter.mp listed
  constructor
  · intro empty
    have nothing : piece = [] := by simpa using congrArg String.toList empty
    simp [nothing] at filled
  · intro c there
    rw [String.toList_ofList] at there
    exact avoids_of_mem_splitOnP cut c there

theorem IsWord.words (word : IsWord s) : words s = [s] := by
  have filled : s.toList ≠ [] := fun empty => word.filled (String.toList_inj.mp empty)
  rw [Text.words, List.splitOnP_eq_singleton word.whole]
  simp [filled]

/-- A space after a word ends it. -/
theorem words_cons (word : IsWord s) (t : String) : words (s ++ " " ++ t) = s :: words t := by
  have cut : (s ++ " " ++ t).toList = s.toList ++ ' ' :: t.toList := by simp
  have first := word.words
  rw [Text.words, cut, List.splitOnP_append_cons _ _ (by decide), List.filter_append, List.map_append]
  rw [Text.words] at first
  rw [first]
  rfl

theorem words_join (each : ∀ part ∈ parts, IsWord part) : words (join " " parts) = parts := by
  induction parts with
  | nil => rfl
  | cons part rest ih =>
    obtain ⟨first, others⟩ := List.forall_mem_cons.mp each
    cases rest with
    | nil => exact first.words
    | cons next rest => rw [Text.join.eq_def, words_cons first, ih others]

theorem cutLines_line (ends : EndsLines p) {line : List Char} (whole : ∀ c ∈ line, p c = false)
    (opened rest : List Char) :
    cutLines p opened (line ++ '\n' :: rest) = (opened.reverse ++ line) :: cutLines p [] rest := by
  induction line generalizing opened with
  | nil => simp [cutLines, ends.feed]
  | cons c line ih =>
    obtain ⟨first, others⟩ := List.forall_mem_cons.mp whole
    have other : c ≠ '\r' := by
      rintro rfl
      rw [ends.carriage] at first
      cases first
    rw [List.cons_append, cutLines.eq_3 _ _ _ _ fun rest same => absurd same other, if_neg (by simp [first]), ih others]
    simp

/-- Lines that hold no line end are cut where they end. -/
theorem cutLines_lines (ends : EndsLines p) (whole : ∀ line ∈ lines, Avoids p line) :
    cutLines p [] (lines.flatMap fun line => line.toList ++ ['\n']) = lines.map String.toList := by
  induction lines with
  | nil => rfl
  | cons line lines ih =>
    obtain ⟨first, others⟩ := List.forall_mem_cons.mp whole
    rw [List.flatMap_cons, List.append_assoc, List.singleton_append, cutLines_line ends first, ih others]
    rfl

/-- What is written line by line is read line by line. -/
theorem cutLines_join (ends : EndsLines p) {first : String} {rest : List String}
    (whole : ∀ line ∈ first :: rest, Avoids p line) :
    cutLines p [] (join "\n" (first :: rest) ++ "\n").toList = (first :: rest).map String.toList := by
  have ended : (join "\n" (first :: rest) ++ "\n").toList =
      (first :: rest).flatMap fun line => line.toList ++ ['\n'] := by
    clear whole
    induction rest generalizing first with
    | nil => simp [join]
    | cons next rest ih =>
      rw [List.flatMap_cons, ← ih]
      simp [join]
  rw [ended, cutLines_lines ends whole]

theorem ends_of_file : EndsLines fun c => c == '\n' || c == '\r' := by
  refine ⟨rfl, rfl, fun c ended => ?_⟩
  rcases Bool.or_eq_true_iff.mp ended with feed | carriage
  · rw [beq_iff_eq.mp feed]
    decide
  · rw [beq_iff_eq.mp carriage]
    decide

theorem ends_of_output : EndsLines isLineBoundary := by
  refine ⟨rfl, rfl, fun c ended => ?_⟩
  have other : c ≠ ' ' := by
    rintro rfl
    cases ended
  have blank : isBlank c = true := by
    simp only [isLineBoundary, isBlank, isWhiteSpace, isInformationSeparator, Bool.or_eq_true, Bool.and_eq_true,
      decide_eq_true_eq, beq_iff_eq] at ended ⊢
    omega
  simp [isBreak, blank, other]

/-- A line feed ends the first line of a file. -/
theorem fileLines_cons (whole : Avoids isBreak s) (t : String) : fileLines (s ++ "\n" ++ t) = s :: fileLines t := by
  have cut : (s ++ "\n" ++ t).toList = s.toList ++ '\n' :: t.toList := by simp
  have first := whole.mono ends_of_file.blank
  rw [fileLines, cut, cutLines_line ends_of_file first]
  simp [fileLines]

theorem fileLines_join {first : String} {rest : List String} (whole : ∀ line ∈ first :: rest, Avoids isBreak line) :
    fileLines (join "\n" (first :: rest) ++ "\n") = first :: rest := by
  rw [fileLines, cutLines_join ends_of_file fun line member => (whole line member).mono ends_of_file.blank,
    List.map_map]
  exact List.map_id'' (fun line => String.ofList_toList) _

theorem outputLines_join {first : String} {rest : List String} (whole : ∀ line ∈ first :: rest, Avoids isBreak line) :
    outputLines (join "\n" (first :: rest) ++ "\n") = first :: rest := by
  rw [outputLines, cutLines_join ends_of_output fun line member => (whole line member).mono ends_of_output.blank,
    List.map_map]
  exact List.map_id'' (fun line => String.ofList_toList) _

theorem digitChar_whole (n : Nat) : isBlank n.digitChar = false := by
  by_cases small : n < 16
  · have listed : ∀ n < 16, isBlank (Nat.digitChar n) = false := by decide
    exact listed n small
  · rw [Nat.digitChar_eq_star.mpr (by omega)]
    rfl

theorem digits_avoid {base : Nat} (large : 1 < base) (each : ∀ d < base, p d.digitChar = false) (n : Nat) :
    Avoids p (String.ofList (Nat.toDigits base n)) := by
  induction n using Nat.strongRecOn with
  | ind n ih =>
    rw [Nat.toDigits_eq_if large]
    split
    next small => simpa [Avoids] using each n small
    next greater =>
      have less : n / base < n := Nat.div_lt_self (by omega) large
      rw [String.ofList_append]
      exact avoids_append.mpr ⟨ih _ less, by simpa [Avoids] using each _ (Nat.mod_lt n (by omega))⟩

theorem digits_isWord {base : Nat} (large : 1 < base) (n : Nat) : IsWord (String.ofList (Nat.toDigits base n)) := by
  refine ⟨fun empty => ?_, digits_avoid large (fun d _ => digitChar_whole d) n⟩
  have nothing := congrArg String.toList empty
  rw [String.toList_ofList] at nothing
  exact Nat.toDigits_ne_nil nothing

theorem nat_isWord (n : Nat) : IsWord (toString n) :=
  digits_isWord (by decide) n

theorem int_isWord (n : Int) : IsWord (toString n) := by
  rw [Int.toString_eq_repr, Int.repr_eq_if]
  split
  · exact nat_isWord _
  · have digits := nat_isWord (-n).toNat
    constructor
    · intro empty
      have nothing := congrArg String.toList empty
      simp at nothing
    · exact avoids_append.mpr ⟨by decide, digits.whole⟩

theorem IsWord.join (between : Avoids isBlank separator) (each : ∀ part ∈ parts, IsWord part) (some : parts ≠ []) :
    IsWord (join separator parts) := by
  refine ⟨?_, Avoids.join between fun part member => (each part member).whole⟩
  intro empty
  cases parts with
  | nil => exact some rfl
  | cons part rest =>
    have filled := (each part List.mem_cons_self).filled
    cases rest with
    | nil => exact filled empty
    | cons next rest =>
      have nothing := congrArg String.toList empty
      simp only [Text.join, String.toList_append, String.toList_empty, List.append_eq_nil_iff] at nothing
      exact filled (String.toList_inj.mp nothing.1.1)

structure Trimmed (p : Char → Bool) (cs : List Char) : Prop where
  front : ∀ c ∈ cs.head?, p c = false
  back : ∀ c ∈ cs.getLast?, p c = false

theorem trimChars_trimmed (p : Char → Bool) (cs : List Char) : Trimmed p (trimChars p cs) := by
  have shape : trimChars p cs = (cs.dropWhile p).rdropWhile p := rfl
  rw [shape]
  constructor
  · intro c first
    obtain ⟨rest, kept⟩ := List.head?_eq_some_iff.mp first
    obtain ⟨dropped, whole⟩ := List.rdropWhile_prefix p (cs.dropWhile p)
    have begins := List.head?_dropWhile_not p cs
    rw [← whole, kept] at begins
    exact begins
  · intro c last
    obtain ⟨rest, kept⟩ := List.getLast?_eq_some_iff.mp last
    have ends := List.rdropWhile_last_not p (cs.dropWhile p) (by simp [kept])
    simpa [kept] using ends

theorem Trimmed.trimChars (trimmed : Trimmed p cs) : trimChars p cs = cs := by
  have front : cs.dropWhile p = cs := by
    cases cs with
    | nil => rfl
    | cons c rest => exact List.dropWhile_cons_of_neg (by simp [trimmed.front c rfl])
  have back : cs.rdropWhile p = cs :=
    List.rdropWhile_eq_self_iff.mpr fun filled => by simp [trimmed.back _ (List.getLast?_eq_some_getLast filled)]
  change (cs.dropWhile p).rdropWhile p = cs
  rw [front, back]

/-- What is stripped has nothing to strip. -/
theorem trim_trimmed (trimmed : Trimmed p s.toList) : trim p s = s := by
  rw [trim, trimmed.trimChars, String.ofList_toList]

theorem trimmed_of_absent (absent : ∀ c ∈ cs, p c = false) : Trimmed p cs :=
  ⟨fun c first => absent c (List.mem_of_mem_head? first), fun c last => absent c (List.mem_of_getLast? last)⟩

theorem trimChars_absent (absent : ∀ c ∈ cs, ¬ p c) : trimChars p cs = cs :=
  (trimmed_of_absent fun c member => Bool.eq_false_iff.mpr (absent c member)).trimChars

theorem Avoids.trimmed (avoids : Avoids p s) : Trimmed p s.toList := trimmed_of_absent avoids

end Text

end Leasehold
