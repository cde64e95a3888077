import Leasehold.Command
import Mathlib.Data.List.Forall2

/-! Command lines and lists of arguments. A command may be given either way, so a list has to come to the same words as
the line that says it to a shell: each argument in single quotes, or as it is if it needs none. -/

namespace Leasehold
namespace Words

/-- A single quote cannot stand in single quotes: they are closed for it, and it stands in double ones. -/
def quoteChar (c : Char) : List Char :=
  if c = '\'' then ['\'', '"', '\'', '"', '\''] else [c]

def quote (word : String) : String :=
  String.ofList ('\'' :: word.toList.flatMap quoteChar ++ ['\''])

def isPlain (c : Char) : Bool :=
  !isSeparator c && c != '\\' && c != '\'' && c != '"'

/-- How a line may write an argument. -/
inductive Spells : String → String → Prop
  | quoted (word : String) : Spells (quote word) word
  | plain (word : String) (filled : word ≠ "") (needless : ∀ c ∈ word.toList, isPlain c = true) : Spells word word

/-- A text that is read as the same part of a word, at the beginning of the word and later on. -/
structure Writes (text part : List Char) : Prop where
  first : ∀ rest, scan .between [] (text ++ rest) = scan .inWord part.reverse rest
  later : ∀ word rest, scan .inWord word (text ++ rest) = scan .inWord (part.reverse ++ word) rest

variable {texts words : List String}

theorem scan_quoted (part word rest : List Char) :
    scan .inSingle word (part.flatMap quoteChar ++ '\'' :: rest) = scan .inWord (part.reverse ++ word) rest := by
  induction part generalizing word with
  | nil => simp [scan]
  | cons c part ih =>
    have next := ih (c :: word)
    by_cases quote : c = '\''
    · -- The quotes around are closed, and opened again behind it.
      subst quote
      simpa [quoteChar, scan, isSeparator] using next
    · simpa [quoteChar, scan, quote] using next

theorem writes_quote (word : String) : Writes (quote word).toList word.toList := by
  constructor
  · intro rest
    have read := scan_quoted word.toList [] rest
    simpa [quote, scan, isSeparator] using read
  · intro begun rest
    have read := scan_quoted word.toList begun rest
    simpa [quote, scan, isSeparator] using read

theorem writes_char {c : Char} (plain : isPlain c = true) : Writes [c] [c] := by
  simp only [isPlain, Bool.and_eq_true, Bool.not_eq_true', bne_iff_ne] at plain
  obtain ⟨⟨⟨separator, escape⟩, single⟩, double⟩ := plain
  constructor
  · intro rest
    simp [scan, separator, escape, single, double]
  · intro word rest
    simp [scan, separator, escape, single, double]

theorem Writes.append {text text' part part' : List Char} (begins : Writes text part) (ends : Writes text' part') :
    Writes (text ++ text') (part ++ part') := by
  constructor
  · intro rest
    rw [List.append_assoc, begins.first, ends.later, List.reverse_append]
  · intro word rest
    rw [List.append_assoc, begins.later, ends.later, List.reverse_append, List.append_assoc]

theorem writes_plain {c : Char} {part : List Char} (needless : ∀ c' ∈ c :: part, isPlain c' = true) :
    Writes (c :: part) (c :: part) := by
  induction part generalizing c with
  | nil => exact writes_char (needless c List.mem_cons_self)
  | cons next part ih =>
    obtain ⟨plain, others⟩ := List.forall_mem_cons.mp needless
    exact (writes_char plain).append (ih others)

theorem Spells.writes {text word : String} (spells : Spells text word) : Writes text.toList word.toList := by
  cases spells with
  | quoted => exact writes_quote word
  | plain _ filled needless =>
    have some : text.toList ≠ [] := fun empty => filled (String.toList_eq_nil_iff.mp empty)
    obtain ⟨c, part, same⟩ := List.exists_cons_of_ne_nil some
    rw [same] at needless ⊢
    exact writes_plain needless

/-- Words are read back from any line that spells them. -/
theorem split_join (spelled : List.Forall₂ Spells texts words) : split (Text.join " " texts) = .ok words := by
  have scanned : scan .between [] (Text.join " " texts).toList = .ok (words.map String.toList) := by
    induction spelled with
    | nil => rfl
    | @cons text word texts words spells rest ih =>
      cases rest with
      | nil =>
        have read := spells.writes.first []
        simpa [Text.join, scan] using read
      | @cons next word' others words' _ _ =>
        have line : (Text.join " " (text :: next :: others)).toList =
            text.toList ++ ' ' :: (Text.join " " (next :: others)).toList := by
          simp [Text.join]
        rw [line, spells.writes.first]
        simp [scan, isSeparator, ih]
  simp [split, scanned]

def line (words : List String) : String :=
  Text.join " " (words.map quote)

theorem line_spells (words : List String) : List.Forall₂ Spells (words.map quote) words := by
  rw [List.forall₂_map_left_iff]
  exact List.forall₂_same.mpr fun word _ => .quoted word

end Words

namespace Command

variable {args : List String}

theorem parse_of_words {v : Value} (read : words v = .ok args) (filled : args ≠ []) : parse v = .ok (some args) := by
  have kept : args.isEmpty = false := by simpa using filled
  simp only [parse, read]
  simp [bind, Except.bind, pure, Except.pure, kept]

theorem words_strs (args : List String) : words (.strs args) = .ok args := by
  have written : (args.map Value.str).all Value.isWritable = true := by
    rw [List.all_map, List.all_eq_true]
    intro arg _
    rfl
  have shown : (args.map Value.str).map Value.display = args := by
    rw [List.map_map]
    exact List.map_id'' (fun _ => rfl) args
  simp [words, Value.strs, Value.unfold, written, shown]

theorem words_str {s : String} (read : Words.split s = .ok args) : words (.str s) = .ok args := by
  simp [words, Value.str, Value.unfold, read, Except.mapError]

/-- A command is the same whether it is given as a list of arguments or as the line that says it to a shell, whatever
characters the arguments hold. -/
theorem parse_line (args : List String) (filled : args ≠ []) :
    parse (.strs args) = .ok (some args) ∧ parse (.str (Words.line args)) = .ok (some args) ∧
      ∀ texts, List.Forall₂ Words.Spells texts args → parse (.str (Text.join " " texts)) = .ok (some args) := by
  have lines (texts : List String) (spelled : List.Forall₂ Words.Spells texts args) :
      parse (.str (Text.join " " texts)) = .ok (some args) :=
    parse_of_words (words_str (Words.split_join spelled)) filled
  exact ⟨parse_of_words (words_strs args) filled, lines _ (Words.line_spells args), lines⟩

/-- An empty argument, quotes of both kinds, a backslash, blanks and a line end. -/
theorem odd_arguments_parse :
    let args := ["", "it's", "a \\ \"b\"", "\t\n", "/bin/true"]
    Words.line args = "'' 'it'\"'\"'s' 'a \\ \"b\"' '\t\n' '/bin/true'" ∧
      parse (.str (Words.line args)) = .ok (some args) := by
  intro args
  exact ⟨by decide, (parse_line args (by decide)).2.1⟩

end Command
end Leasehold
