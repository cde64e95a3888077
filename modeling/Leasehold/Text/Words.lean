/-! Words of a command line, cut as a POSIX shell cuts them, without comments. Blanks divide words,
single quotes keep everything, double quotes keep all but a backslash before a double quote or
another backslash, and a backslash outside quotes keeps the next character. -/

namespace Leasehold.Words

inductive Fault
  | unclosedQuote
  | unfinishedEscape
deriving DecidableEq, Repr

def Fault.message : Fault → String
  | .unclosedQuote => "No closing quotation"
  | .unfinishedEscape => "No escaped character"

inductive Place
  | between
  | inWord
  | inSingle
  | inDouble
  | escaped
  | escapedInDouble
deriving DecidableEq, Repr

def isSeparator (c : Char) : Bool :=
  c == ' ' || c == '\t' || c == '\r' || c == '\n'

/-- Reads on from a place; `word` holds the open word, last character first. A quote opens a word even
if nothing stands in it. -/
def scan : Place → List Char → List Char → Except Fault (List (List Char))
  | .between, _, [] => .ok []
  | .inWord, word, [] => .ok [word.reverse]
  | .inSingle, _, [] => .error .unclosedQuote
  | .inDouble, _, [] => .error .unclosedQuote
  | .escaped, _, [] => .error .unfinishedEscape
  | .escapedInDouble, _, [] => .error .unfinishedEscape
  | .between, _, c :: rest =>
    if isSeparator c then scan .between [] rest
    else if c == '\\' then scan .escaped [] rest
    else if c == '\'' then scan .inSingle [] rest
    else if c == '"' then scan .inDouble [] rest
    else scan .inWord [c] rest
  | .inWord, word, c :: rest =>
    if isSeparator c then (word.reverse :: ·) <$> scan .between [] rest
    else if c == '\\' then scan .escaped word rest
    else if c == '\'' then scan .inSingle word rest
    else if c == '"' then scan .inDouble word rest
    else scan .inWord (c :: word) rest
  | .inSingle, word, c :: rest =>
    if c == '\'' then scan .inWord word rest else scan .inSingle (c :: word) rest
  | .inDouble, word, c :: rest =>
    if c == '"' then scan .inWord word rest
    else if c == '\\' then scan .escapedInDouble word rest
    else scan .inDouble (c :: word) rest
  | .escaped, word, c :: rest => scan .inWord (c :: word) rest
  | .escapedInDouble, word, c :: rest =>
    if c == '"' || c == '\\' then scan .inDouble (c :: word) rest
    else scan .inDouble (c :: '\\' :: word) rest

def split (s : String) : Except Fault (List String) :=
  (List.map String.ofList) <$> scan .between [] s.toList

end Leasehold.Words
