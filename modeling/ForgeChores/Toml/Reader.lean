import ForgeChores.Toml.Scalar

/-!
# ForgeChores.Toml.Reader

Reading TOML documents.

A reader takes characters from the front. Loops run over one reader that says when it is done;
each round takes a character at least, so the length of the text bounds them. Values nest up to
`maxDepth`.
-/

namespace ForgeChores
namespace Toml

abbrev Reader := StateT (List Char) Option

namespace Reader

/-- What is left. -/
def rest : Reader (List Char) := get

/-- Takes the next character if there is one. -/
def next? : Reader (Option Char) := fun s =>
  match s with
  | [] => some (none, [])
  | c :: s => some (some c, s)

/-- Takes `text` if it stands here. -/
def trySkip (text : List Char) : Reader Bool := fun s =>
  if text.isPrefixOf s then some (true, s.drop text.length) else some (false, s)

/-- Takes `text`, which has to stand here. -/
def skip (text : List Char) : Reader Unit := do
  if ← trySkip text then pure () else failure

/-- Takes the characters of `p`. -/
def takeWhile (p : Char → Bool) : Reader (List Char) := fun s =>
  some (s.takeWhile p, s.dropWhile p)

/-- Runs `item` until it is done. -/
def loop {α : Type} (item : Reader (Option α)) : (fuel : Nat) → (found : List α) → Reader (List α)
  | 0, _ => failure
  | fuel + 1, found => do
    match ← item with
    | some a => loop item fuel (a :: found)
    | none => return found.reverse

/-- Collects what `item` finds until it is done. -/
def collect {α : Type} (item : Reader (Option α)) : Reader (List α) := fun s =>
  loop item (s.length + 1) [] s

end Reader

open Reader

/-! ## Blanks, comments and line ends -/

def isSpace (c : Char) : Bool := c == ' ' || c == '\t'

/-- What may stand in a comment or a string: no control character but the tab. -/
def isTextChar (c : Char) : Bool := c == '\t' || (0x20 ≤ c.toNat && c.toNat ≠ 0x7F)

def spaces : Reader Unit := do
  let _ ← takeWhile isSpace

/-- Takes a line feed, with or without a carriage return before it. -/
def tryNewline : Reader Bool := do
  if ← trySkip ['\n'] then return true
  else trySkip ['\r', '\n']

def passComment : Reader Unit := do
  if ← trySkip ['#'] then
    let _ ← takeWhile isTextChar

/-- Takes the rest of a line, which holds nothing any more. -/
def lineEnd : Reader Unit := do
  spaces
  passComment
  if (← rest).isEmpty then return ()
  else if ← tryNewline then return ()
  else failure

/-- Takes spaces, comments and line ends. A comment ends with its line. -/
def gap : Reader Unit := do
  let _ ← collect do
    spaces
    passComment
    return if ← tryNewline then some () else none

/-! ## Strings -/

/-- Takes exactly `width` hexadecimal digits as the number of a character. -/
def codePoint (width : Nat) : Reader Char := fun s => do
  let digits := s.take width
  if digits.length ≠ width then none
  let n ← Text.readDigits 16 digits
  if n < 0xD800 || (0xE000 ≤ n && n ≤ 0x10FFFF) then some (Char.ofNat n, s.drop width) else none

/-- What stands behind a backslash. -/
def escape : Reader Char := do
  match ← next? with
  | some 'b' => return '\x08'
  | some 't' => return '\t'
  | some 'n' => return '\n'
  | some 'f' => return '\x0c'
  | some 'r' => return '\r'
  | some '\x22' => return '\x22'
  | some '\\' => return '\\'
  | some 'u' => codePoint 4
  | some 'U' => codePoint 8
  | _ => failure

/-- One character of a string on one line, or its end. -/
def quotedChar (quote : Char) (hasEscapes : Bool) : Reader (Option Char) := do
  match ← next? with
  | some c =>
    if c = quote then return none
    else if c = '\\' && hasEscapes then some <$> escape
    else if isTextChar c then return some c
    else failure
  | none => failure

/-- A string on one line, behind its opening quote. -/
def quoted (quote : Char) (hasEscapes : Bool) : Reader String := do
  return String.ofList (← collect (quotedChar quote hasEscapes))

/-- Drops blanks and line ends. A carriage return only counts before a line feed. -/
def dropBlank : List Char → List Char
  | '\r' :: '\n' :: s => dropBlank s
  | c :: s => if isSpace c || c == '\n' then dropBlank s else c :: s
  | [] => []

/-- A backslash at the end of a line takes all blanks and line ends that follow. -/
def tryLineJoin : Reader Bool := fun s =>
  match s.dropWhile isSpace with
  | '\n' :: after => some (true, dropBlank after)
  | '\r' :: '\n' :: after => some (true, dropBlank after)
  | _ => some (false, s)

/-- A part of a string over several lines, or its end. Of five quotes in a row the first two
belong to the string. -/
def blockPart (quote : Char) (hasEscapes : Bool) : Reader (Option (List Char)) := do
  let quotes := ((← rest).takeWhile (· == quote)).length
  if quotes = 3 then
    skip (List.replicate 3 quote)
    return none
  else if 5 < quotes then failure
  else if ← tryNewline then return some ['\n']
  else
    match ← next? with
    | some c =>
      if c = '\\' && hasEscapes then
        if ← tryLineJoin then return some []
        else return some [← escape]
      else if isTextChar c then return some [c]
      else failure
    | none => failure

/-- A string over several lines, behind its opening quotes. A line end that comes first does not
count. -/
def block (quote : Char) (hasEscapes : Bool) : Reader String := do
  let _ ← tryNewline
  return String.ofList (← collect (blockPart quote hasEscapes)).flatten

/-- A string of any kind, if one stands here. -/
def string? : Reader (Option String) := do
  if ← trySkip ['\x22', '\x22', '\x22'] then some <$> block '\x22' true
  else if ← trySkip ['\x22'] then some <$> quoted '\x22' true
  else if ← trySkip ['\x27', '\x27', '\x27'] then some <$> block '\x27' false
  else if ← trySkip ['\x27'] then some <$> quoted '\x27' false
  else return none

/-! ## Keys -/

def isBareChar (c : Char) : Bool := c.isAlphanum || c == '-' || c == '_'

/-- One part of a key. -/
def keyPart : Reader String := do
  spaces
  let part ←
    if ← trySkip ['\x22'] then quoted '\x22' true
    else if ← trySkip ['\x27'] then quoted '\x27' false
    else do
      let bare ← takeWhile isBareChar
      if bare.isEmpty then failure
      pure (String.ofList bare)
  spaces
  return part

/-- The parts of a key behind the first. -/
def keyTail : Reader (Option String) := do
  if ← trySkip ['.'] then some <$> keyPart else return none

/-- The most parts of a key, and the most arrays and inline tables around a value. -/
def maxDepth : Nat := 79

/-- A key, split at its last dot. -/
def key : Reader (List String × String) := do
  let parts := (← keyPart) :: (← collect keyTail)
  if maxDepth < parts.length then failure
  match parts.getLast? with
  | some last => return (parts.dropLast, last)
  | none => failure

/-! ## Values -/

/-- A scalar. A date and a time may have a space between them. -/
def scalar : Reader Value := do
  match ← string? with
  | some s => return .string s
  | none =>
    let word ← takeWhile isWordChar
    if isDate word then
      match ← rest with
      | ' ' :: c :: _ =>
        if Text.isDigit c then
          skip [' ']
          let time ← takeWhile isWordChar
          if isTimeOfDate time then return .other else failure
        else return .other
      | _ => return .other
    else
      match word? word with
      | some v => return v
      | none => failure

/-- One item of an array and the comma behind it, or the end of the array. -/
def arrayItem (value : Reader Value) : Reader (Option Value) := do
  gap
  if ← trySkip [']'] then return none
  let v ← value
  gap
  if ← trySkip [','] then return some v
  match ← rest with
  | ']' :: _ => return some v
  | _ => failure

/-- One entry of an inline table that is not empty, and whether another one follows. -/
def inlineEntry (value : Reader Value) : Reader (List String × String × Value) := do
  let (path, name) ← key
  skip ['=']
  spaces
  let v ← value
  spaces
  return (path, name, v)

/-- The entries of an inline table, behind its opening brace. There is no comma behind the last
one. -/
def inlineEntries (value : Reader Value) : Reader (List (List String × String × Value)) := do
  spaces
  if ← trySkip ['\x7d'] then return []
  let first ← inlineEntry value
  let more ← collect do
    if ← trySkip [','] then some <$> inlineEntry value else return none
  skip ['\x7d']
  return first :: more

/-- An inline table with the given entries. -/
def inlineTable (entries : List (List String × String × Value)) : Option Value := do
  let t ← entries.foldlM (fun t (path, name, v) => assign path name v t) ⟨.inline, []⟩
  return .table .inline t.entries

/-- A value in which arrays and inline tables nest at most `depth` times. -/
def value : (depth : Nat) → Reader Value
  | 0 => scalar
  | depth + 1 => do
    if ← trySkip ['['] then return .array (← collect (arrayItem (value depth)))
    else if ← trySkip ['\x7b'] then
      match inlineTable (← inlineEntries (value depth)) with
      | some v => return v
      | none => failure
    else scalar

/-! ## Documents -/

/-- One statement, or the end of the document. Empty lines and comments are passed over. -/
def statement : Reader (Option Statement) := do
  gap
  if (← rest).isEmpty then return none
  else if ← trySkip ['[', '['] then
    let (path, name) ← key
    skip [']', ']']
    lineEnd
    return some (.element path name)
  else if ← trySkip ['['] then
    let (path, name) ← key
    skip [']']
    lineEnd
    return some (.header path name)
  else
    let (path, name) ← key
    skip ['=']
    spaces
    let v ← value maxDepth
    lineEnd
    return some (.assignment path name v)

/-- The entries of a whole document; a byte order mark in front does not count. -/
def parse? (text : String) : Option Entries := do
  let chars :=
    match text.toList with
    | '\ufeff' :: rest => rest
    | l => l
  let (statements, _) ← (collect statement).run chars
  build statements

end Toml
end ForgeChores
