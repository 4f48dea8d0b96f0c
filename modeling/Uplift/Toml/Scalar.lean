-- Reading the values of TOML that have no parts: numbers, dates and strings.
-- A reader takes a text and gives what it read and the text after it.
import Uplift.Json.Value
import Uplift.Toml.Value

namespace Uplift.Toml

/-- Space and tab. -/
def isGap (c : Char) : Bool := c == ' ' || c == '\t'

def skipGap (t : Text) : Text := t.dropWhile isGap

/-- Characters that may stand anywhere in a line: all but the control characters, of which
only the tab may. -/
def isPlain (c : Char) : Bool := c == '\t' || (0x20 ≤ c.toNat && c.toNat != 0x7f)

/-- A line end: a newline, with or without a carriage return. -/
def dropNewline? : Text → Option Text
  | '\n' :: rest => some rest
  | '\r' :: '\n' :: rest => some rest
  | _ => none

/-! ## Strings -/

def hexValue? (c : Char) : Option Nat :=
  if c.isDigit then some (c.toNat - '0'.toNat)
  else if 'a' ≤ c ∧ c ≤ 'f' then some (c.toNat - 'a'.toNat + 10)
  else if 'A' ≤ c ∧ c ≤ 'F' then some (c.toNat - 'A'.toNat + 10)
  else none

/-- The character with the code point that `digits` spell in base 16. -/
def codePoint? (digits : Text) : Option Char := do
  let n ← digits.foldlM (fun n c => (hexValue? c).map (n * 16 + ·)) 0
  if n < 0xd800 ∨ (0xe000 ≤ n ∧ n < 0x110000) then some (Char.ofNat n) else none

/-- The character that stands for itself after a backslash, or has a letter there. -/
def escaped? : Char → Option Char
  | 'b' => some '\x08'
  | 't' => some '\t'
  | 'n' => some '\n'
  | 'f' => some '\x0c'
  | 'r' => some '\r'
  | '"' => some '"'
  | '\\' => some '\\'
  | _ => none

/-- The rest of a string in double quotes, after the opening quote. The characters read so
far are `done`, last first. -/
def readQuoted (done : Text) : Text → Option (Text × Text)
  | [] => none
  | '"' :: rest => some (done.reverse, rest)
  | '\\' :: 'u' :: a :: b :: c :: d :: rest =>
    match codePoint? [a, b, c, d] with
    | none => none
    | some x => readQuoted (x :: done) rest
  | '\\' :: 'U' :: a :: b :: c :: d :: e :: f :: g :: h :: rest =>
    match codePoint? [a, b, c, d, e, f, g, h] with
    | none => none
    | some x => readQuoted (x :: done) rest
  | '\\' :: c :: rest =>
    match escaped? c with
    | none => none
    | some x => readQuoted (x :: done) rest
  | c :: rest => if isPlain c ∧ c ≠ '\\' then readQuoted (c :: done) rest else none

/-- The rest of a string in single quotes, after the opening quote. -/
def readLiteral (done : Text) : Text → Option (Text × Text)
  | [] => none
  | '\'' :: rest => some (done.reverse, rest)
  | c :: rest => if isPlain c then readLiteral (c :: done) rest else none

/-- Drop gaps and line ends. -/
def skipLines : Text → Text
  | ' ' :: rest => skipLines rest
  | '\t' :: rest => skipLines rest
  | '\n' :: rest => skipLines rest
  | '\r' :: '\n' :: rest => skipLines rest
  | t => t

theorem length_skipLines_le (t : Text) : (skipLines t).length ≤ t.length := by
  fun_induction skipLines t <;> simp_all <;> omega

/-- The rest of a block in double quotes, after the opening quotes. Up to two quotes may stand
before the closing three, and a backslash at the end of a line drops the blank space after it. -/
def readQuotedBlock (done : Text) (t : Text) : Option (Text × Text) :=
  match t with
  | [] => none
  | '"' :: '"' :: '"' :: '"' :: '"' :: rest => some (done.reverse ++ ['"', '"'], rest)
  | '"' :: '"' :: '"' :: '"' :: rest => some (done.reverse ++ ['"'], rest)
  | '"' :: '"' :: '"' :: rest => some (done.reverse, rest)
  | '\\' :: 'u' :: a :: b :: c :: d :: rest =>
    match codePoint? [a, b, c, d] with
    | none => none
    | some x => readQuotedBlock (x :: done) rest
  | '\\' :: 'U' :: a :: b :: c :: d :: e :: f :: g :: h :: rest =>
    match codePoint? [a, b, c, d, e, f, g, h] with
    | none => none
    | some x => readQuotedBlock (x :: done) rest
  | '\\' :: c :: rest =>
    match escaped? c with
    | some x => readQuotedBlock (x :: done) rest
    | none =>
      if (dropNewline? (skipGap (c :: rest))).isSome then
        readQuotedBlock done (skipLines (c :: rest))
      else none
  | '\n' :: rest => readQuotedBlock ('\n' :: done) rest
  | '\r' :: '\n' :: rest => readQuotedBlock ('\n' :: done) rest
  | c :: rest => if isPlain c ∧ c ≠ '\\' then readQuotedBlock (c :: done) rest else none
termination_by t.length
decreasing_by
  all_goals simp only [List.length_cons]
  all_goals first
    | omega
    | exact Nat.lt_succ_of_le (length_skipLines_le (c :: rest))

/-- The rest of a block in single quotes, after the opening quotes. -/
def readLiteralBlock (done : Text) : Text → Option (Text × Text)
  | [] => none
  | '\'' :: '\'' :: '\'' :: '\'' :: '\'' :: rest => some (done.reverse ++ ['\'', '\''], rest)
  | '\'' :: '\'' :: '\'' :: '\'' :: rest => some (done.reverse ++ ['\''], rest)
  | '\'' :: '\'' :: '\'' :: rest => some (done.reverse, rest)
  | '\n' :: rest => readLiteralBlock ('\n' :: done) rest
  | '\r' :: '\n' :: rest => readLiteralBlock ('\n' :: done) rest
  | c :: rest => if isPlain c then readLiteralBlock (c :: done) rest else none

/-- A block starts on the next line if its first line is empty. -/
def blockStart (t : Text) : Text := (dropNewline? t).getD t

/-- A string of any kind. -/
def readString : Text → Option (Text × Text)
  | '"' :: '"' :: '"' :: rest => readQuotedBlock [] (blockStart rest)
  | '"' :: rest => readQuoted [] rest
  | '\'' :: '\'' :: '\'' :: rest => readLiteralBlock [] (blockStart rest)
  | '\'' :: rest => readLiteral [] rest
  | _ => none

/-! ## Numbers -/

/-- A run of digits; an underscore may stand between two of them. -/
def digitRun (isDigit : Char → Bool) : Text → Text × Text
  | [] => ([], [])
  | '_' :: c :: rest =>
    if isDigit c then
      let (ds, t) := digitRun isDigit rest
      (c :: ds, t)
    else ([], '_' :: c :: rest)
  | c :: rest =>
    if isDigit c then
      let (ds, t) := digitRun isDigit rest
      (c :: ds, t)
    else ([], c :: rest)

/-- At least one digit. -/
def readDigits (isDigit : Char → Bool) (t : Text) : Option (Text × Text) :=
  match t with
  | c :: _ => if isDigit c then some (digitRun isDigit t) else none
  | [] => none

def valueIn (base : Nat) (ds : Text) : Nat :=
  ds.foldl (fun n c => n * base + (hexValue? c).getD 0) 0

/-- Digits that do not start with a zero, or a zero. -/
def readWhole : Text → Option (Text × Text)
  | '0' :: rest => some (['0'], rest)
  | t => readDigits Char.isDigit t

def readSign : Text → Bool × Text
  | '-' :: rest => (true, rest)
  | '+' :: rest => (false, rest)
  | t => (false, t)

/-- The whole numbers that a document can hold. -/
def fitsWord (n : Int) : Bool := Int64.minValue.toInt ≤ n && n ≤ Int64.maxValue.toInt

/-- A whole number in base 2, 8 or 16, after the mark of its base. -/
def readBased (base : Nat) (isDigit : Char → Bool) (t : Text) : Option (Value × Text) := do
  let (ds, rest) ← readDigits isDigit t
  let n : Int := valueIn base ds
  if fitsWord n then some (.int n, rest) else none

def readInteger : Text → Option (Value × Text)
  | '0' :: 'x' :: rest => readBased 16 (fun c => (hexValue? c).isSome) rest
  | '0' :: 'o' :: rest => readBased 8 (fun c => '0' ≤ c && c ≤ '7') rest
  | '0' :: 'b' :: rest => readBased 2 (fun c => c == '0' || c == '1') rest
  | t => do
    let (negative, t) := readSign t
    let (ds, rest) ← readWhole t
    let n : Int := valueIn 10 ds
    let n := if negative then -n else n
    if fitsWord n then some (.int n, rest) else none

/-- The exponent of a number, after its mark. -/
def readExponent : Text → Option (Int × Text)
  | c :: rest =>
    if c = 'e' ∨ c = 'E' then do
      let (negative, t) := readSign rest
      let (ds, rest) ← readDigits Char.isDigit t
      let n : Int := valueIn 10 ds
      some (if negative then -n else n, rest)
    else none
  | [] => none

/-- A number with a point or an exponent. One beyond the doubles is refused above zero. -/
def readFraction (t : Text) : Option (Value × Text) := do
  let (negative, t) := readSign t
  let (whole, t) ← readWhole t
  let (decimal, rest) ← match t with
    | '.' :: t => do
      let (ds, rest) ← readDigits Char.isDigit t
      let (exp, rest) := (readExponent rest).getD (0, rest)
      some ((⟨negative, valueIn 10 (whole ++ ds), exp - ds.length⟩ : Decimal), rest)
    | t => do
      let (exp, rest) ← readExponent t
      some (⟨negative, valueIn 10 whole, exp⟩, rest)
  if negative ∨ decimal.isFinite then some (.fraction, rest) else none

/-- Infinity and the value that is no number. -/
def readSpecial (t : Text) : Option (Value × Text) :=
  match (readSign t).2 with
  | 'i' :: 'n' :: 'f' :: rest => some (.fraction, rest)
  | 'n' :: 'a' :: 'n' :: rest => some (.fraction, rest)
  | _ => none

/-! ## Dates -/

/-- Two digits that spell a number from `low` to `high`. -/
def readPair (low high : Nat) : Text → Option (Nat × Text)
  | a :: b :: rest =>
    let n := valueIn 10 [a, b]
    if a.isDigit ∧ b.isDigit ∧ low ≤ n ∧ n ≤ high then some (n, rest) else none
  | _ => none

def dropChar? (c : Char) : Text → Option Text
  | d :: rest => if d = c then some rest else none
  | [] => none

/-- The number of days in a month. -/
def daysIn (year month : Nat) : Nat :=
  if month = 2 then
    if year % 4 = 0 ∧ (year % 100 ≠ 0 ∨ year % 400 = 0) then 29 else 28
  else if month = 4 ∨ month = 6 ∨ month = 9 ∨ month = 11 then 30
  else 31

def readDay (t : Text) : Option Text := do
  let (century, t) ← readPair 0 99 t
  let (years, t) ← readPair 0 99 t
  let (month, t) ← readPair 1 12 (← dropChar? '-' t)
  let (_, t) ← readPair 1 (daysIn (century * 100 + years) month) (← dropChar? '-' t)
  some t

def readTime (t : Text) : Option Text := do
  let (_, t) ← readPair 0 23 t
  let (_, t) ← readPair 0 59 (← dropChar? ':' t)
  let (_, t) ← readPair 0 60 (← dropChar? ':' t)
  match t with
  | '.' :: c :: rest => if c.isDigit then some (rest.dropWhile Char.isDigit) else some t
  | t => some t

/-- The distance from universal time, if one is given. -/
def readOffset (t : Text) : Option Text :=
  match t with
  | c :: rest =>
    if c = 'Z' ∨ c = 'z' then some rest
    else if c = '+' ∨ c = '-' then do
      let (_, t) ← readPair 0 23 rest
      let (_, t) ← readPair 0 59 (← dropChar? ':' t)
      some t
    else some t
  | [] => some t

/-- A day, a time of day, or both. -/
def readDate (t : Text) : Option (Value × Text) :=
  match readDay t with
  | none => (readTime t).map (Value.date, ·)
  | some afterDay =>
    let both := match afterDay with
      | c :: rest =>
        if c = 'T' ∨ c = 't' ∨ c = ' ' then (readTime rest).bind readOffset else none
      | [] => none
    some (.date, both.getD afterDay)

/-- A value without parts. -/
def readScalar (t : Text) : Option (Value × Text) :=
  match t with
  | 't' :: 'r' :: 'u' :: 'e' :: rest => some (.bool true, rest)
  | 'f' :: 'a' :: 'l' :: 's' :: 'e' :: rest => some (.bool false, rest)
  | '"' :: _ => (readString t).map fun (s, rest) => (.str (String.ofList s), rest)
  | '\'' :: _ => (readString t).map fun (s, rest) => (.str (String.ofList s), rest)
  | t => readDate t <|> readFraction t <|> readSpecial t <|> readInteger t

end Uplift.Toml
