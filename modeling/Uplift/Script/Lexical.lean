-- The lexical shapes of script text. A shape looks at the text from a place on
-- and says how many characters it takes there, if it is there at all.
import Uplift.Text.Blank

namespace Uplift.Script

/-- How many characters a shape takes at the front of a text. -/
abbrev Shape := Text → Option Nat

/-- White space between tokens, the invisible joiners and the byte order mark included. -/
def isGap (c : Char) : Bool :=
  Text.isBlank c || c.toNat == 0xfeff || c.toNat == 0x2060 || c.toNat == 0x200b

def isNameChar (c : Char) : Bool :=
  c.isAlphanum || c == '_' || c == '$' || (128 ≤ c.toNat && !isGap c)

def isHex (c : Char) : Bool :=
  c.isDigit || ('a' ≤ c && c ≤ 'f') || ('A' ≤ c && c ≤ 'F')

/-- The characters that a name takes here, escapes included. -/
def nameLength : Text → Nat
  | [] => 0
  | '\\' :: 'u' :: a :: b :: c :: d :: rest =>
    if isHex a && isHex b && isHex c && isHex d then 6 + nameLength rest else 0
  | c :: rest => if isNameChar c then 1 + nameLength rest else 0

def startsDigit (t : Text) : Bool := (t.head?.map Char.isDigit) == some true

/-- The word at the front. -/
def wordAt (t : Text) : Text := if startsDigit t then [] else t.take (nameLength t)

/-- Any word, reserved ones included. -/
def anyWord : Shape := fun t =>
  let n := (wordAt t).length
  if n = 0 then none else some n

/-- Words that never name a variable. -/
def reservedWords : List String :=
  ["break", "case", "catch", "class", "const", "continue", "debugger", "default", "delete", "do",
    "else", "enum", "export", "extends", "false", "finally", "for", "function", "if", "import",
    "in", "instanceof", "new", "null", "return", "super", "switch", "this", "throw", "true", "try",
    "typeof", "var", "void", "while", "with"]

def isReserved (w : Text) : Bool := reservedWords.any (·.toList == w)

/-- A word that can name a variable. -/
def identifier : Shape := fun t =>
  let w := wordAt t
  if w.isEmpty || isReserved w then none else some w.length

/-- One particular word. -/
def word (s : String) : Shape := fun t =>
  if wordAt t == s.toList then some s.length else none

/-- A `#` with a word. -/
def privateName : Shape
  | '#' :: t => (anyWord t).map (· + 1)
  | _ => none

/-- A name in a tag, where dashes are allowed. -/
def tagName : Shape := fun t =>
  if startsDigit t then none
  else
    let n := (t.takeWhile fun c => isNameChar c || c == '-').length
    if n = 0 || t.head? == some '-' then none else some n

/-- All operators and marks of more than one character, longest first. -/
def longMarks : List Text :=
  [">>>=", "...", "===", "!==", "**=", "<<=", ">>=", ">>>", "&&=", "||=", "??=", "=>", "==", "!=",
    "<=", ">=", "&&", "||", "??", "?.", "++", "--", "+=", "-=", "*=", "/=", "%=", "&=", "|=", "^=",
    "**", "<<", ">>"].map String.toList

/-- The longest mark at the front. -/
def markAt (t : Text) : Text :=
  match longMarks.find? (·.isPrefixOf t) with
  | some m =>
    -- `a?.5 : b` holds a question mark and a number
    if m == ['?', '.'] && startsDigit (t.drop 2) then ['?'] else m
  | none => t.take 1

/-- One particular mark, which is no part of a longer one. -/
def mark (s : String) : Shape := fun t =>
  if markAt t == s.toList then some s.length else none

/-- One particular text, whatever follows. -/
def exactly (s : String) : Shape := fun t =>
  if s.toList.isPrefixOf t then some s.length else none

/-- One of several shapes. -/
def oneOf (shapes : List Shape) : Shape := fun t => shapes.findSome? (· t)

def digitRun (t : Text) : Nat := (t.takeWhile fun c => c.isDigit || c == '_').length

def exponentLength (t : Text) : Nat :=
  match t with
  | c :: rest =>
    if c == 'e' || c == 'E' then
      match rest with
      | s :: more =>
        if (s == '+' || s == '-') && startsDigit more then 2 + digitRun more
        else if s.isDigit then 1 + digitRun rest
        else 0
      | [] => 0
    else 0
  | [] => 0

def decimalLength (t : Text) : Nat :=
  let whole := digitRun t
  let frac := match t.drop whole with
    | '.' :: rest => if whole > 0 || startsDigit rest then 1 + digitRun rest else 0
    | _ => 0
  let n := whole + frac
  if n = 0 then 0
  else
    let n := n + exponentLength (t.drop n)
    if (t.drop n).head? == some 'n' then n + 1 else n

def number : Shape := fun t =>
  match t with
  | '0' :: c :: rest =>
    if "xXoObB".toList.contains c then
      some (2 + (rest.takeWhile fun c => c.isAlphanum || c == '_').length)
    else some (decimalLength t)
  | c :: rest =>
    if c.isDigit || (c == '.' && startsDigit rest) then some (decimalLength t) else none
  | [] => none

/-- The characters up to and including the closing quote. A line only goes on after a
backslash. -/
def quotedLength (q : Char) : Text → Option Nat
  | [] => none
  | '\\' :: _ :: rest => (quotedLength q rest).map (· + 2)
  | c :: rest =>
    if c == q then some 1 else if c == '\n' then none else (quotedLength q rest).map (· + 1)

/-- A string on one line. -/
def stringLiteral : Shape
  | '"' :: t => (quotedLength '"' t).map (· + 1)
  | '\'' :: t => (quotedLength '\'' t).map (· + 1)
  | _ => none

/-- The characters up to and including `q`, none of which is special. -/
def plainLength (q : Char) (t : Text) : Option Nat :=
  if t.contains q then some ((t.takeWhile (· != q)).length + 1) else none

/-- The string value of an attribute, which can run over lines. -/
def attributeString : Shape
  | '"' :: t => (plainLength '"' t).map (· + 1)
  | '\'' :: t => (plainLength '\'' t).map (· + 1)
  | _ => none

/-- The rest of a pattern literal after its first slash; `cls` tells that a character class
is open. -/
def patternLength (cls : Bool) : Text → Option Nat
  | [] => none
  | '\n' :: _ => none
  | '\\' :: c :: rest => if c == '\n' then none else (patternLength cls rest).map (· + 2)
  | '[' :: rest => (patternLength true rest).map (· + 1)
  | ']' :: rest => (patternLength false rest).map (· + 1)
  | c :: rest =>
    if c == '/' && !cls then some (1 + (rest.takeWhile Char.isAlpha).length)
    else (patternLength cls rest).map (· + 1)

def patternLiteral : Shape
  | '/' :: c :: t =>
    if c == '/' || c == '*' then none else (patternLength false (c :: t)).map (· + 1)
  | _ => none

/-- Template text up to a substitution, an escape or the end. -/
def templateChars (t : Text) : Nat :=
  match t with
  | [] => 0
  | '`' :: _ => 0
  | '\\' :: _ => 0
  | '$' :: '{' :: _ => 0
  | _ :: rest => 1 + templateChars rest

def templateFragment : Shape := fun t =>
  let n := templateChars t
  if n = 0 then none else some n

/-- A backslash with what it escapes. -/
def escapeSequence : Shape
  | '\\' :: 'u' :: '{' :: t =>
    let n := (t.takeWhile isHex).length
    if (t.drop n).head? == some '}' then some (n + 4) else some 2
  | '\\' :: 'u' :: a :: b :: c :: d :: _ =>
    if isHex a && isHex b && isHex c && isHex d then some 6 else some 2
  | '\\' :: 'x' :: a :: b :: _ => if isHex a && isHex b then some 4 else some 2
  | '\\' :: '\r' :: '\n' :: _ => some 3
  | '\\' :: c :: rest =>
    if '0' ≤ c && c ≤ '7' then
      some (2 + ((rest.take 2).takeWhile fun c => '0' ≤ c && c ≤ '7').length)
    else some 2
  | _ => none

/-- Text between tags. -/
def tagText : Shape := fun t =>
  let n := (t.takeWhile fun c => c != '<' && c != '{' && c != '>' && c != '}').length
  if n = 0 then none else some n

/-- The first line of a script that names its interpreter. -/
def interpreterLine : Shape
  | '#' :: '!' :: t => some (2 + (t.takeWhile (· != '\n')).length)
  | _ => none

/-- With a line break before `next`, a statement can end without its semicolon: nothing at
`next` would carry the statement on. -/
def endsStatement (next : Text) : Bool :=
  match next with
  | [] => true
  | c :: rest =>
    if "`,:;*%><=[(?^|&/".toList.contains c then false
    else if c == '.' then startsDigit rest
    else if c == '+' then rest.head? == some '+'
    else if c == '-' then rest.head? == some '-'
    else if c == '!' then rest.head? != some '='
    else !((word "in" next).isSome || (word "instanceof" next).isSome)

/-- A member's name can start here, so a word before it is a modifier. -/
def opensMemberName (next : Text) : Bool :=
  match next with
  | [] => false
  | c :: _ => isNameChar c || "\"'[#*\\".toList.contains c

end Uplift.Script
