-- Writing JSON: on one line, or with two spaces of indentation per level.
import Uplift.Json.Value

namespace Uplift.Json

def hexChar (n : Nat) : Char := if n < 10 then Char.ofNat (48 + n) else Char.ofNat (87 + n)

/-- A character inside a string. Only quotes, backslashes and control characters change. -/
def escapeChar (c : Char) : Text :=
  match c with
  | '"' => ['\\', '"']
  | '\\' => ['\\', '\\']
  | '\n' => ['\\', 'n']
  | '\r' => ['\\', 'r']
  | '\t' => ['\\', 't']
  | c =>
    if c.toNat = 8 then ['\\', 'b']
    else if c.toNat = 12 then ['\\', 'f']
    else if c.toNat < 0x20 then
      ['\\', 'u', '0', '0', hexChar (c.toNat / 16), hexChar (c.toNat % 16)]
    else [c]

def renderString (s : String) : Text := '"' :: s.toList.flatMap escapeChar ++ ['"']

def renderDecimal (d : Decimal) : Text :=
  (if d.negative then ['-'] else []) ++ (toString d.mantissa).toList ++
    if d.exponent = 0 then [] else 'e' :: (toString d.exponent).toList

/-- The line break and indentation of nesting level `level`; nothing in the one-line form. -/
def lineBreak (pretty : Bool) (level : Nat) : Text :=
  if pretty then '\n' :: List.replicate (2 * level) ' ' else []

mutual

/-- A value at nesting level `level`. -/
def renderAt (pretty : Bool) (level : Nat) : Json → Text
  | .null => "null".toList
  | .bool true => "true".toList
  | .bool false => "false".toList
  | .num n => renderDecimal n
  | .str s => renderString s
  | .arr [] => ['[', ']']
  | .arr (x :: xs) =>
    '[' :: lineBreak pretty (level + 1) ++ renderAt pretty (level + 1) x ++
      renderItems pretty (level + 1) xs ++ lineBreak pretty level ++ [']']
  | .obj [] => ['{', '}']
  | .obj (f :: fs) =>
    '{' :: lineBreak pretty (level + 1) ++ renderField pretty (level + 1) f ++
      renderFields pretty (level + 1) fs ++ lineBreak pretty level ++ ['}']

def renderItems (pretty : Bool) (level : Nat) : List Json → Text
  | [] => []
  | x :: xs =>
    ',' :: lineBreak pretty level ++ renderAt pretty level x ++ renderItems pretty level xs

def renderField (pretty : Bool) (level : Nat) : String × Json → Text
  | (name, v) =>
    renderString name ++ (if pretty then [':', ' '] else [':']) ++ renderAt pretty level v

def renderFields (pretty : Bool) (level : Nat) : List (String × Json) → Text
  | [] => []
  | f :: fs =>
    ',' :: lineBreak pretty level ++ renderField pretty level f ++ renderFields pretty level fs

end

/-- A value on one line. -/
def render (j : Json) : String := String.ofList (renderAt false 0 j)

/-- A value on lines of its own, fields and items indented by level. -/
def renderPretty (j : Json) : String := String.ofList (renderAt true 0 j)

end Uplift.Json
