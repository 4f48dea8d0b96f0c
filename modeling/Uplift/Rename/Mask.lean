-- Which characters of a text are code, and which belong to quoted text or
-- comments. The substitutions of a template are code again, to any depth.
import Uplift.Text.Basic

namespace Uplift.Rename

/-- What the character under the cursor is part of. -/
inductive Lexeme where
  | code
  | quoted (quote : Char)
  | template
  | lineComment
  | blockComment
deriving DecidableEq

/-- The open braces: how many there are, and at which counts a substitution was opened,
innermost first. -/
structure Braces where
  depth : Nat := 0
  substitutions : List Nat := []
deriving DecidableEq

namespace Braces

def enter (b : Braces) : Braces := { b with depth := b.depth + 1 }

def enterSubstitution (b : Braces) : Braces := ⟨b.depth + 1, (b.depth + 1) :: b.substitutions⟩

/-- The next closing brace ends a substitution. -/
def closesSubstitution (b : Braces) : Bool := b.substitutions.head? == some b.depth

def leave (b : Braces) : Braces := { b with depth := b.depth - 1 }

def leaveSubstitution (b : Braces) : Braces := ⟨b.depth - 1, b.substitutions.tail⟩

end Braces

/-- For each character of the text, whether it is code. -/
def maskFrom (l : Lexeme) (b : Braces) : Text → List Bool
  | [] => []
  | c :: rest =>
    match l with
    | .code =>
      match c, rest with
      | '/', '/' :: rest => false :: false :: maskFrom .lineComment b rest
      | '/', '*' :: rest => false :: false :: maskFrom .blockComment b rest
      | '\'', rest => false :: maskFrom (.quoted '\'') b rest
      | '"', rest => false :: maskFrom (.quoted '"') b rest
      | '`', rest => false :: maskFrom .template b rest
      | '{', rest => true :: maskFrom .code b.enter rest
      | '}', rest =>
        if b.closesSubstitution then false :: maskFrom .template b.leaveSubstitution rest
        else true :: maskFrom .code b.leave rest
      | _, rest => true :: maskFrom .code b rest
    | .quoted q =>
      match c, rest with
      | '\\', _ :: rest => false :: false :: maskFrom (.quoted q) b rest
      | c, rest => false :: maskFrom (if c = q ∨ c = '\n' then .code else .quoted q) b rest
    | .template =>
      match c, rest with
      | '\\', _ :: rest => false :: false :: maskFrom .template b rest
      | '`', rest => false :: maskFrom .code b rest
      | '$', '{' :: rest => false :: false :: maskFrom .code b.enterSubstitution rest
      | _, rest => false :: maskFrom .template b rest
    | .lineComment =>
      if c = '\n' then true :: maskFrom .code b rest else false :: maskFrom .lineComment b rest
    | .blockComment =>
      match c, rest with
      | '*', '/' :: rest => false :: false :: maskFrom .code b rest
      | _, rest => false :: maskFrom .blockComment b rest

/-- For each character of the text, whether it is code. -/
def codeMask (t : Text) : List Bool := maskFrom .code {} t

/-- The same for each byte. -/
def byteMask (t : Text) : List Bool :=
  (t.zip (codeMask t)).flatMap fun (c, b) => List.replicate c.utf8Size b

end Uplift.Rename
