-- Texts as they are nested. A piece of code is a row of characters, quoted texts,
-- comments and groups in brackets, and a template holds substitutions that are
-- code again, to any depth. Such a tree says of each of its characters whether it
-- is code and how much is open around it.
import Mathlib.Data.List.Infix
import Uplift.Text.Basic

namespace Uplift.Nesting

/-! ## Trees -/

/-- A character of quoted text: by itself, or behind a backslash. -/
inductive Letter where
  | plain (c : Char)
  | escaped (c : Char)

inductive Bracket where
  | brace
  | square
  | round

mutual

/-- A piece of code, given by what comes first in it and the rest. -/
inductive Code where
  | done
  | char (c : Char) (rest : Code)
  | string (quote : Char) (letters : List Letter) (rest : Code)
  | template (body : Template) (rest : Code)
  /-- A comment up to the end of its line. -/
  | lineComment (body : Text) (rest : Code)
  | blockComment (body : Text) (rest : Code)
  | group (bracket : Bracket) (inner rest : Code)

/-- What stands between the ticks of a template. -/
inductive Template where
  | done
  | letter (l : Letter) (rest : Template)
  /-- Code between a dollar sign with an opening brace, and a closing brace. -/
  | substitution (inner : Code) (rest : Template)

end

/-! ## Their text -/

def Letter.text : Letter → Text
  | plain c => [c]
  | escaped c => ['\\', c]

/-- A quoted text with its quotes. -/
def quotedText (quote : Char) (letters : List Letter) : Text :=
  quote :: letters.flatMap Letter.text ++ [quote]

/-- A line comment without the end of its line. -/
def lineText (body : Text) : Text := '/' :: '/' :: body

def blockText (body : Text) : Text := '/' :: '*' :: body ++ ['*', '/']

namespace Bracket

def opener : Bracket → Char
  | brace => '{'
  | square => '['
  | round => '('

def closer : Bracket → Char
  | brace => '}'
  | square => ']'
  | round => ')'

end Bracket

mutual

def Code.text : Code → Text
  | .done => []
  | .char c rest => c :: rest.text
  | .string quote letters rest => quotedText quote letters ++ rest.text
  | .template body rest => '`' :: body.text ++ '`' :: rest.text
  | .lineComment body rest => lineText body ++ '\n' :: rest.text
  | .blockComment body rest => blockText body ++ rest.text
  | .group bracket inner rest =>
    bracket.opener :: inner.text ++ bracket.closer :: rest.text

def Template.text : Template → Text
  | .done => []
  | .letter l rest => l.text ++ rest.text
  | .substitution inner rest => '$' :: '{' :: inner.text ++ '}' :: rest.text

end

/-- Characters of code, each by itself. -/
def Code.chars (t : Text) (rest : Code) : Code := t.foldr Code.char rest

/-- Characters of a template, each by itself. -/
def Template.chars (t : Text) (rest : Template) : Template :=
  t.foldr (fun c => .letter (.plain c)) rest

/-! ## What each character is -/

/-- A character, whether it is code, and how many brackets and substitutions are open around
it. -/
structure Cell where
  char : Char
  code : Bool
  depth : Nat
deriving DecidableEq

/-- Characters that are not code. -/
def inert (depth : Nat) (t : Text) : List Cell := t.map (⟨·, false, depth⟩)

mutual

/-- The characters of a piece of code that stands at `depth`. Code is what stands outside
quoted texts and comments, with the brackets of groups and the newlines that end comments. -/
def Code.cells (depth : Nat) : Code → List Cell
  | .done => []
  | .char c rest => ⟨c, true, depth⟩ :: rest.cells depth
  | .string quote letters rest => inert depth (quotedText quote letters) ++ rest.cells depth
  | .template body rest =>
    ⟨'`', false, depth⟩ :: body.cells depth ++ ⟨'`', false, depth⟩ :: rest.cells depth
  | .lineComment body rest =>
    inert depth (lineText body) ++ ⟨'\n', true, depth⟩ :: rest.cells depth
  | .blockComment body rest => inert depth (blockText body) ++ rest.cells depth
  | .group bracket inner rest =>
    ⟨bracket.opener, true, depth⟩ :: inner.cells (depth + 1) ++
      ⟨bracket.closer, true, depth⟩ :: rest.cells depth

/-- The characters of a template. Of a substitution, what stands between its braces is code. -/
def Template.cells (depth : Nat) : Template → List Cell
  | .done => []
  | .letter l rest => inert depth l.text ++ rest.cells depth
  | .substitution inner rest =>
    inert depth ['$', '{'] ++ inner.cells (depth + 1) ++ ⟨'}', false, depth⟩ :: rest.cells depth

end

@[simp]
theorem map_char_inert (depth : Nat) (t : Text) : (inert depth t).map (·.char) = t := by
  simp [inert, Function.comp_def]

mutual

/-- The cells of a tree spell its text. -/
@[simp]
theorem Code.map_char_cells (depth : Nat) (x : Code) :
    (x.cells depth).map (·.char) = x.text := by
  cases x with
  | done => rfl
  | char c rest => simp [Code.cells, Code.text, rest.map_char_cells depth]
  | string quote letters rest => simp [Code.cells, Code.text, rest.map_char_cells depth]
  | template body rest =>
    simp [Code.cells, Code.text, body.map_char_cells depth, rest.map_char_cells depth]
  | lineComment body rest => simp [Code.cells, Code.text, rest.map_char_cells depth]
  | blockComment body rest => simp [Code.cells, Code.text, rest.map_char_cells depth]
  | group bracket inner rest =>
    simp [Code.cells, Code.text, inner.map_char_cells (depth + 1), rest.map_char_cells depth]

@[simp]
theorem Template.map_char_cells (depth : Nat) (x : Template) :
    (x.cells depth).map (·.char) = x.text := by
  cases x with
  | done => rfl
  | letter l rest => simp [Template.cells, Template.text, rest.map_char_cells depth]
  | substitution inner rest =>
    simp [Template.cells, Template.text, inner.map_char_cells (depth + 1),
      rest.map_char_cells depth]

end

/-! ## Trees that are what their text says -/

/-- What code may hold besides quoted texts, groups and plain characters. -/
structure Dialect where
  /-- Round and square brackets may stand as plain characters. -/
  brackets : Bool
  comments : Bool

namespace Dialect

/-- Braces alone come in groups. -/
def free : Dialect := ⟨true, true⟩

/-- All brackets come in groups, and there are no comments. -/
def literal : Dialect := ⟨false, false⟩

/-- The character may stand in code by itself. -/
def allows (x : Dialect) (c : Char) : Bool :=
  !(['\'', '"', '`', '{', '}'].contains c) && (x.brackets || !(['(', ')', '[', ']'].contains c))

end Dialect

/-- A comment starts with `c`, which `rest` follows. -/
def opensComment (c : Char) (rest : Text) : Bool :=
  c == '/' && (rest.head? == some '/' || rest.head? == some '*')

/-- What completes no pair by itself completes none behind another text. -/
theorem opensComment_append {c : Char} {s t : Text} (hs : opensComment c s = false)
    (ht : opensComment '/' t = false) : opensComment c (s ++ t) = false := by
  cases s with
  | nil =>
    by_cases hc : c = '/'
    · rw [hc]
      exact ht
    · simp [opensComment, hc]
  | cons d s => exact hs

/-- The letter does not end the line or the text that `quote` opens. -/
def Letter.fits (quote : Char) : Letter → Bool
  | plain c => c != quote && c != '\\' && c != '\n'
  | escaped _ => true

/-- The letter does not end a template, nor does it open a substitution with what follows. -/
def Letter.fitsTemplate (rest : Text) : Letter → Bool
  | plain c => c != '`' && c != '\\' && !(c == '$' && rest.head? == some '{')
  | escaped _ => true

mutual

/-- Each part of the tree starts and ends where its text does. -/
def Code.isLexical (x : Dialect) : Code → Bool
  | .done => true
  | .char c rest => x.allows c && !opensComment c rest.text && rest.isLexical x
  | .string quote letters rest =>
    (quote == '\'' || quote == '"') && letters.all (Letter.fits quote) && rest.isLexical x
  | .template body rest => body.isLexical x && rest.isLexical x
  | .lineComment body rest => x.comments && !body.contains '\n' && rest.isLexical x
  | .blockComment body rest =>
    x.comments && !decide (['*', '/'] <:+: body) && rest.isLexical x
  | .group _ inner rest => inner.isLexical x && rest.isLexical x

def Template.isLexical (x : Dialect) : Template → Bool
  | .done => true
  | .letter l rest => l.fitsTemplate rest.text && rest.isLexical x
  | .substitution inner rest => inner.isLexical x && rest.isLexical x

end

section Lexical

variable {x : Dialect} {rest inner : Code}

theorem Code.isLexical_char {c : Char} : (Code.char c rest).isLexical x = true ↔
    x.allows c = true ∧ opensComment c rest.text = false ∧ rest.isLexical x = true := by
  simp [Code.isLexical, and_assoc]

theorem Code.isLexical_string {quote : Char} {letters : List Letter} :
    (Code.string quote letters rest).isLexical x = true ↔ (quote = '\'' ∨ quote = '"') ∧
      letters.all (Letter.fits quote) = true ∧ rest.isLexical x = true := by
  simp [Code.isLexical, and_assoc]

theorem Code.isLexical_template {body : Template} : (Code.template body rest).isLexical x = true ↔
    body.isLexical x = true ∧ rest.isLexical x = true := by
  simp [Code.isLexical]

theorem Code.isLexical_lineComment {body : Text} :
    (Code.lineComment body rest).isLexical x = true ↔
      x.comments = true ∧ '\n' ∉ body ∧ rest.isLexical x = true := by
  simp [Code.isLexical, and_assoc]

theorem Code.isLexical_blockComment {body : Text} :
    (Code.blockComment body rest).isLexical x = true ↔
      x.comments = true ∧ ¬ ['*', '/'] <:+: body ∧ rest.isLexical x = true := by
  simp [Code.isLexical, and_assoc]

theorem Code.isLexical_group {bracket : Bracket} :
    (Code.group bracket inner rest).isLexical x = true ↔
      inner.isLexical x = true ∧ rest.isLexical x = true := by
  simp [Code.isLexical]

theorem Template.isLexical_letter {l : Letter} {rest : Template} :
    (Template.letter l rest).isLexical x = true ↔
      l.fitsTemplate rest.text = true ∧ rest.isLexical x = true := by
  simp [Template.isLexical]

theorem Template.isLexical_substitution {rest : Template} :
    (Template.substitution inner rest).isLexical x = true ↔
      inner.isLexical x = true ∧ rest.isLexical x = true := by
  simp [Template.isLexical]

end Lexical

/-! ## Ticks in substitutions -/

/-- No substitution of the template holds a tick. -/
def Template.isFlat : Template → Bool
  | .done => true
  | .letter _ rest => rest.isFlat
  | .substitution inner rest => !inner.text.contains '`' && rest.isFlat

/-- No substitution of a template in the code holds a tick. -/
def Code.isFlat : Code → Bool
  | .done => true
  | .char _ rest => rest.isFlat
  | .string _ _ rest => rest.isFlat
  | .template body rest => body.isFlat && rest.isFlat
  | .lineComment _ rest => rest.isFlat
  | .blockComment _ rest => rest.isFlat
  | .group _ inner rest => inner.isFlat && rest.isFlat

end Uplift.Nesting
