-- Grammars as data, and reading a text by a grammar. Choices are ordered: an
-- alternative is tried where all before it have failed. Forms that grow to the
-- left, such as chains of calls and members, are read with their base first
-- and wrapped suffix by suffix.
import Uplift.Script.Lexical
import Uplift.Script.Tree

namespace Uplift.Script

/-- The named rules of the grammar. -/
inductive Rule where
  | statement
  | block
  | declaration
  | classTail
  | classMember
  | typedMember
  | decorator
  | parameters
  | parameter
  | bindingTarget
  | functionRest
  | expression
  | assignment
  | conditional
  | unary
  | suffixed
  | primary
  | newTarget
  | propertyName
  | objectMember
  | arguments
  | template
  | element
  | elementChild
  | type
  | unionType
  | typeOperand
  | primaryType
  | objectType
  | typeMember
  | typeArguments
  | typeParameters
  | returnType
deriving DecidableEq

/-- A grammar over the rules. -/
inductive Grammar where
  | empty
  /-- A token of this shape, after any gap. -/
  | token (shape : Shape) (kind : Kind) (named : Bool)
  /-- A token of this shape right here. -/
  | here (shape : Shape) (kind : Kind) (named : Bool)
  /-- Look at the next token: whether a line break comes before it, and the text from it on. -/
  | ahead (test : Bool → Text → Bool)
  | rule (r : Rule)
  | seq (a b : Grammar)
  | alt (a b : Grammar)
  | many (a : Grammar)
  /-- Put what is read under one node. -/
  | node (kind : Kind) (a : Grammar)
  /-- Put what is read under one node, unless it is one already. -/
  | group (a : Grammar)
  | role (r : Role) (a : Grammar)
  /-- Only in some dialects. -/
  | only (test : Language → Bool) (a : Grammar)
  /-- Any number of suffixes. Each wraps what comes before it, which is first changed by its
  function. -/
  | chain (base : Grammar) (suffixes : List (Kind × (Tree → Tree) × Grammar))
  /-- The first branch whose ending fits wraps base and ending, and goes on with its rest. -/
  | fork (base : Grammar) (branches : List (Kind × Grammar × Grammar))

/-- A place in a text: what is left of it, and how much was read. Columns count characters. -/
structure Place where
  rest : Text
  byte : Nat := 0
  line : Nat := 1
  column : Nat := 1

namespace Place

/-- The place after `n` more characters. -/
def skip (p : Place) : Nat → Place
  | 0 => p
  | n + 1 =>
    match p.rest with
    | [] => p
    | c :: rest =>
      let next : Place :=
        if c = '\n' then ⟨rest, p.byte + c.utf8Size, p.line + 1, 1⟩
        else ⟨rest, p.byte + c.utf8Size, p.line, p.column + 1⟩
      next.skip n

/-- A comment that is not closed is no comment. -/
def blockCommentLength : Text → Option Nat
  | [] => none
  | '*' :: '/' :: _ => some 2
  | _ :: rest => (blockCommentLength rest).map (· + 1)

/-- The length of the gap at the front: white space and comments. -/
def gapLength (fuel : Nat) (t : Text) : Nat :=
  match fuel with
  | 0 => 0
  | fuel + 1 =>
    match t with
    | '/' :: '/' :: rest =>
      let n := 2 + (rest.takeWhile (· != '\n')).length
      n + gapLength fuel (t.drop n)
    | '/' :: '*' :: rest =>
      match blockCommentLength rest with
      | none => 0
      | some n => n + 2 + gapLength fuel (t.drop (n + 2))
    | c :: rest => if isGap c then 1 + gapLength fuel rest else 0
    | [] => 0

/-- The place after the gap here, and whether the gap holds a line break. -/
def skipGap (p : Place) : Place × Bool :=
  let next := p.skip (gapLength p.rest.length p.rest)
  (next, next.line > p.line)

/-- The span from `p` to `q`. -/
def spanTo (p q : Place) : Span := ⟨p.byte, q.byte, p.line, p.column, q.line⟩

end Place

namespace Grammar

/-- What was read, and the place after it. -/
abbrev Reading := Option (List Tree × Place)

def readToken (shape : Shape) (kind : Kind) (named : Bool) (p : Place) : Reading := do
  let n ← shape p.rest
  let q := p.skip n
  some ([.node kind named none (p.spanTo q) []], q)

def grouped : List Tree → List Tree
  | [t] => [t]
  | [] => []
  | ts => [Tree.enclosing .other ts]

mutual

/-- Read by `g` at `p`. The depth of the reading is limited by `fuel`. -/
def read (rules : Rule → Grammar) (lang : Language) (fuel : Nat) (g : Grammar) (p : Place) :
    Reading :=
  match fuel with
  | 0 => none
  | fuel + 1 =>
    match g with
    | .empty => some ([], p)
    | .token shape kind named => readToken shape kind named p.skipGap.1
    | .here shape kind named => readToken shape kind named p
    | .ahead test =>
      let (q, broken) := p.skipGap
      if test broken q.rest then some ([], p) else none
    | .rule r => read rules lang fuel (rules r) p
    | .seq a b =>
      match read rules lang fuel a p with
      | none => none
      | some (xs, p) =>
        match read rules lang fuel b p with
        | none => none
        | some (ys, p) => some (xs ++ ys, p)
    | .alt a b =>
      match read rules lang fuel a p with
      | some r => some r
      | none => read rules lang fuel b p
    | .many a =>
      match read rules lang fuel a p with
      | none => some ([], p)
      | some (xs, q) =>
        if q.byte = p.byte then some (xs, q)
        else
          match read rules lang fuel (.many a) q with
          | none => none
          | some (ys, q) => some (xs ++ ys, q)
    | .node kind a =>
      match read rules lang fuel a p with
      | none => none
      | some (xs, p) => some ([Tree.enclosing kind xs], p)
    | .group a =>
      match read rules lang fuel a p with
      | none => none
      | some (xs, p) => some (grouped xs, p)
    | .role r a =>
      match read rules lang fuel a p with
      | none => none
      | some (xs, p) => some (xs.map (·.withRole r), p)
    | .only test a => if test lang then read rules lang fuel a p else none
    | .chain base suffixes =>
      match read rules lang fuel base p with
      | none => none
      | some (xs, p) => readChain rules lang fuel suffixes suffixes xs p
    | .fork base branches =>
      match read rules lang fuel base p with
      | none => none
      | some (xs, p) => readFork rules lang fuel branches xs p

/-- Wrap `base` by suffixes as long as one of them fits; `left` are those still to be tried
here. -/
def readChain (rules : Rule → Grammar) (lang : Language) (fuel : Nat)
    (suffixes left : List (Kind × (Tree → Tree) × Grammar)) (base : List Tree) (p : Place) :
    Reading :=
  match fuel with
  | 0 => none
  | fuel + 1 =>
    match left with
    | [] => some (base, p)
    | (kind, change, tail) :: left =>
      match read rules lang fuel tail p with
      | none => readChain rules lang fuel suffixes left base p
      | some (xs, q) =>
        readChain rules lang fuel suffixes suffixes [Tree.enclosing kind (base.map change ++ xs)] q

/-- The first branch that fits. -/
def readFork (rules : Rule → Grammar) (lang : Language) (fuel : Nat)
    (branches : List (Kind × Grammar × Grammar)) (base : List Tree) (p : Place) : Reading :=
  match fuel with
  | 0 => none
  | fuel + 1 =>
    match branches with
    | [] => none
    | (kind, ending, more) :: branches =>
      match read rules lang fuel ending p with
      | none => readFork rules lang fuel branches base p
      | some (xs, q) =>
        match read rules lang fuel more q with
        | none => none
        | some (ys, q) => some (Tree.enclosing kind (base ++ xs) :: ys, q)

end

/-! ## Building grammars -/

def all : List Grammar → Grammar
  | [] => .empty
  | [g] => g
  | g :: gs => .seq g (all gs)

def any : List Grammar → Grammar
  | [] => .ahead fun _ _ => false
  | [g] => g
  | g :: gs => .alt g (any gs)

def opt (g : Grammar) : Grammar := .alt g .empty

/-- A particular word. -/
def kw (s : String) : Grammar := .token (word s) (.token s) false

/-- A particular mark. -/
def sym (s : String) : Grammar := .token (mark s) (.token s) false

/-- A particular text, even if it is part of a longer mark. -/
def lit (s : String) : Grammar := .token (exactly s) (.token s) false

def openBrace : Grammar := sym "\x7b"

def closeBrace : Grammar := sym "\x7d"

def ident : Grammar := .token identifier .other true

def stringToken : Grammar := .token stringLiteral .string true

/-- The next token has this shape. -/
def next (shape : Shape) : Grammar := .ahead fun _ t => (shape t).isSome

def notNext (shape : Shape) : Grammar := .ahead fun _ t => (shape t).isNone

/-- The next token stands on the same line. -/
def sameLine : Grammar := .ahead fun broken _ => !broken

/-- A word that modifies the member whose name follows. -/
def modifier (s : String) : Grammar := .seq (kw s) (.ahead fun _ t => opensMemberName t)

/-- One or more, with commas between them. -/
def commas1 (g : Grammar) : Grammar := .seq g (.many (.seq (sym ",") g))

/-- Any number, with commas between them and perhaps after them. -/
def commas (g : Grammar) : Grammar := opt (.seq (commas1 g) (opt (sym ",")))

/-- The end of a statement. -/
def semicolon : Grammar :=
  .alt (sym ";") (.ahead fun broken t =>
    t.isEmpty || t.head? == some '}' || (broken && endsStatement t))

/-- Part of the typed dialects only. -/
def typed (g : Grammar) : Grammar := .only Language.isTyped g

def untyped (g : Grammar) : Grammar := .only (!·.isTyped) g

end Grammar

end Uplift.Script
