-- Path patterns and what they match. A pattern is matched against the bytes of
-- a path, so `?` stands for one byte. Matching follows all ways to read the
-- pattern at once: a set of rests goes in, and the rests after the token come
-- out.
import Uplift.Text.Basic

namespace Uplift

abbrev Bytes := List UInt8

namespace Text

/-- The UTF-8 form of a text. -/
def bytes (t : Text) : Bytes := t.flatMap String.utf8EncodeChar

end Text

namespace Glob

/-- A piece of a pattern. -/
inductive Token where
  | char (c : Char)
  /-- `?`: one byte within a step of the path. -/
  | any
  /-- `*`: any bytes within a step of the path. -/
  | many
  /-- `**/` in front: any number of leading steps. -/
  | leadingSteps
  /-- `/**/`: any number of steps in between. -/
  | innerSteps
  /-- `/**` at the end: everything below. -/
  | trailingSteps
  /-- `[a-z]`: one byte, in or out of the ranges. -/
  | oneOf (negated : Bool) (ranges : List (Char × Char))
  /-- `{a,b}`: one of several patterns. -/
  | choice (branches : List (List Token))

def slash : UInt8 := 0x2f

/-! ## Single bytes -/

/-- A range of characters as bytes: it runs from the last byte of its first character to the
first byte of its last, and the bytes around those stand for themselves. -/
def rangeHas (low high : Char) (b : UInt8) : Bool :=
  let lo := String.utf8EncodeChar low
  let hi := String.utf8EncodeChar high
  if low = high then lo.contains b
  else lo.dropLast.contains b || hi.tail.contains b ||
    (lo.getLastD 0 ≤ b && b ≤ hi.headD 0)

def rangesHave (ranges : List (Char × Char)) (b : UInt8) : Bool :=
  ranges.any fun (low, high) => rangeHas low high b

/-! ## Rests -/

/-- What is left after one byte that satisfies `p`. -/
def afterOne (p : UInt8 → Bool) : Bytes → List Bytes
  | [] => []
  | b :: s => if p b then [s] else []

/-- What is left after any number of bytes that satisfy `p`. -/
def afterSome (p : UInt8 → Bool) : Bytes → List Bytes
  | [] => [[]]
  | b :: s => (b :: s) :: if p b then afterSome p s else []

/-- What is left after each slash. -/
def afterSlashes : Bytes → List Bytes
  | [] => []
  | b :: s => if b = slash then s :: afterSlashes s else afterSlashes s

/-- What is left after `lead`. -/
def afterLead : (lead : Bytes) → Bytes → List Bytes
  | [], s => [s]
  | _ :: _, [] => []
  | a :: lead, b :: s => if a = b then afterLead lead s else []

mutual

/-- A piece that can only be written as nothing: a choice between nothings. -/
def Token.isVoid : Token → Bool
  | .choice branches => areVoid branches
  | _ => false

def isVoidAll : List Token → Bool
  | [] => true
  | t :: ts => t.isVoid && isVoidAll ts

def areVoid : List (List Token) → Bool
  | [] => true
  | b :: bs => isVoidAll b && areVoid bs

end

/-- What is left of one rest after a token that is no choice. -/
def Token.afterSimple : Token → Bytes → List Bytes
  | .char c, s => afterLead (String.utf8EncodeChar c) s
  | .any, s => afterOne (· != slash) s
  | .many, s => afterSome (· != slash) s
  | .leadingSteps, s => s :: afterSlashes s
  | .innerSteps, s => (afterLead [slash] s).flatMap fun r => r :: afterSlashes r
  | .trailingSteps, s => (afterLead [slash] s).flatMap (afterSome fun _ => true)
  | .oneOf negated ranges, s => afterOne (fun b => rangesHave ranges b != negated) s
  | .choice _, s => [s]

mutual

/-- The rests after a token. An empty branch of a choice does not count, and a choice without
other branches stands for nothing. -/
def Token.rests : Token → List Bytes → List Bytes
  | .choice branches, ss => if areVoid branches then ss else restsOfAny branches ss
  | t, ss => (ss.flatMap t.afterSimple).eraseDups

/-- The rests after tokens in a row. -/
def restsOfAll : List Token → List Bytes → List Bytes
  | [], ss => ss
  | t :: ts, ss => restsOfAll ts (t.rests ss)

/-- The rests after any one of several branches. -/
def restsOfAny : List (List Token) → List Bytes → List Bytes
  | [], _ => []
  | b :: bs, ss => (if isVoidAll b then [] else restsOfAll b ss) ++ restsOfAny bs ss

end

end Glob

/-- A path pattern. -/
structure Glob where
  tokens : List Glob.Token

/-- The pattern matches all of `path`. Leading steps alone match everything. -/
def Glob.accepts (g : Glob) (path : Text) : Bool :=
  match g.tokens with
  | [.leadingSteps] => true
  | ts => (Glob.restsOfAll ts [path.bytes]).contains []

end Uplift
