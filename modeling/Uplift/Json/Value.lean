-- JSON values. The fields of an object keep the order they were first written
-- in, and no name stands twice.
import Uplift.Text.Basic

namespace Uplift

/-- A decimal number: `mantissa * 10 ^ exponent`, below zero if `negative`. -/
structure Decimal where
  negative : Bool
  mantissa : Nat
  exponent : Int
deriving DecidableEq

namespace Decimal

def ofNat (n : Nat) : Decimal := ⟨false, n, 0⟩

def toNat? (d : Decimal) : Option Nat :=
  if !d.negative && d.exponent == 0 then some d.mantissa else none

/-- The least magnitude that rounds beyond the finite doubles. -/
def doubleLimit : Nat := Nat.pow 2 1024 - Nat.pow 2 970

/-- The number fits a double. -/
def isFinite (d : Decimal) : Bool :=
  let digits : Int := (Nat.toDigits 10 d.mantissa).length
  if d.mantissa = 0 ∨ digits + d.exponent < 300 then true
  else if digits + d.exponent > 320 then false
  else if d.exponent ≥ 0 then d.mantissa * Nat.pow 10 d.exponent.toNat < doubleLimit
  else d.mantissa < doubleLimit * Nat.pow 10 (-d.exponent).toNat

end Decimal

/-- A JSON value. -/
inductive Json where
  | null
  | bool (b : Bool)
  | num (n : Decimal)
  | str (s : String)
  | arr (items : List Json)
  | obj (fields : List (String × Json))

namespace Json

instance : Inhabited Json := ⟨.null⟩

def ofNat (n : Nat) : Json := .num (.ofNat n)

/-- Write a field: the last value under a name counts. -/
def putField (name : String) (value : Json) : List (String × Json) → List (String × Json)
  | [] => [(name, value)]
  | (n, v) :: rest =>
    if n = name then (n, value) :: rest else (n, v) :: putField name value rest

/-- The value of a field; only objects have fields. -/
def get? (j : Json) (name : String) : Option Json :=
  match j with
  | .obj fields => (fields.find? (·.1 == name)).map (·.2)
  | _ => none

def str? : Json → Option String
  | .str s => some s
  | _ => none

def bool? : Json → Option Bool
  | .bool b => some b
  | _ => none

def nat? : Json → Option Nat
  | .num n => n.toNat?
  | _ => none

def arr? : Json → Option (List Json)
  | .arr xs => some xs
  | _ => none

/-- A name from a fixed list: a string, or an object with the name as its only field and no
value. -/
def variant? : Json → Option String
  | .str s => some s
  | .obj [(s, .null)] => some s
  | _ => none

/-- The value, unless it is null. -/
def nonNull? : Json → Option Json
  | .null => none
  | j => some j

end Json

end Uplift
