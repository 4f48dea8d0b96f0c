-- Source text is a list of characters, and every offset into it counts UTF-8
-- bytes. This module is the bridge between the two: how wide a text is, and
-- how to cut it at an offset. A cut never splits a character.

namespace Uplift

/-- A piece of source text. -/
abbrev Text := List Char

namespace Text

/-- The number of UTF-8 bytes that `t` takes. -/
def width : Text → Nat
  | [] => 0
  | c :: t => c.utf8Size + width t

/-- Cut `t` at byte offset `n`. There is no cut past the end or inside a character. -/
def cut? : Text → Nat → Option (Text × Text)
  | t, 0 => some ([], t)
  | [], _ + 1 => none
  | c :: t, n + 1 =>
    if c.utf8Size ≤ n + 1 then
      (cut? t (n + 1 - c.utf8Size)).map fun (a, b) => (c :: a, b)
    else none

/-- Offset `n` stands between two characters of `t`, or at one of its ends. -/
def isBoundary (t : Text) (n : Nat) : Bool := (t.cut? n).isSome

/-- The text from byte `a` up to byte `b`, when both are boundaries in order. -/
def slice? (t : Text) (a b : Nat) : Option Text :=
  if a ≤ b then do
    let (_, rest) ← t.cut? a
    let (mid, _) ← rest.cut? (b - a)
    some mid
  else none

/-- `part` occurs somewhere in `t`. -/
def mentions (t part : Text) : Bool :=
  match t with
  | [] => part.isEmpty
  | c :: rest => part.isPrefixOf (c :: rest) || mentions rest part

/-- Drop `lead` from the front of `t`, if `t` starts with it. -/
def dropLead? : (t lead : Text) → Option Text
  | t, [] => some t
  | [], _ :: _ => none
  | c :: t, d :: lead => if c = d then dropLead? t lead else none

/-- Drop the last character of `t` if it is `c`. -/
def dropLast? (t : Text) (c : Char) : Option Text :=
  if t.getLast? = some c then some t.dropLast else none

/-- `parts` in order, with `sep` between neighbours. -/
def join (sep : Text) (parts : List Text) : Text := (parts.intersperse sep).flatten

/-- The text after the last newline of `t`, or all of it. -/
def lastLine (t : Text) : Text := (t.reverse.takeWhile (· ≠ '\n')).reverse

/-- Cut after the first newline. `none` when there is no newline. -/
def firstLine? : Text → Option (Text × Text)
  | [] => none
  | c :: t =>
    if c = '\n' then some ([c], t)
    else (firstLine? t).map fun (a, b) => (c :: a, b)

/-! ## Width and cuts -/

@[simp]
theorem width_nil : width [] = 0 := rfl

@[simp]
theorem width_cons (c : Char) (t : Text) : width (c :: t) = c.utf8Size + width t := rfl

@[simp]
theorem width_append (s t : Text) : width (s ++ t) = width s + width t := by
  induction s with
  | nil => simp
  | cons c s ih => simp [ih, Nat.add_assoc]

theorem cut?_append (a b : Text) : cut? (a ++ b) (width a) = some (a, b) := by
  induction a with
  | nil => cases b <;> rfl
  | cons c a ih =>
    obtain ⟨n, hn⟩ : ∃ n, c.utf8Size + width a = n + 1 :=
      ⟨c.utf8Size + width a - 1, by have := c.utf8Size_pos; omega⟩
    have h : c.utf8Size ≤ n + 1 := by omega
    have e : n + 1 - c.utf8Size = width a := by omega
    simp only [List.cons_append, width_cons, hn, cut?, h, if_true, e, ih, Option.map_some]

theorem of_cut? {t a b : Text} {n : Nat} (h : cut? t n = some (a, b)) :
    t = a ++ b ∧ width a = n := by
  fun_induction cut? t n generalizing a b with
  | case1 t => simp_all
  | case2 => simp at h
  | case3 c t n hc ih =>
    obtain ⟨⟨x, y⟩, hxy, he⟩ := Option.map_eq_some_iff.1 h
    obtain ⟨rfl, rfl⟩ := Prod.mk.inj he
    obtain ⟨rfl, hw⟩ := ih hxy
    exact ⟨rfl, by simp only [width_cons, hw]; omega⟩
  | case4 => simp at h

/-- A cut at `n` is exactly a way to write the text as two parts, the first `n` bytes wide. -/
theorem cut?_eq_some_iff {t a b : Text} {n : Nat} :
    cut? t n = some (a, b) ↔ t = a ++ b ∧ width a = n :=
  ⟨of_cut?, fun ⟨ht, hn⟩ => by rw [ht, ← hn]; exact cut?_append a b⟩

end Text

end Uplift
