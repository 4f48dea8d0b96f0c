-- The bytes of a text. The byte that begins a character continues no other, and
-- no character's bytes begin those of another. So the bytes of a text are found
-- among those of a longer one only where the text itself stands in it. Texts
-- and their bytes are in the same order.
import Uplift.Glob.Basic

namespace Uplift.Text

@[simp]
theorem bytes_nil : bytes [] = [] := rfl

@[simp]
theorem bytes_cons (c : Char) (t : Text) : bytes (c :: t) = String.utf8EncodeChar c ++ bytes t :=
  List.flatMap_cons

@[simp]
theorem bytes_append (s t : Text) : bytes (s ++ t) = bytes s ++ bytes t :=
  List.flatMap_append

@[simp]
theorem length_bytes (t : Text) : (bytes t).length = width t := by
  induction t with
  | nil => rfl
  | cons c t ih => simp [ih]

theorem bytes_eq_nil_iff {t : Text} : bytes t = [] ↔ t = [] := by
  cases t <;> simp

theorem length_bytes_pos {t : Text} (h : t ≠ []) : 0 < (bytes t).length :=
  List.length_pos_iff.2 fun hnil => h (bytes_eq_nil_iff.1 hnil)

/-- Bytes that start with a character start with no other. -/
theorem eq_of_utf8EncodeChar_append {c d : Char} {x y : List UInt8}
    (h : String.utf8EncodeChar c ++ x = String.utf8EncodeChar d ++ y) : c = d ∧ x = y := by
  have hc := ByteArray.utf8DecodeChar?_utf8EncodeChar_append (b := x.toByteArray) (c := c)
  have hd := ByteArray.utf8DecodeChar?_utf8EncodeChar_append (b := y.toByteArray) (c := d)
  rw [← List.toByteArray_append, h] at hc
  rw [← List.toByteArray_append, hc, Option.some.injEq] at hd
  subst hd
  exact ⟨rfl, List.append_cancel_left h⟩

theorem prefix_of_bytes_prefix {s t : Text} (h : s.bytes <+: t.bytes) : s <+: t := by
  induction s generalizing t with
  | nil => exact List.nil_prefix
  | cons c s ih =>
    obtain ⟨x, hx⟩ := h
    cases t with
    | nil => simp at hx
    | cons d t =>
      rw [bytes_cons, bytes_cons, List.append_assoc] at hx
      obtain ⟨rfl, hrest⟩ := eq_of_utf8EncodeChar_append hx
      exact List.cons_prefix_cons.2 ⟨rfl, ih ⟨x, hrest⟩⟩

/-- The bytes of a text that is not empty are found only where the text stands. -/
theorem split_of_bytes_prefix_drop {s t : Text} (hs : s ≠ []) {n : Nat}
    (h : s.bytes <+: t.bytes.drop n) : ∃ a b, t = a ++ s ++ b ∧ width a = n := by
  induction t generalizing n with
  | nil =>
    rw [bytes_nil, List.drop_nil, List.prefix_nil, bytes_eq_nil_iff] at h
    exact absurd h hs
  | cons c t ih =>
    have hsize : (String.utf8EncodeChar c).length = c.utf8Size := String.length_utf8EncodeChar c
    rcases Nat.eq_zero_or_pos n with rfl | hpos
    · obtain ⟨b, hb⟩ := prefix_of_bytes_prefix h
      exact ⟨[], b, hb.symm, rfl⟩
    rcases Nat.lt_or_ge n c.utf8Size with hlt | hge
    · -- A byte inside a character begins none.
      obtain ⟨d, s, rfl⟩ := List.exists_cons_of_ne_nil hs
      obtain ⟨x, hx⟩ := h
      have hn : n < (String.utf8EncodeChar c).length := by omega
      have hzero : 0 < (String.utf8EncodeChar d).length := by
        rw [String.length_utf8EncodeChar]
        exact d.utf8Size_pos
      have hbyte : (String.utf8EncodeChar d)[0] = (String.utf8EncodeChar c)[n] := by
        have hhead : (bytes (d :: s) ++ x)[0]? = ((bytes (c :: t)).drop n)[0]? := by rw [hx]
        rw [bytes_cons, bytes_cons, List.append_assoc, List.getElem?_append_left hzero,
          List.getElem?_drop, Nat.add_zero, List.getElem?_append_left hn,
          List.getElem?_eq_getElem hzero, List.getElem?_eq_getElem hn] at hhead
        exact Option.some.inj hhead
      have hfirst : ((String.utf8EncodeChar d)[0]).IsUTF8FirstByte :=
        UInt8.isUTF8FirstByte_getElem_zero_utf8EncodeChar
      rw [hbyte, UInt8.isUTF8FirstByte_getElem_utf8EncodeChar] at hfirst
      omega
    · rw [bytes_cons, List.drop_append, List.drop_of_length_le (by omega), List.nil_append,
        hsize] at h
      obtain ⟨a, b, rfl, ha⟩ := ih h
      exact ⟨c :: a, b, rfl, by rw [width_cons, ha]; omega⟩

/-- At the width of a text stands the first byte of what follows it. -/
theorem byte_behind (a : Text) (c : Char) (b : Text) :
    ∃ x ∈ String.utf8EncodeChar c, (bytes (a ++ c :: b))[width a]? = some x := by
  have hpos : 0 < (String.utf8EncodeChar c).length := by
    rw [String.length_utf8EncodeChar]
    exact c.utf8Size_pos
  refine ⟨(String.utf8EncodeChar c)[0], List.getElem_mem hpos, ?_⟩
  rw [bytes_append, ← length_bytes, List.getElem?_append_right (Nat.le_refl _), Nat.sub_self,
    bytes_cons, List.getElem?_append_left hpos, List.getElem?_eq_getElem hpos]

/-- Right before the width of a text stands the last byte of its last character. -/
theorem byte_before (a : Text) (c : Char) (b : Text) :
    ∃ x ∈ String.utf8EncodeChar c, (bytes (a ++ [c] ++ b))[width (a ++ [c]) - 1]? = some x := by
  have hpos := c.utf8Size_pos
  have hlast : c.utf8Size - 1 < (String.utf8EncodeChar c).length := by
    rw [String.length_utf8EncodeChar]
    omega
  refine ⟨(String.utf8EncodeChar c)[c.utf8Size - 1], List.getElem_mem hlast, ?_⟩
  have hplace : width (a ++ [c]) - 1 = (bytes a).length + (c.utf8Size - 1) := by
    simp only [width_append, width_cons, width_nil, length_bytes]
    omega
  rw [hplace, List.append_assoc, bytes_append, List.getElem?_append_right (Nat.le_add_right _ _),
    Nat.add_sub_cancel_left, List.singleton_append, bytes_cons, List.getElem?_append_left hlast,
    List.getElem?_eq_getElem hlast]

/-! ## Order -/

theorem ofNat_cons_lt_iff {a b : Nat} {x y : List UInt8} (ha : a < 256) (hb : b < 256) :
    UInt8.ofNat a :: x < UInt8.ofNat b :: y ↔ a < b ∨ a = b ∧ x < y := by
  rw [List.cons_lt_cons_iff, UInt8.lt_iff_toNat_lt, ← UInt8.toNat_inj, UInt8.toNat_ofNat',
    UInt8.toNat_ofNat', Nat.mod_eq_of_lt ha, Nat.mod_eq_of_lt hb]

/-- Of two characters, the lesser has the lesser bytes, whatever follows them. -/
theorem utf8EncodeChar_append_lt {c d : Char} (h : c < d) (x y : List UInt8) :
    String.utf8EncodeChar c ++ x < String.utf8EncodeChar d ++ y := by
  have hlt : c.val.toNat < d.val.toNat := h
  have hmax : d.val.toNat < 1114112 := by
    have hvalid := d.valid
    unfold UInt32.isValidChar Nat.isValidChar at hvalid
    omega
  -- The bytes behind the first are digits to the base 64, and are compared as such.
  have hdigits : ∀ v, v / 4096 = v / 64 / 64 ∧ v / 262144 = v / 64 / 64 / 64 := by
    intro v
    simp only [Nat.div_div_eq_div_mul, true_and]
  unfold String.utf8EncodeChar
  generalize c.val.toNat = v at *
  generalize d.val.toNat = w at *
  simp only [hdigits]
  repeat' split
  all_goals
    simp (disch := omega) only [List.cons_append, List.nil_append, ofNat_cons_lt_iff]
    omega

theorem bytes_lt_bytes {s t : Text} (h : s < t) : bytes s < bytes t := by
  induction h with
  | @nil c t =>
    have hne : bytes (c :: t) ≠ [] := by simp [bytes_eq_nil_iff]
    obtain ⟨b, x, hx⟩ := List.exists_cons_of_ne_nil hne
    rw [hx]
    exact List.nil_lt_cons b x
  | rel h => exact utf8EncodeChar_append_lt h _ _
  | cons _ ih => exact List.append_left_lt ih

end Uplift.Text
