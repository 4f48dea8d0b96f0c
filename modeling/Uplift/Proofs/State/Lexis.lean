-- The lexical structure of the text of a literal, followed one character at a
-- time: brackets by their depth, quoted texts, and comments of both kinds. What
-- a text may hold is a lexis, and a text is closed in it when the text keeps to
-- it and leaves nothing open. The kinds of brackets are not told apart.
import Uplift.State.Splitter
import Uplift.Proofs.Text.Trim

namespace Uplift.State

open Text (isBlank isBlankText)

/-! ## Spots -/

/-- Where the cursor stands, and how many brackets are open there. -/
inductive Spot where
  | code (depth : Nat)
  /-- Behind a slash that may start a comment. -/
  | slash (depth : Nat)
  | quoted (quote : Char) (depth : Nat)
  /-- Behind a backslash in a quoted text. -/
  | escaped (quote : Char) (depth : Nat)
  /-- `blank` tells that the last character of the comment is blank. -/
  | line (depth : Nat) (blank : Bool)
  /-- `star` tells that the last character was a star after the opening. -/
  | block (depth : Nat) (star : Bool)
deriving DecidableEq

namespace Spot

/-- The spot behind a character of code. -/
def ofCode (d : Nat) (c : Char) : Spot :=
  if c = '/' then .slash d
  else if isQuote c then .quoted c d
  else if isOpener c then .code (d + 1)
  else if isCloser c then .code (d - 1)
  else .code d

/-- The spot one character on. -/
def next : Spot → Char → Spot
  | .code d, c => ofCode d c
  | .slash d, c =>
    if c = '/' then .line d false else if c = '*' then .block d false else ofCode d c
  | .quoted q d, c => if c = '\\' then .escaped q d else if c = q then .code d else .quoted q d
  | .escaped q d, _ => .quoted q d
  | .line d _, c => if c = '\n' then .code d else .line d (isBlank c)
  | .block d star, c => if star ∧ c = '/' then .code d else .block d (c == '*')

/-- The spot behind `t`. -/
def after (sp : Spot) (t : Text) : Spot := t.foldl next sp

def depth : Spot → Nat
  | .code d | .slash d | .quoted _ d | .escaped _ d | .line d _ | .block d _ => d

/-- Nothing is open. -/
def isClosed : Spot → Bool
  | .code 0 | .slash 0 => true
  | _ => false

def isLine : Spot → Bool
  | .line _ _ => true
  | _ => false

@[simp]
theorem after_nil (sp : Spot) : sp.after [] = sp := rfl

@[simp]
theorem after_cons (sp : Spot) (c : Char) (t : Text) : sp.after (c :: t) = (sp.next c).after t :=
  rfl

@[simp]
theorem after_append (sp : Spot) (s t : Text) : sp.after (s ++ t) = (sp.after s).after t :=
  List.foldl_append

theorem isClosed_iff {sp : Spot} : sp.isClosed = true ↔ sp = .code 0 ∨ sp = .slash 0 := by
  fun_cases isClosed sp <;> simp_all

/-- A quoted text was opened by a quote. -/
def Sound : Spot → Prop
  | .quoted q _ | .escaped q _ => isQuote q = true
  | _ => True

theorem sound_ofCode (d : Nat) (c : Char) : (ofCode d c).Sound := by
  unfold ofCode
  split_ifs with _ hq
  · trivial
  · exact hq
  all_goals trivial

theorem Sound.next {sp : Spot} (h : sp.Sound) (c : Char) : (sp.next c).Sound := by
  cases sp with
  | code d => exact sound_ofCode d c
  | slash d =>
    simp only [Spot.next]
    split_ifs
    · trivial
    · trivial
    · exact sound_ofCode d c
  | quoted q d =>
    simp only [Spot.next]
    split_ifs
    · exact h
    · trivial
    · exact h
  | escaped q d => exact h
  | line d b =>
    simp only [Spot.next]
    split_ifs <;> trivial
  | block d b =>
    simp only [Spot.next]
    split_ifs <;> trivial

theorem Sound.after {sp : Spot} (h : sp.Sound) (t : Text) : (sp.after t).Sound := by
  induction t generalizing sp with
  | nil => exact h
  | cons c t ih => exact ih (h.next c)

theorem sound_after (t : Text) : ((code 0).after t).Sound :=
  Sound.after (show (code 0).Sound from trivial) t

end Spot

/-! ## What a text may hold -/

/-- What a text may hold. -/
structure Lexis where
  /-- Characters that may not stand as code outside brackets. -/
  barred : List Char
  /-- Comments may stand inside so many brackets. -/
  comments : Nat → Bool
  /-- No line comment ends in blanks. -/
  tidy : Bool

namespace Lexis

/-- A key has no comment, and no comma or colon outside brackets. -/
def key : Lexis := ⟨[',', ':'], fun _ => false, true⟩

/-- An entry has no comma outside brackets, and comments inside brackets only. -/
def entry : Lexis := ⟨[','], fun d => d != 0, true⟩

/-- An entry of a literal without semicolons. -/
def member : Lexis := ⟨[',', ';'], fun d => d != 0, true⟩

/-- The interior of a literal has comments anywhere, and no semicolon outside brackets. -/
def interior : Lexis := ⟨[';'], fun _ => true, false⟩

def allowsCode (x : Lexis) (d : Nat) (c : Char) : Bool :=
  d != 0 || !(isCloser c || x.barred.contains c)

/-- The character may stand at the spot. -/
def allows (x : Lexis) : Spot → Char → Bool
  | .code d, c => x.allowsCode d c
  | .slash d, c => if c = '/' ∨ c = '*' then x.comments d else x.allowsCode d c
  | .line _ blank, c => !(x.tidy && blank && c == '\n')
  | _, _ => true

/-- Every character may stand where it stands. -/
def accepts (x : Lexis) : Spot → Text → Bool
  | _, [] => true
  | sp, c :: t => x.allows sp c && x.accepts (sp.next c) t

/-- The text keeps to the lexis, and closes what it opens. -/
def closes (x : Lexis) (t : Text) : Bool :=
  x.accepts (.code 0) t && ((Spot.code 0).after t).isClosed

theorem accepts_cons {x : Lexis} {sp : Spot} {c : Char} {t : Text} :
    x.accepts sp (c :: t) = true ↔ x.allows sp c = true ∧ x.accepts (sp.next c) t = true := by
  simp only [accepts, Bool.and_eq_true]

theorem accepts_append {x : Lexis} {sp : Spot} {s t : Text} :
    x.accepts sp (s ++ t) = true ↔ x.accepts sp s = true ∧ x.accepts (sp.after s) t = true := by
  induction s generalizing sp with
  | nil => simp [accepts]
  | cons c s ih => rw [List.cons_append, accepts_cons, accepts_cons, ih, and_assoc, Spot.after_cons]

theorem closes_iff {x : Lexis} {t : Text} : x.closes t = true ↔
    x.accepts (.code 0) t = true ∧ ((Spot.code 0).after t).isClosed = true := by
  unfold closes
  rw [Bool.and_eq_true]

/-- All that `x` allows, `y` allows as well. -/
structure Within (x y : Lexis) : Prop where
  barred : y.barred ⊆ x.barred
  comments : ∀ d, x.comments d = true → y.comments d = true
  tidy : y.tidy = true → x.tidy = true

theorem Within.allowsCode {x y : Lexis} (h : Within x y) {d : Nat} {c : Char}
    (hx : x.allowsCode d c = true) : y.allowsCode d c = true := by
  unfold Lexis.allowsCode at hx ⊢
  simp only [bne_iff_ne, Bool.or_eq_true, Bool.not_eq_true', Bool.or_eq_false_iff,
    List.contains_eq_mem, decide_eq_false_iff_not] at hx ⊢
  exact hx.imp_right fun ⟨hcloser, hbarred⟩ => ⟨hcloser, fun hc => hbarred (h.barred hc)⟩

theorem Within.allows {x y : Lexis} (h : Within x y) {sp : Spot} {c : Char}
    (hx : x.allows sp c = true) : y.allows sp c = true := by
  cases sp with
  | code d => exact h.allowsCode hx
  | slash d =>
    simp only [Lexis.allows] at hx ⊢
    split
    · rename_i hc
      rw [if_pos hc] at hx
      exact h.comments d hx
    · rename_i hc
      rw [if_neg hc] at hx
      exact h.allowsCode hx
  | line d blank =>
    have htidy := h.tidy
    simp only [Lexis.allows] at hx ⊢
    grind
  | quoted q d => rfl
  | escaped q d => rfl
  | block d star => rfl

theorem Within.accepts {x y : Lexis} (h : Within x y) {sp : Spot} {t : Text}
    (hx : x.accepts sp t = true) : y.accepts sp t = true := by
  induction t generalizing sp with
  | nil => rfl
  | cons c t ih =>
    rw [accepts_cons] at hx ⊢
    exact ⟨h.allows hx.1, ih hx.2⟩

theorem Within.closes {x y : Lexis} (h : Within x y) {t : Text} (hx : x.closes t = true) :
    y.closes t = true := by
  rw [closes_iff] at hx ⊢
  exact ⟨h.accepts hx.1, hx.2⟩

theorem key_within_entry : Within key entry :=
  ⟨by simp [key, entry], by simp [key], fun _ => rfl⟩

theorem member_within_entry : Within member entry :=
  ⟨by simp [member, entry], fun _ h => h, fun _ => rfl⟩

/-- The spot is one that the lexis lets a text reach. -/
def Reaches (x : Lexis) : Spot → Prop
  | .line d _ | .block d _ => x.comments d = true
  | _ => True

theorem reaches_ofCode (x : Lexis) (d : Nat) (c : Char) : x.Reaches (Spot.ofCode d c) := by
  unfold Spot.ofCode
  split_ifs <;> trivial

theorem Reaches.next {x : Lexis} {sp : Spot} {c : Char} (h : x.Reaches sp)
    (hc : x.allows sp c = true) : x.Reaches (sp.next c) := by
  cases sp with
  | code d => exact reaches_ofCode x d c
  | slash d =>
    simp only [allows] at hc
    simp only [Spot.next]
    split_ifs with hs hb
    · exact (if_pos (Or.inl hs) ▸ hc :)
    · exact (if_pos (Or.inr hb) ▸ hc :)
    · exact reaches_ofCode x d c
  | quoted q d =>
    simp only [Spot.next]
    split_ifs <;> trivial
  | escaped q d => trivial
  | line d b =>
    simp only [Spot.next]
    split_ifs
    · trivial
    · exact h
  | block d b =>
    simp only [Spot.next]
    split_ifs
    · trivial
    · exact h

theorem Reaches.after {x : Lexis} {sp : Spot} {t : Text} (h : x.Reaches sp)
    (ht : x.accepts sp t = true) : x.Reaches (sp.after t) := by
  induction t generalizing sp with
  | nil => exact h
  | cons c t ih =>
    obtain ⟨hc, ht⟩ := accepts_cons.1 ht
    exact ih (h.next hc) ht

end Lexis

/-! ## Blanks and colons -/

/-- A blank or a colon, which opens and closes nothing. -/
def isNeutral (c : Char) : Bool := isBlank c || c == ':'

theorem isNeutral_of_isBlank {c : Char} (h : isBlank c = true) : isNeutral c = true := by
  rw [isNeutral, h, Bool.true_or]

theorem isNeutral_of_isBlankText {t : Text} (h : isBlankText t = true) :
    ∀ c ∈ t, isNeutral c = true :=
  fun c hc => isNeutral_of_isBlank (Text.isBlankText_iff.1 h c hc)

theorem not_of_isNeutral {c d : Char} (hc : isNeutral c = true) (hd : isNeutral d = false) :
    c ≠ d := by
  rintro rfl
  rw [hc] at hd
  cases hd

theorem isCloser_of_isNeutral {c : Char} (h : isNeutral c = true) : isCloser c = false := by
  simp [isCloser, not_of_isNeutral h (d := '}') rfl, not_of_isNeutral h (d := ']') rfl,
    not_of_isNeutral h (d := ')') rfl]

theorem isOpener_of_isNeutral {c : Char} (h : isNeutral c = true) : isOpener c = false := by
  simp [isOpener, not_of_isNeutral h (d := '{') rfl, not_of_isNeutral h (d := '[') rfl,
    not_of_isNeutral h (d := '(') rfl]

theorem isQuote_of_isNeutral {c : Char} (h : isNeutral c = true) : isQuote c = false := by
  simp [isQuote, not_of_isNeutral h (d := '\'') rfl, not_of_isNeutral h (d := '"') rfl,
    not_of_isNeutral h (d := '`') rfl]

/-- The spot that neutral characters lead to. -/
def Spot.idle : Spot → Spot
  | .slash d => .code d
  | .escaped q d => .quoted q d
  | .block d _ => .block d false
  | sp => sp

theorem Spot.isLine_idle (sp : Spot) : sp.idle.isLine = sp.isLine := by
  cases sp <;> rfl

theorem Spot.idle_idle (sp : Spot) : sp.idle.idle = sp.idle := by
  cases sp <;> rfl

theorem Spot.Sound.idle {sp : Spot} (h : sp.Sound) : sp.idle.Sound := by
  cases sp <;> exact h

theorem Spot.of_isClosed {sp : Spot} (h : sp.isClosed = true) :
    sp.Sound ∧ sp.isLine = false ∧ sp.idle = .code 0 := by
  rcases isClosed_iff.1 h with rfl | rfl <;> exact ⟨trivial, rfl, rfl⟩

theorem Spot.ofCode_neutral {c : Char} (d : Nat) (hc : isNeutral c = true) :
    ofCode d c = .code d := by
  simp [ofCode, not_of_isNeutral hc (d := '/') rfl, isQuote_of_isNeutral hc,
    isOpener_of_isNeutral hc, isCloser_of_isNeutral hc]

theorem Spot.next_neutral {sp : Spot} {c : Char} (hs : sp.Sound) (hl : sp.isLine = false)
    (hc : isNeutral c = true) : sp.next c = sp.idle := by
  have hslash := not_of_isNeutral hc (d := '/') rfl
  have hstar := not_of_isNeutral hc (d := '*') rfl
  cases sp with
  | code d => exact ofCode_neutral d hc
  | slash d => simp [next, idle, hslash, hstar, ofCode_neutral d hc]
  | quoted q d =>
    have hq : c ≠ q := by
      rintro rfl
      have hquote : isQuote c = true := hs
      rw [isQuote_of_isNeutral hc] at hquote
      cases hquote
    simp [next, idle, not_of_isNeutral hc (d := '\\') rfl, hq]
  | escaped q d => rfl
  | line d b => cases hl
  | block d b => simp [next, idle, hslash, hstar]

theorem Spot.after_neutral {sp : Spot} {t : Text} (hs : sp.Sound) (hl : sp.isLine = false)
    (ht : ∀ c ∈ t, isNeutral c = true) (hne : t ≠ []) : sp.after t = sp.idle := by
  induction t generalizing sp with
  | nil => exact absurd rfl hne
  | cons c t ih =>
    rw [after_cons, next_neutral hs hl (ht c (by simp))]
    cases t with
    | nil => rfl
    | cons d t =>
      rw [ih hs.idle (sp.isLine_idle.trans hl) (fun c hc => ht c (List.mem_cons_of_mem _ hc))
        (by simp), sp.idle_idle]

theorem Spot.after_blanks {pad : Text} (hpad : isBlankText pad = true) (d : Nat) :
    (code d).after pad = code d := by
  by_cases hnil : pad = []
  · rw [hnil, after_nil]
  · exact after_neutral trivial rfl (isNeutral_of_isBlankText hpad) hnil

namespace Lexis

/-- Blanks and colons may stand as code anywhere. -/
def IsOpen (x : Lexis) : Prop := ∀ c ∈ x.barred, isNeutral c = false

theorem entry_isOpen : entry.IsOpen := List.forall_mem_singleton.2 rfl

theorem member_isOpen : member.IsOpen :=
  List.forall_mem_cons.2 ⟨rfl, List.forall_mem_singleton.2 rfl⟩

theorem IsOpen.allowsCode {x : Lexis} (hx : x.IsOpen) (d : Nat) {c : Char}
    (hc : isNeutral c = true) : x.allowsCode d c = true := by
  have hmem : c ∉ x.barred := fun h => not_of_isNeutral hc (hx c h) rfl
  simp [Lexis.allowsCode, isCloser_of_isNeutral hc, hmem]

theorem IsOpen.allows {x : Lexis} (hx : x.IsOpen) {sp : Spot} {c : Char} (hl : sp.isLine = false)
    (hc : isNeutral c = true) : x.allows sp c = true := by
  cases sp with
  | code d => exact hx.allowsCode d hc
  | slash d => simp [Lexis.allows, not_of_isNeutral hc (d := '/') rfl,
      not_of_isNeutral hc (d := '*') rfl, hx.allowsCode d hc]
  | line d b => cases hl
  | quoted q d => rfl
  | escaped q d => rfl
  | block d b => rfl

theorem IsOpen.accepts {x : Lexis} (hx : x.IsOpen) {sp : Spot} {t : Text} (hs : sp.Sound)
    (hl : sp.isLine = false) (ht : ∀ c ∈ t, isNeutral c = true) : x.accepts sp t = true := by
  induction t generalizing sp with
  | nil => rfl
  | cons c t ih =>
    have hc := ht c (by simp)
    refine accepts_cons.2 ⟨hx.allows hl hc, ?_⟩
    rw [Spot.next_neutral hs hl hc]
    exact ih hs.idle (sp.isLine_idle.trans hl) fun c hc => ht c (List.mem_cons_of_mem _ hc)

end Lexis

theorem colon_space_neutral : ∀ c ∈ [':', ' '], isNeutral c = true :=
  List.forall_mem_cons.2 ⟨rfl, List.forall_mem_singleton.2 rfl⟩

/-! ## Comments -/

/-- The text of one line comment, up to the end of its line. -/
def IsLineText (t : Text) : Prop := ∃ body, t = '/' :: '/' :: body ∧ '\n' ∉ body

/-- One line comment without blanks at its end. -/
def IsLineComment (t : Text) : Prop := IsLineText t ∧ Text.trimEnd t = t

/-- One block comment with its end. -/
def IsBlockComment (t : Text) : Prop :=
  ∃ body, t = '/' :: '*' :: body ++ ['*', '/'] ∧ ¬ ['*', '/'] <:+: body

/-- A text that ends no block comment goes on as one. -/
theorem noEnd_cons {c : Char} {body : Text} (h : ¬ ['*', '/'] <:+: c :: body) :
    ¬ ['*', '/'] <:+: body ∧ ((c == '*') = true → body.head? ≠ some '/') := by
  refine ⟨fun hin => h (hin.trans (List.suffix_cons c body).isInfix), fun hc hhead => ?_⟩
  obtain ⟨rest, rfl⟩ := List.head?_eq_some_iff.1 hhead
  obtain rfl := beq_iff_eq.1 hc
  exact h (List.prefix_append ['*', '/'] rest).isInfix

end Uplift.State
