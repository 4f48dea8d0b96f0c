-- Documents, read back. A document is read line by line, so what each piece of
-- it adds can be said by itself; sections with different names then build one
-- table each.
import Uplift.Proofs.Toml.Values

namespace Uplift.Toml

/-! ## Names -/

/-- The name can stand without quotes. -/
def isBare (name : String) : Bool := !name.toList.isEmpty && name.toList.all isBareChar

theorem exists_of_isBare {name : String} (h : isBare name = true) :
    ∃ c t, name.toList = c :: t ∧ ∀ d ∈ c :: t, isBareChar d = true := by
  simp only [isBare, Bool.and_eq_true, Bool.not_eq_true', List.isEmpty_eq_false_iff,
    List.all_eq_true] at h
  obtain ⟨c, t, heq⟩ := List.exists_cons_of_ne_nil h.1
  exact ⟨c, t, heq, heq ▸ h.2⟩

theorem bare_ne {c d : Char} (hc : isBareChar c = true) (hd : isBareChar d = false) : c ≠ d := by
  rintro rfl
  simp [hd] at hc

theorem readName_bare {name : String} (hname : isBare name = true) {d : Char}
    (hd : isBareChar d = false) (rest : Text) :
    readName (name.toList ++ d :: rest) = some (name, d :: rest) := by
  obtain ⟨c, t, heq, hbare⟩ := exists_of_isBare hname
  have htake : (c :: t ++ d :: rest).takeWhile isBareChar = c :: t := by
    rw [List.takeWhile_append_of_pos hbare, List.takeWhile_cons_of_neg (by simp [hd]),
      List.append_nil]
  have hdrop : (c :: t ++ d :: rest).dropWhile isBareChar = d :: rest := by
    rw [List.dropWhile_append_of_pos hbare, List.dropWhile_cons_of_neg (by simp [hd])]
  have hc := hbare c List.mem_cons_self
  have hname' : String.ofList (c :: t) = name := by rw [← heq, String.ofList_toList]
  rw [heq]
  rw [List.cons_append] at htake hdrop ⊢
  rw [readName.eq_def]
  simp [bare_ne hc (d := '"') rfl, bare_ne hc (d := '\'') rfl, htake, hdrop, hname']

theorem isGap_bare {c : Char} (hc : isBareChar c = true) : isGap c = false := by
  simp only [isGap, Bool.or_eq_false_iff, beq_eq_false_iff_ne]
  exact ⟨bare_ne hc rfl, bare_ne hc rfl⟩

theorem skipGap_bare {name : String} (hname : isBare name = true) (rest : Text) :
    skipGap (name.toList ++ rest) = name.toList ++ rest := by
  obtain ⟨c, t, heq, hbare⟩ := exists_of_isBare hname
  rw [heq, List.cons_append, skipGap_cons (isGap_bare (hbare c List.mem_cons_self))]

/-- A key without dots, up to the mark behind it. -/
theorem readKey_bare (limit : Nat) {name : String} (hname : isBare name = true) {d : Char}
    (hd : isBareChar d = false) {rest mark : Text} (hmark : skipGap (d :: rest) = mark)
    (hdot : mark.head? ≠ some '.') :
    readKey (limit + 1) (name.toList ++ d :: rest) = some (⟨[], name⟩, mark) := by
  rw [readKey, skipGap_bare hname, readName_bare hname hd]
  simp only [Option.bind_eq_bind, Option.bind_some, hmark]
  split
  · simp at hdot
  · rfl

/-! ## Lines -/

/-- Complete lines of a document, and the statements that they add. Every line takes a turn of
the reader. -/
def Lines (t : Text) (ss : List Statement) : Prop :=
  ∃ turns ≤ t.length, ∀ fuel rest,
    readStatements (turns + fuel) (t ++ rest) = (readStatements fuel rest).map (ss ++ ·)

theorem Lines.nil : Lines [] [] := ⟨0, by simp, by simp⟩

theorem Lines.append {t t' : Text} {ss ss' : List Statement} (h : Lines t ss)
    (h' : Lines t' ss') : Lines (t ++ t') (ss ++ ss') := by
  obtain ⟨turns, hturns, hread⟩ := h
  obtain ⟨turns', hturns', hread'⟩ := h'
  refine ⟨turns + turns', by simp; omega, fun fuel rest => ?_⟩
  rw [Nat.add_assoc, List.append_assoc, hread, hread', Option.map_map]
  simp [Function.comp_def]

/-- A line with one statement. -/
theorem Lines.of_statement {t : Text} {s : Statement} {c : Char} {t' : Text} (ht : t = c :: t')
    (hgap : isGap c = false) (hstart : c ≠ '#' ∧ c ≠ '\n' ∧ c ≠ '\r')
    (hread : ∀ rest, readStatement (t ++ rest) = some (s, rest)) : Lines t [s] := by
  subst ht
  refine ⟨1, by simp, fun fuel rest => ?_⟩
  have hstatement := hread rest
  rw [List.cons_append] at hstatement ⊢
  rw [Nat.add_comm, readStatements, skipGap_cons hgap]
  simp [hstart, hstatement]

theorem Lines.blank : Lines ['\n'] [] :=
  ⟨1, by simp, fun fuel rest => by
    simp [Nat.add_comm, readStatements, skipGap, isGap, readLineEnd, dropNewline?]⟩

theorem readLineEnd_newline (rest : Text) : readLineEnd ('\n' :: rest) = some rest := by
  simp [readLineEnd, skipGap, isGap, dropNewline?]

theorem Lines.header {name : String} (hname : isBare name = true) :
    Lines (printHeader name) [.header ⟨[], name⟩] := by
  refine Lines.of_statement rfl rfl (by decide) fun rest => ?_
  have hkey : readKey maxDepth (name.toList ++ ']' :: '\n' :: rest) =
      some (⟨[], name⟩, ']' :: '\n' :: rest) :=
    readKey_bare 78 hname rfl (skipGap_cons rfl _) (by simp)
  obtain ⟨c, t, heq, hbare⟩ := exists_of_isBare hname
  have hopen := bare_ne (hbare c List.mem_cons_self) (d := '[') rfl
  rw [heq, List.cons_append] at hkey
  simp [printHeader, heq, readStatement, hopen, hkey, dropChar?, readLineEnd_newline]

theorem Lines.pair {name : String} (hname : isBare name = true) {v : Value} {t : Text}
    (hv : Written v t) : Lines (printPair name (some t)) [.pair ⟨[], name⟩ v] := by
  obtain ⟨c, t', heq, hbare⟩ := exists_of_isBare hname
  have hc := hbare c List.mem_cons_self
  refine Lines.of_statement (by rw [printPair, heq]; rfl) (isGap_bare hc)
    ⟨bare_ne hc rfl, bare_ne hc rfl, bare_ne hc rfl⟩ fun rest => ?_
  have hkey : readKey maxDepth (name.toList ++ ' ' :: '=' :: ' ' :: (t ++ '\n' :: rest)) =
      some (⟨[], name⟩, '=' :: ' ' :: (t ++ '\n' :: rest)) :=
    readKey_bare 78 hname rfl (by simp [skipGap, isGap]) (by simp)
  have hvalue : readValue maxDepth (skipGap (' ' :: (t ++ '\n' :: rest))) =
      some (v, '\n' :: rest) := hv rest
  have hopen := bare_ne hc (d := '[') rfl
  have hprint : printPair name (some t) ++ rest =
      name.toList ++ ' ' :: '=' :: ' ' :: (t ++ '\n' :: rest) := by
    simp [printPair]
  rw [hprint]
  rw [heq, List.cons_append] at hkey ⊢
  rw [readStatement.eq_def]
  simp [hopen, hkey, dropChar?, hvalue, readLineEnd_newline]

/-! ## Sections -/

/-- A table under a header: its name and its entries. -/
structure Section where
  name : String
  entries : Entries

namespace Section

def pairs (es : Entries) : List Statement := es.map fun (name, v) => .pair ⟨[], name⟩ v

def statements (s : Section) : List Statement := .header ⟨[], s.name⟩ :: pairs s.entries

def table (s : Section) : String × Value := (s.name, .table .declared s.entries)

end Section

/-- The names in a table. -/
def Entries.names (es : Entries) : List String := es.map Prod.fst

theorem Entries.get?_new {es : Entries} {name : String} (h : name ∉ es.names) :
    es.get? name = none := by
  refine List.lookup_eq_none_iff.2 fun e he => bne_iff_ne.2 ?_
  rintro rfl
  exact h (List.mem_map_of_mem he)

theorem Entries.get?_last {es : Entries} {name : String} (h : name ∉ es.names) (v : Value) :
    Entries.get? (es ++ [(name, v)]) name = some v := by
  have hnone : List.lookup name es = none := Entries.get?_new h
  simp [Entries.get?, List.lookup_append, hnone]

theorem Entries.put_append {es : Entries} {name : String} (h : name ∉ es.names) (v : Value)
    (more : Entries) : Entries.put name v (es ++ more) = es ++ Entries.put name v more := by
  induction es with
  | nil => rfl
  | cons e es ih =>
    obtain ⟨hne, hes⟩ := not_or.1 (mt List.mem_cons.2 h)
    rw [List.cons_append, Entries.put, if_neg (Ne.symm hne), ih hes]
    rfl

theorem Entries.put_new {es : Entries} {name : String} (h : name ∉ es.names) (v : Value) :
    es.put name v = es ++ [(name, v)] := by
  simpa [Entries.put] using put_append h v []

theorem Entries.put_last {es : Entries} {name : String} (h : name ∉ es.names) (v w : Value) :
    Entries.put name w (es ++ [(name, v)]) = es ++ [(name, w)] := by
  simpa [Entries.put] using put_append h w [(name, v)]

theorem Draft.step_header {d : Draft} {name : String} (h : name ∉ d.root.names) :
    d.step (.header ⟨[], name⟩) = some ⟨[name], d.root ++ [(name, .table .declared [])]⟩ := by
  simp [Draft.step, update, declare, Entries.get?_new h, Entries.put_new h]

theorem Draft.step_pair {root es : Entries} {name key : String} (hname : name ∉ root.names)
    (hkey : key ∉ es.names) (v : Value) :
    (⟨[name], root ++ [(name, .table .declared es)]⟩ : Draft).step (.pair ⟨[], key⟩ v) =
      some ⟨[name], root ++ [(name, .table .declared (es ++ [(key, v)]))]⟩ := by
  have hinsert : insertPair ⟨[], key⟩ v .declared es = some (es ++ [(key, v)]) := by
    simp [insertPair, update, insert, Entries.get?_new hkey, Entries.put_new hkey]
  simp [Draft.step, update, Entries.get?_last hname, Entries.put_last hname, hinsert]

/-- The pairs of a section go into its table, in order. -/
theorem foldlM_pairs {root : Entries} {name : String} (hname : name ∉ root.names)
    (es done : Entries) (hkeys : (Entries.names (done ++ es)).Nodup) :
    (Section.pairs es).foldlM Draft.step ⟨[name], root ++ [(name, .table .declared done)]⟩ =
      some ⟨[name], root ++ [(name, .table .declared (done ++ es))]⟩ := by
  -- The pairs read so far are `done`; each further one is new to them.
  induction es generalizing done with
  | nil => simp [Section.pairs]
  | cons e es ih =>
    obtain ⟨key, v⟩ := e
    have hkey : key ∉ done.names := by
      rw [Entries.names, List.map_append, List.map_cons] at hkeys
      exact fun hmem => (List.nodup_append.1 hkeys).2.2 key hmem key List.mem_cons_self rfl
    have hrest := ih (done ++ [(key, v)]) (by simpa using hkeys)
    rw [List.append_assoc] at hrest
    rw [Section.pairs, List.map_cons, List.foldlM_cons, Draft.step_pair hname hkey]
    exact hrest

theorem foldlM_sections (sections done : List Section) (here : List String)
    (hnames : ((done ++ sections).map Section.name).Nodup)
    (hkeys : ∀ s ∈ sections, s.entries.names.Nodup) :
    ((sections.flatMap Section.statements).foldlM Draft.step ⟨here, done.map Section.table⟩).map
      Draft.root = some ((done ++ sections).map Section.table) := by
  induction sections generalizing done here with
  | nil => simp
  | cons s sections ih =>
    obtain ⟨hs, hrest⟩ := List.forall_mem_cons.1 hkeys
    have hname : s.name ∉ Entries.names (done.map Section.table) := by
      rw [List.map_append, List.map_cons] at hnames
      intro hmem
      refine (List.nodup_append.1 hnames).2.2 s.name ?_ s.name List.mem_cons_self rfl
      simpa [Entries.names, Section.table] using hmem
    have hheader := Draft.step_header (d := ⟨here, done.map Section.table⟩) hname
    have hpairs := foldlM_pairs hname s.entries [] hs
    have hsections := ih (done ++ [s]) [s.name] (by simpa using hnames) hrest
    rw [List.nil_append] at hpairs
    rw [List.map_append, List.append_assoc] at hsections
    rw [List.flatMap_cons, List.foldlM_append, Section.statements, List.foldlM_cons, hheader,
      Option.bind_eq_bind, Option.bind_some, hpairs]
    exact hsections

/-- Sections with different names build one table each. -/
theorem build_sections {sections : List Section} (hnames : (sections.map Section.name).Nodup)
    (hkeys : ∀ s ∈ sections, s.entries.names.Nodup) :
    build (sections.flatMap Section.statements) = some (sections.map Section.table) :=
  foldlM_sections sections [] [] hnames hkeys

/-! ## Sections in lines -/

theorem Section.pairs_append (es es' : Entries) : pairs (es ++ es') = pairs es ++ pairs es' :=
  List.map_append

/-- An entry that may be left out. -/
def Entries.optional (name : String) (o : Option Value) : Entries := o.toList.map (name, ·)

theorem Lines.optional {α : Type} {name : String} (hname : isBare name = true) {o : Option α}
    {value : α → Value} {print : α → Text} (h : ∀ a ∈ o, Written (value a) (print a)) :
    Lines (printPair name (o.map print)) (Section.pairs (.optional name (o.map value))) := by
  cases o with
  | none => exact .nil
  | some a => exact .pair hname (h a rfl)

/-- A document of lines builds what its statements build. -/
theorem Lines.parse? {t : Text} {ss : List Statement} (h : Lines t ss)
    (hmark : t.head? ≠ some '\ufeff') : parse? t = build ss := by
  obtain ⟨turns, hturns, hread⟩ := h
  have hdrop : dropMark t = t := by
    rw [dropMark.eq_def]
    split
    · simp at hmark
    · rfl
  have hfuel : t.length + 1 = turns + (t.length - turns + 1) := by omega
  have hall : readStatements (t.length + 1) t = some ss := by
    have hend := hread (t.length - turns + 1) []
    rw [List.append_nil, ← hfuel] at hend
    simpa [readStatements, skipGap] using hend
  rw [Toml.parse?, hdrop, hall, Option.bind_some]

end Uplift.Toml
