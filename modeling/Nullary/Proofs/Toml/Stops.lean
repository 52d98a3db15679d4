import Nullary.Proofs.Toml.CarriageReturn

/-!
# What stops a reader of TOML without a place

Most stops have a place in the text (`Stop.Placed`): the readers of comments, texts and keys know no
others.  An integer stops a reader for its digits only where a numeral of as many digits stands in
the text, and nesting only where the brackets of the text ask for more room than there is
(`Explained`).  Main statement: `Toml.explained_statements`.
-/

namespace Nullary.Toml

/-- A stop that has a place. -/
def Stop.Placed : Stop → Prop
  | .wrong _ _ => True
  | _ => False

/-- A reader that stops, if it does, at what `P` says. -/
def StopsOnly {α : Type} (P : Stop → Prop) (x : Except Stop α) : Prop :=
  ∀ e, x = .error e → P e

namespace StopsOnly

variable {α β : Type} {P Q : Stop → Prop}

theorem ok {a : α} : StopsOnly P (.ok a) := by
  rintro e ⟨⟩

theorem error {e : Stop} (h : P e) : StopsOnly P (.error e : Except Stop α) := by
  rintro e' ⟨⟩
  exact h

theorem map {x : Except Stop α} {f : α → β} (h : StopsOnly P x) : StopsOnly P (x.map f) := by
  cases x with
  | ok a => exact ok
  | error e => exact error (h e rfl)

theorem mono {x : Except Stop α} (h : StopsOnly P x) (hPQ : ∀ e, P e → Q e) : StopsOnly Q x :=
  fun e he => hPQ e (h e he)

end StopsOnly

variable {s r t : List Char} {room : Nat} {e : Stop}

/-! ### Comments, texts and keys -/

theorem placed_toLineEnd (s : List Char) : StopsOnly Stop.Placed (toLineEnd s) := by
  induction s with
  | nil => exact StopsOnly.ok
  | cons c r ih =>
    rw [toLineEnd]
    split_ifs
    · exact StopsOnly.ok
    · exact StopsOnly.error trivial
    · exact ih

theorem placed_skipComment (s : List Char) : StopsOnly Stop.Placed (skipComment s) := by
  unfold skipComment
  split
  · exact placed_toLineEnd _
  · exact StopsOnly.ok

theorem placed_skipFill (inComment : Bool) (s : List Char) :
    StopsOnly Stop.Placed (skipFill inComment s) := by
  induction s generalizing inComment with
  | nil => exact StopsOnly.ok
  | cons c r ih =>
    rw [skipFill]
    split_ifs
    · exact ih false
    · exact StopsOnly.error trivial
    · exact ih true
    · exact ih false
    · exact ih true
    · exact StopsOnly.ok

theorem placed_literalBody (mark : List Char) (bad : Char → Bool) (s : List Char) :
    StopsOnly Stop.Placed (literalBody mark bad s) := by
  unfold literalBody
  split
  · exact StopsOnly.error trivial
  · split
    · exact StopsOnly.ok
    · exact StopsOnly.error trivial

theorem placed_codePoint (width : Nat) (s : List Char) :
    StopsOnly Stop.Placed (codePoint width s) := by
  unfold codePoint
  dsimp only
  split_ifs
  · exact StopsOnly.ok
  · exact StopsOnly.error trivial
  · exact StopsOnly.error trivial

theorem placed_escape (multiline : Bool) (s : List Char) :
    StopsOnly Stop.Placed (escape multiline s) := by
  unfold escape
  split
  · exact StopsOnly.error trivial
  split_ifs
  · split
    · exact StopsOnly.ok
    · split_ifs
      · exact StopsOnly.ok
      · exact StopsOnly.error trivial
  · exact placed_codePoint 4 _
  · exact placed_codePoint 8 _
  · split
    · exact StopsOnly.ok
    · exact StopsOnly.error trivial

theorem placed_basicBody (multiline : Bool) (s : List Char) :
    StopsOnly Stop.Placed (basicBody multiline s) := by
  fun_induction basicBody multiline s with
  | case1 => exact StopsOnly.error trivial
  | case2 r hm r' hr => exact StopsOnly.ok
  | case3 r hm hr ih => exact ih.map
  | case4 r hm => exact StopsOnly.ok
  | case5 r e hr hc => exact StopsOnly.error (placed_escape multiline r e hr)
  | case6 r out r' hr hl hc ih => exact ih.map
  | case7 c r hq hb hc => exact StopsOnly.error trivial
  | case8 c r hq hb hc ih => exact ih.map

theorem placed_quoted (s : List Char) : StopsOnly Stop.Placed (quoted s) := by
  unfold quoted
  split
  · exact (placed_basicBody true _).map
  · exact (placed_basicBody false _).map
  · split
    · next e he => exact StopsOnly.error ((placed_literalBody _ _ _).map e he)
    · exact StopsOnly.ok
  · split
    · next e he => exact StopsOnly.error (placed_literalBody _ _ _ e he)
    · exact StopsOnly.ok
  · exact StopsOnly.ok

theorem placed_keyPart (s : List Char) : StopsOnly Stop.Placed (keyPart s) := by
  unfold keyPart
  split
  · exact StopsOnly.error trivial
  split_ifs
  · exact StopsOnly.ok
  · split
    · next e he => exact StopsOnly.error (placed_literalBody _ _ _ e he)
    · exact StopsOnly.ok
  · exact (placed_basicBody false _).map
  · exact StopsOnly.error trivial

theorem placed_key (s : List Char) : StopsOnly Stop.Placed (key s) := by
  fun_induction key s with
  | case1 s e he => exact StopsOnly.error (placed_keyPart s e he)
  | case2 s p hp hlt hle r hr hle' hlt' ih => exact ih.map
  | case3 s p hp hlt hle hr => exact StopsOnly.ok

theorem placed_nextLine? (s : List Char) : StopsOnly Stop.Placed (nextLine? s) := by
  unfold nextLine?
  split
  · next e he => exact StopsOnly.error (placed_skipComment _ e he)
  · exact StopsOnly.ok
  · split_ifs
    · exact StopsOnly.ok
    · exact StopsOnly.error trivial

/-! ### Numerals and brackets -/

/-- A numeral of `n` digits, perhaps with underscores among them. -/
def IsNumeral (n : Nat) (t : List Char) : Prop :=
  (∀ c ∈ t, c = '_' ∨ Digits.isDigit 10 c = true) ∧ t.countP (Digits.isDigit 10) = n

/-- The room that the brackets of a text ask for, if each of them opens within the one before. -/
def bracketRoom (s : List Char) : Nat :=
  arrayRoom * s.count '[' + tableRoom * s.count '\x7b'

/-- What the stop of a reader with some room says of its text. -/
def Explained (room : Nat) (s : List Char) : Stop → Prop
  | .wrong _ _ => True
  | .digits n => Digits.limit < n ∧ ∃ t, t <:+: s ∧ IsNumeral n t
  | .tooDeep => room < bracketRoom s

theorem isNumeral_nil : IsNumeral 0 [] := ⟨by simp, rfl⟩

theorem IsNumeral.cons_digit {n : Nat} {c : Char} (hc : Digits.isDigit 10 c = true)
    (h : IsNumeral n t) : IsNumeral (n + 1) (c :: t) := by
  refine ⟨List.forall_mem_cons.mpr ⟨Or.inr hc, h.1⟩, ?_⟩
  rw [List.countP_cons_of_pos hc, h.2]

theorem IsNumeral.cons_underscore {n : Nat} (h : IsNumeral n t) : IsNumeral n ('_' :: t) := by
  refine ⟨List.forall_mem_cons.mpr ⟨Or.inl rfl, h.1⟩, ?_⟩
  rw [List.countP_cons_of_neg (by decide), h.2]

theorem bracketRoom_le (h : r <:+ s) : bracketRoom r ≤ bracketRoom s := by
  have hopen := h.sublist.count_le '['
  have hbrace := h.sublist.count_le '\x7b'
  unfold bracketRoom arrayRoom tableRoom
  omega

theorem bracketRoom_array (r : List Char) : bracketRoom ('[' :: r) = arrayRoom + bracketRoom r := by
  simp [bracketRoom, arrayRoom, tableRoom]
  omega

theorem bracketRoom_table (r : List Char) :
    bracketRoom ('\x7b' :: r) = tableRoom + bracketRoom r := by
  simp [bracketRoom, arrayRoom, tableRoom]
  omega

namespace Explained

theorem of_placed (h : e.Placed) : Explained room s e := by
  cases e with
  | wrong left cause => trivial
  | digits n => exact h.elim
  | tooDeep => exact h.elim

/-- What explains a stop in a part of a text explains it in the text. -/
theorem within {room' : Nat} (hr : r <:+ s)
    (hroom : room' < bracketRoom r → room < bracketRoom s) (h : Explained room' r e) :
    Explained room s e := by
  cases e with
  | wrong left cause => trivial
  | digits n =>
    obtain ⟨hn, t, ht, hnumeral⟩ := h
    exact ⟨hn, t, ht.trans hr.isInfix, hnumeral⟩
  | tooDeep => exact hroom h

theorem later (hr : r <:+ s) (h : Explained room r e) : Explained room s e :=
  h.within hr fun hlt => Nat.lt_of_lt_of_le hlt (bracketRoom_le hr)

end Explained

/-! ### Integers -/

theorem exists_numeral_run (underscores : Bool) (s : List Char) :
    ∃ t, s = t ++ (Digits.run 10 underscores s).2 ∧
      IsNumeral (Digits.run 10 underscores s).1.length t := by
  fun_induction Digits.run 10 underscores s with
  | case1 => exact ⟨[], rfl, isNumeral_nil⟩
  | case2 d r hd p ih =>
    obtain ⟨t, ht, hnumeral⟩ := ih
    have hdigit := (Bool.and_eq_true_iff.mp hd).2
    exact ⟨'_' :: d :: t, congrArg (fun u => '_' :: d :: u) ht,
      (hnumeral.cons_digit hdigit).cons_underscore⟩
  | case3 d r hd => exact ⟨[], rfl, isNumeral_nil⟩
  | case4 c r hne hd p ih =>
    obtain ⟨t, ht, hnumeral⟩ := ih
    exact ⟨c :: t, congrArg (List.cons c) ht, hnumeral.cons_digit hd⟩
  | case5 c r hne hd => exact ⟨[], rfl, isNumeral_nil⟩

theorem exists_numeral_run? {underscores : Bool} {p : List Char × List Char}
    (h : Digits.run? 10 underscores s = some p) : ∃ t, s = t ++ p.2 ∧ IsNumeral p.1.length t := by
  unfold Digits.run? at h
  split at h
  · next c r =>
    split_ifs at h with hd
    obtain rfl := Option.some.inj h
    obtain ⟨t, ht, hnumeral⟩ := exists_numeral_run underscores r
    exact ⟨c :: t, congrArg (List.cons c) ht, hnumeral.cons_digit hd⟩
  · cases h

theorem exists_numeral_whole? {underscores : Bool} {p : List Char × List Char}
    (h : Decimal.whole? underscores s = some p) : ∃ t, s = t ++ p.2 ∧ IsNumeral p.1.length t := by
  unfold Decimal.whole? at h
  split at h
  · next r =>
    obtain rfl := Option.some.inj h
    exact ⟨['0'], rfl, isNumeral_nil.cons_digit (by decide)⟩
  · exact exists_numeral_run? h

theorem exists_numeral_scan? {f : Decimal.Spelling} {p : Decimal × List Char}
    (h : Decimal.scan? f s = some p) : ∃ t, t <:+: s ∧ IsNumeral p.1.whole.length t := by
  unfold Decimal.scan? at h
  dsimp only at h
  split at h
  · cases h
  next ds r hw =>
  obtain rfl := Option.some.inj h
  obtain ⟨t, ht, hnumeral⟩ := exists_numeral_whole? hw
  obtain ⟨sign, hsign, -⟩ := keeps_sign f.plus s
  refine ⟨t, ⟨sign, r, ?_⟩, hnumeral⟩
  rw [List.append_assoc, ← ht, ← hsign]

/-! ### Values -/

theorem explained_decimal? (h : decimal? s = some (.error e)) : Explained room s e := by
  unfold decimal? at h
  obtain ⟨q, hq, he⟩ := Option.map_eq_some_iff.mp h
  split_ifs at he with hinteger hlimit
  obtain rfl := Except.error.inj he
  exact ⟨Nat.lt_of_not_le hlimit, exists_numeral_scan? hq⟩

theorem placed_moment? (h : moment? s = some (.error e)) : e.Placed := by
  unfold moment? at h
  obtain ⟨q, hq, he⟩ := Option.map_eq_some_iff.mp h
  dsimp only at he
  split at he
  · cases he
  · cases he
  · rw [← Except.error.inj he]
    trivial

theorem explained_scalarPair (room : Nat) (s : List Char) :
    StopsOnly (Explained room s) (scalarPair s) := by
  have hok {x : Option (Toml × List Char)} {e : Stop} : x.map Except.ok ≠ some (.error e) := by
    cases x with
    | none => exact fun h => nomatch h
    | some q => exact fun h => nomatch h
  intro e h
  rcases Option.getD_eq_iff.mp h with h | ⟨-, he⟩
  · simp only [Option.orElse_eq_orElse, Option.orElse_eq_or, Option.or_eq_some_iff] at h
    rcases h with h | ⟨-, h | ⟨-, h | ⟨-, h | ⟨-, h | ⟨-, h⟩⟩⟩⟩⟩
    · exact absurd h hok
    · exact Explained.of_placed (placed_moment? h)
    · exact absurd h hok
    · exact absurd h hok
    · exact explained_decimal? h
    · exact absurd h hok
  · rw [← Except.error.inj he]
    trivial

theorem explained_scalar (room : Nat) (s : List Char) :
    StopsOnly (Explained room s) (scalar s) := by
  unfold scalar
  split
  · next e he => exact StopsOnly.error (explained_scalarPair room s e he)
  · split
    · exact StopsOnly.ok
    · exact StopsOnly.error trivial

theorem StopsOnly.explained {α : Type} {x : Except Stop α} (h : StopsOnly Stop.Placed x) :
    StopsOnly (Explained room s) x :=
  h.mono fun _ => Explained.of_placed

theorem StopsOnly.later {α : Type} {x : Except Stop α} (hr : r <:+ s)
    (h : StopsOnly (Explained room r) x) : StopsOnly (Explained room s) x :=
  h.mono fun _ => Explained.later hr

-- As with what the readers leave, the three facts go together, by the measure of the readers.
mutual

theorem explained_value (room : Nat) (s : List Char) :
    StopsOnly (Explained room s) (value room s) := by
  unfold value
  split
  · next e he => exact StopsOnly.error (Explained.of_placed (placed_quoted s e he))
  · exact StopsOnly.ok
  · split
    · next r _ _ =>
      have hbracket := bracketRoom_array r
      split_ifs with hroom
      · exact StopsOnly.error (Nat.lt_of_lt_of_le hroom (hbracket ▸ Nat.le_add_right _ _))
      split
      · next e he => exact StopsOnly.error (Explained.of_placed (placed_skipFill false r e he))
      · exact StopsOnly.ok
      · next r' hne h =>
        have hl : r'.length ≤ r.length := length_skipFill h
        have hr := (keeps_skipFill h).suffix
        have hle := bracketRoom_le hr
        exact ((explained_items (room - arrayRoom) r').mono fun e he =>
          he.within (hr.trans (List.suffix_cons _ r)) (by omega)).map
    · next r _ _ =>
      have hbracket := bracketRoom_table r
      split_ifs with hroom
      · exact StopsOnly.error (Nat.lt_of_lt_of_le hroom (hbracket ▸ Nat.le_add_right _ _))
      have hl := length_skipBlanks r
      have hr := (keeps_skipBlanks r).suffix
      have hle := bracketRoom_le hr
      dsimp only
      split
      · exact StopsOnly.ok
      · exact ((explained_members (room - tableRoom) [] [] (skipBlanks r)).mono fun e he =>
          he.within (hr.trans (List.suffix_cons _ r)) (by omega)).map
    · exact explained_scalar room _
  termination_by (s.length, 0)
  decreasing_by
    all_goals
      apply Prod.Lex.left
      subst_vars
      simp only [List.length_cons]
      omega

theorem explained_items (room : Nat) (s : List Char) :
    StopsOnly (Explained room s) (items room s) := by
  rw [items]
  split
  · next e he => exact StopsOnly.error (explained_value room s e he)
  next p hp =>
  have hvalue := leaves_value room s p hp
  dsimp only
  split
  · next e he => exact StopsOnly.error (Explained.of_placed (placed_skipFill false _ e he))
  · exact StopsOnly.ok
  · next r h2 =>
    split
    · next e he => exact StopsOnly.error (Explained.of_placed (placed_skipFill false _ e he))
    · exact StopsOnly.ok
    · next r' hne h3 =>
      have hcomma : Keeps s (',' :: r) := hvalue.trans (keeps_skipFill h2)
      obtain ⟨hrest, hlt⟩ := hcomma.past (by decide) (keeps_skipFill h3)
      exact ((explained_items room r').later hrest.suffix).map
  · exact StopsOnly.error trivial
  termination_by (s.length, 1)
  decreasing_by
    · exact Prod.Lex.right _ (by omega)
    · exact Prod.Lex.left _ _ hlt

theorem explained_members (room : Nat) (t : Table) (frozen : List Key) (s : List Char) :
    StopsOnly (Explained room s) (members room t frozen s) := by
  rw [members]
  split
  · next e he => exact StopsOnly.error (Explained.of_placed (placed_key s e he))
  next k hk =>
  have hkey := leaves_key s k hk
  dsimp only
  split
  · next r hr =>
    rw [hr] at hkey
    obtain ⟨hequals, hlt⟩ := hkey.past (by decide) (keeps_skipBlanks r)
    have hvalue := (explained_value room (skipBlanks r)).later hequals.suffix
    split
    · next e he => exact StopsOnly.error (hvalue e he)
    next p hp =>
    split
    · exact StopsOnly.error trivial
    split
    · exact StopsOnly.error trivial
    · exact StopsOnly.error trivial
    next t' ht =>
    split
    · exact StopsOnly.ok
    · next r' hr' =>
      have hrest : Keeps s (skipBlanks p.rest) :=
        hequals.trans ((leaves_value room (skipBlanks r) p hp).trans (keeps_skipBlanks p.rest))
      rw [hr'] at hrest
      obtain ⟨hcomma, hlt'⟩ := hrest.past (by decide) (keeps_skipBlanks r')
      exact ((explained_members room t' _ (skipBlanks r')).later hcomma.suffix).map
    · exact StopsOnly.error trivial
  · exact StopsOnly.error trivial
  termination_by (s.length, 1)
  decreasing_by
    · exact Prod.Lex.left _ _ hlt
    · exact Prod.Lex.left _ _ hlt'

end

/-! ### Statements -/

theorem explained_pair (d : Draft) (s : List Char) :
    StopsOnly (Explained wholeRoom s) (pair d s) := by
  unfold pair
  split
  · next e he => exact StopsOnly.error (Explained.of_placed (placed_key s e he))
  next k hk =>
  have hkey := leaves_key s k hk
  split
  · next r hr =>
    rw [hr] at hkey
    have hequals : Keeps s (skipBlanks r) :=
      hkey.trans (Keeps.cons_of (by decide) (keeps_skipBlanks r))
    split
    · next e he =>
      exact StopsOnly.error ((explained_value wholeRoom _ e he).later hequals.suffix)
    split
    · exact StopsOnly.error trivial
    · exact StopsOnly.ok
  · exact StopsOnly.error trivial

theorem placed_tableHeader (d : Draft) (s : List Char) :
    StopsOnly Stop.Placed (tableHeader d s) := by
  unfold tableHeader
  split
  · next e he => exact StopsOnly.error (placed_key _ e he)
  split
  · exact StopsOnly.error trivial
  split
  · exact StopsOnly.ok
  · exact StopsOnly.error trivial

theorem placed_elementHeader (d : Draft) (s : List Char) :
    StopsOnly Stop.Placed (elementHeader d s) := by
  unfold elementHeader
  split
  · next e he => exact StopsOnly.error (placed_key _ e he)
  split
  · exact StopsOnly.error trivial
  split
  · exact StopsOnly.ok
  · exact StopsOnly.error trivial

theorem explained_statement (d : Draft) (s : List Char) :
    StopsOnly (Explained wholeRoom s) (statement d s) := by
  unfold statement
  split
  · exact (placed_elementHeader d.settle _).explained.map
  · exact (placed_tableHeader d.settle _).explained.map
  · split_ifs
    · exact explained_pair d _
    · exact StopsOnly.error trivial
  · exact StopsOnly.error trivial

/-- **What stops a reader of a document without a place stands in its text.** -/
theorem explained_statements (d : Draft) (s : List Char) :
    StopsOnly (Explained wholeRoom s) (statements d s) := by
  have hblanks {s r : List Char} (hs : skipBlanks s = r) : Keeps s r := hs ▸ keeps_skipBlanks s
  fun_induction statements d s with
  | case1 d s hs => exact StopsOnly.ok
  | case2 d s c r hs hb hc e he =>
    exact StopsOnly.error (Explained.of_placed (placed_nextLine? _ e he))
  | case3 d s c r hs hb hc hn => exact StopsOnly.ok
  | case4 d s c r hs hb hc n hn hlt ih =>
    have hline : Keeps s n.rest := (hblanks hs).trans (keeps_nextLine? hn)
    exact ih.later hline.suffix
  | case5 d s c r hs hb hc e he =>
    exact StopsOnly.error ((explained_statement d _ e he).later (hblanks hs).suffix)
  | case6 d s c r hs hb hc p hp e he =>
    exact StopsOnly.error (Explained.of_placed (placed_nextLine? _ e he))
  | case7 d s c r hs hb hc p hp hn => exact StopsOnly.ok
  | case8 d s c r hs hb hc p hp n hn hlt ih =>
    have hline : Keeps s n.rest :=
      (hblanks hs).trans ((leaves_statement d _ p hp).trans (keeps_nextLine? hn))
    exact ih.later hline.suffix

end Nullary.Toml
