import Mathlib.Data.List.TakeWhile
import Mathlib.Tactic.SplitIfs
import Nullary.Toml.Reader

/-!
# No reader of TOML passes a carriage return

A carriage return is neither a blank nor a line end of TOML, and no text, comment or key may hold
one.  So whatever a reader leaves of a text is the end of it, and still has the carriage returns of
the text (`Keeps`): each reader keeps them because the readers it is made of do.  As a document is
read to its end, `Toml.not_mem_of_statements` follows.  Pairs of carriage return and line feed are
joined before.
-/

namespace Nullary.Toml

/-- What is left of `s` is `r`, and what was passed holds no carriage return. -/
def Keeps (s r : List Char) : Prop :=
  ∃ t, s = t ++ r ∧ '\r' ∉ t

namespace Keeps

variable {s t r : List Char} {c : Char}

theorem refl (s : List Char) : Keeps s s := ⟨[], rfl, List.not_mem_nil⟩

theorem trans (h : Keeps s t) (h' : Keeps t r) : Keeps s r := by
  obtain ⟨u, rfl, hu⟩ := h
  obtain ⟨v, rfl, hv⟩ := h'
  refine ⟨u ++ v, (List.append_assoc u v r).symm, ?_⟩
  rw [List.mem_append, not_or]
  exact ⟨hu, hv⟩

theorem append (h : '\r' ∉ t) : Keeps (t ++ r) r := ⟨t, rfl, h⟩

theorem suffix (h : Keeps s r) : r <:+ s := by
  obtain ⟨t, rfl, -⟩ := h
  exact List.suffix_append t r

/-- Passing one character keeps it, unless this is the one. -/
theorem cons (h : c ≠ '\r') : Keeps (c :: r) r :=
  append (t := [c]) (by simpa using Ne.symm h)

theorem cons_of (h : c ≠ '\r') (h' : Keeps s r) : Keeps (c :: s) r := (cons h).trans h'

/-- One character further on less is left. -/
theorem past (h : Keeps s (c :: r)) (hc : c ≠ '\r') (h' : Keeps r t) :
    Keeps s t ∧ t.length < s.length := by
  refine ⟨h.trans (cons_of hc h'), ?_⟩
  have hs := h.suffix.length_le
  have ht := h'.suffix.length_le
  rw [List.length_cons] at hs
  omega

theorem dropWhile {p : Char → Bool} (hp : p '\r' = false) (s : List Char) :
    Keeps s (s.dropWhile p) := by
  have hpassed : '\r' ∉ s.takeWhile p := by
    intro hm
    have hall := List.mem_takeWhile_imp hm
    rw [hp] at hall
    cases hall
  have hk := append (r := s.dropWhile p) hpassed
  rwa [List.takeWhile_append_dropWhile] at hk

end Keeps

variable {s t r : List Char}

/-! ### Blanks and comments -/

theorem keeps_skipBlanks (s : List Char) : Keeps s (skipBlanks s) :=
  Keeps.dropWhile (by decide) s

theorem ne_of_isControl_eq_false {c : Char} (h : ¬ isControl c = true) : c ≠ '\r' := by
  rintro rfl
  exact h (by decide)

theorem keeps_toLineEnd (h : toLineEnd s = .ok t) : Keeps s t := by
  induction s with
  | nil =>
    obtain rfl := Except.ok.inj h
    exact Keeps.refl _
  | cons c r ih =>
    rw [toLineEnd] at h
    split_ifs at h with hn hc
    · obtain rfl := Except.ok.inj h
      exact Keeps.refl _
    · exact Keeps.cons_of (ne_of_isControl_eq_false hc) (ih h)

theorem keeps_skipComment (h : skipComment s = .ok t) : Keeps s t := by
  unfold skipComment at h
  split at h
  · exact Keeps.cons_of (by decide) (keeps_toLineEnd h)
  · obtain rfl := Except.ok.inj h
    exact Keeps.refl _

theorem keeps_skipFill {inComment : Bool} (h : skipFill inComment s = .ok t) : Keeps s t := by
  induction s generalizing inComment with
  | nil =>
    obtain rfl := Except.ok.inj h
    exact Keeps.refl _
  | cons c r ih =>
    rw [skipFill] at h
    split_ifs at h with hin hn hc hb hm
    · exact Keeps.cons_of (by rw [hn]; decide) (ih h)
    · exact Keeps.cons_of (ne_of_isControl_eq_false hc) (ih h)
    · refine Keeps.cons_of ?_ (ih h)
      rintro rfl
      exact absurd hb (by decide)
    · exact Keeps.cons_of (by rw [hm]; decide) (ih h)
    · obtain rfl := Except.ok.inj h
      exact Keeps.refl _

/-! ### Texts -/

theorem splitAt?_eq_some {mark : List Char} {p : List Char × List Char}
    (h : splitAt? mark s = some p) : s = p.1 ++ (mark ++ p.2) := by
  induction s generalizing p with
  | nil =>
    unfold splitAt? at h
    split_ifs at h with hm
    obtain rfl := Option.some.inj h
    simpa using hm
  | cons c r ih =>
    unfold splitAt? at h
    split_ifs at h with hm
    · obtain rfl := Option.some.inj h
      obtain ⟨after, hafter⟩ := List.isPrefixOf_iff_prefix.mp hm
      simp [← hafter]
    · obtain ⟨q, hq, rfl⟩ := Option.map_eq_some_iff.mp h
      rw [ih hq]
      rfl

theorem keeps_literalBody {mark : List Char} {bad : Char → Bool} {p : List Char × List Char}
    (hmark : '\r' ∉ mark) (hbad : bad '\r' = true) (h : literalBody mark bad s = .ok p) :
    Keeps s p.2 := by
  unfold literalBody at h
  split at h
  · cases h
  next body after hs =>
  split at h
  · next hbody =>
    obtain rfl := Except.ok.inj h
    rw [splitAt?_eq_some hs]
    refine Keeps.trans (Keeps.append ?_) (Keeps.append hmark)
    intro hm
    have hgood := List.dropWhile_eq_nil_iff.mp hbody _ hm
    rw [hbad] at hgood
    cases hgood
  · cases h

theorem keeps_codePoint {width : Nat} {p : List Char × List Char} (h : codePoint width s = .ok p) :
    Keeps s p.2 := by
  unfold codePoint at h
  dsimp only at h
  split_ifs at h with hd hn
  obtain rfl := Except.ok.inj h
  have hdigits : '\r' ∉ s.take width := by
    intro hm
    exact absurd (List.all_eq_true.mp hd.2 _ hm) (by decide)
  have hk := Keeps.append (r := s.drop width) hdigits
  rwa [List.take_append_drop] at hk

theorem keeps_escape {multiline : Bool} {p : List Char × List Char}
    (h : escape multiline s = .ok p) : Keeps s p.2 := by
  unfold escape at h
  split at h
  · cases h
  next c r =>
  split_ifs at h with hb hu hU
  · have hblanks := keeps_skipBlanks (c :: r)
    split at h
    · next hs =>
      obtain rfl := Except.ok.inj h
      rwa [hs] at hblanks
    · next d t hs =>
      split_ifs at h with hd
      obtain rfl := Except.ok.inj h
      rw [hs] at hblanks
      exact hblanks.trans (Keeps.cons_of (by rw [hd]; decide) (Keeps.dropWhile (by decide) t))
  · exact Keeps.cons_of (by rw [hu]; decide) (keeps_codePoint h)
  · exact Keeps.cons_of (by rw [hU]; decide) (keeps_codePoint h)
  · split at h
    · next e he =>
      obtain rfl := Except.ok.inj h
      refine Keeps.cons ?_
      rintro rfl
      have hno : simpleEscape? '\r' = none := by decide
      rw [hno] at he
      cases he
    · cases h

theorem keeps_afterTwoMarks? (h : afterTwoMarks? s = some t) : Keeps s t := by
  unfold afterTwoMarks? at h
  split at h
  · obtain rfl := Option.some.inj h
    exact Keeps.cons_of (by decide) (Keeps.cons (by decide))
  · cases h

theorem keeps_extraMarks {c : Char} (hc : c ≠ '\r') (body s : List Char) :
    Keeps s (extraMarks c body s).2 := by
  unfold extraMarks
  split
  · split_ifs with hab ha
    · obtain ⟨rfl, rfl⟩ := hab
      exact Keeps.cons_of hc (Keeps.cons hc)
    · subst ha
      exact Keeps.cons hc
    · exact Keeps.refl _
  · split_ifs with ha
    · subst ha
      exact Keeps.cons hc
    · exact Keeps.refl _
  · exact Keeps.refl _

theorem keeps_skipFirstNewline (s : List Char) : Keeps s (skipFirstNewline s) := by
  unfold skipFirstNewline
  split
  · exact Keeps.cons (by decide)
  · exact Keeps.refl _

/-! ### Steps -/

/-- A reader of `s` passes no carriage return when it answers. -/
def Leaves {α : Type} (x : Except Stop (Step α s)) : Prop :=
  ∀ p, x = .ok p → Keeps s p.rest

namespace Leaves

variable {α β : Type}

theorem error {e : Stop} : Leaves (.error e : Except Stop (Step α s)) := by
  rintro p ⟨⟩

theorem ok {p : Step α s} (h : Keeps s p.rest) : Leaves (.ok p) := by
  rintro q ⟨⟩
  exact h

/-- A step at a later part of a text, made into one of the whole text. -/
theorem map {x : Except Stop (Step α t)} {f : Step α t → Step β s} (hst : Keeps s t)
    (hf : ∀ p, (f p).rest = p.rest) (hx : Leaves x) : Leaves (x.map f) := by
  intro q hq
  cases x with
  | error e => cases hq
  | ok p =>
    obtain rfl := Except.ok.inj hq
    rw [hf]
    exact hst.trans (hx p rfl)

end Leaves

theorem leaves_basicBody (multiline : Bool) (s : List Char) : Leaves (basicBody multiline s) := by
  fun_induction basicBody multiline s with
  | case1 => exact Leaves.error
  | case2 r hm r' hr =>
    exact Leaves.ok (Keeps.cons_of (by decide) (keeps_afterTwoMarks? hr))
  | case3 r hm hr ih => exact ih.map (Keeps.cons (by decide)) fun p => rfl
  | case4 r hm => exact Leaves.ok (Keeps.cons (by decide))
  | case5 r e hr hc => exact Leaves.error
  | case6 r out r' hr hl hc ih =>
    exact ih.map (Keeps.cons_of (by decide) (keeps_escape hr)) fun p => rfl
  | case7 c r hq hb hc => exact Leaves.error
  | case8 c r hq hb hc ih =>
    refine ih.map (Keeps.cons ?_) fun p => rfl
    rintro rfl
    exact hc (by cases multiline <;> decide)

theorem keeps_literalText {p : List Char × List Char} (h : literalText s = .ok p) : Keeps s p.2 :=
  keeps_literalBody (by decide) (by decide) h

theorem keeps_literalLines {p : List Char × List Char} (h : literalLines s = .ok p) :
    Keeps s p.2 := by
  unfold literalLines at h
  cases hb : literalBody ['\x27', '\x27', '\x27'] isControlInLines (skipFirstNewline s) with
  | error e => simp [hb, Except.map] at h
  | ok q =>
    simp only [hb, Except.map, Except.ok.injEq] at h
    subst h
    have hbody := keeps_literalBody (by decide) (by decide) hb
    exact (keeps_skipFirstNewline s).trans
      (hbody.trans (keeps_extraMarks (by decide) q.1 q.2))

theorem keeps_quoted {p : Step (List Char) s} (h : quoted s = .ok (some p)) : Keeps s p.rest := by
  unfold quoted at h
  split at h
  · next r =>
    cases hb : basicBody true (skipFirstNewline r) with
    | error e => simp [hb, Except.map] at h
    | ok q =>
      simp only [hb, Except.map, Except.ok.injEq, Option.some.injEq] at h
      subst h
      have hopen : Keeps ('\x22' :: '\x22' :: '\x22' :: r) r :=
        Keeps.append (t := ['\x22', '\x22', '\x22']) (by decide)
      have hbody := leaves_basicBody true (skipFirstNewline r) q hb
      exact hopen.trans ((keeps_skipFirstNewline r).trans
        (hbody.trans (keeps_extraMarks (by decide) q.value q.rest)))
  · next r _ =>
    cases hb : basicBody false r with
    | error e => simp [hb, Except.map] at h
    | ok q =>
      simp only [hb, Except.map, Except.ok.injEq, Option.some.injEq] at h
      subst h
      exact Keeps.cons_of (by decide) (leaves_basicBody false r q hb)
  · next r =>
    split at h
    · cases h
    next q hq =>
    obtain rfl := Option.some.inj (Except.ok.inj h)
    exact Keeps.trans (Keeps.append (t := ['\x27', '\x27', '\x27']) (by decide))
      (keeps_literalLines hq)
  · next r _ =>
    split at h
    · cases h
    next q hq =>
    obtain rfl := Option.some.inj (Except.ok.inj h)
    exact Keeps.cons_of (by decide) (keeps_literalText hq)
  · cases h

/-! ### Keys -/

theorem ne_of_isBare {c : Char} (h : isBare c = true) : c ≠ '\r' := by
  rintro rfl
  exact absurd h (by decide)

theorem leaves_keyPart (s : List Char) : Leaves (keyPart s) := by
  unfold keyPart
  split
  · exact Leaves.error
  next c r =>
  split_ifs with hb hl hq
  · exact Leaves.ok (Keeps.cons_of (ne_of_isBare hb) (Keeps.dropWhile (by decide) r))
  · subst hl
    split
    · exact Leaves.error
    next p hp => exact Leaves.ok (Keeps.cons_of (by decide) (keeps_literalText hp))
  · subst hq
    exact (leaves_basicBody false r).map (Keeps.cons (by decide)) fun p => rfl
  · exact Leaves.error

theorem leaves_key (s : List Char) : Leaves (key s) := by
  fun_induction key s with
  | case1 s e he => exact Leaves.error
  | case2 s p hp hlt hle r hr hle' hlt' ih =>
    refine ih.map ?_ fun q => rfl
    have hdot := keeps_skipBlanks p.rest
    rw [hr] at hdot
    exact (leaves_keyPart s p hp).trans
      (hdot.trans (Keeps.cons_of (by decide) (keeps_skipBlanks r)))
  | case3 s p hp hlt hle hr =>
    exact Leaves.ok ((leaves_keyPart s p hp).trans (keeps_skipBlanks p.rest))

/-! ### Numbers -/

theorem digit?_return (base : Nat) : Digits.digit? base '\r' = none := by
  simp [Digits.digit?]

theorem ne_of_isDigit {base : Nat} {c : Char} (h : Digits.isDigit base c = true) : c ≠ '\r' := by
  rintro rfl
  simp [Digits.isDigit, digit?_return] at h

theorem keeps_run (base : Nat) (underscores : Bool) (s : List Char) :
    Keeps s (Digits.run base underscores s).2 := by
  fun_induction Digits.run base underscores s with
  | case1 => exact Keeps.refl _
  | case2 d r hd p ih =>
    have hdigit := ne_of_isDigit (Bool.and_eq_true_iff.mp hd).2
    exact Keeps.cons_of (by decide) (Keeps.cons_of hdigit ih)
  | case3 d r hd => exact Keeps.refl _
  | case4 c r hne hd p ih => exact Keeps.cons_of (ne_of_isDigit hd) ih
  | case5 c r hne hd => exact Keeps.refl _

theorem keeps_run? {base : Nat} {underscores : Bool} {p : List Char × List Char}
    (h : Digits.run? base underscores s = some p) : Keeps s p.2 := by
  unfold Digits.run? at h
  split at h
  · next c r =>
    split_ifs at h with hd
    obtain rfl := Option.some.inj h
    exact Keeps.cons_of (ne_of_isDigit hd) (keeps_run base underscores r)
  · cases h

theorem keeps_sign (plus : Bool) (s : List Char) : Keeps s (Decimal.sign plus s).2 := by
  unfold Decimal.sign
  split
  · exact Keeps.cons (by decide)
  · split_ifs
    · exact Keeps.cons (by decide)
    · exact Keeps.refl _
  · exact Keeps.refl _

theorem keeps_whole? {underscores : Bool} {p : List Char × List Char}
    (h : Decimal.whole? underscores s = some p) : Keeps s p.2 := by
  unfold Decimal.whole? at h
  split at h
  · obtain rfl := Option.some.inj h
    exact Keeps.cons (by decide)
  · exact keeps_run? h

theorem keeps_fractionPart (underscores : Bool) (s : List Char) :
    Keeps s (Decimal.fractionPart underscores s).2 := by
  unfold Decimal.fractionPart
  split
  · next r =>
    cases hr : Digits.run? 10 underscores r with
    | none => exact Keeps.refl _
    | some p => exact Keeps.cons_of (by decide) (keeps_run? hr)
  · exact Keeps.refl _

theorem keeps_exponentPart (underscores : Bool) (s : List Char) :
    Keeps s (Decimal.exponentPart underscores s).2 := by
  unfold Decimal.exponentPart
  split
  · next c r =>
    split_ifs with hc
    · dsimp only
      split
      · next ds r' hr =>
        have hmark : c ≠ '\r' := by
          rintro rfl
          exact absurd hc (by decide)
        exact Keeps.cons_of hmark ((keeps_sign true r).trans (keeps_run? hr))
      · exact Keeps.refl _
    · exact Keeps.refl _
  · exact Keeps.refl _

theorem keeps_scan? {f : Decimal.Spelling} {p : Decimal × List Char}
    (h : Decimal.scan? f s = some p) : Keeps s p.2 := by
  unfold Decimal.scan? at h
  dsimp only at h
  split at h
  · cases h
  next ds r hw =>
  obtain rfl := Option.some.inj h
  have hfraction := keeps_fractionPart f.underscores r
  have hexponent := keeps_exponentPart f.underscores (Decimal.fractionPart f.underscores r).2
  exact (keeps_sign f.plus s).trans ((keeps_whole? hw).trans (hfraction.trans hexponent))

/-! ### Dates and times -/

theorem keeps_field? {low high : Nat} {p : Nat × List Char}
    (h : Reading.field? low high s = some p) : Keeps s p.2 := by
  unfold Reading.field? at h
  split at h
  · next a b r =>
    split at h
    · next x y hx hy =>
      have ha : Digits.isDigit 10 a = true := by simp [Digits.isDigit, hx]
      have hb : Digits.isDigit 10 b = true := by simp [Digits.isDigit, hy]
      dsimp only at h
      split_ifs at h
      obtain rfl := Option.some.inj h
      exact Keeps.cons_of (ne_of_isDigit ha) (Keeps.cons (ne_of_isDigit hb))
    · cases h
  · cases h

theorem keeps_after? {c : Char} (hc : c ≠ '\r') (h : Reading.after? c s = some r) : Keeps s r := by
  unfold Reading.after? at h
  split at h
  · split_ifs at h with hd
    obtain rfl := Option.some.inj h
    subst hd
    exact Keeps.cons hc
  · cases h

theorem keeps_date? {p : (Nat × Nat × Nat) × List Char} (h : Reading.date? s = some p) :
    Keeps s p.2 := by
  simp only [Reading.date?, Option.bind_eq_bind, Option.bind_eq_some_iff] at h
  obtain ⟨century, h1, year, h2, r3, h3, month, h4, r5, h5, day, h6, h⟩ := h
  obtain rfl := Option.some.inj h
  have hyear : Keeps s year.2 := (keeps_field? h1).trans (keeps_field? h2)
  have hmonth : Keeps year.2 month.2 := (keeps_after? (by decide) h3).trans (keeps_field? h4)
  have hday : Keeps month.2 day.2 := (keeps_after? (by decide) h5).trans (keeps_field? h6)
  exact hyear.trans (hmonth.trans hday)

theorem keeps_fraction (s : List Char) : Keeps s (Reading.fraction s).2 := by
  unfold Reading.fraction
  split
  · next r =>
    dsimp only
    split_ifs
    · exact Keeps.refl _
    · have hdigits : Digits.isDigit 10 '\r' = false := by decide
      exact Keeps.cons_of (by decide) (Keeps.dropWhile hdigits r)
  · exact Keeps.refl _

theorem keeps_clock? {p : (Nat × Nat × Nat × Nat) × List Char} (h : Reading.clock? s = some p) :
    Keeps s p.2 := by
  simp only [Reading.clock?, Option.bind_eq_bind, Option.bind_eq_some_iff] at h
  obtain ⟨hour, h1, r2, h2, minute, h3, r4, h4, second, h5, h⟩ := h
  obtain rfl := Option.some.inj h
  have hminute : Keeps hour.2 minute.2 := (keeps_after? (by decide) h2).trans (keeps_field? h3)
  have hsecond : Keeps minute.2 second.2 := (keeps_after? (by decide) h4).trans (keeps_field? h5)
  exact (keeps_field? h1).trans (hminute.trans (hsecond.trans (keeps_fraction second.2)))

theorem keeps_signedOffset? {p : Offset × List Char} (h : Reading.signedOffset? s = some p) :
    Keeps s p.2 := by
  unfold Reading.signedOffset? at h
  split at h
  · next c r =>
    have hc : c ≠ '\r' := by
      rintro rfl
      simp at h
    refine Keeps.cons_of hc ?_
    split_ifs at h
    all_goals
      simp only [Option.bind_eq_bind, Option.bind_eq_some_iff] at h
      obtain ⟨sign, hsign, hour, h1, r2, h2, minute, h3, o, -, h⟩ := h
      obtain rfl := Option.some.inj h
      exact (keeps_field? h1).trans ((keeps_after? (by decide) h2).trans (keeps_field? h3))
  · cases h

theorem keeps_offset (s : List Char) : Keeps s (Reading.offset s).2 := by
  unfold Reading.offset
  split
  · exact Keeps.cons (by decide)
  · exact Keeps.cons (by decide)
  · split
    · next o r h => exact keeps_signedOffset? h
    · exact Keeps.refl _

/-! ### Scalars -/

theorem keeps_word? {words : List (String × Toml)} {p : Toml × List Char}
    (hwords : ∀ e ∈ words, '\r' ∉ e.1.toList) (h : word? words s = some p) : Keeps s p.2 := by
  obtain ⟨e, he, hp⟩ := List.exists_of_findSome?_eq_some h
  obtain ⟨r, hr, rfl⟩ := Option.map_eq_some_iff.mp hp
  unfold Step.afterWord? at hr
  split_ifs at hr with hword
  obtain rfl := Option.some.inj hr
  obtain ⟨after, rfl⟩ := List.isPrefixOf_iff_prefix.mp hword
  show Keeps _ (List.drop e.1.length (e.1.toList ++ after))
  rw [← String.length_toList, List.drop_left]
  exact Keeps.append (hwords e he)

theorem keeps_clockAfterDate? {p : Option Time × List Char} (h : clockAfterDate? s = some p) :
    Keeps s p.2 := by
  unfold clockAfterDate? at h
  split at h
  · next c r =>
    split_ifs at h with hc
    obtain ⟨q, hq, rfl⟩ := Option.map_eq_some_iff.mp h
    have hmark : c ≠ '\r' := by
      rintro rfl
      exact absurd hc (by decide)
    exact Keeps.cons_of hmark ((keeps_clock? hq).trans (keeps_offset q.2))
  · cases h

theorem keeps_moment? {p : Toml × List Char} (h : moment? s = some (.ok p)) : Keeps s p.2 := by
  unfold moment? at h
  obtain ⟨q, hq, hp⟩ := Option.map_eq_some_iff.mp h
  dsimp only at hp
  split at hp
  · next hclock =>
    obtain rfl := Except.ok.inj hp
    exact (keeps_date? hq).trans (keeps_clockAfterDate? hclock)
  · obtain rfl := Except.ok.inj hp
    exact keeps_date? hq
  · cases hp

theorem keeps_clockScalar? {p : Toml × List Char} (h : clock? s = some p) : Keeps s p.2 := by
  unfold clock? at h
  obtain ⟨q, hq, ht⟩ := Option.bind_eq_some_iff.mp h
  obtain ⟨t, -, rfl⟩ := Option.map_eq_some_iff.mp ht
  exact keeps_clock? hq

theorem keeps_based? {p : Toml × List Char} (h : based? s = some p) : Keeps s p.2 := by
  unfold based? at h
  split at h
  · next b r =>
    obtain ⟨q, hq, rfl⟩ := Option.map_eq_some_iff.mp h
    have hb : b ≠ '\r' := by
      rintro rfl
      -- any other letter stands for the base zero, which has no digits
      have hno : Digits.run? 0 true r = none := by
        cases r <;> simp [Digits.run?, Digits.isDigit, Digits.digit?]
      simp [hno] at hq
    exact Keeps.cons_of (by decide) (Keeps.cons_of hb (keeps_run? hq))
  · cases h

theorem keeps_decimal? {p : Toml × List Char} (h : decimal? s = some (.ok p)) : Keeps s p.2 := by
  unfold decimal? at h
  obtain ⟨q, hq, hp⟩ := Option.map_eq_some_iff.mp h
  split_ifs at hp
  · obtain rfl := Except.ok.inj hp
    exact keeps_scan? hq
  · obtain rfl := Except.ok.inj hp
    exact keeps_scan? hq

theorem keeps_of_map_ok {x : Option (Toml × List Char)} {p : Toml × List Char}
    (hx : ∀ q, x = some q → Keeps s q.2)
    (h : x.map (Except.ok : _ → Except Stop (Toml × List Char)) = some (.ok p)) : Keeps s p.2 := by
  obtain ⟨q, hq, hp⟩ := Option.map_eq_some_iff.mp h
  obtain rfl := Except.ok.inj hp
  exact hx q hq

theorem keeps_scalarPair {p : Toml × List Char} (h : scalarPair s = .ok p) : Keeps s p.2 := by
  have hfound {x : Option (Except Stop (Toml × List Char))} {e : Stop}
      (hx : x.getD (.error e) = .ok p) : x = some (.ok p) := by
    cases x with
    | none => cases hx
    | some y => exact congrArg some hx
  have hor := hfound h
  simp only [Option.orElse_eq_orElse, Option.orElse_eq_or, Option.or_eq_some_iff] at hor
  rcases hor with h | ⟨-, h | ⟨-, h | ⟨-, h | ⟨-, h | ⟨-, h⟩⟩⟩⟩⟩
  · exact keeps_of_map_ok (fun q hq => keeps_word? (by decide) hq) h
  · exact keeps_moment? h
  · exact keeps_of_map_ok (fun q hq => keeps_clockScalar? hq) h
  · exact keeps_of_map_ok (fun q hq => keeps_based? hq) h
  · exact keeps_decimal? h
  · exact keeps_of_map_ok (fun q hq => keeps_word? (by decide) hq) h

theorem leaves_scalar (s : List Char) : Leaves (scalar s) := by
  intro q hq
  unfold scalar at hq
  split at hq
  · cases hq
  next p hp =>
  split at hq
  · next q' hq' =>
    obtain rfl := Except.ok.inj hq
    unfold Step.of? at hq'
    split_ifs at hq'
    obtain rfl := Option.some.inj hq'
    exact keeps_scalarPair hp
  · cases hq

/-! ### Values -/

-- A value is read by the readers of its parts and these by the one of values, all on what is left:
-- the three facts go together, by the measure of the readers themselves.
mutual

theorem leaves_value (room : Nat) (s : List Char) : Leaves (value room s) := by
  unfold value
  split
  · exact Leaves.error
  · next p hp => exact Leaves.ok (keeps_quoted hp)
  · split
    · next r _ _ =>
      split_ifs with hroom
      · exact Leaves.error
      split
      · exact Leaves.error
      · next r' h =>
        exact Leaves.ok (Keeps.cons_of (by decide)
          ((keeps_skipFill h).trans (Keeps.cons (by decide))))
      · next r' hne h =>
        have hl : r'.length ≤ r.length := length_skipFill h
        exact (leaves_items (room - arrayRoom) r').map
          (Keeps.cons_of (by decide) (keeps_skipFill h)) fun p => rfl
    · next r _ _ =>
      split_ifs with hroom
      · exact Leaves.error
      have hl := length_skipBlanks r
      have hb := keeps_skipBlanks r
      dsimp only
      split
      · next r' h =>
        rw [h] at hb
        exact Leaves.ok (Keeps.cons_of (by decide) (hb.trans (Keeps.cons (by decide))))
      · exact (leaves_members (room - tableRoom) [] [] (skipBlanks r)).map
          (Keeps.cons_of (by decide) hb) fun p => rfl
    · exact leaves_scalar _
  termination_by (s.length, 0)
  decreasing_by
    all_goals
      apply Prod.Lex.left
      subst_vars
      simp only [List.length_cons]
      omega

theorem leaves_items (room : Nat) (s : List Char) : Leaves (items room s) := by
  rw [items]
  split
  · exact Leaves.error
  next p hp =>
  have hvalue := leaves_value room s p hp
  dsimp only
  split
  · exact Leaves.error
  · next r h2 => exact Leaves.ok (hvalue.trans ((keeps_skipFill h2).trans (Keeps.cons (by decide))))
  · next r h2 =>
    have hcomma : Keeps s (',' :: r) := hvalue.trans (keeps_skipFill h2)
    split
    · exact Leaves.error
    · next r' h3 =>
      obtain ⟨hrest, -⟩ := hcomma.past (by decide) (keeps_skipFill h3)
      exact Leaves.ok (hrest.trans (Keeps.cons (by decide)))
    · next r' hne h3 =>
      obtain ⟨hrest, hlt⟩ := hcomma.past (by decide) (keeps_skipFill h3)
      exact (leaves_items room r').map hrest fun q => rfl
  · exact Leaves.error
  termination_by (s.length, 1)
  decreasing_by
    · exact Prod.Lex.right _ (by omega)
    · exact Prod.Lex.left _ _ hlt

theorem leaves_members (room : Nat) (t : Table) (frozen : List Key) (s : List Char) :
    Leaves (members room t frozen s) := by
  rw [members]
  split
  · exact Leaves.error
  next k hk =>
  have hkey := leaves_key s k hk
  dsimp only
  split
  · next r hr =>
    rw [hr] at hkey
    obtain ⟨hequals, hlt⟩ := hkey.past (by decide) (keeps_skipBlanks r)
    split
    · exact Leaves.error
    next p hp =>
    have hvalue : Keeps s (skipBlanks p.rest) :=
      hequals.trans ((leaves_value room (skipBlanks r) p hp).trans (keeps_skipBlanks p.rest))
    split
    · exact Leaves.error
    split
    · exact Leaves.error
    · exact Leaves.error
    next t' ht =>
    split
    · next r' hr' =>
      rw [hr'] at hvalue
      exact Leaves.ok (hvalue.trans (Keeps.cons (by decide)))
    · next r' hr' =>
      rw [hr'] at hvalue
      obtain ⟨hcomma, hlt'⟩ := hvalue.past (by decide) (keeps_skipBlanks r')
      exact (leaves_members room t' _ (skipBlanks r')).map hcomma fun q => rfl
    · exact Leaves.error
  · exact Leaves.error
  termination_by (s.length, 1)
  decreasing_by
    · exact Prod.Lex.left _ _ hlt
    · exact Prod.Lex.left _ _ hlt'

end

/-! ### Statements -/

theorem leaves_pair (d : Draft) (s : List Char) : Leaves (pair d s) := by
  unfold pair
  split
  · exact Leaves.error
  next k hk =>
  have hkey := leaves_key s k hk
  split
  · next r hr =>
    split
    · exact Leaves.error
    next p hp =>
    split
    · exact Leaves.error
    next d' hd =>
    rw [hr] at hkey
    exact Leaves.ok (hkey.trans (Keeps.cons_of (by decide)
      ((keeps_skipBlanks r).trans (leaves_value wholeRoom (skipBlanks r) p hp))))
  · exact Leaves.error

theorem leaves_tableHeader (d : Draft) (s : List Char) : Leaves (tableHeader d s) := by
  unfold tableHeader
  split
  · exact Leaves.error
  next k hk =>
  have hkey := (keeps_skipBlanks s).trans (leaves_key _ k hk)
  split
  · exact Leaves.error
  split
  · next r hr =>
    rw [hr] at hkey
    exact Leaves.ok (hkey.trans (Keeps.cons (by decide)))
  · exact Leaves.error

theorem leaves_elementHeader (d : Draft) (s : List Char) : Leaves (elementHeader d s) := by
  unfold elementHeader
  split
  · exact Leaves.error
  next k hk =>
  have hkey := (keeps_skipBlanks s).trans (leaves_key _ k hk)
  split
  · exact Leaves.error
  split
  · next r hr =>
    rw [hr] at hkey
    exact Leaves.ok (hkey.trans (Keeps.cons_of (by decide) (Keeps.cons (by decide))))
  · exact Leaves.error

theorem leaves_statement (d : Draft) (s : List Char) : Leaves (statement d s) := by
  unfold statement
  split
  · next r =>
    exact (leaves_elementHeader d.settle r).map
      (Keeps.cons_of (by decide) (Keeps.cons (by decide))) fun p => rfl
  · next r _ => exact (leaves_tableHeader d.settle r).map (Keeps.cons (by decide)) fun p => rfl
  · split_ifs
    · exact leaves_pair d _
    · exact Leaves.error
  · exact Leaves.error

/-- The end of a line is a line feed; the text ends where there is none. -/
theorem keeps_nextLine? {n : Option (Step Unit s)} (h : nextLine? s = .ok n) :
    Keeps s ((n.map Step.rest).getD []) := by
  unfold nextLine? at h
  have hcomment {t : List Char} (ht : skipComment (skipBlanks s) = .ok t) : Keeps s t :=
    (keeps_skipBlanks s).trans (keeps_skipComment ht)
  split at h
  · cases h
  · next ht =>
    obtain rfl := Except.ok.inj h
    exact hcomment ht
  · next c r ht =>
    split_ifs at h with hc
    obtain rfl := Except.ok.inj h
    subst hc
    exact (hcomment ht).trans (Keeps.cons (by decide))

theorem keeps_statements {d d' : Draft} (h : statements d s = .ok d') : Keeps s [] := by
  have hblanks {s r : List Char} (hs : skipBlanks s = r) : Keeps s r := hs ▸ keeps_skipBlanks s
  fun_induction statements d s with
  | case1 d s hs => exact hblanks hs
  | case2 d s c r hs hb hc e he => cases h
  | case3 d s c r hs hb hc hn => exact (hblanks hs).trans (keeps_nextLine? hn)
  | case4 d s c r hs hb hc n hn hlt ih =>
    exact (hblanks hs).trans ((keeps_nextLine? hn).trans (ih h))
  | case5 d s c r hs hb hc e he => cases h
  | case6 d s c r hs hb hc p hp e he => cases h
  | case7 d s c r hs hb hc p hp hn =>
    exact (hblanks hs).trans ((leaves_statement d _ p hp).trans (keeps_nextLine? hn))
  | case8 d s c r hs hb hc p hp n hn hlt ih =>
    exact (hblanks hs).trans
      ((leaves_statement d _ p hp).trans ((keeps_nextLine? hn).trans (ih h)))

/-- **A text that is read to its end holds no carriage return.** -/
theorem not_mem_of_statements {d d' : Draft} (h : statements d s = .ok d') : '\r' ∉ s := by
  obtain ⟨t, rfl, ht⟩ := keeps_statements h
  rwa [List.append_nil]

end Nullary.Toml
