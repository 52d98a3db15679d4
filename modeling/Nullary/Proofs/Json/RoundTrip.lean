import Nullary.Proofs.Fields
import Nullary.Proofs.Json.Text
import Nullary.Proofs.Number.Layout

/-!
# Documents that are read back

A document without special floats, with no integer of too many digits and no object with two members
of one name is `Json.Readable`.  Its text is read as the document that was written, compact or on a
line, if the reader has levels enough (`readWithin_render`); on a line it holds printable ASCII only
(`Readable.plain`).  Whatever follows a document is left, unless it goes on with a number: this is
what the induction needs, as commas and brackets follow the parts of a document.
-/

namespace Nullary.Json

/-! ### Styles -/

/-- Styles in which documents are read back: after commas and colons there are only blanks, and
floats are told from integers. -/
structure Style.Legible (st : Style) : Prop where
  comma : ∃ blanks, st.comma.toList = ',' :: blanks ∧ ∀ c ∈ blanks, isBlank c = true
  colon : ∃ blanks, st.colon.toList = ':' :: blanks ∧ ∀ c ∈ blanks, isBlank c = true
  numbers : st.numbers.wholeFraction = true

theorem legible_line : line.Legible where
  comma := ⟨[' '], rfl, List.forall_mem_singleton.mpr rfl⟩
  colon := ⟨[' '], rfl, List.forall_mem_singleton.mpr rfl⟩
  numbers := rfl

variable {st : Style}

/-! ### Numbers and words -/

/-- What begins with a digit, or with a sign and a digit, is no word. -/
theorem word?_minus (negative : Bool) {ds : List Char} (h : Decimal.Whole ds) (rest : List Char) :
    word? (Decimal.minus negative ++ (ds ++ rest)) = none := by
  obtain ⟨c, cs, rfl, hc⟩ := h.exists_eq_cons
  have hne : ∀ w : Char, w.isDigit = false → ¬ w = c := by
    rintro w hw rfl
    exact Bool.false_ne_true (hw.symm.trans hc)
  -- the words begin with these letters, and one of them has its letter after a sign
  have hwords : ¬ 'n' = c ∧ ¬ 't' = c ∧ ¬ 'f' = c ∧ ¬ 'N' = c ∧ ¬ 'I' = c ∧ ¬ '-' = c :=
    ⟨hne _ rfl, hne _ rfl, hne _ rfl, hne _ rfl, hne _ rfl, hne _ rfl⟩
  cases negative with
  | true => simp [Decimal.minus, word?, words, Step.afterWord?, hwords]
  | false => simp [Decimal.minus, word?, words, Step.afterWord?, hwords]

theorem number?_signed {n : Int} (h : Digits.withinLimit n = true) {rest : List Char}
    (hr : Decimal.Ends rest) : number? (Digits.signed n ++ rest) = some (.int n, rest) := by
  have hlimit : (Digits.decimal n.natAbs).length ≤ Digits.limit := of_decide_eq_true h
  simp [number?, Decimal.scan?_signed n hr, Decimal.isInteger, hlimit, Decimal.toInt_signed]

/-- The characters that a number can begin with. -/
def Leads (c : Char) : Prop :=
  (c == '-' || c.isDigit) = true

theorem Leads.ne {c : Char} (h : Leads c) (w : Char) (hw : (w == '-' || w.isDigit) = false) :
    c ≠ w := by
  rintro rfl
  exact Bool.false_ne_true (hw.symm.trans h)

theorem Leads.isBlank {c : Char} (h : Leads c) : isBlank c = false := by
  simp [Json.isBlank, h.ne ' ' rfl, h.ne '\t' rfl, h.ne '\n' rfl, h.ne '\r' rfl]

/-- The text of a number: it begins with a sign or a digit, and it is read as the number where
nothing goes on with it. -/
structure NumberText (cs : List Char) (j : Json) : Prop where
  leads : ∃ c r, cs = c :: r ∧ Leads c
  read : ∀ {rest}, Decimal.Ends rest →
    word? (cs ++ rest) = none ∧ number? (cs ++ rest) = some (j, rest)

theorem exists_minus_eq_cons (negative : Bool) {ds : List Char} (h : Decimal.Whole ds)
    (cs : List Char) : ∃ c r, Decimal.minus negative ++ (ds ++ cs) = c :: r ∧ Leads c := by
  obtain ⟨c, r, rfl, hc⟩ := h.exists_eq_cons
  cases negative with
  | true => exact ⟨_, _, rfl, rfl⟩
  | false => exact ⟨c, r ++ cs, rfl, Bool.or_eq_true_iff.mpr (Or.inr hc)⟩

theorem exists_signed_eq_cons (n : Int) : ∃ c r, Digits.signed n = c :: r ∧ Leads c := by
  rw [Decimal.signed_eq, ← List.append_nil (Digits.decimal _)]
  exact exists_minus_eq_cons _ (Decimal.whole_decimal _) []

theorem word?_signed (n : Int) (rest : List Char) : word? (Digits.signed n ++ rest) = none := by
  rw [Decimal.signed_eq, List.append_assoc]
  exact word?_minus _ (Decimal.whole_decimal _) rest

theorem numberText_signed {n : Int} (h : Digits.withinLimit n = true) :
    NumberText (Digits.signed n) (.int n) :=
  ⟨exists_signed_eq_cons n, fun hr => ⟨word?_signed n _, number?_signed h hr⟩⟩

theorem numberText_render {l : Layout} (hl : l.wholeFraction = true) {x : Double}
    (hx : x.isFinite = true) : NumberText (l.render x).toList (.float x) := by
  cases x with
  | nan => cases hx
  | infinity negative => cases hx
  | finite negative b =>
    obtain ⟨ds, cs, hwhole, htext⟩ := Layout.exists_render_eq hl negative b
    refine ⟨htext ▸ exists_minus_eq_cons negative hwhole cs, fun {rest} hr => ⟨?_, ?_⟩⟩
    · rw [htext, List.append_assoc, List.append_assoc]
      exact word?_minus _ hwhole _
    · obtain ⟨d, hscan, hinteger, hdouble⟩ := Layout.exists_scan?_render hl negative b hr
      simp [number?, hscan, hinteger, hdouble]

/-! ### Documents -/

/-- Documents without special floats and integers of too many digits, in which no object has two
members of one name. -/
inductive Readable : Json → Prop
  | null : Readable null
  | bool (b : Bool) : Readable (bool b)
  | int {n : Int} (h : Digits.withinLimit n = true) : Readable (int n)
  | float {x : Double} (h : x.isFinite = true) : Readable (float x)
  | text (s : String) : Readable (text s)
  | array {xs : List Json} (h : ∀ x ∈ xs, Readable x) : Readable (array xs)
  | object {es : List (String × Json)} (hn : (Fields.keys es).Nodup)
      (h : ∀ e ∈ es, Readable e.2) : Readable (object es)

mutual

/-- How many arrays and objects stand one in another. -/
def depth : Json → Nat
  | array xs => itemsDepth xs + 1
  | object es => membersDepth es + 1
  | _ => 0

/-- The depth of the deepest element. -/
def itemsDepth : List Json → Nat
  | [] => 0
  | x :: xs => max (depth x) (itemsDepth xs)

/-- The depth of the deepest member. -/
def membersDepth : List (String × Json) → Nat
  | [] => 0
  | (_, v) :: es => max (depth v) (membersDepth es)

end

/-- Where a document begins there is neither a blank nor a closing bracket. -/
def Begins (st : Style) (j : Json) : Prop :=
  ∃ c r, chars st j = c :: r ∧ isBlank c = false ∧ c ≠ ']'

theorem begins_of_leads {j : Json} (h : ∃ c r, chars st j = c :: r ∧ Leads c) : Begins st j := by
  obtain ⟨c, r, hcons, hc⟩ := h
  exact ⟨c, r, hcons, hc.isBlank, hc.ne ']' rfl⟩

theorem Readable.begins (hst : st.Legible) {j : Json} (h : Readable j) : Begins st j := by
  cases h with
  | null => exact ⟨'n', _, rfl, rfl, by decide⟩
  | bool b =>
    cases b with
    | true => exact ⟨'t', _, rfl, rfl, by decide⟩
    | false => exact ⟨'f', _, rfl, rfl, by decide⟩
  | int h => exact begins_of_leads (exists_signed_eq_cons _)
  | float h => exact begins_of_leads (numberText_render hst.numbers h).leads
  | text s => exact ⟨'\x22', _, rfl, rfl, by decide⟩
  | array h => exact ⟨'[', _, rfl, rfl, by decide⟩
  | object hn h => exact ⟨'\x7b', _, rfl, rfl, by decide⟩

theorem skipBlanks_cons {c : Char} (h : isBlank c = false) (r : List Char) :
    skipBlanks (c :: r) = c :: r := by
  simp [skipBlanks, h]

theorem skipBlanks_append {cs : List Char} (h : ∀ c ∈ cs, isBlank c = true) (r : List Char) :
    skipBlanks (cs ++ r) = skipBlanks r :=
  List.dropWhile_append_of_pos h

theorem skipBlanks_chars {j : Json} (h : Begins st j) (rest : List Char) :
    skipBlanks (chars st j ++ rest) = chars st j ++ rest := by
  obtain ⟨c, r, hcons, hc, -⟩ := h
  rw [hcons]
  exact skipBlanks_cons hc _

/-- A document is read from its text, whatever follows that does not continue it. -/
def ReadBack (st : Style) (levels : Nat) (j : Json) : Prop :=
  ∀ rest, Decimal.Ends rest → (value levels (chars st j ++ rest)).map Step.pair = .ok (j, rest)

variable {levels : Nat}

theorem readBack_scalar {j : Json} {c : Char} {cs : List Char} (hj : chars st j = c :: cs)
    (hc : c ≠ '\x22' ∧ c ≠ '[' ∧ c ≠ '\x7b')
    (h : ∀ rest, Decimal.Ends rest →
      (word? (c :: cs ++ rest)).or (number? (c :: cs ++ rest)) = some (j, rest)) :
    ReadBack st levels j := by
  intro rest hr
  rw [hj]
  exact value_scalar hc (h rest hr) (by simp)

theorem readBack_number {j : Json} (h : NumberText (chars st j) j) : ReadBack st levels j := by
  obtain ⟨c, r, hcons, hc⟩ := h.leads
  refine readBack_scalar hcons ⟨hc.ne _ rfl, hc.ne _ rfl, hc.ne _ rfl⟩ fun rest hr => ?_
  obtain ⟨hword, hnumber⟩ := h.read hr
  rw [← hcons, hword, hnumber, Option.none_or]

theorem textChars_append (ascii : Bool) (s : String) (rest : List Char) :
    textChars ascii s ++ rest = '\x22' :: (s.toList.flatMap (escape ascii) ++ '\x22' :: rest) := by
  simp [textChars]

theorem readBack_text (s : String) : ReadBack st levels (.text s) := by
  intro rest hr
  rw [chars, textChars_append, value_text (textBody?_flatMap_escape st.ascii s.toList rest),
    String.ofList_toList]

/-! ### Arrays -/

theorem itemChars_more (st : Style) (x y : Json) (ys : List Json) :
    itemChars st (x :: y :: ys) = chars st x ++ (st.comma.toList ++ itemChars st (y :: ys)) := by
  rw [itemChars, List.append_assoc]
  exact fun h => nomatch h

theorem exists_itemChars_eq_cons {x : Json} (h : Begins st x) (xs : List Json) :
    ∃ c r, itemChars st (x :: xs) = c :: r ∧ isBlank c = false ∧ c ≠ ']' := by
  obtain ⟨c, r, hcons, hc⟩ := h
  cases xs with
  | nil => exact ⟨c, r, hcons, hc⟩
  | cons y ys => exact ⟨c, _, by rw [itemChars_more, hcons, List.cons_append], hc⟩

theorem items_itemChars (hst : st.Legible) {xs : List Json} (hx : ∀ x ∈ xs, Begins st x)
    (h : ∀ x ∈ xs, ReadBack st levels x) (hne : xs ≠ []) (rest : List Char) :
    (items levels (itemChars st xs ++ ']' :: rest)).map Step.pair = .ok (xs, rest) := by
  induction xs with
  | nil => exact absurd rfl hne
  | cons x xs ih =>
    have hread := h x List.mem_cons_self
    cases xs with
    | nil => exact items_last (hread _ (Decimal.ends_cons (by decide) rest)) rfl
    | cons y ys =>
      have htail := ih (fun x hx' => hx x (List.mem_cons_of_mem _ hx'))
        (fun x hx' => h x (List.mem_cons_of_mem _ hx')) (List.cons_ne_nil _ _)
      obtain ⟨c, r, hcons, hc, -⟩ := exists_itemChars_eq_cons (hx y (by simp)) ys
      obtain ⟨blanks, hcomma, hblanks⟩ := hst.comma
      rw [itemChars_more, hcomma, List.append_assoc, List.cons_append, List.cons_append,
        List.append_assoc]
      -- after the comma stand only blanks, and no element begins with one
      refine items_more (hread _ (Decimal.ends_cons (by decide) _)) rfl ?_
      rw [skipBlanks_append hblanks, hcons, List.cons_append, skipBlanks_cons hc,
        ← List.cons_append, ← hcons, htail]

theorem readBack_array (hst : st.Legible) {xs : List Json} (hl : levels ≠ 0)
    (hx : ∀ x ∈ xs, Begins st x) (h : ∀ x ∈ xs, ReadBack st (levels - 1) x) :
    ReadBack st levels (.array xs) := by
  intro rest hr
  rw [chars, List.cons_append, List.append_assoc]
  cases xs with
  | nil => exact value_array_nil hl rfl
  | cons x xs =>
    obtain ⟨c, r, hcons, hc, hclose⟩ := exists_itemChars_eq_cons (hx x List.mem_cons_self) xs
    have hskip : skipBlanks (itemChars st (x :: xs) ++ ']' :: rest) =
        itemChars st (x :: xs) ++ ']' :: rest := by
      rw [hcons, List.cons_append, skipBlanks_cons hc]
    refine value_array hl (fun r' hr' => ?_) ?_
    · rw [List.singleton_append, hskip, hcons] at hr'
      exact hclose (List.cons.inj hr').1
    · rw [List.singleton_append, hskip, items_itemChars hst hx h (List.cons_ne_nil _ _)]

/-! ### Objects -/

theorem memberChars_last (st : Style) (k : String) (v : Json) (rest : List Char) :
    memberChars st [(k, v)] ++ rest =
      '\x22' :: (k.toList.flatMap (escape st.ascii) ++
        '\x22' :: (st.colon.toList ++ (chars st v ++ rest))) := by
  simp [memberChars, textChars]

theorem memberChars_more (st : Style) (k : String) (v : Json) (e : String × Json)
    (es : List (String × Json)) (rest : List Char) :
    memberChars st ((k, v) :: e :: es) ++ rest =
      '\x22' :: (k.toList.flatMap (escape st.ascii) ++ '\x22' :: (st.colon.toList ++
        (chars st v ++ (st.comma.toList ++ (memberChars st (e :: es) ++ rest))))) := by
  rw [memberChars]
  · simp [textChars]
  · exact fun h => nomatch h

theorem exists_memberChars_eq_cons (st : Style) (e : String × Json) (es : List (String × Json)) :
    ∃ r, memberChars st (e :: es) = '\x22' :: r := by
  obtain ⟨k, v⟩ := e
  cases es with
  | nil => exact ⟨_, (List.append_nil _).symm.trans (memberChars_last st k v [])⟩
  | cons e es => exact ⟨_, (List.append_nil _).symm.trans (memberChars_more st k v e es [])⟩

theorem members_memberChars (hst : st.Legible) {es : List (String × Json)}
    (hx : ∀ e ∈ es, Begins st e.2) (h : ∀ e ∈ es, ReadBack st levels e.2) (hne : es ≠ [])
    (rest : List Char) :
    (members levels (memberChars st es ++ '\x7d' :: rest)).map Step.pair = .ok (es, rest) := by
  obtain ⟨colonBlanks, hcolon, hcolonBlanks⟩ := hst.colon
  obtain ⟨commaBlanks, hcomma, hcommaBlanks⟩ := hst.comma
  induction es with
  | nil => exact absurd rfl hne
  | cons e es ih =>
    obtain ⟨k, v⟩ := e
    have hread := h (k, v) List.mem_cons_self
    have hname := textBody?_flatMap_escape st.ascii k.toList
    have hskip : ∀ rest, skipBlanks (colonBlanks ++ (chars st v ++ rest)) = chars st v ++ rest :=
      fun rest => (skipBlanks_append hcolonBlanks _).trans
        (skipBlanks_chars (hx _ List.mem_cons_self) rest)
    cases es with
    | nil =>
      have hvalue := hread _ (Decimal.ends_cons (c := '\x7d') (by decide) rest)
      rw [← hskip] at hvalue
      rw [memberChars_last, hcolon, List.cons_append, members_last (hname _) rfl hvalue rfl,
        String.ofList_toList]
    | cons e es =>
      have htail := ih (fun e he => hx e (List.mem_cons_of_mem _ he))
        (fun e he => h e (List.mem_cons_of_mem _ he)) (List.cons_ne_nil _ _)
      obtain ⟨r, hcons⟩ := exists_memberChars_eq_cons st e es
      have hvalue := hread _ (Decimal.ends_cons (c := ',') (by decide)
        (commaBlanks ++ (memberChars st (e :: es) ++ '\x7d' :: rest)))
      rw [← hskip] at hvalue
      have hmore : skipBlanks (commaBlanks ++ (memberChars st (e :: es) ++ '\x7d' :: rest)) =
          memberChars st (e :: es) ++ '\x7d' :: rest := by
        rw [skipBlanks_append hcommaBlanks, hcons, List.cons_append, skipBlanks_cons rfl]
      rw [← hmore] at htail
      rw [memberChars_more, hcolon, hcomma, List.cons_append, List.cons_append,
        members_more (hname _) rfl hvalue rfl htail, String.ofList_toList]

theorem readBack_object (hst : st.Legible) {es : List (String × Json)} (hl : levels ≠ 0)
    (hn : (Fields.keys es).Nodup) (hx : ∀ e ∈ es, Begins st e.2)
    (h : ∀ e ∈ es, ReadBack st (levels - 1) e.2) : ReadBack st levels (.object es) := by
  intro rest hr
  rw [chars, List.cons_append, List.append_assoc]
  cases es with
  | nil => exact value_object_nil hl rfl
  | cons e es =>
    obtain ⟨r, hcons⟩ := exists_memberChars_eq_cons st e es
    have hskip : skipBlanks (memberChars st (e :: es) ++ '\x7d' :: rest) =
        memberChars st (e :: es) ++ '\x7d' :: rest := by
      rw [hcons]
      rfl
    have hread := members_memberChars hst hx h (List.cons_ne_nil _ _) rest
    rw [← hskip] at hread
    refine (value_object hl (fun r' hr' => ?_) hread).trans ?_
    · rw [hskip, hcons] at hr'
      exact absurd (List.cons.inj hr').1 (by decide)
    · rw [Fields.ofList_of_nodup hn]

/-! ### Whole documents -/

theorem depth_le_itemsDepth {x : Json} {xs : List Json} (h : x ∈ xs) : depth x ≤ itemsDepth xs := by
  induction xs with
  | nil => cases h
  | cons y ys ih =>
    rw [itemsDepth]
    cases h with
    | head => exact Nat.le_max_left _ _
    | tail _ h => exact (ih h).trans (Nat.le_max_right _ _)

theorem depth_le_membersDepth {e : String × Json} {es : List (String × Json)} (h : e ∈ es) :
    depth e.2 ≤ membersDepth es := by
  induction es with
  | nil => cases h
  | cons f fs ih =>
    rw [membersDepth]
    cases h with
    | head => exact Nat.le_max_left _ _
    | tail _ h => exact (ih h).trans (Nat.le_max_right _ _)

/-- Documents are read back where there are levels enough for them. -/
theorem Readable.readBack (hst : st.Legible) {j : Json} (h : Readable j) {levels : Nat}
    (hl : depth j ≤ levels) : ReadBack st levels j := by
  induction h generalizing levels with
  | null => exact readBack_scalar rfl (by decide) fun _ _ => rfl
  | bool b =>
    cases b with
    | true => exact readBack_scalar rfl (by decide) fun _ _ => rfl
    | false => exact readBack_scalar rfl (by decide) fun _ _ => rfl
  | int h => exact readBack_number (numberText_signed h)
  | float h => exact readBack_number (numberText_render hst.numbers h)
  | text s => exact readBack_text s
  | array h ih =>
    -- each level of the document costs the reader one of its levels
    rw [depth] at hl
    refine readBack_array hst (by omega) (fun x hx => (h x hx).begins hst) fun x hx => ih x hx ?_
    have hdepth := depth_le_itemsDepth hx
    omega
  | object hn h ih =>
    rw [depth] at hl
    refine readBack_object hst (by omega) hn (fun e he => (h e he).begins hst)
      fun e he => ih e he ?_
    have hdepth := depth_le_membersDepth he
    omega

/-- **Round trip.**  The text of a document is read as this document. -/
theorem readWithin_render (hst : st.Legible) {j : Json} (h : Readable j) {levels : Nat}
    (hl : depth j ≤ levels) : readWithin levels (j.render st) = .ok j := by
  have hread := h.readBack hst hl [] (fun _ h => nomatch h)
  have hskip := skipBlanks_chars (h.begins hst) []
  rw [← hskip, List.append_nil] at hread
  exact readWithin_eq_ok (by rwa [render, String.toList_ofList]) rfl

/-! ### The characters of a line -/

theorem plain_of_isDigit {c : Char} (h : c.isDigit = true) : 0x20 ≤ c.toNat ∧ c.toNat < 0x7f := by
  simp only [Char.isDigit, UInt32.le_iff_toNat_le, ge_iff_le, Bool.and_eq_true,
    decide_eq_true_eq] at h
  exact ⟨Nat.le_trans (by decide) h.1, Nat.lt_of_le_of_lt h.2 (by decide)⟩

theorem plain_signed (n : Int) : Plain (Digits.signed n) := by
  have hdecimal : Plain (Digits.decimal n.natAbs) := fun c hc =>
    plain_of_isDigit (Digits.isDigit_of_mem_decimal hc)
  unfold Digits.signed
  split_ifs
  · exact plain_cons.mpr ⟨by decide, hdecimal⟩
  · exact hdecimal

theorem plain_render {l : Layout} (hl : l.wholeFraction = true) {x : Double}
    (hx : x.isFinite = true) : Plain (l.render x).toList := by
  cases x with
  | nan => cases hx
  | infinity negative => cases hx
  | finite negative b =>
    intro c hc
    obtain hdigit | hmark := Layout.mem_render hl hc
    · exact plain_of_isDigit hdigit
    · simp only [List.mem_cons, List.not_mem_nil, or_false] at hmark
      rcases hmark with rfl | rfl | rfl | rfl <;> decide

theorem plain_comma : Plain line.comma.toList := plain_of_all rfl

theorem plain_colon : Plain line.colon.toList := plain_of_all rfl

theorem plain_itemChars {xs : List Json} (h : ∀ x ∈ xs, Plain (chars line x)) :
    Plain (itemChars line xs) := by
  induction xs with
  | nil => exact plain_nil
  | cons x xs ih =>
    have hx := h x List.mem_cons_self
    cases xs with
    | nil => exact hx
    | cons y ys =>
      rw [itemChars]
      · exact plain_append.mpr ⟨plain_append.mpr ⟨hx, plain_comma⟩,
          ih fun x hx => h x (List.mem_cons_of_mem _ hx)⟩
      · exact fun h => nomatch h

theorem plain_memberChars {es : List (String × Json)} (h : ∀ e ∈ es, Plain (chars line e.2)) :
    Plain (memberChars line es) := by
  induction es with
  | nil => exact plain_nil
  | cons e es ih =>
    obtain ⟨k, v⟩ := e
    have hmember : Plain (textChars true k ++ line.colon.toList ++ chars line v) :=
      plain_append.mpr ⟨plain_append.mpr ⟨plain_textChars k, plain_colon⟩,
        h (k, v) List.mem_cons_self⟩
    cases es with
    | nil => exact hmember
    | cons e es =>
      rw [memberChars]
      · exact plain_append.mpr ⟨plain_append.mpr ⟨hmember, plain_comma⟩,
          ih fun e he => h e (List.mem_cons_of_mem _ he)⟩
      · exact fun h => nomatch h

theorem Readable.plain {j : Json} (h : Readable j) : Plain (chars line j) := by
  induction h with
  | null => exact plain_of_all rfl
  | bool b =>
    cases b with
    | true => exact plain_of_all rfl
    | false => exact plain_of_all rfl
  | int h => exact plain_signed _
  | float h => exact plain_render rfl h
  | text s => exact plain_textChars s
  | array h ih =>
    exact plain_cons.mpr ⟨by decide, plain_append.mpr
      ⟨plain_itemChars ih, plain_cons.mpr ⟨by decide, plain_nil⟩⟩⟩
  | object hn h ih =>
    exact plain_cons.mpr ⟨by decide, plain_append.mpr
      ⟨plain_memberChars ih, plain_cons.mpr ⟨by decide, plain_nil⟩⟩⟩

end Nullary.Json
