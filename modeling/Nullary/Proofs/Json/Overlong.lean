import Nullary.Proofs.Json.RoundTrip

/-!
# Documents that are written and not read

An integer of too many digits is written like any other, but it is refused where it is read.  A
document in which the reader comes to such an integer is `Json.Overlong`; no text of it is read
(`readWithin_overlong`).
-/

namespace Nullary.Json

/-- Documents in which an integer of too many digits stands behind what is readable. -/
inductive Overlong : Json → Prop
  | int {n : Int} (h : Digits.withinLimit n = false) : Overlong (int n)
  | array (before : List Json) {x : Json} (after : List Json) (hb : ∀ y ∈ before, Readable y)
      (h : Overlong x) : Overlong (array (before ++ x :: after))
  | object (before : List (String × Json)) {k : String} {v : Json}
      (after : List (String × Json)) (hb : ∀ e ∈ before, Readable e.2) (h : Overlong v) :
      Overlong (object (before ++ (k, v) :: after))

variable {st : Style} {levels : Nat}

theorem Overlong.begins (st : Style) {j : Json} (h : Overlong j) : Begins st j := by
  cases h with
  | int h => exact begins_of_leads (exists_signed_eq_cons _)
  | array before after hb h => exact ⟨'[', _, rfl, rfl, by decide⟩
  | object before after hb h => exact ⟨'\x7b', _, rfl, rfl, by decide⟩

/-- A document is not read from its text, whatever follows that does not continue it. -/
def Refused (st : Style) (levels : Nat) (j : Json) : Prop :=
  ∀ rest, Decimal.Ends rest → value levels (chars st j ++ rest) = .error .malformed

theorem refused_int {n : Int} (h : Digits.withinLimit n = false) : Refused st levels (.int n) := by
  intro rest hr
  obtain ⟨c, r, hcons, hc⟩ := exists_signed_eq_cons n
  have hlimit : ¬ (Digits.decimal n.natAbs).length ≤ Digits.limit := of_decide_eq_false h
  have hnumber : number? (Digits.signed n ++ rest) = none := by
    simp [number?, Decimal.scan?_signed n hr, Decimal.isInteger, hlimit]
  have hword := word?_signed n rest
  rw [chars]
  rw [hcons, List.cons_append] at hnumber hword ⊢
  exact value_scalar_error ⟨hc.ne _ rfl, hc.ne _ rfl, hc.ne _ rfl⟩ (by rw [hword, hnumber]; rfl)

/-! ### Arrays -/

/-- What follows the first element of an array does not continue it. -/
theorem exists_itemChars_append (hst : st.Legible) (x : Json) (xs : List Json) (rest : List Char) :
    ∃ r, itemChars st (x :: xs) ++ ']' :: rest = chars st x ++ r ∧ Decimal.Ends r := by
  cases xs with
  | nil => exact ⟨_, rfl, Decimal.ends_cons (by decide) rest⟩
  | cons y ys =>
    obtain ⟨blanks, hcomma, -⟩ := hst.comma
    rw [itemChars_more, hcomma, List.append_assoc, List.cons_append, List.cons_append]
    exact ⟨_, rfl, Decimal.ends_cons (by decide) _⟩

theorem items_refused (hst : st.Legible) {before : List Json} {x : Json} (after : List Json)
    (hb : ∀ y ∈ before, Begins st y ∧ ReadBack st levels y) (hx : Begins st x)
    (h : Refused st levels x) (rest : List Char) :
    items levels (itemChars st (before ++ x :: after) ++ ']' :: rest) = .error .malformed := by
  induction before with
  | nil =>
    obtain ⟨r, htext, hr⟩ := exists_itemChars_append hst x after rest
    rw [List.nil_append, htext]
    exact items_error (h r hr)
  | cons b before ih =>
    have htail := ih fun y hy => hb y (List.mem_cons_of_mem _ hy)
    obtain ⟨y, ys, hcons, hy⟩ : ∃ y ys, before ++ x :: after = y :: ys ∧ Begins st y := by
      cases before with
      | nil => exact ⟨x, after, rfl, hx⟩
      | cons y ys => exact ⟨y, _, rfl, (hb y (by simp)).1⟩
    obtain ⟨c, r, hfirst, hc, -⟩ := exists_itemChars_eq_cons hy ys
    obtain ⟨blanks, hcomma, hblanks⟩ := hst.comma
    rw [hcons] at htail
    rw [List.cons_append, hcons, itemChars_more, hcomma, List.append_assoc, List.cons_append,
      List.cons_append, List.append_assoc]
    refine items_more_error ((hb b List.mem_cons_self).2 _ (Decimal.ends_cons (by decide) _)) rfl ?_
    rw [skipBlanks_append hblanks, hfirst, List.cons_append, skipBlanks_cons hc,
      ← List.cons_append, ← hfirst, htail]

theorem refused_array (hst : st.Legible) (hl : levels ≠ 0) {before after : List Json} {x : Json}
    (hb : ∀ y ∈ before, Begins st y ∧ ReadBack st (levels - 1) y) (hx : Begins st x)
    (h : Refused st (levels - 1) x) : Refused st levels (.array (before ++ x :: after)) := by
  intro rest hr
  obtain ⟨c, r, hcons, hc, hclose⟩ :
      ∃ c r, itemChars st (before ++ x :: after) = c :: r ∧ isBlank c = false ∧ c ≠ ']' := by
    cases before with
    | nil => exact exists_itemChars_eq_cons hx after
    | cons b bs => exact exists_itemChars_eq_cons (hb b List.mem_cons_self).1 _
  have hitems := items_refused hst after hb hx h rest
  rw [chars, List.cons_append, List.append_assoc, List.singleton_append]
  rw [hcons] at hitems ⊢
  have hskip : skipBlanks (c :: r ++ ']' :: rest) = c :: r ++ ']' :: rest := skipBlanks_cons hc _
  refine value_array_error hl (fun r' hr' => ?_) (by rwa [hskip])
  exact hclose (List.cons.inj (hskip.symm.trans hr')).1

/-! ### Objects -/

/-- The first member of an object, up to its value, and what follows this. -/
theorem exists_memberChars_append (hst : st.Legible) (k : String) (v : Json)
    (es : List (String × Json)) (rest : List Char) :
    ∃ r, memberChars st ((k, v) :: es) ++ '\x7d' :: rest =
      '\x22' :: (k.toList.flatMap (escape st.ascii) ++
        '\x22' :: (st.colon.toList ++ (chars st v ++ r))) ∧ Decimal.Ends r := by
  cases es with
  | nil => exact ⟨_, memberChars_last st k v _, Decimal.ends_cons (by decide) rest⟩
  | cons e es =>
    obtain ⟨blanks, hcomma, -⟩ := hst.comma
    refine ⟨_, memberChars_more st k v e es _, ?_⟩
    rw [hcomma, List.cons_append]
    exact Decimal.ends_cons (by decide) _

theorem members_refused (hst : st.Legible) {before : List (String × Json)} (k : String) {v : Json}
    (after : List (String × Json)) (hb : ∀ e ∈ before, Begins st e.2 ∧ ReadBack st levels e.2)
    (hv : Begins st v) (h : Refused st levels v) (rest : List Char) :
    members levels (memberChars st (before ++ (k, v) :: after) ++ '\x7d' :: rest) =
      .error .malformed := by
  obtain ⟨colonBlanks, hcolon, hcolonBlanks⟩ := hst.colon
  obtain ⟨commaBlanks, hcomma, hcommaBlanks⟩ := hst.comma
  have hskip : ∀ {v}, Begins st v → ∀ rest,
      skipBlanks (colonBlanks ++ (chars st v ++ rest)) = chars st v ++ rest :=
    fun hv rest => (skipBlanks_append hcolonBlanks _).trans (skipBlanks_chars hv rest)
  induction before with
  | nil =>
    obtain ⟨r, htext, hr⟩ := exists_memberChars_append hst k v after rest
    have hvalue := h r hr
    rw [← hskip hv] at hvalue
    rw [List.nil_append, htext, hcolon, List.cons_append]
    exact members_error (textBody?_flatMap_escape st.ascii k.toList _) rfl hvalue
  | cons b before ih =>
    obtain ⟨k', v'⟩ := b
    obtain ⟨hbegins, hread⟩ := hb (k', v') List.mem_cons_self
    have htail := ih fun e he => hb e (List.mem_cons_of_mem _ he)
    obtain ⟨e, es, hcons⟩ := List.exists_cons_of_ne_nil (l := before ++ (k, v) :: after) (by simp)
    rw [hcons] at htail
    obtain ⟨r, hfirst⟩ := exists_memberChars_eq_cons st e es
    have hvalue := hread _ (Decimal.ends_cons (c := ',') (by decide)
      (commaBlanks ++ (memberChars st (e :: es) ++ '\x7d' :: rest)))
    rw [← hskip hbegins] at hvalue
    have hmore : skipBlanks (commaBlanks ++ (memberChars st (e :: es) ++ '\x7d' :: rest)) =
        memberChars st (e :: es) ++ '\x7d' :: rest := by
      rw [skipBlanks_append hcommaBlanks, hfirst, List.cons_append, skipBlanks_cons rfl]
    rw [← hmore] at htail
    rw [List.cons_append, hcons, memberChars_more, hcolon, hcomma, List.cons_append,
      List.cons_append]
    exact members_more_error (textBody?_flatMap_escape st.ascii k'.toList _) rfl hvalue rfl htail

theorem refused_object (hst : st.Legible) (hl : levels ≠ 0) {before after : List (String × Json)}
    {k : String} {v : Json}
    (hb : ∀ e ∈ before, Begins st e.2 ∧ ReadBack st (levels - 1) e.2) (hv : Begins st v)
    (h : Refused st (levels - 1) v) :
    Refused st levels (.object (before ++ (k, v) :: after)) := by
  intro rest hr
  have hmembers := members_refused hst k after hb hv h rest
  obtain ⟨e, es, hcons⟩ := List.exists_cons_of_ne_nil (l := before ++ (k, v) :: after) (by simp)
  obtain ⟨r, hfirst⟩ := exists_memberChars_eq_cons st e es
  rw [chars, List.cons_append, List.append_assoc, List.singleton_append]
  rw [hcons, hfirst] at hmembers ⊢
  have hskip : skipBlanks ('\x22' :: r ++ '\x7d' :: rest) = '\x22' :: r ++ '\x7d' :: rest := rfl
  refine value_object_error hl (fun r' hr' => ?_) (by rwa [hskip])
  exact absurd (List.cons.inj (hskip.symm.trans hr')).1 (by decide)

/-! ### Whole documents -/

theorem Overlong.refused (hst : st.Legible) {j : Json} (h : Overlong j) {levels : Nat}
    (hl : depth j ≤ levels) : Refused st levels j := by
  induction h generalizing levels with
  | int h => exact refused_int h
  | @array before x after hb h ih =>
    rw [depth] at hl
    have hdepth : ∀ y ∈ before ++ x :: after, depth y ≤ levels - 1 := fun y hy => by
      have hle := depth_le_itemsDepth hy
      omega
    exact refused_array hst (by omega)
      (fun y hy => ⟨(hb y hy).begins hst,
        (hb y hy).readBack hst (hdepth y (List.mem_append_left _ hy))⟩)
      (h.begins st) (ih (hdepth x (by simp)))
  | @object before k v after hb h ih =>
    rw [depth] at hl
    have hdepth : ∀ e ∈ before ++ (k, v) :: after, depth e.2 ≤ levels - 1 := fun e he => by
      have hle := depth_le_membersDepth he
      omega
    exact refused_object hst (by omega)
      (fun e he => ⟨(hb e he).begins hst,
        (hb e he).readBack hst (hdepth e (List.mem_append_left _ he))⟩)
      (h.begins st) (ih (hdepth (k, v) (by simp)))

end Nullary.Json
