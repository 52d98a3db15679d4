import Mathlib.Tactic.SplitIfs
import Nullary.Log

/-!
# Levels in the tree of loggers

The names above a name are its beginnings up to a dot (`LoggerName.exists_of_mem_ancestors`).  A
beginning up to a dot is among them unless a second dot follows at once
(`LoggerName.mem_ancestors`).  So where a level is set for the logger of this library alone
(`Logging.Governed`), it holds for the loggers below it, and all other loggers have the level at the
top: `Logging.Governed.threshold_below`, `Logging.Governed.threshold_of_not_within`.
-/

namespace Nullary

namespace LoggerName

variable {top name p : String} {s t r : List Char}

/-! ### Names above a name -/

theorem exists_of_mem_ancestorsBackwards (h : t ∈ ancestorsBackwards s) :
    ∃ r, s = r ++ '.' :: t := by
  fun_induction ancestorsBackwards s with
  | case1 => cases h
  | case2 c => cases h
  | case3 c r ih =>
    rcases List.mem_cons.mp h with rfl | h
    · exact ⟨[], rfl⟩
    · obtain ⟨q, hq⟩ := ih h
      exact ⟨'.' :: c :: q, congrArg (fun u => '.' :: c :: u) hq⟩
  | case4 c d r _ ih =>
    obtain ⟨q, hq⟩ := ih h
    exact ⟨c :: q, congrArg (List.cons c) hq⟩

/-- The last dot of several in a row is one that separates. -/
theorem mem_ancestorsBackwards (ht : t ≠ []) (hs : s.getLast? ≠ some '.') :
    t ∈ ancestorsBackwards (s ++ '.' :: t) := by
  obtain ⟨c, u, rfl⟩ := List.exists_cons_of_ne_nil ht
  fun_induction ancestorsBackwards s with
  | case1 => exact List.mem_cons_self
  | case2 d =>
    have hd : d ≠ '.' := fun hd => hs (congrArg some hd)
    rw [List.singleton_append, ancestorsBackwards]
    · exact List.mem_cons_self
    · exact hd
  | case3 d r ih =>
    rw [List.cons_append, List.cons_append, ancestorsBackwards]
    refine List.mem_cons_of_mem _ (ih fun hr => hs ?_)
    rw [List.getLast?_cons, List.getLast?_cons, hr]
    rfl
  | case4 d e r hd ih =>
    rw [List.cons_append, List.cons_append, ancestorsBackwards]
    · exact ih fun hr => hs (by rw [List.getLast?_cons, hr]; rfl)
    · exact hd

theorem mem_ancestors_iff :
    p ∈ ancestors name ↔ p.toList.reverse ∈ ancestorsBackwards name.toList.reverse := by
  rw [ancestors, List.mem_map]
  constructor
  · rintro ⟨cs, hcs, rfl⟩
    rwa [String.toList_ofList, List.reverse_reverse]
  · intro h
    exact ⟨_, h, by rw [List.reverse_reverse, String.ofList_toList]⟩

/-- A name above another is a beginning of it, up to a dot. -/
theorem exists_of_mem_ancestors (h : p ∈ ancestors name) :
    ∃ r, name.toList = p.toList ++ '.' :: r := by
  obtain ⟨r, hr⟩ := exists_of_mem_ancestorsBackwards (mem_ancestors_iff.mp h)
  have hname := congrArg List.reverse hr
  rw [List.reverse_reverse, List.reverse_append, List.reverse_cons, List.reverse_reverse,
    List.append_assoc] at hname
  exact ⟨r.reverse, hname⟩

theorem mem_ancestors (htop : top ≠ "") (h : name.toList = top.toList ++ '.' :: r)
    (hr : r.head? ≠ some '.') : top ∈ ancestors name := by
  rw [mem_ancestors_iff, h, List.reverse_append, List.reverse_cons, List.append_assoc]
  have hne : top.toList.reverse ≠ [] := by
    rwa [Ne, List.reverse_eq_nil_iff, String.toList_eq_nil_iff]
  exact mem_ancestorsBackwards hne (by rwa [List.getLast?_reverse])

/-! ### Names at and below a name -/

/-- Whether a name is another one, or goes on after it and a dot. -/
def Within (top name : String) : Prop :=
  name = top ∨ ∃ r, name.toList = top.toList ++ '.' :: r

/-- Whether a name is another one, or goes on after it and a dot that no second one follows. -/
def Below (top name : String) : Prop :=
  name = top ∨ ∃ r, name.toList = top.toList ++ '.' :: r ∧ r.head? ≠ some '.'

theorem Below.within (h : Below top name) : Within top name := by
  rcases h with h | ⟨r, h, -⟩
  · exact Or.inl h
  · exact Or.inr ⟨r, h⟩

/-- What is below a name that is within another is within this. -/
theorem Within.of_mem_ancestors (h : Within top p) (hp : p ∈ ancestors name) : Within top name := by
  obtain ⟨r, hname⟩ := exists_of_mem_ancestors hp
  rcases h with rfl | ⟨q, hq⟩
  · exact Or.inr ⟨r, hname⟩
  · refine Or.inr ⟨q ++ '.' :: r, ?_⟩
    rw [hname, hq, List.append_assoc, List.cons_append]

/-- The names above one that is below `top` go no further up than to `top`. -/
theorem Below.of_mem_ancestors (hdot : '.' ∉ top.toList) (h : Below top name)
    (hp : p ∈ ancestors name) : Below top p := by
  obtain ⟨q, hname⟩ := exists_of_mem_ancestors hp
  rcases h with rfl | ⟨r, hr, hhead⟩
  · exact absurd (hname ▸ List.mem_append_right _ List.mem_cons_self) hdot
  · rcases List.append_eq_append_iff.mp (hr.symm.trans hname) with ⟨a, hpa, ha⟩ | ⟨a, hta, ha⟩
    · cases a with
      | nil =>
        rw [List.append_nil] at hpa
        exact Or.inl (String.toList_inj.mp hpa)
      | cons c a =>
        obtain ⟨rfl, rfl⟩ := List.cons.inj (ha.trans (List.cons_append))
        refine Or.inr ⟨a, hpa, fun hdotted => hhead ?_⟩
        rw [List.head?_append, hdotted]
        rfl
    · cases a with
      | nil =>
        rw [List.append_nil] at hta
        exact Or.inl (String.toList_inj.mp hta.symm)
      | cons c a =>
        obtain ⟨rfl, -⟩ := List.cons.inj ha
        exact absurd (hta ▸ List.mem_append_right _ List.mem_cons_self) hdot

end LoggerName

namespace Logging

open LoggerName

variable {l : Logging} {level : Level} {name : String}

/-! ### Levels -/

/-- A log in which a level is set for the logger of this library and for no other. -/
structure Governed (l : Logging) (level : Level) : Prop where
  package : l.ownLevel? packageName = some level
  others : ∀ name, name ≠ packageName → l.ownLevel? name = none
  known : packageName ∈ l.known

/-- The search upwards from a logger: what holds of each logger on the way decides on the level that
is found, at a logger that has one or at the top. -/
theorem effectiveLevel_induction {P : String → Prop} {Q : Level → Prop}
    (hown : ∀ name n, P name → l.ownLevel? name = some n → Q n)
    (hup : ∀ name p, P name → l.ownLevel? name = none → l.parent? name = some p → P p)
    (htop : ∀ name, P name → l.ownLevel? name = none → l.parent? name = none → Q l.rootLevel)
    (h : P name) : Q (l.effectiveLevel name) := by
  fun_induction effectiveLevel l name with
  | case1 name n hn => exact hown name n h hn
  | case2 name hn p hp hlt ih => exact ih (hup name p h hn hp)
  | case3 name hn hp => exact htop name h hn hp

theorem mem_ancestors_of_parent? {p : String} (hp : l.parent? name = some p) :
    p ∈ ancestors name :=
  List.mem_of_find?_eq_some hp

/-- A logger without a level and without loggers above it has the level at the top. -/
theorem threshold_of_parent?_eq_none (hown : l.ownLevel? name = none)
    (hparent : l.parent? name = none) : l.threshold name = l.rootLevel := by
  unfold threshold
  split_ifs
  · rfl
  · rw [effectiveLevel, hown]
    dsimp only
    split
    · next p hp => cases hp.symm.trans hparent
    · rfl

namespace Governed

theorem ownLevel?_eq (h : l.Governed level) {n : Level} (hn : l.ownLevel? name = some n) :
    name = packageName ∧ n = level := by
  by_cases hname : name = packageName
  · rw [hname, h.package] at hn
    exact ⟨hname, (Option.some.inj hn).symm⟩
  · rw [h.others name hname] at hn
    cases hn

/-- The search upwards from a name below that of the library stays below it, and ends there. -/
theorem effectiveLevel_below (h : l.Governed level) (hname : Below packageName name) :
    l.effectiveLevel name = level := by
  refine effectiveLevel_induction (P := Below packageName) (Q := fun n => n = level) ?_ ?_ ?_ hname
  · intro name n _ hn
    exact (h.ownLevel?_eq hn).2
  · intro name p hname _ hp
    exact hname.of_mem_ancestors (by decide) (mem_ancestors_of_parent? hp)
  · intro name hname hn hp
    rcases hname with rfl | ⟨r, hr, hhead⟩
    · rw [h.package] at hn
      cases hn
    · have habove : packageName ∈ ancestors name := mem_ancestors (by decide) hr hhead
      have hunknown := List.find?_eq_none.mp hp packageName habove
      exact absurd (List.contains_iff_mem.mpr h.known) hunknown

/-- The search upwards from a name that is not within that of the library does not meet it. -/
theorem effectiveLevel_of_not_within (h : l.Governed level) (hname : ¬ Within packageName name) :
    l.effectiveLevel name = l.rootLevel := by
  refine effectiveLevel_induction (P := fun name => ¬ Within packageName name)
    (Q := fun n => n = l.rootLevel) ?_ ?_ ?_ hname
  · intro name n hname hn
    exact absurd (Or.inl (h.ownLevel?_eq hn).1) hname
  · intro name p hname _ hp hwithin
    exact hname (hwithin.of_mem_ancestors (mem_ancestors_of_parent? hp))
  · exact fun _ _ _ _ => rfl

theorem effectiveLevel_mem (h : l.Governed level) (name : String) :
    l.effectiveLevel name = level ∨ l.effectiveLevel name = l.rootLevel := by
  refine effectiveLevel_induction (P := fun _ => True)
    (Q := fun n => n = level ∨ n = l.rootLevel) ?_ ?_ ?_ trivial
  · exact fun name n _ hn => Or.inl (h.ownLevel?_eq hn).2
  · exact fun _ _ _ _ _ => trivial
  · exact fun _ _ _ _ => Or.inr rfl

theorem not_within_of_isTop (h : isTop name = true) : ¬ Within packageName name := by
  rw [isTop, Bool.or_eq_true, decide_eq_true_iff, decide_eq_true_iff] at h
  rintro (rfl | ⟨r, hr⟩)
  · rcases h with h | h
    · exact absurd h (by decide)
    · exact absurd h (by decide)
  · rcases h with rfl | rfl
    · cases hr
    · cases hr

theorem threshold_below (h : l.Governed level) (hname : Below packageName name) :
    l.threshold name = level := by
  have htop : isTop name = false := by
    rw [← Bool.not_eq_true]
    exact fun htop => not_within_of_isTop htop hname.within
  rw [threshold, htop, if_neg Bool.false_ne_true]
  exact h.effectiveLevel_below hname

theorem threshold_of_not_within (h : l.Governed level) (hname : ¬ Within packageName name) :
    l.threshold name = l.rootLevel := by
  unfold threshold
  split_ifs
  · rfl
  · exact h.effectiveLevel_of_not_within hname

/-- Whatever its name, a logger has one of two levels. -/
theorem threshold_mem (h : l.Governed level) (name : String) :
    l.threshold name = level ∨ l.threshold name = l.rootLevel := by
  unfold threshold
  split_ifs
  · exact Or.inr rfl
  · exact h.effectiveLevel_mem name

end Governed

end Logging

end Nullary
