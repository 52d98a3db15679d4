import Nullary.Proofs.Codec.Envelopes

/-!
# Value objects among other values

Over every run of steps that make values (`Heap.run`), value objects are equal to each other, to
nothing else, and are the same object only in the same slot.  So a set keeps one of them beside what
it keeps of the other values, although a whole number has the hash of a value object and a set looks
at hashes first (`Heap.hashed`).  Main statement: `Heap.value_object_laws`.
-/

namespace Nullary

namespace Value

variable {v w : Value}

/-! ### Comparing with a value object -/

theorem same_of_isBlank_left (h : v.isBlank = true) : same v w = w.isBlank := by
  obtain ⟨derived, rfl⟩ := Codec.isBlank_iff.mp h
  cases w <;> simp [same, sameNumber, wholeNumber?, isBlank]

theorem same_of_isBlank_right (h : w.isBlank = true) : same v w = v.isBlank := by
  obtain ⟨derived, rfl⟩ := Codec.isBlank_iff.mp h
  cases v <;> simp [same, sameNumber, wholeNumber?, isBlank]

/-- Where just one of two values is a value object, it is the first or the second. -/
theorem isBlank_of_ne (h : v.isBlank ≠ w.isBlank) :
    v.isBlank = true ∧ w.isBlank = false ∨ v.isBlank = false ∧ w.isBlank = true := by
  by_cases hv : v.isBlank = true
  · exact Or.inl ⟨hv, Bool.eq_false_iff.mpr fun hw => h (hv.trans hw.symm)⟩
  · rw [Bool.not_eq_true] at hv
    exact Or.inr ⟨hv, Bool.eq_true_of_not_eq_false fun hw => h (hv.trans hw.symm)⟩

/-! ### Hashes -/

/-- The hash of a whole number: the remainder by a prime, with the sign of the number; an object
whose hash would be -1 has -2. -/
def wholeHash (n : Int) : Int :=
  if n.tmod (2 ^ 61 - 1) = -1 then -2 else n.tmod (2 ^ 61 - 1)

/-- The whole number that a value is equal to. -/
def whole? : Value → Option Int
  | float x => x.toInt?
  | v => v.wholeNumber?

/-- The hash of a value object or of a whole number; of other values it is not told. -/
def hash? : Value → Option Int
  | blank _ => some Blank.hash
  | v => v.whole?.map wholeHash

theorem hash?_of_isBlank (h : v.isBlank = true) : v.hash? = some Blank.hash := by
  obtain ⟨derived, rfl⟩ := Codec.isBlank_iff.mp h
  rfl

theorem hash?_of_whole? {n : Int} (h : v.whole? = some n) : v.hash? = some (wholeHash n) := by
  cases v with
  | blank derived => cases h
  | _ => exact congrArg (Option.map wholeHash) h

end Value

namespace Heap

open Value

variable {h : Heap} {hash : Nat → Int} {i j : Nat} {v w : Value} {is : List Nat}

/-! ### Runs -/

/-- The heap after some steps on an empty one. -/
def run (ms : List Making) : Heap := ms.foldl afterMaking []

/-- What a step adds to a heap: nothing if it fails. -/
def Making.made (m : Making) : List Value := m.values.toOption.getD []

theorem afterMaking_eq (h : Heap) (m : Making) : h.afterMaking m = h ++ m.made := by
  rw [afterMaking, make, Making.made]
  cases m.values with
  | ok vs => rfl
  | error e => exact (List.append_nil h).symm

theorem run_concat (ms : List Making) (m : Making) : run (ms ++ [m]) = run ms ++ m.made := by
  rw [run, List.foldl_concat]
  exact afterMaking_eq _ m

/-- Further steps add values behind those that are there. -/
theorem run_append (ms more : List Making) :
    run (ms ++ more) = run ms ++ more.flatMap Making.made := by
  induction more using List.reverseRecOn with
  | nil => rw [List.append_nil, List.flatMap_nil, List.append_nil]
  | append_singleton more m ih =>
    rw [← List.append_assoc, run_concat, ih, List.flatMap_append, List.flatMap_singleton,
      List.append_assoc]

/-- A slot keeps its object. -/
theorem get?_run_append {ms : List Making} (more : List Making) (hv : (run ms).get? i = some v) :
    (run (ms ++ more)).get? i = some v := by
  obtain ⟨hi, -⟩ := List.getElem?_eq_some_iff.mp hv
  rw [run_append, get?, List.getElem?_append_left hi]
  exact hv

/-! ### Two slots -/

/-- Whether a slot holds a value object. -/
def holdsBlank (h : Heap) (i : Nat) : Bool := (h.get? i).any isBlank

/-- Whether the objects in two slots differ, which is the contrary of being equal. -/
def differ (h : Heap) (i j : Nat) : Bool := !h.equal i j

theorem holdsBlank_iff : h.holdsBlank i = true ↔ ∃ v, h.get? i = some v ∧ v.isBlank = true := by
  rw [holdsBlank, Option.any_eq_true]

theorem holdsBlank_eq (hv : h.get? i = some v) : h.holdsBlank i = v.isBlank := by
  rw [holdsBlank, hv, Option.any_some]

theorem isShared_of_isBlank (hv : v.isBlank = true) : isShared v = false := by
  obtain ⟨derived, rfl⟩ := Codec.isBlank_iff.mp hv
  rfl

theorem identical_of_holdsBlank (hi : h.holdsBlank i = true) (hj : h.holdsBlank j = true) :
    h.identical i j = true ↔ i = j := by
  obtain ⟨v, hv, hb⟩ := holdsBlank_iff.mp hi
  obtain ⟨w, hw, -⟩ := holdsBlank_iff.mp hj
  simp [identical, hv, hw, sharedSame, isShared_of_isBlank hb]

theorem equal_of_holdsBlank (hi : h.holdsBlank i = true) (hj : h.holdsBlank j = true) :
    h.equal i j = true := by
  obtain ⟨v, hv, hb⟩ := holdsBlank_iff.mp hi
  obtain ⟨w, hw, hb'⟩ := holdsBlank_iff.mp hj
  have hself : selfEqual v = true := by
    obtain ⟨derived, rfl⟩ := Codec.isBlank_iff.mp hb
    rfl
  simp [equal, hv, hw, hself, same_of_isBlank_left hb, hb']

theorem identical_eq_false (hne : h.holdsBlank i ≠ h.holdsBlank j) : h.identical i j = false := by
  have hij : i ≠ j := fun hij => hne (congrArg h.holdsBlank hij)
  unfold identical
  split
  · next v w hv hw =>
    rw [holdsBlank_eq hv, holdsBlank_eq hw] at hne
    rcases isBlank_of_ne hne with ⟨hb, -⟩ | ⟨-, hb⟩
    · simp [hij, sharedSame, isShared_of_isBlank hb]
    · simp [hij, sharedSame, isShared_of_isBlank hb]
  · rfl

/-- A value object is equal to none of the other values, whichever of the two is asked. -/
theorem equal_eq_false (hne : h.holdsBlank i ≠ h.holdsBlank j) : h.equal i j = false := by
  have hid := identical_eq_false hne
  unfold equal
  split
  · next v w hv hw =>
    rw [hid, if_neg Bool.false_ne_true]
    rw [holdsBlank_eq hv, holdsBlank_eq hw] at hne
    rcases isBlank_of_ne hne with ⟨hb, hother⟩ | ⟨hother, hb⟩
    · rw [same_of_isBlank_left hb, hother]
    · rw [same_of_isBlank_right hb, hother]
  · rfl

theorem merges_of_holdsBlank (hi : h.holdsBlank i = true) (hj : h.holdsBlank j = true) :
    h.merges i j = true := by
  rw [merges, equal_of_holdsBlank hi hj, Bool.or_true]

theorem merges_eq_false (hne : h.holdsBlank i ≠ h.holdsBlank j) : h.merges i j = false := by
  rw [merges, identical_eq_false hne, equal_eq_false hne, Bool.or_false]

/-- What a set takes for one stands in slots that are filled. -/
theorem exists_of_merges (hm : h.merges i j = true) :
    (∃ v, h.get? i = some v) ∧ ∃ w, h.get? j = some w := by
  rw [merges, Bool.or_eq_true] at hm
  rcases hm with hm | hm
  · unfold identical at hm
    split at hm
    · next v w hv hw => exact ⟨⟨v, hv⟩, ⟨w, hw⟩⟩
    · cases hm
  · unfold equal at hm
    split at hm
    · next v w hv hw => exact ⟨⟨v, hv⟩, ⟨w, hw⟩⟩
    · cases hm

/-! ### Sets -/

/-- The objects that stay when they are added one by one, unless one that is there is met. -/
def kept (meets : Nat → Nat → Bool) (is : List Nat) : List Nat :=
  is.foldl (fun kept i => if kept.any (fun j => meets j i) then kept else kept ++ [i]) []

section kept

variable {meets : Nat → Nat → Bool} {p : Nat → Bool}

theorem kept_concat (is : List Nat) (i : Nat) :
    kept meets (is ++ [i]) =
      if (kept meets is).any (fun j => meets j i) then kept meets is
      else kept meets is ++ [i] := by
  rw [kept, List.foldl_concat]
  rfl

/-- What stays of a class that meets nothing else is what stays without the others. -/
theorem filter_not_kept (hapart : ∀ i j, p i = true → p j = false → meets i j = false)
    (is : List Nat) :
    (kept meets is).filter (fun i => !p i) = kept meets (is.filter fun i => !p i) := by
  induction is using List.reverseRecOn with
  | nil => rfl
  | append_singleton is i ih =>
    rw [kept_concat, List.filter_append]
    by_cases hi : p i = true
    · have hnone : [i].filter (fun i => !p i) = [] := by simp [hi]
      rw [hnone, List.append_nil, ← ih]
      split
      · rfl
      · rw [List.filter_append, hnone, List.append_nil]
    · rw [Bool.not_eq_true] at hi
      have hself : [i].filter (fun i => !p i) = [i] := by simp [hi]
      have hmet : (kept meets is).any (fun j => meets j i) =
          ((kept meets is).filter fun j => !p j).any fun j => meets j i := by
        rw [List.any_filter]
        refine List.any_congr rfl fun j => ?_
        cases hj : p j with
        | false => rfl
        | true => exact hapart j i hj hi
      rw [hself, kept_concat, ← ih, ← hmet]
      split
      · rfl
      · rw [List.filter_append, hself]

/-- Of a class that meets itself and nothing else one object stays. -/
theorem length_filter_kept (htogether : ∀ i j, p i = true → p j = true → meets i j = true)
    (hapart : ∀ i j, p i = false → p j = true → meets i j = false) (is : List Nat) :
    ((kept meets is).filter p).length = if is.any p then 1 else 0 := by
  induction is using List.reverseRecOn with
  | nil => rfl
  | append_singleton is i ih =>
    rw [kept_concat, List.any_append, List.any_cons, List.any_nil, Bool.or_false]
    by_cases hi : p i = true
    · have hself : [i].filter p = [i] := by simp [hi]
      rw [hi, Bool.or_true, if_pos rfl]
      by_cases hany : is.any p = true
      · -- one of the class is there, and `i` meets it
        rw [hany, if_pos rfl] at ih
        obtain ⟨j, hj⟩ := List.exists_mem_of_length_pos (ih ▸ Nat.one_pos)
        obtain ⟨hmem, hpj⟩ := List.mem_filter.mp hj
        rw [if_pos (List.any_eq_true.mpr ⟨j, hmem, htogether j i hpj hi⟩)]
        exact ih
      · rw [if_neg hany, List.length_eq_zero_iff, List.filter_eq_nil_iff] at ih
        have hunmet : ¬(kept meets is).any (fun j => meets j i) = true := by
          rw [List.any_eq_true]
          rintro ⟨j, hj, hmeets⟩
          rw [hapart j i (Bool.eq_false_iff.mpr (ih j hj)) hi] at hmeets
          cases hmeets
        rw [if_neg hunmet, List.filter_append, hself, List.filter_eq_nil_iff.mpr ih]
        rfl
    · have hnone : [i].filter p = [] := by simp [hi]
      rw [Bool.not_eq_true] at hi
      rw [hi, Bool.or_false]
      split
      · exact ih
      · rw [List.filter_append, hnone, List.append_nil]
        exact ih

/-- A class that meets itself and nothing else adds one to what stays of the others. -/
theorem length_kept (htogether : ∀ i j, p i = true → p j = true → meets i j = true)
    (hapart : ∀ i j, p i ≠ p j → meets i j = false) (is : List Nat) :
    (kept meets is).length =
      (kept meets (is.filter fun i => !p i)).length + if is.any p then 1 else 0 := by
  have hleft (i j : Nat) (hi : p i = true) (hj : p j = false) : meets i j = false :=
    hapart i j (by rw [hi, hj]; exact Bool.true_eq_false_eq_False)
  have hright (i j : Nat) (hi : p i = false) (hj : p j = true) : meets i j = false :=
    hapart i j (by rw [hi, hj]; exact Bool.false_ne_true)
  rw [List.length_eq_length_filter_add p, length_filter_kept htogether hright,
    filter_not_kept hleft, Nat.add_comm]

end kept

/-- The slots that stay when a set first compares hashes, and objects only where these are equal. -/
def hashed (h : Heap) (hash : Nat → Int) (is : List Nat) : List Nat :=
  kept (fun j i => hash j == hash i && h.merges j i) is

/-- The hashes of the objects in a heap: those that are told are as they are told, and objects that
a set takes for one have one hash. -/
structure Hashing (h : Heap) (hash : Nat → Int) : Prop where
  told : ∀ i v n, h.get? i = some v → v.hash? = some n → hash i = n
  respects : ∀ i j, h.merges i j = true → hash i = hash j

theorem Hashing.hashed_eq (hh : Hashing h hash) (is : List Nat) :
    h.hashed hash is = h.representatives is := by
  have hmeets : (fun j i => hash j == hash i && h.merges j i) = h.merges := by
    funext j i
    cases hm : h.merges j i with
    | false => exact Bool.and_false _
    | true => rw [Bool.and_true, beq_iff_eq.mpr (hh.respects j i hm)]
  rw [hashed, hmeets]
  rfl

theorem Hashing.hash_eq (hh : Hashing h hash) (hi : h.holdsBlank i = true) :
    hash i = Blank.hash := by
  obtain ⟨v, hv, hb⟩ := holdsBlank_iff.mp hi
  exact hh.told i v _ hv (hash?_of_isBlank hb)

theorem setSize_eq (hhashable : ∀ i ∈ is, ∀ v, h.get? i = some v → v.unhashable? = none) :
    h.setSize is = .ok (h.representatives is).length := by
  have hnone : (is.filterMap h.get?).findSome? unhashable? = none := by
    rw [List.findSome?_eq_none_iff]
    intro v hv
    obtain ⟨i, hi, hget⟩ := List.mem_filterMap.mp hv
    exact hhashable i hi v hget
  rw [setSize, hnone]

/-- One value object stays in a set, beside what stays of the other values. -/
theorem length_representatives (h : Heap) (is : List Nat) :
    (h.representatives is).length =
      (h.representatives (is.filter fun i => !h.holdsBlank i)).length +
        if is.any h.holdsBlank then 1 else 0 :=
  length_kept (fun _ _ => merges_of_holdsBlank) (fun _ _ => merges_eq_false) is

/-! ### The laws -/

/-- Two slots that hold objects which nothing but identity tells apart. -/
structure Alike (h : Heap) (hash : Nat → Int) (i j : Nat) : Prop where
  equal : h.equal i j = true
  notDiffer : h.differ i j = false
  hash : hash i = hash j
  identical_iff : h.identical i j = true ↔ i = j

/-- Two slots that hold different objects, in both orders of asking. -/
structure Apart (h : Heap) (i j : Nat) : Prop where
  notEqual : h.equal i j = false
  notEqualBack : h.equal j i = false
  differ : h.differ i j = true
  differBack : h.differ j i = true

theorem Hashing.alike (hh : Hashing h hash) (hi : h.holdsBlank i = true)
    (hj : h.holdsBlank j = true) : Alike h hash i j where
  equal := equal_of_holdsBlank hi hj
  notDiffer := by rw [Heap.differ, equal_of_holdsBlank hi hj, Bool.not_true]
  hash := (hh.hash_eq hi).trans (hh.hash_eq hj).symm
  identical_iff := identical_of_holdsBlank hi hj

theorem apart (hne : h.holdsBlank i ≠ h.holdsBlank j) : Apart h i j where
  notEqual := equal_eq_false hne
  notEqualBack := equal_eq_false hne.symm
  differ := by rw [Heap.differ, equal_eq_false hne, Bool.not_false]
  differBack := by rw [Heap.differ, equal_eq_false hne.symm, Bool.not_false]

/--
**Laws of value objects.**  Whatever steps have made a heap, its slots keep their objects.  Two
value objects in it are alike and have the empty mapping as their encoding; a value object and
another value are apart.  A set of hashable objects holds one for all value objects and what a set
of the others holds, also if it looks at hashes first; and that although everything that is equal to
one has the hash of a value object.
-/
theorem value_object_laws (ms : List Making) (hash : Nat → Int) (hh : Hashing (run ms) hash) :
    (∀ more i v, (run ms).get? i = some v → (run (ms ++ more)).get? i = some v) ∧
    (∀ i j v w, (run ms).get? i = some v → (run ms).get? j = some w →
      (v.isBlank = true → w.isBlank = true → Alike (run ms) hash i j) ∧
      (v.isBlank ≠ w.isBlank → Apart (run ms) i j)) ∧
    (∀ i v, (run ms).get? i = some v → v.isBlank = true →
      (Codec.encode v).result = .ok (Codec.succeeded "encode" (.mapping .dict []) [])) ∧
    (∀ i j v w, (run ms).get? i = some v → (run ms).get? j = some w → v.isBlank = true →
      w.whole? = some 1 → hash i = hash j) ∧
    ∀ is, (∀ i ∈ is, ∀ v, (run ms).get? i = some v → v.unhashable? = none) →
      ∃ n, (run ms).setSize (is.filter fun i => !(run ms).holdsBlank i) = .ok n ∧
        (run ms).setSize is = .ok (n + if is.any (run ms).holdsBlank then 1 else 0) ∧
        ((run ms).hashed hash is).length = n + if is.any (run ms).holdsBlank then 1 else 0 := by
  refine ⟨fun more i v => get?_run_append more, ?_, ?_, ?_, ?_⟩
  · intro i j v w hv hw
    rw [← holdsBlank_eq hv, ← holdsBlank_eq hw]
    exact ⟨hh.alike, apart⟩
  · intro i v _ hb
    rw [Codec.encode, if_pos hb]
    rfl
  · intro i j v w hv hw hb hone
    rw [hh.told i v _ hv (hash?_of_isBlank hb), hh.told j w _ hw (hash?_of_whole? hone)]
    rfl
  · intro is hhashable
    refine ⟨_, setSize_eq fun i hi => hhashable i (List.mem_of_mem_filter hi), ?_, ?_⟩
    · rw [setSize_eq hhashable, length_representatives]
    · rw [hh.hashed_eq, length_representatives]

/-- Value objects among values that are equal to one, and a number that is not a number. -/
def crowded : List Making :=
  [.fresh [("hue", .int 1)], .decode true (.mapping .dict [(.text "hue", .null)]),
    .put (.blank true), .put (.int 1), .put (.float (Double.ofRatio false 1 1)), .put (.bool true),
    .put (.float .nan), .buildMany 2]

/-- All of them but the last number have one hash. -/
def crowdedHash (i : Nat) : Int := if i = 5 then 7 else 1

theorem hashing_crowded : Hashing (run crowded) crowdedHash := by
  have hlength : (run crowded).length = 8 := by decide +kernel
  have hbound {i : Nat} {v : Value} (hv : (run crowded).get? i = some v) : i < 8 :=
    hlength ▸ (List.getElem?_eq_some_iff.mp hv).1
  have htold : ∀ i < 8, ∀ n ∈ ((run crowded).get? i).bind hash?, crowdedHash i = n := by
    decide +kernel
  have hrespects : ∀ i < 8, ∀ j < 8, (run crowded).merges i j = true →
      crowdedHash i = crowdedHash j := by
    decide +kernel
  refine ⟨?_, ?_⟩
  · intro i v n hv hn
    exact htold i (hbound hv) n (Option.mem_def.mpr (hv ▸ hn))
  · intro i j hm
    obtain ⟨⟨v, hv⟩, ⟨w, hw⟩⟩ := exists_of_merges hm
    exact hrespects i (hbound hv) j (hbound hw) hm

/-- The set of all of them holds a value object, a one and the number that is not a number. -/
theorem value_object_laws_crowded : Hashing (run crowded) crowdedHash ∧
    (run crowded).setSize (List.range 8) = .ok 3 ∧
    ((run crowded).hashed crowdedHash (List.range 8)).length = 3 ∧
    Alike (run crowded) crowdedHash 0 7 ∧ Apart (run crowded) 1 3 ∧
    crowdedHash 1 = crowdedHash 3 := by
  obtain ⟨-, hpairs, -, hone, hsets⟩ := value_object_laws crowded crowdedHash hashing_crowded
  have hslots : run crowded = [.blank false, .blank true, .int 1,
      .float (Double.ofRatio false 1 1), .bool true, .float .nan, .blank false, .blank false] := rfl
  have hothers : (run crowded).setSize
      ((List.range 8).filter fun i => !(run crowded).holdsBlank i) = .ok 2 := by
    decide +kernel
  have hhashable : ∀ i < 8, ∀ v ∈ (run crowded).get? i, v.unhashable? = none := by
    rw [hslots]
    decide +kernel
  obtain ⟨n, hn, hsize, hhashed⟩ := hsets (List.range 8) fun i hi v hv =>
    hhashable i (List.mem_range.mp hi) v hv
  obtain rfl : 2 = n := Except.ok.inj (hothers.symm.trans hn)
  exact ⟨hashing_crowded, hsize, hhashed, (hpairs 0 7 _ _ rfl rfl).1 rfl rfl,
    (hpairs 1 3 _ _ rfl rfl).2 (by decide), hone 1 3 _ _ rfl rfl rfl (by decide +kernel)⟩

end Heap

end Nullary
