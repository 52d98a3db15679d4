import Nullary.Proofs.Except
import Nullary.Proofs.Fields
import Nullary.Toml.File

/-!
# Names in a document

Whatever a reader puts into a table goes through `Table.descend`, which at most inserts a name there
or sets the item of a name that is there (`Table.nodup_keys_descend`).  So every statement keeps the
names of a document apart, and in what is read from a file no name stands twice.
Main statement: `Toml.nodup_keys_of_readToml`.
-/

namespace Nullary

namespace Toml

namespace Table

variable {t u : Table} {k : String}

/-- A change below the names of a table keeps these apart; one of the table itself has to do so. -/
theorem nodup_keys_descend {viaArrays : Bool} {change : Table → Except PutError Table} {k : Key}
    (hchange : ∀ {t u : Table}, change t = .ok u → t.keys.Nodup → u.keys.Nodup)
    (h : descend viaArrays change k t = .ok u) (ht : t.keys.Nodup) : u.keys.Nodup := by
  cases k with
  | nil => exact hchange h ht
  | cons k ks =>
    rw [descend] at h
    split at h
    · obtain ⟨v, -, rfl⟩ := exists_of_map_eq_ok h
      exact Fields.nodup_keys_insert ht
    · obtain ⟨v, -, rfl⟩ := exists_of_map_eq_ok h
      exact Fields.nodup_keys_insert ht
    · split at h
      · obtain ⟨v, -, rfl⟩ := exists_of_map_eq_ok h
        exact Fields.nodup_keys_insert ht
      · cases h
    · cases h

theorem nodup_keys_putNew {v : Toml} (h : putNew k v t = .ok u) (ht : t.keys.Nodup) :
    u.keys.Nodup := by
  unfold putNew at h
  split_ifs at h
  rw [← Except.ok.inj h]
  exact Fields.nodup_keys_insert ht

theorem nodup_keys_append (h : append k t = .ok u) (ht : t.keys.Nodup) : u.keys.Nodup := by
  unfold append at h
  split at h
  · rw [← Except.ok.inj h]
    exact Fields.nodup_keys_insert ht
  · rw [← Except.ok.inj h]
    exact Fields.nodup_keys_insert ht
  · cases h

end Table

namespace Draft

/-- Whether no name stands twice at the top of what is read so far. -/
def Apart (d : Draft) : Prop := d.table.keys.Nodup

variable {d d' : Draft} {k : Key}

theorem Apart.addPair {v : Toml} (hd : Apart d) (h : d.addPair k v = .ok d') : Apart d' := by
  simp only [Draft.addPair] at h
  split at h
  · cases h
  split at h
  · cases h
  split at h
  · cases h
  next t ht =>
  rw [← Except.ok.inj h]
  exact Table.nodup_keys_descend (fun hput => Table.nodup_keys_putNew hput) ht hd

theorem Apart.openTable (hd : Apart d) (h : d.openTable k = .ok d') : Apart d' := by
  unfold Draft.openTable at h
  split at h
  · cases h
  split at h
  · cases h
  next t ht =>
  rw [← Except.ok.inj h]
  exact Table.nodup_keys_descend (fun hsame ht => Except.ok.inj hsame ▸ ht) ht hd

theorem Apart.openElement (hd : Apart d) (h : d.openElement k = .ok d') : Apart d' := by
  unfold Draft.openElement at h
  split at h
  · cases h
  split at h
  · cases h
  next t ht =>
  rw [← Except.ok.inj h]
  exact Table.nodup_keys_descend (fun happend => Table.nodup_keys_append happend) ht hd

/-! ### Statements -/

variable {s : List Char}

theorem Apart.pair {p : Step Draft s} (hd : Apart d) (h : pair d s = .ok p) : Apart p.value := by
  unfold Toml.pair at h
  split at h
  · cases h
  split at h
  · split at h
    · cases h
    split at h
    · cases h
    next d' hadd =>
    rw [← Except.ok.inj h]
    exact hd.addPair hadd
  · cases h

theorem Apart.tableHeader {p : Step Draft s} (hd : Apart d) (h : tableHeader d s = .ok p) :
    Apart p.value := by
  unfold Toml.tableHeader at h
  split at h
  · cases h
  split at h
  · cases h
  next d' hopen =>
  split at h
  · rw [← Except.ok.inj h]
    exact hd.openTable hopen
  · cases h

theorem Apart.elementHeader {p : Step Draft s} (hd : Apart d) (h : elementHeader d s = .ok p) :
    Apart p.value := by
  unfold Toml.elementHeader at h
  split at h
  · cases h
  split at h
  · cases h
  next d' hopen =>
  split at h
  · rw [← Except.ok.inj h]
    exact hd.openElement hopen
  · cases h

theorem Apart.statement {p : Step Draft s} (hd : Apart d) (h : statement d s = .ok p) :
    Apart p.value := by
  have hsettled : Apart d.settle := hd
  unfold Toml.statement at h
  split at h
  · obtain ⟨q, hq, rfl⟩ := exists_of_map_eq_ok h
    have hapart : Apart q.value := hsettled.elementHeader hq
    exact hapart
  · obtain ⟨q, hq, rfl⟩ := exists_of_map_eq_ok h
    have hapart : Apart q.value := hsettled.tableHeader hq
    exact hapart
  · split_ifs at h
    exact hd.pair h
  · cases h

theorem Apart.statements (hd : Apart d) (h : statements d s = .ok d') : Apart d' := by
  fun_induction Toml.statements d s with
  | case1 d s hs => exact Except.ok.inj h ▸ hd
  | case2 d s c r hs hb hc e he => cases h
  | case3 d s c r hs hb hc hn => exact Except.ok.inj h ▸ hd
  | case4 d s c r hs hb hc n hn hlt ih => exact ih hd h
  | case5 d s c r hs hb hc e he => cases h
  | case6 d s c r hs hb hc p hp e he => cases h
  | case7 d s c r hs hb hc p hp hn => exact Except.ok.inj h ▸ hd.statement hp
  | case8 d s c r hs hb hc p hp n hn hlt ih => exact ih (hd.statement hp) h

end Draft

/-! ### Files -/

variable {d : Table}

theorem nodup_keys_of_parse {s : String} (h : parse s = .ok d) : d.keys.Nodup := by
  unfold parse at h
  dsimp only at h
  split at h
  · next draft hdraft =>
    have hempty : Draft.Apart .empty := List.nodup_nil
    rw [← Except.ok.inj h]
    exact hempty.statements hdraft
  · cases h

/-- In the document of a file no name stands twice at the top. -/
theorem nodup_keys_of_readToml {w : World} {p : FilePath} (h : w.readToml p = .ok d) :
    d.keys.Nodup := by
  unfold World.readToml ofBytes at h
  split at h
  · cases h
  split at h
  · cases h
  exact nodup_keys_of_parse (mapError_eq_ok_iff.mp h)

end Toml

end Nullary
