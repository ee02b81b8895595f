import Mathlib

/-!
# Tables with a primary key

A table is a list of rows no two of which have the same key. The operations are
those of a relational store: look a row up by its key, insert or replace one, and
delete the rows that satisfy a condition. Each is described by which rows belong
to the table afterwards.
-/

/-- An order by two columns is total. -/
theorem lex_total {α β : Type*} [LinearOrder α] [LinearOrder β] (first second : α)
    (left right : β) :
    (first < second ∨ first = second ∧ left ≤ right) ∨
      (second < first ∨ second = first ∧ right ≤ left) := by
  have total := le_total (toLex (first, left)) (toLex (second, right))
  rwa [Prod.Lex.toLex_le_toLex, Prod.Lex.toLex_le_toLex] at total

/-- An order by two columns is transitive. -/
theorem lex_trans {α β : Type*} [LinearOrder α] [LinearOrder β] {first second third : α}
    {left middle right : β} (before : first < second ∨ first = second ∧ left ≤ middle)
    (after : second < third ∨ second = third ∧ middle ≤ right) :
    first < third ∨ first = third ∧ left ≤ right := by
  have earlier : toLex (first, left) ≤ toLex (second, middle) := Prod.Lex.toLex_le_toLex.mpr before
  have later : toLex (second, middle) ≤ toLex (third, right) := Prod.Lex.toLex_le_toLex.mpr after
  exact Prod.Lex.toLex_le_toLex.mp (earlier.trans later)

/-- Rows with distinct keys. -/
structure Table (Row Key : Type) (key : Row → Key) where
  rows : List Row
  distinct : (rows.map key).Nodup
deriving DecidableEq

namespace Table

variable {Row Key : Type} {key : Row → Key}

/-- A table without rows. -/
def empty : Table Row Key key := ⟨[], List.nodup_nil⟩

/-- The rows that satisfy a condition. -/
def select (table : Table Row Key key) (condition : Row → Bool) : List Row :=
  table.rows.filter condition

/-- `DELETE` — the table without the rows that satisfy a condition. -/
def deleteWhere (table : Table Row Key key) (condition : Row → Bool) : Table Row Key key where
  rows := table.rows.filter fun row => !condition row
  distinct := table.distinct.sublist (List.filter_sublist.map key)

variable {row : Row}

/-- Two rows of a table with the same key are one. -/
theorem eq_of_key_eq (table : Table Row Key key) {other : Row} (first : row ∈ table.rows)
    (second : other ∈ table.rows) (same : key row = key other) : row = other :=
  List.inj_on_of_nodup_map table.distinct first second same

variable {condition : Row → Bool} {table : Table Row Key key}

/-- The rows left by a deletion. -/
@[simp] theorem mem_deleteWhere :
    row ∈ (table.deleteWhere condition).rows ↔ row ∈ table.rows ∧ condition row = false := by
  simp [deleteWhere]

/-- The rows of a selection. -/
@[simp] theorem mem_select :
    row ∈ table.select condition ↔ row ∈ table.rows ∧ condition row = true := by
  simp [select]

/-- Deleting nothing changes nothing. -/
theorem deleteWhere_eq_self (none : ∀ row ∈ table.rows, condition row = false) :
    table.deleteWhere condition = table := by
  obtain ⟨rows, distinct⟩ := table
  simp only [deleteWhere, mk.injEq, List.filter_eq_self, Bool.not_eq_true']
  exact none

variable [DecidableEq Key]

/-- The row with a key. -/
def find? (table : Table Row Key key) (wanted : Key) : Option Row :=
  table.rows.find? fun row => key row = wanted

variable {wanted : Key}

/-- A row is found exactly when it is in the table under its key. -/
theorem find?_eq_some :
    table.find? wanted = some row ↔ row ∈ table.rows ∧ key row = wanted := by
  constructor
  · intro found
    exact ⟨List.mem_of_find?_eq_some found, by simpa using List.find?_some found⟩
  · rintro ⟨member, rfl⟩
    obtain ⟨other, found⟩ := Option.isSome_iff_exists.mp
      (List.find?_isSome.mpr ⟨row, member, by simp⟩ :
        (table.rows.find? fun other => key other = key row).isSome = true)
    have same : key other = key row := by simpa using List.find?_some found
    rw [find?, found, table.eq_of_key_eq (List.mem_of_find?_eq_some found) member same]

/-- No row is found exactly when none has the key. -/
theorem find?_eq_none :
    table.find? wanted = none ↔ ∀ row ∈ table.rows, key row ≠ wanted := by
  simp [find?]

/-- A row that is found after a deletion was found before, and does not satisfy the condition. -/
theorem find?_deleteWhere (table : Table Row Key key) (condition : Row → Bool) (wanted : Key) :
    (table.deleteWhere condition).find? wanted =
      (table.find? wanted).filter fun row => !condition row := by
  refine Option.ext fun row => ?_
  rw [find?_eq_some, mem_deleteWhere, Option.filter_eq_some_iff, find?_eq_some]
  simp only [Bool.not_eq_true']
  exact and_right_comm

/-- A table in which only one key is found has only one row. -/
theorem rows_eq_singleton (found : table.find? wanted = some row)
    (others : ∀ other, other ≠ wanted → table.find? other = none) : table.rows = [row] := by
  obtain ⟨member, own⟩ := find?_eq_some.mp found
  have only : ∀ other ∈ table.rows, other = row := by
    intro other present
    refine table.eq_of_key_eq present member ?_
    by_contra different
    have missing := find?_eq_none.mp (others (key other) (own ▸ different)) other present
    exact missing rfl
  have all := List.eq_replicate_of_mem only
  have single : table.rows.length ≤ 1 := by
    have distinct := table.distinct
    rw [all, List.map_replicate] at distinct
    exact List.nodup_replicate.mp distinct
  rw [le_antisymm single (List.length_pos_of_mem member)] at all
  exact all

/-- `INSERT … ON CONFLICT DO UPDATE` with every column taken from the new row. -/
def upsert (table : Table Row Key key) (row : Row) : Table Row Key key where
  rows := (table.deleteWhere fun other => key other = key row).rows ++ [row]
  distinct := by
    rw [List.map_append, List.nodup_append]
    refine ⟨(table.deleteWhere _).distinct, by simp, ?_⟩
    intro left leftMember right rightMember same
    obtain ⟨other, member, rfl⟩ := List.mem_map.mp leftMember
    obtain rfl : right = key row := by simpa using rightMember
    have different := (mem_deleteWhere.mp member).2
    simp [same] at different

/-- The rows after an upsert. -/
@[simp] theorem mem_upsert {other : Row} :
    other ∈ (table.upsert row).rows ↔ other = row ∨ (other ∈ table.rows ∧ key other ≠ key row) := by
  simp [upsert, or_comm]

/-- What is found after an upsert. -/
theorem find?_upsert (table : Table Row Key key) (row : Row) (wanted : Key) :
    (table.upsert row).find? wanted =
      if key row = wanted then some row else table.find? wanted := by
  ext other
  rw [find?_eq_some, mem_upsert]
  split
  · rename_i same
    constructor
    · rintro ⟨rfl | ⟨-, different⟩, found⟩
      · rfl
      · exact absurd (found.trans same.symm) different
    · intro found
      cases found
      exact ⟨Or.inl rfl, same⟩
  · rename_i different
    rw [find?_eq_some]
    constructor
    · rintro ⟨rfl | ⟨member, -⟩, found⟩
      · exact absurd found different
      · exact ⟨member, found⟩
    · rintro ⟨member, rfl⟩
      exact ⟨Or.inr ⟨member, fun same => different same.symm⟩, rfl⟩

/-- What is found after a key has been deleted. -/
theorem find?_deleteKey (table : Table Row Key key) (deleted wanted : Key) :
    (table.deleteWhere fun row => key row = deleted).find? wanted =
      if wanted = deleted then none else table.find? wanted := by
  ext other
  rw [find?_eq_some, mem_deleteWhere]
  split
  · rename_i same
    simp only [decide_eq_false_iff_not, reduceCtorEq, iff_false, not_and]
    exact fun kept found => kept.2 (found.trans same)
  · rename_i different
    rw [find?_eq_some]
    constructor
    · rintro ⟨⟨member, -⟩, found⟩
      exact ⟨member, found⟩
    · rintro ⟨member, rfl⟩
      exact ⟨⟨member, by simpa using different⟩, rfl⟩

/-- Change the row with a key or insert a new one. -/
def absorb (combine : Row → Row → Row) (table : Table Row Key key) (row : Row) :
    Table Row Key key :=
  match table.find? (key row) with
  | some own => table.upsert (combine own row)
  | none => table.upsert row

/-- What is found after a row has been absorbed. -/
theorem find?_absorb {combine : Row → Row → Row}
    (keyed : ∀ own row, key (combine own row) = key own)
    (table : Table Row Key key) (row : Row) (wanted : Key) :
    (table.absorb combine row).find? wanted =
      Option.merge combine (table.find? wanted) (if key row = wanted then some row else none) := by
  unfold absorb
  cases found : table.find? (key row) with
  | none =>
    simp only [find?_upsert]
    split
    · rename_i same
      subst same
      simp [found]
    · simp
  | some own =>
    have same := (find?_eq_some.mp found).2
    simp only [find?_upsert, keyed, same]
    split
    · rename_i same
      subst same
      simp [found]
    · simp

/-- Absorb the rows of another table. -/
def merge (combine : Row → Row → Row) (table other : Table Row Key key) : Table Row Key key :=
  other.rows.foldl (absorb combine) table

/-- What is found in a merged table. -/
theorem find?_merge {combine : Row → Row → Row} (keyed : ∀ own row, key (combine own row) = key own)
    (table other : Table Row Key key) (wanted : Key) :
    (merge combine table other).find? wanted =
      Option.merge combine (table.find? wanted) (other.find? wanted) := by
  obtain ⟨rows, distinct⟩ := other
  unfold merge
  dsimp only
  induction rows generalizing table with
  | nil => simp [find?]
  | cons row rows ih =>
    obtain ⟨fresh, rest⟩ := List.nodup_cons.mp distinct
    rw [List.foldl_cons, ih _ rest, find?_absorb keyed]
    by_cases same : key row = wanted
    · -- no later row has the key
      have later : find? (⟨rows, rest⟩ : Table Row Key key) wanted = none := by
        refine find?_eq_none.mpr fun other member found => fresh ?_
        exact same.trans found.symm ▸ List.mem_map_of_mem member
      rw [later, if_pos same]
      simp [find?, same]
    · rw [if_neg same]
      simp [find?, same]

/-- The image of a found row, when the image determines the key. -/
theorem map_find?_eq_some {Image : Type} {image : Row → Image} {imageKey : Image → Key}
    (keyed : ∀ row, imageKey (image row) = key row) {value : Image} :
    (table.find? wanted).map image = some value ↔
      value ∈ table.rows.map image ∧ imageKey value = wanted := by
  rw [Option.map_eq_some_iff, List.mem_map]
  constructor
  · rintro ⟨row, found, rfl⟩
    obtain ⟨member, same⟩ := find?_eq_some.mp found
    exact ⟨⟨row, member, rfl⟩, (keyed row).trans same⟩
  · rintro ⟨⟨row, member, rfl⟩, same⟩
    exact ⟨row, find?_eq_some.mpr ⟨member, (keyed row).symm.trans same⟩, rfl⟩

/-- Two tables have the same images in some order exactly when they have the same image under every
key. -/
theorem perm_map_iff {Image : Type} {image : Row → Image} {imageKey : Image → Key}
    (keyed : ∀ row, imageKey (image row) = key row) {other : Table Row Key key} :
    (table.rows.map image).Perm (other.rows.map image) ↔
      ∀ wanted, (table.find? wanted).map image = (other.find? wanted).map image := by
  have nodup : ∀ table : Table Row Key key, (table.rows.map image).Nodup := by
    intro table
    refine List.Nodup.of_map imageKey ?_
    rw [List.map_map, show imageKey ∘ image = key from funext keyed]
    exact table.distinct
  constructor
  · intro perm wanted
    ext value
    rw [map_find?_eq_some keyed, map_find?_eq_some keyed, perm.mem_iff]
  · intro same
    refine (List.perm_ext_iff_of_nodup (nodup table) (nodup other)).mpr fun value => ?_
    have found := congrArg (· = some value) (same (imageKey value))
    simpa only [map_find?_eq_some keyed, and_true, eq_iff_iff] using found

/-- The rows after upserting a list without repeated keys. -/
theorem mem_foldl_upsert {rows : List Row} (distinct : (rows.map key).Nodup) :
    row ∈ (rows.foldl upsert table).rows ↔
      row ∈ rows ∨ (row ∈ table.rows ∧ key row ∉ rows.map key) := by
  induction rows generalizing table with
  | nil => simp
  | cons first rows ih =>
    obtain ⟨fresh, rest⟩ := List.nodup_cons.mp distinct
    rw [List.foldl_cons, ih rest, mem_upsert]
    simp only [List.mem_cons, List.map_cons, not_or]
    constructor
    · rintro (later | ⟨rfl | ⟨before, different⟩, absent⟩)
      · exact Or.inl (Or.inr later)
      · exact Or.inl (Or.inl rfl)
      · exact Or.inr ⟨before, different, absent⟩
    · rintro ((rfl | later) | ⟨before, different, absent⟩)
      · exact Or.inr ⟨Or.inl rfl, fresh⟩
      · exact Or.inl later
      · exact Or.inr ⟨Or.inr ⟨before, different⟩, absent⟩

end Table
