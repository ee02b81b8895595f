import ArcRelay.Lib.Fallible
import ArcRelay.Lib.Recency
import ArcRelay.Lib.Table

/-!
# Tables as maps

A table stores a map from names to values if every value is written to a row and
every row is written from a value. How a value is written is a relation, since
writing may fail; the key columns of a row have to determine the name of its
value. The operations of a table are then operations of the map, and what is read
from a table, in any order of its rows, are the values of the map.
-/

namespace Table

/-- How values with names are written to rows with keys. -/
structure Coding {Row Key : Type} (key : Row → Key) (Value Name : Type) where
  name : Value → Name
  written : Value → Row → Prop
  columns : Name → Key
  /-- A name is determined by its key columns. -/
  columns_injective : Function.Injective columns
  /-- A value is written under its name. -/
  key_of_written : ∀ value row, written value row → key row = columns (name value)

variable {Row Key Value Name : Type} {key : Row → Key}

/-- The rows of a table are the values of a map. -/
structure Stores (coding : Coding key Value Name) (table : Table Row Key key)
    (map : Name → Option Value) : Prop where
  named : ∀ name value, map name = some value → coding.name value = name
  stored : ∀ name value, map name = some value → ∃ row ∈ table.rows, coding.written value row
  /-- Every row is written from a value. -/
  known : ∀ row ∈ table.rows, ∃ value, map (coding.name value) = some value ∧
    coding.written value row

variable {coding : Coding key Value Name} {table : Table Row Key key} {map : Name → Option Value}

/-- A table without rows stores no value. -/
theorem stores_empty : Stores coding (empty : Table Row Key key) fun _ => none where
  named _ _ found := by cases found
  stored _ _ found := by cases found
  known _ member := by cases member

/-- Two rows have the same key when their values have the same name. -/
theorem Coding.key_eq_iff (coding : Coding key Value Name) {value other : Value} {row row' : Row}
    (written : coding.written value row) (written' : coding.written other row') :
    key row = key row' ↔ coding.name value = coding.name other := by
  rw [coding.key_of_written _ _ written, coding.key_of_written _ _ written',
    coding.columns_injective.eq_iff]

/-- Deleting rows by the names of their values. -/
theorem Stores.deleteWhere (stores : Stores coding table map) {condition : Row → Bool}
    {dropped : Name → Prop} [DecidablePred dropped]
    (selected : ∀ value, ∀ row ∈ table.rows, coding.written value row →
      (condition row = true ↔ dropped (coding.name value))) :
    Stores coding (table.deleteWhere condition)
      fun name => if dropped name then none else map name := by
  constructor
  · intro name value found
    exact stores.named name value (by
      split at found
      · cases found
      · exact found)
  · intro name value found
    split at found
    · cases found
    · rename_i kept
      obtain ⟨row, member, written⟩ := stores.stored name value found
      refine ⟨row, mem_deleteWhere.mpr ⟨member, ?_⟩, written⟩
      rw [← Bool.not_eq_true, selected value row member written, stores.named name value found]
      exact kept
  · intro row member
    obtain ⟨before, kept⟩ := mem_deleteWhere.mp member
    obtain ⟨value, found, written⟩ := stores.known row before
    refine ⟨value, ?_, written⟩
    rw [← Bool.not_eq_true, selected value row before written] at kept
    rw [if_neg kept, found]

section Reading

variable {Failure : Type} {decode : Row → Except Failure Value}
  (reads : ∀ value row, coding.written value row → decode row = .ok value)

include reads in
/-- What a selection reads, in any order of its rows: each selected value once, in the order of the
rows. -/
theorem Stores.read (stores : Stores coding table map) (condition : Row → Bool)
    (wanted : Name → Prop)
    (selected : ∀ value row, coding.written value row →
      (condition row = true ↔ wanted (coding.name value))) (order : Row → Row → Prop)
    [DecidableRel order] [Std.Total order] [IsTrans Row order] (valueOrder : Value → Value → Prop)
    (ordered : ∀ value other row row', coding.written value row → coding.written other row' →
      order row row' → valueOrder value other) :
    ∃ values, ((table.select condition).insertionSort order).mapM decode = .ok values ∧
      values.Pairwise valueOrder ∧ values.Nodup ∧
      ∀ value, value ∈ values ↔ map (coding.name value) = some value ∧
        wanted (coding.name value) := by
  have present : ∀ row, row ∈ (table.select condition).insertionSort order ↔
      row ∈ table.rows ∧ condition row = true := by
    intro row
    rw [List.mem_insertionSort, mem_select]
  have each : ∀ row ∈ (table.select condition).insertionSort order, ∃ value,
      map (coding.name value) = some value ∧ coding.written value row := fun row member =>
    stores.known row ((present row).mp member).1
  obtain ⟨values, pairs⟩ := List.exists_forall₂ each
  have distinct : (((table.select condition).insertionSort order).map key).Nodup := by
    have rows : ((table.select condition).map key).Nodup :=
      table.distinct.sublist (List.filter_sublist.map key)
    exact ((List.perm_insertionSort order _).map key).nodup_iff.mpr rows
  have keys : values.map (fun value => coding.columns (coding.name value)) =
      ((table.select condition).insertionSort order).map key :=
    pairs.map_eq fun value row held => (coding.key_of_written value row held.2).symm
  refine ⟨values, ?_, ?_, ?_, fun value => ?_⟩
  · exact Except.mapM_eq_ok.mpr (pairs.flip.imp fun row value held => reads value row held.2)
  · exact pairs.flip.pairwise (List.pairwise_insertionSort order _)
      fun row row' value value' held held' => ordered value value' row row' held.2 held'.2
  · rw [← keys] at distinct
    exact List.Nodup.of_map _ distinct
  · constructor
    · intro member
      obtain ⟨row, inside, found, written⟩ := pairs.exists_right member
      exact ⟨found, (selected value row written).mp ((present row).mp inside).2⟩
    · rintro ⟨found, chosen⟩
      obtain ⟨row, member, written⟩ := stores.stored _ value found
      have inside := (present row).mpr ⟨member, (selected value row written).mpr chosen⟩
      obtain ⟨other, listed, found', written'⟩ := pairs.exists_left inside
      -- a row is written from one value
      have same : other = value := by
        have decoded := reads other row written'
        rw [reads value row written] at decoded
        exact (Except.ok.inj decoded).symm
      exact same ▸ listed

end Reading

variable [DecidableEq Key]

/-- A row that is found under the columns of a name is written from the value there. -/
theorem Stores.find?_eq_some (stores : Stores coding table map) (name : Name) {row : Row}
    (found : table.find? (coding.columns name) = some row) :
    ∃ value, map name = some value ∧ coding.written value row := by
  obtain ⟨member, same⟩ := Table.find?_eq_some.mp found
  obtain ⟨value, known, written⟩ := stores.known row member
  rw [coding.key_of_written value row written, coding.columns_injective.eq_iff] at same
  exact ⟨value, same ▸ known, written⟩

/-- No row is found under the columns of a name without a value. -/
theorem Stores.find?_eq_none (stores : Stores coding table map) {name : Name} :
    table.find? (coding.columns name) = none ↔ map name = none := by
  constructor
  · intro missing
    cases found : map name with
    | none => rfl
    | some value =>
      obtain ⟨row, member, written⟩ := stores.stored name value found
      refine absurd ?_ (Table.find?_eq_none.mp missing row member)
      rw [coding.key_of_written value row written, stores.named name value found]
  · intro missing
    refine Table.find?_eq_none.mpr fun row member same => ?_
    obtain ⟨value, known, written⟩ := stores.known row member
    rw [coding.key_of_written value row written, coding.columns_injective.eq_iff] at same
    rw [same, missing] at known
    cases known

/-- Whether there is a row is whether there is a value. -/
theorem Stores.isSome_find? (stores : Stores coding table map) (name : Name) :
    (table.find? (coding.columns name)).isSome = (map name).isSome := by
  rw [Bool.eq_iff_iff, ← not_iff_not]
  simpa using stores.find?_eq_none

/-- Reading the row of a name. -/
theorem Stores.find?_decoded {Failure : Type} {decode : Row → Except Failure Value}
    (reads : ∀ value row, coding.written value row → decode row = .ok value)
    (stores : Stores coding table map) (name : Name) :
    (table.find? (coding.columns name)).map decode = (map name).map .ok := by
  cases found : table.find? (coding.columns name) with
  | none => rw [stores.find?_eq_none.mp found]; rfl
  | some row =>
    obtain ⟨value, known, written⟩ := stores.find?_eq_some name found
    rw [known, Option.map_some, Option.map_some, reads value row written]

variable [DecidableEq Name]

/-- Writing a value under its name. -/
theorem Stores.upsert (stores : Stores coding table map) {value : Value} {row : Row}
    (written : coding.written value row) :
    Stores coding (table.upsert row) (Function.update map (coding.name value) (some value)) := by
  constructor
  · intro name other found
    by_cases here : name = coding.name value
    · subst here
      rw [Function.update_self] at found
      cases found
      rfl
    · rw [Function.update_of_ne here] at found
      exact stores.named name other found
  · intro name other found
    by_cases here : name = coding.name value
    · subst here
      rw [Function.update_self] at found
      cases found
      exact ⟨row, mem_upsert.mpr (Or.inl rfl), written⟩
    · rw [Function.update_of_ne here] at found
      obtain ⟨row', member, written'⟩ := stores.stored name other found
      refine ⟨row', mem_upsert.mpr (Or.inr ⟨member, fun same => here ?_⟩), written'⟩
      rw [← stores.named name other found]
      exact (coding.key_eq_iff written' written).mp same
  · intro row' member
    rcases mem_upsert.mp member with rfl | ⟨before, different⟩
    · exact ⟨value, Function.update_self .., written⟩
    · obtain ⟨other, found, written'⟩ := stores.known row' before
      refine ⟨other, ?_, written'⟩
      rw [Function.update_of_ne fun same => different
        ((coding.key_eq_iff written' written).mpr same)]
      exact found

end Table
