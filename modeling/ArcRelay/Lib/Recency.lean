import Mathlib

/-!
# Lists by recency

Lists whose elements have a key, with the most recent element first. A history is
reduced to the most recent element of every key and cut off after a fixed number
of them; an update of the reduced list is an update of the history. Where ranks
decrease strictly, sorting by rank is determined by the elements alone.
-/

namespace List

variable {α : Type}

/-- Change the first element that satisfies a condition. -/
def modifyFirst (condition : α → Bool) (change : α → α) : List α → List α
  | [] => []
  | first :: rest =>
    if condition first then change first :: rest
    else first :: modifyFirst condition change rest

/-- What every element has and a change keeps, every element has afterwards. -/
theorem forall_modifyFirst {property : α → Prop} {condition : α → Bool} {change : α → α}
    (keeps : ∀ element, property element → property (change element)) {list : List α}
    (each : ∀ element ∈ list, property element) :
    ∀ element ∈ list.modifyFirst condition change, property element := by
  induction list with
  | nil => exact each
  | cons first rest ih =>
    rw [forall_mem_cons] at each
    rw [modifyFirst]
    split
    · exact forall_mem_cons.mpr ⟨keeps first each.1, each.2⟩
    · exact forall_mem_cons.mpr ⟨each.1, ih each.2⟩

section Keys

variable {Key : Type} [DecidableEq Key] (key : α → Key)

/-- The first element of every key. -/
def firstByKey : List α → List α
  | [] => []
  | first :: rest => first :: (firstByKey rest).filter fun other => key other ≠ key first

/-- No element is added. -/
theorem firstByKey_sublist (list : List α) : (list.firstByKey key).Sublist list := by
  induction list with
  | nil => exact Sublist.refl _
  | cons first rest ih => exact (filter_sublist.trans ih).cons_cons first

/-- Every key is kept once. -/
theorem nodup_firstByKey (list : List α) : ((list.firstByKey key).map key).Nodup := by
  induction list with
  | nil => exact nodup_nil
  | cons first rest ih =>
    refine nodup_cons.mpr ⟨fun again => ?_, ih.sublist (filter_sublist.map key)⟩
    obtain ⟨other, member, same⟩ := mem_map.mp again
    simp [same] at member

variable {key}

/-- Where keys are distinct, at most one element has the key. -/
theorem modifyFirst_eq_map {list : List α} (distinct : (list.map key).Nodup) (wanted : Key)
    (change : α → α) : list.modifyFirst (fun element => key element = wanted) change =
      list.map fun element => if key element = wanted then change element else element := by
  induction list with
  | nil => rfl
  | cons first rest ih =>
    obtain ⟨fresh, others⟩ := nodup_cons.mp distinct
    by_cases found : key first = wanted
    · have unchanged : (rest.map fun element =>
          if key element = wanted then change element else element) = rest := by
        conv_rhs => rw [← map_id rest]
        refine map_congr_left fun element member => if_neg fun same => fresh ?_
        exact found.trans same.symm ▸ mem_map_of_mem member
      simp [modifyFirst, found, unchanged]
    · simp [modifyFirst, found, ih others]

/-- The changed element of a key in front of the others. -/
theorem perm_map_change {list : List α} (distinct : (list.map key).Nodup) (change : α → α)
    {element : α} (member : element ∈ list) :
    (list.map fun other => if key other = key element then change other else other).Perm
      (change element :: list.filter fun other => key other ≠ key element) := by
  induction list with
  | nil => cases member
  | cons first rest ih =>
    obtain ⟨fresh, others⟩ := nodup_cons.mp distinct
    rcases mem_cons.mp member with rfl | later
    · have foreign : ∀ other ∈ rest, key other ≠ key element := fun other here same =>
        fresh (same ▸ mem_map_of_mem here)
      have unchanged : (rest.map fun other =>
          if key other = key element then change other else other) = rest := by
        conv_rhs => rw [← map_id rest]
        exact map_congr_left fun other here => if_neg (foreign other here)
      have kept : (rest.filter fun other => key other ≠ key element) = rest :=
        filter_eq_self.mpr fun other here => by simpa using foreign other here
      rw [map_cons, if_pos rfl, unchanged, filter_cons_of_neg (by simp), kept]
    · have foreign : key first ≠ key element := fun same =>
        fresh (same ▸ mem_map_of_mem later)
      rw [map_cons, if_neg foreign, filter_cons_of_pos (by simpa using foreign)]
      exact ((ih others later).cons first).trans (Perm.swap _ _ _)

/-- Of one element more, enough are left when one key is taken out. -/
theorem take_filter_take {list : List α} (distinct : (list.map key).Nodup) (removed : Key)
    (count : Nat) :
    ((list.take (count + 1)).filter fun element => key element ≠ removed).take count =
      (list.filter fun element => key element ≠ removed).take count := by
  induction list generalizing count with
  | nil => simp
  | cons first rest ih =>
    obtain ⟨fresh, others⟩ := nodup_cons.mp distinct
    by_cases here : key first = removed
    · -- the key does not occur again
      have kept : ∀ part : List α, part ⊆ rest →
          (part.filter fun element => key element ≠ removed) = part := by
        intro part subset
        refine filter_eq_self.mpr fun element member => ?_
        have other : key element ≠ removed := fun same =>
          fresh (here.trans same.symm ▸ mem_map_of_mem (subset member))
        simpa using other
      rw [take_succ_cons, filter_cons_of_neg (by simpa using here),
        filter_cons_of_neg (by simpa using here), kept _ (take_subset _ _),
        kept _ (Subset.refl _), take_take, Nat.min_self]
    · rw [take_succ_cons, filter_cons_of_pos (by simpa using here),
        filter_cons_of_pos (by simpa using here)]
      cases count with
      | zero => rfl
      | succ count => rw [take_succ_cons, take_succ_cons, ih others]

end Keys

section Ranks

variable {Rank : Type} [LinearOrder Rank] {rank : α → Rank}

/-- Sorting by descending rank gives the one order in which ranks decrease strictly. -/
theorem insertionSort_eq_of_perm {list sorted : List α} (perm : list.Perm sorted)
    (decreasing : sorted.Pairwise fun left right => rank right < rank left)
    {order : α → α → Prop} [DecidableRel order] [Std.Total order] [IsTrans α order]
    (ordered : ∀ left right, order left right → rank right ≤ rank left)
    (strictly : ∀ left right, rank right < rank left → order left right) :
    list.insertionSort order = sorted := by
  have distinct : (sorted.map rank).Nodup := pairwise_map.mpr (decreasing.imp fun less => less.ne')
  refine ((perm_insertionSort order list).trans perm).eq_of_pairwise ?_
    (pairwise_insertionSort order list) (decreasing.imp fun less => strictly _ _ less)
  intro left right first second le ge
  have member : left ∈ sorted := ((perm_insertionSort order list).trans perm).mem_iff.mp first
  exact inj_on_of_nodup_map distinct member second
    (le_antisymm (ordered right left ge) (ordered left right le))

end Ranks

variable {left : List α} {β : Type}

/-- What related elements have in common is common to related lists. -/
theorem Forall₂.map_eq {γ : Type} {related : α → β → Prop} {right : List β} {first : α → γ}
    {second : β → γ} (pairs : Forall₂ related left right)
    (same : ∀ one other, related one other → first one = second other) :
    left.map first = right.map second := by
  induction pairs with
  | nil => rfl
  | cons head _ ih => rw [map_cons, map_cons, same _ _ head, ih]

/-- An element of one list has a related one in the other. -/
theorem Forall₂.exists_left {related : α → β → Prop} {right : List β}
    (pairs : Forall₂ related left right) {other : β} (member : other ∈ right) :
    ∃ one ∈ left, related one other := by
  induction pairs with
  | nil => cases member
  | @cons one head _ _ found _ ih =>
    rcases mem_cons.mp member with rfl | later
    · exact ⟨one, mem_cons_self, found⟩
    · obtain ⟨one, inside, found⟩ := ih later
      exact ⟨one, mem_cons_of_mem _ inside, found⟩

/-- A list of related elements. -/
theorem exists_forall₂ {related : α → β → Prop} {right : List β}
    (each : ∀ other ∈ right, ∃ one, related one other) : ∃ left, Forall₂ related left right := by
  induction right with
  | nil => exact ⟨[], .nil⟩
  | cons other rest ih =>
    obtain ⟨one, found⟩ := each other mem_cons_self
    obtain ⟨left, pairs⟩ := ih fun later member => each later (mem_cons_of_mem _ member)
    exact ⟨one :: left, .cons found pairs⟩

/-- An element of one list has a related one in the other. -/
theorem Forall₂.exists_right {related : α → β → Prop} {right : List β}
    (pairs : Forall₂ related left right) {one : α} (member : one ∈ left) :
    ∃ other ∈ right, related one other :=
  Forall₂.exists_left (Forall₂.flip pairs) member

/-- The order of a list is the order of a related one. -/
theorem Forall₂.pairwise {related : α → β → Prop} {right : List β} {order : α → α → Prop}
    {other : β → β → Prop} (pairs : Forall₂ related left right) (sorted : left.Pairwise order)
    (same : ∀ one one' two two', related one two → related one' two' → order one one' →
      other two two') : right.Pairwise other := by
  induction pairs with
  | nil => exact Pairwise.nil
  | @cons one two left right head rest ih =>
    obtain ⟨first, later⟩ := pairwise_cons.mp sorted
    refine pairwise_cons.mpr ⟨fun two' member => ?_, ih later⟩
    obtain ⟨one', inside, found⟩ := rest.exists_left member
    exact same one one' two two' head found (first one' inside)

/-- Related lists stay related when related elements are taken out. -/
theorem Forall₂.filter {related : α → β → Prop} {right : List β} {first : α → Bool}
    {second : β → Bool} (pairs : Forall₂ related left right)
    (same : ∀ one other, related one other → first one = second other) :
    Forall₂ related (left.filter first) (right.filter second) := by
  induction pairs with
  | nil => exact .nil
  | @cons one other _ _ head _ ih =>
    by_cases kept : first one = true
    · rw [filter_cons_of_pos kept, filter_cons_of_pos (same _ _ head ▸ kept)]
      exact .cons head ih
    · rw [filter_cons_of_neg kept, filter_cons_of_neg (same _ _ head ▸ kept)]
      exact ih

end List
