import Mathlib

/-!
Tables with a primary key. A table is an association list without repeated
keys, so a row is found by its key (`lookup`), inserted under a fresh key,
changed in place (`modify`), searched (`anyRow`) and added up over all rows
(`total`, the `count` and `sum` of a query).
-/
namespace Expbuild.Tables

/-- Rows of type `V` under a primary key of type `K`. -/
abbrev Table (K V : Type) := AList (fun _ : K => V)

variable {K V : Type} [DecidableEq K]

/-- `UPDATE ... SET ... WHERE key = k`. -/
def modify (k : K) (f : V → V) (t : Table K V) : Table K V :=
  match t.lookup k with
  | some v => t.insert k (f v)
  | none => t

/-- Whether some row satisfies the condition. -/
def anyRow (p : K → V → Bool) (t : Table K V) : Bool := t.entries.any (fun row => p row.1 row.2)

/-- Some row that satisfies the condition. -/
def findRow (p : V → Bool) (t : Table K V) : Option V := (t.entries.map (fun row => row.2)).find? p

/-- The sum over all rows of what each row contributes. -/
def total (g : K → V → Nat) (t : Table K V) : Nat := (t.entries.map (fun row => g row.1 row.2)).sum

omit [DecidableEq K] in
@[simp] theorem total_empty (g : K → V → Nat) : total g (∅ : Table K V) = 0 := rfl

theorem lookup_insert (k j : K) (v : V) (t : Table K V) :
    (t.insert k v).lookup j = if j = k then some v else t.lookup j := by
  by_cases same : j = k
  · subst same; simp
  · simp [same,AList.lookup_insert_ne same]

theorem lookup_erase (k j : K) (t : Table K V) : (t.erase k).lookup j = if j = k then none else t.lookup j := by
  by_cases same : j = k
  · subst same; simp
  · simp [same,AList.lookup_erase_ne same]

theorem insert_erase (k : K) (v : V) (t : Table K V) : (t.erase k).insert k v = t.insert k v := by
  refine AList.ext ?_
  rw [AList.entries_insert,AList.entries_insert]
  exact congrArg _ (List.kerase_of_notMem_keys (List.notMem_keys_kerase k t.nodupKeys))

theorem lookup_modify (k j : K) (f : V → V) (t : Table K V) :
    (modify k f t).lookup j = if j = k then (t.lookup j).map f else t.lookup j := by
  unfold modify
  cases found : t.lookup k with
  | none =>
    by_cases same : j = k
    · subst same; simp [found]
    · simp [same]
  | some v =>
    rw [lookup_insert]
    by_cases same : j = k
    · subst same; simp [found]
    · simp [same]

@[simp] theorem lookup_modify_self (k : K) (f : V → V) (t : Table K V) :
    (modify k f t).lookup k = (t.lookup k).map f := by
  simp [lookup_modify]

theorem lookup_modify_ne {k j : K} (other : j ≠ k) (f : V → V) (t : Table K V) :
    (modify k f t).lookup j = t.lookup j := by
  simp [lookup_modify,other]

/-- A row after an update is an unchanged other row or the updated one. -/
theorem lookup_modify_some {k j : K} {f : V → V} {t : Table K V} {v : V} (found : (modify k f t).lookup j = some v) :
    (j ≠ k ∧ t.lookup j = some v) ∨ (j = k ∧ ∃ old, t.lookup k = some old ∧ v = f old) := by
  rw [lookup_modify] at found
  by_cases same : j = k
  · subst same
    simp only [if_true,Option.map_eq_some_iff] at found
    obtain ⟨old,was,rfl⟩ := found
    exact .inr ⟨rfl,old,was,rfl⟩
  · rw [if_neg same] at found
    exact .inl ⟨same,found⟩

/-- A row after an insertion is the inserted one or an old one. -/
theorem lookup_insert_some {k j : K} {new : V} {t : Table K V} {v : V} (found : (t.insert k new).lookup j = some v) :
    (j = k ∧ v = new) ∨ (j ≠ k ∧ t.lookup j = some v) := by
  rw [lookup_insert] at found
  by_cases same : j = k
  · rw [if_pos same] at found
    exact .inl ⟨same,(Option.some.inj found).symm⟩
  · rw [if_neg same] at found
    exact .inr ⟨same,found⟩

theorem lookup_iff_entry {k : K} {v : V} {t : Table K V} : t.lookup k = some v ↔ ⟨k,v⟩ ∈ t.entries :=
  AList.mem_lookup_iff

theorem anyRow_iff (p : K → V → Bool) (t : Table K V) :
    anyRow p t = true ↔ ∃ k v, t.lookup k = some v ∧ p k v = true := by
  simp only [anyRow,List.any_eq_true,lookup_iff_entry]
  constructor
  · rintro ⟨⟨k,v⟩,member,holds⟩; exact ⟨k,v,member,holds⟩
  · rintro ⟨k,v,member,holds⟩; exact ⟨⟨k,v⟩,member,holds⟩

theorem anyRow_false_iff (p : K → V → Bool) (t : Table K V) :
    anyRow p t = false ↔ ∀ k v, t.lookup k = some v → p k v = false := by
  rw [← Bool.not_eq_true,anyRow_iff]
  constructor
  · intro none k v found
    by_contra holds
    exact none ⟨k,v,found,by simpa using holds⟩
  · rintro all ⟨k,v,found,holds⟩
    simp [all k v found] at holds

theorem findRow_some {p : V → Bool} {t : Table K V} {v : V} (found : findRow p t = some v) :
    p v = true ∧ ∃ k, t.lookup k = some v := by
  refine ⟨List.find?_some found,?_⟩
  obtain ⟨row,member,rfl⟩ := List.mem_map.mp (List.mem_of_find?_eq_some found)
  exact ⟨row.1,lookup_iff_entry.mpr member⟩

theorem findRow_none {p : V → Bool} {t : Table K V} (missing : findRow p t = none) {k : K} {v : V}
    (found : t.lookup k = some v) : p v = false := by
  have none' := List.find?_eq_none.mp missing v (List.mem_map.mpr ⟨⟨k,v⟩,lookup_iff_entry.mp found,rfl⟩)
  simpa using none'

omit [DecidableEq K] in
theorem sum_kerase [DecidableEq K] {M : Type} [AddCommMonoid M] (g : K → V → M) (k : K) (rows : List ((_ : K) × V)) (v : V)
    (found : rows.dlookup k = some v) :
    ((rows.kerase k).map (fun row => g row.1 row.2)).sum + g k v = (rows.map (fun row => g row.1 row.2)).sum := by
  induction rows with
  | nil => simp at found
  | cons row rest ih =>
    by_cases same : k = row.1
    · obtain ⟨key,value⟩ := row
      cases same
      rw [List.dlookup_cons_eq] at found
      cases found
      rw [List.kerase_cons_eq rfl]
      simp only [List.map_cons,List.sum_cons]
      exact add_comm _ _
    · rw [List.dlookup_cons_ne _ _ same] at found
      rw [List.kerase_cons_ne same]
      simp only [List.map_cons,List.sum_cons]
      rw [add_assoc,ih found]

theorem total_insert (g : K → V → Nat) {k : K} (v : V) {t : Table K V} (fresh : t.lookup k = none) :
    total g (t.insert k v) = g k v + total g t := by
  have absent : k ∉ t := AList.lookup_eq_none.mp fresh
  simp only [total,AList.entries_insert_of_notMem absent,List.map_cons,List.sum_cons]

theorem total_modify (g : K → V → Nat) {k : K} (f : V → V) {t : Table K V} {v : V} (found : t.lookup k = some v) :
    total g (modify k f t) + g k v = total g t + g k (f v) := by
  have erased := sum_kerase g k t.entries v found
  simp only [total,modify,found,AList.entries_insert,List.map_cons,List.sum_cons]
  omega

theorem total_modify_none (g : K → V → Nat) {k : K} (f : V → V) {t : Table K V} (missing : t.lookup k = none) :
    total g (modify k f t) = total g t := by
  simp [modify,missing]

/-- An update that does not raise what its row contributes does not raise the sum. -/
theorem total_modify_le (g : K → V → Nat) (k : K) (f : V → V) (t : Table K V)
    (falls : ∀ v, t.lookup k = some v → g k (f v) ≤ g k v) : total g (modify k f t) ≤ total g t := by
  cases found : t.lookup k with
  | none => rw [total_modify_none g f found]
  | some v =>
    have moved := total_modify g f found
    have := falls v found
    omega

/-- The sum only depends on the rows. -/
theorem total_congr (g : K → V → Nat) {t t' : Table K V} (same : ∀ k, t.lookup k = t'.lookup k) :
    total g t = total g t' := by
  have perm : t.entries.Perm t'.entries := by
    refine List.lookup_ext t.nodupKeys t'.nodupKeys (fun k v => ?_)
    exact iff_of_eq (congrArg (v ∈ ·) (same k))
  exact (perm.map _).sum_eq

/-! ### Sums in any group -/

variable {M : Type} [AddCommMonoid M]

/-- The sum over all rows, of numbers of any kind. -/
def sumOf (g : K → V → M) (t : Table K V) : M := (t.entries.map (fun row => g row.1 row.2)).sum

omit [DecidableEq K] in
@[simp] theorem sumOf_empty (g : K → V → M) : sumOf g (∅ : Table K V) = 0 := rfl

theorem sumOf_erase_none (g : K → V → M) {k : K} {t : Table K V} (missing : t.lookup k = none) :
    sumOf g (t.erase k) = sumOf g t := by
  have absent : k ∉ t.entries.keys := AList.lookup_eq_none.mp missing
  simp only [sumOf]
  exact congrArg (fun rows => (rows.map (fun row : (_ : K) × V => g row.1 row.2)).sum) (List.kerase_of_notMem_keys absent)

theorem sumOf_erase (g : K → V → M) {k : K} {t : Table K V} {v : V} (found : t.lookup k = some v) :
    g k v + sumOf g (t.erase k) = sumOf g t := by
  rw [add_comm]
  exact sum_kerase g k t.entries v found

theorem sumOf_insert (g : K → V → M) (k : K) (v : V) (t : Table K V) :
    sumOf g (t.insert k v) = g k v + sumOf g (t.erase k) := by
  simp only [sumOf,AList.entries_insert,List.map_cons,List.sum_cons]
  rfl

end Expbuild.Tables
