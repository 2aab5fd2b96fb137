import Mathlib

/-!
`scan` of `webdav-stats`: a walk over the content of a WebDAV server that counts its
regular files and adds up their sizes, within limits on the depth, the number of entries
and the time. Either it fails or its numbers are exact (`scan_exact`).
-/
namespace Expbuild.ContentScan

/-! ### Trees -/

/-- The size of a file: a number of 64 bits that is not negative. -/
abbrev Size := Fin (2 ^ 63)

/-- What a directory has. -/
inductive Node where
  | link
  /-- A device, a socket or a pipe. -/
  | special
  | regular (size : Size)
  | directory (entries : List Node)

mutual

/-- The regular files that are reached from a node. -/
def Node.files : Node → List Size
  | .link => []
  | .special => []
  | .regular size => [size]
  | .directory entries => filesOf entries
def filesOf : List Node → List Size
  | [] => []
  | node :: rest => node.files ++ filesOf rest

end

mutual

/-- The entries that are reached from a node, with itself. -/
def Node.reached : Node → Nat
  | .link => 1
  | .special => 1
  | .regular _ => 1
  | .directory entries => 1 + reachedOf entries
def reachedOf : List Node → Nat
  | [] => 0
  | node :: rest => node.reached + reachedOf rest

end

mutual

/-- The levels of directories from a node on. -/
def Node.height : Node → Nat
  | .link => 0
  | .special => 0
  | .regular _ => 0
  | .directory entries => 1 + heightOf entries
def heightOf : List Node → Nat
  | [] => 0
  | node :: rest => max node.height (heightOf rest)

end

/-- The bytes of some files. -/
def total (files : List Size) : Nat := (files.map Fin.val).sum

/-! ### The system -/

/-- What the system does: in which order it lists a directory, and which of the calls
    fail. A call is known by its number. -/
structure System where
  order : Nat → List Node → List Node
  shuffles : ∀ n entries, (order n entries).Perm entries
  openFails : Nat → Bool
  /-- A read that fails, with the entries that it gives all the same. -/
  readFails : Nat → Option Nat
  infoFails : Nat → Bool
  /-- The deadline has passed. -/
  late : Nat → Bool

/-- Nothing fails in time. -/
structure System.Quiet (sys : System) : Prop where
  opens : ∀ n, sys.openFails n = false
  reads : ∀ n, sys.readFails n = none
  infos : ∀ n, sys.infoFails n = false
  prompt : ∀ n, sys.late n = false

inductive ReadErr where
  | none | eof | failure
  deriving DecidableEq,Repr

/-- `ReadDir(256)`: up to 256 of what is left, and the end of the directory once nothing is. -/
def readDir (sys : System) (call : Nat) (rest : List Node) : List Node × ReadErr × List Node :=
  match sys.readFails call with
  | some given => (rest.take (min given 256),.failure,rest.drop (min given 256))
  | none => if rest = [] then ([],.eof,[]) else (rest.take 256,.none,rest.drop 256)

/-! ### The walk -/

/-- A number as it is stored in 64 bits. -/
def int64 (n : Int) : Int := n.bmod (2 ^ 64)
def maxInt64 : Int := 2 ^ 63 - 1
def maxEntries : Int := 1000000

/-- The counters, the number of the next call and, for the record, the files that were
    counted. -/
structure Tally where
  visited : Int := 0
  itemCount : Int := 0
  usedBytes : Int := 0
  calls : Nat := 0
  counted : List Size := []
  deriving DecidableEq,Repr

def Tally.tick (t : Tally) : Tally := { t with calls := t.calls + 1 }

/-- The error that a call returned, if it did, and the counters after it; nothing while it
    runs. -/
abbrev Result := Option (Option String × Tally)

/-- The entries of a batch. -/
def visit (sys : System) (walk : List Node → Tally → Result) : List Node → Tally → Result
  | [],t => some (none,t)
  | entry :: rest,t =>
    let t := { t with visited := int64 (t.visited + 1) }
    if t.visited > maxEntries then some (some "content scan exceeds supported entry count",t)
    else if sys.late t.calls = true then some (some "content scan exceeded time limit",t.tick)
    else
      let t := t.tick
      match entry with
      | .link => visit sys walk rest t
      | .directory entries =>
        match walk entries t with
        | some (none,t) => visit sys walk rest t
        | other => other
      | .special => if sys.infoFails t.calls = true then some (some "info",t.tick) else visit sys walk rest t.tick
      | .regular size =>
        if sys.infoFails t.calls = true then some (some "info",t.tick)
        else if (size.val : Int) < 0 ∨ t.usedBytes > int64 (maxInt64 - size.val) then
          some (some "content scan exceeds supported size",t.tick)
        else visit sys walk rest
          { t.tick with itemCount := int64 (t.itemCount + 1), usedBytes := int64 (t.usedBytes + size.val), counted := size :: t.counted }

/-- The batches of a directory. The loop is followed for as long as there is fuel. -/
def batches (sys : System) (walk : List Node → Tally → Result) : Nat → List Node → Tally → Result
  | 0,_,_ => none
  | fuel + 1,rest,t =>
    match visit sys walk (readDir sys t.calls rest).1 t.tick with
    | some (none,t') =>
      match (readDir sys t.calls rest).2.1 with
      | .eof => some (none,t')
      | .failure => some (some "read",t')
      | .none => batches sys walk fuel (readDir sys t.calls rest).2.2 t'
    | other => other

/-- `walk`, with the levels that are left: none at a depth of more than 128. -/
def walk (sys : System) (fuel : Nat) : Nat → List Node → Tally → Result
  | 0,_,t => some (some "content directory nesting exceeds supported depth",t)
  | levels + 1,entries,t =>
    if sys.openFails t.calls = true then some (some "open",t.tick)
    else batches sys (walk sys fuel levels) fuel (sys.order t.calls entries) t.tick

structure Snapshot where
  usedBytes : Int
  capacityBytes : Int
  itemCount : Int
  deriving DecidableEq,Repr

/-- `root` is what `Lstat` finds. The result is read after the walk. -/
def scan (sys : System) (fuel : Nat) (root : Option Node) (capacityBytes : Int) : Option (Snapshot × Option String × Tally) :=
  match root with
  | none => some (⟨0,capacityBytes,0⟩,some "lstat",{})
  | some (.directory entries) =>
    match walk sys fuel 129 entries {} with
    | some (error,t) => some (⟨t.usedBytes,capacityBytes,t.itemCount⟩,error,t)
    | none => none
  | some _ => some (⟨0,capacityBytes,0⟩,some "content root is not a directory",{})

/-! ### The numbers of trees -/

theorem filesOf_eq (entries : List Node) : filesOf entries = entries.flatMap Node.files := by
  induction entries with
  | nil => rfl
  | cons node rest ih => rw [filesOf,ih,List.flatMap_cons]

theorem reachedOf_eq (entries : List Node) : reachedOf entries = (entries.map Node.reached).sum := by
  induction entries with
  | nil => rfl
  | cons node rest ih => rw [reachedOf,ih,List.map_cons,List.sum_cons]

theorem heightOf_le (entries : List Node) (levels : Nat) : heightOf entries ≤ levels ↔ ∀ node ∈ entries, node.height ≤ levels := by
  induction entries with
  | nil => simp [heightOf]
  | cons node rest ih => rw [heightOf,Nat.max_le,ih,List.forall_mem_cons]

theorem filesOf_append (a b : List Node) : filesOf (a ++ b) = filesOf a ++ filesOf b := by
  simp only [filesOf_eq,List.flatMap_append]

theorem reachedOf_append (a b : List Node) : reachedOf (a ++ b) = reachedOf a + reachedOf b := by
  simp only [reachedOf_eq,List.map_append,List.sum_append]

theorem heightOf_append (a b : List Node) : heightOf (a ++ b) = max (heightOf a) (heightOf b) := by
  induction a with
  | nil => simp [heightOf]
  | cons node rest ih => rw [List.cons_append,heightOf,heightOf,ih,Nat.max_assoc]

/-- The order of the entries does not matter. -/
theorem filesOf_perm {a b : List Node} (same : a.Perm b) : (filesOf a).Perm (filesOf b) := by
  rw [filesOf_eq,filesOf_eq]
  exact same.flatMap_right Node.files

theorem heightOf_perm {a b : List Node} (same : a.Perm b) : heightOf a = heightOf b := by
  have below {a b : List Node} (same : a.Perm b) : heightOf a ≤ heightOf b :=
    (heightOf_le a _).mpr (fun node member => (heightOf_le b _).mp (le_refl _) node (same.subset member))
  exact le_antisymm (below same) (below same.symm)

theorem reachedOf_perm {a b : List Node} (same : a.Perm b) : reachedOf a = reachedOf b := by
  rw [reachedOf_eq,reachedOf_eq]
  exact (same.map Node.reached).sum_eq

theorem total_perm {a b : List Size} (same : a.Perm b) : total a = total b := (same.map Fin.val).sum_eq
theorem total_append (a b : List Size) : total (a ++ b) = total a + total b := by simp [total]

/-- An entry is at least one. -/
theorem length_le_reachedOf (entries : List Node) : entries.length ≤ reachedOf entries := by
  induction entries with
  | nil => exact Nat.le_refl 0
  | cons node rest ih =>
    have first : 1 ≤ node.reached := by cases node <;> simp [Node.reached]
    rw [reachedOf,List.length_cons]
    omega

theorem int64_of_range {n : Int} (low : -2 ^ 63 ≤ n) (high : n ≤ maxInt64) : int64 n = n := by
  unfold int64 maxInt64 at *
  rw [Int.bmod_def]
  split <;> omega

/-! ### Exactness -/

/-- The counters are what they should be. -/
structure Sound (t : Tally) : Prop where
  started : 0 ≤ t.visited
  bounded : t.visited ≤ maxEntries + 1
  items : t.itemCount = t.counted.length
  few : (t.counted.length : Int) ≤ t.visited
  used : t.usedBytes = total t.counted
  room : (total t.counted : Int) ≤ maxInt64

/-- A call that found so many entries, with these files and so many levels of
    directories: its counters are sound, after a success they are exact, and it succeeds
    if nothing fails and the limits allow it. -/
structure Faithful (sys : System) (levels reached : Nat) (files : List Size) (height : Nat) (t : Tally) (error : Option String) (t' : Tally) :
    Prop where
  sound : Sound t'
  visited : error = none → t'.visited = t.visited + reached ∧ t'.visited ≤ maxEntries
  counted : error = none → t'.counted.Perm (files ++ t.counted)
  shallow : error = none → height ≤ levels
  succeeds : sys.Quiet → t.visited + reached ≤ maxEntries → (total t.counted + total files : Nat) ≤ maxInt64 → height ≤ levels → error = none

namespace Faithful

variable {sys : System} {levels reached reached' height height' : Nat} {files files' : List Size} {t t₁ t₂ : Tally} {error : Option String}

/-- One call after the other. -/
theorem trans (first : Faithful sys levels reached files height t none t₁) (second : Faithful sys levels reached' files' height' t₁ error t₂) :
    Faithful sys levels (reached + reached') (files ++ files') (max height height') t error t₂ := by
  obtain ⟨visited,_⟩ := first.visited rfl
  have counted := first.counted rfl
  refine ⟨second.sound,fun ok => ?_,fun ok => ?_,fun ok => Nat.max_le.mpr ⟨first.shallow rfl,second.shallow ok⟩,
    fun quiet few small shallow => second.succeeds quiet ?_ ?_ (by omega)⟩
  · obtain ⟨visited',bounded⟩ := second.visited ok
    refine ⟨?_,bounded⟩
    rw [visited',visited]
    push_cast
    ring
  · refine (second.counted ok).trans ((counted.append_left files').trans ?_)
    rw [← List.append_assoc]
    exact List.perm_append_comm.append_right t.counted
  · rw [visited]
    push_cast at few
    omega
  · rw [total_append] at small
    rw [total_perm counted,total_append]
    omega

/-- A call that failed, and what was left to do. -/
theorem failed {message : String} (first : Faithful sys levels reached files height t (some message) t₁) (reached' : Nat)
    (files' : List Size) (height' : Nat) :
    Faithful sys levels (reached + reached') (files ++ files') (max height height') t (some message) t₁ := by
  refine ⟨first.sound,fun wrong => (by cases wrong),fun wrong => (by cases wrong),fun wrong => (by cases wrong),
    fun quiet few small shallow => ?_⟩
  rw [total_append] at small
  exact first.succeeds quiet (by omega) (by omega) (by omega)

theorem perm (same : files.Perm files') (holds : Faithful sys levels reached files height t error t₁) :
    Faithful sys levels reached files' height t error t₁ :=
  ⟨holds.sound,holds.visited,fun ok => (holds.counted ok).trans (same.append_right _),holds.shallow,
    fun quiet few small shallow => holds.succeeds quiet few (total_perm same ▸ small) shallow⟩

/-- Nothing was done. -/
theorem refl (sound : Sound t) (started : t.visited ≤ maxEntries) : Faithful sys levels 0 [] 0 t none t :=
  ⟨sound,fun _ => ⟨by simp,started⟩,fun _ => .refl _,fun _ => Nat.zero_le _,fun _ _ _ _ => rfl⟩

/-- The number of a call is of no account. -/
theorem tick (holds : Faithful sys levels reached files height t error t₁) : Faithful sys levels reached files height t error t₁.tick := by
  obtain ⟨⟨started,bounded,items,few,used,room⟩,visited,counted,shallow,succeeds⟩ := holds
  exact ⟨⟨started,bounded,items,few,used,room⟩,visited,counted,shallow,succeeds⟩

theorem untick (holds : Faithful sys levels reached files height t.tick error t₁) : Faithful sys levels reached files height t error t₁ :=
  ⟨holds.sound,holds.visited,holds.counted,holds.shallow,holds.succeeds⟩

/-- A call that failed only because something outside failed. -/
theorem fault (sound : Sound t₁) (message : String) (loud : ¬sys.Quiet) : Faithful sys levels reached files height t (some message) t₁ :=
  ⟨sound,fun wrong => (by cases wrong),fun wrong => (by cases wrong),fun wrong => (by cases wrong),fun quiet => absurd quiet loud⟩

end Faithful

/-- A function that walks over a directory is faithful at some depth. -/
def FaithfulWalk (sys : System) (levels : Nat) (walk : List Node → Tally → Result) : Prop :=
  ∀ entries t error t', Sound t → t.visited ≤ maxEntries → walk entries t = some (error,t') →
    Faithful sys levels (reachedOf entries) (filesOf entries) (1 + heightOf entries) t error t'

/-- One more entry is counted. -/
theorem entered {t : Tally} (sound : Sound t) (started : t.visited ≤ maxEntries) : int64 (t.visited + 1) = t.visited + 1 := by
  have low := sound.started
  unfold maxEntries at started
  exact int64_of_range (by omega) (by unfold maxInt64; omega)

theorem Sound.tick {t : Tally} (sound : Sound t) : Sound t.tick := by
  obtain ⟨started,bounded,items,few,used,room⟩ := sound
  exact ⟨started,bounded,items,few,used,room⟩

/-- A file is added to the sum if there is room for it. -/
theorem added {t : Tally} {size : Size} (sound : Sound t) (started : t.visited ≤ maxEntries)
    (room : ¬((size.val : Int) < 0 ∨ t.usedBytes > int64 (maxInt64 - size.val))) :
    int64 (t.itemCount + 1) = t.itemCount + 1 ∧ int64 (t.usedBytes + size.val) = t.usedBytes + size.val ∧
      (total (size :: t.counted) : Int) ≤ maxInt64 := by
  obtain ⟨low,_,items,few,used,_⟩ := sound
  have bound := size.isLt
  have fits : int64 (maxInt64 - size.val) = maxInt64 - size.val := int64_of_range (by unfold maxInt64; omega) (by unfold maxInt64; omega)
  rw [fits] at room
  have sum : (total (size :: t.counted) : Int) = size.val + total t.counted := by simp [total]
  have nonneg : 0 ≤ (total t.counted : Int) := Int.natCast_nonneg _
  unfold maxEntries at started
  refine ⟨int64_of_range ?_ ?_,int64_of_range ?_ ?_,?_⟩
  · omega
  · unfold maxInt64
    omega
  · omega
  · omega
  · omega

section
variable {sys : System} {levels : Nat} {t t' : Tally} {error : Option String}

theorem Sound.enter (sound : Sound t) (started : t.visited ≤ maxEntries) : Sound { t with visited := t.visited + 1 } := by
  obtain ⟨low,_,items,few,used,room⟩ := sound
  exact ⟨by simp only; omega,by simp only; omega,items,by simp only; omega,used,room⟩

/-- An entry that adds no file. -/
theorem entry_faithful (sound : Sound t) (started : t.visited ≤ maxEntries) (more : t.visited + 1 ≤ maxEntries) :
    Faithful sys levels 1 [] 0 t none { t with visited := t.visited + 1 } :=
  ⟨sound.enter started,fun _ => ⟨rfl,more⟩,fun _ => .refl _,fun _ => Nat.zero_le _,fun _ _ _ _ => rfl⟩

/-- An entry that is one too many. -/
theorem excess_faithful (sound : Sound t) (started : t.visited ≤ maxEntries) (excess : t.visited + 1 > maxEntries) (message : String) :
    Faithful sys levels 1 [] 0 t (some message) { t with visited := t.visited + 1 } := by
  refine ⟨sound.enter started,fun wrong => (by cases wrong),fun wrong => (by cases wrong),fun wrong => (by cases wrong),?_⟩
  intro _ few
  push_cast at few
  omega

/-- A file that is counted. -/
theorem file_faithful {size : Size} (sound : Sound t) (more : t.visited + 1 ≤ maxEntries)
    (room : (total (size :: t.counted) : Int) ≤ maxInt64) (calls : Nat) :
    Faithful sys levels 1 [size] 0 t none ⟨t.visited + 1,t.itemCount + 1,t.usedBytes + size.val,calls,size :: t.counted⟩ := by
  obtain ⟨low,_,items,few,used,_⟩ := sound
  refine ⟨⟨by simp only; omega,by simp only; omega,?_,?_,?_,room⟩,fun _ => ⟨rfl,more⟩,fun _ => .refl _,fun _ => Nat.zero_le _,fun _ _ _ _ => rfl⟩
  · simp [items]
  · simp only [List.length_cons]
    push_cast
    omega
  · simp only [used,total,List.map_cons,List.sum_cons]
    push_cast
    ring

/-- A file that is too much. -/
theorem full_faithful {size : Size} {message : String} (sound : Sound t) (sound' : Sound t')
    (full : (size.val : Int) < 0 ∨ t.usedBytes > int64 (maxInt64 - size.val)) : Faithful sys levels 1 [size] 0 t (some message) t' := by
  refine ⟨sound',fun wrong => (by cases wrong),fun wrong => (by cases wrong),fun wrong => (by cases wrong),?_⟩
  intro _ _ small
  have bound := size.isLt
  have fits : int64 (maxInt64 - size.val) = maxInt64 - size.val := int64_of_range (by unfold maxInt64; omega) (by unfold maxInt64; omega)
  have single : total [size] = size.val := by simp [total]
  rw [fits,sound.used] at full
  rw [single] at small
  omega

/-- A failure at the beginning of an entry. -/
theorem Faithful.begun {message : String} (first : Faithful sys levels 1 [] 0 t (some message) t') (entry : Node) (rest : List Node) :
    Faithful sys levels (reachedOf (entry :: rest)) (filesOf (entry :: rest)) (heightOf (entry :: rest)) t (some message) t' := by
  have whole := first.failed (reachedOf (entry :: rest) - 1) (filesOf (entry :: rest)) (heightOf (entry :: rest))
  have some_ := length_le_reachedOf (entry :: rest)
  rw [List.length_cons] at some_
  rwa [Nat.add_sub_cancel' (by omega),List.nil_append,Nat.zero_max] at whole

theorem visit_faithful {walk : List Node → Tally → Result} (faithful : FaithfulWalk sys levels walk) {entries : List Node} (sound : Sound t)
    (started : t.visited ≤ maxEntries) (done : visit sys walk entries t = some (error,t')) :
    Faithful sys levels (reachedOf entries) (filesOf entries) (heightOf entries) t error t' := by
  induction entries generalizing t with
  | nil =>
    cases done
    exact .refl sound started
  | cons entry rest ih =>
    simp only [visit,entered sound started] at done
    split at done
    · rename_i excess
      cases done
      exact (excess_faithful sound started excess _).begun entry rest
    · rename_i more
      have more := not_lt.mp more
      have entered : Faithful sys levels 1 [] 0 t none _ := entry_faithful sound started more
      split at done
      · rename_i late
        cases done
        exact (Faithful.fault entered.sound.tick _ (fun quiet => by simp [quiet.prompt] at late)).begun entry rest
      · cases entry with
        | link => exact entered.tick.trans (ih entered.sound.tick more done)
        | special =>
          dsimp only at done
          split at done
          · rename_i failed
            cases done
            exact (Faithful.fault entered.sound.tick.tick _ (fun quiet => by simp [quiet.infos] at failed)).begun _ rest
          · exact entered.tick.tick.trans (ih entered.sound.tick.tick more done)
        | regular size =>
          dsimp only at done
          split at done
          · rename_i failed
            cases done
            exact (Faithful.fault entered.sound.tick.tick _ (fun quiet => by simp [quiet.infos] at failed)).begun _ rest
          · split at done
            · rename_i full
              cases done
              exact (full_faithful sound entered.sound.tick.tick full).failed _ _ _
            · rename_i room
              obtain ⟨items,used,bounded⟩ := added sound started room
              have file : Faithful sys levels 1 [size] 0 t none _ := file_faithful sound more bounded (t.calls + 2)
              refine file.trans (ih file.sound more ?_)
              rw [← done]
              simp only [Tally.tick,items,used]
        | directory entries =>
          dsimp only at done
          cases below : walk entries { t with visited := t.visited + 1 }.tick with
          | none => simp [below] at done
          | some result =>
            obtain ⟨e,t₁⟩ := result
            have inside := entered.tick.trans (faithful entries _ e t₁ entered.sound.tick more below)
            rw [List.nil_append,Nat.zero_max] at inside
            rw [below] at done
            cases e with
            | some message =>
              cases done
              exact inside.failed (reachedOf rest) (filesOf rest) (heightOf rest)
            | none => exact inside.trans (ih inside.sound (inside.visited rfl).2 done)

/-- What a read gives and leaves is what there was. -/
theorem readDir_split (sys : System) (call : Nat) (rest : List Node) : rest = (readDir sys call rest).1 ++ (readDir sys call rest).2.2 := by
  unfold readDir
  split
  · exact (List.take_append_drop _ rest).symm
  · split
    · assumption
    · exact (List.take_append_drop _ rest).symm

theorem batches_faithful {walk : List Node → Tally → Result} (faithful : FaithfulWalk sys levels walk) {fuel : Nat} {rest : List Node}
    (sound : Sound t) (started : t.visited ≤ maxEntries) (done : batches sys walk fuel rest t = some (error,t')) :
    Faithful sys levels (reachedOf rest) (filesOf rest) (heightOf rest) t error t' := by
  induction fuel generalizing rest t with
  | zero => cases done
  | succ fuel ih =>
    rw [batches] at done
    have split_ := readDir_split sys t.calls rest
    cases inside : visit sys walk (readDir sys t.calls rest).1 t.tick with
    | none => simp [inside] at done
    | some result =>
      obtain ⟨e,t₁⟩ := result
      have batch := (visit_faithful faithful sound.tick started inside).untick
      rw [inside] at done
      rw [split_,reachedOf_append,filesOf_append,heightOf_append]
      cases e with
      | some message =>
        cases done
        exact batch.failed _ _ _
      | none =>
        dsimp only at done
        split at done
        · rename_i ended
          cases done
          have nothing : (readDir sys t.calls rest).2.2 = [] := by
            unfold readDir at ended ⊢
            split at ended
            · cases ended
            · split at ended
              · rw [if_pos ‹rest = []›]
              · cases ended
          rw [nothing]
          exact batch.trans (.refl batch.sound (batch.visited rfl).2)
        · rename_i failed
          cases done
          refine .fault batch.sound _ (fun quiet => ?_)
          unfold readDir at failed
          rw [quiet.reads] at failed
          dsimp only at failed
          split at failed <;> cases failed
        · exact batch.trans (ih batch.sound (batch.visited rfl).2 done)

theorem walk_faithful (sys : System) (fuel levels : Nat) : FaithfulWalk sys levels (walk sys fuel levels) := by
  induction levels with
  | zero =>
    intro entries t error t' sound _ done
    cases done
    refine ⟨sound,fun wrong => (by cases wrong),fun wrong => (by cases wrong),fun wrong => (by cases wrong),?_⟩
    intro _ _ _ shallow
    omega
  | succ levels ih =>
    intro entries t error t' sound started done
    rw [walk] at done
    split at done
    · rename_i failed
      cases done
      exact .fault sound.tick _ (fun quiet => by simp [quiet.opens] at failed)
    · have same := sys.shuffles t.calls entries
      have inside := (batches_faithful ih sound.tick started done).untick
      rw [reachedOf_perm same,heightOf_perm same] at inside
      obtain ⟨sound',visited,counted,shallow,succeeds⟩ := inside.perm (filesOf_perm same)
      exact ⟨sound',visited,counted,fun ok => by have := shallow ok; omega,
        fun quiet few small shallow => succeeds quiet few small (by omega)⟩

/-! ### Termination -/

/-- A function that walks over a directory comes to an end, if the directory is not too large. -/
def Ending (fuel : Nat) (walk : List Node → Tally → Result) : Prop := ∀ entries t, reachedOf entries < fuel → walk entries t ≠ none

theorem visit_ends {walk : List Node → Tally → Result} {fuel : Nat} (ending : Ending fuel walk) {entries : List Node}
    (enough : reachedOf entries ≤ fuel) : visit sys walk entries t ≠ none := by
  induction entries generalizing t with
  | nil => exact Option.some_ne_none _
  | cons entry rest ih =>
    rw [reachedOf] at enough
    rw [visit]
    dsimp only
    split
    · exact Option.some_ne_none _
    · split
      · exact Option.some_ne_none _
      · cases entry with
        | link => exact ih (by omega)
        | special =>
          dsimp only
          split
          · exact Option.some_ne_none _
          · exact ih (by omega)
        | regular size =>
          dsimp only
          split
          · exact Option.some_ne_none _
          · split
            · exact Option.some_ne_none _
            · exact ih (by omega)
        | directory entries =>
          dsimp only
          split
          · exact ih (by omega)
          · rw [Node.reached] at enough
            exact ending entries _ (by omega)

theorem batches_end {walk : List Node → Tally → Result} {fuel : Nat} (ending : Ending fuel walk) {n : Nat} {rest : List Node}
    (enough : reachedOf rest ≤ fuel) (more : rest.length < n) : batches sys walk n rest t ≠ none := by
  induction n generalizing rest t with
  | zero => omega
  | succ n ih =>
    have split_ := readDir_split sys t.calls rest
    have parts := congrArg reachedOf split_
    rw [reachedOf_append] at parts
    rw [batches]
    split
    · split
      · exact Option.some_ne_none _
      · exact Option.some_ne_none _
      · rename_i continues
        refine ih (by omega) ?_
        have some_ : rest ≠ [] ∧ (readDir sys t.calls rest).2.2 = rest.drop 256 := by
          unfold readDir at continues ⊢
          split at continues
          · cases continues
          · split at continues
            · cases continues
            · rename_i some_
              exact ⟨some_,by rw [if_neg some_]⟩
        have long := List.length_pos_iff.mpr some_.1
        rw [some_.2,List.length_drop]
        omega
    · exact visit_ends ending (by omega)

theorem walk_ends (sys : System) (fuel levels : Nat) : Ending fuel (walk sys fuel levels) := by
  induction levels with
  | zero => exact fun _ _ _ => Option.some_ne_none _
  | succ levels ih =>
    intro entries t enough
    have same := sys.shuffles t.calls entries
    have long := length_le_reachedOf (sys.order t.calls entries)
    rw [reachedOf_perm same] at long
    rw [walk]
    split
    · exact Option.some_ne_none _
    · exact batches_end ih (by rw [reachedOf_perm same]; omega) (by omega)

/-- What one function finds, the other finds. -/
def Extends (walk walk' : List Node → Tally → Result) : Prop := ∀ entries t result, walk entries t = some result → walk' entries t = some result

theorem ite_extends {p : Prop} [Decidable p] {a f f' : Result} {result : Option String × Tally} (done : (if p then a else f) = some result)
    (more : f = some result → f' = some result) : (if p then a else f') = some result := by
  split at done
  · rwa [if_pos ‹p›]
  · rw [if_neg ‹¬p›]
    exact more done

theorem visit_extends {walk walk' : List Node → Tally → Result} (more : Extends walk walk') {entries : List Node} {result : Option String × Tally}
    (done : visit sys walk entries t = some result) : visit sys walk' entries t = some result := by
  induction entries generalizing t with
  | nil => exact done
  | cons entry rest ih =>
    refine ite_extends done (fun done => ite_extends done (fun done => ?_))
    cases entry with
    | link => exact ih done
    | special => exact ite_extends done ih
    | regular size => exact ite_extends done (fun done => ite_extends done ih)
    | directory entries =>
      dsimp only at done ⊢
      split at done
      · rename_i t₁ below
        rw [more _ _ _ below]
        exact ih done
      · rename_i failed
        rw [more _ _ _ done]
        obtain ⟨e,t₁⟩ := result
        cases e with
        | none => exact absurd done (failed t₁)
        | some message => rfl

theorem batches_extends {walk walk' : List Node → Tally → Result} (more : Extends walk walk') {n m : Nat} (longer : n ≤ m) {rest : List Node}
    {result : Option String × Tally} (done : batches sys walk n rest t = some result) : batches sys walk' m rest t = some result := by
  induction n generalizing m rest t with
  | zero => cases done
  | succ n ih =>
    obtain ⟨m,rfl⟩ : ∃ k, m = k + 1 := ⟨m - 1,by omega⟩
    rw [batches] at done ⊢
    split at done
    · rename_i t₁ inside
      rw [visit_extends more inside]
      dsimp only
      split at done
      · exact done
      · exact done
      · exact ih (by omega) done
    · rename_i failed
      rw [visit_extends more done]
      obtain ⟨e,t₁⟩ := result
      cases e with
      | none => exact absurd done (failed t₁)
      | some message => rfl

theorem walk_extends (sys : System) {fuel fuel' : Nat} (longer : fuel ≤ fuel') (levels : Nat) :
    Extends (walk sys fuel levels) (walk sys fuel' levels) := by
  induction levels with
  | zero => exact fun _ _ _ done => done
  | succ levels ih =>
    intro entries t result done
    exact ite_extends done (batches_extends ih longer)

end

theorem Sound.zero : Sound {} := ⟨by decide,by decide,rfl,by decide,rfl,by decide⟩

/-- The walk comes to an end. If it succeeds, its numbers are those of the regular files
    that are reached; it fails only where the system does, the root is no directory, or a
    limit is exceeded; and the sum is always that of the files which were counted. -/
theorem scan_exact (sys : System) (root : Option Node) (capacityBytes : Int) :
    ∃ snapshot error t, (∃ enough, ∀ fuel, enough ≤ fuel → scan sys fuel root capacityBytes = some (snapshot,error,t)) ∧
      snapshot = ⟨t.usedBytes,capacityBytes,t.itemCount⟩ ∧
      (error = none → ∃ entries, root = some (.directory entries) ∧ snapshot.itemCount = (filesOf entries).length ∧
        snapshot.usedBytes = total (filesOf entries)) ∧
      (sys.Quiet → ∀ entries, root = some (.directory entries) →
        (error ≠ none ↔ 128 < heightOf entries ∨ 1000000 < reachedOf entries ∨ 2 ^ 63 - 1 < total (filesOf entries))) ∧
      t.usedBytes = total t.counted ∧ t.usedBytes ≤ maxInt64 := by
  cases root with
  | none => exact ⟨_,_,_,⟨0,fun _ _ => rfl⟩,rfl,fun wrong => (by cases wrong),fun _ _ wrong => (by cases wrong),rfl,by decide⟩
  | some node =>
    cases node with
    | link => exact ⟨_,_,_,⟨0,fun _ _ => rfl⟩,rfl,fun wrong => (by cases wrong),fun _ _ wrong => (by cases wrong),rfl,by decide⟩
    | special => exact ⟨_,_,_,⟨0,fun _ _ => rfl⟩,rfl,fun wrong => (by cases wrong),fun _ _ wrong => (by cases wrong),rfl,by decide⟩
    | regular size => exact ⟨_,_,_,⟨0,fun _ _ => rfl⟩,rfl,fun wrong => (by cases wrong),fun _ _ wrong => (by cases wrong),rfl,by decide⟩
    | directory entries =>
      obtain ⟨⟨error,t⟩,done⟩ := Option.ne_none_iff_exists'.mp (walk_ends sys (reachedOf entries + 1) 129 entries {} (Nat.lt_succ_self _))
      have faithful := walk_faithful sys _ 129 entries {} error t Sound.zero (by decide) done
      refine ⟨⟨t.usedBytes,capacityBytes,t.itemCount⟩,error,t,⟨reachedOf entries + 1,fun fuel enough => ?_⟩,rfl,fun ok => ⟨entries,rfl,?_,?_⟩,?_,
        faithful.sound.used,faithful.sound.used ▸ faithful.sound.room⟩
      · rw [scan,walk_extends sys enough 129 _ _ _ done]
      · have counted := faithful.counted ok
        rw [List.append_nil] at counted
        rw [← counted.length_eq]
        exact faithful.sound.items
      · have counted := faithful.counted ok
        rw [List.append_nil] at counted
        rw [← total_perm counted]
        exact faithful.sound.used
      · rintro quiet _ same
        cases same
        rw [← not_iff_not,not_not]
        constructor
        · intro ok
          have reached := faithful.visited ok
          have shallow := faithful.shallow ok
          have room := faithful.sound.room
          rw [total_perm (faithful.counted ok),List.append_nil] at room
          unfold maxEntries at reached
          unfold maxInt64 at room
          simp only [zero_add] at reached
          omega
        · intro limits
          refine faithful.succeeds quiet ?_ ?_ (by omega)
          · unfold maxEntries
            simp only [zero_add]
            omega
          · unfold maxInt64
            rw [show total [] = 0 from rfl,Nat.zero_add]
            omega

end Expbuild.ContentScan
