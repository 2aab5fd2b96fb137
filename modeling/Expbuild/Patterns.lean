import Mathlib

/-!
Regular expressions that are matched by backtracking, in the order of preference of
ECMAScript: a matcher is given what is to be matched after it and returns the first
success (`Regex.run`). `Regex.Reads` forgets the order; a match is one of the readings,
and there is one whenever there is a reading (`run_sound`, `run_complete`). `pieces` cuts a
text into what a global replacement copies and what it replaces.
-/
namespace Expbuild.Patterns

variable {α β : Type}

/-! ### Matching -/

inductive Regex (α : Type) where
  | nothing
  | one (p : α → Bool)
  /-- A place between a unit of a word and one that is of none. -/
  | boundary (word : α → Bool)
  | seq (r s : Regex α)
  | alt (r s : Regex α)
  /-- As often as possible. -/
  | star (r : Regex α)
  | group (r : Regex α)

/-- A place in a text: the unit before it, what is left, and the text of the group. -/
structure Place (α : Type) where
  before : Option α
  rest : List α
  captured : List α := []

/-- The place after some units. -/
def Place.past (x : Place α) (taken rest : List α) : Place α := ⟨taken.getLast?.or x.before,rest,x.captured⟩

theorem Place.past_past (x : Place α) (a b rest rest' : List α) : (x.past a rest).past b rest' = x.past (a ++ b) rest' := by
  simp [past,List.getLast?_append,Option.or_assoc]

/-- What stands before a place, after one unit and more. -/
theorem last_cons (c : α) (a : List α) (before : Option α) : (c :: a).getLast?.or before = a.getLast?.or (some c) := by
  rw [List.getLast?_cons]
  cases last : a.getLast? with
  | none => rfl
  | some d => rfl

/-- Iterations take at least one unit each, so that as many as there are units suffice. -/
def iterate (f : Place α → (Place α → Option β) → Option β) : Nat → Place α → (Place α → Option β) → Option β
  | 0,x,k => k x
  | n + 1,x,k => (f x (fun y => if y.rest.length < x.rest.length then iterate f n y k else none)).or (k x)

namespace Regex

def run : Regex α → Place α → (Place α → Option β) → Option β
  | nothing,x,k => k x
  | one p,x,k =>
    match x.rest with
    | [] => none
    | c :: rest => if p c then k { x with before := some c, rest := rest } else none
  | boundary word,x,k => if x.before.any word ≠ x.rest.head?.any word then k x else none
  | seq r s,x,k => r.run x (fun y => s.run y k)
  | alt r s,x,k => (r.run x k).or (s.run x k)
  | star r,x,k => iterate (fun y next => r.run y next) x.rest.length x k
  | group r,x,k => r.run x (fun y => k { y with captured := x.rest.take (x.rest.length - y.rest.length) })

/-- One or more, the more the better. -/
def plus (r : Regex α) : Regex α := seq r (star r)

def optional (r : Regex α) : Regex α := alt r nothing
/-- Units that become those of `word` by `fold`. -/
def literal [DecidableEq α] (fold : α → α) : List α → Regex α
  | [] => nothing
  | a :: word => seq (one (fun c => fold c = a)) (literal fold word)
/-- One of several, the first that leads to a match. -/
def anyOf (r : Regex α) : List (Regex α) → Regex α
  | [] => r
  | s :: rest => alt r (anyOf s rest)

def exec (r : Regex α) (before : Option α) (text : List α) : Option (Place α) := r.run ⟨before,text,[]⟩ some

/-! ### Readings -/

/-- A matcher can lead from a place to another. -/
def Reads : Regex α → Place α → Place α → Prop
  | nothing,x,y => y = x
  | one p,x,y => ∃ c rest, x.rest = c :: rest ∧ p c = true ∧ y = { x with before := some c, rest := rest }
  | boundary word,x,y => x.before.any word ≠ x.rest.head?.any word ∧ y = x
  | seq r s,x,y => ∃ z, Reads r x z ∧ Reads s z y
  | alt r s,x,y => Reads r x y ∨ Reads s x y
  | star r,x,y => Relation.ReflTransGen (fun x y => Reads r x y ∧ y.rest.length < x.rest.length) x y
  | group r,x,y => ∃ z, Reads r x z ∧ y = { z with captured := x.rest.take (x.rest.length - z.rest.length) }

theorem iterate_sound {r : Regex α} (sound : ∀ {x : Place α} {k : Place α → Option β} {v : β}, r.run x k = some v →
      ∃ y, r.Reads x y ∧ k y = some v) {n : Nat} {x : Place α} {k : Place α → Option β} {v : β}
    (done : iterate (fun y next => r.run y next) n x k = some v) : ∃ y, (star r).Reads x y ∧ k y = some v := by
  induction n generalizing x with
  | zero => exact ⟨x,.refl,done⟩
  | succ n ih =>
    rw [iterate,Option.or_eq_some_iff] at done
    obtain further | ⟨_,here⟩ := done
    · obtain ⟨y,reads,next⟩ := sound further
      split at next
      · rename_i shorter
        obtain ⟨z,more,done⟩ := ih next
        exact ⟨z,.head ⟨reads,shorter⟩ more,done⟩
      · cases next
    · exact ⟨x,.refl,here⟩

/-- A match is a reading. -/
theorem run_sound (r : Regex α) {x : Place α} {k : Place α → Option β} {v : β} (done : r.run x k = some v) :
    ∃ y, r.Reads x y ∧ k y = some v := by
  induction r generalizing x k v with
  | nothing => exact ⟨x,rfl,done⟩
  | one p =>
    rw [run] at done
    split at done
    · cases done
    · rename_i c rest shape
      split at done
      · rename_i holds
        exact ⟨_,⟨c,rest,shape,holds,rfl⟩,done⟩
      · cases done
  | boundary word =>
    rw [run] at done
    split at done
    · rename_i differ
      exact ⟨x,⟨differ,rfl⟩,done⟩
    · cases done
  | seq r s first second =>
    obtain ⟨y,reads,next⟩ := first done
    obtain ⟨z,more,done⟩ := second next
    exact ⟨z,⟨y,reads,more⟩,done⟩
  | alt r s left right =>
    rw [run,Option.or_eq_some_iff] at done
    obtain done | ⟨_,done⟩ := done
    · obtain ⟨y,reads,done⟩ := left done
      exact ⟨y,.inl reads,done⟩
    · obtain ⟨y,reads,done⟩ := right done
      exact ⟨y,.inr reads,done⟩
  | star r ih => exact iterate_sound ih done
  | group r ih =>
    obtain ⟨y,reads,done⟩ := ih done
    exact ⟨_,⟨y,reads,rfl⟩,done⟩

/-- A match of two, one after the other. -/
theorem seq_sound {r s : Regex α} {x : Place α} {k : Place α → Option β} {v : β} (done : (seq r s).run x k = some v) :
    ∃ z, r.Reads x z ∧ s.run z k = some v := run_sound r done

theorem iterate_complete {r : Regex α} (complete : ∀ {x y : Place α} {k : Place α → Option β}, r.Reads x y → r.run x k = none →
      k y = none) {x y : Place α} {k : Place α → Option β} (reads : (star r).Reads x y) {n : Nat} (enough : x.rest.length ≤ n)
    (none_ : iterate (fun y next => r.run y next) n x k = none) : k y = none := by
  induction reads using Relation.ReflTransGen.head_induction_on generalizing n with
  | refl =>
    cases n with
    | zero => exact none_
    | succ n =>
      rw [iterate,Option.or_eq_none_iff] at none_
      exact none_.2
  | @head x z step _ ih =>
    obtain ⟨reads,shorter⟩ := step
    cases n with
    | zero => omega
    | succ n =>
      rw [iterate,Option.or_eq_none_iff] at none_
      have next := complete reads none_.1
      rw [if_pos shorter] at next
      exact ih (by omega) next

/-- No reading is missed. -/
theorem run_complete (r : Regex α) {x y : Place α} {k : Place α → Option β} (reads : r.Reads x y) (none_ : r.run x k = none) :
    k y = none := by
  induction r generalizing x y k with
  | nothing =>
    obtain rfl := reads
    exact none_
  | one p =>
    obtain ⟨c,rest,shape,holds,rfl⟩ := reads
    simpa [run,shape,holds] using none_
  | boundary word =>
    obtain ⟨differ,rfl⟩ := reads
    rwa [run,if_pos differ] at none_
  | seq r s first second =>
    obtain ⟨z,reads,more⟩ := reads
    exact second more (first reads none_)
  | alt r s left right =>
    rw [run,Option.or_eq_none_iff] at none_
    obtain reads | reads := reads
    · exact left reads none_.1
    · exact right reads none_.2
  | star r ih => exact iterate_complete ih reads (le_refl _) none_
  | group r ih =>
    obtain ⟨z,reads,rfl⟩ := reads
    have next := ih reads none_
    exact next

/-- What is read is taken from the front. -/
theorem reads_taken (r : Regex α) {x y : Place α} (reads : r.Reads x y) :
    ∃ taken, x.rest = taken ++ y.rest ∧ y.before = taken.getLast?.or x.before := by
  induction r generalizing x y with
  | nothing =>
    obtain rfl := reads
    exact ⟨[],rfl,rfl⟩
  | one p =>
    obtain ⟨c,rest,shape,_,rfl⟩ := reads
    exact ⟨[c],shape,rfl⟩
  | boundary word =>
    obtain ⟨_,rfl⟩ := reads
    exact ⟨[],rfl,rfl⟩
  | seq r s first second =>
    obtain ⟨z,reads,more⟩ := reads
    obtain ⟨a,shape,last⟩ := first reads
    obtain ⟨b,shape',last'⟩ := second more
    exact ⟨a ++ b,by rw [shape,shape',List.append_assoc],by rw [last',last,List.getLast?_append,Option.or_assoc]⟩
  | alt r s left right => exact reads.elim left right
  | star r ih =>
    induction reads with
    | refl => exact ⟨[],rfl,rfl⟩
    | tail _ step ih' =>
      obtain ⟨a,shape,last⟩ := ih'
      obtain ⟨b,shape',last'⟩ := ih step.1
      exact ⟨a ++ b,by rw [shape,shape',List.append_assoc],by rw [last',last,List.getLast?_append,Option.or_assoc]⟩
  | group r ih =>
    obtain ⟨z,reads,rfl⟩ := reads
    obtain ⟨taken,shape,last⟩ := ih reads
    exact ⟨taken,shape,last⟩

/-- An expression without boundaries and groups reads the words of a language. -/
def Spells (r : Regex α) (language : List α → Prop) : Prop :=
  ∀ x y, r.Reads x y ↔ ∃ taken rest, x.rest = taken ++ rest ∧ language taken ∧ y = x.past taken rest

theorem spells_nothing : Spells (nothing : Regex α) (fun taken => taken = []) := by
  intro x y
  constructor
  · rintro rfl
    exact ⟨[],_,rfl,rfl,rfl⟩
  · rintro ⟨taken,rest,shape,rfl,rfl⟩
    rw [List.nil_append] at shape
    subst shape
    rfl

theorem spells_one (p : α → Bool) : Spells (one p) (fun taken => ∃ c, taken = [c] ∧ p c = true) := by
  intro x y
  constructor
  · rintro ⟨c,rest,shape,holds,rfl⟩
    exact ⟨[c],rest,shape,⟨c,rfl,holds⟩,rfl⟩
  · rintro ⟨taken,rest,shape,⟨c,rfl,holds⟩,rfl⟩
    exact ⟨c,rest,shape,holds,rfl⟩

theorem spells_seq {r s : Regex α} {A B : List α → Prop} (first : Spells r A) (second : Spells s B) :
    Spells (seq r s) (fun taken => ∃ a b, taken = a ++ b ∧ A a ∧ B b) := by
  intro x y
  constructor
  · rintro ⟨z,reads,more⟩
    obtain ⟨a,rest,shape,holds,rfl⟩ := (first x z).mp reads
    obtain ⟨b,rest',shape',holds',rfl⟩ := (second _ y).mp more
    exact ⟨a ++ b,rest',by rw [shape,List.append_assoc]; exact congrArg _ shape',⟨a,b,rfl,holds,holds'⟩,x.past_past a b rest rest'⟩
  · rintro ⟨taken,rest,shape,⟨a,b,rfl,holds,holds'⟩,rfl⟩
    rw [List.append_assoc] at shape
    exact ⟨x.past a (b ++ rest),(first x _).mpr ⟨a,b ++ rest,shape,holds,rfl⟩,
      (second _ _).mpr ⟨b,rest,rfl,holds',(x.past_past a b _ rest).symm⟩⟩

theorem spells_alt {r s : Regex α} {A B : List α → Prop} (first : Spells r A) (second : Spells s B) :
    Spells (alt r s) (fun taken => A taken ∨ B taken) := by
  intro x y
  rw [Reads,first x y,second x y]
  constructor
  · rintro (⟨taken,rest,shape,holds,same⟩ | ⟨taken,rest,shape,holds,same⟩)
    · exact ⟨taken,rest,shape,.inl holds,same⟩
    · exact ⟨taken,rest,shape,.inr holds,same⟩
  · rintro ⟨taken,rest,shape,holds | holds,same⟩
    · exact .inl ⟨taken,rest,shape,holds,same⟩
    · exact .inr ⟨taken,rest,shape,holds,same⟩

theorem Spells.congr {r : Regex α} {A B : List α → Prop} (spells : Spells r A) (same : ∀ taken,A taken ↔ B taken) : Spells r B := by
  intro x y
  simp only [spells x y,same]

theorem spells_star {r : Regex α} {A : List α → Prop} (spells : Spells r A) (some_ : ∀ word,A word → word ≠ []) :
    Spells (star r) (fun taken => ∃ words, taken = List.flatten words ∧ ∀ word ∈ words,A word) := by
  intro x y
  constructor
  · intro reads
    induction reads with
    | refl => exact ⟨[],x.rest,rfl,⟨[],rfl,fun _ wrong => (by cases wrong)⟩,rfl⟩
    | tail _ step ih =>
      obtain ⟨_,rest,shape,⟨words,rfl,all⟩,rfl⟩ := ih
      obtain ⟨word,rest',shape',holds,rfl⟩ := (spells _ _).mp step.1
      refine ⟨words.flatten ++ word,rest',?_,⟨words ++ [word],by simp,?_⟩,x.past_past words.flatten word rest rest'⟩
      · rw [shape,show rest = word ++ rest' from shape',List.append_assoc]
      · intro other member
        obtain early | late := List.mem_append.mp member
        · exact all other early
        · obtain rfl := List.mem_singleton.mp late
          exact holds
  · rintro ⟨_,rest,shape,⟨words,rfl,all⟩,rfl⟩
    induction words generalizing x with
    | nil =>
      rw [List.flatten_nil,List.nil_append] at shape
      subst shape
      exact .refl
    | cons word words ih =>
      obtain ⟨first,all⟩ := List.forall_mem_cons.mp all
      rw [List.flatten_cons,List.append_assoc] at shape
      refine .head (b := x.past word (words.flatten ++ rest)) ⟨(spells x _).mpr ⟨word,_,shape,first,rfl⟩,?_⟩ ?_
      · have long := List.length_pos_iff.mpr (some_ word first)
        rw [shape,List.length_append]
        exact Nat.lt_add_of_pos_left long
      · rw [List.flatten_cons,← x.past_past word words.flatten (words.flatten ++ rest) rest]
        exact ih _ all rfl

theorem spells_star_one (p : α → Bool) : Spells (star (one p)) (fun taken => ∀ c ∈ taken,p c = true) := by
  have one_ : ∀ word : List α, (∃ c, word = [c] ∧ p c = true) → word ≠ [] := by
    rintro _ ⟨c,rfl,_⟩
    exact List.cons_ne_nil _ _
  refine (spells_star (spells_one p) one_).congr (fun taken => ?_)
  constructor
  · rintro ⟨words,rfl,all⟩ c member
    obtain ⟨word,inside,holds⟩ := List.mem_flatten.mp member
    obtain ⟨d,rfl,holds'⟩ := all word inside
    obtain rfl := List.mem_singleton.mp holds
    exact holds'
  · intro all
    refine ⟨taken.map (fun c => [c]),by simp [← List.flatMap_def],fun word member => ?_⟩
    obtain ⟨c,inside,rfl⟩ := List.mem_map.mp member
    exact ⟨c,rfl,all c inside⟩

theorem spells_plus (p : α → Bool) : Spells (plus (one p)) (fun taken => taken ≠ [] ∧ ∀ c ∈ taken,p c = true) := by
  refine (spells_seq (spells_one p) (spells_star_one p)).congr (fun taken => ?_)
  constructor
  · rintro ⟨_,b,rfl,⟨c,rfl,holds⟩,all⟩
    exact ⟨List.cons_ne_nil _ _,List.forall_mem_cons.mpr ⟨holds,all⟩⟩
  · rintro ⟨some_,all⟩
    cases taken with
    | nil => exact absurd rfl some_
    | cons c b =>
      obtain ⟨holds,all⟩ := List.forall_mem_cons.mp all
      exact ⟨[c],b,rfl,⟨c,rfl,holds⟩,all⟩

theorem spells_optional {r : Regex α} {A : List α → Prop} (spells : Spells r A) :
    Spells (optional r) (fun taken => A taken ∨ taken = []) := spells_alt spells spells_nothing

theorem spells_literal [DecidableEq α] (fold : α → α) (word : List α) : Spells (literal fold word) (fun taken => taken.map fold = word) := by
  induction word with
  | nil => exact spells_nothing.congr (fun taken => List.map_eq_nil_iff.symm)
  | cons a word ih =>
    refine (spells_seq (spells_one _) ih).congr (fun taken => ?_)
    constructor
    · rintro ⟨_,b,rfl,⟨c,rfl,same⟩,spelled⟩
      rw [List.singleton_append,List.map_cons,spelled,of_decide_eq_true same]
    · intro spelled
      cases taken with
      | nil => cases spelled
      | cons c taken =>
        obtain ⟨first,spelled⟩ := List.cons.inj spelled
        exact ⟨[c],taken,rfl,⟨c,rfl,decide_eq_true first⟩,spelled⟩

/-- One of several words. -/
theorem spells_words [DecidableEq α] (fold : α → α) (word : List α) (others : List (List α)) :
    Spells (anyOf (literal fold word) (others.map (literal fold))) (fun taken => taken.map fold ∈ word :: others) := by
  induction others generalizing word with
  | nil => exact (spells_literal fold word).congr (fun taken => List.mem_singleton.symm)
  | cons next rest ih => exact (spells_alt (spells_literal fold word) (ih next)).congr (fun taken => List.mem_cons.symm)

/-- A group is what was read. -/
theorem Spells.group {r : Regex α} {A : List α → Prop} (spells : Spells r A) (x y : Place α) :
    (group r).Reads x y ↔ ∃ taken rest, x.rest = taken ++ rest ∧ A taken ∧ y = ⟨taken.getLast?.or x.before,rest,taken⟩ := by
  have captured {taken rest : List α} (shape : x.rest = taken ++ rest) : x.rest.take (x.rest.length - rest.length) = taken := by
    rw [shape,List.length_append,Nat.add_sub_cancel,List.take_left]
  constructor
  · rintro ⟨z,reads,rfl⟩
    obtain ⟨taken,rest,shape,holds,rfl⟩ := (spells x z).mp reads
    exact ⟨taken,rest,shape,holds,by rw [show (x.past taken rest).rest = rest from rfl,captured shape]; rfl⟩
  · rintro ⟨taken,rest,shape,holds,rfl⟩
    exact ⟨x.past taken rest,(spells x _).mpr ⟨taken,rest,shape,holds,rfl⟩,
      by rw [show (x.past taken rest).rest = rest from rfl,captured shape]; rfl⟩

theorem iterate_greedy {p : α → Bool} {k : Place α → Option β} {v : β} {n : Nat} {x : Place α} (enough : x.rest.length ≤ n)
    (done : k (x.past (x.rest.takeWhile p) (x.rest.dropWhile p)) = some v) :
    iterate (fun y next => (one p).run y next) n x k = some v := by
  induction n generalizing x with
  | zero =>
    have empty : x.rest = [] := List.length_eq_zero_iff.mp (by omega)
    obtain ⟨before,rest,captured⟩ := x
    subst empty
    exact done
  | succ n ih =>
    obtain ⟨before,rest,captured⟩ := x
    rw [iterate]
    cases rest with
    | nil => exact done
    | cons c rest =>
      by_cases holds : p c = true
      · have next := @ih (Place.past ⟨before,c :: rest,captured⟩ [c] rest) (by simpa [Place.past] using enough) (by
          rw [Place.past_past]
          simpa [Place.past,holds] using done)
        simp only [run,holds,if_true,List.length_cons,Nat.lt_succ_self]
        exact Option.or_eq_some_iff.mpr (.inl next)
      · simp only [run,holds]
        simpa [Place.past,holds] using done

/-- Nothing is left out that could be taken. -/
theorem star_greedy {p : α → Bool} {k : Place α → Option β} {v : β} {x : Place α}
    (done : k (x.past (x.rest.takeWhile p) (x.rest.dropWhile p)) = some v) : (star (one p)).run x k = some v :=
  iterate_greedy (le_refl _) done

end Regex

/-! ### Replacing -/

/-- A piece of a text: a unit that is copied, or a match. -/
inductive Piece (α : Type) where
  | copied (c : α)
  | found (y : Place α)

/-- The pieces of a text. The expressions are such that they take at least one unit. -/
def pieces (r : Regex α) : Nat → Option α → List α → List (Piece α)
  | 0,_,_ => []
  | _ + 1,_,[] => []
  | n + 1,before,c :: rest =>
    match r.exec before (c :: rest) with
    | some y => .found y :: pieces r n y.before y.rest
    | none => .copied c :: pieces r n (some c) rest

/-- The pieces with each match replaced, by what `template` makes of the group. -/
def joined (template : List α → List α) (ps : List (Piece α)) : List α :=
  ps.flatMap (fun
    | .copied c => [c]
    | .found y => template y.captured)

theorem joined_copied (template : List α → List α) (c : α) (ps : List (Piece α)) :
    joined template (.copied c :: ps) = c :: joined template ps := rfl

theorem joined_found (template : List α → List α) (y : Place α) (ps : List (Piece α)) :
    joined template (.found y :: ps) = template y.captured ++ joined template ps := rfl

def replaceAll (r : Regex α) (template : List α → List α) (text : List α) : List α :=
  joined template (pieces r text.length none text)

def matchAll (r : Regex α) (text : List α) : List (Place α) :=
  (pieces r text.length none text).filterMap (fun
    | .copied _ => none
    | .found y => some y)

/-- How a text is cut into pieces. -/
inductive Cut (r : Regex α) : Option α → List α → List (Piece α) → Prop where
  | done {before : Option α} : Cut r before [] []
  | copy {before : Option α} {c : α} {rest : List α} {ps : List (Piece α)} (none_ : r.exec before (c :: rest) = none)
      (more : Cut r (some c) rest ps) : Cut r before (c :: rest) (.copied c :: ps)
  | find {before : Option α} {text : List α} {y : Place α} {ps : List (Piece α)} (found : r.exec before text = some y)
      (more : Cut r y.before y.rest ps) : Cut r before text (.found y :: ps)

/-- Every reading takes a unit. -/
def Taking (r : Regex α) : Prop := ∀ {x y : Place α}, r.Reads x y → y.rest.length < x.rest.length

theorem taking_left {r s : Regex α} (taking : Taking r) : Taking (.seq r s) := by
  rintro x y ⟨z,reads,more⟩
  obtain ⟨taken,shape,_⟩ := s.reads_taken more
  have first := taking reads
  rw [shape,List.length_append] at first
  omega

theorem taking_right {r s : Regex α} (taking : Taking s) : Taking (.seq r s) := by
  rintro x y ⟨z,reads,more⟩
  obtain ⟨taken,shape,_⟩ := r.reads_taken reads
  have second := taking more
  rw [shape,List.length_append]
  omega

theorem taking_group {r : Regex α} (taking : Taking r) : Taking (.group r) := by
  rintro x y ⟨z,reads,rfl⟩
  have shorter := taking reads
  exact shorter

theorem Regex.Spells.taking {r : Regex α} {A : List α → Prop} (spells : r.Spells A) (some_ : ∀ word,A word → word ≠ []) : Taking r := by
  intro x y reads
  obtain ⟨taken,rest,shape,holds,rfl⟩ := (spells x y).mp reads
  have long := List.length_pos_iff.mpr (some_ taken holds)
  rw [shape,List.length_append]
  exact Nat.lt_add_of_pos_left long

theorem pieces_cut {r : Regex α} (taking : Taking r) {n : Nat} {before : Option α} {text : List α} (enough : text.length ≤ n) :
    Cut r before text (pieces r n before text) := by
  induction n generalizing before text with
  | zero =>
    obtain rfl : text = [] := List.length_eq_zero_iff.mp (by omega)
    exact .done
  | succ n ih =>
    cases text with
    | nil => exact .done
    | cons c rest =>
      rw [List.length_cons] at enough
      rw [pieces]
      split
      · rename_i y found
        obtain ⟨z,reads,same⟩ := r.run_sound found
        cases same
        have shorter := taking reads
        rw [List.length_cons] at shorter
        exact .find found (ih (by omega))
      · rename_i none_
        exact .copy none_ (ih (by omega))

theorem text_cut {r : Regex α} (taking : Taking r) (text : List α) : Cut r none text (pieces r text.length none text) :=
  pieces_cut taking (le_refl text.length)

theorem cut_nil {r : Regex α} (taking : Taking r) {before : Option α} {ps : List (Piece α)} (cut : Cut r before [] ps) : ps = [] := by
  cases cut with
  | done => rfl
  | find found _ =>
    obtain ⟨z,reads,_⟩ := r.run_sound found
    have := taking reads
    exact absurd this (Nat.not_lt_zero _)

/-- Up to the first match, the text is copied. -/
theorem cut_first {r : Regex α} (template : List α → List α) {before : Option α} {text : List α} {ps : List (Piece α)}
    (cut : Cut r before text ps) : joined template ps = text ∨ ∃ u m o y, text = u ++ m ∧ r.exec (u.getLast?.or before) m = some y ∧
      joined template ps = u ++ (template y.captured ++ o) := by
  induction cut with
  | done => exact .inl rfl
  | @copy before c rest ps _ _ ih =>
    obtain same | ⟨u,m,o,y,rfl,found,same⟩ := ih
    · exact .inl (congrArg (c :: ·) same)
    · exact .inr ⟨c :: u,m,o,y,rfl,(last_cons c u before).symm ▸ found,congrArg (c :: ·) same⟩
  | @find before text y ps found _ _ => exact .inr ⟨[],text,joined template ps,y,rfl,found,rfl⟩

/-- What is copied is of the text. -/
theorem Cut.copied_mem {r : Regex α} {before : Option α} {text : List α} {ps : List (Piece α)} {c : α} (cut : Cut r before text ps)
    (member : .copied c ∈ ps) : c ∈ text := by
  induction cut with
  | done => cases member
  | copy _ _ ih =>
    rcases List.mem_cons.mp member with same | later
    · cases same
      exact List.mem_cons_self
    · exact List.mem_cons_of_mem _ (ih later)
  | @find before text y ps found _ ih =>
    rcases List.mem_cons.mp member with never | later
    · cases never
    · obtain ⟨z,reads,same⟩ := r.run_sound found
      cases same
      obtain ⟨taken,shape,_⟩ := r.reads_taken reads
      have shape : text = taken ++ y.rest := shape
      exact shape ▸ List.mem_append_right taken (ih later)

/-! ### What stays -/

/-- At every place of a text. -/
def Everywhere (P : Option α → List α → Prop) : Option α → List α → Prop
  | before,[] => P before []
  | before,c :: rest => P before (c :: rest) ∧ Everywhere P (some c) rest

theorem Everywhere.here {P : Option α → List α → Prop} {before : Option α} {text : List α} (all : Everywhere P before text) :
    P before text := by
  cases text with
  | nil => exact all
  | cons c rest => exact all.1

theorem Everywhere.imp {P Q : Option α → List α → Prop} (weaker : ∀ {before : Option α} {text : List α},P before text → Q before text)
    {before : Option α} {text : List α} (all : Everywhere P before text) : Everywhere Q before text := by
  induction text generalizing before with
  | nil => exact weaker all
  | cons c rest ih => exact ⟨weaker all.1,ih all.2⟩

theorem Everywhere.after {P : Option α → List α → Prop} {before : Option α} {a b : List α} (all : Everywhere P before (a ++ b)) :
    Everywhere P (a.getLast?.or before) b := by
  induction a generalizing before with
  | nil => exact all
  | cons c a ih =>
    rw [last_cons]
    exact ih all.2

/-- What is left after a match is a part of the text. -/
theorem Everywhere.rest {P : Option α → List α → Prop} {r : Regex α} {before : Option α} {text : List α} {y : Place α}
    (all : Everywhere P before text) (found : r.exec before text = some y) : Everywhere P y.before y.rest := by
  obtain ⟨z,reads,same⟩ := r.run_sound found
  cases same
  obtain ⟨taken,shape,last⟩ := r.reads_taken reads
  have shape : text = taken ++ y.rest := shape
  rw [last]
  exact (shape ▸ all).after

theorem Everywhere.append {P : Option α → List α → Prop} {before : Option α} {a b : List α}
    (inside : ∀ a' c a'', a = a' ++ c :: a'' → P (a'.getLast?.or before) (c :: a'' ++ b)) (after : Everywhere P (a.getLast?.or before) b) :
    Everywhere P before (a ++ b) := by
  induction a generalizing before with
  | nil => exact after
  | cons c a ih =>
    refine ⟨inside [] c a rfl,ih (fun a' d a'' shape => ?_) ?_⟩
    · have here := inside (c :: a') d a'' (by rw [shape]; rfl)
      rwa [last_cons] at here
    · rwa [last_cons] at after

/-- Only the first place depends on what stands before the text. -/
theorem Everywhere.change {P : Option α → List α → Prop} {before before' : Option α} {text : List α} (all : Everywhere P before text)
    (here : P before' text) : Everywhere P before' text := by
  cases text with
  | nil => exact here
  | cons c rest => exact ⟨here,all.2⟩

/-- Where a match begins, even in a text that is cut, the replacement of the match stands
    already. -/
def Settled (r : Regex α) (template : List α → List α) (before : Option α) (text : List α) : Prop :=
  ∀ n y, r.exec before (text.take n) = some y →
    ∃ l, text = template y.captured ++ l ∧ y.rest = l.take (n - (template y.captured).length)

/-- A text that is settled everywhere and then cut is not changed, but for a replacement
    that the cut shortened: it is completed. -/
theorem settled_take {r : Regex α} {template : List α → List α} (taking : Taking r) {before : Option α} {text : List α}
    (settled : Everywhere (Settled r template) before text) {n : Nat} {ps : List (Piece α)} (cut : Cut r before (text.take n) ps) :
    ∃ m, n ≤ m ∧ joined template ps = text.take m := by
  generalize short : text.take n = shortened at cut
  induction cut generalizing text n with
  | done => exact ⟨n,le_refl n,short.symm⟩
  | @copy before c rest ps none_ more ih =>
    cases text with
    | nil =>
      rw [List.take_nil] at short
      cases short
    | cons d text =>
      cases n with
      | zero => cases short
      | succ n =>
        rw [List.take_succ_cons] at short
        obtain ⟨rfl,rfl⟩ := List.cons.inj short
        obtain ⟨m,long,same⟩ := ih settled.2 rfl
        refine ⟨m + 1,by omega,?_⟩
        rw [List.take_succ_cons,← same]
        rfl
  | @find before shortened y ps found more ih =>
    subst short
    obtain ⟨l,rfl,left⟩ := settled.here n y found
    by_cases whole : (template y.captured).length ≤ n
    · obtain ⟨z,reads,same⟩ := r.run_sound found
      cases same
      obtain ⟨taken,shape,last⟩ := r.reads_taken reads
      have same : taken = template y.captured := by
        rw [left] at shape
        exact List.append_cancel_right (shape.symm.trans (by rw [List.take_append,List.take_of_length_le whole]))
      obtain ⟨m,long,same'⟩ := @ih l (by rw [last,same]; exact settled.after) _ left.symm
      refine ⟨(template y.captured).length + m,by omega,?_⟩
      rw [List.take_length_add_append,← same']
      rfl
    · have nothing : y.rest = [] := by rw [left,Nat.sub_eq_zero_of_le (by omega),List.take_zero]
      rw [nothing] at more
      obtain rfl := cut_nil taking more
      refine ⟨(template y.captured).length,by omega,?_⟩
      rw [List.take_left']
      · exact List.append_nil _
      · rfl

/-- A match is its own replacement, or at the end of the text the beginning of it. -/
def Replaced (r : Regex α) (template : List α → List α) (before : Option α) (text : List α) : Prop :=
  ∀ y, r.exec before text = some y → text = template y.captured ++ y.rest ∨ (y.rest = [] ∧ text <+: template y.captured)

theorem settled_replaced {r : Regex α} {template : List α → List α} {before : Option α} {text : List α}
    (settled : Settled r template before text) (n : Nat) : Replaced r template before (text.take n) := by
  intro y found
  obtain ⟨l,rfl,left⟩ := settled n y found
  rw [List.take_append,left]
  by_cases whole : (template y.captured).length ≤ n
  · exact .inl (by rw [List.take_of_length_le whole])
  · rw [Nat.sub_eq_zero_of_le (by omega),List.take_zero,List.append_nil]
    exact .inr ⟨rfl,List.take_prefix n _⟩

/-- What holds of the beginnings of a text everywhere holds everywhere of a beginning. -/
theorem Everywhere.take {P Q : Option α → List α → Prop} (shorter : ∀ {before : Option α} {text : List α},P before text → ∀ n,Q before (text.take n))
    {before : Option α} {text : List α} (all : Everywhere P before text) (n : Nat) : Everywhere Q before (text.take n) := by
  induction text generalizing before n with
  | nil =>
    rw [List.take_nil]
    exact shorter all 0
  | cons c rest ih =>
    cases n with
    | zero =>
      rw [List.take_zero]
      exact shorter all.1 0
    | succ n =>
      rw [List.take_succ_cons]
      exact ⟨shorter all.1 (n + 1),ih all.2 n⟩

end Expbuild.Patterns
