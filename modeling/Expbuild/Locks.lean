import Expbuild.Programs

/-!
Transactions that hold locks until they end. Which locks a thread holds is read
off its own history: those that the statements since its last transaction began
took. A statement waits while another thread holds a lock that conflicts with
one it takes, so two threads never hold conflicting locks (`Exclusive.step`).
-/
namespace Expbuild.Locks
open Expbuild.Programs

/-- How statements lock: what a statement takes, which events begin or end a
    transaction, and which locks two transactions cannot hold together. -/
structure Discipline {Req : Type} (Ans : Req → Type) (K : Type) where
  takes : Req → List K
  ends : Event Ans → Bool
  conflicts : K → K → Bool
  symmetric : ∀ k k', conflicts k k' = conflicts k' k

variable {Req K ε Tag : Type} {Ans : Req → Type} {program : Tag → Prog Req Ans ε Unit}
  (d : Discipline Ans K)

/-- The events of the transaction that is open, the newest first. -/
def current : History Ans → History Ans
  | [] => []
  | e :: rest => bif d.ends e then [] else e :: current rest

/-- The locks that are held at the end of a history. -/
def held (history : History Ans) : List K := (current d history).flatMap (fun e => d.takes e.1)

/-- Whether no thread but the given one holds a lock that conflicts with what the
    statement takes. -/
def available (threads : List (Thread program)) (i : Nat) (r : Req) : Bool :=
  threads.zipIdx.all (fun other => other.2 == i ||
    (d.takes r).all (fun k => (held d other.1.history).all (fun k' => !d.conflicts k k')))

variable {d} {threads : List (Thread program)}

theorem mem_current {history : History Ans} {e : Event Ans} (member : e ∈ current d history) : e ∈ history := by
  induction history with
  | nil => exact member
  | cons first rest ih =>
    cases ends : d.ends first with
    | true => simp [current,ends] at member
    | false =>
      simp only [current,ends,cond_false,List.mem_cons] at member
      rcases member with rfl | older
      · exact List.mem_cons_self
      · exact List.mem_cons_of_mem _ (ih older)

theorem mem_held {history : History Ans} {k : K} : k ∈ held d history ↔ ∃ e ∈ current d history, k ∈ d.takes e.1 := by
  simp [held]

/-- What is held after one more event was held before, or the event took it. -/
theorem held_cons {history : History Ans} {e : Event Ans} {k : K} (holds : k ∈ held d (e :: history)) :
    k ∈ d.takes e.1 ∨ k ∈ held d history := by
  obtain ⟨old,member,takes⟩ := mem_held.mp holds
  cases ends : d.ends e with
  | true => simp [current,ends] at member
  | false =>
    simp only [current,ends,cond_false,List.mem_cons] at member
    rcases member with rfl | older
    · exact .inl takes
    · exact .inr (mem_held.mpr ⟨old,older,takes⟩)

theorem available_iff {i : Nat} {r : Req} : available d threads i r = true ↔
    ∀ j t, threads[j]? = some t → j ≠ i → ∀ k ∈ d.takes r, ∀ k' ∈ held d t.history, d.conflicts k k' = false := by
  simp only [available,List.all_eq_true,Bool.or_eq_true,beq_iff_eq,Bool.not_eq_true',Prod.forall]
  constructor
  · intro free j t found other k takes k' holds
    rcases free t j (List.mk_mem_zipIdx_iff_getElem?.mpr found) with same | apart
    · exact absurd same other
    · exact apart k takes k' holds
  · intro free t j found
    by_cases same : j = i
    · exact .inl same
    · exact .inr (free j t (List.mk_mem_zipIdx_iff_getElem?.mp found) same)

/-- No two threads hold conflicting locks. -/
def Exclusive (d : Discipline Ans K) (threads : List (Thread program)) : Prop :=
  ∀ (i j : Nat) (t t' : Thread program), threads[i]? = some t → threads[j]? = some t' → i ≠ j →
    ∀ k ∈ held d t.history, ∀ k' ∈ held d t'.history, d.conflicts k k' = false

theorem Exclusive.nil : Exclusive d ([] : List (Thread program)) := by
  intro i j t t' found
  simp at found

/-- The element at an index of a list that has grown by one. -/
theorem getElem?_concat {α : Type} {xs : List α} {a x : α} {i : Nat} (found : (xs ++ [a])[i]? = some x) :
    xs[i]? = some x ∨ i = xs.length ∧ x = a := by
  by_cases small : i < xs.length
  · rw [List.getElem?_append_left small] at found
    exact .inl found
  · rw [List.getElem?_append_right (Nat.le_of_not_lt small)] at found
    have last : i - xs.length = 0 := by
      by_contra more
      simp [more] at found
    rw [last] at found
    exact .inr ⟨by omega,(Option.some.inj found).symm⟩

/-- A thread that has done nothing holds nothing. -/
theorem Exclusive.spawn (exclusive : Exclusive d threads) (tag : Tag) :
    Exclusive d (threads ++ [Thread.spawn tag]) := by
  intro i j t t' found found' other k holds k' holds'
  rcases getElem?_concat found with old | ⟨_,rfl⟩
  · rcases getElem?_concat found' with old' | ⟨_,rfl⟩
    · exact exclusive i j t t' old old' other k holds k' holds'
    · simp [Thread.spawn,held,current] at holds'
  · simp [Thread.spawn,held,current] at holds

/-- A thread makes a statement whose locks are available. -/
theorem Exclusive.step (exclusive : Exclusive d threads) {i : Nat} {t t' : Thread program} {r : Req} {x : Ans r}
    (found : threads[i]? = some t) (free : available d threads i r = true) (made : t'.history = ⟨r,x⟩ :: t.history) :
    Exclusive d (threads.set i t') := by
  -- what the thread holds now conflicts with no other
  have apart : ∀ j other, threads[j]? = some other → j ≠ i → ∀ k ∈ held d t'.history, ∀ k' ∈ held d other.history,
      d.conflicts k k' = false := by
    intro j other there distinct k holds k' holds'
    rw [made] at holds
    rcases held_cons holds with takes | before
    · exact available_iff.mp free j other there distinct k takes k' holds'
    · exact exclusive i j t other found there (Ne.symm distinct) k before k' holds'
  intro a b u u' foundA foundB other k holds k' holds'
  rw [List.getElem?_set] at foundA foundB
  by_cases first : i = a
  · subst first
    have second : i ≠ b := other
    simp only [second,if_false] at foundB
    obtain rfl : t' = u := by simp at foundA; exact foundA.2
    exact apart b u' foundB (Ne.symm second) k holds k' holds'
  · simp only [first,if_false] at foundA
    by_cases second : i = b
    · subst second
      obtain rfl : t' = u' := by simp at foundB; exact foundB.2
      rw [d.symmetric]
      exact apart a u foundA (Ne.symm first) k' holds' k holds
    · simp only [second,if_false] at foundB
      exact exclusive a b u u' foundA foundB other k holds k' holds'

end Expbuild.Locks
