import Mathlib

/-!
Programs that talk to services. A program makes requests one after the other,
each answered before the next is chosen, and ends with a value or an error.
What a program knows at any point is the history of its requests and their
answers, so a rule about its behaviour is a licence: a condition on the history
under which it may make a request. `Licensed` is proved once for a program, with
a rule for every way to compose programs, and then holds of every request that
any interleaved execution of the program ever makes (`Ran.licensed`).
-/
namespace Expbuild.Programs

/-- A program over requests `r : Req`, answered in `Ans r`, that ends with a
    value in `α` or an error in `ε`. -/
inductive Prog (Req : Type) (Ans : Req → Type) (ε α : Type) where
  | pure (a : α)
  | throw (e : ε)
  | request (r : Req) (next : Ans r → Prog Req Ans ε α)

section
variable {Req : Type} {Ans : Req → Type} {ε α β : Type}

namespace Prog

def bind (p : Prog Req Ans ε α) (f : α → Prog Req Ans ε β) : Prog Req Ans ε β :=
  match p with
  | .pure a => f a
  | .throw e => .throw e
  | .request r next => .request r (fun x => (next x).bind f)

/-- Runs the handler where the program ends with an error. -/
def tryCatch (p : Prog Req Ans ε α) (handler : ε → Prog Req Ans ε α) : Prog Req Ans ε α :=
  match p with
  | .pure a => .pure a
  | .throw e => handler e
  | .request r next => .request r (fun x => (next x).tryCatch handler)

/-- The value of a program, or the error that it throws. -/
def attempt (p : Prog Req Ans ε α) : Prog Req Ans ε (Except ε α) :=
  match p with
  | .pure a => .pure (.ok a)
  | .throw e => .pure (.error e)
  | .request r next => .request r (fun x => (next x).attempt)

/-- The program of a client that is served through other requests. -/
def translate {Req' : Type} {Ans' : Req' → Type} {ε' : Type} (call : Req → Req')
    (answer : (r : Req) → Ans' (call r) → Ans r) (error : ε → ε') :
    Prog Req Ans ε α → Prog Req' Ans' ε' α
  | .pure a => .pure a
  | .throw e => .throw (error e)
  | .request r next => .request (call r) (fun x => (next (answer r x)).translate call answer error)

instance : Monad (Prog Req Ans ε) where
  pure := .pure
  bind := bind

instance : MonadExcept ε (Prog Req Ans ε) where
  throw := .throw
  tryCatch := tryCatch

end Prog

/-- A request together with the answer it got. -/
abbrev Event {Req : Type} (Ans : Req → Type) := (r : Req) × Ans r

/-- All events so far, the newest first. -/
abbrev History {Req : Type} (Ans : Req → Type) := List (Event Ans)

/-- The program `p` has got to `q`, with the events of the history. -/
inductive Ran (p : Prog Req Ans ε α) : History Ans → Prog Req Ans ε α → Prop where
  | start : Ran p [] p
  | answered {history : History Ans} {r : Req} {next : Ans r → Prog Req Ans ε α} (x : Ans r) :
      Ran p history (.request r next) → Ran p (⟨r,x⟩ :: history) (next x)

/-- From the given history on, every request is licensed by the history before
    it, and the program ends in the postcondition. -/
def Licensed (licence : History Ans → Req → Prop) (post : History Ans → Except ε α → Prop) :
    History Ans → Prog Req Ans ε α → Prop
  | history, .pure a => post history (.ok a)
  | history, .throw e => post history (.error e)
  | history, .request r next =>
    licence history r ∧ ∀ x, Licensed licence post (⟨r,x⟩ :: history) (next x)

section
variable {licence : History Ans → Req → Prop} {post : History Ans → Except ε α → Prop} {history : History Ans}

@[simp] theorem licensed_pure (a : α) :
    Licensed licence post history (pure a : Prog Req Ans ε α) ↔ post history (.ok a) := Iff.rfl

@[simp] theorem licensed_throw (e : ε) :
    Licensed licence post history (throw e : Prog Req Ans ε α) ↔ post history (.error e) := Iff.rfl

@[simp] theorem licensed_request (r : Req) (next : Ans r → Prog Req Ans ε α) :
    Licensed licence post history (.request r next) ↔
      licence history r ∧ ∀ x, Licensed licence post (⟨r,x⟩ :: history) (next x) := Iff.rfl

/-- The postcondition of a program that continues with `f`. -/
def andThen (licence : History Ans → Req → Prop) (post : History Ans → Except ε β → Prop)
    (f : α → Prog Req Ans ε β) : History Ans → Except ε α → Prop
  | history, .ok a => Licensed licence post history (f a)
  | history, .error e => post history (.error e)

/-- The postcondition of a program whose errors go to a handler. -/
def orElse (licence : History Ans → Req → Prop) (post : History Ans → Except ε α → Prop)
    (handler : ε → Prog Req Ans ε α) : History Ans → Except ε α → Prop
  | history, .ok a => post history (.ok a)
  | history, .error e => Licensed licence post history (handler e)

theorem licensed_bind {post : History Ans → Except ε β → Prop} (p : Prog Req Ans ε α) (f : α → Prog Req Ans ε β) :
    Licensed licence post history (p >>= f) ↔ Licensed licence (andThen licence post f) history p := by
  change Licensed licence post history (p.bind f) ↔ _
  induction p generalizing history with
  | pure a => rfl
  | throw e => rfl
  | request r next ih => exact and_congr_right (fun _ => forall_congr' (fun x => ih x))

theorem licensed_tryCatch (p : Prog Req Ans ε α) (handler : ε → Prog Req Ans ε α) :
    Licensed licence post history (tryCatch p handler) ↔ Licensed licence (orElse licence post handler) history p := by
  change Licensed licence post history (p.tryCatch handler) ↔ _
  induction p generalizing history with
  | pure a => rfl
  | throw e => rfl
  | request r next ih => exact and_congr_right (fun _ => forall_congr' (fun x => ih x))

theorem licensed_attempt {post : History Ans → Except ε β → Prop} (p : Prog Req Ans ε α)
    (f : Except ε α → Prog Req Ans ε β) : Licensed licence post history (p.attempt >>= f) ↔
      Licensed licence (fun later result => Licensed licence post later (f result)) history p := by
  rw [licensed_bind]
  induction p generalizing history with
  | pure a => rfl
  | throw e => rfl
  | request r next ih => exact and_congr_right (fun _ => forall_congr' (fun x => ih x))

/-- A weaker licence and a postcondition that need only hold of later histories. -/
theorem Licensed.mono {other : History Ans → Req → Prop} {final : History Ans → Except ε α → Prop}
    {p : Prog Req Ans ε α} (keeps : Licensed licence post history p)
    (weaker : ∀ later r, history <:+ later → licence later r → other later r)
    (ends : ∀ later result, history <:+ later → post later result → final later result) :
    Licensed other final history p := by
  induction p generalizing history with
  | pure a => exact ends _ _ List.suffix_rfl keeps
  | throw e => exact ends _ _ List.suffix_rfl keeps
  | request r next ih =>
    refine ⟨weaker _ _ List.suffix_rfl keeps.1,fun x => ih x (keeps.2 x) ?_ ?_⟩
    · intro later r' after; exact weaker later r' ((List.suffix_cons _ _).trans after)
    · intro later result after; exact ends later result ((List.suffix_cons _ _).trans after)

/-- A program that goes on from what the first part of it is known to end with. -/
theorem licensed_then {post : History Ans → Except ε β → Prop} {middle : History Ans → Except ε α → Prop} {p : Prog Req Ans ε α}
    {f : α → Prog Req Ans ε β} (first : Licensed licence middle history p)
    (rest : ∀ later a, history <:+ later → middle later (.ok a) → Licensed licence post later (f a))
    (throws : ∀ later e, history <:+ later → middle later (.error e) → post later (.error e)) :
    Licensed licence post history (p >>= f) := by
  refine (licensed_bind p f).mpr (first.mono (fun _ _ _ may => may) ?_)
  intro later result after ends
  cases result with
  | ok a => exact rest later a after ends
  | error e => exact throws later e after ends

/-- The postcondition is about returned values only. -/
def Returns (post : History Ans → α → Prop) : History Ans → Except ε α → Prop
  | later, .ok a => post later a
  | _, .error _ => True

theorem returns_pure {post : History Ans → α → Prop} {a : α} (holds : post history a) :
    Licensed licence (Returns post) history (pure a : Prog Req Ans ε α) := holds

theorem returns_throw {post : History Ans → α → Prop} (e : ε) :
    Licensed licence (Returns post) history (throw e : Prog Req Ans ε α) := trivial

theorem returns_bind {post : History Ans → β → Prop} {middle : History Ans → α → Prop} {p : Prog Req Ans ε α}
    {f : α → Prog Req Ans ε β} (first : Licensed licence (Returns middle) history p)
    (rest : ∀ later a, history <:+ later → middle later a → Licensed licence (Returns post) later (f a)) :
    Licensed licence (Returns post) history (p >>= f) := licensed_then first rest (fun _ _ _ _ => trivial)

/-- What is known of a value is not known after an error. -/
theorem returns_attempt {post : History Ans → Except ε β → Prop} {middle : History Ans → α → Prop} {p : Prog Req Ans ε α}
    {f : Except ε α → Prog Req Ans ε β} (first : Licensed licence (Returns middle) history p)
    (returned : ∀ later a, history <:+ later → middle later a → Licensed licence post later (f (.ok a)))
    (failed : ∀ later e, history <:+ later → Licensed licence post later (f (.error e))) :
    Licensed licence post history (p.attempt >>= f) := by
  refine (licensed_attempt p f).mpr (first.mono (fun _ _ _ may => may) ?_)
  intro later result after ends
  cases result with
  | ok a => exact returned later a after ends
  | error e => exact failed later e after

theorem returns_mono {post weaker : History Ans → α → Prop} {p : Prog Req Ans ε α} (first : Licensed licence (Returns post) history p)
    (ends : ∀ later a, history <:+ later → post later a → weaker later a) : Licensed licence (Returns weaker) history p := by
  refine first.mono (fun _ _ _ may => may) ?_
  intro later result after holds
  cases result with
  | ok a => exact ends later a after holds
  | error e => trivial

/-- Two licences that a program keeps, it keeps together. -/
theorem Licensed.and {other : History Ans → Req → Prop} {post final : History Ans → Except ε α → Prop} {p : Prog Req Ans ε α}
    (one : Licensed licence post history p) (two : Licensed other final history p) :
    Licensed (fun later r => licence later r ∧ other later r) (fun later result => post later result ∧ final later result) history p := by
  induction p generalizing history with
  | pure a => exact ⟨one,two⟩
  | throw e => exact ⟨one,two⟩
  | request r next ih => exact ⟨⟨one.1,two.1⟩,fun x => ih x (one.2 x) (two.2 x)⟩

end

/-- What a program is licensed to do, it has done so wherever it has got to. -/
theorem Ran.keeps {licence : History Ans → Req → Prop} {post : History Ans → Except ε α → Prop}
    {p q : Prog Req Ans ε α} {history : History Ans} (keeps : Licensed licence post [] p) (ran : Ran p history q) :
    Licensed licence post history q := by
  induction ran with
  | start => exact keeps
  | answered x _ ih => exact ih.2 x

/-- The next request of a program that has run is licensed by its history. -/
theorem Ran.licensed {licence : History Ans → Req → Prop} {post : History Ans → Except ε α → Prop}
    {p : Prog Req Ans ε α} {history : History Ans} {r : Req} {next : Ans r → Prog Req Ans ε α}
    (keeps : Licensed licence post [] p) (ran : Ran p history (.request r next)) : licence history r :=
  (ran.keeps keeps).1

/-- What every licensed request keeps of the history holds of every history. -/
theorem Ran.history {licence : History Ans → Req → Prop} {post : History Ans → Except ε α → Prop}
    {p q : Prog Req Ans ε α} {history : History Ans} (ran : Ran p history q) (holds : History Ans → Prop)
    (keeps : Licensed licence post [] p) (base : holds [])
    (step : ∀ history r x, holds history → licence history r → holds (⟨r,x⟩ :: history)) : holds history := by
  induction ran with
  | start => exact base
  | answered x before ih => exact step _ _ x ih (before.licensed keeps)

/-- The program has ended, with the events of the history. -/
def Ends (p : Prog Req Ans ε α) (history : History Ans) : Except ε α → Prop
  | .ok a => Ran p history (.pure a)
  | .error e => Ran p history (.throw e)

/-- A part of a program ends as it does on its own. -/
theorem licensed_ends (p : Prog Req Ans ε α) (past : History Ans) :
    Licensed (fun _ _ => True) (fun later result => ∃ history, later = history ++ past ∧ Ends p history result) past p := by
  -- from wherever the program has got to
  have onwards : ∀ (q : Prog Req Ans ε α) (history : History Ans), Ran p history q → Licensed (fun _ _ => True)
      (fun later result => ∃ history, later = history ++ past ∧ Ends p history result) (history ++ past) q := by
    intro q
    induction q with
    | pure a => exact fun history ran => ⟨history,rfl,ran⟩
    | throw e => exact fun history ran => ⟨history,rfl,ran⟩
    | request r next ih => exact fun history ran => ⟨trivial,fun x => ih x (⟨r,x⟩ :: history) (.answered x ran)⟩
  exact onwards p [] .start

end

/-! ### Programs that are served -/

section
variable {Req : Type} {Ans : Req → Type} {ε α β σ : Type}

/-- Runs a program to its end, with a service in some state that answers every request. -/
def Prog.runWith (serve : (r : Req) → σ → σ × Ans r) : Prog Req Ans ε α → σ → Except ε α × σ
  | .pure a,s => (.ok a,s)
  | .throw e,s => (.error e,s)
  | .request r next,s => (next (serve r s).2).runWith serve (serve r s).1

variable {serve : (r : Req) → σ → σ × Ans r} {p : Prog Req Ans ε α} {s s' : σ}

/-- The rest of a program runs where its first part has ended. -/
theorem runWith_ok {a : α} (ran : p.runWith serve s = (.ok a,s')) (f : α → Prog Req Ans ε β) :
    (p >>= f).runWith serve s = (f a).runWith serve s' := by
  change (p.bind f).runWith serve s = _
  induction p generalizing s with
  | pure b =>
    cases ran
    rfl
  | throw e => cases ran
  | request r next ih => exact ih _ ran

/-- A program that fails in its first part fails. -/
theorem runWith_error {e : ε} (ran : p.runWith serve s = (.error e,s')) (f : α → Prog Req Ans ε β) :
    (p >>= f).runWith serve s = (.error e,s') := by
  change (p.bind f).runWith serve s = _
  induction p generalizing s with
  | pure b => cases ran
  | throw e =>
    cases ran
    rfl
  | request r next ih => exact ih _ ran

end

/-! ### Requests that may fail -/

section
variable {Req : Type} {Val : Req → Type} {ε α β : Type}

/-- Makes a request that is answered by its value or by the error it throws. -/
def Prog.ask (r : Req) : Prog Req (fun r => Except ε (Val r)) ε (Val r) :=
  .request r (fun | .ok v => .pure v | .error e => .throw e)
/-- Throws unless the condition holds. -/
def Prog.require {Ans : Req → Type} (condition : Prop) [Decidable condition] (e : ε) : Prog Req Ans ε Unit :=
  if condition then .pure () else .throw e
/-- The value, or the error where it is missing. -/
def Prog.present {Ans : Req → Type} (value : Option α) (e : ε) : Prog Req Ans ε α :=
  match value with
  | some a => .pure a
  | none => .throw e

section
variable {licence : History (fun r => Except ε (Val r)) → Req → Prop} {past : History (fun r => Except ε (Val r))}

theorem licensed_ask {post : History (fun r => Except ε (Val r)) → Except ε α → Prop} (r : Req)
    (next : Val r → Prog Req (fun r => Except ε (Val r)) ε α) :
    Licensed licence post past (Prog.ask r >>= next) ↔ licence past r ∧
      (∀ v, Licensed licence post (⟨r,.ok v⟩ :: past) (next v)) ∧
      ∀ e, post (⟨r,.error e⟩ :: past) (.error e) := by
  rw [licensed_bind]
  constructor
  · intro keeps
    exact ⟨keeps.1,fun v => keeps.2 (.ok v),fun e => keeps.2 (.error e)⟩
  · rintro ⟨may,returns,throws⟩
    refine ⟨may,fun x => ?_⟩
    cases x with
    | ok v => exact returns v
    | error e => exact throws e

theorem licensed_ask_only {r : Req} {post : History (fun r => Except ε (Val r)) → Except ε (Val r) → Prop} :
    Licensed licence post past (Prog.ask r) ↔ licence past r ∧ ∀ x, post (⟨r,x⟩ :: past) x := by
  constructor
  · intro keeps
    refine ⟨keeps.1,fun x => ?_⟩
    cases x with
    | ok v => exact keeps.2 (.ok v)
    | error e => exact keeps.2 (.error e)
  · rintro ⟨may,ends⟩
    refine ⟨may,fun x => ?_⟩
    cases x with
    | ok v => exact ends (.ok v)
    | error e => exact ends (.error e)

end

section
variable {Ans : Req → Type} {σ : Type} {serve : (r : Req) → σ → σ × Ans r} {condition : Prop} [Decidable condition]

theorem Prog.runWith_require (holds : condition) (e : ε) (s : σ) :
    (Prog.require condition e : Prog Req Ans ε Unit).runWith serve s = (.ok (),s) := by
  rw [require,if_pos holds]
  rfl

theorem Prog.runWith_refuse (fails : ¬condition) (e : ε) (s : σ) :
    (Prog.require condition e : Prog Req Ans ε Unit).runWith serve s = (.error e,s) := by
  rw [require,if_neg fails]
  rfl

end

section
variable {Ans : Req → Type} {licence : History Ans → Req → Prop} {past : History Ans}
  {post : History Ans → Except ε α → Prop}

theorem Prog.licensed_require (condition : Prop) [Decidable condition] (e : ε) (next : Prog Req Ans ε α) :
    Licensed licence post past (Prog.require condition e >>= fun _ => next) ↔
      (condition → Licensed licence post past next) ∧ (¬condition → post past (.error e)) := by
  rw [licensed_bind]
  by_cases holds : condition
  · simp [Prog.require,holds]
    exact Iff.rfl
  · simp [Prog.require,holds]
    exact Iff.rfl

theorem Prog.licensed_present (value : Option β) (e : ε) (next : β → Prog Req Ans ε α) :
    Licensed licence post past (Prog.present value e >>= next) ↔
      (∀ b, value = some b → Licensed licence post past (next b)) ∧ (value = none → post past (.error e)) := by
  rw [licensed_bind]
  cases value with
  | none => simp [Prog.present]; exact Iff.rfl
  | some b => simp [Prog.present]; exact Iff.rfl

end
end

/-! ### Programs that only make some requests -/

section
variable {Req : Type} {Ans : Req → Type} {ε α β : Type}

/-- Whatever it is answered, the program makes no other requests than these. -/
def Only (allowed : Req → Prop) (p : Prog Req Ans ε α) : Prop :=
  ∀ past, Licensed (fun _ r => allowed r) (fun _ _ => True) past p

variable {allowed : Req → Prop}

theorem only_pure (a : α) : Only allowed (pure a : Prog Req Ans ε α) := fun _ => trivial
theorem only_throw (e : ε) : Only allowed (throw e : Prog Req Ans ε α) := fun _ => trivial

theorem only_bind {p : Prog Req Ans ε α} {f : α → Prog Req Ans ε β} (first : Only allowed p)
    (then' : ∀ a, Only allowed (f a)) : Only allowed (p >>= f) := by
  intro past
  rw [licensed_bind]
  refine (first past).mono (fun _ _ _ may => may) ?_
  intro later result _ _
  cases result with
  | ok a => exact then' a later
  | error e => trivial

theorem only_tryCatch {p : Prog Req Ans ε α} {handler : ε → Prog Req Ans ε α} (body : Only allowed p)
    (handled : ∀ e, Only allowed (handler e)) : Only allowed (tryCatch p handler) := by
  intro past
  rw [licensed_tryCatch]
  refine (body past).mono (fun _ _ _ may => may) ?_
  intro later result _ _
  cases result with
  | ok a => trivial
  | error e => exact handled e later

theorem only_require (condition : Prop) [Decidable condition] (e : ε) :
    Only allowed (Prog.require condition e : Prog Req Ans ε Unit) := by
  intro past
  unfold Prog.require
  split
  · trivial
  · trivial

theorem only_ask {Val : Req → Type} {r : Req} (may : allowed r) :
    Only allowed (Prog.ask r : Prog Req (fun r => Except ε (Val r)) ε (Val r)) :=
  fun _ => licensed_ask_only.mpr ⟨may,fun _ => trivial⟩

/-- Whatever it is answered, the program throws no other errors than these. -/
def Throws (allowed : ε → Prop) (p : Prog Req Ans ε α) : Prop :=
  ∀ past, Licensed (fun _ _ => True) (fun _ result => ∀ e, result = .error e → allowed e) past p

section
variable {thrown : ε → Prop}

theorem throws_pure (a : α) : Throws thrown (pure a : Prog Req Ans ε α) := by
  intro past e wrong
  cases wrong

theorem throws_throw {e : ε} (may : thrown e) : Throws thrown (throw e : Prog Req Ans ε α) := by
  intro past e' same
  cases same
  exact may

theorem throws_bind {p : Prog Req Ans ε α} {f : α → Prog Req Ans ε β} (first : Throws thrown p) (then' : ∀ a, Throws thrown (f a)) :
    Throws thrown (p >>= f) := by
  intro past
  refine licensed_then (first past) (fun later a _ _ => then' a later) (fun later e _ ends e' same => ?_)
  cases same
  exact ends e rfl

end

/-- The events of a translated program, and those that its client sees. -/
inductive Mirrors {Req' : Type} {Ans' : Req' → Type} (call : Req → Req') (answer : (r : Req) → Ans' (call r) → Ans r) :
    History Ans → History Ans' → History Ans' → Prop where
  | start (before : History Ans') : Mirrors call answer [] before before
  | answered {seen : History Ans} {before past : History Ans'} (r : Req) (x : Ans' (call r)) (rest : Mirrors call answer seen before past) :
      Mirrors call answer (⟨r,answer r x⟩ :: seen) before (⟨call r,x⟩ :: past)

section
variable {Req' : Type} {Ans' : Req' → Type} {ε' : Type} {call : Req → Req'} {answer : (r : Req) → Ans' (call r) → Ans r}
  {error : ε → ε'}

theorem Mirrors.suffix {seen : History Ans} {before past : History Ans'} (mirrors : Mirrors call answer seen before past) :
    before <:+ past := by
  induction mirrors with
  | start before => exact List.suffix_rfl
  | answered r x rest ih => exact ih.trans (List.suffix_cons _ _)

theorem Mirrors.event {seen : History Ans} {before past : History Ans'} (mirrors : Mirrors call answer seen before past)
    {r : Req} {y : Ans r} (happened : (⟨r,y⟩ : Event Ans) ∈ seen) : ∃ x, answer r x = y ∧ (⟨call r,x⟩ : Event Ans') ∈ past := by
  induction mirrors with
  | start before => cases happened
  | answered r' x rest ih =>
    rcases List.mem_cons.mp happened with same | happened
    · cases same
      exact ⟨x,rfl,List.mem_cons_self⟩
    · obtain ⟨x',same,member⟩ := ih happened
      exact ⟨x',same,List.mem_cons_of_mem _ member⟩

/-- A translated program makes requests as its client is licensed to. -/
theorem licensed_translate {licence : History Ans → Req → Prop} {post : History Ans → Except ε α → Prop}
    {licence' : History Ans' → Req' → Prop} {before past : History Ans'} {seen : History Ans} {p : Prog Req Ans ε α}
    (keeps : Licensed licence post seen p) (mirrors : Mirrors call answer seen before past)
    (may : ∀ seen past r, Mirrors call answer seen before past → licence seen r → licence' past (call r)) :
    Licensed licence' (fun later _ => before <:+ later) past (p.translate call answer error) := by
  induction p generalizing seen past with
  | pure a => exact mirrors.suffix
  | throw e => exact mirrors.suffix
  | request r next ih => exact ⟨may seen past r mirrors keeps.1,fun x => ih (answer r x) (keeps.2 (answer r x)) (mirrors.answered r x)⟩

end

/-- A program that goes on after one that only makes some requests. -/
theorem licensed_only {licence : History Ans → Req → Prop} {post : History Ans → Except ε β → Prop}
    {past : History Ans} {p : Prog Req Ans ε α} {next : α → Prog Req Ans ε β} (only : Only allowed p)
    (may : ∀ later r, past <:+ later → allowed r → licence later r)
    (rest : ∀ later a, past <:+ later → Licensed licence post later (next a))
    (throws : ∀ later e, past <:+ later → post later (.error e)) : Licensed licence post past (p >>= next) := by
  refine (licensed_bind _ _).mpr ((only past).mono may ?_)
  intro later result after _
  cases result with
  | ok a => exact rest later a after
  | error e => exact throws later e after

end

/-! ### Threads -/

/-- A running program: which program it is, what happened so far and what is
    left of it. It can only be what its own program has run to. -/
structure Thread {Req : Type} {Ans : Req → Type} {ε Tag α : Type} (program : Tag → Prog Req Ans ε α) where
  tag : Tag
  history : History Ans
  rest : Prog Req Ans ε α
  ran : Ran (program tag) history rest

namespace Thread
variable {Req : Type} {Ans : Req → Type} {ε Tag S α : Type} {program : Tag → Prog Req Ans ε α}

/-- A program at its start. -/
def spawn (tag : Tag) : Thread program := ⟨tag,[],program tag,.start⟩

/-- Answers the next request of a thread, if it makes one, from the shared state. -/
def advance (answer : (r : Req) → S → Option (S × Ans r)) (t : Thread program) (s : S) :
    Option (S × Thread program) :=
  match left : t.rest with
  | .request r next =>
    match answer r s with
    | some (after,x) => some (after,⟨t.tag,⟨r,x⟩ :: t.history,next x,.answered x (left ▸ t.ran)⟩)
    | none => none
  | _ => none

/-- What one answer does to a thread and to the shared state. -/
theorem advance_some {answer : (r : Req) → S → Option (S × Ans r)} {t t' : Thread program} {s s' : S}
    (moved : advance answer t s = some (s',t')) :
    ∃ r next x, t.rest = .request r next ∧ answer r s = some (s',x) ∧ t'.tag = t.tag ∧
      t'.history = ⟨r,x⟩ :: t.history ∧ t'.rest = next x := by
  unfold advance at moved
  split at moved
  · rename_i r next left
    split at moved
    · rename_i after x answered
      cases moved
      exact ⟨r,next,x,left,answered,rfl,rfl,rfl⟩
    · cases moved
  · cases moved

end Thread
end Expbuild.Programs
