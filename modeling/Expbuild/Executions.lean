import Expbuild.Controllers

/-!
A single pass among everything else that happens. Anybody may change the objects of the
cluster between two of its requests (`Evolves`), and any request may be refused or lose its
answer. `Executes` says where such a pass ends, with which result and after which events,
under a condition on the clusters and the faults that its requests meet.
-/
namespace Expbuild.Executions
open Expbuild.Objects Expbuild.Programs Expbuild.Clusters Expbuild.Controllers

variable {S : Scheme} {E α β : Type}

/-! ### What others do -/

/-- Every store has gone through steps. -/
def Evolves : Cluster S → Cluster S → Prop := Relation.ReflTransGen (fun c c' => ∀ k, Step (c k) (c' k))

section
variable {c c' : Cluster S} {k : S.Kind} {e : Item S k}

theorem Evolves.refl (c : Cluster S) : Evolves c c := Relation.ReflTransGen.refl

theorem Evolves.trans {middle : Cluster S} (first : Evolves c middle) (rest : Evolves middle c') : Evolves c c' :=
  Relation.ReflTransGen.trans first rest

theorem Evolves.wf (evolves : Evolves c c') (wf : ∀ k, Wf (c k)) : ∀ k, Wf (c' k) := by
  induction evolves with
  | refl => exact wf
  | tail _ steps ih => exact fun k => (ih k).step (steps k)

theorem Evolves.past (evolves : Evolves c c') (member : e ∈ (c k).past) : e ∈ (c' k).past := by
  induction evolves with
  | refl => exact member
  | tail _ steps ih => exact (steps k).past_subset ih

theorem perform_evolves {fault : Fault} {r : Request S} {x : r.Answer} (wf : ∀ k, Wf (c k)) (performed : perform fault r c = (c',x)) :
    Evolves c c' :=
  .single ((perform_outcome performed).steps wf)

/-- What a write leaves of an object that is not being deleted. -/
theorem patched_past {n : S.Name k} {version : Nat} {m : S.Meta k} {spec : S.Spec k} {v : Unit}
    (served : Served c (.patch k n version m spec) c' v) : ∃ old : Item S k, c.at_ k n = some old ∧ old.version = version ∧
      (old.deleting = false → ∃ new ∈ (c' k).past, new.key = old.key ∧ new.uid = old.uid ∧ new.deleting = false ∧ new.metadata = m) := by
  cases served with
  | @patched _ _ old _ _ present =>
    refine ⟨old,present,rfl,fun alive => ⟨{ Store.changed old m spec with version := (c k).nextVersion },?_,rfl,rfl,alive,rfl⟩⟩
    have goes : ((Store.changed old m spec).deleting && !stays (Store.changed old m spec)) = false := by
      rw [show (Store.changed old m spec).deleting = false from alive]
      rfl
    rw [with_same,put,goes]
    exact List.mem_cons_self

end

/-! ### Passes -/

/-- From what it has seen so far the pass ends with a result. -/
inductive Executes (meets : Cluster S → Fault → Prop) : Past S → Pass S E α → Cluster S → Past S → Except E α → Cluster S → Prop where
  | pure {past : Past S} {c : Cluster S} (a : α) : Executes meets past (.pure a) c past (.ok a) c
  | throw {past : Past S} {c : Cluster S} (e : E) : Executes meets past (.throw e) c past (.error e) c
  | request {past later : Past S} {c met after last : Cluster S} {r : Request S} {next : r.Answer → Pass S E α} {x : r.Answer}
      {fault : Fault} {result : Except E α} (others : Evolves c met) (fits : meets met fault) (performed : perform fault r met = (after,x))
      (rest : Executes meets (⟨r,x⟩ :: past) (next x) after later result last) :
      Executes meets past (.request r next) c later result last

/-- The event of a request that was made between two clusters. -/
structure Occurred (meets : Cluster S → Fault → Prop) (c c' : Cluster S) (r : Request S) (x : r.Answer) : Prop where
  served : ∃ met after fault, Evolves c met ∧ meets met fault ∧ perform fault r met = (after,x) ∧ Evolves after c'

section
variable {meets : Cluster S → Fault → Prop} {past later : Past S} {p : Pass S E α} {c c' : Cluster S} {result : Except E α}

theorem Executes.evolves (executes : Executes meets past p c later result c') (wf : ∀ k, Wf (c k)) : Evolves c c' := by
  induction executes with
  | pure a => exact .refl _
  | throw e => exact .refl _
  | request others fits performed rest ih =>
    have there := Evolves.wf others wf
    have served := perform_evolves there performed
    exact others.trans (served.trans (ih (served.wf there)))

/-- What a program is licensed to end with, it ends with. -/
theorem Executes.ends {licence : Past S → Request S → Prop} {post : Past S → Except E α → Prop}
    (executes : Executes meets past p c later result c') (keeps : Licensed licence post past p) : post later result := by
  induction executes with
  | pure a => exact keeps
  | throw e => exact keeps
  | request others fits performed rest ih => exact ih (keeps.2 _)

/-- Whatever the pass has seen, it was told between its start and its end. -/
theorem Executes.occurred {r : Request S} {x : r.Answer} (executes : Executes meets past p c later result c') (wf : ∀ k, Wf (c k))
    (seen : (⟨r,x⟩ : Event Request.Answer) ∈ later) : (⟨r,x⟩ : Event Request.Answer) ∈ past ∨ Occurred meets c c' r x := by
  induction executes with
  | pure a => exact .inl seen
  | throw e => exact .inl seen
  | request others fits performed rest ih =>
    have there := Evolves.wf others wf
    have served := perform_evolves there performed
    have ends := rest.evolves (served.wf there)
    rcases ih (served.wf there) seen with before | ⟨met,after,fault,earlier,fits',performed',onwards⟩
    · rcases List.mem_cons.mp before with same | before
      · cases same
        exact .inr ⟨_,_,_,others,fits,performed,ends⟩
      · exact .inl before
    · exact .inr ⟨met,after,fault,others.trans (served.trans earlier),fits',performed',onwards⟩

theorem Occurred.got {k : S.Kind} {n : S.Name k} {e : Item S k} (occurred : Occurred meets c c' (.get k n) (.ok e)) :
    ∃ met fault, Evolves c met ∧ meets met fault ∧ met.at_ k n = some e ∧ Evolves met c' := by
  obtain ⟨met,after,fault,before,fits,performed,onwards⟩ := occurred.served
  have served := (perform_outcome performed).value
  cases served with
  | got present => exact ⟨_,fault,before,fits,present,onwards⟩

end

/-! ### Passes that are told what is expected -/

/-- Whatever the answers are, as long as they fit, the pass ends in the postcondition. -/
def Always (fits : (r : Request S) → r.Answer → Prop) (post : Except E α → Prop) : Pass S E α → Prop
  | .pure a => post (.ok a)
  | .throw e => post (.error e)
  | .request r next => ∀ x, fits r x → Always fits post (next x)

section
variable {fits : (r : Request S) → r.Answer → Prop} {post : Except E β → Prop}

theorem Executes.always {meets : Cluster S → Fault → Prop} {past later : Past S} {p : Pass S E α} {c c' : Cluster S}
    {result : Except E α} {post : Except E α → Prop} (executes : Executes meets past p c later result c')
    (expected : ∀ met fault r after x, meets met fault → perform fault r met = (after,x) → fits r x)
    (always : Always fits post p) : post result := by
  induction executes with
  | pure a => exact always
  | throw e => exact always
  | request others fits performed rest ih => exact ih (always _ (expected _ _ _ _ _ fits performed))

end

theorem Executes.mono {meets other : Cluster S → Fault → Prop} {past later : Past S} {p : Pass S E α} {c c' : Cluster S}
    {result : Except E α} (executes : Executes meets past p c later result c') (weaker : ∀ met fault, meets met fault → other met fault) :
    Executes other past p c later result c' := by
  induction executes with
  | pure a => exact .pure a
  | throw e => exact .throw e
  | request others fits performed rest ih => exact .request others (weaker _ _ fits) performed ih

end Expbuild.Executions
