import Expbuild.Passages

/-!
What the log of a server tells about its keys. At any time the entry of a key,
its file and the last publication in the log agree (`Mirror`), so that a reader
opens what was published last; engines that do not replace entries publish a key
only while it is absent (`Disciplined`).
-/
namespace Expbuild.Histories
open Expbuild.Tables Expbuild.Disks Expbuild.Engines Expbuild.Stores Expbuild.Handlers Expbuild.Accounting Expbuild.Passages

variable {A : Type}

/-- The last publication of the key, if it was not dropped since; the newest
    event comes first. -/
def latest (k : String) : List (Event A) → Option (A × Contents A)
  | [] => none
  | .published key a contents :: rest => if key = k then some (a,contents) else latest k rest
  | .dropped key :: rest => if key = k then none else latest k rest
  | .opened _ _ _ _ :: rest => latest k rest
  | .served _ _ _ _ :: rest => latest k rest

/-- Every event of the log happened where it could. -/
def Disciplined (replaces : Bool) : List (Event A) → Prop
  | [] => True
  | .published key _ _ :: rest => (replaces = false → latest key rest = none) ∧ Disciplined replaces rest
  | .dropped _ :: rest => Disciplined replaces rest
  | .opened _ key a contents :: rest => latest key rest = some (a,contents) ∧ Disciplined replaces rest
  | .served t key a contents :: rest => .opened t key a contents ∈ rest ∧ Disciplined replaces rest

/-- The entry of the key, its file and the log agree. -/
def Mirrored (L : Layout A) (entries : Table String (Entry A)) (log : List (Event A)) (v : Volume FileName (Contents A))
    (k : String) : Prop :=
  match entries.lookup k,v.names.lookup (L.filename k) with
  | some e,some i => ∃ f, v.files i = some f ∧ f.regular = true ∧ latest k log = some (e.artifact,f.contents)
  | _,_ => latest k log = none

/-- They agree for every key. -/
def Mirror (L : Layout A) (entries : Table String (Entry A)) (log : List (Event A)) (v : Volume FileName (Contents A)) : Prop :=
  ∀ k, Mirrored L entries log v k

variable {L : Layout A} {entries entries' : Table String (Entry A)} {log log' : List (Event A)}
  {v v' : Volume FileName (Contents A)} {k key : String} {e : Entry A}

theorem latest_dropped (k : String) (log : List (Event A)) : latest k (.dropped k :: log) = none := if_pos rfl

theorem latest_dropped_other (other : k ≠ key) : latest k (.dropped key :: log) = latest k log := if_neg (Ne.symm other)

theorem latest_published (k : String) (a : A) (contents : Contents A) (log : List (Event A)) :
    latest k (.published k a contents :: log) = some (a,contents) := if_pos rfl

theorem latest_published_other {a : A} {contents : Contents A} (other : k ≠ key) :
    latest k (.published key a contents :: log) = latest k log := if_neg (Ne.symm other)

theorem Mirrored.absent (mirrored : Mirrored L entries log v k) (missing : entries.lookup k = none) : latest k log = none := by
  unfold Mirrored at mirrored
  rw [missing] at mirrored
  exact mirrored

theorem Mirrored.gone (mirrored : Mirrored L entries log v k) (free : v.names.lookup (L.filename k) = none) :
    latest k log = none := by
  unfold Mirrored at mirrored
  rw [free] at mirrored
  cases entry : entries.lookup k with
  | none => rw [entry] at mirrored; exact mirrored
  | some e => rw [entry] at mirrored; exact mirrored

theorem Mirrored.present {i : Inode} (mirrored : Mirrored L entries log v k) (found : entries.lookup k = some e)
    (bound : v.names.lookup (L.filename k) = some i) :
    ∃ f, v.files i = some f ∧ f.regular = true ∧ latest k log = some (e.artifact,f.contents) := by
  unfold Mirrored at mirrored
  rw [found,bound] at mirrored
  exact mirrored

theorem mirrored_absent (missing : entries.lookup k = none) (quiet : latest k log = none) : Mirrored L entries log v k := by
  unfold Mirrored
  rw [missing]
  exact quiet

theorem mirrored_gone (free : v.names.lookup (L.filename k) = none) (quiet : latest k log = none) : Mirrored L entries log v k := by
  unfold Mirrored
  rw [free]
  cases entries.lookup k with
  | none => exact quiet
  | some e => exact quiet

theorem mirrored_present {i : Inode} {f : File (Contents A)} (found : entries.lookup k = some e)
    (bound : v.names.lookup (L.filename k) = some i) (file : v.files i = some f) (regular : f.regular = true)
    (told : latest k log = some (e.artifact,f.contents)) : Mirrored L entries log v k := by
  unfold Mirrored
  rw [found,bound]
  exact ⟨f,file,regular,told⟩

/-- What does not concern a key keeps it. -/
theorem Mirrored.congr (mirrored : Mirrored L entries log v k)
    (entry : (entries'.lookup k).map (fun e => e.artifact) = (entries.lookup k).map (fun e => e.artifact))
    (events : latest k log' = latest k log)
    (names : (entries.lookup k).isSome = true → v'.names.lookup (L.filename k) = v.names.lookup (L.filename k))
    (files : ∀ {i f}, (entries.lookup k).isSome = true → v.names.lookup (L.filename k) = some i → v.files i = some f →
      ∃ g, v'.files i = some g ∧ SameFile f g) : Mirrored L entries' log' v' k := by
  cases found : entries.lookup k with
  | none =>
    have missing : entries'.lookup k = none := by simpa [found] using entry
    exact mirrored_absent missing (events.trans (mirrored.absent found))
  | some e =>
    have there : (entries.lookup k).isSome = true := by rw [found]; rfl
    cases bound : v.names.lookup (L.filename k) with
    | none => exact mirrored_gone ((names there).trans bound) (events.trans (mirrored.gone bound))
    | some i =>
      rw [found] at entry
      obtain ⟨e',found',artifact⟩ := Option.map_eq_some_iff.mp entry
      obtain ⟨f,file,regular,told⟩ := mirrored.present found bound
      obtain ⟨g,after,same⟩ := files there bound file
      refine mirrored_present found' ((names there).trans bound) after (same.regular.trans regular) ?_
      rw [events,told,artifact,same.contents]

/-- Calls that concern neither the names nor the files of the entries. -/
theorem Mirror.apply (mirror : Mirror L entries log v) (op : Op FileName (Contents A))
    (passes : ∀ {k}, (entries.lookup k).isSome = true → op.Passes (L.filename k))
    (leaves : ∀ {k i}, (entries.lookup k).isSome = true → v.names.lookup (L.filename k) = some i → op.Leaves i) :
    Mirror L entries log (v.apply op) := by
  intro k
  refine (mirror k).congr rfl rfl (fun there => names_apply (passes there)) (fun there bound file => ?_)
  exact file_apply (leaves there bound) file

/-- A step that concerns one key. -/
theorem Mirror.revise (mirror : Mirror L entries log v) (key : String) (here : Mirrored L entries' log' v' key)
    (entry : ∀ {k}, k ≠ key → (entries'.lookup k).map (fun e => e.artifact) = (entries.lookup k).map (fun e => e.artifact))
    (events : ∀ {k}, k ≠ key → latest k log' = latest k log)
    (names : ∀ {k}, k ≠ key → (entries.lookup k).isSome = true →
      v'.names.lookup (L.filename k) = v.names.lookup (L.filename k))
    (files : v'.files = v.files) : Mirror L entries' log' v' := by
  intro k
  by_cases same : k = key
  · rw [same]
    exact here
  · refine (mirror k).congr (entry same) (events same) (names same) (fun {i f} _ _ file => ⟨f,?_,.rfl⟩)
    rw [files]
    exact file

section
variable {E : Engine A} {law : Lawful E} {vanished : List String} {s s' t : Store A}

theorem Mirror.dropKey (kept : Kept law vanished s.entries s.used s.volume) (mirror : Mirror E.layout s.entries s.log s.volume)
    (found : s.entries.lookup k = some e) :
    Mirror E.layout (dropKey E.layout k s).entries (dropKey E.layout k s).log (dropKey E.layout k s).volume := by
  rw [dropKey_entries,dropKey_log]
  have entry : ∀ {j}, j ≠ k → ((s.entries.erase k).lookup j).map (fun e => e.artifact) =
      (s.entries.lookup j).map (fun e => e.artifact) := by
    intro j other
    rw [lookup_erase,if_neg other]
  have here : ∀ v, Mirrored E.layout (s.entries.erase k) (.dropped k :: s.log) v k := fun v =>
    mirrored_absent (by simp) (latest_dropped k s.log)
  rcases dropKey_volume E.layout k s with unlinked | ⟨_,same⟩
  · rw [unlinked]
    refine mirror.revise k (here _) entry (fun other => latest_dropped_other other) (fun {j} other there => ?_) rfl
    refine names_apply ?_
    intro same
    obtain ⟨e',found'⟩ := Option.isSome_iff_exists.mp there
    exact other (kept.apart found' found same.symm)
  · rw [same]
    exact mirror.revise k (here _) entry (fun other => latest_dropped_other other) (fun _ _ => rfl) rfl

/-- Evictions keep the log right. -/
theorem Mirror.evicts {keep : String → Bool} {replaces : Bool} (kept : Kept law vanished s.entries s.used s.volume)
    (mirror : Mirror E.layout s.entries s.log s.volume) (disciplined : Disciplined replaces s.log)
    (evicts : Evicts E.layout keep s t) : Mirror E.layout t.entries t.log t.volume ∧ Disciplined replaces t.log := by
  have all : Kept law vanished t.entries t.used t.volume ∧ Mirror E.layout t.entries t.log t.volume ∧
      Disciplined replaces t.log := by
    refine evicts.invariant (I := fun t => Kept law vanished t.entries t.used t.volume ∧
      Mirror E.layout t.entries t.log t.volume ∧ Disciplined replaces t.log) ⟨kept,mirror,disciplined⟩ ?_
    rintro t k e ⟨kept,mirror,disciplined⟩ found _
    refine ⟨kept.dropKey found,mirror.dropKey kept found,?_⟩
    rw [dropKey_log]
    exact disciplined
  exact all.2

/-- The entry and the name that a publication gives to its file. -/
theorem mirrored_published {i : Inode} {f : File (Contents A)} (p : Staged A)
    (bound : v.names.lookup (L.filename p.key) = some i) (file : v.files i = some f) (contents : f.contents = p.contents)
    (regular : f.regular = true) (entries : Table String (Entry A)) (log : List (Event A)) :
    Mirrored L (entries.insert p.key ⟨p.artifact,p.accessed⟩) (.published p.key p.artifact p.contents :: log) v p.key := by
  refine mirrored_present (AList.lookup_insert _) bound file regular ?_
  rw [contents]
  exact latest_published _ _ _ _

/-- A key that was in neither the index nor the directory is published. -/
theorem Mirror.entered {i : Inode} {f : File (Contents A)} {p : Staged A}
    (kept : Kept law vanished s.entries s.used s.volume) (mirror : Mirror E.layout s.entries s.log s.volume)
    (absent : s.entries.lookup p.key = none) (free : s.volume.names.lookup (E.layout.filename p.key) = none)
    (file : s.volume.files i = some f) (contents : f.contents = p.contents) (regular : f.regular = true) :
    Mirror E.layout (s.entries.insert p.key ⟨p.artifact,p.accessed⟩) (.published p.key p.artifact p.contents :: s.log)
      (s.volume.apply (.link (E.layout.filename p.key) i)) := by
  refine mirror.revise p.key (mirrored_published p (names_link _ _ _) file contents regular _ _) ?_
    (fun other => latest_published_other other) (fun {k} _ there => ?_) rfl
  · intro k other
    rw [lookup_insert,if_neg other]
  · exact names_apply (Ne.symm (kept.unnamed absent free there))

/-- A publication is told as it happened. -/
theorem publish_told {p : Staged A} {i : Inode} {f : File (Contents A)} {rollbackFails : Bool} {status : Nat}
    (kept : Kept law vanished s.entries s.used s.volume) (mirror : Mirror E.layout s.entries s.log s.volume)
    (disciplined : Disciplined law.replaces s.log)
    (published : Publishing E.layout E.maxTotal law.replaces p rollbackFails s s' status)
    (upload : ∃ suffix, p.tmp = .upload suffix) (staged : s.volume.names.lookup p.tmp = some i)
    (file : s.volume.files i = some f) (contents : f.contents = p.contents) (regular : f.regular = true)
    (valid : E.validKey p.key = true) (good : law.Good p.key p.artifact p.contents) :
    Mirror E.layout s'.entries s'.log s'.volume ∧ Disciplined law.replaces s'.log := by
  have good' : law.Good p.key p.artifact f.contents := contents ▸ good
  have missing : ∀ {t : Store A}, Evicts E.layout (fun k => decide (k = p.key)) s t → s.entries.lookup p.key = none →
      t.entries.lookup p.key = none := by
    intro t evicts absent
    rw [evicts.kept (by simp),absent]
  -- what was recorded before others made room for it
  have recorded : ∀ {t : Store A}, s.entries.lookup p.key = none → s.volume.names.lookup (E.layout.filename p.key) = none →
      Evicts E.layout (fun k => decide (k = p.key))
        ((s.perform (.link (E.layout.filename p.key) i)).record E.layout p.key ⟨p.artifact,p.accessed⟩ p.contents) t →
      Kept law (vanished.filter (fun k => decide (E.layout.filename k ≠ E.layout.filename p.key))) t.entries t.used t.volume ∧
        Mirror E.layout t.entries t.log t.volume ∧ Disciplined law.replaces t.log := by
    intro t absent free evicts
    have first := kept.entered (e := ⟨p.artifact,p.accessed⟩) absent free valid file good'
    have told := mirror.entered kept absent free file contents regular
    have lawful : Disciplined law.replaces (.published p.key p.artifact p.contents :: s.log) :=
      ⟨fun _ => (mirror p.key).absent absent,disciplined⟩
    obtain ⟨after,kind⟩ := Mirror.evicts (s := (s.perform (.link (E.layout.filename p.key) i)).record E.layout p.key
      ⟨p.artifact,p.accessed⟩ p.contents) first told lawful evicts
    exact ⟨Kept.evicts (s := (s.perform (.link (E.layout.filename p.key) i)).record E.layout p.key
      ⟨p.artifact,p.accessed⟩ p.contents) first evicts,after,kind⟩
  cases published with
  | refused evicts =>
    obtain ⟨after,kind⟩ := mirror.evicts kept disciplined evicts
    exact ⟨after,kind⟩
  | @created t j faults _ absent evicts tmp free room =>
    obtain ⟨rfl,there⟩ := evicts_staged evicts law upload staged file tmp
    obtain ⟨after,kind⟩ := mirror.evicts kept disciplined evicts
    have told := after.entered (kept.evicts evicts) (missing evicts absent) free there contents regular
    exact ⟨told.apply .syncDirectory (fun _ => trivial) (fun _ _ => trivial),
      fun _ => (after p.key).absent (missing evicts absent),kind⟩
  | @withdrawn t j faults _ absent evicts tmp free room =>
    obtain ⟨after,kind⟩ := mirror.evicts kept disciplined evicts
    have other : ∀ {k}, (t.entries.lookup k).isSome = true → E.layout.filename p.key ≠ E.layout.filename k :=
      fun there => Ne.symm ((kept.evicts evicts).unnamed (missing evicts absent) free there)
    have linked := after.apply (.link (E.layout.filename p.key) j) (fun there => other there) (fun _ _ => trivial)
    exact ⟨linked.apply (.unlink (E.layout.filename p.key)) (fun there => other there) (fun _ _ => trivial),kind⟩
  | @orphaned t j faults _ _ absent evicts tmp free room =>
    obtain ⟨after,kind⟩ := mirror.evicts kept disciplined evicts
    have other : ∀ {k}, (t.entries.lookup k).isSome = true → E.layout.filename p.key ≠ E.layout.filename k :=
      fun there => Ne.symm ((kept.evicts evicts).unnamed (missing evicts absent) free there)
    exact ⟨after.apply (.link (E.layout.filename p.key) j) (fun there => other there) (fun _ _ => trivial),kind⟩
  | @replaced synced t j faults old replaces was evicts tmp room crowd =>
    obtain ⟨rfl,there⟩ := evicts_staged evicts law upload staged file tmp
    obtain ⟨after,kind⟩ := mirror.evicts kept disciplined evicts
    have told : Mirror E.layout (t.entries.insert p.key ⟨p.artifact,p.accessed⟩)
        (.published p.key p.artifact p.contents :: t.log) (t.volume.apply (.rename p.tmp (E.layout.filename p.key) j)) := by
      refine after.revise p.key (mirrored_published p (names_rename _ _ _ _) there contents regular _ _) ?_
        (fun other => latest_published_other other) (fun {k} other there => names_apply ⟨?_,?_⟩) rfl
      · intro k other
        rw [lookup_insert,if_neg other]
      · exact Ne.symm (law.entry_ne k upload)
      · intro same
        obtain ⟨e,found⟩ := Option.isSome_iff_exists.mp there
        exact other (law.collides replaces ((kept.evicts evicts).valid found) valid same.symm)
    have kind : Disciplined law.replaces (.published p.key p.artifact p.contents :: t.log) := by
      refine ⟨fun never => ?_,kind⟩
      rw [replaces] at never
      cases never
    cases synced with
    | false => exact ⟨told,kind⟩
    | true => exact ⟨told.apply .syncDirectory (fun _ => trivial) (fun _ _ => trivial),kind⟩
  | @added t j faults _ absent tmp free evicts room =>
    rw [staged] at tmp
    obtain rfl := Option.some.inj tmp
    exact (recorded absent free evicts).2
  | @undone t j faults _ absent tmp free evicts =>
    rw [staged] at tmp
    obtain rfl := Option.some.inj tmp
    obtain ⟨held,after,kind⟩ := recorded absent free evicts
    have mine : t.entries.lookup p.key = some ⟨p.artifact,p.accessed⟩ := by
      rw [evicts.kept (by simp)]
      simp [Store.record]
    refine ⟨after.revise p.key (mirrored_absent (by simp [Store.delete]) (latest_dropped _ _)) ?_
      (fun other => latest_dropped_other other) (fun {k} other there => names_apply ?_) rfl,kind⟩
    · intro k other
      simp [Store.delete,Store.perform,AList.lookup_erase_ne other]
    · intro same
      obtain ⟨e,found⟩ := Option.isSome_iff_exists.mp there
      exact other (held.apart found mine same.symm)
  | @stranded t j faults _ _ absent tmp free evicts =>
    rw [staged] at tmp
    obtain rfl := Option.some.inj tmp
    obtain ⟨held,after,kind⟩ := recorded absent free evicts
    refine ⟨after.revise p.key (mirrored_absent (by simp [Store.delete]) (latest_dropped _ _)) ?_
      (fun other => latest_dropped_other other) (fun _ _ => rfl) rfl,kind⟩
    intro k other
    simp [Store.delete,AList.lookup_erase_ne other]

/-- A reader changes nothing that the log tells, and opens what it tells last. -/
theorem fetch_told {answer : Answer A} (mirror : Mirror E.layout s.entries s.log s.volume)
    (ran : Fetching E.layout law.Reads key s s' answer) :
    Mirror E.layout s'.entries s'.log s'.volume ∧ (s'.log = s.log ∨ s'.log = .dropped key :: s.log) ∧
      ∀ {i a contents}, answer = .opened i a contents → latest key s'.log = some (a,contents) := by
  cases ran with
  | refused => exact ⟨mirror,.inl rfl,nofun⟩
  | @opened touched e i file faults now found bound there _ =>
    have accessed : Mirror E.layout (s.entries.insert key { e with accessed := now }) s.log s.volume := by
      intro k
      refine (mirror k).congr ?_ rfl (fun _ => rfl) (fun {_ f} _ _ file => ⟨f,file,.rfl⟩)
      rw [lookup_insert]
      split
      · rename_i same; rw [same,found]; rfl
      · rfl
    have told : latest key s.log = some (e.artifact,file.contents) := by
      obtain ⟨f,file',_,told⟩ := (mirror key).present found bound
      rw [there] at file'
      cases file'
      exact told
    refine ⟨?_,?_,?_⟩
    · cases touched with
      | true => exact accessed.apply (.touch i now) (fun _ => trivial) (fun _ _ => trivial)
      | false => exact accessed
    · cases touched with
      | true => exact .inl rfl
      | false => exact .inl rfl
    · rintro j a contents same
      cases same
      cases touched with
      | true => exact told
      | false => exact told
  | @missed e faults found missing =>
    refine ⟨mirror.revise key (mirrored_absent (by simp [Store.delete]) (latest_dropped _ _)) ?_
      (fun other => latest_dropped_other other) (fun _ _ => rfl) rfl,.inr rfl,nofun⟩
    intro k other
    simp [Store.delete,AList.lookup_erase_ne other]

end

/-! ### The uploads of a run -/

/-- An upload whose body was received whole and verified. -/
structure Upload (A : Type) where
  key : String
  artifact : A
  contents : Contents A
deriving DecidableEq,Repr

/-- The upload that a step completes. -/
def received (l : Label) (s : System A) : List (Upload A) :=
  match l with
  | .finish t _ _ =>
    match s.threads.lookup t with
    | some (.staged p _) => [⟨p.key,p.artifact,p.contents⟩]
    | _ => []
  | _ => []

/-- The runs of a server, with the uploads they completed. -/
inductive Run (E : Engine A) (start : System A) : System A → List (Upload A) → Prop where
  | refl : Run E start start []
  | tail {s s' : System A} {l : Label} {puts : List (Upload A)} : Run E start s puts → step E l s = some s' →
      Run E start s' (received l s' ++ puts)

/-- The request passed every check of `put`, on its headers and on its body. -/
def Complete (E : Engine A) (u : Upload A) : Prop :=
  ∃ (r : Put) (now : Nat) (a : A) (body : List UInt8), r.key = u.key ∧ E.validKey r.key = true ∧ E.start r now = .ok a ∧
    E.finish r a body = .ok u.artifact ∧ u.contents = .envelope (E.header u.artifact) body

section
variable {E : Engine A} {law : Lawful E} {s s' : System A} {l : Label}

/-- An upload that is ready was ready before or is completed by the step. -/
theorem staged_step {t : Nat} {p : Staged A} {i : Inode} (stepped : Stepped E l s s')
    (found : s'.threads.lookup t = some (.staged p i)) :
    s.threads.lookup t = some (.staged p i) ∨ (⟨p.key,p.artifact,p.contents⟩ : Upload A) ∈ received l s' := by
  have moved : ∀ {t' : Nat} {phase : Phase A}, (s.threads.insert t' phase).lookup t = some (.staged p i) →
      (∀ p i, phase ≠ .staged p i) → s.threads.lookup t = some (.staged p i) := by
    intro t' phase there other
    rcases lookup_insert_some there with ⟨_,same⟩ | ⟨_,before⟩
    · exact absurd same.symm (other p i)
    · exact before
  cases stepped with
  | @started t' r a now pending phase _ _ becomes =>
    refine .inl (moved found (fun p i => ?_))
    rw [becomes]
    split <;> exact nofun
  | @finished t' r a a' name j body now faults later label before done =>
    rcases lookup_insert_some found with ⟨rfl,same⟩ | ⟨_,before⟩
    · right
      subst label
      simp only [received,found]
      exact List.mem_singleton_self _
    · exact .inl before
  | vanished _ _ => exact .inl found
  | _ => exact .inl (moved found nofun)

/-- The file of an upload that goes on is one of before, or new. -/
theorem owner_step {t : Nat} {phase : Phase A} {name : FileName} {i : Inode} (stepped : Stepped E l s s')
    (found : s'.threads.lookup t = some phase) (own : owner phase = some (name,i)) : Staging s i := by
  have moved : ∀ {t' : Nat} {phase' : Phase A}, (s.threads.insert t' phase').lookup t = some phase →
      (∀ {name i}, owner phase' = some (name,i) → Staging s i) → Staging s i := by
    intro t' phase' there other
    rcases lookup_insert_some there with ⟨_,rfl⟩ | ⟨_,before⟩
    · exact other own
    · exact .inr ⟨t,phase,name,before,own⟩
  cases stepped with
  | @started t' r a now pending phase' _ _ becomes =>
    refine moved found (fun own' => ?_)
    rw [becomes] at own'
    split at own' <;> cases own'
  | created _ _ => exact moved found (fun own' => by cases own'; exact .inl rfl)
  | @received t' r a name' j body chunk now before _ =>
    exact moved found (fun own' => by cases own'; exact .inr ⟨t',_,name',before,rfl⟩)
  | @finished t' r a a' name' j body now faults later _ before _ =>
    exact moved found (fun own' => by cases own'; exact .inr ⟨t',_,name',before,rfl⟩)
  | vanished _ _ => exact .inr ⟨t,phase,name,found,own⟩
  | _ => exact moved found (fun own' => by cases own')

/-- A reader was one before, or has just opened its file. -/
theorem reading_step {t : Nat} {key : String} {i : Inode} {a : A} (stepped : Stepped E l s s')
    (found : s'.threads.lookup t = some (.reading key i a)) :
    s.threads.lookup t = some (.reading key i a) ∨ ∃ now faults store contents, s.threads.lookup t = some (.asked key) ∧
      E.get key now (s.enter faults) = (store,.opened i a contents) ∧
      s'.store = { store with log := .opened t key a contents :: store.log } ∧
      s'.mu = if E.keepsLock then some t else none := by
  have moved : ∀ {t' : Nat} {phase : Phase A}, (s.threads.insert t' phase).lookup t = some (.reading key i a) →
      (∀ key i a, phase ≠ .reading key i a) → s.threads.lookup t = some (.reading key i a) := by
    intro t' phase there other
    rcases lookup_insert_some there with ⟨_,same⟩ | ⟨_,before⟩
    · exact absurd same.symm (other key i a)
    · exact before
  cases stepped with
  | @started t' r a now pending phase _ _ becomes =>
    refine .inl (moved found (fun key i a => ?_))
    rw [becomes]
    split <;> exact nofun
  | @opened t' key' now faults store j a' contents before _ ran =>
    rcases lookup_insert_some found with ⟨rfl,same⟩ | ⟨_,before⟩
    · cases same
      exact .inr ⟨now,faults,store,contents,before,ran,rfl,rfl⟩
    · exact .inl before
  | vanished _ _ => exact .inl found
  | _ => exact .inl (moved found nofun)

theorem next_step (tidy : Tidy law s) (stepped : Stepped E l s s') : s.store.next ≤ s'.store.next := by
  cases stepped with
  | spoiled _ _ => exact Nat.le_succ _
  | created _ _ => exact Nat.le_succ _
  | @published t p i faults rollbackFails store status _ found _ ran =>
    obtain ⟨owns,_⟩ := tidy.sound found
    obtain ⟨_,_,next,_⟩ := (law.publish ran).ops owns.bound (fun k => law.entry_ne k owns.upload)
    exact Nat.le_of_eq next.symm
  | @fetched t key now status faults store _ _ ran =>
    obtain ⟨_,_,next,_⟩ := (law.get ran).ops
    exact Nat.le_of_eq next.symm
  | @opened t key now faults store i a contents _ _ ran =>
    obtain ⟨_,_,next,_⟩ := (law.get ran).ops
    exact Nat.le_of_eq next.symm
  | _ => exact Nat.le_refl _

/-- What a step completes is complete. -/
theorem received_complete (tidy : Tidy law s) (stepped : Stepped E l s s') {u : Upload A} (member : u ∈ received l s') :
    Complete E u ∨ ∃ t p i, s.threads.lookup t = some (.staged p i) ∧ u = ⟨p.key,p.artifact,p.contents⟩ := by
  unfold received at member
  split at member
  · rename_i t now later
    split at member
    · rename_i p i found
      obtain rfl := List.mem_singleton.mp member
      cases stepped with
      | @finished t' r a a' name j body now' faults later' label before done =>
        rcases lookup_insert_some found with ⟨_,same⟩ | ⟨_,before'⟩
        · cases same
          obtain ⟨⟨valid,now₀,started⟩,_⟩ := tidy.sound before
          exact .inl ⟨r,now₀,a,body,rfl,valid,started,done,rfl⟩
        · exact .inr ⟨t,p,i,before',rfl⟩
      | published label => cases label
      | kept label => cases label
      | vanished _ _ => exact .inr ⟨t,p,i,found,rfl⟩
      | @started t' r a now pending phase _ _ becomes =>
        rcases lookup_insert_some found with ⟨_,same⟩ | ⟨_,before⟩
        · rw [becomes] at same
          split at same <;> cases same
        · exact .inr ⟨t,p,i,before,rfl⟩
      | _ =>
        rcases lookup_insert_some found with ⟨_,same⟩ | ⟨_,before⟩
        · cases same
        · exact .inr ⟨t,p,i,before,rfl⟩
    · cases member
  · cases member

/-- A file that no upload writes keeps its bytes. -/
theorem file_step {i : Inode} {f : File (Contents A)} (tidy : Tidy law s) (stepped : Stepped E l s s') (quiet : ¬Staging s i)
    (file : s.store.volume.files i = some f) : ∃ g, s'.store.volume.files i = some g ∧ SameFile f g := by
  have performs : ∀ (ops : List (Op FileName (Contents A))), (∀ op ∈ ops, op.Leaves i) →
      ∃ g, (s.store.disk.performs ops).volume.files i = some g ∧ SameFile f g := by
    intro ops leaves
    refine Disk.performs_invariant (I := fun v => ∃ g, v.files i = some g ∧ SameFile f g) ⟨f,file,.rfl⟩ ?_
    rintro v op member ⟨g,there,same⟩
    obtain ⟨h,after,same'⟩ := file_apply (leaves op member) there
    exact ⟨h,after,same.trans same'⟩
  have touches : ∀ {ops : List (Op FileName (Contents A))}, (∀ op ∈ ops, ∃ i now, op = .touch i now) → ∀ op ∈ ops, op.Leaves i := by
    intro ops touches op member
    obtain ⟨j,now,rfl⟩ := touches op member
    trivial
  cases step_passage tidy stepped with
  | @staging j ops staging _ calls disk _ _ =>
    rw [Store.volume,disk]
    refine performs ops (fun op member => (calls op member).leaves ?_)
    rintro rfl
    exact quiet staging
  | @publishing t p j faults rollbackFails store status found _ ran same _ =>
    obtain ⟨owns,_⟩ := tidy.sound found
    obtain ⟨ops,disk,_,calls⟩ := (law.publish ran).ops owns.bound (fun k => law.entry_ne k owns.upload)
    rw [same,Store.volume,disk]
    refine performs ops (fun op member => ?_)
    cases calls op member <;> trivial
  | @fetching t key now status faults store _ ran same =>
    obtain ⟨ops,disk,_,calls⟩ := (law.get ran).ops
    rw [same,Store.volume,disk]
    exact performs ops (touches calls)
  | @opening t key now faults store j a contents _ ran same =>
    obtain ⟨ops,disk,_,calls⟩ := (law.get ran).ops
    rw [same]
    change ∃ g, store.disk.volume.files i = some g ∧ _
    rw [disk]
    exact performs ops (touches calls)
  | sending _ _ same =>
    rw [same]
    exact ⟨f,file,.rfl⟩
  | vanishing _ same =>
    rw [same]
    exact ⟨f,file,.rfl⟩

end

/-! ### The log of a run -/

section
variable {L : Layout A} {s s' : Store A} {p : Staged A}

theorem evicts_log {keep : String → Bool} {t : Store A} (evicts : Evicts L keep s t) :
    ∃ new, t.log = new ++ s.log ∧ ∀ event ∈ new, ∃ k, event = .dropped k ∧ keep k = false := by
  induction evicts with
  | refl => exact ⟨[],rfl,nofun⟩
  | @drop t k e _ found may ih =>
    obtain ⟨new,log,drops⟩ := ih
    refine ⟨.dropped k :: new,by rw [dropKey_log,log]; rfl,fun event member => ?_⟩
    rcases List.mem_cons.mp member with rfl | member
    · exact ⟨k,rfl,may⟩
    · exact drops event member

/-- A publication adds to the log what it drops and what it publishes. -/
theorem publishing_log {maxTotal : Int} {replaces rollbackFails : Bool} {status : Nat}
    (published : Publishing L maxTotal replaces p rollbackFails s s' status) :
    ∃ new, s'.log = new ++ s.log ∧ ∀ event ∈ new, (∃ k, event = .dropped k) ∨ event = .published p.key p.artifact p.contents := by
  have drops : ∀ {keep : String → Bool} {t u : Store A}, Evicts L keep t u →
      ∃ new, u.log = new ++ t.log ∧ ∀ event ∈ new, (∃ k, event = .dropped k) ∨
        event = .published p.key p.artifact p.contents := by
    intro keep t u evicts
    obtain ⟨new,log,all⟩ := evicts_log evicts
    refine ⟨new,log,fun event member => ?_⟩
    obtain ⟨k,rfl,_⟩ := all event member
    exact .inl ⟨k,rfl⟩
  have add : ∀ {log log' new : List (Event A)} {event : Event A}, log = new ++ log' →
      (∀ event ∈ new, (∃ k, event = .dropped k) ∨ event = .published p.key p.artifact p.contents) →
      ((∃ k, event = .dropped k) ∨ event = .published p.key p.artifact p.contents) →
      ∃ new, event :: log = new ++ log' ∧ ∀ event ∈ new, (∃ k, event = .dropped k) ∨
        event = .published p.key p.artifact p.contents := by
    intro log log' new event same all one
    refine ⟨event :: new,by rw [same]; rfl,fun other member => ?_⟩
    rcases List.mem_cons.mp member with rfl | member
    · exact one
    · exact all other member
  have later : ∀ {t : Store A} {i : Inode}, Evicts L (fun k => decide (k = p.key))
      ((s.perform (.link (L.filename p.key) i)).record L p.key ⟨p.artifact,p.accessed⟩ p.contents) t →
      ∃ new, t.log = new ++ s.log ∧ ∀ event ∈ new, (∃ k, event = .dropped k) ∨
        event = .published p.key p.artifact p.contents := by
    intro t i evicts
    obtain ⟨new,log,all⟩ := drops evicts
    refine ⟨new ++ [.published p.key p.artifact p.contents],by rw [log]; simp [Store.record,Store.perform],
      fun event member => ?_⟩
    rcases List.mem_append.mp member with member | member
    · exact all event member
    · exact .inr (List.mem_singleton.mp member)
  cases published with
  | refused evicts =>
    have all := drops evicts
    exact all
  | created _ _ evicts _ _ _ =>
    obtain ⟨new,log,all⟩ := drops evicts
    exact add log all (.inr rfl)
  | withdrawn _ _ evicts _ _ _ =>
    have all := drops evicts
    exact all
  | orphaned _ _ _ evicts _ _ _ =>
    have all := drops evicts
    exact all
  | @replaced synced t i faults old _ _ evicts _ _ _ =>
    obtain ⟨new,log,all⟩ := drops evicts
    cases synced with
    | true => exact add log all (.inr rfl)
    | false => exact add log all (.inr rfl)
  | added _ _ _ _ evicts _ =>
    have all := later evicts
    exact all
  | undone _ _ _ _ evicts =>
    obtain ⟨new,log,all⟩ := later evicts
    exact add log all (.inl ⟨_,rfl⟩)
  | stranded _ _ _ _ _ evicts =>
    obtain ⟨new,log,all⟩ := later evicts
    exact add log all (.inl ⟨_,rfl⟩)

end

section
variable {E : Engine A} {law : Lawful E} {s s' : System A} {l : Label}

theorem fetching_log {Reads : A → File (Contents A) → Prop} {store store' : Store A} {key : String} {answer : Answer A}
    (ran : Fetching E.layout Reads key store store' answer) :
    ∃ new, store'.log = new ++ store.log ∧ ∀ event ∈ new, ∃ k, event = .dropped k := by
  cases ran with
  | refused => exact ⟨[],rfl,nofun⟩
  | opened touched =>
    refine ⟨[],?_,nofun⟩
    cases touched with
    | true => rfl
    | false => rfl
  | missed _ _ => exact ⟨[.dropped key],rfl,fun event member => ⟨key,List.mem_singleton.mp member⟩⟩

/-- A step adds to the log, and publishes only an upload that is ready. -/
theorem log_step (tidy : Tidy law s) (stepped : Stepped E l s s') : ∃ new, s'.store.log = new ++ s.store.log ∧
    ∀ {k a contents}, .published k a contents ∈ new → ∃ t p i, s.threads.lookup t = some (.staged p i) ∧
      (⟨k,a,contents⟩ : Upload A) = ⟨p.key,p.artifact,p.contents⟩ := by
  have quiet : ∀ {new : List (Event A)}, (∀ event ∈ new, ∀ k a contents, event ≠ .published k a contents) →
      ∀ {k a contents}, .published k a contents ∈ new → ∃ t p i, s.threads.lookup t = some (.staged p i) ∧
        (⟨k,a,contents⟩ : Upload A) = ⟨p.key,p.artifact,p.contents⟩ := by
    intro new none_ k a contents member
    exact absurd rfl (none_ _ member k a contents)
  cases step_passage tidy stepped with
  | staging _ _ _ _ _ _ log => exact ⟨[],log,nofun⟩
  | @publishing t p i faults rollbackFails store status found _ ran same _ =>
    obtain ⟨new,log,all⟩ := publishing_log (law.publish ran)
    refine ⟨new,by rw [same,log]; rfl,fun {k a contents} member => ⟨t,p,i,found,?_⟩⟩
    rcases all _ member with ⟨k,never⟩ | same
    · cases never
    · cases same
      rfl
  | fetching _ ran same =>
    obtain ⟨new,log,drops⟩ := fetching_log (law.get ran)
    refine ⟨new,by rw [same,log]; rfl,quiet (fun event member k a contents => ?_)⟩
    obtain ⟨j,rfl⟩ := drops event member
    exact nofun
  | @opening t key now faults store i a contents _ ran same =>
    obtain ⟨new,log,drops⟩ := fetching_log (law.get ran)
    refine ⟨.opened t key a contents :: new,by rw [same,log]; rfl,quiet (fun event member k a contents => ?_)⟩
    rcases List.mem_cons.mp member with rfl | member
    · exact nofun
    · obtain ⟨j,rfl⟩ := drops event member
      exact nofun
  | @sending t key i a file _ _ same =>
    refine ⟨[.served t key a file.contents],by rw [same]; rfl,quiet (fun event member k a contents => ?_)⟩
    obtain rfl := List.mem_singleton.mp member
    exact nofun
  | @vanishing key _ same =>
    refine ⟨[.dropped key],by rw [same]; rfl,quiet (fun event member k a contents => ?_)⟩
    obtain rfl := List.mem_singleton.mp member
    exact nofun

section
variable (law)

/-- What the log, the readers and the completed uploads know of each other;
    `before` is the log of the server when it started. -/
structure Told (before : List (Event A)) (s : System A) (puts : List (Upload A)) : Prop where
  mirror : Mirror E.layout s.store.entries s.store.log s.store.volume
  disciplined : Disciplined law.replaces s.store.log
  /-- A reader has the bytes that it opened before it. -/
  readers : ∀ {t key i a}, s.threads.lookup t = some (.reading key i a) → i < s.store.next ∧ ¬Staging s i ∧
    ∃ f, s.store.volume.files i = some f ∧ .opened t key a f.contents ∈ s.store.log
  uploaded : ∀ {t p i}, s.threads.lookup t = some (.staged p i) → (⟨p.key,p.artifact,p.contents⟩ : Upload A) ∈ puts
  complete : ∀ u ∈ puts, Complete E u
  published : ∀ {k a contents}, .published k a contents ∈ s.store.log →
    .published k a contents ∈ before ∨ (⟨k,a,contents⟩ : Upload A) ∈ puts

end

variable {before : List (Event A)} {puts : List (Upload A)}

/-- The entry of a key is the file of no upload. -/
theorem Tidy.quiet (tidy : Tidy law s) {key : String} {i : Inode}
    (bound : s.store.volume.names.lookup (E.layout.filename key) = some i) : i < s.store.next ∧ ¬Staging s i := by
  have below := (tidy.allocated _ i (.inl bound)).1
  refine ⟨below,?_⟩
  rintro (rfl | ⟨t,phase,name,found,own⟩)
  · exact Nat.lt_irrefl _ below
  · have owns := (tidy.sound found).owns own
    exact law.entry_ne key owns.upload (owns.only _ (.inl bound))

theorem Told.mirror_step (told : Told law before s puts) (tidy : Tidy law s) (balanced : Balanced law s)
    (stepped : Stepped E l s s') :
    Mirror E.layout s'.store.entries s'.store.log s'.store.volume ∧ Disciplined law.replaces s'.store.log := by
  cases step_passage tidy stepped with
  | @staging i ops _ own calls disk entries log =>
    rw [entries,log,Store.volume,disk]
    refine ⟨?_,told.disciplined⟩
    have both : Mirror E.layout s.store.entries s.store.log (s.store.disk.performs ops).volume ∧
        Private (s.store.disk.performs ops).volume i := by
      refine Disk.performs_invariant (I := fun v => Mirror E.layout s.store.entries s.store.log v ∧ Private v i)
        ⟨told.mirror,own⟩ ?_
      rintro v op member ⟨mirror,own⟩
      exact ⟨mirror.apply op (fun {k} _ => (calls op member).passes law k)
        (fun _ bound => (calls op member).leaves (own.entry_ne law (.inl bound))),own.apply (calls op member)⟩
    exact both.1
  | @publishing t p i faults rollbackFails store status found _ ran same _ =>
    obtain ⟨owns,valid,good,_,f,there,contents,regular,_⟩ := tidy.sound found
    rw [same]
    exact publish_told (s := s.enter faults) balanced.kept told.mirror told.disciplined (law.publish ran) owns.upload
      owns.bound there contents regular valid good
  | @fetching t key now status faults store _ ran same =>
    rw [same]
    obtain ⟨mirror,log,_⟩ := fetch_told (s := s.enter faults) told.mirror (law.get ran)
    refine ⟨mirror,?_⟩
    rcases log with log | log
    · rw [log]
      exact told.disciplined
    · rw [log]
      exact told.disciplined
  | @opening t key now faults store i a contents _ ran same =>
    rw [same]
    obtain ⟨mirror,log,opens⟩ := fetch_told (s := s.enter faults) told.mirror (law.get ran)
    refine ⟨mirror,opens rfl,?_⟩
    rcases log with log | log
    · rw [log]
      exact told.disciplined
    · rw [log]
      exact told.disciplined
  | @sending t key i a file found there same =>
    rw [same]
    obtain ⟨_,_,f,file',opened⟩ := told.readers found
    rw [there] at file'
    cases file'
    exact ⟨told.mirror,opened,told.disciplined⟩
  | @vanishing key shared same =>
    rw [same]
    refine ⟨?_,told.disciplined⟩
    refine told.mirror.revise key (mirrored_gone (names_unlink _ _) (latest_dropped _ _)) (fun _ => rfl)
      (fun other => latest_dropped_other other) (fun {k} other _ => names_apply ?_) rfl
    intro equal
    exact other (law.injective shared equal.symm)

theorem Told.readers_step (told : Told law before s puts) (tidy : Tidy law s) (stepped : Stepped E l s s') {t : Nat}
    {key : String} {i : Inode} {a : A} (found : s'.threads.lookup t = some (.reading key i a)) :
    i < s'.store.next ∧ ¬Staging s' i ∧ ∃ f, s'.store.volume.files i = some f ∧ .opened t key a f.contents ∈ s'.store.log := by
  -- an inode that is no staging file does not become one
  have still : i < s.store.next → ¬Staging s i → i < s'.store.next ∧ ¬Staging s' i := by
    intro below quiet
    have below := Nat.lt_of_lt_of_le below (next_step tidy stepped)
    refine ⟨below,?_⟩
    rintro (rfl | ⟨t',phase,name,there,own⟩)
    · exact Nat.lt_irrefl _ below
    · exact quiet (owner_step stepped there own)
  rcases reading_step stepped found with reading | ⟨now,faults,store,contents,asked,ran,same,_⟩
  · obtain ⟨below,quiet,f,file,opened⟩ := told.readers reading
    obtain ⟨g,after,equal⟩ := file_step tidy stepped quiet file
    obtain ⟨new,log,_⟩ := log_step tidy stepped
    refine ⟨(still below quiet).1,(still below quiet).2,g,after,?_⟩
    rw [log,equal.contents]
    exact List.mem_append_right _ opened
  · have fetched := law.get ran
    generalize produced : (Answer.opened i a contents : Answer A) = answer at fetched
    cases fetched with
    | refused => cases produced
    | missed _ _ => cases produced
    | @opened touched e j file outcomes time entry bound there reads =>
      cases produced
      obtain ⟨below,quiet⟩ := Tidy.quiet tidy bound
      obtain ⟨g,after,equal⟩ := file_step tidy stepped quiet there
      refine ⟨(still below quiet).1,(still below quiet).2,g,after,?_⟩
      rw [same,equal.contents]
      exact List.mem_cons_self

/-- Every step is told as it happened. -/
theorem Told.step (told : Told law before s puts) (tidy : Tidy law s) (balanced : Balanced law s)
    (stepped : Stepped E l s s') : Told law before s' (received l s' ++ puts) where
  mirror := (told.mirror_step tidy balanced stepped).1
  disciplined := (told.mirror_step tidy balanced stepped).2
  readers := fun found => told.readers_step tidy stepped found
  uploaded := by
    intro t p i found
    rcases staged_step stepped found with earlier | now
    · exact List.mem_append_right _ (told.uploaded earlier)
    · exact List.mem_append_left _ now
  complete := by
    intro u member
    rcases List.mem_append.mp member with now | earlier
    · rcases received_complete tidy stepped now with complete | ⟨t,p,i,found,rfl⟩
      · exact complete
      · exact told.complete _ (told.uploaded found)
    · exact told.complete u earlier
  published := by
    intro k a contents member
    obtain ⟨new,log,fresh⟩ := log_step tidy stepped
    rw [log] at member
    rcases List.mem_append.mp member with now | earlier
    · obtain ⟨t,p,i,found,same⟩ := fresh now
      rw [same]
      exact .inr (List.mem_append_right _ (told.uploaded found))
    · rcases told.published earlier with first | put
      · exact .inl first
      · exact .inr (List.mem_append_right _ put)

end
end Expbuild.Histories
