import Expbuild.Serving
import Expbuild.Capacity

/-!
Who reaches the content of an engine: a request that has authenticated as a
client with the credential file of its arrival (`BearerClient`, `TurboClient`,
`GradleClient`). The handlers do the rest for it alone (`Vouched`), over every
run in which the file changes at any time.
-/
namespace Expbuild.Isolation
open Expbuild.Tables Expbuild.Disks Expbuild.Engines Expbuild.Stores Expbuild.Runs Expbuild.Http Expbuild.Serving
open Expbuild.Capacity (blank turboServer goServer)

/-! ### Clients -/

/-- A line of a credential file. -/
def line (row : Text × Text) : Text := row.1 ++ 58 :: row.2

/-- A credential file of one client and one probe: their lines, each at most once. -/
structure Accounts (crypt : Bcrypt) (data : Text) (rows : List (Text × Text)) : Prop where
  small : data.length ≤ 4096
  lines : lines data = rows.map line
  users : ∀ row ∈ rows, row.1 = bytes "cache" ∨ row.1 = bytes "health"
  clean : ∀ row ∈ rows, 58 ∉ row.2
  costs : ∀ row ∈ rows, crypt.cost row.2 = true
  distinct : (rows.map (·.1)).Nodup

/-- One `Authorization`, whose Bearer token the line of `cache` verifies. -/
structure Bearer (crypt : Bcrypt) (file : Option Text) (r : Request) (data : Text) (rows : List (Text × Text))
    (scheme token hash : Text) : Prop where
  file : file = some data
  accounts : Accounts crypt data rows
  single : r.authorization = [scheme ++ 32 :: token]
  bearer : equalFold scheme "Bearer" = true
  whole : 32 ∉ token
  nonempty : token ≠ []
  short : token.length ≤ 72
  own : (bytes "cache",hash) ∈ rows
  verifies : crypt.compare hash token = true

def BearerClient (crypt : Bcrypt) (file : Option Text) (r : Request) : Prop :=
  ∃ data rows scheme token hash, Bearer crypt file r data rows scheme token hash

/-- The team is the only query parameter. -/
def TurboClient (crypt : Bcrypt) (team : Text) (file : Option Text) (r : Request) : Prop :=
  BearerClient crypt file r ∧ parseQuery r.rawQuery = some [(bytes "teamId",team)]

/-- A credential file of the Gradle server. -/
structure Realm (data : Text) (rows : List (Text × Text)) : Prop where
  small : data.length ≤ 4096
  lines : lines data = rows.map line
  few : rows.length ≤ 2
  filled : ∀ row ∈ rows, row.1 ≠ [] ∧ row.2 ≠ []
  plain : ∀ row ∈ rows, spaced row.1 = false ∧ spaced row.2 = false
  clean : ∀ row ∈ rows, 58 ∉ row.1 ∧ 58 ∉ row.2
  distinct : (rows.map (·.1)).Nodup

/-- A Basic user that the line of the user verifies, and that is not the probe. -/
structure Basic (crypt : Bcrypt) (file : Option Text) (r : Request) (data : Text) (rows : List (Text × Text))
    (user password hash : Text) : Prop where
  file : file = some data
  realm : Realm data rows
  basic : basicAuth r = some (user,password)
  client : user ≠ bytes "health"
  own : (user,hash) ∈ rows
  verifies : crypt.compare hash password = true

def GradleClient (crypt : Bcrypt) (file : Option Text) (r : Request) : Prop :=
  ∃ data rows user password hash, Basic crypt file r data rows user password hash

/-! ### `authenticate` -/

section
variable {crypt : Bcrypt} {file : Option Text} {r : Request} {rest : List Text} {seen rows hashes : List (Text × Text)}

theorem hashOf_mem {user : Text} (present : hashOf rows user ≠ []) : (user,hashOf rows user) ∈ rows := by
  unfold hashOf at present ⊢
  cases found : rows.lookup user with
  | none => simp [found] at present
  | some hash =>
    obtain ⟨before,after,whole,_⟩ := List.lookup_eq_some_iff.mp found
    rw [whole]
    simp

theorem hashOf_fresh {user : Text} (filled : ∀ row ∈ rows, row.2 ≠ []) (fresh : hashOf rows user = []) :
    user ∉ rows.map (·.1) := by
  intro member
  obtain ⟨row,inside,rfl⟩ := List.mem_map.mp member
  unfold hashOf at fresh
  cases found : rows.lookup row.1 with
  | none =>
    rw [List.lookup_eq_none_iff] at found
    simpa using found row inside
  | some other =>
    obtain ⟨before,after,whole,_⟩ := List.lookup_eq_some_iff.mp found
    have empty : other = [] := by simpa [found] using fresh
    exact filled (row.1,other) (by rw [whole]; simp) empty

/-- A hash that bcrypt knows is not empty. -/
theorem cost_filled {hash : Text} (known : crypt.cost hash = true) : hash ≠ [] := by
  rintro rfl
  rw [crypt.short] at known
  cases known

/-- What the loop has read: the lines of the known users, each once. -/
theorem readHashes_rows (read : readHashes crypt rest seen = some hashes) (filled : ∀ row ∈ seen, row.2 ≠ [])
    (apart : (seen.map (·.1)).Nodup) : ∃ rows : List (Text × Text), rest = rows.map line ∧ hashes = rows.reverse ++ seen ∧
    (∀ row ∈ rows, (row.1 = bytes "cache" ∨ row.1 = bytes "health") ∧ 58 ∉ row.2 ∧ crypt.cost row.2 = true) ∧
    (hashes.map (·.1)).Nodup := by
  induction rest generalizing seen with
  | nil =>
    simp only [readHashes,Option.some.injEq] at read
    subst read
    exact ⟨[],rfl,rfl,by simp,apart⟩
  | cons first rest ih =>
    unfold readHashes at read
    split at read
    · rename_i user hash parts
      obtain ⟨whole,_,clean⟩ := split_two.mp parts
      by_cases bad : user ≠ bytes "cache" ∧ user ≠ bytes "health" ∨ hashOf seen user ≠ []
      · rw [if_pos bad] at read
        cases read
      · rw [if_neg bad] at read
        rw [not_or,not_and_or,not_not,not_not,not_not] at bad
        obtain ⟨user_,fresh⟩ := bad
        by_cases known : crypt.cost hash = true
        · rw [if_pos known] at read
          obtain ⟨rows,others,equal,good,distinct⟩ := ih read
            (by
              intro row member
              rcases List.mem_cons.mp member with rfl | before
              · exact cost_filled known
              · exact filled row before)
            (List.nodup_cons.mpr ⟨hashOf_fresh filled fresh,apart⟩)
          refine ⟨(user,hash) :: rows,by rw [whole,others]; rfl,by rw [equal]; simp,?_,distinct⟩
          intro row member
          rcases List.mem_cons.mp member with rfl | later
          · exact ⟨user_,clean,known⟩
          · exact good row later
        · rw [if_neg known] at read
          cases read
    · cases read

/-- A Bearer token is compared with the hash of `cache`. -/
theorem claimed_bearer {value : Text} (present : (claimed r value rows false).2 ≠ []) : ∃ scheme token,
    value = scheme ++ 32 :: token ∧ equalFold scheme "Bearer" = true ∧ 32 ∉ token ∧
    claimed r value rows false = (token,hashOf rows (bytes "cache")) := by
  unfold claimed at present ⊢
  simp only [Bool.false_eq_true,if_false] at present ⊢
  split at present
  · rename_i scheme token two
    obtain ⟨whole,_,clean⟩ := split_two.mp two
    by_cases bearer : equalFold scheme "Bearer" = true
    · exact ⟨scheme,token,whole,bearer,clean,by rw [if_pos bearer]⟩
    · rw [if_neg bearer] at present
      exact absurd rfl present
  · exact absurd rfl present

/-- Only a client passes the `authenticate` of the artifact routes. -/
theorem authenticate_client (passed : authenticate crypt file r false = .ok ()) : BearerClient crypt file r := by
  unfold authenticate at passed
  cases file with
  | none => cases passed
  | some data =>
    simp only at passed
    by_cases large : data.length > 4096
    · rw [if_pos large] at passed
      cases passed
    · rw [if_neg large] at passed
      cases read : readHashes crypt (lines data) [] with
      | none =>
        rw [read] at passed
        cases passed
      | some hashes =>
        rw [read] at passed
        obtain ⟨rows,lines_,rfl,good,distinct⟩ := readHashes_rows read (by simp) List.nodup_nil
        rw [List.append_nil] at passed distinct
        rcases single : r.authorization with _ | ⟨value,_ | ⟨_,_⟩⟩ <;> rw [single] at passed
        · cases passed
        · simp only at passed
          split at passed
          · cases passed
          · rename_i held
            simp only [Bool.or_eq_true,decide_eq_true_eq,not_or,Bool.not_eq_eq_eq_not,Bool.not_true,Bool.not_eq_false] at held
            obtain ⟨⟨⟨present,nonempty⟩,short⟩,verifies⟩ := held
            obtain ⟨scheme,token,rfl,bearer,whole,claims⟩ := claimed_bearer present
            rw [claims] at present nonempty short verifies
            refine ⟨data,rows,scheme,token,_,rfl,?_,single,bearer,whole,nonempty,Nat.not_lt.mp short,?_,verifies⟩
            · exact ⟨by omega,lines_,fun row member => (good row member).1,fun row member => (good row member).2.1,
                fun row member => (good row member).2.2,by simpa using distinct⟩
            · exact List.mem_reverse.mp (hashOf_mem present)
        · cases passed

/-- What the loop of the Gradle server has read, and which hash it has kept. -/
theorem gradleHash_rows {user : Option Text} {users : List Text} {hash out : Text}
    (read : gradleHash user rest users hash = some out) (apart : users.Nodup) : ∃ rows : List (Text × Text),
    rest = rows.map line ∧
    (∀ row ∈ rows, (row.1 ≠ [] ∧ row.2 ≠ []) ∧ (spaced row.1 = false ∧ spaced row.2 = false) ∧ 58 ∉ row.1 ∧ 58 ∉ row.2) ∧
    ((rows.map (·.1)).reverse ++ users).Nodup ∧ (out = hash ∨ ∃ row ∈ rows, user = some row.1 ∧ out = row.2) := by
  induction rest generalizing users hash with
  | nil =>
    simp only [gradleHash,Option.some.injEq] at read
    subst read
    exact ⟨[],rfl,by simp,by simpa using apart,.inl rfl⟩
  | cons first rest ih =>
    unfold gradleHash at read
    split at read
    · rename_i name own parts
      obtain ⟨whole,clean,clean'⟩ := split_two.mp parts
      split at read
      · cases read
      · rename_i good
        simp only [Bool.or_eq_true,decide_eq_true_eq,not_or,Bool.not_eq_true] at good
        obtain ⟨⟨⟨⟨named,owned⟩,plain⟩,plain'⟩,fresh⟩ := good
        obtain ⟨rows,others,good,distinct,kept⟩ := ih read (List.nodup_cons.mpr ⟨fresh,apart⟩)
        refine ⟨(name,own) :: rows,by rw [whole,others]; rfl,?_,by simpa using distinct,?_⟩
        · intro row member
          rcases List.mem_cons.mp member with rfl | later
          · exact ⟨⟨named,owned⟩,⟨plain,plain'⟩,clean,clean'⟩
          · exact good row later
        · rcases kept with same | ⟨row,member,claims,same⟩
          · by_cases mine : user = some name
            · rw [if_pos mine] at same
              exact .inr ⟨(name,own),List.mem_cons_self,mine,same⟩
            · rw [if_neg mine] at same
              exact .inl same
          · exact .inr ⟨row,List.mem_cons_of_mem _ member,claims,same⟩
    · cases read

/-- Only a client passes the `authenticate` of the Gradle server as anyone but the probe. -/
theorem gradleAuthenticate_client {user : Text} (passed : gradleAuthenticate crypt file r = .ok user)
    (client : user ≠ bytes "health") : GradleClient crypt file r := by
  unfold gradleAuthenticate at passed
  cases file with
  | none => cases passed
  | some data =>
    simp only at passed
    split at passed
    · cases passed
    · rename_i bounded
      simp only [Bool.or_eq_true,decide_eq_true_eq,not_or] at bounded
      split at passed
      · cases passed
      · rename_i hash read
        obtain ⟨rows,lines_,good,distinct,kept⟩ := gradleHash_rows read List.nodup_nil
        split at passed
        · cases passed
        · rename_i held
          simp only [Bool.or_eq_true,decide_eq_true_eq,not_or,Bool.not_eq_eq_eq_not,Bool.not_true,Bool.not_eq_false] at held
          obtain ⟨present,verifies⟩ := held
          obtain ⟨row,member,claims,rfl⟩ := kept.resolve_left present
          obtain ⟨⟨user',password⟩,basic,rfl⟩ := Option.map_eq_some_iff.mp claims
          rw [basic] at passed verifies
          simp only [Option.getD_some,Except.ok.injEq] at passed verifies
          subst passed
          have few : rows.length ≤ 2 := by
            have count := congrArg List.length lines_
            rw [List.length_map] at count
            omega
          refine ⟨data,rows,_,password,row.2,rfl,?_,basic,client,member,verifies⟩
          exact ⟨by omega,lines_,few,fun row member => (good row member).1,fun row member => (good row member).2.1,
            fun row member => (good row member).2.2,by simpa using distinct⟩

end

/-! ### `ServeHTTP` -/

/-- A request goes on to the content of the engine. -/
def Enters : Outcome → Prop
  | .query _ | .get _ | .put _ => True
  | .answered _ | .report => False

section
variable {crypt : Bcrypt} {file : Option Text} {r : Request}

theorem status_outside : ¬Enters (serveStatus crypt file r) := by
  intro enters
  unfold serveStatus at enters
  split at enters
  · cases enters
  · split at enters <;> cases enters

theorem turboServe_client {team : Text} (enters : Enters (turboServe crypt team file r)) : TurboClient crypt team file r := by
  unfold turboServe at enters
  split at enters
  · exact absurd enters status_outside
  · cases passed : authenticate crypt file r false with
    | error status =>
      rw [passed] at enters
      cases enters
    | ok _ =>
      rw [passed] at enters
      simp only at enters
      cases parsed : parseQuery r.rawQuery with
      | none =>
        rw [parsed] at enters
        cases enters
      | some query =>
        rw [parsed] at enters
        simp only at enters
        split at enters
        · cases enters
        · rename_i own
          simp only [not_or,not_not] at own
          obtain ⟨one,single,first⟩ := own
          refine ⟨authenticate_client passed,?_⟩
          obtain ⟨value,found⟩ := List.length_eq_one_iff.mp single
          rw [found,List.head?_cons] at first
          rw [parsed,single_pair one found,Option.some.inj first]

theorem serve_client {base : String} {validKey : String → Bool} {readOnly : Bool}
    (enters : Enters (serve crypt base validKey readOnly file r)) : BearerClient crypt file r := by
  unfold serve at enters
  split at enters
  · exact absurd enters status_outside
  · cases passed : authenticate crypt file r false with
    | error status =>
      rw [passed] at enters
      cases enters
    | ok _ => exact authenticate_client passed

theorem gradleServe_client (enters : Enters (gradleServe crypt file r)) : GradleClient crypt file r := by
  unfold gradleServe at enters
  cases passed : gradleAuthenticate crypt file r with
  | error status =>
    rw [passed] at enters
    cases enters
  | ok user =>
    rw [passed] at enters
    simp only at enters
    split at enters
    · split at enters
      · cases enters
      · split at enters <;> cases enters
    · split at enters
      · split at enters <;> cases enters
      · split at enters
        · cases enters
        · rename_i client
          exact gradleAuthenticate_client passed client

end

/-! ### Every run -/

/-- A reply with the bytes or the metadata of an artifact. -/
def Tells {A : Type} : Reply A → Prop
  | .known _ | .metadata _ _ | .body _ _ => True
  | .status _ | .usage _ _ => False

/-- The visit that a step belongs to. -/
def visitOf : Serving.Label → Option Nat
  | .report n | .query n _ | .handle n _ | .close n => some n
  | .mount _ | .request _ | .vanish _ => none

section
variable {A : Type} {S : Service A} {Client : Option Text → Request → Prop} {f₀ f f' : Front A} {l : Serving.Label}

/-- A step gives out something of an artifact. -/
def Gives (f f' : Front A) : Prop := ∃ told, f'.replies = told ++ f.replies ∧ ∃ n reply, (n,reply) ∈ told ∧ Tells reply

/-- Entries with their access times, the sum of their sizes and the directory are the same. -/
structure Same (f f' : Front A) : Prop where
  entries : f'.system.store.entries = f.system.store.entries
  used : f'.system.store.used = f.system.store.used
  volume : f'.system.store.volume = f.system.store.volume

/-- Any run of the server. -/
abbrev Runs (S : Service A) : Front A → Front A → Prop := Reaches (Serving.step S) (fun _ _ => True)

/-- The request of a visit has come while the file was as it has read it. -/
def Came (S : Service A) (f₀ f : Front A) (visit : Visit) : Prop :=
  ∃ f₁ f₂, Runs S f₀ f₁ ∧ f₁.credentials = visit.file ∧ Serving.step S (.request visit.request) f₁ = some f₂ ∧ Runs S f₂ f

/-- The stages of a request that goes on to the content. -/
def Within : Stage → Prop
  | .query _ | .handler _ => True
  | .answered | .report => False

/-- Only the requests of clients have gone on to the content. -/
def Vouched (S : Service A) (Client : Option Text → Request → Prop) (f₀ f : Front A) : Prop :=
  ∀ n visit, f.visits.lookup n = some visit → Within visit.stage → Client visit.file visit.request ∧ Came S f₀ f visit

/-- In every run, what comes out and what changes is by a client. -/
def Isolated (S : Service A) (Client : Option Text → Request → Prop) : Prop :=
  ∀ store file f f' l, Runs S (.boot store file) f → Serving.step S l f = some f' →
    (Gives f f' ∨ ¬Same f f' ∧ ∀ key, l ≠ .vanish key) →
    ∃ n visit, visitOf l = some n ∧ f.visits.lookup n = some visit ∧ Client visit.file visit.request ∧
      Came S (.boot store file) f visit

/-- A request that arrives changes nothing of the store. -/
theorem arrival_store {l : Engines.Label} {s s' : System A} (arrives : (∃ r, l = .put r) ∨ ∃ key, l = .get key)
    (moved : Engines.step S.engine l s = some s') : s'.store = s.store := by
  rcases arrives with ⟨r,rfl⟩ | ⟨key,rfl⟩ <;>
  · simp only [Engines.step] at moved
    split at moved
    · cases moved
      rfl
    · cases moved

theorem gives_append {told : List (Nat × Reply A)} (replies : f'.replies = told ++ f.replies)
    (gives : Gives f f') : ∃ n reply, (n,reply) ∈ told ∧ Tells reply := by
  obtain ⟨told',equal,tells⟩ := gives
  rw [replies] at equal
  rwa [List.append_cancel_right equal]

/-- What a step can do: a request comes, or a visit goes on within its stage. -/
theorem step_within (moved : Serving.step S l f = some f') (acts : Gives f f' ∨ ¬Same f f' ∧ ∀ key, l ≠ .vanish key) :
    ∃ n visit, visitOf l = some n ∧ f.visits.lookup n = some visit ∧ Within visit.stage := by
  have silent : f'.replies = f.replies → Same f f' → False := by
    intro replies same
    rcases acts with gives | ⟨changed,_⟩
    · obtain ⟨n,reply,member,_⟩ := gives_append (replies.trans (List.nil_append _).symm) gives
      cases member
    · exact changed same
  have dull : ∀ n reply, f'.replies = (n,reply) :: f.replies → ¬Tells reply → Same f f' → False := by
    intro n reply replies quiet same
    rcases acts with gives | ⟨changed,_⟩
    · have told : f'.replies = [(n,reply)] ++ f.replies := replies
      obtain ⟨n',reply',member,tells⟩ := gives_append told gives
      obtain ⟨rfl,rfl⟩ := Prod.mk.inj (List.mem_singleton.mp member)
      exact quiet tells
    · exact changed same
  cases l with
  | mount file =>
    cases moved
    exact (silent rfl ⟨rfl,rfl,rfl⟩).elim
  | request r =>
    simp only [Serving.step] at moved
    split at moved
    · cases moved
      exact (dull _ _ rfl (by simp [Tells]) ⟨rfl,rfl,rfl⟩).elim
    · split at moved
      · cases moved
        exact (dull _ _ rfl (by simp [Tells]) ⟨rfl,rfl,rfl⟩).elim
      · cases moved
        exact (silent rfl ⟨rfl,rfl,rfl⟩).elim
      · cases moved
        exact (silent rfl ⟨rfl,rfl,rfl⟩).elim
      · obtain ⟨s,ran,rfl⟩ := Option.map_eq_some_iff.mp moved
        have store := arrival_store (.inr ⟨_,rfl⟩) ran
        exact (silent rfl ⟨congrArg _ store,congrArg _ store,congrArg Store.volume store⟩).elim
      · obtain ⟨s,ran,rfl⟩ := Option.map_eq_some_iff.mp moved
        have store := arrival_store (.inl ⟨_,rfl⟩) ran
        exact (silent rfl ⟨congrArg _ store,congrArg _ store,congrArg Store.volume store⟩).elim
  | report n =>
    simp only [Serving.step] at moved
    split at moved
    · cases moved
      exact (dull _ _ rfl (by simp [Tells]) ⟨rfl,rfl,rfl⟩).elim
    · cases moved
  | query n faults =>
    simp only [Serving.step] at moved
    split at moved
    · rename_i found _
      exact ⟨n,_,rfl,found,trivial⟩
    · cases moved
  | handle n l =>
    simp only [Serving.step] at moved
    split at moved
    · rename_i found
      exact ⟨n,_,rfl,found,trivial⟩
    · cases moved
  | close n =>
    simp only [Serving.step] at moved
    split at moved
    · cases moved
      exact (silent rfl ⟨rfl,rfl,rfl⟩).elim
    · split at moved
      · cases moved
        exact (silent rfl ⟨rfl,rfl,rfl⟩).elim
      · cases moved
    · cases moved
  | vanish key =>
    obtain ⟨s,_,rfl⟩ := Option.map_eq_some_iff.mp moved
    rcases acts with gives | ⟨_,own⟩
    · obtain ⟨n,reply,member,_⟩ := gives_append (List.nil_append _).symm gives
      cases member
    · exact absurd rfl (own key)

/-- The visits after a step: those before, answered or gone, and the one that comes. -/
theorem step_visits (moved : Serving.step S l f = some f') {n : Nat} {visit : Visit}
    (found : f'.visits.lookup n = some visit) (within : Within visit.stage) :
    f.visits.lookup n = some visit ∨
      ∃ r, l = .request r ∧ visit.request = r ∧ visit.file = f.credentials ∧ Enters (S.serveHTTP f.credentials r) := by
  cases l with
  | mount file =>
    cases moved
    exact .inl found
  | request r =>
    simp only [Serving.step] at moved
    split at moved
    · cases moved
      exact .inl found
    · cases outcome : S.serveHTTP f.credentials r with
      | answered status =>
        rw [outcome] at moved
        cases moved
        rcases lookup_insert_some found with ⟨_,rfl⟩ | ⟨_,before⟩
        · cases within
        · exact .inl before
      | report =>
        rw [outcome] at moved
        cases moved
        rcases lookup_insert_some found with ⟨_,rfl⟩ | ⟨_,before⟩
        · cases within
        · exact .inl before
      | query hashes =>
        rw [outcome] at moved
        cases moved
        rcases lookup_insert_some found with ⟨_,rfl⟩ | ⟨_,before⟩
        · exact .inr ⟨r,rfl,rfl,rfl,by rw [outcome]; trivial⟩
        · exact .inl before
      | get key =>
        rw [outcome] at moved
        obtain ⟨s,_,rfl⟩ := Option.map_eq_some_iff.mp moved
        rcases lookup_insert_some found with ⟨_,rfl⟩ | ⟨_,before⟩
        · exact .inr ⟨r,rfl,rfl,rfl,by rw [outcome]; trivial⟩
        · exact .inl before
      | put p =>
        rw [outcome] at moved
        obtain ⟨s,_,rfl⟩ := Option.map_eq_some_iff.mp moved
        rcases lookup_insert_some found with ⟨_,rfl⟩ | ⟨_,before⟩
        · exact .inr ⟨r,rfl,rfl,rfl,by rw [outcome]; trivial⟩
        · exact .inl before
  | report n' =>
    simp only [Serving.step] at moved
    split at moved
    · cases moved
      rcases lookup_insert_some found with ⟨_,rfl⟩ | ⟨_,before⟩
      · cases within
      · exact .inl before
    · cases moved
  | query n' faults =>
    simp only [Serving.step] at moved
    split at moved
    · split at moved
      all_goals
        cases moved
        rcases lookup_insert_some found with ⟨_,rfl⟩ | ⟨_,before⟩
        · cases within
        · exact .inl before
    · cases moved
  | handle n' l =>
    simp only [Serving.step] at moved
    split at moved
    · split at moved
      · obtain ⟨s,_,rfl⟩ := Option.map_eq_some_iff.mp moved
        exact .inl found
      · cases moved
    · cases moved
  | close n' =>
    have erased : f'.visits = f.visits.erase n' := by
      simp only [Serving.step] at moved
      split at moved
      · cases moved
        rfl
      · split at moved
        · cases moved
          rfl
        · cases moved
      · cases moved
    rw [erased,lookup_erase] at found
    split at found
    · cases found
    · exact .inl found
  | vanish key =>
    obtain ⟨s,_,rfl⟩ := Option.map_eq_some_iff.mp moved
    exact .inl found

theorem Came.tail {visit : Visit} (came : Came S f₀ f visit) (moved : Serving.step S l f = some f') : Came S f₀ f' visit := by
  obtain ⟨f₁,f₂,before,file,arrives,after⟩ := came
  exact ⟨f₁,f₂,before,file,arrives,after.tail trivial moved⟩

/-- Where `ServeHTTP` lets clients through only, every handler works for one. -/
theorem vouched_runs (guards : ∀ file r, Enters (S.serveHTTP file r) → Client file r) (store : Store A) (file : Option Text)
    (runs : Runs S (.boot store file) f) : Vouched S Client (.boot store file) f := by
  induction runs with
  | refl =>
    intro n visit found
    cases found
  | @tail f f' l before _ moved ih =>
    intro n visit found within
    rcases step_visits moved found within with known | ⟨r,rfl,rfl,own,enters⟩
    · obtain ⟨client,came⟩ := ih n visit known within
      exact ⟨client,came.tail moved⟩
    · refine ⟨by rw [own]; exact guards _ _ enters,?_⟩
      exact ⟨f,f',before,own.symm,moved,.refl⟩

theorem isolated_of_guards (guards : ∀ file r, Enters (S.serveHTTP file r) → Client file r) : Isolated S Client := by
  intro store file f f' l runs moved acts
  obtain ⟨n,visit,own,found,within⟩ := step_within moved acts
  obtain ⟨client,came⟩ := vouched_runs guards store file runs n visit found within
  exact ⟨n,visit,own,found,client,came⟩

end

/-! ### Servers that only read -/

section
variable {A : Type} {E : Engine A} {s s' : System A} {a b : Store A}

/-- The same artifacts in the same files: only times may differ. -/
structure Kept (a b : Store A) : Prop where
  artifacts : ∀ key, (b.entries.lookup key).map (·.artifact) = (a.entries.lookup key).map (·.artifact)
  used : b.used = a.used
  names : b.volume.names = a.volume.names
  contents : ∀ i, (b.volume.files i).map (·.contents) = (a.volume.files i).map (·.contents)

theorem kept_refl (a : Store A) : Kept a a := ⟨fun _ => rfl,rfl,rfl,fun _ => rfl⟩

/-- In every run no entry is added, replaced or evicted. -/
def Unaltered (S : Service A) : Prop := ∀ store file f f' l, Runs S (.boot store file) f → Serving.step S l f = some f' →
  Kept f.system.store f'.system.store

/-- The phases of a GET. -/
def Reads : Phase A → Prop
  | .asked _ | .reading _ _ _ | .finished _ => True
  | _ => False

/-- The section of a GET in the engines whose files carry a header. -/
theorem getEntry_kept {L : Layout A} {readArtifact : File (Contents A) → Option A} {sameArtifact : A → A → Bool}
    {key : String} {now : Nat} {answer : Answer A} (ran : getEntry L readArtifact sameArtifact key now a = (b,answer)) :
    Kept a b := by
  unfold getEntry at ran
  cases found : a.entries.lookup key with
  | none =>
    rw [found] at ran
    cases ran
    exact kept_refl a
  | some e =>
    rw [found] at ran
    simp only at ran
    obtain ⟨faults,failed | ⟨i,current,file,bound,there,_,opened⟩⟩ := openFile_cases readArtifact (L.filename key) a
    · rw [failed] at ran
      cases ran
      exact ⟨fun _ => rfl,rfl,rfl,fun _ => rfl⟩
    · rw [opened] at ran
      simp only at ran
      split at ran
      · cases ran
        refine ⟨fun key' => ?_,rfl,rfl,fun j => ?_⟩
        · rw [lookup_insert]
          by_cases own : key' = key
          · subst own
            rw [if_pos rfl]
            exact (congrArg (Option.map (fun e => e.artifact)) found).symm
          · rw [if_neg own]
        · by_cases own : j = i
          · subst own
            simp [Store.volume,Store.perform,Disk.perform,Volume.apply,Volume.setFile,there]
          · simp [Store.volume,Store.perform,Disk.perform,Volume.apply,Volume.setFile,own]
      · cases ran
        exact ⟨fun _ => rfl,rfl,rfl,fun _ => rfl⟩

theorem thread_found {l : Engines.Label} {t : Nat} (own : threadOf l = some t) (moved : Engines.step E l s = some s') :
    ∃ phase, s.threads.lookup t = some phase := by
  cases found : s.threads.lookup t with
  | some phase => exact ⟨phase,rfl⟩
  | none =>
    cases l <;> simp only [threadOf,Option.some.injEq,reduceCtorEq] at own <;> subst own <;>
      simp [Engines.step,found] at moved

/-- The handler of a GET stays one, and keeps what the section of the engine keeps. -/
theorem reads_step {l : Engines.Label} {t : Nat} {phase : Phase A} (own : threadOf l = some t)
    (gets : ∀ {key now faults store answer}, E.get key now (s.enter faults) = (store,answer) → Kept (s.enter faults) store)
    (found : s.threads.lookup t = some phase) (reads : Reads phase) (moved : Engines.step E l s = some s') :
    Kept s.store s'.store ∧ ∃ phase', Reads phase' ∧ s'.threads = s.threads.insert t phase' := by
  cases phase with
  | asked key =>
    cases l <;> simp only [threadOf,Option.some.injEq,reduceCtorEq] at own <;> subst own <;>
      simp only [Engines.step,found,reduceCtorEq] at moved
    split at moved
    · rename_i free
      split at moved
      · rename_i ran
        cases moved
        obtain ⟨artifacts,used,names,contents⟩ := gets ran
        exact ⟨⟨artifacts,used,names,contents⟩,.finished _,trivial,rfl⟩
      · rename_i ran
        cases moved
        obtain ⟨artifacts,used,names,contents⟩ := gets ran
        exact ⟨⟨artifacts,used,names,contents⟩,.reading _ _ _,trivial,rfl⟩
    · cases moved
  | reading key i artifact =>
    cases l <;> simp only [threadOf,Option.some.injEq,reduceCtorEq] at own <;> subst own <;>
      simp only [Engines.step,found,reduceCtorEq] at moved
    split at moved
    · cases moved
      exact ⟨⟨fun _ => rfl,rfl,rfl,fun _ => rfl⟩,.finished _,trivial,rfl⟩
    · cases moved
  | finished status =>
    cases l <;> simp only [threadOf,Option.some.injEq,reduceCtorEq] at own <;> subst own <;>
      simp only [Engines.step,found,reduceCtorEq] at moved
  | _ => exact reads.elim

/-- Every handler is one of a GET. -/
def Readers (f : Front A) : Prop := ∀ t phase, f.system.threads.lookup t = some phase → Reads phase

variable {S : Service A} {f f' : Front A} {l : Serving.Label}

theorem readers_inserted {t : Nat} {phase : Phase A} (readers : Readers f) (reads : Reads phase)
    (threads : f'.system.threads = f.system.threads.insert t phase) : Readers f' := by
  intro t' phase' found
  rw [threads] at found
  rcases lookup_insert_some found with ⟨_,rfl⟩ | ⟨_,before⟩
  · exact reads
  · exact readers t' phase' before

/-- Where no PUT is let through, every handler is one of a GET, which keeps the store. -/
theorem readers_step
    (gets : ∀ {key now s store answer}, S.engine.get key now s = (store,answer) → Kept s store)
    (refuses : ∀ file r p, S.serveHTTP file r ≠ .put p) (owned : S.engine.shared = false) (readers : Readers f)
    (moved : Serving.step S l f = some f') : Kept f.system.store f'.system.store ∧ Readers f' := by
  cases l with
  | mount file =>
    cases moved
    exact ⟨kept_refl _,readers⟩
  | request r =>
    simp only [Serving.step] at moved
    split at moved
    · cases moved
      exact ⟨kept_refl _,readers⟩
    · split at moved
      · cases moved
        exact ⟨kept_refl _,readers⟩
      · cases moved
        exact ⟨kept_refl _,readers⟩
      · cases moved
        exact ⟨kept_refl _,readers⟩
      · rename_i key _
        obtain ⟨s,ran,rfl⟩ := Option.map_eq_some_iff.mp moved
        simp only [Engines.step] at ran
        split at ran
        · cases ran
          exact ⟨kept_refl _,readers_inserted readers (show Reads (.asked key) from trivial) rfl⟩
        · cases ran
      · rename_i put
        exact absurd put (refuses _ _ _)
  | report n =>
    simp only [Serving.step] at moved
    split at moved
    · cases moved
      exact ⟨kept_refl _,readers⟩
    · cases moved
  | query n faults =>
    simp only [Serving.step] at moved
    split at moved
    · split at moved
      · cases moved
        exact ⟨kept_refl _,readers⟩
      · cases moved
        exact ⟨kept_refl _,readers⟩
    · cases moved
  | handle n l =>
    simp only [Serving.step] at moved
    split at moved
    · split at moved
      · rename_i own
        obtain ⟨s,ran,rfl⟩ := Option.map_eq_some_iff.mp moved
        obtain ⟨phase,found⟩ := thread_found own ran
        obtain ⟨kept,phase',reads,threads⟩ := reads_step own (fun ran => gets ran) found (readers _ phase found) ran
        exact ⟨kept,readers_inserted readers reads threads⟩
      · cases moved
    · cases moved
  | close n =>
    have same : f'.system = f.system := by
      simp only [Serving.step] at moved
      split at moved
      · cases moved
        rfl
      · split at moved
        · cases moved
          rfl
        · cases moved
      · cases moved
    unfold Readers
    rw [same]
    exact ⟨kept_refl _,readers⟩
  | vanish key =>
    simp only [Serving.step,Engines.step,owned] at moved
    cases moved

/-- A server that refuses every PUT never changes what it stores. -/
theorem unaltered_of_refuses
    (gets : ∀ {key now s store answer}, S.engine.get key now s = (store,answer) → Kept s store)
    (refuses : ∀ file r p, S.serveHTTP file r ≠ .put p) (owned : S.engine.shared = false) : Unaltered S := by
  intro store file f f' l runs moved
  have readers : Readers f := by
    refine runs.invariant (I := Readers) ?_ (fun readers _ moved => (readers_step gets refuses owned readers moved).2)
    intro t phase found
    cases found
  exact (readers_step gets refuses owned readers moved).1

/-- A read-only server refuses every PUT. -/
theorem serve_refuses {crypt : Bcrypt} {base : String} {validKey : String → Bool} {file : Option Text} {r : Request} {p : Put} :
    serve crypt base validKey true file r ≠ .put p := by
  intro put
  unfold serve serveStatus at put
  split at put
  · split at put
    · cases put
    · split at put <;> cases put
  · split at put
    · cases put
    · split at put
      · cases put
      · split at put
        · cases put
        · split at put
          · cases put
          · split at put <;> simp at put

end

/-! ### The engines -/

/-- Content comes out and changes for clients only, and a read-only Go server stores nothing. -/
theorem engines_isolated (crypt : Bcrypt) :
    (∀ c team, Isolated (turbo crypt c team) (TurboClient crypt team)) ∧ (∀ c, Isolated (nx crypt c) (BearerClient crypt)) ∧
    (∀ c, Isolated (go crypt c) (BearerClient crypt)) ∧ (∀ c, Isolated (gradle crypt c) (GradleClient crypt)) ∧
    ∀ c, c.readOnly = true → Unaltered (go crypt c) := by
  refine ⟨fun c team => ?_,fun c => ?_,fun c => ?_,fun c => ?_,fun c readOnly => ?_⟩
  · exact isolated_of_guards (fun file r enters => turboServe_client enters)
  · exact isolated_of_guards (fun file r enters => serve_client enters)
  · exact isolated_of_guards (fun file r enters => serve_client enters)
  · exact isolated_of_guards (fun file r enters => gradleServe_client enters)
  · refine unaltered_of_refuses (fun ran => getEntry_kept ran) (fun file r p => ?_) rfl
    simp only [go,goServe,readOnly]
    exact serve_refuses

/-- A verifier whose hashes are marked passwords. -/
def plain : Bcrypt := ⟨fun hash => hash ≠ [],fun hash password => hash = 35 :: password,by decide⟩

def accounts : Text := bytes "cache:#secret\nhealth:#probe\n"

def upload : Request where
  method := "PUT"
  path := bytes "/v8/artifacts/key"
  rawPath := []
  rawQuery := bytes "teamId=team"
  authorization := [bytes "bearer secret"]
  contentLength := 3
  header := fun name => if name = "x-artifact-duration" then ["7"] else []
  hashes := none
  events := false

/-- The next step of the first handler stages a file. -/
def stages (f : Front Turbocache.Artifact) : Bool :=
  (f.system.store.volume.names.lookup (.upload "1")).isNone &&
  (Serving.step (turbo plain turboServer (bytes "team")) (.handle 0 (.create 0 "1" 2 [])) f).any (fun f' =>
    (f'.system.store.volume.names.lookup (.upload "1")).isSome)

theorem engines_isolated_upload : Unaltered (go plain { goServer with readOnly := true }) ∧
    ∃ f : Front Turbocache.Artifact, ∃ visit, f.visits.lookup 0 = some visit ∧
      TurboClient plain (bytes "team") visit.file visit.request := by
  obtain ⟨teams,_,_,_,readOnly⟩ := engines_isolated plain
  refine ⟨readOnly _ rfl,?_⟩
  let store : Store Turbocache.Artifact := .fresh blank.volume 0 []
  have uploads : (run (Serving.step (turbo plain turboServer (bytes "team"))) (fun _ _ => true)
      [.request upload,.handle 0 (.start 0 1),.handle 0 (.acquire 0)] (.boot store (some accounts))).any stages = true := by
    decide +kernel
  obtain ⟨f,runs,ready⟩ := reaches_of_run (fun _ _ _ => trivial) uploads
  simp only [stages,Bool.and_eq_true,Option.any_eq_true] at ready
  obtain ⟨absent,f',moved,present⟩ := ready
  obtain ⟨n,visit,own,found,client,_⟩ := teams turboServer (bytes "team") store (some accounts) f f' _ runs moved
    (.inr ⟨fun same => by rw [same.volume] at present; simp [Option.isNone_iff_eq_none.mp absent] at present,by simp⟩)
  cases own
  exact ⟨f,visit,found,client⟩

end Expbuild.Isolation
