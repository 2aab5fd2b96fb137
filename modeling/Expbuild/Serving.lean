import Expbuild.Http
import Expbuild.Runs
import Expbuild.Turbocache
import Expbuild.Nxcache
import Expbuild.Gocache
import Expbuild.Gradlecache

/-!
`ServeHTTP` and `authenticate` of the four engines, and the server they make of
an engine. A request reads the credential file once, when it arrives; whatever
its handler does later rests on that reading.
-/
namespace Expbuild.Serving
open Expbuild.Tables Expbuild.Disks Expbuild.Engines Expbuild.Http

/-- What the servers use of bcrypt. -/
structure Bcrypt where
  /-- Whether `bcrypt.Cost` knows the hash. -/
  cost : Text → Bool
  /-- `bcrypt.CompareHashAndPassword` -/
  compare : Text → Text → Bool
  /-- `ErrHashTooShort` -/
  short : cost [] = false

/-! ### The credential file -/

/-- The lines of the file; the last one may be ended. -/
def lines (data : Text) : List Text := split 10 (trimSuffix 10 data)

/-- The hash of a user, empty where there is none. -/
def hashOf (hashes : List (Text × Text)) (user : Text) : Text := (hashes.lookup user).getD []

/-- The loop of `authenticate` over the lines. -/
def readHashes (crypt : Bcrypt) : List Text → List (Text × Text) → Option (List (Text × Text))
  | [],hashes => some hashes
  | line :: rest,hashes =>
    match split 58 line with
    | [user,hash] =>
      if user ≠ bytes "cache" ∧ user ≠ bytes "health" ∨ hashOf hashes user ≠ [] then none
      else if crypt.cost hash then readHashes crypt rest ((user,hash) :: hashes)
      else none
    | _ => none

/-- The password of a request and the hash to compare it with. -/
def claimed (r : Request) (value : Text) (hashes : List (Text × Text)) (probe : Bool) : Text × Text :=
  if probe then
    match basicAuth r with
    | some (user,password) => if user = bytes "health" then (password,hashOf hashes user) else ([],[])
    | none => ([],[])
  else
    match split 32 value with
    | [scheme,token] => if equalFold scheme "Bearer" then (token,hashOf hashes (bytes "cache")) else ([],[])
    | _ => ([],[])

/-- `authenticate` of the Turborepo, Nx and Go servers; `file` is what `os.Open`
    and `io.ReadAll` give, if they succeed. -/
def authenticate (crypt : Bcrypt) (file : Option Text) (r : Request) (probe : Bool) : Except Nat Unit :=
  match file with
  | none => .error 503
  | some data =>
    if data.length > 4096 then .error 503
    else
      match readHashes crypt (lines data) [] with
      | none => .error 503
      | some hashes =>
        match r.authorization with
        | [value] =>
          let (password,hash) := claimed r value hashes probe
          if hash = [] || password = [] || password.length > 72 || !crypt.compare hash password then .error 401 else .ok ()
        | _ => .error 401

/-- `strings.ContainsAny(text, "\r\n\t ")` -/
def spaced (text : Text) : Bool := text.any (fun b => b = 13 || b = 10 || b = 9 || b = 32)

/-- The loop of the Gradle server's `authenticate`: the users seen, and the hash of the claimed one. -/
def gradleHash (user : Option Text) : List Text → List Text → Text → Option Text
  | [],_,hash => some hash
  | line :: rest,seen,hash =>
    match split 58 line with
    | [name,own] =>
      if name = [] || own = [] || spaced name || spaced own || name ∈ seen then none
      else gradleHash user rest (name :: seen) (if user = some name then own else hash)
    | _ => none

/-- `authenticate` of the Gradle server, with the user it lets through. -/
def gradleAuthenticate (crypt : Bcrypt) (file : Option Text) (r : Request) : Except Nat Text :=
  match file with
  | none => .error 503
  | some data =>
    if data.length > 4096 || (lines data).length > 2 then .error 503
    else
      match gradleHash ((basicAuth r).map (·.1)) (lines data) [] [] with
      | none => .error 503
      | some hash =>
        let (user,password) := (basicAuth r).getD ([],[])
        if hash = [] || !crypt.compare hash password then .error 401 else .ok user

/-! ### Routes -/

/-- How `ServeHTTP` ends, or which section it goes on with. -/
inductive Outcome where
  | answered (status : Nat)
  | report
  | query (hashes : List String)
  | get (key : String)
  | put (r : Put)

/-- The key that a path ends in. -/
def keyOf (base : String) (path : Text) : Option String := (path.dropPrefix? (bytes base)).map ascii

def putOf (r : Request) (key : String) : Put := ⟨key,r.contentLength,r.header⟩

/-- The branch of `/status`, for the probe. -/
def serveStatus (crypt : Bcrypt) (file : Option Text) (r : Request) : Outcome :=
  match authenticate crypt file r true with
  | .error status => .answered status
  | .ok () => if r.method ≠ "GET" then .answered 405 else .report

/-- `ServeHTTP` of the Turborepo server of a team. -/
def turboServe (crypt : Bcrypt) (team : Text) (file : Option Text) (r : Request) : Outcome :=
  if r.path = bytes "/status" ∧ r.rawQuery = [] then serveStatus crypt file r
  else
    match authenticate crypt file r false with
    | .error status => .answered status
    | .ok () =>
      match parseQuery r.rawQuery with
      | none => .answered 403
      | some query =>
        if (keys query).length ≠ 1 ∨ (values query (bytes "teamId")).length ≠ 1 ∨
            (values query (bytes "teamId")).head? ≠ some team then .answered 403
        else if r.rawPath ≠ [] then .answered 400
        else
          let artifact := (keyOf "/v8/artifacts/" r.path).filter Turbocache.validKey
          if r.method = "OPTIONS" ∧ (r.path = bytes "/v8/artifacts" ∨ r.path = bytes "/v8/artifacts/status" ∨
              r.path = bytes "/v8/artifacts/events" ∨ artifact.isSome) then .answered 204
          else if r.path = bytes "/v8/artifacts/status" then .answered (if r.method = "GET" then 200 else 405)
          else if r.path = bytes "/v8/artifacts/events" then
            .answered (if r.method ≠ "POST" then 405 else if r.events then 200 else 400)
          else if r.path = bytes "/v8/artifacts" then
            if r.method ≠ "POST" then .answered 405
            else
              match r.hashes with
              | none => .answered 400
              | some hashes => if hashes.length > 256 then .answered 400 else .query hashes
          else
            match artifact with
            | none => .answered 404
            | some key =>
              if r.method = "GET" ∨ r.method = "HEAD" then .get key
              else if r.method = "PUT" then .put (putOf r key)
              else .answered 405

/-- `ServeHTTP` of the Nx server, and of the Go server behind its limit of requests. -/
def serve (crypt : Bcrypt) (base : String) (validKey : String → Bool) (readOnly : Bool) (file : Option Text) (r : Request) :
    Outcome :=
  if r.path = bytes "/status" ∧ r.rawQuery = [] then serveStatus crypt file r
  else
    match authenticate crypt file r false with
    | .error status => .answered status
    | .ok () =>
      if r.rawQuery ≠ [] ∨ r.rawPath ≠ [] then .answered 400
      else
        match (keyOf base r.path).filter validKey with
        | none => .answered 404
        | some key =>
          if r.method = "GET" then .get key
          else if r.method = "PUT" then
            if readOnly then .answered 403 else .put (putOf r key)
          else .answered 405

def nxServe (crypt : Bcrypt) : Option Text → Request → Outcome := serve crypt "/v1/cache/" Nxcache.validKey false

def goServe (crypt : Bcrypt) (readOnly : Bool) : Option Text → Request → Outcome :=
  serve crypt "/cache/" Gocache.validKey readOnly

/-- `ServeHTTP` of the Gradle server. -/
def gradleServe (crypt : Bcrypt) (file : Option Text) (r : Request) : Outcome :=
  match gradleAuthenticate crypt file r with
  | .error status => .answered status
  | .ok user =>
    if r.path = bytes "/metrics" ∧ r.rawQuery = [] then
      if user ≠ bytes "health" then .answered 403
      else if r.method ≠ "GET" then .answered 405
      else .report
    else if r.path = bytes "/status" ∧ r.rawQuery = [] then
      if r.method ≠ "GET" then .answered 405 else .report
    else if user = bytes "health" then .answered 403
    else
      match (keyOf "/cache/" r.path).filter Gradlecache.validKey with
      | none => .answered 404
      | some key =>
        if r.rawQuery ≠ [] then .answered 404
        else if r.method = "GET" then .get key
        else if r.method = "PUT" then .put (putOf r key)
        else .answered 405

/-! ### The server -/

/-- What an existence query tells of an artifact. -/
structure Known where
  taskDurationMs : Nat
  sha : String
  dirtyHash : String
deriving DecidableEq,Repr

/-- An engine behind its handler. -/
structure Service (A : Type) where
  engine : Engine A
  /-- How many requests are served at once. -/
  limit : Option Nat
  serveHTTP : Option Text → Request → Outcome
  /-- The section of `query`. -/
  known : List String → Store A → Except Nat (List (String × Option Known))

/-- What a request is told. -/
inductive Reply (A : Type) where
  | status (code : Nat)
  | usage (used : Int) (entries : Nat)
  | known (found : List (String × Option Known))
  | metadata (key : String) (a : A)
  | body (key : String) (contents : Contents A)

/-- Where a request has got to: `thread` is its handler in the engine. -/
inductive Stage where
  | answered
  | report
  | query (hashes : List String)
  | handler (thread : Nat)

structure Visit where
  request : Request
  /-- The credential file, as `authenticate` has read it. -/
  file : Option Text
  stage : Stage

structure Front (A : Type) where
  system : System A
  /-- The content of the credential file, where it can be read. -/
  credentials : Option Text
  visits : Table Nat Visit
  arrived : Nat
  replies : List (Nat × Reply A)

/-- A step: the file changes, a request arrives or goes on, or others remove a file. -/
inductive Label where
  | mount (file : Option Text)
  | request (r : Request)
  | report (n : Nat)
  | query (n : Nat) (faults : List Bool)
  | handle (n : Nat) (l : Engines.Label)
  | close (n : Nat)
  | vanish (key : String)

/-- The handler that a step of the engine belongs to. -/
def threadOf : Engines.Label → Option Nat
  | .put _ | .get _ | .vanish _ => none
  | .start t _ | .acquire t | .cancel t _ | .create t _ _ _ | .receive t _ _ _ | .interrupt t | .finish t _ _
  | .publish t _ _ | .leave t _ | .release t | .fetch t _ _ | .send t => some t

section
variable {A : Type}

/-- What a handler writes to its client in a step: the headers with the metadata,
    the body unless it was asked for the headers only, or a status. -/
def written (r : Request) (l : Engines.Label) (t : Nat) (s s' : System A) : List (Reply A) :=
  match l,s.threads.lookup t,s'.threads.lookup t with
  | .send _,some (.reading key i _),_ =>
    if r.method = "HEAD" then [] else ((s.store.volume.files i).map (fun f => Reply.body key f.contents)).toList
  | _,_,some (.reading key _ a) => [.metadata key a]
  | _,_,some (.finished status) => [.status status]
  | _,_,_ => []

namespace Front

def arrive (r : Request) (stage : Stage) (replies : List (Reply A)) (f : Front A) : Front A :=
  { f with
    visits := f.visits.insert f.arrived ⟨r,f.credentials,stage⟩
    arrived := f.arrived + 1
    replies := replies.map (fun reply => (f.arrived,reply)) ++ f.replies }

def answer (n : Nat) (visit : Visit) (reply : Reply A) (f : Front A) : Front A :=
  { f with visits := f.visits.insert n { visit with stage := .answered }, replies := (n,reply) :: f.replies }

/-- A server that has no requests yet. -/
def boot (store : Store A) (file : Option Text) : Front A := ⟨.boot store,file,∅,0,[]⟩

end Front

def step (S : Service A) (l : Label) (f : Front A) : Option (Front A) :=
  match l with
  | .mount file => some { f with credentials := file }
  | .request r =>
    if S.limit.any (fun n => n ≤ f.visits.keys.length) then
      some { f with arrived := f.arrived + 1, replies := (f.arrived,.status 503) :: f.replies }
    else
      match S.serveHTTP f.credentials r with
      | .answered status => some (f.arrive r .answered [.status status])
      | .report => some (f.arrive r .report [])
      | .query hashes => some (f.arrive r (.query hashes) [])
      | .get key => (Engines.step S.engine (.get key) f.system).map (fun s =>
          { f.arrive r (.handler f.system.spawned) [] with system := s })
      | .put p => (Engines.step S.engine (.put p) f.system).map (fun s =>
          { f.arrive r (.handler f.system.spawned) [] with system := s })
  | .report n =>
    match f.visits.lookup n,f.system.mu with
    | some ⟨r,file,.report⟩,none =>
      some (f.answer n ⟨r,file,.report⟩ (.usage f.system.store.used f.system.store.entries.keys.length))
    | _,_ => none
  | .query n faults =>
    match f.visits.lookup n,f.system.mu with
    | some ⟨r,file,.query hashes⟩,none =>
      match S.known hashes (f.system.enter faults) with
      | .ok found => some (f.answer n ⟨r,file,.query hashes⟩ (.known found))
      | .error status => some (f.answer n ⟨r,file,.query hashes⟩ (.status status))
    | _,_ => none
  | .handle n l =>
    match f.visits.lookup n with
    | some ⟨r,_,.handler t⟩ =>
      if threadOf l = some t then
        (Engines.step S.engine l f.system).map (fun s =>
          { f with system := s, replies := (written r l t f.system s).map (fun reply => (n,reply)) ++ f.replies })
      else none
    | _ => none
  | .close n =>
    match f.visits.lookup n with
    | some ⟨_,_,.answered⟩ => some { f with visits := f.visits.erase n }
    | some ⟨_,_,.handler t⟩ =>
      match f.system.threads.lookup t with
      | some (.finished _) => some { f with visits := f.visits.erase n }
      | _ => none
    | _ => none
  | .vanish key => (Engines.step S.engine (.vanish key) f.system).map (fun s => { f with system := s })

/-- The servers without existence queries. -/
def noQuery : List String → Store A → Except Nat (List (String × Option Known)) := fun _ _ => .error 404

end

/-- The loop of the Turborepo server's `query`. -/
def turboKnown (c : Turbocache.Server) : List String → Store Turbocache.Artifact → Except Nat (List (String × Option Known))
  | [],_ => .ok []
  | key :: rest,s =>
    if !Turbocache.validKey key then .error 400
    else
      match s.entries.lookup key with
      | none => (turboKnown c rest s).map (fun others => (key,none) :: others)
      | some e =>
        match openFile c.readArtifact (c.filename key) s with
        | (_,none) => .error 503
        | (s,some (_,current,_)) =>
          if Turbocache.Server.sameArtifact current e.artifact then
            (turboKnown c rest s).map (fun others =>
              (key,some ⟨(parseUint e.artifact.duration).getD 0,e.artifact.sha,e.artifact.dirtyHash⟩) :: others)
          else .error 503

def turbo (crypt : Bcrypt) (c : Turbocache.Server) (team : Text) : Service Turbocache.Artifact :=
  ⟨c.engine,none,turboServe crypt team,turboKnown c⟩

def nx (crypt : Bcrypt) (c : Nxcache.Server) : Service Nxcache.Artifact := ⟨c.engine,none,nxServe crypt,noQuery⟩

def go (crypt : Bcrypt) (c : Gocache.Server) : Service Gocache.Artifact :=
  ⟨c.engine,some 64,goServe crypt c.readOnly,noQuery⟩

def gradle (crypt : Bcrypt) (c : Gradlecache.Server) : Service Gradlecache.Archive :=
  ⟨c.engine,none,gradleServe crypt,noQuery⟩

end Expbuild.Serving
