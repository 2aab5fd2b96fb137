import Expbuild.Disks

/-!
What the cache engines of `operator/internal` have in common. A `Server` keeps
an index of its entries and the bytes they use beside the files of one
directory; every section under `mu` is one function on the `Store` of the two.
The calls of a section to the file system may fail, as the list `faults` tells.
-/
namespace Expbuild.Engines
open Expbuild.Tables Expbuild.Disks

/-- A file name, as `New` tells them apart: `.upload-` and a suffix, the name of
    an entry, or neither. -/
inductive FileName where
  | upload (suffix : String)
  | entry (stem : String)
  | other (name : String)
deriving DecidableEq,Repr

/-- The bytes of a file: fewer than a header, or a header (with what
    `json.Unmarshal` reads in it, if it does) and a body. -/
inductive Contents (A : Type) where
  | short (bytes : Nat)
  | envelope (header : Option A) (body : List UInt8)
deriving DecidableEq,Repr

def Contents.size {A : Type} (header : Nat) : Contents A → Nat
  | .short bytes => bytes
  | .envelope _ body => header + body.length

/-- An entry of the index: its artifact and when it was last accessed. -/
structure Entry (A : Type) where
  artifact : A
  accessed : Nat
deriving DecidableEq,Repr

/-- What happens to the keys, for the statements about whole runs. -/
inductive Event (A : Type) where
  | published (key : String) (artifact : A) (contents : Contents A)
  | dropped (key : String)
  | opened (thread : Nat) (key : String) (artifact : A) (contents : Contents A)
  | served (thread : Nat) (key : String) (artifact : A) (contents : Contents A)
deriving DecidableEq,Repr

/-- The index and the directory of a server, with the outcomes of the next calls
    to the file system (a call fails where the list says so). -/
structure Store (A : Type) where
  entries : Table String (Entry A)
  used : Int
  disk : Disk FileName (Contents A)
  /-- The inode of the next file. -/
  next : Inode
  faults : List Bool
  log : List (Event A)

/-- How an engine stores an entry. -/
structure Layout (A : Type) where
  /-- `headerSize` -/
  header : Nat
  filename : String → FileName
  size : A → Int

/-- What an entry adds to `used`. -/
def Layout.charge {A : Type} (L : Layout A) (a : A) : Int := L.size a + L.header

/-! ### What the handlers use of the standard library -/

/-- `strconv.ParseUint(s, 10, 64)` -/
def parseUint (s : String) : Option Nat :=
  if s.toList ≠ [] ∧ s.toList.all Char.isDigit then
    let n := s.toList.foldl (fun n c => 10 * n + (c.toNat - 48)) 0
    if n < 2 ^ 64 then some n else none
  else none

/-- `strconv.ParseInt(s, 10, 64)` -/
def parseInt (s : String) : Option Int :=
  let bounded (n : Int) : Option Int := if -2 ^ 63 ≤ n ∧ n < 2 ^ 63 then some n else none
  match s.toList with
  | '-' :: digits => (parseUint (String.ofList digits)).bind (fun n => bounded (-n))
  | '+' :: digits => (parseUint (String.ofList digits)).bind (fun n => bounded n)
  | _ => (parseUint s).bind (fun n => bounded n)

/-- A string as `json.Marshal` writes it, for the printable characters. -/
def quote (s : String) : List Char :=
  let escape (c : Char) : List Char :=
    if c = '"' then ['\\','"']
    else if c = '\\' then ['\\','\\']
    else if c = '<' then "\\u003c".toList
    else if c = '>' then "\\u003e".toList
    else if c = '&' then "\\u0026".toList
    else [c]
  '"' :: (s.toList.flatMap escape ++ ['"'])

/-- A JSON object with the given members. -/
def jsonObject (members : List (String × List Char)) : List Char :=
  ['\x7b'] ++ (List.intercalate [','] (members.map (fun m => quote m.1 ++ [':'] ++ m.2))) ++ ['\x7d']

variable {A : Type}

namespace Store

abbrev volume (s : Store A) : Volume FileName (Contents A) := s.disk.volume

def perform (op : Op FileName (Contents A)) (s : Store A) : Store A := { s with disk := s.disk.perform op }

/-- Whether the next call fails. -/
def fails (s : Store A) : Store A × Bool :=
  match s.faults with
  | [] => (s,false)
  | fault :: rest => ({ s with faults := rest },fault)

inductive Removal where
  | ok
  | notExist
  | failed
deriving DecidableEq,Repr

/-- `os.Remove` -/
def remove (name : FileName) (s : Store A) : Store A × Removal :=
  match s.fails with
  | (s,true) => (s,.failed)
  | (s,false) =>
    match s.volume.names.lookup name with
    | none => (s,.notExist)
    | some _ => (s.perform (.unlink name),.ok)

inductive Linked where
  | ok
  | exist
  | failed
deriving DecidableEq,Repr

/-- `os.Link`, which fails where the new name exists. -/
def link (source target : FileName) (s : Store A) : Store A × Linked :=
  match s.fails with
  | (s,true) => (s,.failed)
  | (s,false) =>
    match s.volume.names.lookup source,s.volume.names.lookup target with
    | some i,none => (s.perform (.link target i),.ok)
    | some _,some _ => (s,.exist)
    | none,_ => (s,.failed)

/-- `os.Rename` -/
def rename (source target : FileName) (s : Store A) : Store A × Bool :=
  match s.fails with
  | (s,true) => (s,false)
  | (s,false) =>
    match s.volume.names.lookup source with
    | some i => (s.perform (.rename source target i),true)
    | none => (s,false)

/-- `os.Open` of the root and `Sync`. -/
def syncRoot (s : Store A) : Store A × Bool :=
  match s.fails with
  | (s,true) => (s,false)
  | (s,false) => (s.perform .syncDirectory,true)

/-- `s.used -= s.entries[key].Size + headerSize; delete(s.entries, key)`, with the
    zero size of a key that is not there. -/
def delete (L : Layout A) (key : String) (s : Store A) : Store A :=
  { s with
    used := s.used - (((s.entries.lookup key).map (fun e => L.size e.artifact)).getD 0 + L.header)
    entries := s.entries.erase key
    log := .dropped key :: s.log }

/-- `s.entries[key] = a; s.used += a.Size + headerSize` -/
def record (L : Layout A) (key : String) (e : Entry A) (contents : Contents A) (s : Store A) : Store A :=
  { s with
    entries := s.entries.insert key e
    used := s.used + L.charge e.artifact
    log := .published key e.artifact contents :: s.log }

end Store

/-! ### Eviction -/

inductive Evicted where
  | ok
  | failed
  | exceeded
deriving DecidableEq,Repr

/-- The keys in the order they are evicted: by access, then by name. -/
def Store.oldest (s : Store A) (keep : String → Bool) : List String :=
  let accessed (key : String) : Nat := ((s.entries.lookup key).map (fun e => e.accessed)).getD 0
  (s.entries.keys.filter (fun key => !keep key)).mergeSort (fun i j =>
    if accessed i = accessed j then decide (i ≤ j) else decide (accessed i < accessed j))

/-- The loop of `evictLocked` over the sorted keys: it stops where `enough`
    holds, and what is left at the end has to fit. -/
def evict (L : Layout A) (enough fits : Store A → Bool) : List String → Store A → Store A × Evicted
  | [],s => (s,if fits s then .ok else .exceeded)
  | key :: rest,s =>
    if enough s then (s,.ok)
    else
      match s.remove (L.filename key) with
      | (s,.failed) => (s,.failed)
      | (s,.ok) => evict L enough fits rest (s.delete L key)
      | (s,.notExist) => evict L enough fits rest (s.delete L key)

/-! ### The sections the engines share -/

/-- Opens the file under a name and reads it, as `readArtifact` does. -/
def openFile (readArtifact : File (Contents A) → Option A) (name : FileName) (s : Store A) :
    Store A × Option (Inode × A × File (Contents A)) :=
  match s.fails with
  | (s,true) => (s,none)
  | (s,false) =>
    match s.volume.names.lookup name with
    | none => (s,none)
    | some i =>
      match s.volume.files i with
      | none => (s,none)
      | some file => (s,(readArtifact file).map (fun a => (i,a,file)))

/-- What the section of a GET ends with. -/
inductive Answer (A : Type) where
  | refused (status : Nat)
  | opened (i : Inode) (artifact : A) (contents : Contents A)

/-- The section of `get` in the engines whose files carry a header. -/
def getEntry (L : Layout A) (readArtifact : File (Contents A) → Option A) (sameArtifact : A → A → Bool)
    (key : String) (now : Nat) (s : Store A) : Store A × Answer A :=
  match s.entries.lookup key with
  | none => (s,.refused 404)
  | some e =>
    match openFile readArtifact (L.filename key) s with
    | (s,none) => (s,.refused 503)
    | (s,some (i,current,file)) =>
      if sameArtifact current e.artifact then
        ({ s.perform (.touch i now) with entries := s.entries.insert key { e with accessed := now } },
          .opened i e.artifact file.contents)
      else (s,.refused 503)

/-- A synchronised staging file that is ready to be published. -/
structure Staged (A : Type) where
  key : String
  artifact : A
  tmp : FileName
  contents : Contents A
  accessed : Nat

/-- The section of `put` in the engines that never replace an entry. A name whose
    directory could not be synchronised is taken back. -/
def addEntry (L : Layout A) (evictLocked : Int → Store A → Store A × Evicted) (duplicate : A → A → Nat)
    (p : Staged A) (rollbackFails : Bool) (s : Store A) : Store A × Nat :=
  match s.entries.lookup p.key with
  | some old => (s,duplicate old.artifact p.artifact)
  | none =>
    match evictLocked (L.charge p.artifact) s with
    | (s,.ok) =>
      match s.link p.tmp (L.filename p.key) with
      | (s,.ok) =>
        match s.syncRoot with
        | (s,true) => (s.record L p.key ⟨p.artifact,p.accessed⟩ p.contents,200)
        | (s,false) => (({ s with faults := [rollbackFails] }.remove (L.filename p.key)).1,503)
      | (s,_) => (s,503)
    | (s,_) => (s,503)

/-- The loop of `New` over the directory: staging files go, every entry has to be
    readable, under its own name and within the limits, and nothing else is there. -/
def scan (L : Layout A) (key : A → String) (readArtifact : File (Contents A) → Option A) (accepts : A → Bool) :
    List (FileName × Inode) → Store A → Option (Store A)
  | [],s => some s
  | (name,i) :: rest,s =>
    match s.volume.files i,name with
    | some file,.upload _ =>
      if file.regular then
        match s.remove name with
        | (s,.ok) => scan L key readArtifact accepts rest s
        | _ => none
      else none
    | some file,.entry _ =>
      if file.regular then
        match openFile readArtifact name s with
        | (s,some (_,a,file)) =>
          if L.filename (key a) = name && accepts a then
            scan L key readArtifact accepts rest (s.record L (key a) ⟨a,file.modified⟩ file.contents)
          else none
        | _ => none
      else none
    | _,_ => none

/-- The store of a server that has not read its directory yet. -/
def Store.fresh (volume : Volume FileName (Contents A)) (next : Inode) (faults : List Bool) : Store A :=
  ⟨∅,0,⟨volume,[]⟩,next,faults,[]⟩

/-- The names of a directory with their inodes, as `os.ReadDir` lists them. -/
def items (v : Volume FileName (Contents A)) : List (FileName × Inode) :=
  v.names.entries.map (fun row => (row.1,row.2))

/-- A volume as a server finds it: what is bound has a file. -/
structure Mounted (A : Type) where
  volume : Volume FileName (Contents A)
  next : Inode
  allocated : Allocated next volume

/-! ### Requests -/

/-- A PUT request as its handler sees it: the values of every header by name. -/
structure Put where
  key : String
  contentLength : Int
  header : String → List String

/-- `r.Header.Get` -/
def Put.get (r : Put) (name : String) : String := (r.header name).headD ""

/-- What the engines differ in. -/
structure Engine (A : Type) where
  layout : Layout A
  /-- The keys that `ServeHTTP` lets through. -/
  validKey : String → Bool
  maxEntry : Int
  maxTotal : Int
  /-- At most one staging file, behind `uploadMu` or `uploadSlot`. -/
  exclusive : Bool
  /-- How many uploads may wait for the slot (`pendingUploads`). -/
  queue : Option Nat
  /-- Whether existing keys are refused before staging. -/
  refusesExisting : Bool
  /-- Whether a reader keeps `mu` until its copy is done. -/
  keepsLock : Bool
  /-- Whether others may remove files of the directory. -/
  shared : Bool
  /-- The checks of `put` before anything is stored. -/
  start : Put → Nat → Except Nat A
  /-- How many bytes of the body are copied at most. -/
  limit : Put → Nat
  /-- The checks of `put` on the copied body. -/
  finish : Put → A → List UInt8 → Except Nat A
  /-- What is written over the header in the end. -/
  header : A → Option A
  publish : Staged A → Bool → Store A → Store A × Nat
  get : String → Nat → Store A → Store A × Answer A

/-- Where the handler of a request has got to. -/
inductive Phase (A : Type) where
  | arrived (r : Put)
  | queued (r : Put) (a : A)
  | admitted (r : Put) (a : A)
  | copying (r : Put) (a : A) (tmp : FileName) (i : Inode) (body : List UInt8)
  | staged (p : Staged A) (i : Inode)
  | leaving (tmp : FileName) (i : Inode) (status : Nat)
  | releasing (status : Nat)
  | finished (status : Nat)
  | asked (key : String)
  | reading (key : String) (i : Inode) (a : A)

structure System (A : Type) where
  store : Store A
  /-- The reader that holds `mu`. -/
  mu : Option Nat
  /-- The upload that holds the slot. -/
  slot : Option Nat
  /-- The uploads in `pendingUploads`. -/
  pending : Nat
  threads : Table Nat (Phase A)
  spawned : Nat
  /-- The keys whose files others have removed. -/
  vanished : List String

/-- A step of the server: a request arrives, or the handler of one goes on. -/
inductive Label where
  | put (r : Put)
  | get (key : String)
  | start (t : Nat) (now : Nat)
  | acquire (t : Nat)
  | cancel (t : Nat) (status : Nat)
  | create (t : Nat) (suffix : String) (now : Nat) (faults : List Bool)
  | receive (t : Nat) (chunk : List UInt8) (now : Nat) (fault : Bool)
  | interrupt (t : Nat)
  | finish (t : Nat) (now : Nat) (faults : List Bool)
  | publish (t : Nat) (faults : List Bool) (rollbackFails : Bool)
  | leave (t : Nat) (fault : Bool)
  | release (t : Nat)
  | fetch (t : Nat) (now : Nat) (faults : List Bool)
  | send (t : Nat)
  | vanish (key : String)

namespace System

def setPhase (t : Nat) (phase : Phase A) (s : System A) : System A :=
  { s with threads := s.threads.insert t phase }

def spawn (phase : Phase A) (s : System A) : System A :=
  { s.setPhase s.spawned phase with spawned := s.spawned + 1 }

/-- A server that has read its directory and has no requests yet. -/
def boot (store : Store A) : System A := ⟨store,none,none,0,∅,0,[]⟩

/-- A store for a section with the given outcomes. -/
def enter (faults : List Bool) (s : System A) : Store A := { s.store with faults }

end System

/-- `CreateTemp` and the blank header. -/
def createTemp (suffix : String) (now : Nat) (s : Store A) : Store A × Option Inode × Bool :=
  match s.fails with
  | (s,true) => (s,none,false)
  | (s,false) =>
    let i := s.next
    let s := { s.perform (.create (.upload suffix) i ⟨.short 0,true,false,now⟩) with next := i + 1 }
    match s.fails with
    | (s,true) => (s,some i,false)
    | (s,false) => (s.perform (.write i (.envelope none []) now),some i,true)

/-- The header, if the engine writes one, and `Sync`. -/
def sealFile (header : Option A) (body : List UInt8) (i : Inode) (now : Nat) (s : Store A) : Store A × Bool :=
  let sync (s : Store A) : Store A × Bool :=
    match s.fails with
    | (s,true) => (s,false)
    | (s,false) => (s.perform (.sync i),true)
  match header with
  | none => sync s
  | some a =>
    match s.fails with
    | (s,true) => (s,false)
    | (s,false) => sync (s.perform (.write i (.envelope (some a) body) now))

/-- One step of a server, with the handler of a request between two steps
    wherever it may wait for a lock, the slot or its client. -/
def step (E : Engine A) (l : Label) (s : System A) : Option (System A) :=
  match l with
  | .put r => if E.validKey r.key then some (s.spawn (.arrived r)) else none
  | .get key => if E.validKey key then some (s.spawn (.asked key)) else none
  | .start t now =>
    match s.threads.lookup t with
    | some (.arrived r) =>
      match E.start r now with
      | .error status => some (s.setPhase t (.finished status))
      | .ok a =>
        if E.exclusive then
          match E.queue with
          | none => some (s.setPhase t (.queued r a))
          | some capacity =>
            if s.pending < capacity then some { s.setPhase t (.queued r a) with pending := s.pending + 1 }
            else some (s.setPhase t (.finished 503))
        else some (s.setPhase t (.admitted r a))
    | _ => none
  | .acquire t =>
    match s.threads.lookup t,s.slot with
    | some (.queued r a),none => some { s.setPhase t (.admitted r a) with slot := some t }
    | _,_ => none
  | .cancel t status =>
    -- the client went away, or the timer fired, before the slot was free
    match s.threads.lookup t,E.queue with
    | some (.queued _ _),some _ => some { s.setPhase t (.finished status) with pending := s.pending - 1 }
    | _,_ => none
  | .create t suffix now faults =>
    match s.threads.lookup t with
    | some (.admitted r a) =>
      if E.refusesExisting && s.mu.isSome then none
      else if E.refusesExisting && (s.store.entries.lookup r.key).isSome then some (s.setPhase t (.releasing 409))
      else if (s.store.volume.names.lookup (.upload suffix)).isSome then none
      else
        match createTemp suffix now (s.enter faults) with
        | (store,none,_) => some { s.setPhase t (.releasing 503) with store }
        | (store,some i,false) => some { s.setPhase t (.leaving (.upload suffix) i 503) with store }
        | (store,some i,true) => some { s.setPhase t (.copying r a (.upload suffix) i []) with store }
    | _ => none
  | .receive t chunk now fault =>
    match s.threads.lookup t with
    | some (.copying r a tmp i body) =>
      if body.length + chunk.length ≤ E.limit r then
        if fault then some (s.setPhase t (.leaving tmp i 400))
        else some { s.setPhase t (.copying r a tmp i (body ++ chunk)) with
          store := s.store.perform (.write i (.envelope none (body ++ chunk)) now) }
      else none
    | _ => none
  | .interrupt t =>
    match s.threads.lookup t with
    | some (.copying _ _ tmp i _) => some (s.setPhase t (.leaving tmp i 400))
    | _ => none
  | .finish t now faults =>
    match s.threads.lookup t with
    | some (.copying r a tmp i body) =>
      match E.finish r a body with
      | .error status => some (s.setPhase t (.leaving tmp i status))
      | .ok a =>
        match sealFile (E.header a) body i now (s.enter faults) with
        | (store,false) => some { s.setPhase t (.leaving tmp i 503) with store }
        | (store,true) =>
          some { s.setPhase t (.staged ⟨r.key,a,tmp,.envelope (E.header a) body,now⟩ i) with store }
    | _ => none
  | .publish t faults rollbackFails =>
    match s.threads.lookup t,s.mu with
    | some (.staged p i),none =>
      match E.publish p rollbackFails (s.enter faults) with
      | (store,status) => some { s.setPhase t (.leaving p.tmp i status) with
          store
          vanished := s.vanished.filter (fun key => (store.volume.names.lookup (E.layout.filename key)).isNone) }
    | _,_ => none
  | .leave t fault =>
    match s.threads.lookup t with
    | some (.leaving tmp _ status) =>
      some { s.setPhase t (.releasing status) with store := ((s.enter [fault]).remove tmp).1 }
    | _ => none
  | .release t =>
    match s.threads.lookup t with
    | some (.releasing status) => some { s.setPhase t (.finished status) with
        slot := if s.slot = some t then none else s.slot
        pending := if E.queue.isSome then s.pending - 1 else s.pending }
    | _ => none
  | .fetch t now faults =>
    match s.threads.lookup t,s.mu with
    | some (.asked key),none =>
      match E.get key now (s.enter faults) with
      | (store,.refused status) => some { s.setPhase t (.finished status) with store }
      | (store,.opened i a contents) => some { s.setPhase t (.reading key i a) with
          store := { store with log := .opened t key a contents :: store.log }
          mu := if E.keepsLock then some t else none }
    | _,_ => none
  | .send t =>
    match s.threads.lookup t with
    | some (.reading key i a) =>
      match s.store.volume.files i with
      | some file => some { s.setPhase t (.finished 200) with
          store := { s.store with log := .served t key a file.contents :: s.store.log }
          mu := if s.mu = some t then none else s.mu }
      | none => none
    | _ => none
  | .vanish key =>
    match E.shared,s.store.volume.names.lookup (E.layout.filename key) with
    | true,some _ => some { s with
        store := { s.store.perform (.unlink (E.layout.filename key)) with log := .dropped key :: s.store.log }
        vanished := key :: s.vanished }
    | _,_ => none

end Expbuild.Engines
